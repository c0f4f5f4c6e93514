import InpxWebReader.Library.Chunks
import InpxWebReader.Query.Search

/-!
# The pages that the browser keeps

`CatalogPageStore` collects the pages of one listing, and `findBookInPageChunks` finds the book at
an index of the listing by a binary search over the offsets of the pages. A store only ever holds
pages that follow each other from its first page on (`Store.IsListing`), and then the search finds
what the pages laid end to end have at the index, after at most as many probes as the number of
pages has binary digits (`findBookInPageChunks_eq`).
-/

namespace InpxWebReader.Web

open Foundation Chunks

variable {ι : Type}

structure BookListResponse (ι : Type) where
  items : List ι
  catalogSnapshotId : Bytes
  totalCount : Option Nat := none
  offset : Nat := 0
  limit : Nat
  nextCursor : Option Bytes := none
  facets : Option (List Query.FacetItem × List Query.FacetItem) := none

structure CatalogPageStore (ι : Type) where
  pages : List (BookListResponse ι) := []

namespace CatalogPageStore

def replaceFirstPage (page : Option (BookListResponse ι)) : CatalogPageStore ι where
  pages := page.toList

/-- The offset that a continuation has to have. -/
def expectedOffset (store : CatalogPageStore ι) : Nat :=
  match store.pages.getLast? with
  | some previousPage => previousPage.offset + previousPage.items.length
  | none => 0

/-- `appendContinuation`: was the page appended, and the pages after it. -/
def appendContinuation (page : BookListResponse ι) (store : CatalogPageStore ι) :
    Bool × CatalogPageStore ι :=
  match store.pages.head? with
  | none => (false, store)
  | some firstPage =>
    if page.catalogSnapshotId ≠ firstPage.catalogSnapshotId ∨ page.offset ≠ store.expectedOffset then
      (false, store)
    else (true, { pages := store.pages ++ [page] })

end CatalogPageStore

/-- The loop of `findBookInPageChunks` over the pages from `first` up to `last`, which is one less
than `stop`: the book, and the pages that were looked at. -/
def searchPageChunks (pageChunks : List (BookListResponse ι)) (index : Int) (first stop : Nat) :
    Option ι × List Nat :=
  if first < stop then
    let middle := first + (stop - 1 - first) / 2
    match pageChunks[middle]? with
    | none => (none, [middle])
    | some page =>
      if index < page.offset then
        let (book, probes) := searchPageChunks pageChunks index first middle
        (book, middle :: probes)
      else
        let relativeIndex := index - page.offset
        if (page.items.length : Int) ≤ relativeIndex then
          let (book, probes) := searchPageChunks pageChunks index (middle + 1) stop
          (book, middle :: probes)
        else (page.items[relativeIndex.toNat]?, [middle])
  else (none, [])
termination_by stop - first

/-- `findBookInPageChunks`, with the pages that it tells `onPageProbe`. -/
def findBookInPageChunks (pageChunks : List (BookListResponse ι)) (index : Int) :
    Option ι × List Nat :=
  searchPageChunks pageChunks index 0 pageChunks.length

/-! ### The store -/

/-- The pages are of one snapshot and follow each other from the offset of the first one on. -/
structure IsListing (pages : List (BookListResponse ι)) : Prop where
  contiguous : ∀ first ∈ pages.head?,
    Contiguous BookListResponse.offset BookListResponse.items first.offset pages
  snapshot : ∀ first ∈ pages.head?, ∀ page ∈ pages,
    page.catalogSnapshotId = first.catalogSnapshotId

theorem isListing_replaceFirstPage (page : Option (BookListResponse ι)) :
    IsListing (CatalogPageStore.replaceFirstPage page).pages := by
  cases page with
  | none => exact ⟨fun _ h => (by cases h), fun _ h => (by cases h)⟩
  | some page =>
    refine ⟨fun first h => ?_, fun first h page' h' => ?_⟩
    · cases h
      exact ⟨rfl, trivial⟩
    · cases h
      rw [List.mem_singleton.mp h']

theorem appendContinuation_eq_true {page : BookListResponse ι} {store store' : CatalogPageStore ι} :
    store.appendContinuation page = (true, store') ↔ store'.pages = store.pages ++ [page] ∧
      (∃ first, store.pages.head? = some first ∧
        page.catalogSnapshotId = first.catalogSnapshotId) ∧ page.offset = store.expectedOffset := by
  rw [CatalogPageStore.appendContinuation]
  cases hfirst : store.pages.head? with
  | none => simp
  | some first =>
    dsimp only
    split
    · next h =>
      refine ⟨fun hf => (by cases hf), fun ⟨_, ⟨first', hfirst', hid⟩, hoffset⟩ => ?_⟩
      cases hfirst'
      exact absurd h (not_or.mpr ⟨not_not.mpr hid, not_not.mpr hoffset⟩)
    · next h =>
      obtain ⟨hid, hoffset⟩ := not_or.mp h
      constructor
      · intro heq
        cases heq
        exact ⟨rfl, ⟨first, rfl, not_not.mp hid⟩, not_not.mp hoffset⟩
      · rintro ⟨hpages, _⟩
        cases store'
        cases hpages
        rfl

theorem expectedOffset_eq {store : CatalogPageStore ι} (h : IsListing store.pages)
    {first : BookListResponse ι} (hfirst : store.pages.head? = some first) :
    store.expectedOffset =
      first.offset + (store.pages.flatMap BookListResponse.items).length := by
  have hcontiguous := h.contiguous first hfirst
  rw [CatalogPageStore.expectedOffset]
  rcases List.eq_nil_or_concat store.pages with hnil | ⟨before, last, hlast⟩
  · rw [hnil] at hfirst
    cases hfirst
  · rw [List.concat_eq_append] at hlast
    rw [hlast] at hcontiguous ⊢
    rw [List.getLast?_concat, List.flatMap_append, List.flatMap_singleton, List.length_append]
    have := (contiguous_concat.mp hcontiguous).2
    dsimp only
    omega

theorem IsListing.append {page : BookListResponse ι} {store store' : CatalogPageStore ι}
    (h : IsListing store.pages) (ha : store.appendContinuation page = (true, store')) :
    IsListing store'.pages := by
  obtain ⟨hpages, ⟨first, hfirst, hid⟩, hoffset⟩ := appendContinuation_eq_true.mp ha
  have hhead : store'.pages.head? = some first := by
    rw [hpages, List.head?_append, hfirst]
    rfl
  refine ⟨fun first' hfirst' => ?_, fun first' hfirst' page' hpage' => ?_⟩
  · rw [hhead] at hfirst'
    cases hfirst'
    rw [hpages]
    refine contiguous_concat.mpr ⟨h.contiguous first hfirst, ?_⟩
    rw [hoffset, expectedOffset_eq h hfirst]
  · rw [hhead] at hfirst'
    cases hfirst'
    rw [hpages] at hpage'
    rcases List.mem_append.mp hpage' with hold | hnew
    · exact h.snapshot first hfirst page' hold
    · rw [List.mem_singleton.mp hnew]
      exact hid

/-! ### The search -/

theorem size_lt_of_le_half {m n : Nat} (hn : 0 < n) (h : 2 * m ≤ n) : Nat.size m < Nat.size n := by
  rw [Nat.lt_size]
  rcases Nat.eq_zero_or_pos m with rfl | hm
  · rw [Nat.size_zero, pow_zero]
    exact hn
  · have hsize : 0 < Nat.size m := Nat.size_pos.mpr hm
    have hpow : 2 ^ (Nat.size m - 1) ≤ m := Nat.lt_size.mp (by omega)
    calc 2 ^ Nat.size m = 2 * 2 ^ (Nat.size m - 1) := by rw [← pow_succ']; congr 1; omega
      _ ≤ 2 * m := Nat.mul_le_mul_left 2 hpow
      _ ≤ n := h

/-- The search over a part of the pages finds what that part has. -/
theorem searchPageChunks_spec (index : Int) (n : Nat) : ∀ (before after : List (BookListResponse ι))
    {start : Nat} {segment : List (BookListResponse ι)}, segment.length = n →
    Contiguous BookListResponse.offset BookListResponse.items start segment →
    (searchPageChunks (before ++ segment ++ after) index before.length
        (before.length + segment.length)).1 =
      elementAt BookListResponse.items start segment index ∧
    (searchPageChunks (before ++ segment ++ after) index before.length
        (before.length + segment.length)).2.length ≤ Nat.size segment.length := by
  induction n using Nat.strong_induction_on with
  | _ n ih =>
    intro before after start segment hn hcontiguous
    rw [searchPageChunks]
    rcases Nat.eq_zero_or_pos n with rfl | hpos
    · rw [List.eq_nil_of_length_eq_zero hn, if_neg (by simp)]
      refine ⟨?_, Nat.zero_le _⟩
      rw [elementAt]
      simp
    · -- the page in the middle, and the halves beside it
      obtain ⟨left, page, right, hsegment, hleft⟩ : ∃ left page right,
          segment = left ++ page :: right ∧ left.length = (n - 1) / 2 :=
        ⟨segment.take ((n - 1) / 2), segment[(n - 1) / 2], segment.drop ((n - 1) / 2 + 1),
          by rw [List.getElem_cons_drop, List.take_append_drop], by simp; omega⟩
      have hlengths : left.length + right.length + 1 = n := by
        rw [← hn, hsegment, List.length_append, List.length_cons]
        omega
      have hmiddle : before.length + (before.length + segment.length - 1 - before.length) / 2 =
          before.length + left.length := by omega
      have hpage : (before ++ segment ++ after)[before.length + left.length]? = some page := by
        rw [hsegment, List.append_assoc, List.append_assoc, List.getElem?_append_right (by omega),
          Nat.add_sub_cancel_left, List.getElem?_append_right (by omega), Nat.sub_self]
        rfl
      rw [if_pos (by omega), hmiddle]
      dsimp only
      rw [hpage]
      dsimp only
      rw [hsegment] at hcontiguous
      split
      · next hlt =>
        obtain ⟨hbook, hprobes⟩ := ih left.length (by omega) before
          (page :: right ++ after) rfl (contiguous_append.mp hcontiguous).1
        have hwhole : before ++ segment ++ after = before ++ left ++ (page :: right ++ after) := by
          simp [hsegment]
        rw [hwhole]
        refine ⟨?_, ?_⟩
        · rw [hbook, hsegment, elementAt_of_lt hcontiguous hlt]
        · rw [List.length_cons]
          exact (Nat.succ_le_succ hprobes).trans (size_lt_of_le_half (by omega) (by omega))
      · next hge =>
        split
        · next hafter =>
          have hright := ((contiguous_append.mp hcontiguous).2).2
          rw [← offset_eq hcontiguous] at hright
          obtain ⟨hbook, hprobes⟩ := ih right.length (by omega) (before ++ left ++ [page]) after
            rfl hright
          have hwhole : before ++ segment ++ after = before ++ left ++ [page] ++ right ++ after := by
            simp [hsegment]
          have hfirst : before.length + left.length + 1 = (before ++ left ++ [page]).length := by
            simp
            omega
          have hstop : before.length + segment.length =
              (before ++ left ++ [page]).length + right.length := by
            simp [hsegment]
            omega
          rw [hwhole, hfirst, hstop]
          refine ⟨?_, ?_⟩
          · rw [hbook, hsegment, elementAt_of_ge hcontiguous (by omega)]
          · rw [List.length_cons]
            exact (Nat.succ_le_succ hprobes).trans (size_lt_of_le_half (by omega) (by omega))
        · next hinside =>
          refine ⟨?_, ?_⟩
          · rw [hsegment, elementAt_of_mem hcontiguous (by omega) (by omega)]
          · exact Nat.size_pos.mpr (by omega)

/-- In a listing the search finds the book at the index, whatever the sizes of the pages are, and
looks at no more pages than their number has binary digits. -/
theorem findBookInPageChunks_eq {pages : List (BookListResponse ι)} (h : IsListing pages)
    {first : BookListResponse ι} (hfirst : pages.head? = some first) (index : Int) :
    (findBookInPageChunks pages index).1 =
      (if index < first.offset then none
        else (pages.flatMap BookListResponse.items)[index.toNat - first.offset]?) ∧
    (findBookInPageChunks pages index).2.length ≤ Nat.size pages.length := by
  have hspec := searchPageChunks_spec index pages.length [] [] rfl
    (h.contiguous first hfirst)
  rw [List.nil_append, List.append_nil, List.length_nil, Nat.zero_add] at hspec
  exact hspec

end InpxWebReader.Web
