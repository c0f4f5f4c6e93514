import InpxWebReader.Query.SearchPage
import InpxWebReader.Query.SearchSpec

/-!
# What a page is

`PageOf` says what a page is for the version of the catalog that its request read: the books at its
place in the listing of the query, and a cursor to the next place unless the listing ends there.
The three ways to a page agree on it: a first page that reaches the end (`PageOf.direct`), a first
page cut out of the ids that its session keeps (`PageOf.filled`), and the slice of a session
(`PageOf.continued`).
-/

namespace InpxWebReader.Query

open Foundation Domain Database Program

/-- The place in the listing where a page begins. -/
def pageStart (query : SearchQuery) : Nat :=
  match query.cursor with
  | none => query.offset
  | some cursor => cursor.position

/-- A cursor of the identity of a search. -/
def CursorOf (identity : CatalogIdentity) (cursor : SearchCursor) : Prop :=
  cursor.sourceFingerprint = identity.sourceFingerprint ∧
    cursor.catalogSnapshotId = identity.snapshotId

/-- The page that a request is to get from the version `db` of the catalog. -/
structure PageOf (fts : FullText) (db : Database) (input : PageRequest) (opened : OpenedSearch)
    (page : SearchPage) : Prop where
  reads : openSearch fts db input.query = .ok opened
  identity : page.sourceFingerprint = opened.identity.sourceFingerprint ∧
    page.catalogSnapshotId = opened.identity.snapshotId
  books : readBooks db (((orderedIds fts db input.query opened.ftsQuery).drop
    (pageStart input.query)).take input.query.limit) = .ok page.books
  ends : page.nextCursor = none ↔ (orderedIds fts db input.query opened.ftsQuery).length ≤
    pageStart input.query + input.query.limit
  next : ∀ cursor, page.nextCursor = some cursor → CursorOf opened.identity cursor ∧
    cursor.position = pageStart input.query + input.query.limit ∧ cursor.sessionId ≠ []
  total : input.query.cursor = none →
    page.totalCount = some (countSearchResults fts db input.query opened.ftsQuery)
  continues : ∀ cursor, input.query.cursor = some cursor → CursorOf opened.identity cursor ∧
    cursor.position < (orderedIds fts db input.query opened.ftsQuery).length ∧
    page.totalCount = none

section Ways

variable {fts : FullText} {db : Database} {input : PageRequest} {opened : OpenedSearch}

structure Planned (fts : FullText) (db : Database) (input : PageRequest) (opened : OpenedSearch)
    (plan : PagePlan) : Prop where
  reads : openSearch fts db input.query = .ok opened
  first : input.query.cursor = none
  plan_eq : planPage fts db input opened = .ok plan

theorem Planned.eq {plan : PagePlan} (h : Planned fts db input opened plan) :
    plan.totalSize = countSearchResults fts db input.query opened.ftsQuery ∧
    plan.pageStart = min input.query.offset plan.totalSize ∧
    plan.pageEnd = plan.pageStart + min input.query.limit (plan.totalSize - plan.pageStart) ∧
    plan.page.totalCount = some plan.totalSize ∧ plan.page.nextCursor = none ∧
    plan.page.sourceFingerprint = opened.identity.sourceFingerprint ∧
    plan.page.catalogSnapshotId = opened.identity.snapshotId := by
  have hplan := h.plan_eq
  rw [planPage] at hplan
  dsimp only at hplan
  by_cases hsize : sizeLimit ≤ countSearchResults fts db input.query opened.ftsQuery
  · rw [if_pos hsize] at hplan
    cases hplan
  · rw [if_neg hsize] at hplan
    injection hplan with hplan
    rw [← hplan]
    exact ⟨rfl, rfl, rfl, rfl, rfl, rfl, rfl⟩

theorem pageStart_of_first (h : input.query.cursor = none) :
    pageStart input.query = input.query.offset := by
  rw [pageStart]
  rw [h]

theorem PageOf.direct {plan : PagePlan} {page : SearchPage} (h : Planned fts db input opened plan)
    (hend : plan.totalSize ≤ plan.pageEnd)
    (hpage : directPage fts db input.query opened plan = .ok page) :
    PageOf fts db input opened page := by
  obtain ⟨htotal, hstart, hpageEnd, hcount, hnext, hidentity⟩ := h.eq
  rw [directPage] at hpage
  obtain ⟨books, hbooks, hpage⟩ := except_bind_eq_ok hpage
  injection hpage with hpage
  have hread : readBooks db (((orderedIds fts db input.query opened.ftsQuery).drop
      input.query.offset).take input.query.limit) = .ok books := by
    unfold searchBooks toSqlitePaginationValue at hbooks
    obtain ⟨limit, hlimit, hbooks⟩ := except_bind_eq_ok hbooks
    obtain ⟨offset, hoffset, hbooks⟩ := except_bind_eq_ok hbooks
    split at hlimit
    · cases hlimit
    split at hoffset
    · cases hoffset
    injection hlimit with hlimit
    injection hoffset with hoffset
    rw [hlimit, hoffset]
    exact hbooks
  refine {
    reads := h.reads
    identity := ?_
    books := ?_
    ends := ?_
    next := ?_
    total := ?_
    continues := ?_ }
  · rw [← hpage]
    exact hidentity
  · rw [pageStart_of_first h.first, ← hpage]
    exact hread
  · rw [pageStart_of_first h.first, ← hpage, length_orderedIds, ← htotal]
    constructor
    · intro _
      omega
    · intro _
      exact hnext
  · intro cursor hcursor
    rw [← hpage] at hcursor
    rw [show plan.page.nextCursor = some cursor from hcursor] at hnext
    cases hnext
  · intro _
    rw [← hpage, ← htotal]
    exact hcount
  · intro cursor hcursor
    rw [h.first] at hcursor
    cases hcursor

/-- A first page whose session keeps the ids that follow. -/
theorem PageOf.filled {plan : PagePlan} {ids : List Nat} {page : SearchPage}
    {cursor : SearchCursor} (h : Planned fts db input opened plan)
    (hmore : plan.pageEnd < plan.totalSize)
    (hfill : fillPage fts db input.query opened plan = .ok (ids, page))
    (hcursor : CursorOf opened.identity cursor ∧ cursor.position = plan.pageEnd ∧
      cursor.sessionId ≠ []) :
    ids = orderedIds fts db input.query opened.ftsQuery ∧
      PageOf fts db input opened { page with nextCursor := some cursor } := by
  obtain ⟨htotal, hstart, hpageEnd, hcount, _, hidentity⟩ := h.eq
  rw [fillPage] at hfill
  obtain ⟨ids', hids, hfill⟩ := except_bind_eq_ok hfill
  unfold searchBookIds at hids
  dsimp only at hids
  split at hids
  · injection hids with hids
    obtain ⟨books, hbooks, hfill⟩ := except_bind_eq_ok hfill
    split at hfill
    · cases hfill
    · injection hfill with hfill
      obtain ⟨hids', hpage⟩ := Prod.mk.inj hfill
      have hoffset : plan.pageStart = input.query.offset := by omega
      have hlimit : plan.pageEnd - plan.pageStart = input.query.limit := by omega
      have hnext : plan.pageEnd = input.query.offset + input.query.limit := by omega
      refine ⟨by rw [← hids', hids], ?_⟩
      refine {
        reads := h.reads
        identity := ?_
        books := ?_
        ends := ?_
        next := ?_
        total := ?_
        continues := ?_ }
      · rw [← hpage]
        exact hidentity
      · rw [pageStart_of_first h.first, ← hpage, hids, ← hoffset, ← hlimit]
        exact hbooks
      · rw [pageStart_of_first h.first, length_orderedIds, ← htotal]
        constructor
        · intro hnone
          cases hnone
        · intro hle
          omega
      · intro cursor' hcursor'
        injection hcursor' with hcursor'
        rw [pageStart_of_first h.first, ← hcursor', ← hnext]
        exact hcursor
      · intro _
        rw [← hpage, ← htotal]
        exact hcount
      · intro cursor' hcursor'
        rw [h.first] at hcursor'
        cases hcursor'
  · cases hids

theorem sliceOf_ids {session : Session} {cursor : SearchCursor} {limit : Nat} :
    (sliceOf session cursor limit).ids = (session.bookIds.drop cursor.position).take limit := by
  show (session.bookIds.drop cursor.position).take _ = _
  rw [← List.length_drop, ← List.take_eq_take_min]

/-- The slice of a session that keeps the listing of the request. -/
theorem PageOf.continued {session : Session} {cursor : SearchCursor} {page : SearchPage}
    (hreads : openSearch fts db input.query = .ok opened)
    (hcursor : input.query.cursor = some cursor) (hvalid : cursor.isValid = true)
    (hof : CursorOf opened.identity cursor)
    (hids : session.bookIds = orderedIds fts db input.query opened.ftsQuery)
    (hposition : cursor.position < session.bookIds.length)
    (hpage : continuedPage db opened (sliceOf session cursor input.query.limit) = .ok page) :
    PageOf fts db input opened page := by
  have hstart : pageStart input.query = cursor.position := by
    rw [pageStart]
    rw [hcursor]
  rw [continuedPage] at hpage
  obtain ⟨books, hbooks, hpage⟩ := except_bind_eq_ok hpage
  split at hpage
  · cases hpage
  · injection hpage with hpage
    have hslice : (sliceOf session cursor input.query.limit).ids =
        ((orderedIds fts db input.query opened.ftsQuery).drop cursor.position).take
          input.query.limit := by
      rw [sliceOf_ids, hids]
    refine {
      reads := hreads
      identity := ?_
      books := ?_
      ends := ?_
      next := ?_
      total := ?_
      continues := ?_ }
    · rw [← hpage]
      exact ⟨rfl, rfl⟩
    · rw [hstart, ← hslice, ← hpage]
      exact hbooks
    · rw [hstart, ← hids, ← hpage]
      show (sliceOf session cursor input.query.limit).nextCursor = none ↔ _
      rw [sliceOf]
      dsimp only
      split
      · constructor
        · intro hnone
          cases hnone
        · intro hle
          omega
      · constructor
        · intro _
          omega
        · intro _
          rfl
    · intro cursor' hcursor'
      rw [← hpage] at hcursor'
      replace hcursor' : (sliceOf session cursor input.query.limit).nextCursor = some cursor' :=
        hcursor'
      rw [sliceOf] at hcursor'
      dsimp only at hcursor'
      split at hcursor'
      · injection hcursor' with hcursor'
        rw [hstart, ← hcursor']
        refine ⟨hof, ?_, (SearchCursor.isValid_iff.mp hvalid).1⟩
        show cursor.position + min _ _ = _
        omega
      · cases hcursor'
    · intro hnone
      rw [hcursor] at hnone
      cases hnone
    · intro cursor' hcursor'
      rw [hcursor] at hcursor'
      injection hcursor' with hcursor'
      rw [← hcursor', ← hids, ← hpage]
      exact ⟨hof, hposition, rfl⟩

end Ways

end InpxWebReader.Query
