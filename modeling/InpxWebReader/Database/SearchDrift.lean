import InpxWebReader.Database.Relations

/-!
# Does the search index drift from the book rows?

Replacing a book sends the index a delete command with the document rebuilt from the stored rows.
The document of the insert command joins every normalized name, while the stored links keep each
name once, so the two differ exactly for metadata with a repeated name
(`document_eq_storedDocument_iff`). Over a run of `insertInpxBook` and `updateInpxBook` calls, the
delete commands match the inserts before them exactly when no metadata that a later call replaced
had one (`deletesMatch_iff_noRepeats`).
-/

namespace InpxWebReader.Database

open Foundation Domain Inpx Program List

/-! ### Specifications of the two calls -/

/-- The metadata that storing a record and its parsed book writes. -/
def storedMetadata (inpxRecord : InpxRecord) (parsedBook : ParsedBook) : BookMetadata :=
  (buildStoredMetadata inpxRecord parsedBook).1

/-- Commands added to the index of a database. -/
def withCommands (commands : List SearchCommand) (db : Database) : Database :=
  { db with searchIndex := db.searchIndex ++ commands }

theorem insertInpxBook_spec (inpxRecord : InpxRecord) (parsedBook : ParsedBook)
    (addedAtUtc : Bytes) {db : Database} (hw : WellLinked db) :
    Triple (fun s => s = db) (insertInpxBook inpxRecord parsedBook addedAtUtc)
      (fun result db' => result.1 = db.books.nextId ∧ ∃ books mid,
        db.books.insert? (bindStoredBookMetadata (storedMetadata inpxRecord parsedBook)
          (newBookRow db.books.nextId addedAtUtc)) = some books ∧
        ReplacedRelations db.books.nextId (storedMetadata inpxRecord parsedBook)
          (setBooks books db) mid ∧
        db' = withCommands [.insert db.books.nextId
          (buildNormalizedSearchDocument (storedMetadata inpxRecord parsedBook))] mid)
      fun _ _ => False := by
  set row := bindStoredBookMetadata (storedMetadata inpxRecord parsedBook)
    (newBookRow db.books.nextId addedAtUtc) with hrow
  obtain ⟨books, hbooks⟩ := Table.insert?_isSome (t := db.books) (r := row)
    (Table.nextId_not_mem _) (Table.nextId_not_mem _)
  rw [insertInpxBook]
  refine Triple.bind (M := fun t s => t = db ∧ s = db) (.get fun s hs => ⟨hs, hs⟩) fun t => ?_
  refine Triple.of_pure fun ht => ?_
  subst ht
  refine Triple.bind (M := fun a s => a = books ∧ s = t) ?_ fun a => Triple.of_pure fun ha => ?_
  · change Triple _ (orConstraintFailed (t.books.insert? row)) _ _
    rw [hbooks]
    exact .pure fun s hs => ⟨rfl, hs⟩
  · subst ha
    refine Triple.bind (M := fun _ s => s = setBooks a t) (.modify fun s _ => rfl) fun _ => ?_
    have hw' : WellLinked (setBooks a t) := ⟨hw.spelling, hw.named, hw.resolved⟩
    refine (replaceBookRelations_spec hw').bind fun _ => Triple.of_state fun mid hmid => ?_
    refine Triple.bind (M := fun _ s => s = withCommands [.insert t.books.nextId
      (buildNormalizedSearchDocument (storedMetadata inpxRecord parsedBook))] mid)
      (.modify fun s hs => by rw [hs]; rfl) fun _ => ?_
    exact .pure fun s hs => ⟨rfl, a, mid, hbooks, hmid, hs⟩

/-- The table of books with the metadata of one of them replaced. -/
def updatedBooks (bookId : Nat) (metadata : BookMetadata) (db : Database) :
    Table BookRow.id BookRow.id :=
  db.books.update (fun r => r.id = bookId) (bindStoredBookMetadata metadata)
    (bindStoredBookMetadata_id metadata) (bindStoredBookMetadata_id metadata)

theorem updateInpxBook_spec {bookId : Nat} (inpxRecord : InpxRecord) (parsedBook : ParsedBook)
    {db : Database} (hw : WellLinked db) {old : BookMetadata}
    (hold : readStoredMetadata db bookId = some old) :
    Triple (fun s => s = db) (updateInpxBook bookId inpxRecord parsedBook)
      (fun _ db' => ∃ mid, ReplacedRelations bookId (storedMetadata inpxRecord parsedBook)
          (setBooks (updatedBooks bookId (storedMetadata inpxRecord parsedBook) db) db) mid ∧
        db' = withCommands [.delete bookId (buildNormalizedSearchDocument old), .insert bookId
          (buildNormalizedSearchDocument (storedMetadata inpxRecord parsedBook))] mid)
      fun _ _ => False := by
  rw [updateInpxBook]
  refine Triple.bind (M := fun t s => t = db ∧ s = db) (.get fun s hs => ⟨hs, hs⟩) fun t => ?_
  refine Triple.of_pure fun ht => ?_
  subst ht
  rw [hold]
  refine Triple.bind (M := fun _ s => s = setBooks (updatedBooks bookId
    (storedMetadata inpxRecord parsedBook) t) t) (.modify fun s hs => by rw [hs]; rfl) fun _ => ?_
  have hw' : WellLinked (setBooks (updatedBooks bookId
      (storedMetadata inpxRecord parsedBook) t) t) := ⟨hw.spelling, hw.named, hw.resolved⟩
  refine (replaceBookRelations_spec hw').bind fun _ => Triple.of_state fun mid hmid => ?_
  refine Triple.bind (M := fun _ s => s = withCommands [.delete bookId
    (buildNormalizedSearchDocument old)] mid) (.modify fun s hs => by rw [hs]; rfl) fun _ => ?_
  refine Triple.bind (M := fun _ s => s = withCommands [.delete bookId
    (buildNormalizedSearchDocument old), .insert bookId (buildNormalizedSearchDocument
      (storedMetadata inpxRecord parsedBook))] mid) (.modify fun s hs => ?_) fun _ => ?_
  · rw [hs]
    rw [withCommands]
    simp only [append_assoc, singleton_append]
    rfl
  · exact .pure fun s hs => ⟨mid, hmid, hs⟩

theorem updateInpxBook_missing {bookId : Nat} {inpxRecord : InpxRecord} {parsedBook : ParsedBook}
    {db : Database} (hold : readStoredMetadata db bookId = none) :
    updateInpxBook bookId inpxRecord parsedBook db =
      .error (runtimeError "INPX book row is missing during update.") db := by
  have h : Triple (fun s => s = db) (updateInpxBook bookId inpxRecord parsedBook)
      (fun _ _ => False) fun e s =>
        e = runtimeError "INPX book row is missing during update." ∧ s = db := by
    rw [updateInpxBook]
    refine Triple.bind (M := fun t s => t = db ∧ s = db) (.get fun s hs => ⟨hs, hs⟩) fun t => ?_
    refine Triple.of_pure fun ht => ?_
    subst ht
    rw [hold]
    exact .throw fun s hs => ⟨rfl, hs⟩
  cases hr : updateInpxBook bookId inpxRecord parsedBook db with
  | ok a s => exact (h.ok rfl hr).elim
  | error e s =>
    obtain ⟨rfl, rfl⟩ := h.throws rfl hr
    rfl

/-! ### Joined names -/

theorem length_foldl_joinTexts (texts : List Bytes) (joined : Bytes) (hj : joined ≠ []) :
    (texts.foldl (fun joined text =>
      if joined = [] then text else joined ++ ascii " " ++ text) joined).length =
        joined.length + (texts.map fun t => t.length + 1).sum := by
  induction texts generalizing joined with
  | nil => rfl
  | cons text texts ih =>
    have hspace : (ascii " ").length = 1 := by decide
    rw [foldl_cons, if_neg hj, ih _ (by simp [hj]), map_cons, sum_cons, length_append,
      length_append, hspace]
    omega

/-- The length of a join depends on the texts alone, not on their order. -/
theorem length_joinTexts {texts : List Bytes} (h : ∀ t ∈ texts, t ≠ []) :
    (joinTexts texts).length = (texts.map fun t => t.length + 1).sum - 1 := by
  cases texts with
  | nil => rfl
  | cons text texts =>
    rw [joinTexts]
    rw [foldl_cons, if_pos rfl, length_foldl_joinTexts texts text (h text (mem_cons_self ..)),
      map_cons, sum_cons]
    omega

theorem length_joinTexts_lt {texts fewer sorted sortedFewer : List Bytes}
    (h : ∀ t ∈ texts, t ≠ []) (hsub : fewer <+ texts) (hne : fewer ≠ texts)
    (hs : sorted ~ texts) (hs' : sortedFewer ~ fewer) :
    (joinTexts sortedFewer).length < (joinTexts sorted).length := by
  have hf : ∀ t ∈ fewer, t ≠ [] := fun t ht => h t (hsub.subset ht)
  rw [length_joinTexts fun t ht => h t (hs.mem_iff.mp ht),
    length_joinTexts fun t ht => hf t (hs'.mem_iff.mp ht), (hs.map _).sum_eq, (hs'.map _).sum_eq]
  have hlt := hsub.sum_map_lt (w := fun t => t.length + 1) hne fun _ _ => Nat.succ_pos _
  have hpos : 2 ≤ (texts.map fun t => t.length + 1).sum := by
    cases texts with
    | nil => exact absurd (sublist_nil.mp hsub) hne
    | cons text texts =>
      have := length_pos_iff.mpr (h text (mem_cons_self ..))
      rw [map_cons, sum_cons]
      omega
  omega

/-! ### Documents -/

/-- No normalized name is repeated within one relation of the metadata. -/
def NoRepeats (metadata : BookMetadata) : Prop :=
  ∀ kind, (normalizedTexts (relatedValues metadata kind)).Nodup

/-- The join of normalized names, in the order the index has them. -/
def joinNames : EntityKind → List Bytes → Bytes
  | .authors, names => joinTexts names
  | .tags, names => joinTexts (names.insertionSort byteOrder)
  | .genres, names => joinTexts (names.insertionSort byteOrder)

/-- A document from a title, a description and the names of each relation. -/
def documentOf (title : Bytes) (description : Option Bytes) (names : EntityKind → List Bytes) :
    SearchDocument where
  title := normalizeText title
  authors := joinNames .authors (names .authors)
  tags := joinNames .tags (names .tags)
  genres := joinNames .genres (names .genres)
  description := buildNormalizedDescription description

theorem buildNormalizedSearchDocument_eq (metadata : BookMetadata) :
    buildNormalizedSearchDocument metadata = documentOf metadata.title metadata.description
      fun kind => normalizedTexts (relatedValues metadata kind) := rfl

instance : Std.Total byteOrder := ⟨fun a b => le_total (a.map UInt8.toNat) (b.map UInt8.toNat)⟩

instance : IsTrans Bytes byteOrder := ⟨fun _ _ _ hab hbc => le_trans hab hbc⟩

instance : Std.Antisymm byteOrder := ⟨fun _ _ hab hba =>
  map_injective_iff.mpr (fun _ _ h => UInt8.toNat_inj.mp h) (le_antisymm hab hba)⟩

theorem insertionSort_eq_of_perm {xs ys : List Bytes} (h : xs ~ ys) :
    xs.insertionSort byteOrder = ys.insertionSort byteOrder :=
  ((perm_insertionSort _ _).trans (h.trans (perm_insertionSort _ _).symm)).eq_of_pairwise
    (fun _ _ _ _ hab hba => Std.Antisymm.antisymm _ _ hab hba) (pairwise_insertionSort _ _)
    (pairwise_insertionSort _ _)

/-- Joins of the same names, of which some were left out, differ. -/
theorem joinNames_firsts_eq_iff (kind : EntityKind) (values : List Bytes) :
    joinNames kind (firsts [] (normalizedTexts values)) = joinNames kind (normalizedTexts values) ↔
      (normalizedTexts values).Nodup := by
  constructor
  · intro h
    by_contra hn
    have hne : firsts [] (normalizedTexts values) ≠ normalizedTexts values :=
      fun he => hn (firsts_eq_self_iff.mp he)
    have hpos : ∀ t ∈ normalizedTexts values, t ≠ [] :=
      fun t ht => of_decide_eq_true (mem_filter.mp ht).2
    have hlt : (joinNames kind (firsts [] (normalizedTexts values))).length <
        (joinNames kind (normalizedTexts values)).length := by
      cases kind
      · exact length_joinTexts_lt hpos (firsts_sublist _ _) hne (.refl _) (.refl _)
      · exact length_joinTexts_lt hpos (firsts_sublist _ _) hne (perm_insertionSort _ _)
          (perm_insertionSort _ _)
      · exact length_joinTexts_lt hpos (firsts_sublist _ _) hne (perm_insertionSort _ _)
          (perm_insertionSort _ _)
    rw [h] at hlt
    exact absurd hlt (lt_irrefl _)
  · intro h
    rw [firsts_eq_self_iff.mpr h]

/-- The document rebuilt from stored rows: each name once. -/
def rebuiltDocument (metadata : BookMetadata) : SearchDocument :=
  documentOf metadata.title metadata.description fun kind =>
    firsts [] (normalizedTexts (relatedValues metadata kind))

/-- A book's rows hold the given metadata. -/
structure HoldsMetadata (db : Database) (bookId : Nat) (metadata : BookMetadata) : Prop where
  row : ∃ row, db.books.find? bookId = some row ∧ row.title = metadata.title ∧
    row.description = metadata.description
  names : ∀ kind, linkedNames db kind bookId =
    firsts [] (normalizedTexts (relatedValues metadata kind))
  sorted : ∀ kind, (linksOf db kind bookId).Pairwise fun r r' => r.order ≤ r'.order

/-- Reading a book back and building its document leaves each name once. -/
theorem HoldsMetadata.storedDocument {db : Database} {bookId : Nat} {metadata : BookMetadata}
    (h : HoldsMetadata db bookId metadata) (hw : WellLinked db) :
    (readStoredMetadata db bookId).map buildNormalizedSearchDocument =
      some (rebuiltDocument metadata) := by
  obtain ⟨row, hrow, htitle, hdescription⟩ := h.row
  unfold readStoredMetadata
  rw [hrow, Option.map_some, Option.map_some, Option.some_inj, buildNormalizedSearchDocument_eq]
  unfold rebuiltDocument documentOf
  simp only [relatedValues, normalizedTexts_storedNames hw, joinNames, htitle, hdescription,
    storedNames_authors hw (h.sorted .authors),
    insertionSort_eq_of_perm (storedNames_perm hw .tags bookId),
    insertionSort_eq_of_perm (storedNames_perm hw .genres bookId), h.names]

/-- The document read back is the one inserted exactly when no name repeats. -/
theorem rebuiltDocument_eq_iff (metadata : BookMetadata) :
    rebuiltDocument metadata = buildNormalizedSearchDocument metadata ↔ NoRepeats metadata := by
  rw [buildNormalizedSearchDocument_eq]
  unfold rebuiltDocument documentOf NoRepeats
  rw [SearchDocument.mk.injEq, joinNames_firsts_eq_iff, joinNames_firsts_eq_iff,
    joinNames_firsts_eq_iff]
  constructor
  · rintro ⟨_, ha, ht, hg, _⟩ kind
    cases kind
    · exact ha
    · exact ht
    · exact hg
  · exact fun h => ⟨rfl, h .authors, h .tags, h .genres, rfl⟩

/-! ### Runs of calls -/

/-- A call that stores the metadata of a book. -/
inductive BookCall
  | insert (inpxRecord : InpxRecord) (parsedBook : ParsedBook) (addedAtUtc : Bytes)
  | update (bookId : Nat) (inpxRecord : InpxRecord) (parsedBook : ParsedBook)

/-- The database after a call. A call for a book that is missing fails before it changes
anything. -/
def BookCall.apply (db : Database) : BookCall → Database
  | .insert inpxRecord parsedBook addedAtUtc =>
    match insertInpxBook inpxRecord parsedBook addedAtUtc db with
    | .ok _ db' => db'
    | .error _ db' => db'
  | .update bookId inpxRecord parsedBook =>
    match updateInpxBook bookId inpxRecord parsedBook db with
    | .ok _ db' => db'
    | .error _ db' => db'

def runCalls (calls : List BookCall) (db : Database) : Database := calls.foldl BookCall.apply db

/-- The document of the latest insert command for a row. -/
def latestInsert (log : List SearchCommand) (rowid : Nat) : Option SearchDocument :=
  log.foldl (fun latest command => match command with
    | .insert r document => if r = rowid then some document else latest
    | .delete _ _ => latest) none

/-- Each delete command binds the document of the latest insert command before it. -/
def DeletesMatch (log : List SearchCommand) : Prop :=
  ∀ before rowid document after, log = before ++ .delete rowid document :: after →
    latestInsert before rowid = some document

/-- The metadata that some call of the run replaced, where `stored` is the metadata of the books
there are already: book `i + 1` has the metadata at `i`. -/
def overwrittenFrom (stored : List BookMetadata) : List BookCall → List BookMetadata
  | [] => []
  | .insert inpxRecord parsedBook _ :: calls =>
    overwrittenFrom (stored ++ [storedMetadata inpxRecord parsedBook]) calls
  | .update 0 _ _ :: calls => overwrittenFrom stored calls
  | .update (i + 1) inpxRecord parsedBook :: calls =>
    match stored[i]? with
    | none => overwrittenFrom stored calls
    | some old =>
      old :: overwrittenFrom (stored.set i (storedMetadata inpxRecord parsedBook)) calls

/-- The metadata that a run from an empty catalog replaced. -/
def overwritten (calls : List BookCall) : List BookMetadata := overwrittenFrom [] calls

/-! ### Logs -/

theorem latestInsert_append (log : List SearchCommand) (command : SearchCommand) (rowid : Nat) :
    latestInsert (log ++ [command]) rowid = match command with
      | .insert r document => if r = rowid then some document else latestInsert log rowid
      | .delete _ _ => latestInsert log rowid := by
  rw [latestInsert]
  rw [foldl_append]
  rfl

theorem deletesMatch_nil : DeletesMatch [] := by
  intro before rowid document after h
  exact absurd h (by simp)

theorem deletesMatch_append_insert {log : List SearchCommand} {r : Nat} {d : SearchDocument} :
    DeletesMatch (log ++ [.insert r d]) ↔ DeletesMatch log := by
  constructor
  · intro h before rowid document after hl
    exact h before rowid document (after ++ [.insert r d]) (by rw [hl, append_assoc, cons_append])
  · intro h before rowid document after hl
    rcases eq_nil_or_concat after with rfl | ⟨after, last, rfl⟩
    · have := (append_inj' hl rfl).2
      cases this
    · rw [concat_eq_append, ← cons_append, ← append_assoc] at hl
      exact h before rowid document after (append_inj' hl rfl).1

theorem deletesMatch_append_delete {log : List SearchCommand} {r : Nat} {d : SearchDocument} :
    DeletesMatch (log ++ [.delete r d]) ↔ DeletesMatch log ∧ latestInsert log r = some d := by
  constructor
  · intro h
    refine ⟨fun before rowid document after hl => ?_, h log r d [] rfl⟩
    exact h before rowid document (after ++ [.delete r d]) (by rw [hl, append_assoc, cons_append])
  · rintro ⟨h, hlast⟩ before rowid document after hl
    rcases eq_nil_or_concat after with rfl | ⟨after, last, rfl⟩
    · obtain ⟨rfl, he⟩ := append_inj' hl rfl
      injection he with he
      injection he with hr hd
      rw [← hr, ← hd]
      exact hlast
    · rw [concat_eq_append, ← cons_append, ← append_assoc] at hl
      exact h before rowid document after (append_inj' hl rfl).1

/-! ### The invariant of a run -/

/-- The database holds the books of `stored`, numbered from one, and the index was last told about
each of them with its full document. -/
structure Tracks (stored : List BookMetadata) (db : Database) : Prop where
  wellLinked : WellLinked db
  ids : db.books.rows.map BookRow.id = range' 1 stored.length
  holds : ∀ i m, stored[i]? = some m → HoldsMetadata db (i + 1) m
  latest : ∀ i m, stored[i]? = some m →
    latestInsert db.searchIndex (i + 1) = some (buildNormalizedSearchDocument m)

theorem foldr_max_range' (n : Nat) : (range' 1 n).foldr max 0 = n := by
  induction n with
  | zero => rfl
  | succ n ih =>
    have hfold : ∀ xs : List Nat, ∀ k, (xs ++ [k]).foldr max 0 = max (xs.foldr max 0) k := by
      intro xs k
      induction xs with
      | nil => simp
      | cons x xs ihx => rw [cons_append, foldr_cons, foldr_cons, ihx, max_assoc]
    rw [range'_1_concat, hfold, ih]
    omega

theorem Tracks.nextId {stored : List BookMetadata} {db : Database} (h : Tracks stored db) :
    db.books.nextId = stored.length + 1 := by
  rw [Table.nextId]
  rw [h.ids, foldr_max_range']

/-- A book keeps its metadata while another one is stored. -/
theorem HoldsMetadata.frame {db db' : Database} {b : Nat} {m : BookMetadata}
    (h : HoldsMetadata db b m) (hrow : db'.books.find? b = db.books.find? b)
    (hlinks : ∀ kind, linkedNames db' kind b = linkedNames db kind b ∧
      linksOf db' kind b = linksOf db kind b) : HoldsMetadata db' b m := by
  refine ⟨?_, fun kind => ?_, fun kind => ?_⟩
  · rw [hrow]
    exact h.row
  · rw [(hlinks kind).1]
    exact h.names kind
  · rw [(hlinks kind).2]
    exact h.sorted kind

theorem HoldsMetadata.withCommands {db : Database} {b : Nat} {m : BookMetadata}
    (h : HoldsMetadata db b m) (commands : List SearchCommand) :
    HoldsMetadata (withCommands commands db) b m :=
  h.frame rfl fun _ => ⟨rfl, rfl⟩

/-- The state after a book was stored under a new number. -/
theorem Tracks.insert {stored : List BookMetadata} {db mid : Database}
    {books : Table BookRow.id BookRow.id} {m : BookMetadata} {row : BookRow}
    (h : Tracks stored db) (hid : row.id = stored.length + 1) (htitle : row.title = m.title)
    (hdescription : row.description = m.description)
    (hbooks : db.books.insert? row = some books)
    (hmid : ReplacedRelations (stored.length + 1) m (setBooks books db) mid) :
    Tracks (stored ++ [m]) (withCommands
      [.insert (stored.length + 1) (buildNormalizedSearchDocument m)] mid) := by
  have hmidBooks : mid.books = books := by rw [hmid.frame]; rfl
  have hmidIndex : mid.searchIndex = db.searchIndex := by rw [hmid.frame]; rfl
  have hcases : ∀ i x, (stored ++ [m])[i]? = some x →
      (i < stored.length ∧ stored[i]? = some x) ∨ (i = stored.length ∧ x = m) := by
    intro i x hx
    rcases Nat.lt_trichotomy i stored.length with hlt | rfl | hgt
    · rw [getElem?_append_left hlt] at hx
      exact .inl ⟨hlt, hx⟩
    · rw [getElem?_append_right (le_refl _), Nat.sub_self] at hx
      exact .inr ⟨rfl, (Option.some_inj.mp hx).symm⟩
    · rw [getElem?_append_right hgt.le, getElem?_eq_none (by simp; omega)] at hx
      cases hx
  refine ⟨⟨hmid.wellLinked.spelling, hmid.wellLinked.named, hmid.wellLinked.resolved⟩, ?_, ?_, ?_⟩
  · change mid.books.rows.map BookRow.id = _
    rw [hmidBooks, (Table.insert?_eq_some.mp hbooks).2, map_append, h.ids, length_append,
      length_singleton, range'_1_concat, map_singleton, hid, Nat.add_comm]
  · intro i x hx
    refine HoldsMetadata.withCommands ?_ _
    rcases hcases i x hx with ⟨hlt, hx⟩ | ⟨rfl, rfl⟩
    · refine (h.holds i x hx).frame ?_ fun kind => hmid.others kind (i + 1) (by omega)
      rw [hmidBooks, Table.find?_insert? hbooks, if_neg (by omega)]
    · refine ⟨⟨row, ?_, htitle, hdescription⟩, hmid.names, hmid.sorted⟩
      rw [hmidBooks, Table.find?_insert? hbooks, if_pos hid]
  · intro i x hx
    change latestInsert (mid.searchIndex ++ _) (i + 1) = _
    rw [hmidIndex, latestInsert_append]
    rcases hcases i x hx with ⟨hlt, hx⟩ | ⟨rfl, rfl⟩
    · simp only
      rw [if_neg (by omega)]
      exact h.latest i x hx
    · exact if_pos rfl

/-- The state after the metadata of a book was replaced. -/
theorem Tracks.update {stored : List BookMetadata} {db mid : Database} {i : Nat}
    {old m : BookMetadata} (document : SearchDocument) (h : Tracks stored db)
    (hi : stored[i]? = some old)
    (hmid : ReplacedRelations (i + 1) m (setBooks (updatedBooks (i + 1) m db) db) mid) :
    Tracks (stored.set i m) (withCommands [.delete (i + 1) document,
      .insert (i + 1) (buildNormalizedSearchDocument m)] mid) := by
  have hmidBooks : mid.books = updatedBooks (i + 1) m db := by rw [hmid.frame]; rfl
  have hmidIndex : mid.searchIndex = db.searchIndex := by rw [hmid.frame]; rfl
  have hlt : i < stored.length := (List.getElem?_eq_some_iff.mp hi).1
  have hcases : ∀ j x, (stored.set i m)[j]? = some x →
      (j ≠ i ∧ stored[j]? = some x) ∨ (j = i ∧ x = m) := by
    intro j x hx
    by_cases hj : j = i
    · subst hj
      rw [getElem?_set_self hlt] at hx
      exact .inr ⟨rfl, (Option.some_inj.mp hx).symm⟩
    · rw [getElem?_set_ne (Ne.symm hj)] at hx
      exact .inl ⟨hj, hx⟩
  have hfind : ∀ b, mid.books.find? b = (db.books.find? b).map fun r =>
      if r.id = i + 1 then bindStoredBookMetadata m r else r := by
    intro b
    rw [hmidBooks]
    rw [updatedBooks]
    rw [Table.find?_update]
    simp only [decide_eq_true_eq]
  refine ⟨⟨hmid.wellLinked.spelling, hmid.wellLinked.named, hmid.wellLinked.resolved⟩, ?_, ?_, ?_⟩
  · change mid.books.rows.map BookRow.id = _
    rw [hmidBooks, length_set, ← h.ids]
    rw [updatedBooks]
    rw [Table.rows_update, map_map]
    refine map_congr_left fun r _ => ?_
    by_cases hr : r.id = i + 1 <;> simp [hr, bindStoredBookMetadata]
  · intro j x hx
    refine HoldsMetadata.withCommands ?_ _
    rcases hcases j x hx with ⟨hj, hx⟩ | ⟨rfl, rfl⟩
    · have hb : j + 1 ≠ i + 1 := by omega
      refine (h.holds j x hx).frame ?_ fun kind => hmid.others kind (j + 1) hb
      rw [hfind]
      obtain ⟨row, hrow, _⟩ := (h.holds j x hx).row
      rw [hrow, Option.map_some, if_neg]
      rw [(Table.find?_eq_some.mp hrow).2]
      exact hb
    · obtain ⟨row, hrow, _⟩ := (h.holds j old hi).row
      refine ⟨⟨bindStoredBookMetadata x row, ?_, rfl, rfl⟩, hmid.names, hmid.sorted⟩
      rw [hfind, hrow, Option.map_some, if_pos (Table.find?_eq_some.mp hrow).2]
  · intro j x hx
    change latestInsert (mid.searchIndex ++ _) (j + 1) = _
    rw [hmidIndex, ← singleton_append, ← append_assoc, latestInsert_append]
    rcases hcases j x hx with ⟨hj, hx⟩ | ⟨rfl, rfl⟩
    · simp only
      rw [if_neg (by omega), latestInsert_append]
      exact h.latest j x hx
    · exact if_pos rfl

theorem Tracks.readStoredMetadata_none {stored : List BookMetadata} {db : Database} {b : Nat}
    (h : Tracks stored db) (hb : b = 0 ∨ stored.length < b) : readStoredMetadata db b = none := by
  have hn : db.books.find? b = none := by
    rw [Table.find?_eq_none]
    intro r hr he
    have hm := mem_map_of_mem (f := BookRow.id) hr
    rw [h.ids, mem_range'_1] at hm
    omega
  rw [readStoredMetadata]
  rw [hn]
  rfl

/-- The invariant along a run: every delete command so far matches exactly when every metadata
replaced so far was free of repeats. -/
theorem runCalls_deletesMatch {stored : List BookMetadata} {db : Database} (h : Tracks stored db)
    (calls : List BookCall) :
    (DeletesMatch (runCalls calls db).searchIndex ↔ DeletesMatch db.searchIndex ∧
      ∀ m ∈ overwrittenFrom stored calls, NoRepeats m) ∧
    ∃ stored', Tracks stored' (runCalls calls db) := by
  induction calls generalizing stored db with
  | nil => exact ⟨by simp [runCalls, overwrittenFrom], stored, h⟩
  | cons call calls ih =>
    cases call with
    | insert inpxRecord parsedBook addedAtUtc =>
      have hspec := insertInpxBook_spec inpxRecord parsedBook addedAtUtc h.wellLinked
      cases hr : insertInpxBook inpxRecord parsedBook addedAtUtc db with
      | error e db' => exact (hspec.throws rfl hr).elim
      | ok a db' =>
        obtain ⟨_, books, mid, hbooks, hmid, rfl⟩ := hspec.ok rfl hr
        rw [h.nextId] at hbooks hmid hr
        have hrun : runCalls (.insert inpxRecord parsedBook addedAtUtc :: calls) db =
            runCalls calls (withCommands [.insert (stored.length + 1)
              (buildNormalizedSearchDocument (storedMetadata inpxRecord parsedBook))] mid) := by
          unfold runCalls
          rw [foldl_cons, BookCall.apply, hr]
        rw [hrun, overwrittenFrom]
        have hstep := ih (h.insert rfl rfl rfl hbooks hmid)
        refine ⟨?_, hstep.2⟩
        rw [hstep.1]
        refine and_congr_left fun _ => ?_
        change DeletesMatch (mid.searchIndex ++ _) ↔ _
        rw [deletesMatch_append_insert, hmid.frame]
        rfl
    | update bookId inpxRecord parsedBook =>
      have hmissing : readStoredMetadata db bookId = none →
          runCalls (.update bookId inpxRecord parsedBook :: calls) db = runCalls calls db := by
        intro hn
        unfold runCalls
        rw [foldl_cons, BookCall.apply, updateInpxBook_missing hn]
      cases bookId with
      | zero =>
        rw [hmissing (h.readStoredMetadata_none (.inl rfl)), overwrittenFrom]
        exact ih h
      | succ i =>
        cases hi : stored[i]? with
        | none =>
          have hlen : stored.length ≤ i := getElem?_eq_none_iff.mp hi
          rw [hmissing (h.readStoredMetadata_none (.inr (by omega))), overwrittenFrom, hi]
          exact ih h
        | some m =>
          have hdoc := (h.holds i m hi).storedDocument h.wellLinked
          obtain ⟨old, hold, hrebuilt⟩ := Option.map_eq_some_iff.mp hdoc
          have hspec := updateInpxBook_spec inpxRecord parsedBook h.wellLinked hold
          cases hr : updateInpxBook (i + 1) inpxRecord parsedBook db with
          | error e db' => exact (hspec.throws rfl hr).elim
          | ok a db' =>
            obtain ⟨mid, hmid, rfl⟩ := hspec.ok rfl hr
            have hrun : runCalls (.update (i + 1) inpxRecord parsedBook :: calls) db =
                runCalls calls (withCommands [.delete (i + 1) (buildNormalizedSearchDocument old),
                  .insert (i + 1) (buildNormalizedSearchDocument
                    (storedMetadata inpxRecord parsedBook))] mid) := by
              unfold runCalls
              rw [foldl_cons, BookCall.apply, hr]
            rw [hrun, overwrittenFrom, hi]
            have hstep := ih (Tracks.update (buildNormalizedSearchDocument old) h hi hmid)
            refine ⟨?_, hstep.2⟩
            have hindex : mid.searchIndex = db.searchIndex := by rw [hmid.frame]; rfl
            rw [hstep.1]
            change DeletesMatch (mid.searchIndex ++ _) ∧ _ ↔ _
            rw [hindex, ← singleton_append, ← append_assoc, deletesMatch_append_insert,
              deletesMatch_append_delete, h.latest i m hi, Option.some_inj, hrebuilt,
              eq_comm, rebuiltDocument_eq_iff, forall_mem_cons, and_assoc]

theorem tracks_initial (source : SourceRow) (size : Nat) :
    Tracks [] (Database.initial source size) :=
  ⟨⟨fun _ _ h => absurd h not_mem_nil, fun _ _ h => absurd h not_mem_nil,
    fun _ _ h => absurd h not_mem_nil⟩, rfl, fun i m h => by simp at h, fun i m h => by simp at h⟩

/-! ### The index and the rows -/

/-- The document read back after a book was stored, for each way of storing it. -/
theorem storedDocument_apply {stored : List BookMetadata} {db : Database} (h : Tracks stored db)
    (inpxRecord : InpxRecord) (parsedBook : ParsedBook) :
    (∀ addedAtUtc, (readStoredMetadata ((BookCall.insert inpxRecord parsedBook addedAtUtc).apply db)
        db.books.nextId).map buildNormalizedSearchDocument =
          some (rebuiltDocument (storedMetadata inpxRecord parsedBook))) ∧
    ∀ bookId, readStoredMetadata db bookId ≠ none →
      (readStoredMetadata ((BookCall.update bookId inpxRecord parsedBook).apply db)
        bookId).map buildNormalizedSearchDocument =
          some (rebuiltDocument (storedMetadata inpxRecord parsedBook)) := by
  constructor
  · intro addedAtUtc
    have hspec := insertInpxBook_spec inpxRecord parsedBook addedAtUtc h.wellLinked
    rw [BookCall.apply]
    cases hr : insertInpxBook inpxRecord parsedBook addedAtUtc db with
    | error e db' => exact (hspec.throws rfl hr).elim
    | ok a db' =>
      obtain ⟨_, books, mid, hbooks, hmid, rfl⟩ := hspec.ok rfl hr
      rw [h.nextId] at hbooks hmid ⊢
      have hnext := h.insert rfl rfl rfl hbooks hmid
      exact (hnext.holds stored.length _ (by simp)).storedDocument hnext.wellLinked
  · intro bookId hne
    obtain ⟨old, hold⟩ := Option.ne_none_iff_exists'.mp hne
    have hrange : bookId ≠ 0 ∧ bookId ≤ stored.length := by
      by_contra hb
      exact hne (h.readStoredMetadata_none (by omega))
    obtain ⟨i, rfl⟩ := Nat.exists_eq_succ_of_ne_zero hrange.1
    have hlt : i < stored.length := hrange.2
    have hspec := updateInpxBook_spec inpxRecord parsedBook h.wellLinked hold
    rw [BookCall.apply]
    cases hr : updateInpxBook (i + 1) inpxRecord parsedBook db with
    | error e db' => exact (hspec.throws rfl hr).elim
    | ok a db' =>
      obtain ⟨mid, hmid, rfl⟩ := hspec.ok rfl hr
      have hnext := Tracks.update (buildNormalizedSearchDocument old) h
        (List.getElem?_eq_getElem hlt) hmid
      exact (hnext.holds i _ (by simp [hlt])).storedDocument hnext.wellLinked

/-- **The search index drifts exactly on repeated names.** In a run from an empty catalog every
delete command binds the document of the latest insert for its row if and only if no metadata that
the run replaced repeats a normalized name within a relation; and the document built from what is
read back after a book was stored is the one that was inserted under the same condition. -/
theorem deletesMatch_iff_noRepeats (source : SourceRow) (size : Nat) (calls : List BookCall) :
    (DeletesMatch (runCalls calls (Database.initial source size)).searchIndex ↔
      ∀ m ∈ overwritten calls, NoRepeats m) ∧
    ∀ inpxRecord parsedBook,
      (∀ addedAtUtc,
        (readStoredMetadata ((BookCall.insert inpxRecord parsedBook addedAtUtc).apply
          (runCalls calls (Database.initial source size)))
          (runCalls calls (Database.initial source size)).books.nextId).map
            buildNormalizedSearchDocument =
          some (buildNormalizedSearchDocument (storedMetadata inpxRecord parsedBook)) ↔
        NoRepeats (storedMetadata inpxRecord parsedBook)) ∧
      ∀ bookId,
        readStoredMetadata (runCalls calls (Database.initial source size)) bookId ≠ none →
        ((readStoredMetadata ((BookCall.update bookId inpxRecord parsedBook).apply
          (runCalls calls (Database.initial source size))) bookId).map
            buildNormalizedSearchDocument =
          some (buildNormalizedSearchDocument (storedMetadata inpxRecord parsedBook)) ↔
        NoRepeats (storedMetadata inpxRecord parsedBook)) := by
  obtain ⟨hmatch, stored, htracks⟩ := runCalls_deletesMatch (tracks_initial source size) calls
  refine ⟨?_, fun inpxRecord parsedBook => ⟨fun addedAtUtc => ?_, fun bookId hne => ?_⟩⟩
  · rw [hmatch]
    exact and_iff_right deletesMatch_nil
  · rw [(storedDocument_apply htracks inpxRecord parsedBook).1 addedAtUtc, Option.some_inj,
      rebuiltDocument_eq_iff]
  · rw [(storedDocument_apply htracks inpxRecord parsedBook).2 bookId hne, Option.some_inj,
      rebuiltDocument_eq_iff]

def twoAuthorsBook : ParsedBook where
  metadata := { title := ascii "Notes", authors := [ascii "Ada", ascii "Charles"] }

/-- Two names that differ: the index follows, and the document is read back as it was inserted. -/
theorem twoAuthorsBook_deletesMatch :
    DeletesMatch (runCalls [.insert {} twoAuthorsBook [], .update 1 {} twoAuthorsBook]
      (Database.initial ⟨[], [], none, none, none⟩ 0)).searchIndex ∧
    (readStoredMetadata ((BookCall.update 1 {} twoAuthorsBook).apply
      (runCalls [.insert {} twoAuthorsBook []] (Database.initial ⟨[], [], none, none, none⟩ 0)))
        1).map buildNormalizedSearchDocument =
      some (buildNormalizedSearchDocument (storedMetadata {} twoAuthorsBook)) := by
  have hdistinct : NoRepeats (storedMetadata {} twoAuthorsBook) := by
    intro kind
    cases kind <;> decide +kernel
  refine ⟨(deletesMatch_iff_noRepeats _ _ _).1.mpr ?_,
    (((deletesMatch_iff_noRepeats _ _ _).2 {} twoAuthorsBook).2 1 ?_).mpr hdistinct⟩
  · intro m hm
    rw [mem_singleton.mp hm]
    exact hdistinct
  · intro hn
    have hsome : ((readStoredMetadata (runCalls [.insert {} twoAuthorsBook []]
        (Database.initial ⟨[], [], none, none, none⟩ 0)) 1).isSome) = true := by decide +kernel
    rw [hn] at hsome
    cases hsome

/-- A book whose author is written twice, once in capitals. -/
def repeatedAuthorBook : ParsedBook where
  metadata := { title := ascii "Notes", authors := [ascii "Ada", ascii "ADA"] }

/-- The book is stored and stored again by the next scan. -/
def repeatedAuthorCalls : List BookCall :=
  [.insert {} repeatedAuthorBook (ascii "2024-01-01T00:00:00Z"), .update 1 {} repeatedAuthorBook]

/-- The index was told `ada ada` and is asked to delete `ada`. -/
theorem repeatedAuthorCalls_not_deletesMatch :
    ¬DeletesMatch (runCalls repeatedAuthorCalls (Database.initial ⟨[], [], none, none, none⟩ 0)
      ).searchIndex := by
  intro h
  have hlog : (runCalls repeatedAuthorCalls (Database.initial ⟨[], [], none, none, none⟩ 0)
      ).searchIndex =
      [.insert 1 ⟨ascii "notes", ascii "ada ada", [], [], []⟩,
        .delete 1 ⟨ascii "notes", ascii "ada", [], [], []⟩,
        .insert 1 ⟨ascii "notes", ascii "ada ada", [], [], []⟩] := by
    decide +kernel
  have hlatest := h [.insert 1 ⟨ascii "notes", ascii "ada ada", [], [], []⟩] 1
    ⟨ascii "notes", ascii "ada", [], [], []⟩ _ hlog
  exact absurd hlatest (by decide)

end InpxWebReader.Database
