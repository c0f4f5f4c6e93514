import InpxWebReader.Database.SearchIndex
import InpxWebReader.Library.Dedup

/-!
# What storing the relations of a book leaves behind

`replaceBookRelations` never fails and leaves, for each kind of relation, links to the first
occurrences of the normalized names, in the order of the metadata (`replaceBookRelations_spec`).
The spelling a link leads to may be that of another book, but its normal form is the name
(`WellLinked.spelling`), so what is read back has the normal forms that were stored
(`normalizedTexts_storedNames`).
-/

namespace InpxWebReader.Database

open Foundation Domain Inpx Program List

/-- Every entity carries the normal form of its spelling, and every link leads to an entity. -/
structure WellLinked (db : Database) : Prop where
  spelling : ∀ kind, ∀ e ∈ (db.entities kind).rows, normalizeText e.displayName = e.normalizedName
  named : ∀ kind, ∀ e ∈ (db.entities kind).rows, e.normalizedName ≠ []
  resolved : ∀ kind, ∀ l ∈ (db.links kind).rows, ∃ e ∈ (db.entities kind).rows, e.id = l.entityId

/-- The two databases differ in their entities and links only. -/
def OnlyRelationsChange (db db' : Database) : Prop :=
  db' = { db with entities := db'.entities, links := db'.links }

theorem OnlyRelationsChange.refl (db : Database) : OnlyRelationsChange db db := rfl

theorem OnlyRelationsChange.trans {a b c : Database} (h : OnlyRelationsChange a b)
    (h' : OnlyRelationsChange b c) : OnlyRelationsChange a c := by
  rw [OnlyRelationsChange] at *
  rw [h', h]

theorem OnlyRelationsChange.setLinks (kind : EntityKind) (t) (db : Database) :
    OnlyRelationsChange db (setLinks kind t db) := rfl

def entityName (db : Database) (kind : EntityKind) (id : Nat) : Bytes :=
  ((db.entities kind).find? id).elim [] EntityRow.normalizedName

def linksOf (db : Database) (kind : EntityKind) (bookId : Nat) : List LinkRow :=
  (db.links kind).rows.filter fun r => r.bookId = bookId

/-- The normalized names a book is linked to, in the order of the links. -/
def linkedNames (db : Database) (kind : EntityKind) (bookId : Nat) : List Bytes :=
  (linksOf db kind bookId).map fun r => entityName db kind r.entityId

theorem entityName_of_mem {db : Database} {kind : EntityKind} {e : EntityRow}
    (h : e ∈ (db.entities kind).rows) : entityName db kind e.id = e.normalizedName := by
  rw [entityName]
  rw [Table.find?_eq_some.mpr ⟨h, rfl⟩]
  rfl

theorem entityName_of_subset {db db' : Database} {kind : EntityKind}
    (hsub : ∀ e ∈ (db.entities kind).rows, e ∈ (db'.entities kind).rows) {id : Nat}
    (h : ∃ e ∈ (db.entities kind).rows, e.id = id) :
    entityName db' kind id = entityName db kind id := by
  obtain ⟨e, he, rfl⟩ := h
  rw [entityName_of_mem he, entityName_of_mem (hsub e he)]

/-! ### One entity, one link -/

@[simp] theorem entities_setEntities (kind : EntityKind) (t) (db : Database) :
    (setEntities kind t db).entities kind = t := if_pos rfl

theorem entities_setEntities_ne {kind k : EntityKind} (h : k ≠ kind) (t) (db : Database) :
    (setEntities kind t db).entities k = db.entities k := if_neg h

@[simp] theorem links_setLinks (kind : EntityKind) (t) (db : Database) :
    (setLinks kind t db).links kind = t := if_pos rfl

theorem links_setLinks_ne {kind k : EntityKind} (h : k ≠ kind) (t) (db : Database) :
    (setLinks kind t db).links k = db.links k := if_neg h

/-- `ResolveEntityId` finds or makes the entity of a name; no other row changes. -/
theorem resolveEntityId_spec {kind : EntityKind} {display : Bytes} {db : Database}
    (hw : WellLinked db) (hne : normalizeText display ≠ []) :
    Triple (fun s => s = db) (resolveEntityId kind (normalizeText display) display)
      (fun id db' => OnlyRelationsChange db db' ∧ db'.links = db.links ∧
        (∀ k ≠ kind, db'.entities k = db.entities k) ∧
        (∀ e ∈ (db.entities kind).rows, e ∈ (db'.entities kind).rows) ∧ WellLinked db' ∧
        ∃ e ∈ (db'.entities kind).rows, e.id = id ∧ e.normalizedName = normalizeText display)
      fun _ _ => False := by
  rw [resolveEntityId]
  refine Triple.bind (M := fun t s => t = db ∧ s = db) (.get fun s hs => ⟨hs, hs⟩) fun t => ?_
  refine Triple.of_pure fun ht => ?_
  subst ht
  cases hf : (t.entities kind).findBy? (normalizeText display) with
  | some row =>
    refine .pure fun s hs => ?_
    subst hs
    rw [Table.findBy?_eq_some] at hf
    exact ⟨.refl _, rfl, fun _ _ => rfl, fun _ he => he, hw, row, hf.1, rfl, hf.2⟩
  | none =>
    rw [Table.findBy?_eq_none] at hf
    set row : EntityRow := ⟨(t.entities kind).nextId, normalizeText display, display⟩ with hrow
    have hins : (t.entities kind).insert? row ≠ none := by
      intro hn
      rw [Table.insert?] at hn
      rw [dif_pos] at hn
      · cases hn
      · refine ⟨Table.nextId_not_mem _, ?_⟩
        intro hm
        obtain ⟨e, he, hname⟩ := mem_map.mp hm
        exact hf e he hname
    obtain ⟨table, htable⟩ := Option.ne_none_iff_exists'.mp hins
    have hrows := (Table.insert?_eq_some.mp htable).2
    refine Triple.bind (M := fun a s => a = table ∧ s = t) ?_ fun a => ?_
    · rw [htable]
      exact .pure fun s hs => ⟨rfl, hs⟩
    · refine Triple.of_pure fun ha => ?_
      subst ha
      refine Triple.bind (M := fun _ s => s = setEntities kind a t) ?_ fun _ => ?_
      · exact .modify fun s hs => rfl
      · refine .pure fun s hs => ?_
        subst hs
        have hsub : ∀ e ∈ (t.entities kind).rows,
            e ∈ ((setEntities kind a t).entities kind).rows := by
          intro e he
          rw [entities_setEntities, hrows]
          exact mem_append_left _ he
        have hmem : row ∈ ((setEntities kind a t).entities kind).rows := by
          rw [entities_setEntities, hrows]
          exact mem_append_right _ (mem_singleton.mpr rfl)
        refine ⟨rfl, rfl, fun k hk => entities_setEntities_ne hk _ _, hsub, ⟨?_, ?_, ?_⟩,
          row, hmem, rfl, rfl⟩
        · intro k e he
          by_cases hk : k = kind
          · subst hk
            rw [entities_setEntities, hrows, mem_append, mem_singleton] at he
            rcases he with he | rfl
            · exact hw.spelling k e he
            · rfl
          · rw [entities_setEntities_ne hk] at he
            exact hw.spelling k e he
        · intro k e he
          by_cases hk : k = kind
          · subst hk
            rw [entities_setEntities, hrows, mem_append, mem_singleton] at he
            rcases he with he | rfl
            · exact hw.named k e he
            · exact hne
          · rw [entities_setEntities_ne hk] at he
            exact hw.named k e he
        · intro k l hl
          obtain ⟨e, he, hid⟩ := hw.resolved k l hl
          by_cases hk : k = kind
          · subst hk
            exact ⟨e, hsub e he, hid⟩
          · exact ⟨e, by rw [entities_setEntities_ne hk]; exact he, hid⟩

/-! ### The values of one relation -/

/-- The link step of `insertRelated` appends its row when the key is new. -/
def AppendsLink (kind : EntityKind) (bookId : Nat) (order : Nat → Nat)
    (link : Nat → Nat → Db Unit) : Prop :=
  ∀ entityId index (db : Database) table,
    (db.links kind).insert? ⟨bookId, entityId, order index⟩ = some table →
      Triple (fun s => s = db) (link entityId index) (fun _ s => s = setLinks kind table db)
        fun _ _ => False

theorem insertLink_spec {kind : EntityKind} {row : LinkRow} {db : Database} {table}
    (h : (db.links kind).insert? row = some table) :
    Triple (fun s => s = db) (insertLink kind row) (fun _ s => s = setLinks kind table db)
      fun _ _ => False := by
  rw [insertLink]
  refine Triple.bind (M := fun t s => t = db ∧ s = db) (.get fun s hs => ⟨hs, hs⟩) fun t => ?_
  refine Triple.of_pure fun ht => ?_
  subst ht
  rw [h]
  refine Triple.bind (M := fun a s => a = table ∧ s = t) (.pure fun s hs => ⟨rfl, hs⟩) fun a => ?_
  refine Triple.of_pure fun ha => ?_
  subst ha
  exact .modify fun s hs => rfl

theorem appendsLink_authors (bookId : Nat) :
    AppendsLink .authors bookId id fun authorId index =>
      insertLink .authors ⟨bookId, authorId, index⟩ :=
  fun _ _ _ _ h => insertLink_spec h

theorem appendsLink_tags (bookId : Nat) :
    AppendsLink .tags bookId (fun _ => 0) fun tagId _ => insertLink .tags ⟨bookId, tagId, 0⟩ :=
  fun _ _ _ _ h => insertLink_spec h

theorem appendsLink_genres (bookId : Nat) :
    AppendsLink .genres bookId (fun _ => 0) fun genreId _ =>
      insertLinkOrIgnore .genres ⟨bookId, genreId, 0⟩ := by
  intro entityId index db table h
  refine .modify fun s hs => ?_
  rw [hs, h]
  rfl

/-- What `insertRelated` adds for the values from `index` on, given the names in `inserted`. -/
structure Related (kind : EntityKind) (bookId : Nat) (order : Nat → Nat) (inserted : List Bytes)
    (index : Nat) (values : List Bytes) (db db' : Database) : Prop where
  frame : OnlyRelationsChange db db'
  others : ∀ k ≠ kind, db'.entities k = db.entities k ∧ db'.links k = db.links k
  kept : ∀ e ∈ (db.entities kind).rows, e ∈ (db'.entities kind).rows
  wellLinked : WellLinked db'
  added : ∃ added : List LinkRow, (db'.links kind).rows = (db.links kind).rows ++ added ∧
    (∀ r ∈ added, r.bookId = bookId ∧ order index ≤ r.order) ∧
    added.Pairwise (fun r r' => r.order ≤ r'.order) ∧
    (added.map fun r => entityName db' kind r.entityId) =
      firsts inserted (normalizedTexts values)

theorem normalizedTexts_cons (value : Bytes) (values : List Bytes) :
    normalizedTexts (value :: values) =
      if normalizeText value = [] then normalizedTexts values
      else normalizeText value :: normalizedTexts values := by
  unfold normalizedTexts
  rw [map_cons, filter_cons]
  by_cases h : normalizeText value = [] <;> simp [h]

theorem insertRelated_spec {kind : EntityKind} {bookId : Nat} {order : Nat → Nat}
    {link : Nat → Nat → Db Unit} (hlink : AppendsLink kind bookId order link)
    (horder : Monotone order) (values inserted : List Bytes) (index : Nat) {db : Database}
    (hw : WellLinked db)
    (hins : ∀ l ∈ linksOf db kind bookId, entityName db kind l.entityId ∈ inserted) :
    Triple (fun s => s = db) (insertRelated kind link inserted index values)
      (fun _ db' => Related kind bookId order inserted index values db db') fun _ _ => False := by
  induction values generalizing inserted index db with
  | nil =>
    refine .pure fun s hs => ?_
    subst hs
    exact ⟨.refl _, fun _ _ => ⟨rfl, rfl⟩, fun _ h => h, hw, [], by simp [normalizedTexts]⟩
  | cons value values ih =>
    rw [insertRelated]
    refine .ite (fun hskip => ?_) fun hnew => ?_
    · -- the value is skipped: its name is empty or was inserted before
      refine (ih inserted (index + 1) hw hins).post fun _ db' h => ?_
      obtain ⟨added, hrows, hbook, hsorted, hnames⟩ := h.added
      refine ⟨h.frame, h.others, h.kept, h.wellLinked, added, hrows, ?_, hsorted, ?_⟩
      · exact fun r hr => ⟨(hbook r hr).1, (horder (Nat.le_succ index)).trans (hbook r hr).2⟩
      · rw [hnames, normalizedTexts_cons]
        by_cases hempty : normalizeText value = []
        · rw [if_pos hempty]
        · rw [if_neg hempty, firsts_cons_of_mem (hskip.resolve_left hempty)]
    · rw [not_or] at hnew
      refine (resolveEntityId_spec hw hnew.1).bind fun entityId => Triple.of_state fun db₁ h₁ => ?_
      obtain ⟨hframe, hlinks, hothers, hkept, hw₁, e, he, rfl, hname⟩ := h₁
      -- the key is new: an old link of this book to this entity would have its name in `inserted`
      have hkey : ((bookId, e.id) : Nat × Nat) ∉ (db₁.links kind).rows.map LinkRow.key := by
        intro hm
        obtain ⟨l, hl, hk⟩ := mem_map.mp hm
        rw [hlinks] at hl
        have hbook : l.bookId = bookId := congrArg Prod.fst hk
        have hent : l.entityId = e.id := congrArg Prod.snd hk
        have hin := hins l (mem_filter.mpr ⟨hl, by simp [hbook]⟩)
        rw [← entityName_of_subset hkept (hw.resolved kind l hl), hent,
          entityName_of_mem he, hname] at hin
        exact hnew.2 hin
      have hinsert : (db₁.links kind).insert? ⟨bookId, e.id, order index⟩ ≠ none := by
        intro hn
        rw [Table.insert?] at hn
        rw [dif_pos ⟨hkey, hkey⟩] at hn
        cases hn
      obtain ⟨table, htable⟩ := Option.ne_none_iff_exists'.mp hinsert
      have hrows₁ := (Table.insert?_eq_some.mp htable).2
      have hw₂ : WellLinked (setLinks kind table db₁) := by
        refine ⟨hw₁.spelling, hw₁.named, fun k l hl => ?_⟩
        by_cases hk : k = kind
        · subst hk
          rw [links_setLinks, hrows₁, mem_append, mem_singleton] at hl
          rcases hl with hl | rfl
          · exact hw₁.resolved k l hl
          · exact ⟨e, he, rfl⟩
        · rw [links_setLinks_ne hk] at hl
          exact hw₁.resolved k l hl
      have hins₂ : ∀ l ∈ linksOf (setLinks kind table db₁) kind bookId,
          entityName (setLinks kind table db₁) kind l.entityId ∈
            normalizeText value :: inserted := by
        intro l hl
        rw [linksOf, links_setLinks, hrows₁, mem_filter, mem_append, mem_singleton] at hl
        rcases hl.1 with hm | rfl
        · rw [hlinks] at hm
          have hin := hins l (mem_filter.mpr ⟨hm, hl.2⟩)
          rw [← entityName_of_subset hkept (hw.resolved kind l hm)] at hin
          exact mem_cons_of_mem _ hin
        · exact mem_cons.mpr (.inl ((entityName_of_mem he).trans hname))
      have hrest := ih (normalizeText value :: inserted) (index + 1) hw₂ hins₂
      refine Triple.bind (M := fun _ s => s = setLinks kind table db₁) ?_ fun _ =>
        hrest.post fun _ db' h => ?_
      · exact hlink e.id index db₁ table htable
      · obtain ⟨added, hrows, hbook, hsorted, hnames⟩ := h.added
        have hkeep : ∀ x ∈ (db₁.entities kind).rows, x ∈ (db'.entities kind).rows :=
          fun x hx => h.kept x hx
        refine ⟨hframe.trans (.trans (.setLinks kind table db₁) h.frame), ?_, ?_, h.wellLinked,
          ⟨bookId, e.id, order index⟩ :: added, ?_, ?_, ?_, ?_⟩
        · intro k hk
          obtain ⟨hek, hlk⟩ := h.others k hk
          rw [hek, hlk, links_setLinks_ne hk, hlinks]
          exact ⟨hothers k hk, rfl⟩
        · exact fun x hx => hkeep x (hkept x hx)
        · rw [hrows, links_setLinks, hrows₁, hlinks, append_assoc, singleton_append]
        · intro r hr
          rcases mem_cons.mp hr with rfl | hr
          · exact ⟨rfl, le_refl _⟩
          · exact ⟨(hbook r hr).1, (horder (Nat.le_succ index)).trans (hbook r hr).2⟩
        · rw [pairwise_cons]
          exact ⟨fun r hr => (horder (Nat.le_succ index)).trans (hbook r hr).2, hsorted⟩
        · rw [map_cons, hnames, normalizedTexts_cons, if_neg hnew.1,
            firsts_cons_of_notMem hnew.2, entityName_of_mem (hkeep e he), hname]

/-! ### All relations of a book -/

/-- The values of one relation in a book's metadata. -/
def relatedValues (metadata : BookMetadata) : EntityKind → List Bytes
  | .authors => metadata.authors
  | .tags => metadata.tags
  | .genres => metadata.genres

theorem linkedNames_congr {db db' : Database} {kind : EntityKind}
    (h : db'.entities kind = db.entities kind ∧ db'.links kind = db.links kind) (bookId : Nat) :
    linkedNames db' kind bookId = linkedNames db kind bookId := by
  unfold linkedNames linksOf entityName
  rw [h.1, h.2]

theorem linksOf_congr {db db' : Database} {kind : EntityKind}
    (h : db'.links kind = db.links kind) (bookId : Nat) :
    linksOf db' kind bookId = linksOf db kind bookId := by
  unfold linksOf
  rw [h]

section Related

variable {kind : EntityKind} {bookId index : Nat} {order : Nat → Nat} {inserted values : List Bytes}
  {db db' : Database}

/-- A book without links gets exactly the links that were added. -/
theorem Related.linkedNames_self (h : Related kind bookId order inserted index values db db')
    (hnone : linksOf db kind bookId = []) :
    linkedNames db' kind bookId = firsts inserted (normalizedTexts values) ∧
      (linksOf db' kind bookId).Pairwise fun r r' => r.order ≤ r'.order := by
  obtain ⟨added, hrows, hbook, hsorted, hnames⟩ := h.added
  have hself : linksOf db' kind bookId = added := by
    rw [linksOf] at hnone ⊢
    rw [hrows, filter_append, hnone, nil_append, filter_eq_self]
    exact fun r hr => by simp [(hbook r hr).1]
  rw [linkedNames]
  rw [hself]
  exact ⟨hnames, hsorted⟩

theorem Related.linksOf_other (h : Related kind bookId order inserted index values db db')
    {b : Nat} (hb : b ≠ bookId) : linksOf db' kind b = linksOf db kind b := by
  obtain ⟨added, hrows, hbook, _, _⟩ := h.added
  unfold linksOf
  rw [hrows, filter_append]
  have hnone : added.filter (fun r => r.bookId = b) = [] := by
    rw [filter_eq_nil_iff]
    intro r hr
    rw [(hbook r hr).1]
    simpa using hb.symm
  rw [hnone, append_nil]

theorem Related.linkedNames_other (h : Related kind bookId order inserted index values db db')
    (hw : WellLinked db) {b : Nat} (hb : b ≠ bookId) :
    linkedNames db' kind b = linkedNames db kind b := by
  rw [linkedNames]
  rw [h.linksOf_other hb]
  refine map_congr_left fun l hl => ?_
  exact entityName_of_subset h.kept (hw.resolved kind l (mem_of_mem_filter hl))

end Related

/-- What `replaceBookRelations` leaves behind. -/
structure ReplacedRelations (bookId : Nat) (metadata : BookMetadata) (db db' : Database) :
    Prop where
  frame : OnlyRelationsChange db db'
  wellLinked : WellLinked db'
  names : ∀ kind, linkedNames db' kind bookId =
    firsts [] (normalizedTexts (relatedValues metadata kind))
  sorted : ∀ kind, (linksOf db' kind bookId).Pairwise fun r r' => r.order ≤ r'.order
  others : ∀ kind, ∀ b ≠ bookId, linkedNames db' kind b = linkedNames db kind b ∧
    linksOf db' kind b = linksOf db kind b

/-- Some of the relations of a book were replaced: those of the kinds in `done` have their names,
the others have no links yet. -/
structure ReplacingRelations (bookId : Nat) (metadata : BookMetadata) (done : List EntityKind)
    (db db' : Database) : Prop where
  frame : OnlyRelationsChange db db'
  wellLinked : WellLinked db'
  names : ∀ kind ∈ done, linkedNames db' kind bookId =
    firsts [] (normalizedTexts (relatedValues metadata kind))
  sorted : ∀ kind, (linksOf db' kind bookId).Pairwise fun r r' => r.order ≤ r'.order
  todo : ∀ kind ∉ done, linksOf db' kind bookId = []
  others : ∀ kind, ∀ b ≠ bookId, linkedNames db' kind b = linkedNames db kind b ∧
    linksOf db' kind b = linksOf db kind b

theorem ReplacingRelations.insert {bookId : Nat} {metadata : BookMetadata}
    {done : List EntityKind} {db db₁ : Database} {kind : EntityKind} {order : Nat → Nat}
    {link : Nat → Nat → Db Unit} (h : ReplacingRelations bookId metadata done db db₁)
    (hlink : AppendsLink kind bookId order link) (horder : Monotone order) (hk : kind ∉ done) :
    Triple (fun s => s = db₁) (insertRelated kind link [] 0 (relatedValues metadata kind))
      (fun _ db' => ReplacingRelations bookId metadata (kind :: done) db db') fun _ _ => False := by
  have hnone := h.todo kind hk
  refine (insertRelated_spec hlink horder _ [] 0 h.wellLinked ?_).post fun _ db' hr => ?_
  · intro l hl
    rw [hnone] at hl
    exact absurd hl not_mem_nil
  · obtain ⟨hnames, hsorted⟩ := hr.linkedNames_self hnone
    refine ⟨h.frame.trans hr.frame, hr.wellLinked, ?_, ?_, ?_, ?_⟩
    · intro k hkm
      by_cases he : k = kind
      · rw [he]
        exact hnames
      · rw [linkedNames_congr (hr.others k he)]
        exact h.names k ((mem_cons.mp hkm).resolve_left he)
    · intro k
      by_cases he : k = kind
      · rw [he]
        exact hsorted
      · rw [linksOf_congr (hr.others k he).2]
        exact h.sorted k
    · intro k hkm
      rw [mem_cons, not_or] at hkm
      rw [linksOf_congr (hr.others k hkm.1).2]
      exact h.todo k hkm.2
    · intro k b hb
      obtain ⟨hn, hl⟩ := h.others k b hb
      by_cases he : k = kind
      · subst he
        rw [hr.linkedNames_other h.wellLinked hb, hr.linksOf_other hb]
        exact ⟨hn, hl⟩
      · rw [linkedNames_congr (hr.others k he), linksOf_congr (hr.others k he).2]
        exact ⟨hn, hl⟩

/-- The three deletions at the start of `replaceBookRelations`. -/
def withoutLinks (bookId : Nat) (db : Database) : Database :=
  { db with links := fun k => (db.links k).delete fun r => r.bookId = bookId }

theorem replacing_withoutLinks (bookId : Nat) (metadata : BookMetadata) {db : Database}
    (hw : WellLinked db) :
    ReplacingRelations bookId metadata [] db (withoutLinks bookId db) := by
  have hself : ∀ kind, linksOf (withoutLinks bookId db) kind bookId = [] := by
    intro kind
    rw [linksOf, withoutLinks]
    rw [filter_eq_nil_iff]
    intro r hr
    simpa using (Table.mem_delete.mp hr).2
  have hother : ∀ kind, ∀ b ≠ bookId, linksOf (withoutLinks bookId db) kind b =
      linksOf db kind b := by
    intro kind b hb
    rw [linksOf, withoutLinks]
    rw [Table.rows_delete, filter_filter]
    refine filter_congr fun r _ => ?_
    by_cases hr : r.bookId = b
    · simp [hr, hb]
    · simp [hr]
  refine ⟨rfl, ⟨hw.spelling, hw.named, ?_⟩, fun _ h => absurd h not_mem_nil, ?_,
    fun kind _ => hself kind, ?_⟩
  · exact fun kind l hl => hw.resolved kind l (Table.mem_delete.mp hl).1
  · intro kind
    rw [hself]
    exact Pairwise.nil
  · intro kind b hb
    refine ⟨?_, hother kind b hb⟩
    rw [linkedNames]
    rw [hother kind b hb]
    rfl

theorem deleteLinks_spec (bookId : Nat) (db : Database) :
    Triple (fun s => s = db)
      (do deleteLinks .authors bookId; deleteLinks .tags bookId; deleteLinks .genres bookId)
      (fun _ s => s = withoutLinks bookId db) fun _ _ => False := by
  refine Triple.seq (M := fun s => s = setLinks .authors ((db.links .authors).delete
    fun r => r.bookId = bookId) db) (.modify fun s hs => by rw [hs]) ?_
  refine Triple.seq (M := fun s => s = setLinks .tags ((db.links .tags).delete
    fun r => r.bookId = bookId) (setLinks .authors ((db.links .authors).delete
    fun r => r.bookId = bookId) db)) (.modify fun s hs => by rw [hs]; rfl) ?_
  refine .modify fun s hs => ?_
  rw [hs]
  rw [withoutLinks, setLinks]
  congr 1
  funext k
  cases k <;> rfl

/-- `ReplaceBookRelations` does not fail, and links the book to its names. -/
theorem replaceBookRelations_spec {bookId : Nat} {metadata : BookMetadata} {db : Database}
    (hw : WellLinked db) :
    Triple (fun s => s = db) (replaceBookRelations bookId metadata)
      (fun _ db' => ReplacedRelations bookId metadata db db') fun _ _ => False := by
  have hdel := deleteLinks_spec bookId db
  have h₀ := replacing_withoutLinks bookId metadata hw
  have hrest : Triple (fun s => s = withoutLinks bookId db)
      (do insertAuthors bookId metadata.authors
          insertTags bookId metadata.tags
          insertGenres bookId metadata.genres)
      (fun _ db' => ReplacedRelations bookId metadata db db') fun _ _ => False := by
    refine (h₀.insert (appendsLink_authors bookId) monotone_id not_mem_nil).bind fun _ =>
      Triple.of_state fun db₁ h₁ => ?_
    refine (h₁.insert (appendsLink_tags bookId) monotone_const (by decide)).bind fun _ =>
      Triple.of_state fun db₂ h₂ => ?_
    refine (h₂.insert (appendsLink_genres bookId) monotone_const (by decide)).post fun _ db' h => ?_
    exact ⟨h.frame, h.wellLinked, fun kind => h.names kind (by cases kind <;> decide), h.sorted,
      h.others⟩
  have hall := hdel.bind fun _ => hrest
  simp only [bind_assoc] at hall
  exact hall

/-! ### Reading the names back -/

section Stored

variable {db : Database} (hw : WellLinked db)

include hw

theorem map_joined (kind : EntityKind) (links : List LinkRow)
    (hsub : ∀ l ∈ links, l ∈ (db.links kind).rows) :
    (links.filterMap fun r => ((db.entities kind).find? r.entityId).map fun e => (r, e)).map
      (fun p => normalizeText p.2.displayName) =
      links.map fun r => entityName db kind r.entityId := by
  induction links with
  | nil => rfl
  | cons l links ih =>
    obtain ⟨e, he, hid⟩ := hw.resolved kind l (hsub l (mem_cons_self ..))
    have hf : (db.entities kind).find? l.entityId = some e := Table.find?_eq_some.mpr ⟨he, hid⟩
    have hname : entityName db kind l.entityId = e.normalizedName := by
      rw [← hid]
      exact entityName_of_mem he
    rw [filterMap_cons, hf, Option.map_some, map_cons, map_cons, hw.spelling kind e he, hname,
      ih fun l' hl' => hsub l' (mem_cons_of_mem _ hl')]

theorem readRelatedEntityNames_perm (kind : EntityKind) (bookId : Nat)
    (before : LinkRow × EntityRow → LinkRow × EntityRow → Prop) [DecidableRel before] :
    (readRelatedEntityNames db kind bookId before).map normalizeText ~
      linkedNames db kind bookId := by
  rw [readRelatedEntityNames, linkedNames, linksOf]
  rw [← map_joined hw kind _ fun l hl => mem_of_mem_filter hl, map_map]
  exact (perm_insertionSort _ _).map _

/-- The names read back are the ones linked, up to their order. -/
theorem storedNames_perm (kind : EntityKind) (bookId : Nat) :
    (storedNames db kind bookId).map normalizeText ~ linkedNames db kind bookId := by
  cases kind <;> exact readRelatedEntityNames_perm hw _ bookId _

theorem storedNames_authors {bookId : Nat}
    (hs : (linksOf db .authors bookId).Pairwise fun r r' => r.order ≤ r'.order) :
    (storedNames db .authors bookId).map normalizeText = linkedNames db .authors bookId := by
  have hsorted : ((linksOf db .authors bookId).filterMap fun r =>
      ((db.entities .authors).find? r.entityId).map fun e => (r, e)).Pairwise byAuthorOrder := by
    refine Pairwise.filterMap _ ?_ hs
    intro r r' hr p hp p' hp'
    obtain ⟨e, _, rfl⟩ := Option.map_eq_some_iff.mp hp
    obtain ⟨e', _, rfl⟩ := Option.map_eq_some_iff.mp hp'
    exact hr
  change (readRelatedEntityNames db .authors bookId byAuthorOrder).map normalizeText = _
  unfold readRelatedEntityNames linkedNames
  unfold linksOf at hsorted ⊢
  simp only
  rw [hsorted.insertionSort_eq, map_map]
  exact map_joined hw .authors _ fun l hl => mem_of_mem_filter hl

theorem normalizedTexts_storedNames (kind : EntityKind) (bookId : Nat) :
    normalizedTexts (storedNames db kind bookId) =
      (storedNames db kind bookId).map normalizeText := by
  rw [normalizedTexts]
  rw [filter_eq_self]
  intro name hn
  have hm := (storedNames_perm hw kind bookId).mem_iff.mp hn
  obtain ⟨l, hl, rfl⟩ := mem_map.mp hm
  obtain ⟨e, he, hid⟩ := hw.resolved kind l (mem_of_mem_filter hl)
  rw [← hid, entityName_of_mem he]
  exact decide_eq_true (hw.named kind e he)

end Stored

end InpxWebReader.Database
