import InpxWebReader.Database.Statistics

/-!
# The counted covers

`Counted ok refs st db` says that the statistics row of `db` is `st`, that the counted covers are
the paths with a nonzero `refs`, each with that reference count and a size that `ok` allows, and
that the cache size in `st` is the sum of those sizes. Each statement of the statistics moves `refs`
at one path and keeps the rest, and none of them fails on a counter.
-/

namespace InpxWebReader.Database

open Foundation Domain Storage Program

/-- Which sizes a cover may be counted with. -/
structure AllowedSizes where
  allowed : Bytes → Int → Prop
  nonneg : ∀ path size, allowed path size → 0 ≤ size

/-- The statistics row and the counted covers agree with the reference counts `refs`. -/
structure Counted (ok : AllowedSizes) (refs : Bytes → Nat) (st : StatisticsRow) (db : Database) :
    Prop where
  row : db.statistics = some st
  counts : ∀ path, (db.coverFiles.find? path).map CoverFileRow.referenceCount =
    if refs path = 0 then none else some (refs path : Int)
  sizes : ∀ r ∈ db.coverFiles.rows, ok.allowed r.coverPath r.sizeBytes
  cacheSize : st.coverCacheSizeBytes = db.coverFiles.total CoverFileRow.sizeBytes
  nonneg : 0 ≤ st.bookCount ∧ 0 ≤ st.unavailableBookCount ∧ 0 ≤ st.inpxSourceSizeBytes

/-- The two databases differ in their statistics only. -/
def OnlyStatisticsChange (db db' : Database) : Prop :=
  db' = { db with statistics := db'.statistics, coverFiles := db'.coverFiles }

theorem OnlyStatisticsChange.refl (db : Database) : OnlyStatisticsChange db db := rfl

theorem OnlyStatisticsChange.trans {a b c : Database} (h : OnlyStatisticsChange a b)
    (h' : OnlyStatisticsChange b c) : OnlyStatisticsChange a c := by
  rw [OnlyStatisticsChange] at *
  rw [h', h]

/-- The failure of a size that does not fit the column. -/
def sizeOverflow : Failure := runtimeError "Catalog statistics value exceeds SQLite int64 range."

theorem sizeOverflow_ne_counterUnderflow : sizeOverflow ≠ counterUnderflow := by decide

theorem constraintFailed_ne_counterUnderflow : constraintFailed ≠ counterUnderflow := by decide

/-- One reference more, or less, at a path. -/
def bumped (refs : Bytes → Nat) (path : Bytes) (f : Nat → Nat) : Bytes → Nat :=
  fun p => if p = path then f (refs p) else refs p

@[simp] theorem bumped_self (refs : Bytes → Nat) (path : Bytes) (f : Nat → Nat) :
    bumped refs path f path = f (refs path) := if_pos rfl

theorem bumped_ne {refs : Bytes → Nat} {path p : Bytes} {f : Nat → Nat} (h : p ≠ path) :
    bumped refs path f p = refs p := if_neg h

/-! ### Single statements -/

theorem toSqliteInt64_spec (value : Nat) {P : Database → Prop} :
    Triple P (toSqliteInt64 value) (fun a s => a = value ∧ value < 2 ^ 63 ∧ P s)
      fun e _ => e = sizeOverflow ∧ 2 ^ 63 ≤ value := by
  rw [toSqliteInt64]
  refine .ite (fun h => .pure fun s hs => ⟨rfl, h, hs⟩) fun h => .throw fun s _ => ⟨rfl, ?_⟩
  omega

theorem addStatisticsDelta_spec {db : Database} {st : StatisticsRow}
    (hst : db.statistics = some st) (b u c i : Int)
    (hnonneg : StatisticsRow.IsNonnegative ⟨st.bookCount + b, st.unavailableBookCount + u,
      st.coverCacheSizeBytes + c, st.inpxSourceSizeBytes + i⟩) :
    Triple (fun s => s = db) (addStatisticsDelta b u c i)
      (fun _ s => s = { db with statistics := some ⟨st.bookCount + b,
        st.unavailableBookCount + u, st.coverCacheSizeBytes + c, st.inpxSourceSizeBytes + i⟩ })
      fun _ _ => False := by
  have hsome : { db with statistics := some (db.statistics.getD {}) } = db := by
    rw [hst, Option.getD_some, ← hst]
  refine Triple.seq (M := fun s => s = db) (.modify fun s hs => by rw [hs, hsome]) ?_
  rw [updateStatistics]
  refine Triple.bind (M := fun t s => t = db ∧ s = db) (.get fun s hs => ⟨hs, hs⟩) fun t => ?_
  refine Triple.of_pure fun ht => ?_
  subst ht
  rw [hst]
  refine Triple.bind (M := fun _ s => s = t) (.require (fun s hs _ => hs)
    fun s _ hn => hn hnonneg) fun _ => ?_
  exact .modify fun s hs => by rw [hs]

section Statements

variable {ok : AllowedSizes} {refs : Bytes → Nat} {st : StatisticsRow} {db : Database}

theorem Counted.cacheSize_nonneg (h : Counted ok refs st db) :
    0 ≤ db.coverFiles.total CoverFileRow.sizeBytes :=
  Table.total_nonneg fun r hr => ok.nonneg _ _ (h.sizes r hr)

theorem Counted.find?_none (h : Counted ok refs st db) {path : Bytes}
    (hf : db.coverFiles.find? path = none) : refs path = 0 := by
  have hc := h.counts path
  rw [hf] at hc
  by_contra hn
  rw [if_neg hn] at hc
  cases hc

theorem Counted.find?_some (h : Counted ok refs st db) {path : Bytes} {row : CoverFileRow}
    (hf : db.coverFiles.find? path = some row) :
    refs path ≠ 0 ∧ row.referenceCount = refs path := by
  have hc := h.counts path
  rw [hf, Option.map_some] at hc
  by_cases hn : refs path = 0
  · rw [if_pos hn] at hc
    cases hc
  · rw [if_neg hn, Option.some_inj] at hc
    exact ⟨hn, hc⟩

theorem Counted.addReferences (h : Counted ok refs st db) {path : Bytes} {row : CoverFileRow}
    (hf : db.coverFiles.find? path = some row) {f : Nat → Nat} {delta : Int}
    (hdelta : (f (refs path) : Int) = refs path + delta) (hpos : f (refs path) ≠ 0) :
    Counted ok (bumped refs path f) st (setCoverFiles (db.coverFiles.update
      (fun r => r.coverPath = path) (CoverFileRow.addReferences delta)
      (CoverFileRow.addReferences_coverPath delta)
      (CoverFileRow.addReferences_coverPath delta)) db) := by
  have hrow := h.find?_some hf
  refine ⟨h.row, fun p => ?_, fun r hr => ?_, ?_, h.nonneg⟩
  · change Option.map _ ((db.coverFiles.update _ _ (CoverFileRow.addReferences_coverPath delta)
      (CoverFileRow.addReferences_coverPath delta)).find? p) = _
    rw [Table.find?_update, Option.map_map]
    by_cases hp : p = path
    · subst hp
      rw [hf, Option.map_some, bumped_self, if_neg hpos, Option.some_inj, hdelta]
      have hkey : row.coverPath = p := (Table.find?_eq_some.mp hf).2
      simp [hkey, CoverFileRow.addReferences, hrow.2]
    · rw [bumped_ne hp, ← h.counts p]
      cases hq : db.coverFiles.find? p with
      | none => rfl
      | some r =>
        have hkey : r.coverPath = p := (Table.find?_eq_some.mp hq).2
        simp [hkey, hp]
  · obtain ⟨r₀, hr₀, rfl⟩ := List.mem_map.mp hr
    have := h.sizes r₀ hr₀
    split <;> exact this
  · rw [h.cacheSize]
    rw [Table.total]
    change _ = (List.map _ (db.coverFiles.update _ _ (CoverFileRow.addReferences_coverPath delta)
      (CoverFileRow.addReferences_coverPath delta)).rows).sum
    rw [Table.rows_update, List.map_map]
    congr 1
    refine List.map_congr_left fun r _ => ?_
    by_cases hp : r.coverPath = path <;> simp [hp, CoverFileRow.addReferences]

theorem Counted.insert (h : Counted ok refs st db) {path : Bytes} {table}
    {count : Nat} {size : Int} (hcount : count ≠ 0) (hsize : ok.allowed path size)
    (hnone : refs path = 0)
    (hins : db.coverFiles.insert? ⟨path, count, size⟩ = some table) :
    Counted ok (bumped refs path fun _ => count)
      { st with coverCacheSizeBytes := st.coverCacheSizeBytes + size }
      { setCoverFiles table db with
        statistics := some { st with coverCacheSizeBytes := st.coverCacheSizeBytes + size } } := by
  refine ⟨rfl, fun p => ?_, fun r hr => ?_, ?_, h.nonneg⟩
  · change (table.find? p).map _ = _
    rw [Table.find?_insert? hins]
    by_cases hp : p = path
    · subst hp
      rw [if_pos rfl, bumped_self, if_neg hcount]
      rfl
    · rw [if_neg (Ne.symm hp), bumped_ne hp]
      exact h.counts p
  · change r ∈ table.rows at hr
    rw [(Table.insert?_eq_some.mp hins).2, List.mem_append, List.mem_singleton] at hr
    rcases hr with hr | rfl
    · exact h.sizes r hr
    · exact hsize
  · change st.coverCacheSizeBytes + size = table.total _
    rw [Table.total_insert? hins, h.cacheSize]

theorem Counted.delete (h : Counted ok refs st db) {path : Bytes} {row : CoverFileRow}
    (hf : db.coverFiles.find? path = some row) :
    Counted ok (bumped refs path fun _ => 0)
      { st with coverCacheSizeBytes := st.coverCacheSizeBytes - row.sizeBytes }
      { setCoverFiles (db.coverFiles.delete fun r => r.coverPath = path) db with
        statistics := some
          { st with coverCacheSizeBytes := st.coverCacheSizeBytes - row.sizeBytes } } := by
  obtain ⟨hrow, hkey⟩ := Table.find?_eq_some.mp hf
  refine ⟨rfl, fun p => ?_, fun r hr => h.sizes r (Table.mem_delete.mp hr).1, ?_, h.nonneg⟩
  · change ((db.coverFiles.delete _).find? p).map _ = _
    rw [Table.find?_delete]
    by_cases hp : p = path
    · subst hp
      rw [hf, Option.filter_some, bumped_self]
      simp [hkey]
    · rw [bumped_ne hp, ← h.counts p]
      cases hq : db.coverFiles.find? p with
      | none => rfl
      | some r =>
        have hkey' : r.coverPath = p := (Table.find?_eq_some.mp hq).2
        rw [Option.filter_some, if_pos (by simp [hkey', hp])]
  · change st.coverCacheSizeBytes - row.sizeBytes = (db.coverFiles.delete _).total _
    rw [Table.total_delete_one hrow (by simp [hkey]) ?_, h.cacheSize]
    intro r' hr' hp
    exact Table.key_inj hr' hrow (by rw [of_decide_eq_true hp, hkey])

theorem Counted.resize (h : Counted ok refs st db) {path : Bytes} {row : CoverFileRow}
    (hf : db.coverFiles.find? path = some row) {size : Int} (hsize : ok.allowed path size) :
    Counted ok refs
      { st with coverCacheSizeBytes := st.coverCacheSizeBytes + (size - row.sizeBytes) }
      { setCoverFiles (db.coverFiles.update (fun r => r.coverPath = path)
          (CoverFileRow.withSize size) (CoverFileRow.withSize_coverPath size)
          (CoverFileRow.withSize_coverPath size)) db with
        statistics := some
          { st with coverCacheSizeBytes := st.coverCacheSizeBytes + (size - row.sizeBytes) } } := by
  obtain ⟨hrow, hkey⟩ := Table.find?_eq_some.mp hf
  refine ⟨rfl, fun p => ?_, fun r hr => ?_, ?_, h.nonneg⟩
  · change ((db.coverFiles.update _ _ (CoverFileRow.withSize_coverPath size)
      (CoverFileRow.withSize_coverPath size)).find? p).map _ = _
    rw [Table.find?_update, Option.map_map, ← h.counts p]
    cases hq : db.coverFiles.find? p with
    | none => rfl
    | some r =>
      rw [Option.map_some, Option.map_some, Option.some_inj, Function.comp_apply]
      split <;> rfl
  · obtain ⟨r₀, hr₀, rfl⟩ := List.mem_map.mp hr
    by_cases hp : r₀.coverPath = path
    · simpa [hp, CoverFileRow.withSize] using hsize
    · simpa [hp] using h.sizes r₀ hr₀
  · change st.coverCacheSizeBytes + (size - row.sizeBytes) = (db.coverFiles.update _ _
      (CoverFileRow.withSize_coverPath size) (CoverFileRow.withSize_coverPath size)).total _
    rw [Table.total_update_one hrow (by simp [hkey]) ?_, h.cacheSize]
    · rfl
    · intro r' hr' hp
      exact Table.key_inj hr' hrow (by rw [of_decide_eq_true hp, hkey])

end Statements

/-! ### The calls of the scan -/

/-- A row whose books and source are counted as in another. -/
def SameCounts (st st' : StatisticsRow) : Prop :=
  st'.bookCount = st.bookCount ∧ st'.unavailableBookCount = st.unavailableBookCount ∧
    st'.inpxSourceSizeBytes = st.inpxSourceSizeBytes

/-- A cover that can be counted: its path is in normal form, and its file is there. -/
structure Countable (ok : AllowedSizes) (covers : CoverStore) (path : Bytes) (size : Nat) :
    Prop where
  ne_nil : path ≠ []
  normal : tryNormalizeCoverPath path = some path
  file : ∃ bytes, covers path = some (.regular bytes)
  allowed : ok.allowed path size
  fits : size < 2 ^ 63

/-- One reference more, or less, at a path that may be absent. -/
def bumpedAt (refs : Bytes → Nat) (path : Option Bytes) (f : Nat → Nat) : Bytes → Nat :=
  path.elim refs fun path => bumped refs path f

section Calls

variable {ok : AllowedSizes} {refs : Bytes → Nat} {st : StatisticsRow} {db : Database}
  {covers : CoverStore}

theorem countedCoverPath_of_normal {path : Bytes} (hne : path ≠ [])
    (hnormal : tryNormalizeCoverPath path = some path) :
    countedCoverPath (some path) = some path := by
  rw [countedCoverPath]
  rw [Option.filter_some, if_pos (by simpa using hne), Option.bind_some, hnormal]

theorem Countable.getCoverSize {path : Bytes} {size : Nat} (h : Countable ok covers path size) :
    getCoverSize covers path (some size) = some size := by
  obtain ⟨bytes, hb⟩ := h.file
  rw [Database.getCoverSize]
  rw [h.normal]
  simp only [hb, Option.getD_some]

/-- The cache size moves by what a cover takes, and stays nonnegative. -/
theorem addCoverSize_spec {st : StatisticsRow} {db : Database} (hrow : db.statistics = some st)
    (hnonneg : 0 ≤ st.bookCount ∧ 0 ≤ st.unavailableBookCount ∧ 0 ≤ st.inpxSourceSizeBytes)
    {delta : Int} (hd : 0 ≤ st.coverCacheSizeBytes + delta) :
    Triple (fun s => s = db) (addStatisticsDelta 0 0 delta 0)
      (fun _ s => s = { db with
        statistics := some { st with coverCacheSizeBytes := st.coverCacheSizeBytes + delta } })
      fun _ _ => False := by
  refine (addStatisticsDelta_spec hrow 0 0 delta 0 ?_).post fun _ s hs => ?_
  · simpa [StatisticsRow.IsNonnegative, hd] using hnonneg
  · simpa using hs

theorem insertCoverFile_spec {db : Database} {row : CoverFileRow}
    (hnone : db.coverFiles.find? row.coverPath = none) :
    Triple (fun s => s = db) (insertCoverFile row)
      (fun _ s => ∃ table, db.coverFiles.insert? row = some table ∧ s = setCoverFiles table db)
      fun _ _ => False := by
  have hfresh : row.coverPath ∉ db.coverFiles.rows.map CoverFileRow.coverPath := by
    intro hm
    obtain ⟨r, hr, he⟩ := List.mem_map.mp hm
    exact Table.find?_eq_none.mp hnone r hr he
  obtain ⟨table, htable⟩ := Table.insert?_isSome hfresh hfresh
  rw [insertCoverFile]
  refine Triple.bind (M := fun t s => t = db ∧ s = db) (.get fun s hs => ⟨hs, hs⟩) fun t => ?_
  refine Triple.of_pure fun ht => ?_
  subst ht
  rw [htable]
  refine Triple.bind (M := fun a s => a = table ∧ s = t) (.pure fun s hs => ⟨rfl, hs⟩)
    fun a => ?_
  refine Triple.of_pure fun ha => ?_
  subst ha
  exact .modify fun s hs => ⟨a, rfl, by rw [hs]⟩

theorem incrementCoverReference_spec (h : Counted ok refs st db) {path : Option Bytes}
    {size : Option Nat}
    (hpath : ∀ p, path = some p → ∃ n, size = some n ∧ Countable ok covers p n) :
    Triple (fun s => s = db) (incrementCoverReference covers path size)
      (fun _ s => OnlyStatisticsChange db s ∧
        ∃ st', SameCounts st st' ∧ Counted ok (bumpedAt refs path (· + 1)) st' s)
      fun _ _ => False := by
  unfold incrementCoverReference
  cases path with
  | none =>
    refine .pure fun s hs => ?_
    rw [hs]
    exact ⟨.refl db, st, ⟨rfl, rfl, rfl⟩, h⟩
  | some p =>
    obtain ⟨n, rfl, hp⟩ := hpath p rfl
    rw [countedCoverPath_of_normal hp.ne_nil hp.normal]
    refine Triple.bind (M := fun t s => t = db ∧ s = db) (.get fun s hs => ⟨hs, hs⟩) fun t => ?_
    refine Triple.of_pure fun ht => ?_
    subst ht
    cases hf : t.coverFiles.find? p with
    | some row =>
      refine .modify fun s hs => ?_
      rw [hs]
      refine ⟨rfl, st, ⟨rfl, rfl, rfl⟩, ?_⟩
      exact h.addReferences hf (f := (· + 1)) (by simp) (by simp)
    | none =>
      simp only [hp.getCoverSize]
      refine Triple.bind (M := fun a s => a = (n : Int) ∧ s = t)
        (((toSqliteInt64_spec n).post fun a s hs => ⟨hs.1, hs.2.2⟩).error fun e s he => ?_)
        fun a => ?_
      · have hfits := hp.fits
        omega
      refine Triple.of_pure fun ha => ?_
      subst ha
      refine Triple.seq (insertCoverFile_spec hf) (Triple.of_exists fun table => ?_)
      refine Triple.of_pure fun htable => ?_
      have hrefs := h.find?_none hf
      have hins := h.insert Nat.one_ne_zero hp.allowed hrefs
        (by rw [Nat.cast_one]; exact htable)
      have hn := ok.nonneg _ _ hp.allowed
      have hrow : (setCoverFiles table t).statistics = some st := h.row
      refine (addCoverSize_spec hrow h.nonneg ?_).post fun _ s hs => ?_
      · rw [h.cacheSize]
        have := h.cacheSize_nonneg
        omega
      · rw [hs]
        have hb : bumpedAt refs (some p) (· + 1) = bumped refs p fun _ => 1 := by
          funext q
          unfold bumpedAt bumped
          by_cases hq : q = p <;> simp [hq, hrefs]
        rw [hb]
        refine ⟨rfl, _, ?_, hins⟩
        exact ⟨rfl, rfl, rfl⟩

theorem decrementCoverReference_spec (h : Counted ok refs st db) {path : Option Bytes}
    (hpath : ∀ p, path = some p → p ≠ [] ∧ tryNormalizeCoverPath p = some p ∧ 0 < refs p) :
    Triple (fun s => s = db) (decrementCoverReference path)
      (fun _ s => OnlyStatisticsChange db s ∧
        ∃ st', SameCounts st st' ∧ Counted ok (bumpedAt refs path (· - 1)) st' s)
      fun _ _ => False := by
  unfold decrementCoverReference
  cases path with
  | none =>
    refine .pure fun s hs => ?_
    rw [hs]
    exact ⟨.refl db, st, ⟨rfl, rfl, rfl⟩, h⟩
  | some p =>
    obtain ⟨hne, hnormal, hpos⟩ := hpath p rfl
    rw [countedCoverPath_of_normal hne hnormal]
    refine Triple.bind (M := fun t s => t = db ∧ s = db) (.get fun s hs => ⟨hs, hs⟩) fun t => ?_
    refine Triple.of_pure fun ht => ?_
    subst ht
    cases hf : t.coverFiles.find? p with
    | none =>
      have := h.find?_none hf
      omega
    | some row =>
      have hrow := (h.find?_some hf).2
      refine .ite (fun hlt => ?_) fun hlt => ?_
      · refine .modify fun s hs => ?_
        rw [hs]
        refine ⟨rfl, st, ⟨rfl, rfl, rfl⟩, ?_⟩
        exact h.addReferences hf (f := (· - 1)) (by omega) (by omega)
      · refine Triple.seq (M := fun s => s = setCoverFiles
          (t.coverFiles.delete fun r => r.coverPath = p) t) (.modify fun s hs => by rw [hs]) ?_
        have hdel := h.delete hf
        have hnn : 0 ≤ st.coverCacheSizeBytes - row.sizeBytes := by
          have hc : st.coverCacheSizeBytes - row.sizeBytes = _ := hdel.cacheSize
          rw [hc]
          exact hdel.cacheSize_nonneg
        have hst : (setCoverFiles (t.coverFiles.delete fun r => r.coverPath = p) t).statistics =
            some st := h.row
        refine (addCoverSize_spec hst h.nonneg ?_).post fun _ s hs => ?_
        · rwa [← sub_eq_add_neg]
        · rw [hs]
          have hb : bumpedAt refs (some p) (· - 1) = bumped refs p fun _ => 0 := by
            funext q
            unfold bumpedAt bumped
            by_cases hq : q = p
            · subst hq
              simp only [Option.elim_some, if_true]
              omega
            · simp [hq]
          rw [hb, ← sub_eq_add_neg]
          refine ⟨rfl, _, ?_, hdel⟩
          exact ⟨rfl, rfl, rfl⟩

/-- The size of a counted cover is brought up to date; no reference changes. -/
theorem refreshCoverReferenceSize_spec (h : Counted ok refs st db) {path : Option Bytes}
    {size : Option Nat}
    (hpath : ∀ p, path = some p → (∃ n, size = some n ∧ Countable ok covers p n) ∧ 0 < refs p) :
    Triple (fun s => s = db) (refreshCoverReferenceSize covers path size)
      (fun _ s => OnlyStatisticsChange db s ∧ ∃ st', SameCounts st st' ∧ Counted ok refs st' s)
      fun _ _ => False := by
  rw [refreshCoverReferenceSize]
  cases path with
  | none =>
    refine .pure fun s hs => ?_
    rw [hs]
    exact ⟨.refl db, st, ⟨rfl, rfl, rfl⟩, h⟩
  | some p =>
    obtain ⟨⟨n, rfl, hp⟩, hpos⟩ := hpath p rfl
    rw [countedCoverPath_of_normal hp.ne_nil hp.normal]
    simp only [hp.getCoverSize]
    refine Triple.bind (M := fun t s => t = db ∧ s = db) (.get fun s hs => ⟨hs, hs⟩) fun t => ?_
    refine Triple.of_pure fun ht => ?_
    subst ht
    cases hf : t.coverFiles.find? p with
    | none =>
      have := h.find?_none hf
      omega
    | some row =>
      refine Triple.bind (M := fun a s => a = (n : Int) ∧ s = t)
        (((toSqliteInt64_spec n).post fun a s hs => ⟨hs.1, hs.2.2⟩).error fun e s he => ?_)
        fun a => ?_
      · have hfits := hp.fits
        omega
      refine Triple.of_pure fun ha => ?_
      subst ha
      refine .ite (fun _ => ?_) fun _ => ?_
      · refine .pure fun s hs => ?_
        rw [hs]
        exact ⟨.refl t, st, ⟨rfl, rfl, rfl⟩, h⟩
      · have hres := h.resize hf hp.allowed
        have hnn : 0 ≤ st.coverCacheSizeBytes + ((n : Int) - row.sizeBytes) := by
          have hc : st.coverCacheSizeBytes + ((n : Int) - row.sizeBytes) = _ := hres.cacheSize
          rw [hc]
          exact hres.cacheSize_nonneg
        refine Triple.seq (M := fun s => s = setCoverFiles (t.coverFiles.update
          (fun r => r.coverPath = p) (CoverFileRow.withSize n) (CoverFileRow.withSize_coverPath n)
          (CoverFileRow.withSize_coverPath n)) t) (.modify fun s hs => by rw [hs]) ?_
        have hst : (setCoverFiles (t.coverFiles.update (fun r => r.coverPath = p)
            (CoverFileRow.withSize n) (CoverFileRow.withSize_coverPath n)
            (CoverFileRow.withSize_coverPath n)) t).statistics = some st := h.row
        refine (addCoverSize_spec hst h.nonneg hnn).post fun _ s hs => ?_
        rw [hs]
        refine ⟨rfl, _, ?_, hres⟩
        exact ⟨rfl, rfl, rfl⟩

end Calls

end InpxWebReader.Database
