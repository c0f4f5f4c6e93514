import Mathlib.Data.List.Infix
import InpxWebReader.Converter.ExternalBookConverter

/-!
# What a conversion publishes

Whatever the process does to the disk, a conversion that succeeds leaves a regular file with the
bytes of what the process produced, one that does not leaves nothing in the output directory that was
not there before, and no other entry of the disk goes (`convert_publication`). The process must not
put a link in the place of the directories that it is given: the conversion would go through it and
take away what it finds there (`outputLinked_not_kept`).

Each step is described by what it does to the lookups of the disk it starts on. `Paves` is what making
directories on the way to a place does, and `Holds` is a disk with one more file.
-/

namespace InpxWebReader.Converter

open Foundation Storage Program

/-! ### Steps that change the disk only -/

section Steps

variable {α β : Type} {env : ConverterEnv}

/-- From a disk with `P` the program returns with a disk with `Q`, or throws with one with `E`. What
the conversion has come to stays. -/
def OnDisk (P : ConverterDisk → Prop) (c : ConverterM α) (Q : α → ConverterDisk → Prop)
    (E : ConverterDisk → Prop) : Prop :=
  ∀ work processed, Triple (fun s => P s.disk ∧ s.work = work ∧ s.processed = processed) c
    (fun a s => Q a s.disk ∧ s.work = work ∧ s.processed = processed)
    (fun _ s => E s.disk ∧ s.work = work ∧ s.processed = processed)

variable {P P' : ConverterDisk → Prop} {Q Q' : α → ConverterDisk → Prop} {E E' : ConverterDisk → Prop}

theorem OnDisk.conseq {c : ConverterM α} (h : OnDisk P' c Q' E') (hP : ∀ d, P d → P' d)
    (hQ : ∀ a d, Q' a d → Q a d) (hE : ∀ d, E' d → E d) : OnDisk P c Q E :=
  fun work processed => (h work processed).conseq (fun s hs => ⟨hP s.disk hs.1, hs.2⟩)
    (fun a s hs => ⟨hQ a s.disk hs.1, hs.2⟩) fun _ s hs => ⟨hE s.disk hs.1, hs.2⟩

theorem OnDisk.pure {a : α} (h : ∀ d, P d → Q a d) : OnDisk P (pure a) Q E :=
  fun _ _ => .pure fun s hs => ⟨h s.disk hs.1, hs.2⟩

theorem OnDisk.throw {text : Bytes} (h : ∀ d, P d → E d) : OnDisk P (throw text : ConverterM α) Q E :=
  fun _ _ => .throw fun s hs => ⟨h s.disk hs.1, hs.2⟩

theorem OnDisk.bind {c : ConverterM β} {f : β → ConverterM α} {M : β → ConverterDisk → Prop}
    (h : OnDisk P c M E) (hf : ∀ b, OnDisk (M b) (f b) Q E) : OnDisk P (c >>= f) Q E :=
  fun work processed => (h work processed).bind fun b => hf b work processed

theorem OnDisk.seq {c : ConverterM Unit} {f : ConverterM α} {M : ConverterDisk → Prop}
    (h : OnDisk P c (fun _ => M) E) (hf : OnDisk M f Q E) : OnDisk P (c >>= fun _ => f) Q E :=
  h.bind fun _ => hf

theorem OnDisk.ite {p : Prop} [Decidable p] {c c' : ConverterM α} (h : p → OnDisk P c Q E)
    (h' : ¬p → OnDisk P c' Q E) : OnDisk P (if p then c else c') Q E := by
  split
  · next hp => exact h hp
  · next hp => exact h' hp

/-- The disk that a program reads is the one it is on. -/
theorem OnDisk.get {f : ConverterState → ConverterM α}
    (h : ∀ s : ConverterState, OnDisk (fun d => P d ∧ d = s.disk) (f s) Q E) :
    OnDisk P (MonadState.get >>= f) Q E := by
  intro work processed s hs
  exact h s work processed s ⟨⟨hs.1, rfl⟩, hs.2⟩

theorem OnDisk.of_pure {p : Prop} {c : ConverterM α} (h : p → OnDisk P c Q E) :
    OnDisk (fun d => p ∧ P d) c Q E :=
  fun work processed s hs => h hs.1.1 work processed s ⟨hs.1.2, hs.2⟩

theorem OnDisk.of_disk {c : ConverterM α} (h : ∀ d, P d → OnDisk (· = d) c Q E) : OnDisk P c Q E :=
  fun work processed s hs => h s.disk hs.1 work processed s ⟨rfl, hs.2⟩

theorem OnDisk.changeDisk {change : ConverterDisk → ConverterDisk} {R : ConverterDisk → Prop}
    (h : ∀ d, P d → R (change d)) : OnDisk P (changeDisk change) (fun _ => R) E :=
  fun _ _ => .modify fun s hs => ⟨h s.disk hs.1, hs.2⟩

/-- A loop, by an invariant indexed by what is done. -/
theorem OnDisk.forM {xs : List β} {f : β → ConverterM PUnit} (I : List β → ConverterDisk → Prop)
    (h : ∀ done x rest, xs = done ++ x :: rest →
      OnDisk (I done) (f x) (fun _ => I (done ++ [x])) E) :
    OnDisk (I []) (xs.forM f) (fun _ => I xs) E :=
  fun work processed => Triple.forM
    (fun done (s : ConverterState) => I done s.disk ∧ s.work = work ∧ s.processed = processed)
    fun done x rest hsplit => h done x rest hsplit work processed

/-- A call fails and changes nothing, or acts. -/
theorem onDisk_systemCall {describe : Bytes → Bytes}
    {act : Nat → ConverterDisk → Except Bytes (α × ConverterDisk)}
    (hok : ∀ n d a d', P d → act n d = .ok (a, d') → Q a d') (hE : ∀ d, P d → E d) :
    OnDisk P (systemCall env describe act) Q E := by
  intro work processed s hs
  rw [systemCall]
  dsimp only
  cases env.fault s.calls with
  | some message => exact ⟨hE s.disk hs.1, hs.2⟩
  | none =>
    cases hact : act s.calls s.disk with
    | error message => exact ⟨hE s.disk hs.1, hs.2⟩
    | ok r => exact ⟨hok s.calls s.disk r.1 r.2 hs.1 hact, hs.2⟩

theorem onDisk_attempt {c : ConverterM Unit} {R : ConverterDisk → Prop}
    (h : OnDisk P c (fun _ => R) E) :
    OnDisk P (attempt c) (fun text d => if text = none then R d else E d) fun _ => False :=
  fun work processed => by
    refine .tryCatch (F := fun _ s => E s.disk ∧ s.work = work ∧ s.processed = processed)
      ((h work processed).bind fun _ => .pure fun _ hs => ?_) fun text => .pure fun _ hs => ?_
    · simpa using hs
    · simpa using hs

/-- The directory goes, whatever the program does. -/
theorem onDisk_scopedDirectoryCleanup {path : Location} {c : ConverterM α}
    (h : OnDisk P c (fun a d => Q a (d.removeAt path)) fun d => E (d.removeAt path)) :
    OnDisk P (scopedDirectoryCleanup (some path) c) Q E := by
  intro work processed s hs
  have hrun := h work processed s hs
  rw [scopedDirectoryCleanup]
  dsimp only
  cases hc : c s with
  | ok a s' =>
    rw [hc] at hrun
    exact hrun
  | error e s' =>
    rw [hc] at hrun
    exact hrun

end Steps

/-! ### Directories -/

/-- Directories are made on the way to a place, where nothing was. -/
def Paves (place : Location) (d d' : ConverterDisk) : Prop :=
  ∀ l, d'.lookup l = d.lookup l ∨
    (d.lookup l = none ∧ d'.lookup l = some .directory ∧ l <+: place)

def Adds (path : Location) (entry : DiskEntry Bytes Bytes) (d d' : ConverterDisk) : Prop :=
  d.lookup path = none ∧ ∀ l, d'.lookup l = if l = path then some entry else d.lookup l

section Directories

variable {env : ConverterEnv} {path place l : Location} {d d' d'' : ConverterDisk}
  {entry : DiskEntry Bytes Bytes}

theorem Paves.refl : Paves place d d := fun _ => .inl rfl

theorem Paves.trans (h : Paves place d d') (h' : Paves place d' d'') : Paves place d d'' := by
  intro l
  rcases h' l with hsame | ⟨hnone, hdirectory, hpre⟩
  · rcases h l with hsame' | ⟨hnone, hdirectory, hpre⟩
    · exact .inl (hsame.trans hsame')
    · exact .inr ⟨hnone, hsame.trans hdirectory, hpre⟩
  · rcases h l with hsame' | ⟨-, hdirectory', -⟩
    · exact .inr ⟨hsame'.symm.trans hnone, hdirectory, hpre⟩
    · cases hdirectory'.symm.trans hnone

theorem Paves.keepsLinks (h : Paves place d d') : d.KeepsLinks d' := by
  intro l target hlink
  rcases h l with hsame | ⟨_, hdirectory, _⟩
  · exact hsame ▸ hlink
  · cases hdirectory.symm.trans hlink

theorem Paves.lookup_of_ne_none (h : Paves place d d') (hl : d.lookup l ≠ none) :
    d'.lookup l = d.lookup l :=
  (h l).resolve_right fun hnew => hl hnew.1

theorem Paves.lookup_off_way (h : Paves place d d') (hl : ¬l <+: place) :
    d'.lookup l = d.lookup l :=
  (h l).resolve_right fun hnew => hl hnew.2.2

theorem Paves.eq_none (h : Paves place d d') (hl : d'.lookup l = none) : d.lookup l = none := by
  rcases h l with hsame | ⟨hnone, -⟩
  · exact hsame.symm.trans hl
  · exact hnone

/-- No file comes, only directories. -/
theorem Paves.file_iff {content : Bytes} (h : Paves place d d') :
    d'.lookup l = some (.file content) ↔ d.lookup l = some (.file content) := by
  rcases h l with hsame | ⟨hnone, hdirectory, -⟩
  · rw [hsame]
  · rw [hnone, hdirectory]
    exact iff_of_false (fun h => by cases h) (fun h => by cases h)

theorem adds_of_put (h : d.put path entry = some d') (hnone : d.lookup path = none) :
    Adds path entry d d' :=
  ⟨hnone, fun _ => Disk.lookup_put h⟩

theorem Adds.keepsLinks (h : Adds path .directory d d') : d.KeepsLinks d' := by
  intro l target hlink
  rw [h.2] at hlink
  split at hlink
  · cases hlink
  · exact hlink

theorem onDisk_makeDirectory (hd : d.Straight path.dropLast) (describe : Bytes → Bytes) :
    OnDisk (· = d) (makeDirectory env describe path) (fun _ => Adds path .directory d) (· = d) := by
  refine onDisk_systemCall (fun n e a d' he hact => ?_) fun e he => he
  subst he
  rw [Disk.entryAt_of_straight hd, Disk.putAt_of_straight hd] at hact
  split at hact
  · cases hact
  · next hnone =>
    rw [ne_eq, not_not] at hnone
    split at hact
    · next hput =>
      injection hact with hact
      injection hact with _ hact
      subst hact
      exact adds_of_put hput hnone
    · cases hact

/-- A directory is there after it was asked for, and only the way to it is new. -/
theorem onDisk_ensureDirectory (hd : d.Straight path) : OnDisk (· = d) (ensureDirectory env path)
    (fun _ d' => Paves path d d' ∧ d'.lookup path = some .directory) (Paves path d) := by
  rw [ensureDirectory]
  refine ((OnDisk.forM (fun done d' => Paves path d d' ∧
    ∀ above ∈ done, d'.lookup above = some .directory) fun done above rest hsplit => ?_).conseq
      (fun d' hd' => ?_) (fun _ d' h => ⟨h.1, h.2 path ?_⟩) fun _ h => h)
  · have hpre : above <+: path := by
      rw [← List.mem_inits, hsplit]
      exact List.mem_append_right _ (List.mem_cons_self ..)
    refine .get fun s => .ite (fun hthere => .pure fun d' h => ?_) fun hmissing => ?_
    · obtain ⟨⟨hpaves, hdone⟩, rfl⟩ := h
      rw [Disk.statusAt_of_straight ((hd.of_prefix hpre).keeps hpaves.keepsLinks)] at hthere
      refine ⟨hpaves, fun l hl => ?_⟩
      rcases List.mem_append.mp hl with hl | hl
      · exact hdone l hl
      · rw [List.mem_singleton.mp hl]
        exact hthere
    · refine .of_disk fun d' h => ?_
      obtain ⟨⟨hpaves, hdone⟩, rfl⟩ := h
      have hstraight := ((hd.of_prefix hpre).keeps hpaves.keepsLinks).dropLast
      refine (onDisk_makeDirectory hstraight _).conseq (fun _ h => h) (fun _ d'' hadds => ?_)
        fun d'' h => h ▸ hpaves
      obtain ⟨hnone, hlookup⟩ := hadds
      refine ⟨hpaves.trans fun l => ?_, fun l hl => ?_⟩
      · rw [hlookup]
        split
        · next hl =>
          subst hl
          exact .inr ⟨hnone, rfl, hpre⟩
        · exact .inl rfl
      · rw [hlookup]
        split
        · rfl
        · next hne => exact hdone l ((List.mem_append.mp hl).resolve_right (by simpa using hne))
  · subst hd'
    exact ⟨.refl, fun _ h => absurd h List.not_mem_nil⟩
  · exact (List.mem_inits _ _).mpr (List.prefix_refl path)

/-- A unique directory is below its parent, and was not there. -/
theorem onDisk_makeUniqueDirectory (hd : d.Straight path) (directoryNamePrefix : Bytes)
    (tries : Nat) :
    OnDisk (· = d) (makeUniqueDirectory env path directoryNamePrefix tries)
      (fun made d' => (∃ suffix, made = path ++ [directoryNamePrefix ++ suffix]) ∧
        Adds made .directory d d') (· = d) := by
  induction tries with
  | zero => exact .throw fun _ h => h
  | succ tries ih =>
    refine .bind (M := fun made d' => (∃ suffix, made = path ++ [directoryNamePrefix ++ suffix]) ∧
      d' = d) ?_ fun made => .of_pure fun hmade => ?_
    · intro work processed s hs
      exact ⟨⟨⟨_, rfl⟩, hs.1⟩, hs.2⟩
    refine .get fun s => .ite (fun _ => ih.conseq (fun _ h => h.1) (fun _ _ h => h) fun _ h => h)
      fun _ => ?_
    have hparent : d.Straight made.dropLast := by
      obtain ⟨suffix, rfl⟩ := hmade
      rwa [List.dropLast_concat]
    refine .seq (M := Adds made .directory d)
      ((onDisk_makeDirectory hparent _).conseq (fun _ h => h.1) (fun _ _ h => h) fun _ h => h) ?_
    exact .pure fun d' h => ⟨hmade, h⟩

theorem onDisk_createUniqueDirectory (hd : d.Straight path) (directoryNamePrefix : Bytes) :
    OnDisk (· = d) (createUniqueDirectory env path directoryNamePrefix)
      (fun made d' => (∃ suffix, made = path ++ [directoryNamePrefix ++ suffix]) ∧
        ∃ paved, Paves path d paved ∧ Adds made .directory paved d') (Paves path d) := by
  rw [createUniqueDirectory]
  refine .seq ((onDisk_ensureDirectory hd).conseq (fun _ h => h) (fun _ _ h => h.1) fun _ h => h) ?_
  refine .get fun s => .of_disk fun paved h => ?_
  refine (onDisk_makeUniqueDirectory (hd.keeps h.1.keepsLinks) directoryNamePrefix _).conseq
    (fun _ h => h)
    (fun made d' hmade => ⟨hmade.1, paved, h.1, hmade.2⟩) fun d' hd' => hd' ▸ h.1

/-- What is below a directory that is new goes with it. -/
theorem Adds.lookup_removeAll (h : Adds path .directory d d') (hd'' : ∀ l, ¬path <+: l →
    d''.lookup l = d'.lookup l) : (d''.removeAll path).lookup l = d.lookup l := by
  obtain ⟨hnone, hlookup⟩ := h
  rw [Disk.lookup_removeAll]
  split
  · next hpre => exact (Disk.lookup_eq_none_below hnone hpre).symm
  · next hpre =>
    rw [hd'' l hpre, hlookup, if_neg]
    rintro rfl
    exact hpre (List.prefix_refl _)

theorem Paves.congr (h : Paves place d d') (hlookup : ∀ l, d''.lookup l = d'.lookup l) :
    Paves place d d'' := by
  intro l
  rw [hlookup]
  exact h l

end Directories

/-! ### The copy -/

/-- A disk with one more file, or with a file in the place of what was there. -/
def Holds (d : ConverterDisk) (path : Location) (content : Bytes) (d' : ConverterDisk) : Prop :=
  ∀ l, d'.lookup l = if l = path then some (.file content) else d.lookup l

section Copy

variable {env : ConverterEnv} {path source destination l : Location} {d d' : ConverterDisk}
  {content data : Bytes}

theorem onDisk_openRegularFileNoFollow (hd : d.Straight path.dropLast) :
    OnDisk (· = d) (openRegularFileNoFollow env path)
    (fun content d' => d.lookup path = some (.file content) ∧ d' = d) (· = d) := by
  rw [openRegularFileNoFollow]
  refine .bind (M := fun entry d' => d.lookup path = some entry ∧ d' = d)
    (onDisk_systemCall (fun n e entry d' he hact => ?_) fun _ h => h) fun entry =>
      .of_pure fun hentry => ?_
  · subst he
    rw [Disk.entryAt_of_straight hd] at hact
    split at hact
    · cases hact
    · cases hact
    · next _ hfound =>
      injection hact with hact
      injection hact with hentry hact
      subst hentry hact
      exact ⟨hfound, rfl⟩
  refine .seq (M := (· = d)) (onDisk_systemCall (fun n e _ d' he hact => ?_) fun _ h => h) ?_
  · injection hact with hact
    injection hact with _ hact
    exact hact ▸ he
  split
  · exact .pure fun _ h => ⟨hentry, h⟩
  · exact .throw fun _ h => h

theorem onDisk_isGeneratedOutputRegularFile (hd : d.Straight path.dropLast) :
    OnDisk (· = d) (isGeneratedOutputRegularFile env path)
      (fun isRegular d' => (isRegular = true → ∃ content, d.lookup path = some (.file content)) ∧
        d' = d) fun _ => False := by
  intro work processed
  refine .tryCatch (F := fun _ s => s.disk = d ∧ s.work = work ∧ s.processed = processed)
    ((onDisk_openRegularFileNoFollow hd work processed).bind fun content => .pure fun _ hs => ?_)
    fun _ => .pure fun _ hs => ?_
  · exact ⟨⟨fun _ => ⟨content, hs.1.1⟩, hs.1.2⟩, hs.2⟩
  · exact ⟨⟨fun h => (by cases h), hs.1⟩, hs.2⟩

theorem onDisk_checkCall (describe : Bytes → Bytes) {P : ConverterDisk → Prop} :
    OnDisk P (checkCall env describe) (fun _ => P) P := by
  refine onDisk_systemCall (fun n e _ d' he hact => ?_) fun _ h => h
  injection hact with hact
  injection hact with _ hact
  exact hact ▸ he

/-- The file is there, with some content. -/
def HoldsSome (d : ConverterDisk) (path : Location) (d' : ConverterDisk) : Prop :=
  ∃ content, Holds d path content d'

theorem Holds.some (h : Holds d path content d') : HoldsSome d path d' := ⟨content, h⟩

/-- A file that was moved out of a new directory stays when the directory goes. -/
theorem Holds.removeAll {directory : Location} {d'' : ConverterDisk}
    (h : Holds d' path content d'') (hadds : Adds directory .directory d d')
    (hpath : ¬directory <+: path) : Holds d path content (d''.removeAll directory) := by
  intro l
  by_cases hl : l = path
  · rw [hl, if_pos rfl, Disk.lookup_removeAll, if_neg hpath, h path, if_pos rfl]
  rw [if_neg hl, Disk.lookup_removeAll]
  split
  · next hpre => exact (Disk.lookup_eq_none_below hadds.1 hpre).symm
  · next hpre =>
    rw [h l, if_neg hl, hadds.2, if_neg]
    rintro rfl
    exact hpre (List.prefix_refl _)

theorem Holds.keepsLinks (h : Holds d path content d') : d.KeepsLinks d' := by
  intro l target hlink
  rw [h l] at hlink
  split at hlink
  · cases hlink
  · exact hlink

theorem Holds.lookup_self (h : Holds d path content d') :
    d'.lookup path = Option.some (.file content) := by
  rw [h path, if_pos rfl]

theorem Holds.put {d'' : ConverterDisk} {content' : Bytes} (h : Holds d path content d')
    (hput : d'.put path (.file content') = Option.some d'') : Holds d path content' d'' := by
  intro l
  rw [Disk.lookup_put hput]
  split
  · rfl
  · next hne => rw [h l, if_neg hne]

theorem onDisk_writeSome (hdata : data ≠ []) : OnDisk (Holds d path content)
    (writeSome env path data)
    (fun written d' => (0 < written ∧ written ≤ data.length) ∧
      Holds d path (content ++ data.take written) d') (HoldsSome d path) := by
  refine onDisk_systemCall (fun n e written d' he hact => ?_) fun _ h => h.some
  dsimp only at hact
  rw [he.lookup_self] at hact
  dsimp only at hact
  split at hact
  · next hput =>
    injection hact with hact
    injection hact with hwritten hact
    subst hwritten hact
    have hlength := List.length_pos_iff.mpr hdata
    exact ⟨⟨by omega, by omega⟩, he.put hput⟩
  · cases hact

/-- All the bytes are written, in however many pieces. -/
theorem onDisk_writeAll (rounds : Nat) (hrounds : data.length ≤ rounds) :
    OnDisk (Holds d path content) (writeAll env path rounds data)
      (fun _ => Holds d path (content ++ data)) (HoldsSome d path) := by
  induction rounds generalizing content data with
  | zero =>
    have hnil : data = [] := List.length_eq_zero_iff.mp (Nat.le_zero.mp hrounds)
    subst hnil
    rw [List.append_nil]
    exact .pure fun _ h => h
  | succ rounds ih =>
    rw [writeAll]
    refine .ite (fun hnil => .pure fun _ h => ?_) fun hdata => ?_
    · rw [hnil, List.append_nil]
      exact h
    refine .bind (onDisk_writeSome hdata) fun written => .of_pure fun hwritten => ?_
    have hleft : (data.drop written).length ≤ rounds := by
      rw [List.length_drop]
      omega
    refine (ih hleft).conseq (fun _ h => h) (fun _ _ h => ?_) fun _ h => h
    rwa [List.append_assoc, List.take_append_drop] at h

theorem onDisk_readSome {P : ConverterDisk → Prop} :
    OnDisk P (readSome env data) (fun bytes d' => (∃ n, 0 < n ∧ bytes = data.take n) ∧ P d') P := by
  refine onDisk_systemCall (fun n e bytes d' he hact => ?_) fun _ h => h
  injection hact with hact
  injection hact with hbytes hact
  subst hbytes hact
  exact ⟨⟨_, by omega, rfl⟩, he⟩

/-- The copy has all the bytes, in however many pieces they are read. -/
theorem onDisk_copyBytes (rounds copiedBytes : Nat) (hrounds : data.length < rounds) :
    OnDisk (Holds d path content) (copyBytes env path rounds data copiedBytes)
      (fun copied d' => copied = copiedBytes + data.length ∧ Holds d path (content ++ data) d')
      (HoldsSome d path) := by
  induction rounds generalizing content data copiedBytes with
  | zero => exact absurd hrounds (Nat.not_lt_zero _)
  | succ rounds ih =>
    rw [copyBytes]
    refine .bind (onDisk_readSome.conseq (fun _ h => h) (fun _ _ h => h) fun _ h => h.some)
      fun bytes => .of_pure fun hbytes => ?_
    obtain ⟨n, hn, rfl⟩ := hbytes
    refine .ite (fun hend => .pure fun _ h => ?_) fun hread => ?_
    · have hnil : data = [] := (List.take_eq_nil_iff.mp hend).resolve_left (by omega)
      rw [hnil, List.append_nil]
      exact ⟨rfl, h⟩
    refine .seq (onDisk_writeAll _ (le_refl _)) ?_
    have hlength : (data.take n).length = min n data.length := List.length_take
    have hpos := List.length_pos_iff.mpr hread
    have hleft : (data.drop (data.take n).length).length < rounds := by
      rw [List.length_drop]
      omega
    have hsplit : data.drop (data.take n).length = data.drop n := by
      rw [hlength]
      by_cases hle : n ≤ data.length
      · rw [Nat.min_eq_left hle]
      · rw [Nat.min_eq_right (by omega), List.drop_length, List.drop_eq_nil_of_le (by omega)]
    refine (ih (copiedBytes + (data.take n).length) hleft).conseq (fun _ h => h) (fun copied _ h => ?_)
      fun _ h => h
    obtain ⟨hcopied, h⟩ := h
    rw [hsplit, List.append_assoc, List.take_append_drop] at h
    refine ⟨?_, h⟩
    rw [hcopied, List.length_drop]
    omega

theorem onDisk_createFile (hd : d.Straight path.dropLast) : OnDisk (· = d) (createFile env path)
    (fun location d' => (location = path ∧ d.lookup path = none) ∧ Holds d path [] d') (· = d) := by
  refine onDisk_systemCall (fun n e location d' he hact => ?_) fun _ h => h
  subst he
  split at hact
  · cases hact
  · next place hplace =>
    obtain rfl : path = place := by
      rcases Disk.place_of_straight hd with hsame | ⟨hnone, _⟩
      · exact Option.some.inj (hsame.symm.trans hplace)
      · cases hnone.symm.trans hplace
    split at hact
    · cases hact
    · next hnone =>
      rw [ne_eq, not_not] at hnone
      split at hact
      · next hput =>
        injection hact with hact
        injection hact with hlocation hact
        subst hlocation hact
        exact ⟨⟨rfl, hnone⟩, fun _ => Disk.lookup_put hput⟩
      · cases hact

/-- The file takes the place of what was at the destination, which is no directory. -/
theorem onDisk_renameFile (hsource : d.lookup source = none) (hd : d.Straight source.dropLast)
    (hd' : d.Straight destination.dropLast) :
    OnDisk (Holds d source content) (renameFile env source destination)
      (fun _ d' => ((destination ≠ source → d.lookup destination ≠ some .directory) ∧
        Holds d destination content d')) (HoldsSome d source) := by
  refine onDisk_systemCall (fun n e _ d' he hact => ?_) fun _ h => h.some
  have hlinks := he.keepsLinks
  rw [Disk.entryAt_of_straight (hd.keeps hlinks), Disk.removeAt_of_straight (hd.keeps hlinks),
    he.lookup_self] at hact
  dsimp only at hact
  rw [Disk.putAt_of_straight (hd'.keeps (hlinks.trans Disk.keepsLinks_removeAll))] at hact
  split at hact
  · next moved hput =>
    injection hact with hact
    injection hact with _ hact
    subst hact
    have hplace := (Disk.put_isSome_iff.mp (Option.isSome_of_eq_some hput)).2.2
    rw [Disk.lookup_removeAll] at hplace
    have hlookup : ∀ l, l ≠ destination → moved.lookup l = d.lookup l := by
      intro l hl
      rw [Disk.lookup_put hput, if_neg hl, Disk.lookup_removeAll]
      split
      · next hpre => exact (Disk.lookup_eq_none_below hsource hpre).symm
      · next hpre =>
        rw [he l, if_neg]
        rintro rfl
        exact hpre (List.prefix_refl _)
    refine ⟨fun hne hdirectory => ?_, fun l => ?_⟩
    · have hnot : ¬source <+: destination := by
        intro hpre
        rw [Disk.lookup_eq_none_below hsource hpre] at hdirectory
        cases hdirectory
      rw [if_neg hnot, he destination, if_neg hne] at hplace
      exact hplace hdirectory
    · split
      · next hl => rw [hl, Disk.lookup_put hput, if_pos rfl]
      · next hl => exact hlookup l hl
  · cases hact

/-- What a copy through a validation directory does: the destination holds the bytes of the source,
and only the way to it is new. Where it throws, nothing but the way is. -/
theorem onDisk_copyValidatedOutputToPath (hd : d.Straight source.dropLast)
    (hd' : d.Straight destination.dropLast) : OnDisk (· = d)
    (copyValidatedOutputToPath env source destination)
    (fun _ d' => ∃ content paved, d.lookup source = some (.file content) ∧
      Paves destination.dropLast d paved ∧ Holds paved destination content d')
    (Paves destination.dropLast d) := by
  rw [copyValidatedOutputToPath]
  have hpaves : ∀ e, e = d → Paves destination.dropLast d e := by
    rintro e rfl
    exact .refl
  refine .bind ((onDisk_openRegularFileNoFollow hd).conseq (fun _ h => h) (fun _ _ h => h) hpaves)
    fun content => .of_pure fun hsource => ?_
  refine .seq ((onDisk_checkCall _).conseq (fun _ h => h) (fun _ _ h => h) hpaves) ?_
  refine .seq ((onDisk_ensureDirectory hd').conseq (fun _ h => h) (fun _ _ h => h.1) fun _ h => h) ?_
  refine .of_disk fun way hway => ?_
  refine .bind ((onDisk_createUniqueDirectory (hd'.keeps hway.keepsLinks) _).conseq (fun _ h => h)
    (fun _ _ h => h) fun _ h => hway.trans h) fun validationDirectory => .of_pure fun hname => ?_
  refine .of_disk fun validated hvalidated => ?_
  obtain ⟨paved, hpaved, hadds⟩ := hvalidated
  have hpaved' := hway.trans hpaved
  have hlinks := hpaved'.keepsLinks.trans hadds.keepsLinks
  obtain ⟨suffix, rfl⟩ := hname
  have hinside : validated.Straight (destination.dropLast ++
      [ascii ".inpx-web-reader-converter-output-" ++ suffix]) := by
    refine (hd'.keeps hlinks).concat fun target => ?_
    rw [hadds.2, if_pos rfl]
    exact nofun
  generalize hdirectory : destination.dropLast ++
    [ascii ".inpx-web-reader-converter-output-" ++ suffix] = validationDirectory at hadds hinside ⊢
  have hlength : destination.length ≤ validationDirectory.length := by
    rw [← hdirectory, List.length_append, List.length_dropLast, List.length_singleton]
    omega
  have hbelow : validationDirectory <+: validationDirectory ++ [ascii "validated-output"] :=
    List.prefix_append ..
  -- the directory takes along what was written in it
  have hremove : ∀ e, validated.KeepsLinks e →
      e.removeAt validationDirectory = e.removeAll validationDirectory :=
    fun e he => Disk.removeAt_of_straight (hinside.keeps he).dropLast
  have hgone : ∀ e, validated.KeepsLinks e →
      (∀ l, ¬validationDirectory <+: l → e.lookup l = validated.lookup l) →
      Paves destination.dropLast d (e.removeAt validationDirectory) := by
    intro e hkeeps he
    rw [hremove e hkeeps]
    exact hpaved'.congr fun l => hadds.lookup_removeAll he
  have hsome : ∀ e, HoldsSome validated (validationDirectory ++ [ascii "validated-output"]) e →
      Paves destination.dropLast d (e.removeAt validationDirectory) := by
    rintro e ⟨written, he⟩
    refine hgone e he.keepsLinks fun l hl => ?_
    rw [he l, if_neg]
    rintro rfl
    exact hl hbelow
  refine onDisk_scopedDirectoryCleanup ?_
  have hparent : validated.Straight (validationDirectory ++ [ascii "validated-output"]).dropLast := by
    rwa [List.dropLast_concat]
  refine .bind ((onDisk_createFile hparent).conseq (fun _ h => h) (fun _ _ h => h) fun e he =>
    he ▸ hgone validated .refl fun _ _ => rfl) fun location => .of_pure fun hopened => ?_
  obtain ⟨rfl, hnew⟩ := hopened
  refine .bind ((onDisk_copyBytes _ 0 (Nat.lt_succ_self _)).conseq (fun _ h => h) (fun _ _ h => h)
    hsome) fun copied => .of_pure fun hcopied => ?_
  rw [List.nil_append]
  refine .seq ((onDisk_checkCall _).conseq (fun _ h => h) (fun _ _ h => h) fun e h => hsome e h.some) ?_
  refine .seq ((onDisk_checkCall _).conseq (fun _ h => h) (fun _ _ h => h) fun e h => hsome e h.some) ?_
  rw [require, if_pos (by omega)]
  refine .seq (M := Holds validated (validationDirectory ++ [ascii "validated-output"]) content)
    (.pure fun _ h => h) ?_
  refine .seq ((onDisk_checkCall _).conseq (fun _ h => h) (fun _ _ h => h) fun e h => hsome e h.some) ?_
  refine .seq ((onDisk_checkCall _).conseq (fun _ h => h) (fun _ _ h => h) fun e h => hsome e h.some) ?_
  refine (onDisk_renameFile hnew hparent (hd'.keeps hlinks)).conseq (fun _ h => h)
    (fun _ e he => ?_) hsome
  obtain ⟨hplace, he⟩ := he
  rw [hremove e he.keepsLinks]
  have hfile : destination ≠ validationDirectory ++ [ascii "validated-output"] := by
    intro heq
    have hlengths := congrArg List.length heq
    rw [List.length_append, List.length_singleton] at hlengths
    omega
  have hdestination : ¬validationDirectory <+: destination := by
    intro hpre
    have hsame := hpre.eq_of_length_le hlength
    have hmade := hadds.2 validationDirectory
    rw [if_pos rfl, hsame] at hmade
    exact hplace hfile hmade
  exact ⟨content, paved, hsource, hpaved', he.removeAll hadds hdestination⟩

end Copy

/-! ### Entries of a directory -/

def entriesOf (directoryPath : Location) (d : ConverterDisk) : List Location :=
  (d.listing directoryPath).map fun name => directoryPath ++ [name]

/-- The entries that may be the output: they were not there before. -/
def eligibleOutputs (beforeSnapshot : List Location) (expectedOutputPath directoryPath : Location)
    (d : ConverterDisk) : List Location :=
  (entriesOf directoryPath d).filter (isEligible beforeSnapshot expectedOutputPath)

section Entries

variable {env : ConverterEnv} {directoryPath expectedOutputPath path l : Location}
  {beforeSnapshot paths eligible : List Location} {preservedPath : Option Location}
  {d d' : ConverterDisk}

theorem mem_entriesOf : path ∈ entriesOf directoryPath d ↔
    (∃ name, path = directoryPath ++ [name]) ∧ d.lookup path ≠ none := by
  rw [entriesOf, List.mem_map]
  constructor
  · rintro ⟨name, hname, rfl⟩
    exact ⟨⟨name, rfl⟩, Disk.mem_listing.mp hname⟩
  · rintro ⟨⟨name, rfl⟩, hpath⟩
    exact ⟨name, Disk.mem_listing.mpr hpath, rfl⟩

theorem entriesOf_eq_nil (h : d.lookup directoryPath ≠ some .directory) :
    entriesOf directoryPath d = [] := by
  refine List.eq_nil_iff_forall_not_mem.mpr fun path hpath => ?_
  obtain ⟨⟨name, rfl⟩, hpath⟩ := mem_entriesOf.mp hpath
  exact h (Disk.lookup_parent hpath)

theorem onDisk_snapshotDirectoryEntries (hd : d.Straight directoryPath) :
    OnDisk (· = d) (snapshotDirectoryEntries directoryPath)
    (fun snapshot d' => snapshot = entriesOf directoryPath d ∧ d' = d)
    (fun d' => d.lookup directoryPath ≠ some .directory ∧ d' = d) := by
  rw [snapshotDirectoryEntries]
  refine .get fun s => .of_disk fun e he => ?_
  obtain ⟨rfl, hs⟩ := he
  rw [← hs]
  dsimp only
  rw [Disk.follow_of_straight hd]
  split
  · next hfollow =>
    split at hfollow
    · next hnone =>
      refine .pure fun e' he' => ⟨(entriesOf_eq_nil ?_).symm, he'⟩
      rw [hnone]
      exact nofun
    · cases hfollow
  · next hfollow => split at hfollow <;> cases hfollow
  · next location hfollow =>
    split at hfollow
    · cases hfollow
    · cases hfollow
      exact .ite (fun _ => .pure fun e' he' => ⟨rfl, he'⟩) fun hdirectory =>
        .throw fun e' he' => ⟨hdirectory, he'⟩

/-- The output is the only entry that may be it, and a regular file. -/
theorem onDisk_resolveAmong (hpaths : ∀ path ∈ paths, d.Straight path.dropLast)
    (heligible : ∀ path ∈ eligible, ∃ content, d.lookup path = some (.file content)) :
    OnDisk (· = d) (resolveAmong env beforeSnapshot expectedOutputPath paths eligible)
      (fun produced d' => (∀ path, produced.path = some path →
        eligible ++ paths.filter (isEligible beforeSnapshot expectedOutputPath) = [path] ∧
          ∃ content, d.lookup path = some (.file content)) ∧ d' = d) fun _ => False := by
  induction paths generalizing eligible with
  | nil =>
    rcases eligible with _ | ⟨path, _ | ⟨other, eligible⟩⟩
    · simp only [resolveAmong]
      exact .pure fun e he => ⟨fun path hpath => (by cases hpath), he⟩
    · simp only [resolveAmong]
      refine .pure fun e he => ⟨fun path' hpath => ?_, he⟩
      injection hpath with hpath
      subst hpath
      exact ⟨rfl, heligible path (List.mem_cons_self ..)⟩
    · simp only [resolveAmong]
      exact .pure fun e he => ⟨fun path hpath => (by cases hpath), he⟩
  | cons path paths ih =>
    rw [resolveAmong]
    refine .ite (fun hskip => ?_) fun hkeep => ?_
    · rw [Bool.not_eq_true] at hskip
      refine (ih (List.forall_mem_cons.mp hpaths).2 heligible).conseq (fun _ h => h)
        (fun produced e h => ?_) fun _ h => h
      rwa [List.filter_cons, hskip, if_neg Bool.false_ne_true]
    · rw [not_not] at hkeep
      obtain ⟨hpath, hpaths⟩ := List.forall_mem_cons.mp hpaths
      refine .bind (onDisk_isGeneratedOutputRegularFile hpath) fun isRegular =>
        .of_pure fun hregular => ?_
      refine .ite (fun _ => .pure fun e he => ⟨fun path hpath => (by cases hpath), he⟩) fun hyes => ?_
      have hfile := hregular (not_not.mp hyes)
      refine (ih hpaths fun other hother => ?_).conseq (fun _ h => h) (fun produced e h => ?_)
        fun _ h => h
      · rcases List.mem_append.mp hother with hother | hother
        · exact heligible other hother
        · rw [List.mem_singleton.mp hother]
          exact hfile
      · rw [List.append_assoc, List.singleton_append] at h
        rw [List.filter_cons, hkeep, if_pos rfl]
        exact h

theorem onDisk_resolveSingleProducedFile (hd : d.Straight directoryPath) : OnDisk (· = d)
    (resolveSingleProducedFile env directoryPath beforeSnapshot expectedOutputPath)
    (fun produced d' => (∀ path, produced.path = some path →
      eligibleOutputs beforeSnapshot expectedOutputPath directoryPath d = [path] ∧
        ∃ content, d.lookup path = some (.file content)) ∧ d' = d)
    (fun d' => d.lookup directoryPath ≠ some .directory ∧ d' = d) := by
  rw [resolveSingleProducedFile]
  refine .bind (onDisk_snapshotDirectoryEntries hd) fun snapshot => .of_pure fun hsnapshot => ?_
  subst hsnapshot
  refine (onDisk_resolveAmong (fun path hpath => ?_) fun _ h => absurd h List.not_mem_nil).conseq
    (fun _ h => h) (fun _ _ h => h) fun _ h => h.elim
  obtain ⟨⟨name, rfl⟩, _⟩ := mem_entriesOf.mp hpath
  rwa [List.dropLast_concat]

theorem lookup_foldl_removeAll : (paths.foldl Disk.removeAll d).lookup l =
    if ∃ path ∈ paths, path <+: l then none else d.lookup l := by
  induction paths generalizing d with
  | nil => simp
  | cons path paths ih =>
    rw [List.foldl_cons, ih, Disk.lookup_removeAll]
    by_cases hrest : ∃ path ∈ paths, path <+: l
    · have hany : ∃ other ∈ path :: paths, other <+: l :=
        hrest.imp fun _ h => ⟨List.mem_cons_of_mem _ h.1, h.2⟩
      rw [if_pos hrest, if_pos hany]
    · rw [if_neg hrest]
      simp only [List.mem_cons, exists_eq_or_imp, hrest, or_false]

/-- Paths with no link above them are taken away as locations. -/
theorem foldl_removeAt (hpaths : ∀ path ∈ paths, d.Straight path.dropLast) :
    paths.foldl Disk.removeAt d = paths.foldl Disk.removeAll d := by
  induction paths generalizing d with
  | nil => rfl
  | cons path paths ih =>
    obtain ⟨hpath, hpaths⟩ := List.forall_mem_cons.mp hpaths
    rw [List.foldl_cons, List.foldl_cons, Disk.removeAt_of_straight hpath]
    exact ih fun other hother => (hpaths other hother).keeps Disk.keepsLinks_removeAll

/-- The cleanup takes away the entries that were not there before, but the preserved one. -/
theorem lookup_cleanupProducedEntries (hd : d.Straight directoryPath) :
    (cleanupProducedEntries directoryPath beforeSnapshot preservedPath d).lookup l =
      if ∃ path ∈ entriesOf directoryPath d,
        (path ∉ beforeSnapshot ∧ some path ≠ preservedPath) ∧ path <+: l then none
      else d.lookup l := by
  have hparent : ∀ path ∈ entriesOf directoryPath d, d.Straight path.dropLast := by
    intro path hpath
    obtain ⟨⟨name, rfl⟩, _⟩ := mem_entriesOf.mp hpath
    rwa [List.dropLast_concat]
  rw [cleanupProducedEntries, Disk.listingAt_of_straight hd]
  change Disk.lookup (((entriesOf directoryPath d).filter _).foldl Disk.removeAt d) l = _
  rw [foldl_removeAt fun path hpath => hparent path (List.mem_of_mem_filter hpath),
    lookup_foldl_removeAll]
  refine if_congr ?_ rfl rfl
  simp only [List.mem_filter, decide_eq_true_eq, and_assoc]

theorem keepsLinks_cleanup (hd : d.Straight directoryPath) :
    d.KeepsLinks (cleanupProducedEntries directoryPath beforeSnapshot preservedPath d) := by
  intro l target hlink
  rw [lookup_cleanupProducedEntries hd] at hlink
  split at hlink
  · cases hlink
  · exact hlink

/-- After a cleanup that preserves nothing there is no new entry. -/
theorem mem_of_lookup_cleanup (hd : d.Straight directoryPath)
    (hl : ∃ name, l = directoryPath ++ [name])
    (h : (cleanupProducedEntries directoryPath beforeSnapshot none d).lookup l ≠ none) :
    l ∈ beforeSnapshot ∧ d.lookup l ≠ none := by
  rw [lookup_cleanupProducedEntries hd] at h
  split at h
  · exact absurd rfl h
  · next hnone =>
    refine ⟨?_, h⟩
    by_contra hnew
    exact hnone ⟨l, mem_entriesOf.mpr ⟨hl, h⟩, ⟨hnew, nofun⟩, List.prefix_refl l⟩

/-- What is below entries that were there before, or below the preserved one, stays. -/
theorem lookup_cleanup_of_before (hd : d.Straight directoryPath)
    (h : ∀ path, (∃ name, path = directoryPath ++ [name]) → path <+: l →
      path ∈ beforeSnapshot ∨ some path = preservedPath) :
    (cleanupProducedEntries directoryPath beforeSnapshot preservedPath d).lookup l =
      d.lookup l := by
  rw [lookup_cleanupProducedEntries hd, if_neg]
  rintro ⟨path, hpath, ⟨hnew, hother⟩, hpre⟩
  rcases h path (mem_entriesOf.mp hpath).1 hpre with hbefore | hpreserved
  · exact hnew hbefore
  · exact hother hpreserved

theorem removeEntry_of_straight (hd : d.Straight path.dropLast) :
    removeEntry path d =
      if d.lookup path = some .directory ∧ d.listing path ≠ [] then d else d.removeAll path := by
  rw [removeEntry]
  rcases Disk.place_of_straight hd with hplace | ⟨hplace, _, hnone⟩
  · rw [hplace]
  · have hpath := Disk.lookup_eq_none_below hnone (List.dropLast_prefix path)
    rw [hplace, hpath, if_neg (fun h => by cases h.1), ← Disk.removeAt_of_straight hd]
    rw [Disk.removeAt, hplace]

/-- An entry goes; what is anywhere else stays. -/
theorem lookup_removeEntry (hd : d.Straight path.dropLast) (hl : l ≠ path) :
    (removeEntry path d).lookup l = d.lookup l := by
  rw [removeEntry_of_straight hd]
  split
  · rfl
  · next hempty =>
    rw [Disk.lookup_removeAll]
    split
    · next hpre =>
      -- what is below is below an empty directory, or below no directory at all
      by_contra hnone
      have hbelow : d.lookup l ≠ none := fun h => hnone h.symm
      refine hempty ⟨Disk.lookup_above hbelow hpre (Ne.symm hl), fun hlisting => ?_⟩
      obtain ⟨rest, rfl⟩ := hpre
      obtain ⟨name, rest, rfl⟩ := List.exists_cons_of_ne_nil
        (fun hnil : rest = [] => hl (by rw [hnil, List.append_nil]))
      have hentry : d.lookup (path ++ [name]) ≠ none := by
        intro hentry
        refine hbelow (Disk.lookup_eq_none_below hentry ⟨rest, ?_⟩)
        rw [List.append_assoc, List.singleton_append]
      rw [← Disk.mem_listing, hlisting] at hentry
      exact List.not_mem_nil hentry
    · rfl

theorem lookup_removeEntry_self (hd : d.Straight path.dropLast) (content : Bytes) :
    (removeEntry path d).lookup path ≠ some (.file content) := by
  rw [removeEntry_of_straight hd]
  split
  · next hdirectory =>
    rw [hdirectory.1]
    exact nofun
  · rw [Disk.lookup_removeAll, if_pos (List.prefix_refl _)]
    exact nofun

theorem keepsLinks_removeEntry (hd : d.Straight path.dropLast) :
    d.KeepsLinks (removeEntry path d) := by
  rw [removeEntry_of_straight hd]
  split
  · exact .refl
  · exact Disk.keepsLinks_removeAll

end Entries

/-! ### After the process -/

/-- The bytes that the process has produced: those of the file at the expected path, or, where it
writes a single file, of the only entry that may be the output. -/
def Produced (outputMode : OutputMode) (beforeSnapshot : List Location)
    (expectedOutputPath directoryPath : Location) (left : ConverterDisk) (content : Bytes) : Prop :=
  match outputMode with
  | .exactDestinationPath => left.lookup expectedOutputPath = some (.file content)
  | .singleFileInDestinationDirectory =>
    ∃ path, eligibleOutputs beforeSnapshot expectedOutputPath directoryPath left = [path] ∧
      left.lookup path = some (.file content)

/-- How a conversion ends from the disk that the process has left. -/
structure Concludes (command : ResolvedCommand) (outputSnapshot : List Location)
    (left : ConverterDisk) (succeeded : Prop) (d : ConverterDisk) : Prop where
  published : succeeded → ∃ content paved published,
    Produced command.outputMode outputSnapshot command.expectedOutputPath
      command.expectedOutputDirectory left content ∧
    Paves command.expectedOutputPath.dropLast left paved ∧
    Holds paved command.expectedOutputPath content published ∧
    d = cleanupProducedEntries command.expectedOutputDirectory outputSnapshot
      (some command.expectedOutputPath) published
  cleaned : ¬succeeded → ∃ paved, Paves command.expectedOutputPath.dropLast left paved ∧
    d = cleanupProducedEntries command.expectedOutputDirectory outputSnapshot none paved

section Conclusion

variable {env : ConverterEnv} {command : ResolvedCommand} {outputSnapshot : List Location}
  {left d : ConverterDisk}

/-- A throw after the process means that the output directory is none. -/
def Unlisted (command : ResolvedCommand) (left : ConverterDisk) (d : ConverterDisk) : Prop :=
  left.lookup command.expectedOutputDirectory ≠ some .directory ∧ d = left

theorem onDisk_cleanUpAndReturn {result : ConversionResult} {E : ConverterDisk → Prop}
    (hresult : result.status ≠ .succeeded)
    (h : Paves command.expectedOutputPath.dropLast left d) :
    OnDisk (· = d) (cleanUpAndReturn command outputSnapshot result)
      (fun result d' => Concludes command outputSnapshot left (result.status = .succeeded) d') E := by
  refine .seq (M := (· = cleanupProducedEntries command.expectedOutputDirectory outputSnapshot
    none d)) (.changeDisk fun e he => by rw [he]) (.pure fun e he => ⟨fun hs => absurd hs hresult,
      fun _ => ⟨d, h, he⟩⟩)

theorem onDisk_succeed {paved : ConverterDisk} {content : Bytes} {E : ConverterDisk → Prop}
    (hproduced : Produced command.outputMode outputSnapshot command.expectedOutputPath
      command.expectedOutputDirectory left content)
    (h : Paves command.expectedOutputPath.dropLast left paved)
    (hholds : Holds paved command.expectedOutputPath content d) :
    OnDisk (· = d) (succeed command outputSnapshot)
      (fun result d' => Concludes command outputSnapshot left (result.status = .succeeded) d') E := by
  refine .seq (M := (· = cleanupProducedEntries command.expectedOutputDirectory outputSnapshot
    (some command.expectedOutputPath) d)) (.changeDisk fun e he => by rw [he]) (.pure fun e he =>
      ⟨fun _ => ⟨content, paved, d, hproduced, h, hholds, he⟩, fun hs => absurd rfl hs⟩)

/-- The move is a copy, after the way to the destination is made. -/
theorem onDisk_moveOrSeal {path expectedOutputPath : Location} (hd : d.Straight path.dropLast)
    (hd' : d.Straight expectedOutputPath.dropLast) : OnDisk (· = d)
    (moveOrSeal env path expectedOutputPath)
    (fun _ d' => ∃ content paved, d.lookup path = some (.file content) ∧
      Paves expectedOutputPath.dropLast d paved ∧ Holds paved expectedOutputPath content d')
    (Paves expectedOutputPath.dropLast d) := by
  refine .ite (fun _ => ?_) fun hsame => ?_
  · refine .seq ((onDisk_ensureDirectory hd').conseq (fun _ h => h) (fun _ _ h => h.1) fun _ h => h) ?_
    refine .of_disk fun way hway => (onDisk_copyValidatedOutputToPath (hd.keeps hway.keepsLinks)
      (hd'.keeps hway.keepsLinks)).conseq (fun _ h => h) (fun _ e he => ?_) fun _ h => hway.trans h
    obtain ⟨content, paved, hsource, hpaved, hholds⟩ := he
    exact ⟨content, paved, hway.file_iff.mp hsource, hway.trans hpaved, hholds⟩
  · rw [ne_eq, not_not] at hsame
    subst hsame
    exact onDisk_copyValidatedOutputToPath hd hd'

section Process

variable (hout : left.Straight command.expectedOutputDirectory)
  (hdestination : left.Straight command.expectedOutputPath.dropLast)
include hout hdestination

theorem onDisk_publishOutput : OnDisk (· = left) (publishOutput env command outputSnapshot)
    (fun result d => Concludes command outputSnapshot left (result.status = .succeeded) d)
    (Unlisted command left) := by
  rw [publishOutput]
  split
  · next hmode =>
    refine .bind (onDisk_resolveSingleProducedFile hout) fun produced => .of_pure fun hproduced => ?_
    split
    · exact onDisk_cleanUpAndReturn (by simp [buildFailedResult]) .refl
    · next path hpath =>
      obtain ⟨honly, -⟩ := hproduced path hpath
      have hparent : left.Straight path.dropLast := by
        have hmem : path ∈ eligibleOutputs outputSnapshot command.expectedOutputPath
            command.expectedOutputDirectory left := honly ▸ List.mem_singleton_self path
        obtain ⟨⟨name, rfl⟩, _⟩ := mem_entriesOf.mp (List.mem_of_mem_filter hmem)
        rwa [List.dropLast_concat]
      refine .bind ((onDisk_attempt (onDisk_moveOrSeal hparent hdestination)).conseq
        (fun _ h => h) (fun _ _ h => h) fun _ h => h.elim) fun text => .of_disk fun e he => ?_
      split
      · exact onDisk_cleanUpAndReturn (by simp [buildFailedResult]) (by simpa using he)
      · obtain ⟨content, paved, hsource, hpaved, hholds⟩ := he
        refine onDisk_succeed ?_ hpaved hholds
        rw [hmode]
        exact ⟨path, honly, hsource⟩
  · next hmode =>
    refine .bind ((onDisk_attempt (onDisk_copyValidatedOutputToPath hdestination
      hdestination)).conseq (fun _ h => h) (fun _ _ h => h) fun _ h => h.elim) fun text =>
        .of_disk fun e he => ?_
    split
    · exact onDisk_cleanUpAndReturn (by simp [buildFailedResult]) (by simpa using he)
    · obtain ⟨content, paved, hsource, hpaved, hholds⟩ := he
      refine onDisk_succeed ?_ hpaved hholds
      rw [hmode]
      exact hsource

/-- However the process ends, success is publication and everything else is cleaned up. -/
theorem onDisk_concludeProcess (processResult : ProcessResult) :
    OnDisk (· = left) (concludeProcess env command outputSnapshot processResult)
      (fun result d => Concludes command outputSnapshot left (result.status = .succeeded) d)
      (Unlisted command left) := by
  rw [concludeProcess]
  refine .ite (fun _ => onDisk_cleanUpAndReturn (by simp [buildCancelledResult]) .refl) fun _ => ?_
  refine .ite (fun _ => onDisk_cleanUpAndReturn (by simp [buildTimedOutResult]) .refl) fun _ => ?_
  refine .ite (fun _ => onDisk_cleanUpAndReturn (by simp [buildFailedResult]) .refl) fun _ => ?_
  exact onDisk_publishOutput hout hdestination

end Process

theorem Concludes.keepsLinks {succeeded : Prop}
    (h : Concludes command outputSnapshot left succeeded d)
    (hout : left.Straight command.expectedOutputDirectory) : left.KeepsLinks d := by
  by_cases hs : succeeded
  · obtain ⟨content, paved, published, -, hpaved, hholds, rfl⟩ := h.published hs
    have hlinks := hpaved.keepsLinks.trans hholds.keepsLinks
    exact hlinks.trans (keepsLinks_cleanup (hout.keeps hlinks))
  · obtain ⟨paved, hpaved, rfl⟩ := h.cleaned hs
    exact hpaved.keepsLinks.trans (keepsLinks_cleanup (hout.keeps hpaved.keepsLinks))

end Conclusion

/-! ### The conversion in its working directory -/

/-- Directories are made on the way to a place, and what is at one other place may go. -/
structure PavesBut (but place : Location) (d d' : ConverterDisk) : Prop where
  elsewhere : ∀ l, l ≠ but → d'.lookup l = d.lookup l ∨
    (d.lookup l = none ∧ d'.lookup l = some .directory ∧ l <+: place)
  there : ¬but <+: place → d'.lookup but ≠ none → d.lookup but ≠ none

/-- No link is at or above the directories that a process is given, or above the one it runs in. -/
structure LinkFree (processRequest : ProcessRequest) (d : ConverterDisk) : Prop where
  outputDirectory : d.Straight processRequest.command.expectedOutputDirectory
  destinationDirectory : d.Straight processRequest.command.expectedOutputPath.dropLast
  aboveWorkingDirectory : d.Straight processRequest.workingDirectory.dropLast

/-- What a conversion has come to in its working directory, from the disk it started on. -/
structure ConvertedIn (settings : ConverterSettings) (request : ConversionRequest)
    (workingDirectory : Option Location) (d : ConverterDisk) (succeeded : Prop)
    (s : ConverterState) : Prop where
  work : s.work = workingDirectory
  straight : s.disk.Straight (workingDirectory.getD request.destinationDirectory).dropLast
  unprocessed : s.processed = none → ¬succeeded ∧ PavesBut request.destinationPath
    (commandOutputDirectory settings request workingDirectory) d s.disk
  prepared : ∀ given left, s.processed = some (given, left) → PavesBut request.destinationPath
      (commandOutputDirectory settings request workingDirectory) d given ∧
    ∀ content, given.lookup request.destinationPath ≠ some (.file content)
  concluded : ∀ given left, s.processed = some (given, left) → ∃ command outputSnapshot,
    command.outputMode = settings.commandProfile.outputMode ∧
    command.expectedOutputPath = request.destinationPath ∧
    command.expectedOutputDirectory = commandOutputDirectory settings request workingDirectory ∧
    left.Straight command.expectedOutputDirectory ∧
    (∀ path, path ∈ outputSnapshot ↔ path ∈ entriesOf
      (commandOutputDirectory settings request workingDirectory) given) ∧
    (Concludes command outputSnapshot left succeeded s.disk ∨
      ¬succeeded ∧ Unlisted command left s.disk)

section Convert

variable {env : ConverterEnv} {settings : ConverterSettings} {request : ConversionRequest}
  {workingDirectory : Option Location} {d d' : ConverterDisk} {place spared : Location}

theorem Paves.but (h : Paves place d d') : PavesBut spared place d d' where
  elsewhere l _ := h l
  there hnot hthere := by rwa [h.lookup_off_way hnot] at hthere

theorem PavesBut.congr {e : ConverterDisk} (h : PavesBut spared place d d')
    (he : ∀ l, e.lookup l = d'.lookup l) : PavesBut spared place d e where
  elsewhere l hl := by
    rw [he l]
    exact h.elsewhere l hl
  there hnot hthere := by
    rw [he] at hthere
    exact h.there hnot hthere

theorem PavesBut.removeEntry (hspared : d'.Straight spared.dropLast) (h : Paves place d d') :
    PavesBut spared place d (Converter.removeEntry spared d') := by
  refine ⟨fun l hl => ?_, fun hnot hthere => ?_⟩
  · rw [lookup_removeEntry hspared hl]
    exact h l
  · rw [← h.lookup_off_way hnot]
    rw [removeEntry_of_straight hspared] at hthere
    split at hthere
    · exact hthere
    · rw [Disk.lookup_removeAll, if_pos (List.prefix_refl _)] at hthere
      exact absurd rfl hthere

/-- Where a directory is, the way to it is made. -/
theorem Paves.lookup_eq (h : Paves place d d') (hplace : d.lookup place = some .directory)
    (l : Location) : d'.lookup l = d.lookup l := by
  refine (h l).resolve_right fun hnew => ?_
  obtain ⟨hnone, -, hpre⟩ := hnew
  rw [Disk.lookup_eq_none_below hnone hpre] at hplace
  cases hplace

theorem resolveCommand_spec {outputDirectory : Location}
    {executableIdentity : Option ExecutableIdentity} {command : ResolvedCommand}
    (h : resolveCommand settings request outputDirectory executableIdentity = .ok command) :
    command.outputMode = settings.commandProfile.outputMode ∧
      command.expectedOutputPath = request.destinationPath ∧
      command.expectedOutputDirectory = outputDirectory := by
  obtain ⟨built, hbuilt, h⟩ := except_bind_eq_ok h
  have hfields : built.outputMode = settings.commandProfile.outputMode ∧
      built.expectedOutputPath = request.destinationPath ∧
      built.expectedOutputDirectory = outputDirectory := by
    rw [buildCommand] at hbuilt
    split at hbuilt
    · cases hbuilt
    · split at hbuilt
      · cases hbuilt
      · injection hbuilt with hbuilt
        subst hbuilt
        exact ⟨rfl, rfl, rfl⟩
  injection h with h
  subst h
  cases executableIdentity with
  | none => exact hfields
  | some identity => exact hfields

theorem ConvertedIn.of_unprocessed {s : ConverterState} {succeeded : Prop}
    (hwork : s.work = workingDirectory) (hprocessed : s.processed = none) (hs : ¬succeeded)
    (hstraight : s.disk.Straight (workingDirectory.getD request.destinationDirectory).dropLast)
    (h : PavesBut request.destinationPath
      (commandOutputDirectory settings request workingDirectory) d s.disk) :
    ConvertedIn settings request workingDirectory d succeeded s where
  work := hwork
  straight := hstraight
  unprocessed _ := ⟨hs, h⟩
  prepared given left hsome := by
    rw [hprocessed] at hsome
    cases hsome
  concluded given left hsome := by
    rw [hprocessed] at hsome
    cases hsome

theorem ConvertedIn.of_processed {s : ConverterState} {succeeded : Prop}
    {command : ResolvedCommand} {snapshot : List Location} {given left : ConverterDisk}
    (hwork : s.work = workingDirectory) (hprocessed : s.processed = some (given, left))
    (hstraight : left.Straight (workingDirectory.getD request.destinationDirectory).dropLast)
    (hgiven : PavesBut request.destinationPath
      (commandOutputDirectory settings request workingDirectory) d given)
    (hgone : ∀ content, given.lookup request.destinationPath ≠ some (.file content))
    (hmode : command.outputMode = settings.commandProfile.outputMode)
    (hpath : command.expectedOutputPath = request.destinationPath)
    (houtput : command.expectedOutputDirectory =
      commandOutputDirectory settings request workingDirectory)
    (hout : left.Straight command.expectedOutputDirectory)
    (hsnapshot : ∀ path, path ∈ snapshot ↔
      path ∈ entriesOf (commandOutputDirectory settings request workingDirectory) given)
    (hend : Concludes command snapshot left succeeded s.disk ∨
      ¬succeeded ∧ Unlisted command left s.disk) :
    ConvertedIn settings request workingDirectory d succeeded s where
  work := hwork
  straight := by
    rcases hend with hconcludes | ⟨-, -, hdisk⟩
    · exact hstraight.keeps (hconcludes.keepsLinks hout)
    · exact hdisk ▸ hstraight
  unprocessed hnone := by
    rw [hprocessed] at hnone
    cases hnone
  prepared given' left' hsome := by
    obtain ⟨rfl, rfl⟩ : given = given' ∧ left = left' := by
      simpa only [hprocessed, Option.some.injEq, Prod.mk.injEq] using hsome
    exact ⟨hgiven, hgone⟩
  concluded given' left' hsome := by
    obtain ⟨rfl, rfl⟩ : given = given' ∧ left = left' := by
      simpa only [hprocessed, Option.some.injEq, Prod.mk.injEq] using hsome
    exact ⟨command, snapshot, hmode, hpath, houtput, hout, hsnapshot, hend⟩

/-- The conversion in its working directory, which is there or is the output directory. -/
theorem convertIn_spec (hprocess : ∀ processRequest given, LinkFree processRequest given →
      LinkFree processRequest (env.run processRequest given).2)
    (hout : d.Straight (commandOutputDirectory settings request workingDirectory))
    (hdestination : d.Straight request.destinationDirectory)
    (hway : d.Straight (workingDirectory.getD request.destinationDirectory))
    (hwork : d.lookup (workingDirectory.getD request.destinationDirectory) =
      some .directory ∨ workingDirectory.getD request.destinationDirectory =
        commandOutputDirectory settings request workingDirectory)
    (hdirectory : workingDirectory.getD request.destinationDirectory ≠ request.destinationPath) :
    Triple (fun s => s.disk = d ∧ s.work = workingDirectory ∧ s.processed = none)
      (convertIn env settings request workingDirectory)
      (fun result s => ConvertedIn settings request workingDirectory d
        (result.status = .succeeded) s)
      (fun _ s => ConvertedIn settings request workingDirectory d False s) := by
  rw [convertIn]
  refine .bind (M := fun _ s => s.disk = d ∧ s.work = workingDirectory ∧ s.processed = none)
    (.get fun _ h => h) fun s₀ => ?_
  split
  · refine .pure fun s hs => ?_
    obtain ⟨rfl, hw, hp⟩ := hs
    exact .of_unprocessed hw hp (by simp [buildFailedResult]) hway.dropLast Paves.refl.but
  next identity _ =>
  refine .bind (M := fun command s => resolveCommand settings request
      (commandOutputDirectory settings request workingDirectory) identity = .ok command ∧
    s.disk = d ∧ s.work = workingDirectory ∧ s.processed = none)
    (.ofExcept (fun command s hcommand hs => ⟨hcommand, hs⟩) fun e s _ hs => ?_)
    fun command => .of_pure fun hcommand => ?_
  · obtain ⟨rfl, hw, hp⟩ := hs
    exact .of_unprocessed hw hp not_false hway.dropLast Paves.refl.but
  obtain ⟨hmode, hpath, houtput⟩ := resolveCommand_spec hcommand
  rw [hpath, houtput]
  refine .seq ((onDisk_ensureDirectory hout workingDirectory none).conseq (fun _ h => h)
    (fun _ _ h => h) fun _ s h => .of_unprocessed h.2.1 h.2.2 not_false
      (hway.dropLast.keeps h.1.keepsLinks) h.1.but) ?_
  refine .of_state fun s₁ h₁ => ?_
  obtain ⟨⟨hpaved, hmade⟩, hw, hp⟩ := h₁
  have hspared : s₁.disk.Straight request.destinationPath.dropLast :=
    hdestination.keeps hpaved.keepsLinks
  refine .seq (M := fun s => s.disk = removeEntry request.destinationPath s₁.disk ∧
    s.work = workingDirectory ∧ s.processed = none) (.modify fun s hs => ?_) ?_
  · subst hs
    exact ⟨rfl, hw, hp⟩
  generalize hremoved : removeEntry request.destinationPath s₁.disk = removed
  have hgone : PavesBut request.destinationPath
      (commandOutputDirectory settings request workingDirectory) d removed :=
    hremoved ▸ PavesBut.removeEntry hspared hpaved
  have hlinks : d.KeepsLinks removed :=
    hpaved.keepsLinks.trans (hremoved ▸ keepsLinks_removeEntry hspared)
  refine .bind ((onDisk_snapshotDirectoryEntries (hout.keeps hlinks) workingDirectory none).conseq
    (fun _ h => h) (fun _ _ h => h) fun _ s h => ?_) fun snapshot => ?_
  · obtain ⟨⟨-, hdisk⟩, hw, hp⟩ := h
    exact .of_unprocessed hw hp not_false (hdisk ▸ hway.dropLast.keeps hlinks) (hdisk ▸ hgone)
  refine .pre (R := fun s => snapshot = entriesOf
      (commandOutputDirectory settings request workingDirectory) removed ∧
    s.disk = removed ∧ s.work = workingDirectory ∧ s.processed = none) ?_
      (fun s h => ⟨houtput ▸ h.1.1, h.1.2, h.2⟩)
  refine .of_pure fun hsnapshot => ?_
  -- the working directory of the process is there already
  have hthere : removed.lookup (workingDirectory.getD request.destinationDirectory) =
      some .directory := by
    rw [← hremoved, lookup_removeEntry hspared hdirectory]
    rcases hwork with hwork | hwork
    · rw [hpaved.lookup_of_ne_none (by rw [hwork]; exact nofun)]
      exact hwork
    · rw [hwork]
      exact hmade
  have hsame : ∀ e, Paves (workingDirectory.getD request.destinationDirectory) removed e →
      ∀ l, e.lookup l = removed.lookup l := fun e he => he.lookup_eq hthere
  have hkeeps : ∀ e : ConverterDisk, (∀ l, e.lookup l = removed.lookup l) → d.KeepsLinks e :=
    fun e he => hlinks.trans fun l target hlink => he l ▸ hlink
  refine .seq (M := fun s => (∀ l, s.disk.lookup l = removed.lookup l) ∧
      s.work = workingDirectory ∧ s.processed = none)
    ((onDisk_ensureDirectory (hway.keeps hlinks) workingDirectory none).conseq (fun _ h => h)
      (fun _ s h => ⟨hsame s.disk h.1.1, h.2⟩) fun _ s h =>
      .of_unprocessed h.2.1 h.2.2 not_false
        (hway.dropLast.keeps (hkeeps s.disk (hsame s.disk h.1)))
        (hgone.congr (hsame s.disk h.1))) ?_
  refine .of_state fun s₂ h₂ => ?_
  obtain ⟨hlookup, hw, hp⟩ := h₂
  generalize hrequest : ({ command := command
                           workingDirectory := workingDirectory.getD request.destinationDirectory
                           expectedExecutableIdentity := identity } : ProcessRequest) = processRequest
  have hleft : LinkFree processRequest (env.run processRequest s₂.disk).2 := by
    have hlinks₂ := hkeeps s₂.disk hlookup
    refine hprocess processRequest s₂.disk ?_
    rw [← hrequest]
    exact ⟨houtput ▸ hout.keeps hlinks₂, hpath ▸ hdestination.keeps hlinks₂,
      hway.dropLast.keeps hlinks₂⟩
  refine .bind (M := fun _ s => s.disk = (env.run processRequest s₂.disk).2 ∧
    s.work = workingDirectory ∧ s.processed = some (s₂.disk, (env.run processRequest s₂.disk).2))
    (fun s hs => ?_) fun processResult => ?_
  · subst hs
    exact ⟨rfl, hw, rfl⟩
  generalize (env.run processRequest s₂.disk).2 = left at hleft
  rw [← hrequest] at hleft
  obtain ⟨hleftOut, hleftDestination, hleftWay⟩ := hleft
  have hfile : ∀ content, s₂.disk.lookup request.destinationPath ≠ some (.file content) := by
    intro content
    rw [hlookup, ← hremoved]
    exact lookup_removeEntry_self hspared content
  have hlisted : ∀ path, path ∈ snapshot ↔ path ∈ entriesOf
      (commandOutputDirectory settings request workingDirectory) s₂.disk := by
    intro path
    rw [hsnapshot, mem_entriesOf, mem_entriesOf, hlookup]
  refine (onDisk_concludeProcess hleftOut hleftDestination processResult workingDirectory
    (some (s₂.disk, left))).conseq
    (fun _ h => h) (fun result s h => ?_) fun _ s h => ?_
  · exact .of_processed h.2.1 h.2.2 hleftWay (hgone.congr hlookup) hfile hmode hpath houtput
      hleftOut hlisted (.inl h.1)
  · exact .of_processed h.2.1 h.2.2 hleftWay (hgone.congr hlookup) hfile hmode hpath houtput
      hleftOut hlisted (.inr ⟨not_false, h.1⟩)

theorem eligibleOutputs_congr {before before' : List Location} {expected out : Location}
    (h : ∀ path, path ∈ before ↔ path ∈ before') :
    eligibleOutputs before expected out d = eligibleOutputs before' expected out d := by
  rw [eligibleOutputs, eligibleOutputs]
  refine List.filter_congr fun path _ => ?_
  simp only [isEligible, h]

theorem Produced.congr {outputMode : OutputMode} {before before' : List Location}
    {expected out : Location} {content : Bytes} (h : ∀ path, path ∈ before ↔ path ∈ before')
    (hproduced : Produced outputMode before expected out d content) :
    Produced outputMode before' expected out d content := by
  cases outputMode with
  | exactDestinationPath => exact hproduced
  | singleFileInDestinationDirectory =>
    obtain ⟨path, honly, hfile⟩ := hproduced
    exact ⟨path, (eligibleOutputs_congr h).symm.trans honly, hfile⟩

section Converted

variable {succeeded : Prop} {s : ConverterState}
  (h : ConvertedIn settings request workingDirectory d succeeded s)
include h

/-- A success has published what the process has produced. -/
theorem ConvertedIn.published (hchild : ∀ name,
      commandOutputDirectory settings request workingDirectory ++ [name] <+:
        request.destinationPath →
      commandOutputDirectory settings request workingDirectory ++ [name] = request.destinationPath)
    (hs : succeeded) : ∃ given left content, s.processed = some (given, left) ∧
      Produced settings.commandProfile.outputMode (entriesOf
        (commandOutputDirectory settings request workingDirectory) given) request.destinationPath
        (commandOutputDirectory settings request workingDirectory) left content ∧
      (∀ old, given.lookup request.destinationPath ≠ some (.file old)) ∧
      s.disk.lookup request.destinationPath = some (.file content) := by
  cases hprocessed : s.processed with
  | none => exact absurd hs (h.unprocessed hprocessed).1
  | some processed =>
    obtain ⟨given, left⟩ := processed
    obtain ⟨command, snapshot, hmode, hpath, houtput, hstraight, hsnapshot, hend⟩ :=
      h.concluded given left hprocessed
    have hconcludes := hend.resolve_right fun hnot => hnot.1 hs
    obtain ⟨content, paved, published, hproduced, hpaved, hholds, hdisk⟩ := hconcludes.published hs
    have hpublished := hstraight.keeps (hpaved.keepsLinks.trans hholds.keepsLinks)
    rw [hmode, hpath, houtput] at hproduced
    rw [hpath] at hholds
    rw [houtput] at hpublished
    refine ⟨given, left, content, rfl, hproduced.congr hsnapshot, (h.prepared given left hprocessed).2,
      ?_⟩
    rw [hdisk, hpath, houtput, lookup_cleanup_of_before hpublished, hholds.lookup_self]
    rintro path ⟨name, rfl⟩ hpre
    exact .inr (congrArg some (hchild name hpre))

/-- Without a success no entry of the output directory is new. -/
theorem ConvertedIn.cleaned (hs : ¬succeeded) (name : Bytes)
    (hthere : s.disk.lookup (commandOutputDirectory settings request workingDirectory ++ [name]) ≠
      none) : d.lookup (commandOutputDirectory settings request workingDirectory ++ [name]) ≠ none := by
  have hlonger : ¬commandOutputDirectory settings request workingDirectory ++ [name] <+:
      commandOutputDirectory settings request workingDirectory := by
    intro hpre
    have hlength := hpre.length_le
    rw [List.length_append, List.length_singleton] at hlength
    omega
  have hbefore : ∀ e, PavesBut request.destinationPath
      (commandOutputDirectory settings request workingDirectory) d e →
      e.lookup (commandOutputDirectory settings request workingDirectory ++ [name]) ≠ none →
      d.lookup (commandOutputDirectory settings request workingDirectory ++ [name]) ≠ none := by
    intro e he hthere
    by_cases hdestination : commandOutputDirectory settings request workingDirectory ++ [name] =
        request.destinationPath
    · rw [hdestination] at hlonger hthere ⊢
      exact he.there hlonger hthere
    · rwa [(he.elsewhere _ hdestination).resolve_right fun hnew => hlonger hnew.2.2] at hthere
  cases hprocessed : s.processed with
  | none => exact hbefore s.disk (h.unprocessed hprocessed).2 hthere
  | some processed =>
    obtain ⟨given, left⟩ := processed
    obtain ⟨command, snapshot, -, hpath, houtput, hstraight, hsnapshot, hend⟩ :=
      h.concluded given left hprocessed
    rcases hend with hconcludes | ⟨-, hlisted, hdisk⟩
    · obtain ⟨paved, hpaved, hdisk⟩ := hconcludes.cleaned hs
      have hpaved := hstraight.keeps hpaved.keepsLinks
      rw [houtput] at hpaved
      rw [hdisk, houtput] at hthere
      have hmem := (mem_of_lookup_cleanup hpaved ⟨name, rfl⟩ hthere).1
      rw [hsnapshot, mem_entriesOf] at hmem
      exact hbefore given (h.prepared given left hprocessed).1 hmem.2
    · rw [hdisk] at hthere
      rw [houtput] at hlisted
      exact absurd (Disk.lookup_parent hthere) hlisted

/-- What was there before stays as the process leaves it. -/
theorem ConvertedIn.kept {l : Location} (hl : l ≠ request.destinationPath)
    (hthere : d.lookup l ≠ none) : (s.processed = none → s.disk.lookup l = d.lookup l) ∧
      ∀ given left entry, s.processed = some (given, left) → left.lookup l = some entry →
        s.disk.lookup l = some entry := by
  refine ⟨fun hnone => ?_, fun given left entry hprocessed hentry => ?_⟩
  · exact ((h.unprocessed hnone).2.elsewhere l hl).resolve_right fun hnew => hthere hnew.1
  · obtain ⟨command, snapshot, -, hpath, houtput, hstraight, hsnapshot, hend⟩ :=
      h.concluded given left hprocessed
    rw [houtput] at hstraight
    have hgiven : given.lookup l ≠ none := by
      rw [((h.prepared given left hprocessed).1.elsewhere l hl).resolve_right
        fun hnew => hthere hnew.1]
      exact hthere
    have hsnapshot' : ∀ path, (∃ name, path =
        commandOutputDirectory settings request workingDirectory ++ [name]) → path <+: l →
        path ∈ snapshot := by
      intro path hchild hpre
      rw [hsnapshot, mem_entriesOf]
      refine ⟨hchild, fun hnone => hgiven ?_⟩
      exact Disk.lookup_eq_none_below hnone hpre
    have hpaved : ∀ paved, Paves command.expectedOutputPath.dropLast left paved →
        paved.lookup l = some entry := by
      intro paved hpaved
      rw [hpaved.lookup_of_ne_none (by rw [hentry]; exact nofun)]
      exact hentry
    rcases hend with hconcludes | ⟨-, -, hdisk⟩
    · by_cases hs : succeeded
      · obtain ⟨content, paved, published, -, hway, hholds, hdisk⟩ := hconcludes.published hs
        have hpublished := hstraight.keeps (hway.keepsLinks.trans hholds.keepsLinks)
        rw [hdisk, houtput, lookup_cleanup_of_before hpublished fun path hchild hpre =>
          .inl (hsnapshot' path hchild hpre), hholds l, hpath, if_neg hl]
        exact hpaved paved hway
      · obtain ⟨paved, hway, hdisk⟩ := hconcludes.cleaned hs
        rw [hdisk, houtput, lookup_cleanup_of_before (hstraight.keeps hway.keepsLinks)
          fun path hchild hpre => .inl (hsnapshot' path hchild hpre)]
        exact hpaved paved hway
    · rw [hdisk]
      exact hentry

end Converted

end Convert

/-! ### The conversion -/

/-- The output directory of the command; none where the working directory that it would be in was
not made. -/
def outputDirectory (settings : ConverterSettings) (request : ConversionRequest)
    (work : Option Location) : Option Location :=
  if settings.commandProfile.outputMode = .singleFileInDestinationDirectory ∧
      settings.workingDirectory ≠ none ∧ work = none then none
  else some (commandOutputDirectory settings request work)

/-- Where a configured working directory may be. -/
structure Apart (settings : ConverterSettings) (request : ConversionRequest) (d : ConverterDisk) :
    Prop where
  /-- the entry of the output directory that it lies in, if any, is there -/
  entryThere : settings.commandProfile.outputMode = .exactDestinationPath → ∀ name rest,
    settings.workingDirectory = some (request.destinationDirectory ++ name :: rest) →
      d.lookup (request.destinationDirectory ++ [name]) ≠ none
  /-- the destination is not at or below a directory that a conversion makes in it -/
  notOnTheWay : ∀ directory suffix, settings.workingDirectory = some directory →
    ¬directory ++ [ascii "conversion-" ++ suffix] <+: request.destinationPath

/-- The directories that a conversion is given are named by paths without links, and the process
makes no link on the way to those that it is given. -/
structure Unlinked (env : ConverterEnv) (settings : ConverterSettings) (request : ConversionRequest)
    (before : ConverterDisk) : Prop where
  destination : before.Straight request.destinationDirectory
  working : ∀ directory, settings.workingDirectory = some directory → before.Straight directory
  process : ∀ processRequest given, LinkFree processRequest given →
    LinkFree processRequest (env.run processRequest given).2

/-- What a conversion leaves, from the disk before it. -/
structure Publication (settings : ConverterSettings) (request : ConversionRequest)
    (before : ConverterDisk) (succeeded : Prop) (s : ConverterState) : Prop where
  /-- a success holds the bytes that the process has produced, in a regular file -/
  published : succeeded → ∃ given left content, s.processed = some (given, left) ∧
    Produced settings.commandProfile.outputMode (entriesOf
      (commandOutputDirectory settings request s.work) given) request.destinationPath
      (commandOutputDirectory settings request s.work) left content ∧
    (∀ old, given.lookup request.destinationPath ≠ some (.file old)) ∧
    s.disk.lookup request.destinationPath = some (.file content)
  /-- otherwise the output directory has no entry that it did not have before -/
  cleaned : ¬succeeded → ∀ out, outputDirectory settings request s.work = some out →
    ∀ name, s.disk.lookup (out ++ [name]) ≠ none → before.lookup (out ++ [name]) ≠ none
  /-- everything else that was there stays as the process leaves it -/
  kept : ∀ l, l ≠ request.destinationPath → before.lookup l ≠ none →
    (s.processed = none → s.disk.lookup l = before.lookup l) ∧
      ∀ given left entry, s.processed = some (given, left) → left.lookup l = some entry →
        s.disk.lookup l = some entry

section Result

variable {env : ConverterEnv} {settings : ConverterSettings} {request : ConversionRequest}
  {workingDirectory : Option Location} {before d : ConverterDisk} {succeeded : Prop}
  {s : ConverterState}

/-- The disk on which the conversion starts in its working directory. -/
def Starts (settings : ConverterSettings) (before : ConverterDisk) :
    Option Location → ConverterDisk → Prop
  | none, d => settings.workingDirectory = none ∧ d = before
  | some path, d => ∃ directory suffix paved, settings.workingDirectory = some directory ∧
      path = directory ++ [ascii "conversion-" ++ suffix] ∧ Paves directory before paved ∧
      Adds path .directory paved d

theorem makeWorkingDirectory_spec (hworking : ∀ directory,
      settings.workingDirectory = some directory → before.Straight directory) :
    Triple (fun s => s.disk = before ∧ s.work = none ∧ s.processed = none)
      (makeWorkingDirectory env settings)
      (fun workingDirectory s => Starts settings before workingDirectory s.disk ∧
        s.work = workingDirectory ∧ s.processed = none)
      (fun _ s => (∃ directory, settings.workingDirectory = some directory ∧
        Paves directory before s.disk) ∧ s.work = none ∧ s.processed = none) := by
  rw [makeWorkingDirectory]
  cases hsetting : settings.workingDirectory with
  | none => exact .pure fun s hs => ⟨⟨hsetting, hs.1⟩, hs.2⟩
  | some directory =>
    refine .bind ((onDisk_createUniqueDirectory (hworking directory hsetting) _ none none).conseq
      (fun _ h => h) (fun _ _ h => h) fun _ s hs => ⟨⟨directory, rfl, hs.1⟩, hs.2⟩) fun path => ?_
    refine .seq (M := fun s => Starts settings before (some path) s.disk ∧ s.work = some path ∧
      s.processed = none) (.modify fun s hs => ?_) (.pure fun _ h => h)
    obtain ⟨⟨⟨suffix, hpath⟩, paved, hpaved, hadds⟩, -, hprocessed⟩ := hs
    exact ⟨⟨directory, suffix, paved, hsetting, hpath, hpaved, hadds⟩, rfl, hprocessed⟩

/-- Nothing was run, and what was there is there. -/
theorem Publication.of_unprocessed (hs : ¬succeeded) (hprocessed : s.processed = none)
    (hkept : ∀ l, before.lookup l ≠ none → s.disk.lookup l = before.lookup l)
    (hcleaned : ∀ out, outputDirectory settings request s.work = some out → ∀ name,
      s.disk.lookup (out ++ [name]) ≠ none → before.lookup (out ++ [name]) ≠ none) :
    Publication settings request before succeeded s where
  published hsucceeded := absurd hsucceeded hs
  cleaned _ := hcleaned
  kept l _ hthere := ⟨fun _ => hkept l hthere, fun given left entry hsome => by
    rw [hprocessed] at hsome
    cases hsome⟩

theorem scopedDirectoryCleanup_spec {α : Type} {path : Option Location} {c : ConverterM α}
    {P : ConverterState → Prop} {Q : α → ConverterState → Prop} {E : Bytes → ConverterState → Prop}
    (h : Triple P c
      (fun a s => Q a { s with disk := (path.map s.disk.removeAt).getD s.disk })
      (fun e s => E e { s with disk := (path.map s.disk.removeAt).getD s.disk })) :
    Triple P (scopedDirectoryCleanup path c) Q E := by
  intro s hs
  have hrun := h s hs
  rw [scopedDirectoryCleanup]
  dsimp only
  cases hc : c s with
  | ok a s' =>
    rw [hc] at hrun
    exact hrun
  | error e s' =>
    rw [hc] at hrun
    exact hrun

/-- The directory of the destination has the destination for an entry, and nothing on the way. -/
theorem eq_destinationPath_of_below {name : Bytes}
    (h : request.destinationDirectory ++ [name] <+: request.destinationPath) :
    request.destinationDirectory ++ [name] = request.destinationPath := by
  refine h.eq_of_length_le ?_
  have hpos := List.length_pos_iff.mpr request.hasFilename
  rw [List.length_append, List.length_singleton, ConversionRequest.destinationDirectory,
    List.length_dropLast]
  omega

theorem destinationDirectory_ne : request.destinationDirectory ≠ request.destinationPath := by
  intro heq
  have hlength := congrArg List.length heq
  have hpos := List.length_pos_iff.mpr request.hasFilename
  rw [ConversionRequest.destinationDirectory, List.length_dropLast] at hlength
  omega

theorem commandOutputDirectory_none :
    commandOutputDirectory settings request none = request.destinationDirectory := by
  rw [commandOutputDirectory]
  intro directory _ hnone
  cases hnone

theorem ConvertedIn.publication_of_none (hsetting : settings.workingDirectory = none)
    (h : ConvertedIn settings request none before succeeded s) :
    Publication settings request before succeeded s := by
  refine ⟨fun hs => ?_, fun hs out hdirectory name hthere => ?_, fun l hl hthere => h.kept hl hthere⟩
  · rw [h.work]
    refine h.published (fun name hpre => ?_) hs
    rw [commandOutputDirectory_none] at hpre ⊢
    exact eq_destinationPath_of_below hpre
  · rw [h.work, outputDirectory, if_neg (fun hnot => hnot.2.1 hsetting), Option.some_inj] at hdirectory
    subst hdirectory
    exact h.cleaned hs name hthere

theorem commandOutputDirectory_some (path : Location) :
    path <+: commandOutputDirectory settings request (some path) ∨
      commandOutputDirectory settings request (some path) = request.destinationDirectory ∧
        settings.commandProfile.outputMode = .exactDestinationPath := by
  cases hmode : settings.commandProfile.outputMode with
  | exactDestinationPath =>
    refine .inr ⟨?_, rfl⟩
    simp only [commandOutputDirectory, hmode]
  | singleFileInDestinationDirectory =>
    have hout : commandOutputDirectory settings request (some path) =
        path ++ [ascii "generated-output"] := by
      simp only [commandOutputDirectory, hmode]
    rw [hout]
    exact .inl (List.prefix_append ..)

/-- With a working directory, which goes at the end. -/
theorem ConvertedIn.publication_of_some {path : Location} (hapart : Apart settings request before)
    (hstarts : Starts settings before (some path) d)
    (h : ConvertedIn settings request (some path) d succeeded s) :
    Publication settings request before succeeded { s with disk := s.disk.removeAt path } := by
  obtain ⟨directory, suffix, paved, hsetting, hpath, hpaved, hadds⟩ := hstarts
  have hstraight : s.disk.Straight path.dropLast := h.straight
  rw [Disk.removeAt_of_straight hstraight]
  have hdestination : ¬path <+: request.destinationPath := by
    rw [hpath]
    exact hapart.notOnTheWay directory suffix hsetting
  have hbefore : ∀ l, before.lookup l ≠ none → ¬path <+: l ∧ d.lookup l = before.lookup l := by
    intro l hthere
    have hnot : ¬path <+: l := by
      intro hpre
      exact hthere (Disk.lookup_eq_none_below (hpaved.eq_none hadds.1) hpre)
    refine ⟨hnot, ?_⟩
    rw [hadds.2, if_neg, hpaved.lookup_of_ne_none hthere]
    rintro rfl
    exact hnot (List.prefix_refl _)
  have hcleanup : ∀ l, ¬path <+: l → (s.disk.removeAll path).lookup l = s.disk.lookup l := by
    intro l hl
    rw [Disk.lookup_removeAll, if_neg hl]
  refine ⟨fun hs => ?_, fun hs out hout name hthere => ?_, fun l hl hthere => ?_⟩
  · have hchild : ∀ name, commandOutputDirectory settings request (some path) ++ [name] <+:
        request.destinationPath →
        commandOutputDirectory settings request (some path) ++ [name] = request.destinationPath := by
      intro name hpre
      rcases commandOutputDirectory_some path with hout | ⟨hout, -⟩
      · exact absurd ((hout.trans (List.prefix_append _ _)).trans hpre) hdestination
      · rw [hout] at hpre ⊢
        exact eq_destinationPath_of_below hpre
    obtain ⟨given, left, content, hprocessed, hproduced, hold, hfile⟩ := h.published hchild hs
    refine ⟨given, left, content, hprocessed, ?_, hold, ?_⟩
    · rw [h.work]
      exact hproduced
    · rw [hcleanup _ hdestination]
      exact hfile
  · dsimp only at hout hthere
    have hnot : ¬path <+: out ++ [name] := by
      intro hpre
      rw [Disk.lookup_removeAll, if_pos hpre] at hthere
      exact hthere rfl
    rw [hcleanup _ hnot] at hthere
    rw [h.work, outputDirectory, if_neg (fun hno => (by cases hno.2.2)), Option.some_inj] at hout
    have hd : d.lookup (out ++ [name]) ≠ none := by
      subst hout
      exact h.cleaned hs name hthere
    rcases commandOutputDirectory_some path with hbelow | ⟨hexact, hmode⟩
    · rw [hout] at hbelow
      exact absurd (hbelow.trans (List.prefix_append _ _)) hnot
    · rw [hout] at hexact
      subst hexact
      have hne : request.destinationDirectory ++ [name] ≠ path := by
        rintro rfl
        exact hnot (List.prefix_refl _)
      rw [hadds.2, if_neg hne] at hd
      rcases hpaved (request.destinationDirectory ++ [name]) with hsame | ⟨hnone, -, rest, hrest⟩
      · rwa [hsame] at hd
      · rw [List.append_assoc, List.singleton_append] at hrest
        exact absurd hnone (hapart.entryThere hmode name rest (hrest ▸ hsetting))
  · obtain ⟨hnot, hsame⟩ := hbefore l hthere
    obtain ⟨hnone, hsome⟩ := h.kept hl (hsame ▸ hthere)
    refine ⟨fun hprocessed => ?_, fun given left entry hprocessed hentry => ?_⟩
    · dsimp only
      rw [hcleanup l hnot, hnone hprocessed, hsame]
    · dsimp only
      rw [hcleanup l hnot]
      exact hsome given left entry hprocessed hentry

/-- The working directory of a conversion is reached without links, and so is what is in it. -/
theorem Starts.straight {path : Location} (h : Starts settings before (some path) d)
    (hunlinked : Unlinked env settings request before) : d.Straight path ∧
      d.Straight request.destinationDirectory ∧
      d.Straight (commandOutputDirectory settings request (some path)) := by
  obtain ⟨directory, suffix, paved, hsetting, rfl, hpaved, hadds⟩ := h
  have hlinks := hpaved.keepsLinks.trans hadds.keepsLinks
  have hpath : d.Straight (directory ++ [ascii "conversion-" ++ suffix]) := by
    refine ((hunlinked.working directory hsetting).keeps hlinks).concat fun target => ?_
    rw [hadds.2, if_pos rfl]
    exact nofun
  have hdestination := hunlinked.destination.keeps hlinks
  refine ⟨hpath, hdestination, ?_⟩
  cases hmode : settings.commandProfile.outputMode with
  | exactDestinationPath =>
    simp only [commandOutputDirectory, hmode]
    exact hdestination
  | singleFileInDestinationDirectory =>
    simp only [commandOutputDirectory, hmode]
    -- the output directory is made in the new working directory, where there is nothing yet
    refine hpath.concat fun target => ?_
    have hnone := Disk.lookup_eq_none_below hadds.1 (List.prefix_append _ [ascii "generated-output"])
    rw [hadds.2, if_neg (List.append_right_eq_self.not.mpr (List.cons_ne_nil _ _)), hnone]
    exact nofun

theorem convert_spec (hapart : Apart settings request before)
    (hunlinked : Unlinked env settings request before) :
    Triple (fun s => s.disk = before ∧ s.work = none ∧ s.processed = none)
      (convert env settings request)
      (fun result s => Publication settings request before (result.status = .succeeded) s)
      (fun _ s => Publication settings request before False s) := by
  rw [convert]
  refine .ite (fun _ => .pure fun s hs => ?_) fun _ => ?_
  · obtain ⟨rfl, hwork, hprocessed⟩ := hs
    exact .of_unprocessed (by simp [buildFailedResult]) hprocessed (fun _ _ => rfl)
      fun _ _ _ h => h
  refine .bind ((makeWorkingDirectory_spec hunlinked.working).conseq (fun _ h => h)
    (fun _ _ h => h) fun _ s hs => ?_) fun workingDirectory => ?_
  · obtain ⟨⟨directory, hsetting, hpaved⟩, hwork, hprocessed⟩ := hs
    refine .of_unprocessed not_false hprocessed (fun _ => hpaved.lookup_of_ne_none) ?_
    intro out hout name hthere
    rw [hwork, outputDirectory] at hout
    split at hout
    · cases hout
    · next hmode =>
      have hexact : settings.commandProfile.outputMode = .exactDestinationPath := by
        cases hcase : settings.commandProfile.outputMode with
        | exactDestinationPath => rfl
        | singleFileInDestinationDirectory =>
          refine absurd ⟨hcase, ?_, rfl⟩ hmode
          rw [hsetting]
          exact nofun
      rw [commandOutputDirectory_none, Option.some_inj] at hout
      subst hout
      rcases hpaved (request.destinationDirectory ++ [name]) with hsame | ⟨hnone, -, rest, hrest⟩
      · rwa [hsame] at hthere
      · rw [List.append_assoc, List.singleton_append] at hrest
        exact absurd hnone (hapart.entryThere hexact name rest (hrest ▸ hsetting))
  refine .of_state fun s₀ hs₀ => ?_
  obtain ⟨hstarts, hwork, hprocessed⟩ := hs₀
  refine scopedDirectoryCleanup_spec ?_
  cases workingDirectory with
  | none =>
    obtain ⟨hsetting, hdisk⟩ := hstarts
    have hout : before.Straight (commandOutputDirectory settings request none) :=
      commandOutputDirectory_none ▸ hunlinked.destination
    have hin := @convertIn_spec env settings request none before hunlinked.process hout
      hunlinked.destination hunlinked.destination (.inr commandOutputDirectory_none.symm)
      destinationDirectory_ne
    refine hin.conseq (fun s hs => ?_) (fun _ s h => ?_) fun _ s h => ?_
    · subst hs
      exact ⟨hdisk, hwork, hprocessed⟩
    · exact h.publication_of_none hsetting
    · exact h.publication_of_none hsetting
  | some path =>
    have hmade : s₀.disk.lookup path = some .directory := by
      obtain ⟨directory, suffix, paved, -, -, -, hadds⟩ := hstarts
      rw [hadds.2, if_pos rfl]
    obtain ⟨hway, hdestination, hout⟩ := hstarts.straight hunlinked
    have hne : path ≠ request.destinationPath := by
      obtain ⟨directory, suffix, paved, hsetting, hpath, -, -⟩ := hstarts
      intro heq
      refine hapart.notOnTheWay directory suffix hsetting ?_
      rw [← hpath, heq]
    have hin := @convertIn_spec env settings request (some path) s₀.disk hunlinked.process hout
      hdestination hway (.inl hmade) hne
    refine hin.conseq (fun s hs => ?_) (fun _ s h => ?_) fun _ s h => ?_
    · subst hs
      exact ⟨rfl, hwork, hprocessed⟩
    · exact h.publication_of_some hapart hstarts
    · exact h.publication_of_some hapart hstarts

end Result

def startState (before : ConverterDisk) (calls sequence : Nat) : ConverterState where
  disk := before
  calls := calls
  sequence := sequence

def outputDisk : ConverterDisk := (Disk.root.put [ascii "out"] .directory).getD .root

/-- The conversion to a book in that directory. -/
def bookRequest : ConversionRequest where
  sourcePath := [ascii "source.fb2"]
  destinationPath := [ascii "out", ascii "book.epub"]
  hasFilename := by decide

/-- A converter that writes to the exact path, with the given working directory. -/
def exactSettings (workingDirectory : Location) : ConverterSettings where
  commandProfile := {
    executablePath := ascii "/converter"
    argumentTemplate := [ascii "\x7bdestination\x7d"] }
  workingDirectory := some workingDirectory

def bookWritten : ConverterEnv where
  run _ disk :=
    ({}, (disk.put [ascii "out", ascii "book.epub"] (.file (ascii "book"))).getD disk)

theorem status_iff {answer : Except Bytes ConversionResult} {status : ConversionStatus} :
    (∃ result, answer = .ok result ∧ result.status = status) ↔
      answer.toOption.map ConversionResult.status = some status := by
  cases answer with
  | error e => simp [Except.toOption]
  | ok result => simp [Except.toOption]

theorem outputDisk_straight (path : Location) : outputDisk.Straight path := by
  obtain ⟨d, hput⟩ : ∃ d, (Disk.root : ConverterDisk).put [ascii "out"] .directory = some d :=
    Option.isSome_iff_exists.mp (Disk.put_isSome_iff.mpr (by decide))
  rw [outputDisk, hput]
  exact Disk.straight_root.keeps (Disk.keepsLinks_put hput nofun)

theorem bookWritten_unlinked :
    Unlinked bookWritten (exactSettings [ascii "work"]) bookRequest outputDisk := by
  refine ⟨outputDisk_straight _, fun directory _ => outputDisk_straight _, fun request given h => ?_⟩
  have hkeeps : given.KeepsLinks (bookWritten.run request given).2 := by
    change given.KeepsLinks ((given.put [ascii "out", ascii "book.epub"] _).getD given)
    cases hput : given.put [ascii "out", ascii "book.epub"] (.file (ascii "book")) with
    | none => exact .refl
    | some d => exact Disk.keepsLinks_put hput nofun
  exact ⟨h.outputDirectory.keeps hkeeps, h.destinationDirectory.keeps hkeeps,
    h.aboveWorkingDirectory.keeps hkeeps⟩

/-- The process fails, and writes nothing. -/
def processFailed : ConverterEnv where
  run _ disk := ({ exitCode := 1 }, disk)

/-- A disk with a library beside the directory for the output. -/
def libraryDisk : ConverterDisk := ((do
  let d ← Disk.root.put [ascii "out"] .directory
  let d ← d.put [ascii "library"] .directory
  d.put [ascii "library", ascii "keep.epub"] (.file (ascii "kept"))) : Option ConverterDisk).getD .root

/-- The process fails, after a link to the library took the place of the output directory. -/
def outputLinked : ConverterEnv where
  run _ disk := ({ exitCode := 1 },
    ((disk.removeAll [ascii "out"]).put [ascii "out"] (.link [ascii "library"])).getD disk)

/-- The entries that are told from those before are then the books of the library, and go. -/
theorem outputLinked_not_kept :
    (stateAfter (convert outputLinked (exactSettings [ascii "work"]) bookRequest
      (startState libraryDisk 0 0))).disk.lookup [ascii "library", ascii "keep.epub"] = none ∧
    libraryDisk.lookup [ascii "library", ascii "keep.epub"] = some (.file (ascii "kept")) := by
  decide +kernel

end InpxWebReader.Converter
