import InpxWebReader.Database.Catalog
import InpxWebReader.Scan.RunScan

/-!
# What the writer does

`Writing readers S before db r` is the invariant of a run that has not failed: the database is
consistent, every cover it refers to has its file, and what was done to the files of the cache can
be undone. `Aborted env before why s` is what is left when the run fails, and why it failed: for a
reason outside the program, on the running cover budget, or because of `why`.

Most steps leave the queue and the files alone. `Standing` is the part of the state that database
code does not touch, and `At db r` fixes the database and that part.
-/

namespace InpxWebReader.Scan

open Foundation Domain Inpx Storage Database Program ExecState

/-! ### The state, in two parts -/

/-- The part of the state of an execution that database code leaves alone. -/
structure Standing where
  covers : CoverStore
  sequence : Nat
  scanId : Bytes
  writtenCoverPaths : List Bytes
  committed : Bool
  processedActiveIds : List Bytes
  currentArchivePath : Bytes
  inFlight : List InFlightParsedRecord
  counterUnderflow : Bool
  budgetExceeded : Bool

def ExecState.standing (s : ExecState) : Standing where
  covers := s.covers
  sequence := s.sequence
  scanId := s.scanId
  writtenCoverPaths := s.writtenCoverPaths
  committed := s.committed
  processedActiveIds := s.processedActiveIds
  currentArchivePath := s.currentArchivePath
  inFlight := s.inFlight
  counterUnderflow := s.counterUnderflow
  budgetExceeded := s.budgetExceeded

/-- The state has this database and this standing. -/
def At (db : Database) (r : Standing) (s : ExecState) : Prop := s.database = db ∧ s.standing = r

/-- The run is stopped, or a step of it fails for a reason outside the program. -/
def ScanEnv.Disturbed (env : ScanEnv) : Prop := env.stopAt ≠ none ∨ ∃ n, env.fault n ≠ none

/-- What a run did to the files can be undone: it wrote where there was nothing, and elsewhere only
temporary files are gone. -/
structure Undoable (before : World) (r : Standing) : Prop where
  committed : r.committed = false
  counterUnderflow : r.counterUnderflow = false
  sequence : before.sequence ≤ r.sequence
  fresh : ∀ p ∈ r.writtenCoverPaths, before.covers p = none
  kept : ∀ p ∉ r.writtenCoverPaths,
    r.covers p = before.covers p ∨ (r.covers p = none ∧ asciiByte '-' ∈ p)

/-- A run that failed, and why. -/
def Aborted (env : ScanEnv) (before : World) (why : Prop) (s : ExecState) : Prop :=
  Undoable before s.standing ∧ (env.Disturbed ∨ s.budgetExceeded = true ∨ why)

theorem Aborted.mono {env : ScanEnv} {before : World} {why why' : Prop} {s : ExecState}
    (h : Aborted env before why s) (hw : why → why') : Aborted env before why' s :=
  ⟨h.1, h.2.imp_right (Or.imp_right hw)⟩

/-- A program that leaves database and standing alone, and fails only when the run is disturbed. -/
def Quiet {α : Type} (env : ScanEnv) (c : ExecM α) : Prop :=
  ∀ db r, Triple (At db r) c (fun _ => At db r) fun _ s => At db r s ∧ env.Disturbed

section Rules

variable {α β : Type} {env : ScanEnv} {before : World} {why : Prop} {db : Database}
  {r : Standing}

theorem At.get_bind {f : ExecState → ExecM β} {Q : β → ExecState → Prop}
    {E : Exception → ExecState → Prop}
    (hf : ∀ s, At db r s → Triple (At db r) (f s) Q E) :
    Triple (At db r) (MonadState.get >>= f) Q E :=
  fun s hs => hf s hs s hs

/-- A change that keeps the database and moves the standing. -/
theorem At.modify {f : ExecState → ExecState} {r' : Standing} {E : Exception → ExecState → Prop}
    (h : ∀ s, At db r s → At db r' (f s)) :
    Triple (At db r) (MonadStateOf.modifyGet fun s => (PUnit.unit, f s) : ExecM PUnit)
      (fun _ => At db r') E :=
  Triple.modify h

theorem Quiet.bind {c : ExecM α} (hc : Quiet env c) (hu : Undoable before r) {f : α → ExecM β}
    {Q : β → ExecState → Prop}
    (hf : ∀ a, Triple (At db r) (f a) Q fun _ => Aborted env before why) :
    Triple (At db r) (c >>= f) Q fun _ => Aborted env before why := by
  refine Triple.bind ((hc db r).error fun _ s hs => ?_) hf
  refine ⟨?_, .inl hs.2⟩
  rw [hs.1.2]
  exact hu

theorem Quiet.triple {c : ExecM α} (hc : Quiet env c) (hu : Undoable before r) :
    Triple (At db r) c (fun _ => At db r) fun _ => Aborted env before why := by
  refine (hc db r).error fun _ s hs => ⟨?_, .inl hs.2⟩
  rw [hs.1.2]
  exact hu

theorem Quiet.pure {a : α} : Quiet env (Pure.pure a : ExecM α) :=
  fun _ _ => .pure fun _ hs => hs

theorem Quiet.comp {c : ExecM α} {f : α → ExecM β} (hc : Quiet env c) (hf : ∀ a, Quiet env (f a)) :
    Quiet env (c >>= f) :=
  fun db r => Triple.bind (hc db r) fun a => hf a db r

/-- Progress is not part of the database or the standing. -/
theorem Quiet.onProgress {c : ProgressM α}
    (h : Triple (fun _ => True) c (fun _ _ => True) fun _ _ => env.Disturbed) :
    Quiet env (onProgress c) := by
  intro db r s hs
  have hc := h s.progress trivial
  rw [ExecState.onProgress, zoom]
  cases hr : c s.progress with
  | ok a p => exact hs
  | error e p =>
    rw [hr] at hc
    exact ⟨hs, hc⟩

theorem disturbed_of_requested {p : Progress} (h : env.stop.requested p = true) :
    env.Disturbed := by
  refine .inl fun hn => ?_
  rw [StopRequest.requested, ScanEnv.stop] at h
  simp only [hn, Option.any_none] at h
  cases h

theorem throwIfCancelled_disturbed (site : CheckpointSite) :
    Triple (fun _ => True) (throwIfCancelled env.stop site) (fun _ _ => True)
      fun _ _ => env.Disturbed := by
  rw [throwIfCancelled]
  refine Triple.bind (M := fun t s => t = s) (.get fun _ _ => rfl) fun t => ?_
  refine .ite (fun h => ?_) fun _ => .modify fun _ _ => trivial
  have hd : env.Disturbed := disturbed_of_requested h
  exact fun s _ => hd

theorem quiet_throwIfCancelled (site : CheckpointSite) :
    Quiet env (onProgress (throwIfCancelled env.stop site)) :=
  .onProgress (throwIfCancelled_disturbed site)

theorem publishSnapshot_at (update : ScanJobSnapshot → ScanJobSnapshot)
    {E : Exception → ExecState → Prop} :
    Triple (At db r) (onProgress (publishSnapshot update)) (fun _ => At db r) E :=
  fun _ hs => hs

theorem quiet_publishSnapshot (update : ScanJobSnapshot → ScanJobSnapshot) :
    Quiet env (onProgress (publishSnapshot update)) :=
  .onProgress (.modify fun _ _ => trivial)

theorem runCheckpoints_disturbed (site : CheckpointSite) (n : Nat) :
    Triple (fun _ => True) (runCheckpoints env.stop site n) (fun _ _ => True)
      fun _ _ => env.Disturbed := by
  induction n with
  | zero => exact .pure fun _ _ => trivial
  | succ n ih => exact Triple.bind (throwIfCancelled_disturbed site) fun _ => ih

theorem quiet_runCheckpoints (site : CheckpointSite) (n : Nat) :
    Quiet env (onProgress (runCheckpoints env.stop site n)) :=
  .onProgress (runCheckpoints_disturbed site n)

theorem quiet_step : Quiet env (step env) := by
  intro db r
  rw [step]
  refine At.get_bind fun s hs => ?_
  refine Triple.bind (M := fun _ => At db r) (.modify fun _ _ => hs) fun _ => ?_
  cases hf : env.fault s.steps with
  | none => exact .pure fun _ h => h
  | some failure => exact .throw fun _ h => ⟨h, .inr ⟨s.steps, by rw [hf]; nofun⟩⟩

/-- An answer from outside: what follows knows it, and an error is why the run fails. -/
theorem ofFileSystem_bind {x : Except Failure α} (hu : Undoable before r) {f : α → ExecM β}
    {Q : β → ExecState → Prop} (hwhy : ∀ e, x = .error e → why)
    (hf : ∀ a, x = .ok a → Triple (At db r) (f a) Q fun _ => Aborted env before why) :
    Triple (At db r) (ofFileSystem x >>= f) Q fun _ => Aborted env before why := by
  cases x with
  | ok a => exact hf a rfl
  | error e =>
    intro s hs
    refine ⟨?_, .inr (.inr (hwhy e rfl))⟩
    rw [hs.2]
    exact hu

theorem require_bind {p : Prop} [Decidable p] {e : Exception} (hu : Undoable before r)
    {f : Unit → ExecM β} {Q : β → ExecState → Prop} (hwhy : ¬p → why)
    (hf : p → Triple (At db r) (f ()) Q fun _ => Aborted env before why) :
    Triple (At db r) (require p e >>= f) Q fun _ => Aborted env before why := by
  rw [require]
  by_cases hp : p
  · rw [if_pos hp]
    exact hf hp
  · rw [if_neg hp]
    intro s hs
    refine ⟨?_, .inr (.inr (hwhy hp))⟩
    rw [hs.2]
    exact hu

/-- A call outside the scan: what follows knows its answer. -/
theorem runCall_bind {site : CheckpointSite} {call : Call α} (hu : Undoable before r)
    {f : α → ExecM β} {Q : β → ExecState → Prop} (hwhy : ∀ e, call.result = .error e → why)
    (hf : ∀ a, call.result = .ok a → Triple (At db r) (f a) Q fun _ => Aborted env before why) :
    Triple (At db r) (onProgress (runCall env.stop site call) >>= f) Q
      fun _ => Aborted env before why := by
  have hcall : Triple (fun _ => True) (runCall env.stop site call)
      (fun a _ => call.result = .ok a) fun _ _ => env.Disturbed ∨ why := by
    refine Triple.bind ((runCheckpoints_disturbed site call.checkpoints).error
      fun _ _ h => .inl h) fun _ => ?_
    cases hres : call.result with
    | ok a => exact .pure fun _ _ => rfl
    | error e => exact .throw fun _ _ => .inr (hwhy e hres)
  refine Triple.bind (M := fun a s => call.result = .ok a ∧ At db r s) ?_
    fun a => Triple.of_pure (hf a)
  refine Triple.zoom fun s hs => ?_
  refine hcall.conseq (fun _ _ => trivial) (fun a _ h => ⟨h, hs⟩) fun _ p h => ?_
  refine ⟨?_, h.imp_right .inr⟩
  rw [show ExecState.standing { s with progress := p } = s.standing from rfl, hs.2]
  exact hu

theorem runDb_spec {c : Db α} {R : α → Database → Prop} (hu : Undoable before r)
    (hc : Triple (fun d => d = db) c R fun e _ => e ≠ Database.counterUnderflow ∧ why) :
    Triple (At db r) (runDb env c) (fun a s => ∃ db', R a db' ∧ At db' r s)
      fun _ => Aborted env before why := by
  rw [runDb]
  refine quiet_step.bind hu fun _ => At.get_bind fun s hs => ?_
  have hcs := hc s.database hs.1
  revert hcs
  cases c s.database with
  | ok a db' =>
    intro hcs
    refine Triple.bind (M := fun _ => At db' r) (.modify fun _ _ => ⟨rfl, hs.2⟩) fun _ => ?_
    exact .pure fun _ h => ⟨db', hcs, h⟩
  | error failure db' =>
    intro hcs
    refine Triple.bind (M := fun _ => At db' r) (.modify fun _ _ => ⟨rfl, ?_⟩) fun _ => ?_
    · change ExecState.standing { setDatabase db' s with
        counterUnderflow := s.counterUnderflow || decide (failure = Database.counterUnderflow) } = r
      rw [decide_eq_false hcs.1, Bool.or_false]
      exact hs.2
    · refine .throw fun _ h => ⟨?_, .inr (.inr hcs.2)⟩
      rw [h.2]
      exact hu

theorem runDb_bind {c : Db α} {R : α → Database → Prop} (hu : Undoable before r)
    (hc : Triple (fun d => d = db) c R fun e _ => e ≠ Database.counterUnderflow ∧ why)
    {f : α → ExecM β} {Q : β → ExecState → Prop}
    (hf : ∀ a db', R a db' → Triple (At db' r) (f a) Q fun _ => Aborted env before why) :
    Triple (At db r) (runDb env c >>= f) Q fun _ => Aborted env before why :=
  (runDb_spec hu hc).bind fun a => Triple.of_exists fun db' => Triple.of_pure (hf a db')

/-- Database code that does not drive a counter negative keeps what holds of the standing. -/
theorem runDb_standing {c : Db α} {P : Standing → Prop}
    (hc : Triple (fun _ => True) c (fun _ _ => True) fun e _ => e ≠ Database.counterUnderflow) :
    Triple (fun s => P s.standing) (runDb env c) (fun _ s => P s.standing)
      fun _ s => P s.standing := by
  refine Triple.of_state fun s₀ hs₀ => ?_
  rw [runDb]
  refine Triple.bind (M := fun _ => At s₀.database s₀.standing) ?_
    fun _ => At.get_bind fun s hs => ?_
  · refine ((quiet_step : Quiet env (step env)) s₀.database s₀.standing).conseq ?_
      (fun _ _ h => h) ?_
    · rintro s rfl
      exact ⟨rfl, rfl⟩
    · intro e s hs
      rw [hs.1.2]
      exact hs₀
  · have hsr : P s.standing := hs.2.symm ▸ hs₀
    have hcs := hc s.database trivial
    revert hcs
    cases c s.database with
    | ok a db' =>
      intro _
      exact Triple.bind (M := fun _ s => P s.standing) (.modify fun _ _ => hsr)
        fun _ => .pure fun _ h => h
    | error failure db' =>
      intro hcs
      refine Triple.bind (M := fun _ s => P s.standing) (.modify fun _ _ => ?_)
        fun _ => .throw fun _ h => h
      change P (ExecState.standing { setDatabase db' s with
        counterUnderflow := s.counterUnderflow || decide (failure = Database.counterUnderflow) })
      rw [decide_eq_false hcs, Bool.or_false]
      exact hsr

end Rules

/-! ### Covers -/

/-- The path that the cover of a parsed book is stored under, when it has a cover. -/
def coverPathFor (readers : Readers) (parsedBook : ParsedBook) : Except Failure (Option Bytes) :=
  match parsedBook.coverExtension.filter fun _ => parsedBook.coverBytes ≠ [] with
  | none | some [] => .ok none
  | some coverExtension =>
    (getContentAddressedCoverPath (readers.sha.computeBytes parsedBook.coverBytes)
      coverExtension).map some

/-- The cover can be stored beside the files that were there before the run. -/
def CoverFits (readers : Readers) (before : World) (parsedBook : ParsedBook) : Prop :=
  ∃ path, coverPathFor readers parsedBook = .ok path ∧ ∀ p, path = some p →
    ∀ node, before.covers p = some node →
      existingCoverMatches readers (readers.sha.computeBytes parsedBook.coverBytes) node = true

/-- What a run did to the files can be undone, and it wrote covers under their own paths. -/
structure Files (readers : Readers) (before : World) (r : Standing) : Prop
    extends Undoable before r where
  written : ∀ p ∈ r.writtenCoverPaths, ∃ bytes, r.covers p = some (.regular bytes) ∧
    IsCoverPathOf readers.sha p bytes

theorem isCoverPathOf_coverPathFor {readers : Readers} {parsedBook : ParsedBook} {p : Bytes}
    (h : coverPathFor readers parsedBook = .ok (some p)) :
    IsCoverPathOf readers.sha p parsedBook.coverBytes := by
  rw [coverPathFor] at h
  split at h
  · cases h
  · cases h
  · next coverExtension _ _ =>
    refine ⟨coverExtension, ?_⟩
    cases hg : getContentAddressedCoverPath (readers.sha.computeBytes parsedBook.coverBytes)
        coverExtension with
    | error e =>
      rw [hg] at h
      cases h
    | ok path =>
      rw [hg] at h
      injection h with h
      injection h with h
      rw [h]

theorem existingCoverMatches_regular {readers : Readers} {p bytes bytes' : Bytes}
    (h : IsCoverPathOf readers.sha p bytes) (h' : IsCoverPathOf readers.sha p bytes') :
    existingCoverMatches readers (readers.sha.computeBytes bytes) (.regular bytes') = true := by
  unfold existingCoverMatches Sha256.computeBytes
  rw [digest_eq_of_contentAddressed_eq h h', decide_eq_true_eq]

theorem isCoverPathOf_of_matches {readers : Readers} {p bytes : Bytes} {node : FileNode}
    (h : IsCoverPathOf readers.sha p bytes)
    (hm : existingCoverMatches readers (readers.sha.computeBytes bytes) node = true) :
    ∃ bytes', node = .regular bytes' ∧ IsCoverPathOf readers.sha p bytes' := by
  cases node with
  | other => cases hm
  | regular bytes' =>
    obtain ⟨extension, he⟩ := h
    refine ⟨bytes', rfl, extension, ?_⟩
    rw [of_decide_eq_true hm]
    exact he

section Covers

variable {readers : Readers} {env : ScanEnv} {before : World} {why : Prop} {db : Database}
  {r : Standing}

theorem runFiles_spec (f : CoverStore → CoverStore) :
    Triple (At db r) (runFiles env f) (fun _ => At db { r with covers := f r.covers })
      fun _ s => At db r s ∧ env.Disturbed := by
  refine Triple.bind (quiet_step db r) fun _ => .modify fun s hs => ?_
  obtain ⟨rfl, rfl⟩ := hs
  exact ⟨rfl, rfl⟩

/-- The files after a cover was written by way of its temporary file. -/
def withCover (path scanId bytes : Bytes) (covers : CoverStore) : CoverStore :=
  ((covers.write (temporaryCoverPath path scanId) bytes).write path bytes).remove
    (temporaryCoverPath path scanId)

theorem hyphen_mem_temporaryCoverPath (path scanId : Bytes) :
    asciiByte '-' ∈ temporaryCoverPath path scanId :=
  List.mem_append_left _ (List.mem_append_right _ (by decide))

/-- Removing the temporary file makes a run undoable again. -/
theorem Undoable.removeTemporary (hu : Undoable before r) {path : Bytes}
    (hpath : path ∈ r.writtenCoverPaths) {covers : CoverStore} {temporaryPath : Bytes}
    (htemp : asciiByte '-' ∈ temporaryPath)
    (hc : ∀ p ≠ temporaryPath, p ≠ path → covers p = r.covers p) :
    Undoable before { r with covers := covers.remove temporaryPath } := by
  refine ⟨hu.committed, hu.counterUnderflow, hu.sequence, hu.fresh, fun p hp => ?_⟩
  by_cases ht : p = temporaryPath
  · subst ht
    exact .inr ⟨CoverStore.remove_self _ _, htemp⟩
  · change covers.remove temporaryPath p = _ ∨ (covers.remove temporaryPath p = none ∧ _)
    rw [CoverStore.remove_ne ht, hc p ht fun he => hp (he ▸ hpath)]
    exact hu.kept p hp

theorem writeCoverBytesAtomically_spec {path bytes : Bytes} (hu : Undoable before r)
    (hpath : path ∈ r.writtenCoverPaths) :
    Triple (At db r) (writeCoverBytesAtomically env path bytes)
      (fun _ => At db { r with covers := withCover path r.scanId bytes r.covers })
      fun _ => Aborted env before why := by
  have htemp := hyphen_mem_temporaryCoverPath path r.scanId
  rw [writeCoverBytesAtomically]
  refine quiet_step.bind hu fun _ => At.get_bind fun s hs => ?_
  have hscan : s.scanId = r.scanId := congrArg Standing.scanId hs.2
  rw [hscan]
  refine Triple.tryCatch (F := fun _ s => env.Disturbed ∧ ∃ covers : CoverStore,
    At db { r with covers := covers } s ∧
      ∀ p ≠ temporaryCoverPath path r.scanId, p ≠ path → covers p = r.covers p) ?_ fun e => ?_
  · refine Triple.bind ((runFiles_spec _).error fun _ s hs => ⟨hs.2, r.covers, hs.1,
      fun _ _ _ => rfl⟩) fun _ => ?_
    refine Triple.bind ((quiet_step _ _).error fun _ s hs => ⟨hs.2, _, hs.1,
      fun p ht _ => CoverStore.write_ne ht⟩) fun _ => ?_
    exact (runFiles_spec _).error fun _ s hs => ⟨hs.2, _, hs.1,
      fun p ht _ => CoverStore.write_ne ht⟩
  · refine Triple.of_pure fun hd => Triple.of_exists fun covers => ?_
    refine Triple.bind (M := fun _ => Aborted env before why) (.modify fun s hs => ?_)
      fun _ => .throw fun _ h => h
    obtain ⟨⟨rfl, hr⟩, hc⟩ := hs
    refine ⟨?_, .inl hd⟩
    have hcovers : s.covers = covers := congrArg Standing.covers hr
    rw [show ∀ c, (setCovers c s).standing = { s.standing with covers := c } from fun _ => rfl,
      hr, hcovers]
    exact hu.removeTemporary hpath htemp hc

/-- The standing after a cover was cached. -/
structure CachesCover (readers : Readers) (before : World) (parsedBook : ParsedBook)
    (r : Standing) (result : CachedCoverResult) (r' : Standing) : Prop where
  files : Files readers before r'
  frame : r' = { r with covers := r'.covers, writtenCoverPaths := r'.writtenCoverPaths }
  grows : ∀ p node, asciiByte '-' ∉ p → r.covers p = some node → r'.covers p = some node
  path : coverPathFor readers parsedBook = .ok result.relativePath
  fits : CoverFits readers before parsedBook
  file : ∀ p, result.relativePath = some p → ∃ bytes, r'.covers p = some (.regular bytes) ∧
    IsCoverPathOf readers.sha p bytes
  size : ∀ p, result.relativePath = some p → result.bytes = parsedBook.coverBytes.length

/-- A path without a file was not there before the run either. -/
theorem Files.absent (hf : Files readers before r) {path bytes : Bytes}
    (hp : IsCoverPathOf readers.sha path bytes) (hnone : r.covers path = none) :
    path ∉ r.writtenCoverPaths ∧ before.covers path = none := by
  have hw : path ∉ r.writtenCoverPaths := by
    intro hw
    obtain ⟨_, hr, _⟩ := hf.written path hw
    rw [hnone] at hr
    cases hr
  refine ⟨hw, ?_⟩
  rcases hf.kept path hw with hk | hk
  · rw [← hk, hnone]
  · exact absurd hk.2 (hyphen_notMem_of_contentAddressed hp)

/-- The file of a path that the run found there matches exactly when it is no obstacle. -/
theorem Files.matches_iff (hf : Files readers before r) {parsedBook : ParsedBook} {path : Bytes}
    {node : FileNode} (hpath : coverPathFor readers parsedBook = .ok (some path))
    (hnode : r.covers path = some node) :
    existingCoverMatches readers (readers.sha.computeBytes parsedBook.coverBytes) node = true ↔
      CoverFits readers before parsedBook := by
  have hp := isCoverPathOf_coverPathFor hpath
  by_cases hw : path ∈ r.writtenCoverPaths
  · obtain ⟨bytes, hr, hb⟩ := hf.written path hw
    rw [hnode] at hr
    injection hr with hr
    subst hr
    refine ⟨fun _ => ⟨some path, hpath, fun p he n hn => ?_⟩,
      fun _ => existingCoverMatches_regular hp hb⟩
    injection he with he
    rw [← he, hf.fresh path hw] at hn
    cases hn
  · have hbefore : before.covers path = some node := by
      rcases hf.kept path hw with hk | hk
      · rw [← hk, hnode]
      · rw [hnode] at hk
        cases hk.1
    constructor
    · intro hm
      refine ⟨some path, hpath, fun p he n hn => ?_⟩
      injection he with he
      rw [← he, hbefore] at hn
      injection hn with hn
      rw [← hn]
      exact hm
    · rintro ⟨path', hpath', hall⟩
      rw [hpath] at hpath'
      injection hpath' with hpath'
      exact hall path hpath'.symm node hbefore

theorem Files.withCover (hf : Files readers before r) {path bytes : Bytes}
    (hp : IsCoverPathOf readers.sha path bytes) (hnone : r.covers path = none) :
    Files readers before { r with
      covers := Scan.withCover path r.scanId bytes r.covers
      writtenCoverPaths := r.writtenCoverPaths ++ [path] } ∧
    (∀ p node, asciiByte '-' ∉ p → r.covers p = some node →
      Scan.withCover path r.scanId bytes r.covers p = some node) ∧
    Scan.withCover path r.scanId bytes r.covers path = some (.regular bytes) := by
  have htemp := hyphen_mem_temporaryCoverPath path r.scanId
  have hself : Scan.withCover path r.scanId bytes r.covers path = some (.regular bytes) := by
    rw [Scan.withCover]
    rw [CoverStore.remove_ne, CoverStore.write_self]
    exact fun he => hyphen_notMem_of_contentAddressed hp (he ▸ htemp)
  have hother : ∀ p ≠ path, asciiByte '-' ∉ p →
      Scan.withCover path r.scanId bytes r.covers p = r.covers p := by
    intro p hne hh
    have ht : p ≠ temporaryCoverPath path r.scanId := fun he => hh (he ▸ htemp)
    rw [Scan.withCover]
    rw [CoverStore.remove_ne ht, CoverStore.write_ne hne, CoverStore.write_ne ht]
  obtain ⟨hw, hbefore⟩ := hf.absent hp hnone
  refine ⟨⟨⟨hf.committed, hf.counterUnderflow, hf.sequence, fun p hm => ?_, fun p hm => ?_⟩,
    fun p hm => ?_⟩, fun p node hh hn => ?_, hself⟩
  · rcases List.mem_append.mp hm with hm | hm
    · exact hf.fresh p hm
    · rw [List.mem_singleton.mp hm]
      exact hbefore
  · have hne : p ≠ path := fun he => hm (List.mem_append_right _ (List.mem_singleton.mpr he))
    by_cases ht : p = temporaryCoverPath path r.scanId
    · rw [ht]
      exact .inr ⟨CoverStore.remove_self _ _, htemp⟩
    · have hk := hf.kept p fun h => hm (List.mem_append_left _ h)
      have hc : Scan.withCover path r.scanId bytes r.covers p = r.covers p := by
        rw [Scan.withCover]
        rw [CoverStore.remove_ne ht, CoverStore.write_ne hne, CoverStore.write_ne ht]
      exact hk.imp hc.trans fun h => ⟨hc.trans h.1, h.2⟩
  · by_cases he : p = path
    · rw [he]
      exact ⟨bytes, hself, hp⟩
    · rcases List.mem_append.mp hm with hm | hm
      · obtain ⟨b, hb, hpb⟩ := hf.written p hm
        exact ⟨b, (hother p he (hyphen_notMem_of_contentAddressed hpb)).trans hb, hpb⟩
      · exact absurd (List.mem_singleton.mp hm) he
  · by_cases he : p = path
    · rw [he, hnone] at hn
      cases hn
    · rw [hother p he hh]
      exact hn

/-- `CacheInpxCover`: the cover has its file, or it does not fit and the run fails. -/
theorem cacheInpxCover_spec (hf : Files readers before r) (parsedBook : ParsedBook) :
    Triple (At db r) (cacheInpxCover readers env parsedBook)
      (fun result s => ∃ r', CachesCover readers before parsedBook r result r' ∧ At db r' s)
      fun _ => Aborted env before (¬CoverFits readers before parsedBook) := by
  have hu := hf.toUndoable
  have hwithout : coverPathFor readers parsedBook = .ok none → ∀ warningCount,
      CachesCover readers before parsedBook r { warningCount := warningCount } r := fun h _ =>
    ⟨hf, rfl, fun _ _ _ h => h, h, ⟨none, h, nofun⟩, nofun, nofun⟩
  rw [cacheInpxCover]
  refine quiet_step.bind hu fun _ => ?_
  cases hext : parsedBook.coverExtension.filter fun _ => parsedBook.coverBytes ≠ [] with
  | none =>
    refine .pure fun s hs => ⟨r, hwithout ?_ _, hs⟩
    rw [coverPathFor]
    rw [hext]
  | some extension =>
    cases extension with
    | nil =>
      refine .pure fun s hs => ⟨r, hwithout ?_ _, hs⟩
      rw [coverPathFor]
      rw [hext]
    | cons c cs =>
      have hfor : coverPathFor readers parsedBook = (getContentAddressedCoverPath
          (readers.sha.computeBytes parsedBook.coverBytes) (c :: cs)).map some := by
        rw [coverPathFor]
        rw [hext]
      refine ofFileSystem_bind hu (fun e he => ?_) fun path hpath => ?_
      · rintro ⟨p, hp, _⟩
        rw [hfor, he] at hp
        cases hp
      rw [hpath] at hfor
      have hp : IsCoverPathOf readers.sha path parsedBook.coverBytes := ⟨_, hpath⟩
      refine quiet_step.bind hu fun _ => At.get_bind fun s hs => ?_
      rw [show s.covers = r.covers from congrArg Standing.covers hs.2]
      cases hnode : r.covers path with
      | some node =>
        refine require_bind hu (fun hm hfits => hm ((hf.matches_iff hfor hnode).mpr hfits))
          fun hm => ?_
        obtain ⟨bytes, rfl, hb⟩ := isCoverPathOf_of_matches hp hm
        refine .pure fun s hs => ⟨r, ⟨hf, rfl, fun _ _ _ h => h, hfor,
          (hf.matches_iff hfor hnode).mp hm, ?_, ?_⟩, hs⟩
        · rintro _ ⟨⟩
          exact ⟨bytes, hnode, hb⟩
        · exact fun _ _ => rfl
      | none =>
        have hw := hf.withCover hp hnode
        have hu' : Undoable before { r with
            writtenCoverPaths := r.writtenCoverPaths ++ [path] } := by
          refine ⟨hu.committed, hu.counterUnderflow, hu.sequence, hw.1.fresh, fun p hm => ?_⟩
          exact hu.kept p fun h => hm (List.mem_append_left _ h)
        refine Triple.bind (M := fun _ => At db { r with
          writtenCoverPaths := r.writtenCoverPaths ++ [path] }) (.modify fun s hs => ?_)
          fun _ => ?_
        · obtain ⟨rfl, rfl⟩ := hs
          exact ⟨rfl, rfl⟩
        refine (writeCoverBytesAtomically_spec hu'
          (List.mem_append_right _ (List.mem_singleton_self path))).bind fun _ => ?_
        refine .pure fun s hs => ⟨_, ⟨hw.1, rfl, hw.2.1, hfor, ⟨some path, hfor, ?_⟩, ?_, ?_⟩, hs⟩
        · rintro p ⟨⟩ node hn
          rw [(hf.absent hp hnode).2] at hn
          cases hn
        · rintro _ ⟨⟩
          exact ⟨_, hw.2.2, hp⟩
        · exact fun _ _ => rfl

end Covers

/-! ### Records -/

/-- The sizes that covers of the contents `S` are counted with. -/
def coverSizes (sha : Sha256) (S : Set Bytes) : AllowedSizes where
  allowed path size := ∃ bytes ∈ S, IsCoverPathOf sha path bytes ∧ size = bytes.length
  nonneg := by
    rintro _ _ ⟨bytes, _, _, rfl⟩
    exact Int.natCast_nonneg _

/-- Every cover the catalog refers to has a file with the bytes of its path. -/
def Covered (sha : Sha256) (covers : CoverStore) (db : Database) : Prop :=
  ∀ libId entry path, catalogOf db libId = some entry → entry.coverPath = some path →
    ∃ bytes, covers path = some (.regular bytes) ∧ IsCoverPathOf sha path bytes

/-- The invariant of a run that writes records. -/
structure Writing (readers : Readers) (S : Set Bytes) (before : World) (db : Database)
    (r : Standing) : Prop where
  files : Files readers before r
  consistent : Consistent (coverSizes readers.sha S) 0 db
  covered : Covered readers.sha r.covers db

/-- The cover that the entry of a parsed book has. -/
def storedCover (readers : Readers) (parsedBook : ParsedBook) : Option Bytes :=
  (coverPathFor readers parsedBook).toOption.join

/-- The run after a record was stored. -/
structure WritesRecord (readers : Readers) (S : Set Bytes) (before : World)
    (segmentId : Nat) (inpxRecord : InpxRecord) (parsedBook : ParsedBook) (db : Database)
    (r : Standing) (db' : Database) (r' : Standing) : Prop where
  writing : Writing readers S before db' r'
  stores : StoresRecord inpxRecord.libId
    (storedEntry segmentId inpxRecord r.scanId (storedCover readers parsedBook)) db db'
  frame : r' = { r with covers := r'.covers, writtenCoverPaths := r'.writtenCoverPaths }
  fits : CoverFits readers before parsedBook

section Records

variable {readers : Readers} {env : ScanEnv} {S : Set Bytes} {before : World} {why : Prop}
  {db : Database} {r : Standing} {segmentId : Nat} {inpxRecord : InpxRecord}
  {payload : PreparedPayload}

theorem Undoable.congr {before : World} {r r' : Standing} (h : Undoable before r)
    (hframe : r' = { r with budgetExceeded := r'.budgetExceeded }) : Undoable before r' := by
  rw [hframe]
  exact ⟨h.committed, h.counterUnderflow, h.sequence, h.fresh, h.kept⟩

theorem validateCoverCacheBudget_spec {row : StatisticsRow} (hrow : db.statistics = some row)
    (hu : Undoable before r) :
    Triple (At db r) (validateCoverCacheBudget env) (fun _ => At db r)
      fun _ => Aborted env before why := by
  rw [validateCoverCacheBudget]
  refine quiet_step.bind hu fun _ => At.get_bind fun s hs => ?_
  rw [hs.1, hrow]
  refine .ite (fun _ => ?_) fun _ => .pure fun _ h => h
  refine Triple.bind (M := fun _ s => Undoable before s.standing ∧ s.budgetExceeded = true)
    (.modify fun s hs => ⟨?_, rfl⟩) fun _ => .throw fun _ h => ⟨h.1, .inr (.inl h.2)⟩
  exact (hs.2 ▸ hu : Undoable before s.standing).congr rfl

theorem CachesCover.countable {result : CachedCoverResult} {r' : Standing}
    (h : CachesCover readers before payload.parsedBook r result r')
    (hS : payload.parsedBook.coverBytes ∈ S) (p : Bytes) (hp : result.relativePath = some p) :
    ∃ n, result.knownSize = some n ∧
      Countable (coverSizes readers.sha S) r'.covers p n := by
  have hpath := isCoverPathOf_coverPathFor (h.path.trans (congrArg Except.ok hp))
  obtain ⟨bytes, hfile, _⟩ := h.file p hp
  refine ⟨result.bytes, ?_, ne_nil_of_contentAddressed hpath, ?_, ⟨bytes, hfile⟩,
    ⟨_, hS, hpath, ?_⟩, ?_⟩
  · rw [CachedCoverResult.knownSize]
    rw [hp, Option.map_some]
  · rw [tryNormalizeCoverPath]
    rw [normalizeCoverPath_of_contentAddressed hpath]
    rfl
  · rw [h.size p hp]
  · rw [h.size p hp]
    exact payload.coverBytes_lt

theorem CachesCover.storedCover_eq {parsedBook : ParsedBook} {result : CachedCoverResult}
    {r' : Standing} (h : CachesCover readers before parsedBook r result r') :
    storedCover readers parsedBook = result.relativePath := by
  rw [storedCover]
  rw [h.path]
  cases result.relativePath <;> rfl

/-- Once a record is stored and counted, the run is as it should be. -/
theorem CachesCover.writes {parsedBook : ParsedBook} {result : CachedCoverResult}
    {r' : Standing} (h : CachesCover readers before parsedBook r result r')
    (hw : Writing readers S before db r) {db' : Database}
    (hst : StoresRecord inpxRecord.libId
      (storedEntry segmentId inpxRecord r.scanId result.relativePath) db db')
    (hc : Consistent (coverSizes readers.sha S) 0 db') :
    WritesRecord readers S before segmentId inpxRecord parsedBook db r db' r' := by
  refine ⟨⟨h.files, hc, ?_⟩, by rw [h.storedCover_eq]; exact hst, h.frame, h.fits⟩
  intro libId entry path hentry hcover
  rw [hst.catalog] at hentry
  by_cases he : libId = inpxRecord.libId
  · subst he
    rw [Function.update_self] at hentry
    injection hentry with hentry
    subst hentry
    exact h.file path hcover
  · rw [Function.update_of_ne he] at hentry
    obtain ⟨bytes, hb, hp⟩ := hw.covered libId entry path hentry hcover
    exact ⟨bytes, h.grows path _ (hyphen_notMem_of_contentAddressed hp) hb, hp⟩

/-- `WriteParsedRecord` of a new book. -/
theorem writeNewRecord_spec (hw : Writing readers S before db r)
    (hnew : db.locations.findBy? inpxRecord.libId = none)
    (hS : payload.parsedBook.coverBytes ∈ S) :
    Triple (At db r) (writeNewRecord readers env segmentId inpxRecord payload)
      (fun _ s => ∃ db' r', WritesRecord readers S before segmentId inpxRecord payload.parsedBook
        db r db' r' ∧ At db' r' s)
      fun _ => Aborted env before (¬CoverFits readers before payload.parsedBook) := by
  have hcons := hw.consistent
  rw [writeNewRecord]
  refine At.get_bind fun s₀ _ => ?_
  refine runDb_bind hw.files.toUndoable ((insertInpxBook_spec inpxRecord payload.parsedBook
    (env.now s₀.steps) hcons.wellLinked).error fun _ _ h => h.elim) fun result db₁ hdb₁ => ?_
  obtain ⟨hid, books, mid, hins, hmid, hdb₁⟩ := hdb₁
  obtain ⟨bookId, fallbacks⟩ := result
  dsimp only at hid
  subst hid
  refine (cacheInpxCover_spec hw.files payload.parsedBook).bind fun coverResult =>
    Triple.of_exists fun r' => Triple.of_pure fun hcover => ?_
  have hu := hcover.files.toUndoable
  refine runDb_bind hu ((updateBookCoverPath_spec _ coverResult.relativePath db₁).error
    fun _ _ h => h.elim) fun _ db₂ hdb₂ => At.get_bind fun s₁ hs₁ => ?_
  subst hdb₂
  have hscan : s₁.scanId = r.scanId := by
    rw [show s₁.scanId = r'.scanId from congrArg Standing.scanId hs₁.2, hcover.frame]
  rw [hscan]
  have hlocations : db₁.locations = db.locations := by
    rw [hdb₁, locations_withCommands, hmid.frame]
    rfl
  refine runDb_bind hu ((upsertInpxLocation_spec (setBooks _ db₁) ?_).error
    fun _ _ h => h.elim) fun _ db₃ hdb₃ => At.get_bind fun s₂ hs₂ => ?_
  · intro l hl hlib
    rw [locations_setBooks, hlocations] at hl
    exact absurd hlib (Table.findBy?_eq_none.mp hnew l hl)
  obtain ⟨table, hput, rfl⟩ := hdb₃
  rw [locations_setBooks, hlocations] at hput
  rw [show s₂.covers = r'.covers from congrArg Standing.covers hs₂.2]
  obtain ⟨hstores, hrec, hrefs, hlen, hcount⟩ :=
    hcons.storesNew coverResult.relativePath hins rfl rfl rfl hmid hdb₁ hput
  refine runDb_bind hu ((recordInpxBookInserted_spec hrec (hcover.countable hS)).error
    fun _ _ h => h.elim) fun _ db₄ hdb₄ => ?_
  have hcons₄ := hstores.consistent hdb₄.1 (by
    rw [hrefs]
    change Recorded _ _ ((coveredBooks _ _ db₁.books).rows.length : Int)
      (table.rows.countP _ : Int) db₄
    rw [hlen, hcount]
    push_cast
    exact hdb₄.2)
  obtain ⟨st, hst, _⟩ := hcons₄.recorded
  refine (validateCoverCacheBudget_spec hst.row hu).bind fun _ => .pure fun s hs => ?_
  exact ⟨db₄, r', hcover.writes hw (hstores.tell hdb₄.1) hcons₄, hs⟩

/-- `WriteParsedRecord` of a book that the catalog has. -/
theorem writeExistingRecord_spec (hw : Writing readers S before db r) {l : LocationRow}
    (hl : db.locations.findBy? inpxRecord.libId = some l) {row : BookRow}
    (hrow : db.books.find? l.bookId = some row) {existingBook : ExistingInpxBook}
    (hid : existingBook.bookId = l.bookId) (hcoverPath : existingBook.coverPath = row.coverPath)
    (havail : existingBook.availability = l.availability)
    (hS : payload.parsedBook.coverBytes ∈ S) :
    Triple (At db r)
      (writeExistingRecord readers env segmentId inpxRecord payload existingBook)
      (fun _ s => ∃ db' r', WritesRecord readers S before segmentId inpxRecord payload.parsedBook
        db r db' r' ∧ At db' r' s)
      fun _ => Aborted env before (¬CoverFits readers before payload.parsedBook) := by
  have hcons := hw.consistent
  obtain ⟨hlmem, hlib⟩ := Table.findBy?_eq_some.mp hl
  obtain ⟨old, hold⟩ : ∃ old, readStoredMetadata db l.bookId = some old := by
    rw [readStoredMetadata]
    rw [hrow]
    exact ⟨_, rfl⟩
  rw [writeExistingRecord]
  rw [hid, hcoverPath, havail]
  refine runDb_bind hw.files.toUndoable ((updateInpxBook_spec inpxRecord payload.parsedBook
    hcons.wellLinked hold).error fun _ _ h => h.elim) fun result db₁ hdb₁ => ?_
  obtain ⟨mid, hmid, hdb₁⟩ := hdb₁
  refine (cacheInpxCover_spec hw.files payload.parsedBook).bind fun coverResult =>
    Triple.of_exists fun r' => Triple.of_pure fun hcover => ?_
  have hu := hcover.files.toUndoable
  refine runDb_bind hu ((updateBookCoverPath_spec _ coverResult.relativePath db₁).error
    fun _ _ h => h.elim) fun _ db₂ hdb₂ => At.get_bind fun s₁ hs₁ => ?_
  subst hdb₂
  have hscan : s₁.scanId = r.scanId := by
    rw [show s₁.scanId = r'.scanId from congrArg Standing.scanId hs₁.2, hcover.frame]
  rw [hscan]
  have hlocations : db₁.locations = db.locations := by
    rw [hdb₁, locations_withCommands, hmid.frame]
    rfl
  refine runDb_bind hu ((upsertInpxLocation_spec (setBooks _ db₁) ?_).error
    fun _ _ h => h.elim) fun _ db₃ hdb₃ => At.get_bind fun s₂ hs₂ => ?_
  · intro l' hl' hlib'
    rw [locations_setBooks, hlocations] at hl'
    rw [Table.name_inj hl' hlmem (hlib'.trans hlib.symm)]
  obtain ⟨table, hput, rfl⟩ := hdb₃
  rw [locations_setBooks, hlocations] at hput
  rw [show s₂.covers = r'.covers from congrArg Standing.covers hs₂.2]
  obtain ⟨hstores, hrec, hrefs, hlen, hcount⟩ :=
    hcons.storesExisting coverResult.relativePath hl hrow hmid hdb₁ hput
  have hcov : coverOf db l.bookId = row.coverPath := by
    rw [coverOf]
    rw [hrow, Option.bind_some]
  have hpath : ∀ p, row.coverPath = some p → p ≠ [] ∧ tryNormalizeCoverPath p = some p ∧
      0 < countStoredCoverReferences db p := by
    intro p hp
    obtain ⟨bytes, _, hb⟩ := hw.covered inpxRecord.libId (entryOf db l) p (by
      rw [catalogOf]
      rw [hl, Option.map_some]) (hcov.trans hp)
    refine ⟨ne_nil_of_contentAddressed hb, ?_, coverOf_pos (hcov.trans hp)⟩
    rw [tryNormalizeCoverPath]
    rw [normalizeCoverPath_of_contentAddressed hb]
    rfl
  refine runDb_bind hu ((recordCoverPathChanged_spec hrec hpath (hcover.countable hS)).error
    fun _ _ h => h.elim) fun _ db₄ hdb₄ => ?_
  have hunavailable : unavailableCount l.availability ≤
      (db.locations.rows.countP LocationRow.isUnavailable : Int) := by
    have := Int.natCast_nonneg (table.rows.countP LocationRow.isUnavailable)
    omega
  refine runDb_bind hu ((recordInpxBookAvailabilityChanged_spec hdb₄.2 hunavailable).error
    fun _ _ h => h.elim) fun _ db₅ hdb₅ => ?_
  have hcons₅ := hstores.consistent (hdb₄.1.trans hdb₅.1) (by
    rw [hrefs]
    change Recorded _ _ ((coveredBooks _ _ db₁.books).rows.length : Int)
      (table.rows.countP _ : Int) db₅
    rw [hlen, hcount]
    exact hdb₅.2)
  obtain ⟨st, hst, _⟩ := hcons₅.recorded
  refine (validateCoverCacheBudget_spec hst.row hu).bind fun _ => .pure fun s hs => ?_
  exact ⟨db₅, r', hcover.writes hw (hstores.tell (hdb₄.1.trans hdb₅.1)) hcons₅, hs⟩

/-- `WriteParsedRecord`: the record is stored, unless its cover does not fit or the budget of the
covers is exceeded. -/
theorem writeParsedRecord_spec (hw : Writing readers S before db r)
    (hS : payload.parsedBook.coverBytes ∈ S) :
    Triple (At db r) (writeParsedRecord readers env segmentId inpxRecord payload)
      (fun _ s => ∃ db' r', WritesRecord readers S before segmentId inpxRecord payload.parsedBook
        db r db' r' ∧ At db' r' s)
      fun _ => Aborted env before (¬CoverFits readers before payload.parsedBook) := by
  rw [writeParsedRecord]
  refine quiet_step.bind hw.files.toUndoable fun _ => At.get_bind fun s hs => ?_
  rw [hs.1]
  cases hl : db.locations.findBy? inpxRecord.libId with
  | none =>
    have hnone : readExistingInpxBook db inpxRecord.libId = none := by
      rw [readExistingInpxBook]
      rw [hl]
      rfl
    rw [hnone]
    exact writeNewRecord_spec hw hl hS
  | some l =>
    obtain ⟨row, hrow, hid⟩ := List.mem_map.mp
      (hw.consistent.bookId_mem (Table.findBy?_eq_some.mp hl).1)
    have hfind : db.books.find? l.bookId = some row := Table.find?_eq_some.mpr ⟨hrow, hid⟩
    have hsome : readExistingInpxBook db inpxRecord.libId = some ⟨l.bookId,
        row.coverPath.filter (· ≠ []), l.availability, l.archiveName, l.entryName,
        l.fileSizeBytes, l.format⟩ := by
      rw [readExistingInpxBook]
      rw [hl]
      change (db.books.find? l.bookId).bind _ = _
      rw [hfind]
      rfl
    rw [hsome]
    refine writeExistingRecord_spec hw hl hfind rfl ?_ rfl hS
    cases hcover : row.coverPath with
    | none => rfl
    | some p =>
      have hcov : coverOf db l.bookId = some p := by
        rw [coverOf]
        rw [hfind, Option.bind_some, hcover]
      obtain ⟨bytes, _, hb⟩ := hw.covered inpxRecord.libId (entryOf db l) p (by
        rw [catalogOf]
        rw [hl, Option.map_some]) hcov
      dsimp only
      rw [Option.filter_some, if_pos (by simpa using ne_nil_of_contentAddressed hb)]

end Records

end InpxWebReader.Scan
