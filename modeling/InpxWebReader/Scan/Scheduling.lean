import InpxWebReader.Scan.ExecutionSpec
import InpxWebReader.Scan.Watch

/-!
# The payloads in flight

The execution submits the payloads of its records to the workers and drains them in the order in
which they become ready. What happens to the queue is a run of `InFlight` with the window and the
budget of the scan (`Scheduled`), whatever the plans, the sizes of the payloads and the order of the
drains are, and wherever an exception leaves the loop. From the invariant of such runs follows what
holds at every moment; the end of the loop says that nothing is left in the queue.

A drain that is left by something that is not a `std::exception` keeps its reservation, which nobody
needs any more: the loop is left with it, and what remains is joined.
-/

namespace InpxWebReader.Scan

open Foundation Program ExecState
open InFlight (Follows Moment Window submittedTasks takenTasks releasedTasks joinedTasks)

abbrev reservation (task : InFlightParsedRecord) : Nat := task.reservedPayloadBytes

/-- The record of a task: the positions of its segment and of the record in it. -/
def InFlightParsedRecord.position (task : InFlightParsedRecord) : Nat × Nat :=
  (task.planIndex, task.recordIndex)

/-- What has happened to the queue is a run with the bounds of the scan. -/
abbrev QueueFollows (env : ScanEnv)
    (k : Window InFlightParsedRecord × List (Moment InFlightParsedRecord Bytes)) : Prop :=
  Follows reservation env.maxInFlightPayloads env.maxInFlightPayloadBytes k.2 k.1

/-- Inside the loop: `tasks` were submitted, the newest first, and none was given up. -/
structure Scheduled (env : ScanEnv) (tasks : List InFlightParsedRecord) (s : ExecState) :
    Prop where
  follows : QueueFollows env (s.window, s.moments)
  submitted : submittedTasks s.moments = tasks
  joined : joinedTasks s.moments = []

structure Between (env : ScanEnv) (tasks : List InFlightParsedRecord) (s : ExecState) : Prop
    extends Scheduled env tasks s where
  held : s.held = none

/-- Where an exception leaves the loop. -/
structure Stopped (env : ScanEnv) (tasks : List InFlightParsedRecord) (e : Exception)
    (s : ExecState) : Prop extends Scheduled env tasks s where
  held : s.held = none ∨ e = .failed .nonStandard

theorem Between.stopped {env : ScanEnv} {tasks : List InFlightParsedRecord} {s : ExecState}
    (h : Between env tasks s) (e : Exception) : Stopped env tasks e s :=
  ⟨h.toScheduled, .inl h.held⟩

/-! ### What leaves the queue alone -/

/-- The queue, and what has happened to it, stay as they are. -/
def stillWatch {ω : Type} (Q : ω → Prop) : Watch ω where
  holds _ k := Q k
  left _ _ k := Q k

section Still

variable {ω : Type} {Q : ω → Prop} {stop : StopRequest} {sites : CheckpointSite → Prop}

theorem patient_stillWatch : (stillWatch Q).Patient stop sites where
  failed := fun _ hk => hk
  checkpoint := fun _ k => by
    intro p hp
    cases throwIfCancelled stop _ p <;> exact hp

theorem patient_still (env : ScanEnv) : (stillWatch Q).Patient env.stop NotArchiveResolution :=
  patient_stillWatch

theorem publishes_stillWatch : (stillWatch Q).Publishes := fun _ _ _ _ hk => hk

end Still

/-- A program that leaves the queue alone. -/
abbrev Still {α : Type} (c : ExecM α) : Prop :=
  ∀ Q, Preserves (stillWatch Q) ExecState.watched c

section Loop

variable {readers : Readers} {env : ScanEnv} {pick : Nat → Nat} {α β : Type}
  {tasks : List InFlightParsedRecord}

theorem Still.between_and {c : ExecM α} (hc : Still c)
    {R : Window InFlightParsedRecord → Prop} :
    Triple (fun s => Between env tasks s ∧ R s.window) c
      (fun _ s => Between env tasks s ∧ R s.window) (Stopped env tasks) := by
  refine Triple.conseq (hc fun k => (QueueFollows env k ∧ submittedTasks k.2 = tasks ∧
    joinedTasks k.2 = [] ∧ k.1.held = none) ∧ R k.1) (fun s hs => ?_) (fun _ s hs => ?_)
    fun e s hs => ?_
  · exact ⟨⟨hs.1.follows, hs.1.submitted, hs.1.joined, hs.1.held⟩, hs.2⟩
  · obtain ⟨⟨hfollows, hsubmitted, hjoined, hheld⟩, hR⟩ := hs
    exact ⟨⟨⟨hfollows, hsubmitted, hjoined⟩, hheld⟩, hR⟩
  · obtain ⟨⟨hfollows, hsubmitted, hjoined, hheld⟩, -⟩ := hs
    exact ⟨⟨hfollows, hsubmitted, hjoined⟩, .inl hheld⟩

theorem Still.between {c : ExecM α} (hc : Still c) :
    Triple (Between env tasks) c (fun _ => Between env tasks) (Stopped env tasks) :=
  (hc.between_and (R := fun _ => True)).conseq (fun _ hs => ⟨hs, trivial⟩) (fun _ _ hs => hs.1)
    fun _ _ hs => hs

theorem still_onProgress (c : ProgressM α) : Still (onProgress c) := by
  intro Q s hs
  rw [onProgress, zoom]
  cases c s.progress <;> exact hs

theorem still_modify {f : ExecState → ExecState} (h : ∀ s, (f s).watched = s.watched) :
    Still (MonadStateOf.modifyGet fun s => (PUnit.unit, f s) : ExecM PUnit) :=
  fun _ => .modify h

theorem still_publishWarning (warning : Database.ScanWarningRecord) (countAsSkipped : Bool) :
    Still (publishWarning env warning countAsSkipped) := by
  intro Q
  rw [publishWarning]
  refine Preserves.bind (.modify fun _ => rfl) fun _ => ?_
  exact (preserves_persistWarning (patient_still env) _).bind fun _ =>
    still_onProgress _ Q

/-! ### Drains -/

/-- The event of a task that gives its reservation back. -/
abbrev givesBack (task : InFlightParsedRecord) : InFlight.Event InFlightParsedRecord Bytes :=
  .released task

/-- A drain that took its task: it ends with the reservation released, or is left before. -/
theorem drainTask_schedule {task : InFlightParsedRecord}
    {k : Window InFlightParsedRecord × List (Moment InFlightParsedRecord Bytes)} :
    Triple (fun s => (s.window, s.moments) = k) (drainTask readers env task)
      (fun _ s => s.window = k.1.next reservation (givesBack task) ∧
        s.moments = ⟨k.1, .released task, s.window⟩ :: k.2)
      fun _ s => (s.window, s.moments) = k := by
  have hstill : ∀ {β : Type} {c : ExecM β}, Still c →
      Triple (fun s => (s.window, s.moments) = k) c (fun _ s => (s.window, s.moments) = k)
        fun _ s => (s.window, s.moments) = k := fun hc => hc (· = k)
  rw [drainTask]
  refine Triple.bind (M := fun _ s => (s.window, s.moments) = k) (.get fun _ hs => hs) fun t => ?_
  refine Triple.bind (M := fun _ s => (s.window, s.moments) = k)
    (.ofExcept (fun _ _ _ hs => hs) fun _ _ _ hs => hs) fun payload => ?_
  refine (hstill (still_onProgress _)).bind fun _ => ?_
  refine (hstill fun Q => preserves_storeParsedRecord (patient_still env)
    _ _).bind fun writeResult => ?_
  refine (hstill (still_onProgress _)).bind fun _ => ?_
  refine Triple.bind (hstill (still_modify ?_)) fun _ => ?_
  · exact fun _ => rfl
  refine .modify fun s hs => ?_
  subst hs
  exact ⟨rfl, rfl⟩

theorem what?_eq_none {e : Exception} (h : e.what? = none) : e = .failed .nonStandard := by
  cases e with
  | cancelled => cases h
  | failed failure =>
    cases failure with
    | standard text => cases h
    | nonStandard => rfl

theorem Scheduled.congr {s s' : ExecState} (h : Scheduled env tasks s)
    (hs : (s'.window, s'.moments) = (s.window, s.moments)) : Scheduled env tasks s' := by
  rw [Prod.mk.injEq] at hs
  refine ⟨?_, ?_, ?_⟩
  · rw [hs.1, hs.2]
    exact h.follows
  · rw [hs.2]
    exact h.submitted
  · rw [hs.2]
    exact h.joined

/-- The task that was taken gives its reservation back. -/
theorem Scheduled.released {s s' : ExecState} {task : InFlightParsedRecord}
    (h : Scheduled env tasks s) (hheld : s.held = some task)
    (hwindow : s'.window = s.window.next reservation (givesBack task))
    (hmoments : s'.moments = ⟨s.window, .released task, s'.window⟩ :: s.moments) :
    Between env tasks s' := by
  refine ⟨⟨?_, ?_, ?_⟩, ?_⟩
  · rw [hmoments, hwindow]
    exact h.follows.step hheld
  · rw [hmoments]
    exact h.submitted
  · rw [hmoments]
    exact h.joined
  · rw [show s'.held = s'.window.held from rfl, hwindow]
    rfl

/-- The handlers of a drain release the reservation, but for what is not a `std::exception`. -/
theorem drainFailed_schedule {task : InFlightParsedRecord} {s₀ : ExecState}
    (h₀ : Scheduled env tasks s₀) (hheld : s₀.held = some task) (e : Exception)
    {Q : Unit → ExecState → Prop} :
    Triple (fun s => (s.window, s.moments) = (s₀.window, s₀.moments)) (drainFailed env task e) Q
      (Stopped env tasks) := by
  have hrelease : Triple (fun s => (s.window, s.moments) = (s₀.window, s₀.moments))
      (releasePayloadReservation task) (fun _ => Between env tasks) (Stopped env tasks) := by
    refine .modify fun s hs => (h₀.congr hs).released ?_ rfl rfl
    rw [show s.held = s.window.held from rfl, (Prod.mk.inj hs).1]
    exact hheld
  rw [drainFailed]
  refine .ite (fun _ => ?_) fun _ => ?_
  · exact hrelease.bind fun _ => .throw fun s hs => hs.stopped e
  cases hwhat : e.what? with
  | none =>
    refine .throw fun s hs => ⟨h₀.congr hs, .inr (what?_eq_none hwhat)⟩
  | some what =>
    refine hrelease.bind fun _ => (still_onProgress _).between.bind fun _ => ?_
    exact (still_publishWarning _ _).between.bind fun _ => .throw fun s hs => hs.stopped _

theorem drainParsedRecord_schedule (preferReady : Bool) (n : Nat) :
    Triple (fun s => Between env tasks s ∧ s.inFlight.length = n + 1)
      (drainParsedRecord readers env pick preferReady)
      (fun _ s => Between env tasks s ∧ s.inFlight.length = n) (Stopped env tasks) := by
  refine Triple.of_state fun s₀ ⟨h₀, hlength⟩ => ?_
  rw [drainParsedRecord]
  refine Triple.bind (M := fun t s => t = s₀ ∧ s = s₀) (.get fun s hs => ⟨hs, hs⟩) fun t =>
    Triple.of_pure fun ht => ?_
  rw [ht]
  have hlt := takenIndex_lt pick preferReady (s := s₀) (by omega)
  set index := takenIndex pick preferReady s₀
  obtain ⟨task, htask⟩ : ∃ task, s₀.inFlight[index]? = some task :=
    ⟨_, List.getElem?_eq_getElem hlt⟩
  rw [htask]
  set s₁ := afterTaking index task s₀ with hs₁
  have h₁ : Scheduled env tasks s₁ :=
    ⟨h₀.follows.next (.taken index task) ⟨h₀.held, htask⟩, h₀.submitted, h₀.joined⟩
  refine Triple.bind (M := fun _ s => s = s₁) (fun _ _ => rfl) fun _ => ?_
  refine Triple.tryCatch (F := fun _ s => (s.window, s.moments) = (s₁.window, s₁.moments)) ?_
    fun e => drainFailed_schedule h₁ rfl e
  refine (drainTask_schedule (k := (s₁.window, s₁.moments))).conseq (fun s hs => by rw [hs])
    (fun _ s hs => ⟨h₁.released rfl hs.1 hs.2, ?_⟩) fun _ _ hs => hs
  change s.window.queue.length = n
  rw [hs.1]
  change (s₀.inFlight.eraseIdx index).length = n
  rw [List.length_eraseIdx_of_lt hlt]
  omega

theorem drainQueueWhile_schedule {busy : ExecState → Bool} {body : ExecM Unit} {m : Nat}
    (hbusy : ∀ s, busy s = true → 0 < s.inFlight.length)
    (hbody : ∀ n, Triple (fun s => Between env tasks s ∧ s.inFlight.length = n + 1) body
      (fun _ s => Between env tasks s ∧ s.inFlight.length = n) (Stopped env tasks)) :
    Triple (fun s => Between env tasks s ∧ s.inFlight.length ≤ m) (drainQueueWhile busy body)
      (fun _ s => (Between env tasks s ∧ s.inFlight.length ≤ m) ∧ busy s = false)
      (Stopped env tasks) := by
  refine drainQueueWhile_spec hbusy fun n s hs => ?_
  have hb := hbody n s ⟨hs.1.1, hs.2⟩
  revert hb
  cases body s with
  | error e s' => exact id
  | ok a s' =>
    intro hb
    have hlength := hb.2
    have hm := hs.1.2
    have hn := hs.2
    exact ⟨⟨hb.1, by omega⟩, hlength⟩

theorem drainAndCheck_schedule (n : Nat) :
    Triple (fun s => Between env tasks s ∧ s.inFlight.length = n + 1)
      (drainAndCheck readers env pick)
      (fun _ s => Between env tasks s ∧ s.inFlight.length = n) (Stopped env tasks) := by
  rw [drainAndCheck]
  refine (drainParsedRecord_schedule true n).bind fun _ => ?_
  exact (still_onProgress _).between_and (R := fun w => w.queue.length = n)

/-! ### Records -/

/-- Another archive is opened when the queue is empty. -/
theorem openArchive_schedule {m : Nat} (planIndex : Nat) (plan : SegmentPlan) :
    Triple (fun s => Between env tasks s ∧ s.inFlight.length ≤ m)
      (openArchive readers env pick planIndex plan)
      (fun _ s => Between env tasks s ∧ s.inFlight.length ≤ m) (Stopped env tasks) := by
  rw [openArchive]
  refine Triple.bind (M := fun _ s => Between env tasks s ∧ s.inFlight.length ≤ m)
    (.get fun _ hs => hs) fun t => .ite (fun _ => .pure fun _ hs => hs) fun _ => ?_
  refine Triple.bind (drainQueueWhile_schedule (fun _ => length_pos_of_not_isEmpty)
    (drainParsedRecord_schedule true)) fun _ => ?_
  refine Triple.bind (M := fun _ s => Between env tasks s ∧ s.inFlight.length ≤ m)
    (.modify fun s hs => ?_) fun _ => ?_
  · obtain ⟨⟨hb, hm⟩, hbusy⟩ := hs
    have hempty : s.inFlight = [] := by simpa using hbusy
    have hstep := hb.follows.next (.opened plan.resolvedArchivePath) ⟨hb.held, hempty⟩
    exact ⟨⟨⟨hstep, hb.submitted, hb.joined⟩, hb.held⟩, hm⟩
  refine Triple.bind ((still_onProgress _).between_and (R := fun w => w.queue.length ≤ m))
    fun fingerprint => ?_
  refine Triple.bind (M := fun _ s => Between env tasks s ∧ s.inFlight.length ≤ m)
    (.require (fun _ hs _ => hs) fun _ hs _ => hs.1.stopped _) fun _ => ?_
  exact .modify fun s hs => ⟨⟨⟨hs.1.follows, hs.1.submitted, hs.1.joined⟩, hs.1.held⟩, hs.2⟩

theorem readPayloadSize_le {planIndex recordIndex : Nat} {inpxRecord : Inpx.InpxRecord} {n : Nat}
    (h : (readPayloadSize env planIndex recordIndex inpxRecord).mapError Exception.failed =
      .ok n) : n ≤ env.maxInFlightPayloadBytes := by
  rw [readPayloadSize] at h
  cases hsize : env.entrySize planIndex recordIndex with
  | error e =>
    rw [hsize] at h
    cases h
  | ok size =>
    rw [hsize] at h
    change Except.mapError _ (if _ then _ else _) = _ at h
    split at h
    · cases h
    split at h
    · cases h
    · obtain rfl : size = n := Except.ok.inj h
      omega

/-- A record whose payload is read: its task is submitted last. -/
theorem submitRecord_schedule (planIndex : Nat) (plan : SegmentPlan) (segmentId recordIndex : Nat)
    (inpxRecord : Inpx.InpxRecord) :
    Triple (Between env tasks)
      (submitRecord readers env pick planIndex plan segmentId recordIndex inpxRecord)
      (fun _ s => ∃ task, task.position = (planIndex, recordIndex) ∧
        Between env (task :: tasks) s) (Stopped env tasks) := by
  rw [submitRecord]
  have hpos : 0 < env.maxInFlightPayloads := resolveInpxPayloadWorkerWindow_pos _ _
  have hclaim : Triple (Between env tasks) (claimLibId env inpxRecord.libId)
      (fun _ => Between env tasks) (Stopped env tasks) := by
    rw [claimLibId]
    refine Triple.bind (M := fun _ => Between env tasks) (.get fun _ hs => hs) fun t => ?_
    refine Triple.bind (M := fun _ => Between env tasks)
      (.ofExcept (fun _ _ _ hs => hs) fun _ _ _ hs => hs.stopped _) fun ids => ?_
    split
    · exact .throw fun _ hs => hs.stopped _
    · exact .modify fun s hs => ⟨⟨hs.follows, hs.submitted, hs.joined⟩, hs.held⟩
  refine hclaim.bind fun _ => ?_
  -- the first loop of drains leaves room in the window, and the second one in the budget
  refine Triple.bind (M := fun _ s => Between env tasks s ∧
    s.inFlight.length ≤ env.maxInFlightPayloads - 1) ?_ fun _ => ?_
  · intro s hs
    refine ((drainQueueWhile_schedule (m := s.inFlight.length) (fun s hbusy => ?_)
      drainAndCheck_schedule).post fun _ s hs => ⟨hs.1.1, ?_⟩) s ⟨hs, le_refl _⟩
    · have hle : env.maxInFlightPayloads ≤ s.inFlight.length := by simpa using hbusy
      omega
    · have hlt : s.inFlight.length < env.maxInFlightPayloads := by simpa using hs.2
      omega
  refine (openArchive_schedule planIndex plan).bind fun _ => ?_
  refine Triple.bind (M := fun actualSizeBytes s => actualSizeBytes ≤ env.maxInFlightPayloadBytes ∧
    (Between env tasks s ∧ s.inFlight.length ≤ env.maxInFlightPayloads - 1)) ?_
    fun actualSizeBytes => Triple.of_pure fun hfits => ?_
  · exact .ofExcept (fun size s hsize hs => ⟨readPayloadSize_le hsize, hs⟩) fun e s _ hs =>
      hs.1.stopped _
  refine Triple.bind (drainQueueWhile_schedule (fun s hbusy => ?_) drainAndCheck_schedule)
    fun _ => ?_
  · rw [Bool.and_eq_true] at hbusy
    exact length_pos_of_not_isEmpty hbusy.1
  -- there is room for the task, and reading the payload leaves the queue alone
  have hroom : ∀ s : ExecState, ((Between env tasks s ∧
      s.inFlight.length ≤ env.maxInFlightPayloads - 1) ∧ (!s.inFlight.isEmpty &&
        decide (env.maxInFlightPayloadBytes - actualSizeBytes < s.inFlightPayloadBytes)) = false) →
      Between env tasks s ∧ (s.window.queue.length < env.maxInFlightPayloads ∧
        (s.window.queue = [] ∨
          s.window.reserved ≤ env.maxInFlightPayloadBytes - actualSizeBytes)) := by
    rintro s ⟨⟨hb, hlength⟩, hbusy⟩
    refine ⟨hb, ?_, ?_⟩
    · change s.inFlight.length < _
      omega
    · change s.inFlight = [] ∨ s.inFlightPayloadBytes ≤ _
      rw [Bool.and_eq_false_iff, Bool.not_eq_false', List.isEmpty_iff, decide_eq_false_iff_not,
        Nat.not_lt] at hbusy
      exact hbusy
  refine Triple.pre ?_ hroom
  refine ((still_onProgress _).between_and (R := fun w => w.queue.length <
    env.maxInFlightPayloads ∧ (w.queue = [] ∨
      w.reserved ≤ env.maxInFlightPayloadBytes - actualSizeBytes))).bind fun payloadBytes => ?_
  refine ((still_onProgress _).between_and (R := fun w => w.queue.length <
    env.maxInFlightPayloads ∧ (w.queue = [] ∨
      w.reserved ≤ env.maxInFlightPayloadBytes - actualSizeBytes))).bind fun _ => ?_
  refine .modify fun s hs => ?_
  obtain ⟨hb, hlt, hbytes⟩ := hs
  refine ⟨parsedRecordTask planIndex recordIndex segmentId inpxRecord actualSizeBytes payloadBytes,
    rfl, ⟨⟨?_, ?_, hb.joined⟩, hb.held⟩⟩
  · exact hb.follows.next (.submitted (parsedRecordTask planIndex recordIndex segmentId
      inpxRecord actualSizeBytes payloadBytes)) ⟨hb.held, hlt, hfits, hbytes⟩
  · exact congrArg _ hb.submitted

end Loop

/-! ### The loop -/

/-- Among the positions that were visited, each task has its own. -/
def TasksOf (visited : List (Nat × Nat)) (tasks : List InFlightParsedRecord) : Prop :=
  ((tasks.map InFlightParsedRecord.position).reverse).Sublist visited

def recordPositions (placed : PlacedPlan) : List (Nat × Nat) :=
  placed.plan.records.zipIdx.map fun r => (placed.planIndex, r.2)

section Plans

variable {readers : Readers} {env : ScanEnv} {pick : Nat → Nat}

/-- The loop has come past `visited`. -/
def Visited (env : ScanEnv) (visited : List (Nat × Nat)) (s : ExecState) : Prop :=
  ∃ tasks, TasksOf visited tasks ∧ Between env tasks s

/-- An exception leaves the loop before it has come past `all`. -/
def StoppedWithin (env : ScanEnv) (all : List (Nat × Nat)) (e : Exception) (s : ExecState) : Prop :=
  ∃ tasks, TasksOf all tasks ∧ Stopped env tasks e s

theorem Visited.of_between {c : ExecM Unit} {visited all : List (Nat × Nat)}
    (hsub : visited.Sublist all)
    (hc : ∀ tasks, Triple (Between env tasks) c (fun _ => Between env tasks) (Stopped env tasks)) :
    Triple (Visited env visited) c (fun _ => Visited env visited) (StoppedWithin env all) := by
  refine Triple.of_exists fun tasks => Triple.of_pure fun htasks => ?_
  exact (hc tasks).conseq (fun _ hs => hs) (fun _ s hs => ⟨tasks, htasks, hs⟩)
    fun e s hs => ⟨tasks, htasks.trans hsub, hs⟩

theorem executeRecord_schedule {visited all : List (Nat × Nat)} (placed : PlacedPlan)
    (recordIndex : Nat) (inpxRecord : Inpx.InpxRecord)
    (hsub : (visited ++ [(placed.planIndex, recordIndex)]).Sublist all) :
    Triple (Visited env visited)
      (executeRecord readers env pick placed.planIndex placed.plan placed.segmentId recordIndex
        inpxRecord)
      (fun _ => Visited env (visited ++ [(placed.planIndex, recordIndex)]))
      (StoppedWithin env all) := by
  have hvisited : visited.Sublist all := (List.sublist_append_left _ _).trans hsub
  have hskip : ∀ s, Visited env visited s →
      Visited env (visited ++ [(placed.planIndex, recordIndex)]) s := by
    rintro s ⟨tasks, htasks, hs⟩
    exact ⟨tasks, htasks.trans (List.sublist_append_left _ _), hs⟩
  rw [executeRecord]
  refine (Visited.of_between hvisited fun _ => (still_onProgress _).between).bind fun _ => ?_
  refine (Visited.of_between hvisited fun _ => (still_onProgress _).between).bind fun _ => ?_
  refine .ite (fun _ => .pure hskip) fun _ => .ite (fun _ => ?_) fun _ => ?_
  · refine Triple.of_exists fun tasks => Triple.of_pure fun htasks => ?_
    refine (submitRecord_schedule placed.planIndex placed.plan placed.segmentId recordIndex
      inpxRecord).conseq (fun _ hs => hs) (fun _ s hs => ?_)
      fun e s hs => ⟨tasks, htasks.trans hvisited, hs⟩
    obtain ⟨task, hposition, hs⟩ := hs
    refine ⟨task :: tasks, ?_, hs⟩
    rw [TasksOf, List.map_cons, List.reverse_cons, hposition]
    exact List.Sublist.append htasks (List.Sublist.refl _)
  · exact (Visited.of_between hvisited fun _ => (still_publishWarning _ _).between).post
      fun _ => hskip

theorem executePlan_schedule {visited all : List (Nat × Nat)} (placed : PlacedPlan)
    (hsub : (visited ++ recordPositions placed).Sublist all) :
    Triple (Visited env visited) (executePlan readers env pick placed)
      (fun _ => Visited env (visited ++ recordPositions placed)) (StoppedWithin env all) := by
  rw [executePlan]
  refine (Visited.of_between ((List.sublist_append_left _ _).trans hsub) fun _ =>
    (still_onProgress _).between).bind fun _ => ?_
  refine Triple.conseq (Triple.forM (fun done => Visited env (visited ++
    done.map fun r : Inpx.InpxRecord × Nat => (placed.planIndex, r.2))) ?_)
    (fun s hs => by simpa using hs) (fun _ _ hs => hs) fun _ _ hs => hs
  intro done r rest hsplit
  rw [List.map_append, List.map_singleton, ← List.append_assoc]
  refine executeRecord_schedule placed r.2 r.1 (List.Sublist.trans ?_ hsub)
  rw [recordPositions, hsplit, List.map_append, List.map_cons, List.append_assoc]
  refine List.Sublist.append_left (List.Sublist.append_left ?_ _) _
  exact List.cons_sublist_cons.mpr (List.nil_sublist _)

theorem follows_joinMoments {limit budget bytes : Nat} {held : Option InFlightParsedRecord}
    {queue : List InFlightParsedRecord}
    {log : List (Moment InFlightParsedRecord Bytes)}
    (h : Follows reservation limit budget log ⟨queue, bytes, held⟩) :
    Follows reservation limit budget (joinMoments held bytes queue ++ log)
      ⟨[], queue.foldl (fun bytes task => bytes - task.reservedPayloadBytes) bytes, held⟩ := by
  induction queue generalizing bytes log with
  | nil => exact h
  | cons task queue ih =>
    rw [joinMoments, List.append_assoc]
    exact ih (h.next (.joined task) rfl)

theorem mem_joinMoments {bytes : Nat} {held : Option InFlightParsedRecord}
    {queue : List InFlightParsedRecord} {m : Moment InFlightParsedRecord Bytes}
    (hm : m ∈ joinMoments held bytes queue) : m.after.held = held := by
  induction queue generalizing bytes with
  | nil => cases hm
  | cons task queue ih =>
    rw [joinMoments, List.mem_append, List.mem_singleton] at hm
    rcases hm with hm | rfl
    · exact ih hm
    · rfl

theorem submittedTasks_append (log log' : List (Moment InFlightParsedRecord Bytes)) :
    submittedTasks (log ++ log') = submittedTasks log ++ submittedTasks log' :=
  List.filterMap_append

theorem submittedTasks_joinMoments (held : Option InFlightParsedRecord) (bytes : Nat)
    (queue : List InFlightParsedRecord) : submittedTasks (joinMoments held bytes queue) = [] := by
  induction queue generalizing bytes with
  | nil => rfl
  | cons task queue ih =>
    rw [joinMoments, submittedTasks_append, ih]
    rfl

/-- What holds of the queue, and of what has happened to it, once the loop is left. -/
structure QueueEnded (env : ScanEnv)
    (k : Window InFlightParsedRecord × List (Moment InFlightParsedRecord Bytes)) : Prop where
  follows : QueueFollows env k
  empty : k.1.queue = []
  distinct : ((submittedTasks k.2).map InFlightParsedRecord.position).Nodup
  settled : k.1.held = none → ∀ m ∈ k.2,
    (∃ index task, m.event = .taken index task) ∨ m.after.held = none

theorem nodup_of_tasksOf {all : List (Nat × Nat)} {tasks : List InFlightParsedRecord}
    (hall : all.Nodup) (h : TasksOf all tasks) :
    (tasks.map InFlightParsedRecord.position).Nodup :=
  List.nodup_reverse.mp (hall.sublist h)

/-- Before anything was joined, only a drain holds a reservation. -/
theorem Scheduled.settled {tasks : List InFlightParsedRecord} {s : ExecState}
    (h : Scheduled env tasks s) : ∀ m ∈ s.moments,
      (∃ index task, m.event = .taken index task) ∨ m.after.held = none := by
  intro m hm
  have hsound := h.follows.moments m hm
  have hallows := hsound.allows
  rw [hsound.next]
  cases hevent : m.event with
  | submitted task =>
    rw [hevent] at hallows
    exact .inr hallows.1
  | taken index task => exact .inl ⟨index, task, rfl⟩
  | released task => exact .inr rfl
  | joined task =>
    have hmem : task ∈ joinedTasks s.moments :=
      List.mem_filterMap.mpr ⟨m, hm, by rw [hevent]⟩
    rw [h.joined] at hmem
    cases hmem
  | opened path =>
    rw [hevent] at hallows
    exact .inr hallows.1

theorem executePlans_schedule (order : List PlacedPlan)
    (hdistinct : (order.flatMap recordPositions).Nodup) :
    Triple (fun s => (s.window, s.moments) = ({}, [])) (executePlans readers env pick order)
      (fun _ s => QueueEnded env (s.window, s.moments) ∧ s.held = none ∧
        joinedTasks s.moments = [])
      fun e s => QueueEnded env (s.window, s.moments) ∧
        (s.held = none ∨ e = .failed .nonStandard) := by
  rw [executePlans]
  refine Triple.tryCatch (F := StoppedWithin env (order.flatMap recordPositions)) ?_ fun e => ?_
  · have hloop : Triple (Visited env []) (order.forM (executePlan readers env pick))
        (fun _ => Visited env (order.flatMap recordPositions))
        (StoppedWithin env (order.flatMap recordPositions)) := by
      refine Triple.forM (fun done => Visited env (done.flatMap recordPositions))
        fun done placed rest hsplit => ?_
      rw [List.flatMap_append, List.flatMap_singleton]
      refine executePlan_schedule placed ?_
      rw [hsplit, List.flatMap_append, List.flatMap_cons, ← List.append_assoc]
      exact List.sublist_append_left _ _
    refine Triple.bind (hloop.pre fun s hs => ?_) fun _ => ?_
    · rw [Prod.mk.injEq] at hs
      refine ⟨[], List.nil_sublist _, ⟨⟨?_, ?_, ?_⟩, ?_⟩⟩
      · rw [QueueFollows, hs.1, hs.2]
        exact .start
      · rw [hs.2]
        rfl
      · rw [hs.2]
        rfl
      · rw [show s.held = s.window.held from rfl, hs.1]
    refine Triple.of_exists fun tasks => Triple.of_pure fun htasks => ?_
    intro s hs
    refine ((drainQueueWhile_schedule (m := s.inFlight.length)
      (fun _ => length_pos_of_not_isEmpty) drainAndCheck_schedule).conseq (fun _ hs => hs)
      (fun _ s hs => ?_) fun e s hs => ⟨tasks, htasks, hs⟩) s ⟨hs, le_refl _⟩
    obtain ⟨⟨hb, -⟩, hbusy⟩ := hs
    have hempty : s.inFlight = [] := by simpa using hbusy
    refine ⟨⟨hb.follows, hempty, ?_, fun _ => hb.settled⟩, hb.held, hb.joined⟩
    rw [hb.submitted]
    exact nodup_of_tasksOf hdistinct htasks
  · refine Triple.seq (M := fun s => QueueEnded env (s.window, s.moments) ∧
      (s.held = none ∨ e = .failed .nonStandard)) (.modify fun s hs => ?_) (.throw fun _ hs => hs)
    obtain ⟨tasks, htasks, hstopped⟩ := hs
    refine ⟨⟨follows_joinMoments hstopped.follows, rfl, ?_, fun hheld m hm => ?_⟩, hstopped.held⟩
    · change ((submittedTasks (joinMoments _ _ _ ++ _)).map _).Nodup
      rw [submittedTasks_append, submittedTasks_joinMoments, List.nil_append, hstopped.submitted]
      exact nodup_of_tasksOf hdistinct htasks
    · rcases List.mem_append.mp hm with hm | hm
      · exact .inr ((mem_joinMoments hm).trans hheld)
      · exact hstopped.settled m hm

/-- The records of the plans that are read have distinct positions. -/
theorem nodup_recordPositions (plans : List SegmentPlan) (segmentIds : List Nat) :
    ((executionOrder (placedPlans plans segmentIds)).flatMap recordPositions).Nodup := by
  have hindices : ((placedPlans plans segmentIds).map PlacedPlan.planIndex).Nodup := by
    have hmap : (placedPlans plans segmentIds).map PlacedPlan.planIndex =
        (plans.zip segmentIds).zipIdx.map Prod.snd := by
      rw [placedPlans, List.map_map]
      rfl
    rw [hmap, List.zipIdx_map_snd]
    exact List.nodup_range'
  have horder :
      ((executionOrder (placedPlans plans segmentIds)).map PlacedPlan.planIndex).Nodup := by
    have hperm := (List.perm_insertionSort executesBefore
      ((placedPlans plans segmentIds).filter fun p => p.plan.change.isRead)).map
        PlacedPlan.planIndex
    exact hperm.nodup_iff.mpr (hindices.sublist (List.filter_sublist.map _))
  rw [List.nodup_flatMap]
  refine ⟨fun placed _ => ?_, ?_⟩
  · have hsnd : (recordPositions placed).map Prod.snd =
        placed.plan.records.zipIdx.map Prod.snd := by
      rw [recordPositions, List.map_map]
      rfl
    refine List.Nodup.of_map Prod.snd ?_
    rw [hsnd, List.zipIdx_map_snd]
    exact List.nodup_range'
  · refine (List.pairwise_map.mp horder).imp fun {p q} hne position hp hq => hne ?_
    obtain ⟨_, _, rfl⟩ := List.mem_map.mp hp
    obtain ⟨_, _, heq⟩ := List.mem_map.mp hq
    exact (congrArg Prod.fst heq).symm

/-- The queue of payloads in a run of the execution, whatever the plans are. -/
theorem executeScan_schedule (committed : Database) (plans : List SegmentPlan)
    (archiveGuards : List (Bytes × ArchiveScanGuard)) (sourceFingerprint : Bytes) :
    Triple (fun s => (s.window, s.moments) = ({}, []))
      (executeScan readers env pick committed plans archiveGuards sourceFingerprint)
      (fun _ s => QueueEnded env (s.window, s.moments) ∧ s.held = none ∧
        joinedTasks s.moments = [])
      fun e s => QueueEnded env (s.window, s.moments) ∧
        (s.held = none ∨ e = .failed .nonStandard) := by
  have hstart : ∀ (e : Exception) (s : ExecState), (s.window, s.moments) = ({}, []) →
      QueueEnded env (s.window, s.moments) ∧ (s.held = none ∨ e = .failed .nonStandard) := by
    intro e s hs
    rw [hs]
    refine ⟨⟨.start, rfl, List.nodup_nil, fun _ m hm => absurd hm List.not_mem_nil⟩, .inl ?_⟩
    rw [show s.held = s.window.held from rfl, (Prod.mk.inj hs).1]
  have hkeeps : ∀ {α : Type} {c : ExecM α} {Q : Window InFlightParsedRecord ×
      List (Moment InFlightParsedRecord Bytes) → Prop},
      Preserves (stillWatch Q) ExecState.watched c →
      Triple (fun s => Q (s.window, s.moments)) c (fun _ s => Q (s.window, s.moments))
        fun _ s => Q (s.window, s.moments) := fun h => h
  rw [executeScan]
  have hprepare := hkeeps (Q := (· = ({}, [])))
    (preserves_prepareCatalog (patient_still env) plans)
  refine (hprepare.error hstart).bind fun segmentIds => ?_
  have hexecution := hkeeps (Q := (· = ({}, []))) (preserves_prepareExecution
    (patient_still env) publishes_stillWatch plans committed)
  refine (hexecution.error hstart).bind fun _ => ?_
  refine (executePlans_schedule _ (nodup_recordPositions plans segmentIds)).bind fun _ => ?_
  have hfinish : Preserves (stillWatch fun k => QueueEnded env k ∧ k.1.held = none ∧
      joinedTasks k.2 = []) ExecState.watched (finishCatalog readers env sourceFingerprint plans
        archiveGuards (changedSegmentIds (placedPlans plans segmentIds))) :=
    preserves_finishCatalog patient_stillWatch publishes_stillWatch _ _ _ _
  refine ((hkeeps hfinish).error fun e s hs => ⟨hs.1, .inl hs.2.1⟩).bind fun _ => ?_
  refine Triple.bind (M := fun _ s => QueueEnded env (s.window, s.moments) ∧ s.held = none ∧
    joinedTasks s.moments = []) (.get fun _ hs => hs) fun _ => .pure fun _ hs => hs

/-- What a run of the execution, ended in `s`, did with the payloads. -/
structure PayloadsAccounted (env : ScanEnv) (s : ExecState) : Prop where
  follows : QueueFollows env (s.window, s.moments)
  /-- what is reserved is what the queued payloads need, and the one that is being drained -/
  reserved : ∀ m ∈ s.moments, m.after.reserved = (m.after.queue.map reservation).sum +
    (m.after.held.map reservation).getD 0
  /-- only a drain that has not ended holds a reservation outside the queue -/
  held : s.held = none → ∀ m ∈ s.moments,
    (∃ index task, m.event = .taken index task) ∨ m.after.held = none
  budget : ∀ m ∈ s.moments, m.after.reserved ≤ env.maxInFlightPayloadBytes
  limit : ∀ m ∈ s.moments, m.after.queue.length ≤ env.maxInFlightPayloads
  /-- no release is cut off at zero -/
  unclamped : ∀ m ∈ s.moments, ∀ task, m.event = .released task ∨ m.event = .joined task →
    task.reservedPayloadBytes ≤ m.before.reserved
  opened : ∀ m ∈ s.moments, ∀ path, m.event = .opened path → m.before.queue = []
  /-- every record that was submitted was drained or joined, once -/
  once : (submittedTasks s.moments).Perm (takenTasks s.moments ++ joinedTasks s.moments)
  distinct : ((submittedTasks s.moments).map InFlightParsedRecord.position).Nodup
  empty : s.inFlight = []

theorem QueueEnded.accounted {s : ExecState} (h : QueueEnded env (s.window, s.moments)) :
    PayloadsAccounted env s := by
  have hmoments := h.follows.moments
  refine ⟨h.follows, ?_, h.settled, ?_, ?_, ?_, ?_, ?_, h.distinct, h.empty⟩
  · exact fun m hm => (hmoments m hm).after.reserved
  · exact fun m hm => (hmoments m hm).after.budget
  · exact fun m hm => (hmoments m hm).after.limit
  · exact fun m hm task hevent => (hmoments m hm).size_le hevent
  · intro m hm path hevent
    have hallows := (hmoments m hm).allows
    rw [hevent] at hallows
    exact hallows.2
  · have hperm := h.follows.perm
    rw [h.empty, List.append_nil] at hperm
    exact hperm

/-- The queue of payloads in every run of the execution: for all plans, sizes and orders in which
the payloads become ready, and wherever an exception leaves it. -/
theorem payloads_accounted (readers : Readers) (env : ScanEnv) (pick : Nat → Nat)
    (committed : Database) (plans : List SegmentPlan)
    (archiveGuards : List (Bytes × ArchiveScanGuard)) (sourceFingerprint : Bytes) (world : World)
    (progress : Progress) :
    match executeScan readers env pick committed plans archiveGuards sourceFingerprint
      (.start world progress) with
    | .ok _ s => PayloadsAccounted env s ∧ s.held = none ∧ joinedTasks s.moments = [] ∧
        (submittedTasks s.moments).Perm (takenTasks s.moments) ∧
        (takenTasks s.moments).Perm (releasedTasks s.moments)
    | .error e s => PayloadsAccounted env s ∧ (s.held = none ∨ e = .failed .nonStandard) := by
  have h : Triple _ (executeScan readers env pick committed plans archiveGuards sourceFingerprint)
    _ _ := executeScan_schedule committed plans archiveGuards sourceFingerprint
  have hrun := h (.start world progress) rfl
  revert hrun
  cases executeScan readers env pick committed plans archiveGuards sourceFingerprint
    (.start world progress) with
  | error e s => exact fun hrun => ⟨hrun.1.accounted, hrun.2⟩
  | ok result s =>
    rintro ⟨hended, hheld, hjoined⟩
    have honce := hended.accounted.once
    have hreleased := hended.follows.released
    rw [hjoined, List.append_nil] at honce
    rw [show (s.window, s.moments).1.held = none from hheld] at hreleased
    exact ⟨hended.accounted, hheld, hjoined, honce, hreleased⟩

/-- What happened to the queue in a scan. -/
def momentsOf (readers : Readers) (env : ScanEnv) (pick : Nat → Nat) (world : World) :
    List (Moment InFlightParsedRecord Bytes) :=
  match planScan readers env world.database (.start env) with
  | .error _ _ => []
  | .ok sourceFingerprint s =>
    match executeScan readers env pick world.database s.plans s.archiveGuards sourceFingerprint
      (.start world s.progress) with
    | .ok _ s' => s'.moments
    | .error _ s' => s'.moments

/-- While a payload is drained, more is reserved than what the queued payloads need. -/
theorem reserved_ne_queued :
    ¬∀ m ∈ momentsOf sampleReaders firstEnv (fun _ => 0) emptyWorld,
      m.after.reserved = (m.after.queue.map reservation).sum := by
  decide +kernel

end Plans

end InpxWebReader.Scan
