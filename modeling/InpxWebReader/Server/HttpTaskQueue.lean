import InpxWebReader.Library.Runs
import InpxWebReader.Library.TaskLane

/-!
# The task queue of the HTTP server

A request waits in a bounded queue for one of the workers. A request that finds the queue full goes
to a lane of its own, with one slot and one worker, where it is answered as overloaded; one that
finds the slot taken as well is refused.

A step is a critical section of the source, the end of a task, or the decrement after it. What
`notify_one` and `notify_all` do is left to the waits: a worker that waits goes on in any step in
which its condition holds.
-/

namespace InpxWebReader.Server

open TaskLane

/-! ### The queue -/

/-- The limits of `SHttpTaskQueueState`; a bound of zero is no bound. -/
structure HttpQueueLimits where
  maxWorkers : Nat
  maxQueuedRequests : Nat
  maxWorkers_pos : 0 < maxWorkers
  maxWorkers_lt : maxWorkers < 2 ^ 64

/-- How a call of `enqueue` ends. -/
inductive Admission
  | queued
  | overloaded
  | rejected
  deriving DecidableEq

/-- A call of `enqueue`: whether it found the queue full, and how it ended. -/
structure EnqueueCall where
  full : Bool
  admission : Admission
  deriving DecidableEq

/-- How far the first call of `shutdown` has come. -/
inductive Shutdown
  | notCalled
  | joining
  | returned
  deriving DecidableEq

/-- `CHttpTaskQueue` with its `SHttpTaskQueueState`. A task is the number of the call of `enqueue`
that brought it. -/
structure HttpTaskQueue where
  jobs : Lane Nat
  overload : Lane Nat
  queuedRequests : Nat := 0
  activeWorkers : Nat := 0
  stopping : Bool := false
  shutdown : Shutdown := .notCalled
  calls : List EnqueueCall := []
  deriving DecidableEq

namespace HttpTaskQueue

def start (limits : HttpQueueLimits) : HttpTaskQueue where
  jobs := .ofIdle limits.maxWorkers
  overload := .ofIdle 1

def isFull (limits : HttpQueueLimits) (queue : HttpTaskQueue) : Bool :=
  0 < limits.maxQueuedRequests && limits.maxQueuedRequests ≤ queue.jobs.queue.length

/-- What `enqueue` decides. -/
def offer (limits : HttpQueueLimits) (queue : HttpTaskQueue) : Admission :=
  if queue.stopping then .rejected
  else if queue.isFull limits then
    if queue.overload.queue = [] then .overloaded else .rejected
  else .queued

def enqueue (limits : HttpQueueLimits) (queue : HttpTaskQueue) : HttpTaskQueue :=
  let task := queue.calls.length
  let called :=
    { queue with calls := queue.calls ++ [⟨queue.isFull limits, queue.offer limits⟩] }
  match queue.offer limits with
  | .rejected => called
  | .overloaded => { called with overload := queue.overload.push task }
  | .queued =>
    { called with
      jobs := queue.jobs.push task
      queuedRequests := (queue.jobs.push task).queue.length }

/-- The queue after a step of a worker of `RunWorker`, with the counters that the step sets. -/
def afterWorker (queue : HttpTaskQueue) (act : WorkerAct) (jobs : Lane Nat) : HttpTaskQueue :=
  match act with
  | .take =>
    { queue with
      jobs := jobs
      queuedRequests := jobs.queue.length
      activeWorkers := (queue.activeWorkers + 1) % 2 ^ 64 }
  | .finish | .exit => { queue with jobs := jobs }
  | .report =>
    { queue with jobs := jobs, activeWorkers := (queue.activeWorkers + 2 ^ 64 - 1) % 2 ^ 64 }

inductive Act
  | enqueue
  | worker (i : Nat) (act : WorkerAct)
  | overloadWorker (act : WorkerAct)
  | shutdown
  | join

/-- One step. `join` is the return of the first `shutdown`, which has joined every thread; later
calls return at once. -/
def step (limits : HttpQueueLimits) (queue : HttpTaskQueue) : Act → Option HttpTaskQueue
  | .enqueue => some (queue.enqueue limits)
  | .worker i act => (queue.jobs.step queue.stopping i act).map (queue.afterWorker act)
  | .overloadWorker act =>
    (queue.overload.step queue.stopping 0 act).map fun lane => { queue with overload := lane }
  | .shutdown =>
    if queue.stopping then some queue
    else some { queue with stopping := true, shutdown := .joining }
  | .join =>
    if queue.shutdown = .joining ∧ queue.jobs.AllExited ∧ queue.overload.AllExited then
      some { queue with shutdown := .returned }
    else none

/-- How the call of `enqueue` that brought the task ended. -/
def admission (queue : HttpTaskQueue) (task : Nat) : Option Admission :=
  queue.calls[task]?.map EnqueueCall.admission

/-! ### The invariant -/

structure Valid (limits : HttpQueueLimits) (queue : HttpTaskQueue) : Prop where
  workers : queue.jobs.workers.length = limits.maxWorkers
  overloadWorkers : queue.overload.workers.length = 1
  orderly : queue.jobs.Orderly queue.stopping
  overloadOrderly : queue.overload.Orderly queue.stopping
  keeps : queue.jobs.Keeps fun task => queue.admission task = some .queued
  overloadKeeps : queue.overload.Keeps fun task => queue.admission task = some .overloaded
  logged : ∀ call ∈ queue.calls,
    (call.admission = .overloaded ↔ call.admission ≠ .rejected ∧ call.full = true)
  bounded : 0 < limits.maxQueuedRequests → queue.jobs.queue.length ≤ limits.maxQueuedRequests
  slot : queue.overload.queue.length ≤ 1
  queued : queue.queuedRequests = queue.jobs.queue.length
  active : queue.activeWorkers = queue.jobs.busy
  joined : queue.shutdown = .returned → queue.jobs.AllExited ∧ queue.overload.AllExited
  stopped : queue.shutdown ≠ .notCalled → queue.stopping = true

variable {limits : HttpQueueLimits} {queue queue' : HttpTaskQueue}

theorem valid_start (limits : HttpQueueLimits) : Valid limits (start limits) where
  workers := List.length_replicate
  overloadWorkers := rfl
  orderly := .ofIdle _ _
  overloadOrderly := .ofIdle _ _
  keeps := .ofIdle _ fun task h => by cases h
  overloadKeeps := .ofIdle _ fun task h => by cases h
  logged := fun call h => absurd h List.not_mem_nil
  bounded := fun _ => Nat.zero_le _
  slot := Nat.zero_le _
  queued := rfl
  active := (weigh_ofIdle _ rfl).symm
  joined := fun h => by cases h
  stopped := fun h => absurd rfl h

/-! ### Steps -/

/-- The number of a call tells how it ended, whatever is called later. -/
theorem admission_append {calls : List EnqueueCall} (call : EnqueueCall) (task : Nat)
    (a : Admission) : ((calls ++ [call])[task]?).map EnqueueCall.admission = some a ↔
      calls[task]?.map EnqueueCall.admission = some a ∨
        task = calls.length ∧ call.admission = a := by
  rcases lt_trichotomy task calls.length with h | h | h
  · rw [List.getElem?_append_left h]
    simp [h.ne]
  · simp [h]
  · simp [List.getElem?_eq_none (show calls.length ≤ task by omega),
      List.getElem?_eq_none (show (calls ++ [call]).length ≤ task by rw [List.length_append, List.length_singleton]; omega), h.ne']

theorem calls_enqueue (limits : HttpQueueLimits) (queue : HttpTaskQueue) :
    (queue.enqueue limits).calls = queue.calls ++ [⟨queue.isFull limits, queue.offer limits⟩] := by
  simp only [enqueue]
  cases queue.offer limits <;> rfl

theorem admission_enqueue (task : Nat) (a : Admission) :
    (queue.enqueue limits).admission task = some a ↔
      queue.admission task = some a ∨ task = queue.calls.length ∧ queue.offer limits = a := by
  rw [admission, calls_enqueue, admission_append, admission]

theorem not_admission_length (queue : HttpTaskQueue) (a : Admission) :
    ¬queue.admission queue.calls.length = some a := by
  simp [admission]

theorem offer_eq_overloaded : queue.offer limits = .overloaded ↔
    queue.offer limits ≠ .rejected ∧ queue.isFull limits = true := by
  rw [offer]
  split_ifs <;> simp_all

theorem not_stopping_of_offer (h : queue.offer limits ≠ .rejected) : queue.stopping = false := by
  rw [offer] at h
  split_ifs at h <;> simp_all

theorem length_lt_of_offer (h : queue.offer limits = .queued) (hpos : 0 < limits.maxQueuedRequests) :
    queue.jobs.queue.length < limits.maxQueuedRequests := by
  have hfull : queue.isFull limits = false := by
    rw [offer] at h
    split_ifs at h
    simp_all
  simp only [isFull, hpos, decide_true, Bool.true_and, decide_eq_false_iff_not] at hfull
  omega

theorem slot_of_offer (h : queue.offer limits = .overloaded) : queue.overload.queue = [] := by
  rw [offer] at h
  split_ifs at h
  assumption

theorem Valid.logged_enqueue (hv : Valid limits queue) : ∀ call ∈ (queue.enqueue limits).calls,
    (call.admission = .overloaded ↔ call.admission ≠ .rejected ∧ call.full = true) := by
  intro call hcall
  rw [calls_enqueue, List.mem_append, List.mem_singleton] at hcall
  rcases hcall with hcall | rfl
  · exact hv.logged call hcall
  · exact offer_eq_overloaded

theorem Valid.not_returned (hv : Valid limits queue) (h : queue.stopping = false) :
    queue.shutdown = .notCalled := by
  by_contra hne
  rw [hv.stopped hne] at h
  cases h

theorem Valid.enqueue (hv : Valid limits queue) : Valid limits (queue.enqueue limits) := by
  have hlogged := hv.logged_enqueue
  have hnew := not_admission_length queue
  -- a lane that the call does not push to keeps the tasks it had
  have hother : ∀ (lane : Lane Nat) (a : Admission), queue.offer limits ≠ a →
      lane.Keeps (fun task => queue.admission task = some a) →
      lane.Keeps fun task => (queue.enqueue limits).admission task = some a := by
    intro lane a hne hk
    apply hk.congr
    intro task
    rw [admission_enqueue]
    simp [hne]
  have hpush : ∀ (lane : Lane Nat) (a : Admission), queue.offer limits = a →
      lane.Keeps (fun task => queue.admission task = some a) →
      (lane.push queue.calls.length).Keeps
        fun task => (queue.enqueue limits).admission task = some a := by
    intro lane a ha hk
    apply hk.push (hnew a)
    intro task
    rw [admission_enqueue]
    simp [ha]
  cases hoffer : queue.offer limits with
  | rejected =>
    have hkeeps := hother _ .queued (by simp [hoffer]) hv.keeps
    have hoverload := hother _ .overloaded (by simp [hoffer]) hv.overloadKeeps
    simp only [HttpTaskQueue.enqueue, hoffer] at hkeeps hoverload hlogged ⊢
    exact { hv with keeps := hkeeps, overloadKeeps := hoverload, logged := hlogged }
  | overloaded =>
    have hrunning : queue.stopping = false := not_stopping_of_offer (by rw [hoffer]; exact fun h => by cases h)
    have hkeeps := hother _ .queued (by simp [hoffer]) hv.keeps
    have hoverload := hpush _ .overloaded hoffer hv.overloadKeeps
    have horderly : (queue.overload.push queue.calls.length).Orderly queue.stopping := by
      have h := hv.overloadOrderly
      rw [hrunning] at h ⊢
      exact h.push _
    have hnot := hv.not_returned hrunning
    simp only [HttpTaskQueue.enqueue, hoffer] at hkeeps hoverload hlogged ⊢
    exact {
      hv with
      keeps := hkeeps
      overloadKeeps := hoverload
      logged := hlogged
      overloadOrderly := horderly
      slot := by simp [Lane.push, slot_of_offer hoffer]
      joined := fun h => by rw [hnot] at h; cases h }
  | queued =>
    have hrunning : queue.stopping = false := not_stopping_of_offer (by rw [hoffer]; exact fun h => by cases h)
    have hkeeps := hpush _ .queued hoffer hv.keeps
    have hoverload := hother _ .overloaded (by simp [hoffer]) hv.overloadKeeps
    have horderly : (queue.jobs.push queue.calls.length).Orderly queue.stopping := by
      have h := hv.orderly
      rw [hrunning] at h ⊢
      exact h.push _
    have hnot := hv.not_returned hrunning
    have hroom : ∀ hpos : 0 < limits.maxQueuedRequests,
        (queue.jobs.push queue.calls.length).queue.length ≤ limits.maxQueuedRequests := by
      intro hpos
      have := length_lt_of_offer hoffer hpos
      simp [Lane.push]
      omega
    simp only [HttpTaskQueue.enqueue, hoffer] at hkeeps hoverload hlogged ⊢
    exact {
      hv with
      keeps := hkeeps
      overloadKeeps := hoverload
      logged := hlogged
      orderly := horderly
      bounded := hroom
      queued := rfl
      joined := fun h => by rw [hnot] at h; cases h }

theorem Valid.worker (hv : Valid limits queue) {i : Nat} {act : WorkerAct} {jobs : Lane Nat}
    (h : queue.jobs.step queue.stopping i act = some jobs) :
    Valid limits (queue.afterWorker act jobs) := by
  have hworkers := length_workers_step h
  have hshorter := length_queue_step h
  have hjoined : queue.shutdown ≠ .returned := by
    intro hreturned
    rw [not_step_of_allExited (hv.joined hreturned).1] at h
    cases h
  have hbounded : 0 < limits.maxQueuedRequests → jobs.queue.length ≤ limits.maxQueuedRequests :=
    fun hpos => le_trans hshorter (hv.bounded hpos)
  have hbusy := busy_le jobs
  have hlt := limits.maxWorkers_lt
  have hcount := hv.workers
  have hactive := hv.active
  cases act with
  | take =>
    obtain ⟨task, rest, ht⟩ := take_eq_some h
    have hmore := busy_take ht
    exact {
      hv with
      workers := hworkers.trans hv.workers
      orderly := hv.orderly.step h
      keeps := hv.keeps.step h
      bounded := hbounded
      queued := rfl
      active := by simp only [afterWorker]; omega
      joined := fun hr => absurd hr hjoined }
  | finish =>
    obtain ⟨task, hf⟩ := finish_eq_some h
    exact {
      hv with
      workers := hworkers.trans hv.workers
      orderly := hv.orderly.step h
      keeps := hv.keeps.step h
      bounded := hbounded
      queued := by rw [hf.eq]; exact hv.queued
      active := hv.active.trans (busy_finish hf).symm
      joined := fun hr => absurd hr hjoined }
  | report =>
    obtain ⟨hphase, hjobs⟩ := report_eq_some h
    have hless := busy_report hphase
    rw [← hjobs] at hless
    exact {
      hv with
      workers := hworkers.trans hv.workers
      orderly := hv.orderly.step h
      keeps := hv.keeps.step h
      bounded := hbounded
      queued := by rw [hjobs]; exact hv.queued
      active := by simp only [afterWorker]; omega
      joined := fun hr => absurd hr hjoined }
  | exit =>
    have hl := exit_eq_some h
    exact {
      hv with
      workers := hworkers.trans hv.workers
      orderly := hv.orderly.step h
      keeps := hv.keeps.step h
      bounded := hbounded
      queued := by rw [hl.eq]; exact hv.queued
      active := by rw [hl.eq]; exact hv.active.trans (busy_exit hl.phase).symm
      joined := fun hr => absurd hr hjoined }

theorem Valid.overloadWorker (hv : Valid limits queue) {act : WorkerAct} {lane : Lane Nat}
    (h : queue.overload.step queue.stopping 0 act = some lane) :
    Valid limits { queue with overload := lane } := by
  have hjoined : queue.shutdown ≠ .returned := by
    intro hreturned
    rw [not_step_of_allExited (hv.joined hreturned).2] at h
    cases h
  exact {
    hv with
    overloadWorkers := (length_workers_step h).trans hv.overloadWorkers
    overloadOrderly := hv.overloadOrderly.step h
    overloadKeeps := hv.overloadKeeps.step h
    slot := le_trans (length_queue_step h) hv.slot
    joined := fun hr => absurd hr hjoined }

theorem Valid.step (hv : Valid limits queue) {act : Act} (h : queue.step limits act = some queue') :
    Valid limits queue' := by
  cases act with
  | enqueue =>
    cases h
    exact hv.enqueue
  | worker i act =>
    obtain ⟨jobs, hjobs, rfl⟩ := Option.map_eq_some_iff.mp h
    exact hv.worker hjobs
  | overloadWorker act =>
    obtain ⟨lane, hlane, rfl⟩ := Option.map_eq_some_iff.mp h
    exact hv.overloadWorker hlane
  | shutdown =>
    simp only [HttpTaskQueue.step] at h
    split at h
    · cases h
      exact hv
    · cases h
      exact {
        hv with
        orderly := hv.orderly.stop
        overloadOrderly := hv.overloadOrderly.stop
        joined := fun hr => by cases hr
        stopped := fun _ => rfl }
  | join =>
    obtain ⟨⟨hjoining, hjobs, hoverload⟩, h⟩ := Option.ite_none_right_eq_some.mp h
    cases h
    exact {
      hv with
      joined := fun _ => ⟨hjobs, hoverload⟩
      stopped := fun _ => hv.stopped (by simp [hjoining]) }

theorem valid_of_run {acts : List Act}
    (h : Runs.run (HttpTaskQueue.step limits) (start limits) acts = some queue) :
    Valid limits queue :=
  Runs.run_invariant (fun _ _ _ hv hstep => hv.step hstep) h (valid_start limits)

/-! ### Whole runs -/

/-- The call of `enqueue` that brought the task succeeded. -/
def Accepted (queue : HttpTaskQueue) (task : Nat) : Prop :=
  queue.admission task = some .queued ∨ queue.admission task = some .overloaded

instance (queue : HttpTaskQueue) : DecidablePred queue.Accepted :=
  fun task => inferInstanceAs (Decidable (queue.admission task = some .queued ∨
    queue.admission task = some .overloaded))

def timesRun (queue : HttpTaskQueue) (task : Nat) : Nat :=
  queue.jobs.finished.count task + queue.overload.finished.count task

/-- The task is being run or was run. -/
def Ran (queue : HttpTaskQueue) (task : Nat) : Prop :=
  (task ∈ queue.jobs.running ∨ task ∈ queue.jobs.finished) ∨
    (task ∈ queue.overload.running ∨ task ∈ queue.overload.finished)

/-- No task is lost or run twice, and the counters count. -/
structure Accounts (limits : HttpQueueLimits) (queue : HttpTaskQueue) : Prop where
  once : queue.shutdown = .returned →
    ∀ task, queue.timesRun task = if queue.Accepted task then 1 else 0
  refused : ∀ task, ¬queue.Accepted task → ¬queue.Ran task
  overloaded : ∀ task call, queue.calls[task]? = some call →
    (0 < queue.overload.traces task ↔ call.admission ≠ .rejected ∧ call.full = true)
  bounded : 0 < limits.maxQueuedRequests → queue.jobs.queue.length ≤ limits.maxQueuedRequests
  slot : queue.overload.queue.length ≤ 1
  counters : Phase.ended ∉ queue.jobs.workers →
    queue.queuedRequests = queue.jobs.queue.length ∧
      queue.activeWorkers = queue.jobs.running.length

theorem Valid.once (hv : Valid limits queue) (h : queue.shutdown = .returned) (task : Nat) :
    queue.timesRun task = if queue.Accepted task then 1 else 0 := by
  obtain ⟨hjobs, hoverload⟩ := hv.joined h
  have hpos := limits.maxWorkers_pos
  have hworkers := hv.workers
  have hone := hv.overloadWorkers
  have hran := hv.keeps.ran hv.orderly hjobs (List.ne_nil_of_length_pos (by omega)) task
  have hran' := hv.overloadKeeps.ran hv.overloadOrderly hoverload
    (List.ne_nil_of_length_pos (by omega)) task
  cases hadmission : queue.admission task with
  | none => simp [timesRun, hran, hran', Accepted, hadmission]
  | some a => cases a <;> simp [timesRun, hran, hran', Accepted, hadmission]

theorem Valid.refused (hv : Valid limits queue) {task : Nat} (h : ¬queue.Accepted task) :
    ¬queue.Ran task := by
  rintro (hjobs | hoverload)
  · exact h (Or.inl (hv.keeps.admitted hjobs))
  · exact h (Or.inr (hv.overloadKeeps.admitted hoverload))

theorem Valid.overloaded (hv : Valid limits queue) {task : Nat} {call : EnqueueCall}
    (h : queue.calls[task]? = some call) :
    0 < queue.overload.traces task ↔ call.admission ≠ .rejected ∧ call.full = true := by
  have hle := (hv.overloadKeeps task).1
  have hiff : queue.overload.traces task = 1 ↔ queue.admission task = some .overloaded :=
    (hv.overloadKeeps task).2
  have hadmission : queue.admission task = some call.admission := by
    rw [admission, h]
    rfl
  rw [← hv.logged call (List.mem_of_getElem? h)]
  rw [hadmission, Option.some_inj] at hiff
  rw [← hiff]
  omega

theorem accounts_of_run {acts : List Act}
    (h : Runs.run (HttpTaskQueue.step limits) (start limits) acts = some queue) :
    Accounts limits queue := by
  have hv := valid_of_run h
  exact {
    once := hv.once
    refused := fun task => hv.refused
    overloaded := fun task call => hv.overloaded
    bounded := hv.bounded
    slot := hv.slot
    counters := fun hended => ⟨hv.queued, hv.active.trans (busy_eq_length_running hended)⟩ }

end HttpTaskQueue

end InpxWebReader.Server
