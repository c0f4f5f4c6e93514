import InpxWebReader.Server.HttpTaskQueue

/-!
# The backend executor

One worker runs the operations on the catalog in the order in which they were submitted. A
submission that finds the queue at its bound is refused, as is one to an executor that is being
destroyed.
-/

namespace InpxWebReader.Server

open TaskLane

/-- How a call of `Submit` ends: with a future, with `CBackendOverloadError`, or with the exception
of a stopped executor. -/
inductive Submission
  | accepted
  | overload
  | stopped
  deriving DecidableEq

/-- `CBackendExecutor`. A task is the number of the call of `Submit` that brought it. -/
structure BackendExecutor where
  tasks : Lane Nat
  activeOperations : Nat := 0
  stopping : Bool := false
  destruction : Shutdown := .notCalled
  submissions : List Submission := []
  deriving DecidableEq

namespace BackendExecutor

def start : BackendExecutor where
  tasks := .ofIdle 1

/-- What `Submit` decides. -/
def offer (maxQueueDepth : Nat) (executor : BackendExecutor) : Submission :=
  if executor.stopping then .stopped
  else if maxQueueDepth ≤ executor.tasks.queue.length then .overload
  else .accepted

def submit (maxQueueDepth : Nat) (executor : BackendExecutor) : BackendExecutor :=
  let submitted :=
    { executor with submissions := executor.submissions ++ [executor.offer maxQueueDepth] }
  match executor.offer maxQueueDepth with
  | .accepted => { submitted with tasks := executor.tasks.push executor.submissions.length }
  | .overload | .stopped => submitted

/-- The executor after a step of its worker in `Run`. -/
def afterWorker (executor : BackendExecutor) (act : WorkerAct) (tasks : Lane Nat) :
    BackendExecutor :=
  match act with
  | .take =>
    { executor with tasks := tasks, activeOperations := (executor.activeOperations + 1) % 2 ^ 64 }
  | .finish | .exit => { executor with tasks := tasks }
  | .report =>
    { executor with
      tasks := tasks
      activeOperations :=
        if 0 < executor.activeOperations then executor.activeOperations - 1
        else executor.activeOperations }

inductive Act
  | submit
  | worker (act : WorkerAct)
  | destroy
  | join

/-- One step. The destructor is called once, and `join` is its return. -/
def step (maxQueueDepth : Nat) (executor : BackendExecutor) : Act → Option BackendExecutor
  | .submit => some (executor.submit maxQueueDepth)
  | .worker act =>
    (executor.tasks.step executor.stopping 0 act).map (executor.afterWorker act)
  | .destroy =>
    if executor.destruction = .notCalled then
      some { executor with stopping := true, destruction := .joining }
    else none
  | .join =>
    if executor.destruction = .joining ∧ executor.tasks.AllExited then
      some { executor with destruction := .returned }
    else none

/-- The submission of the task was accepted. -/
def Accepted (executor : BackendExecutor) (task : Nat) : Prop :=
  executor.submissions[task]? = some .accepted

instance (executor : BackendExecutor) : DecidablePred executor.Accepted :=
  fun task => inferInstanceAs (Decidable (executor.submissions[task]? = some .accepted))

/-! ### The invariant -/

structure Valid (maxQueueDepth : Nat) (executor : BackendExecutor) : Prop where
  workers : executor.tasks.workers.length = 1
  orderly : executor.tasks.Orderly executor.stopping
  keeps : executor.tasks.Keeps executor.Accepted
  bounded : executor.tasks.queue.length ≤ maxQueueDepth
  active : executor.activeOperations = executor.tasks.busy
  joined : executor.destruction = .returned → executor.tasks.AllExited
  stopped : executor.destruction ≠ .notCalled → executor.stopping = true

variable {maxQueueDepth : Nat} {executor executor' : BackendExecutor}

theorem valid_start (maxQueueDepth : Nat) : Valid maxQueueDepth start where
  workers := rfl
  orderly := .ofIdle _ _
  keeps := .ofIdle _ fun task h => by cases h
  bounded := Nat.zero_le _
  active := rfl
  joined := fun h => by cases h
  stopped := fun h => absurd rfl h

theorem accepted_append {submissions : List Submission} (submission : Submission) (task : Nat) :
    (submissions ++ [submission])[task]? = some .accepted ↔
      submissions[task]? = some .accepted ∨
        task = submissions.length ∧ submission = .accepted := by
  rcases lt_trichotomy task submissions.length with h | h | h
  · rw [List.getElem?_append_left h]
    simp [h.ne]
  · simp [h]
  · have hlong : (submissions ++ [submission]).length ≤ task := by
      rw [List.length_append, List.length_singleton]
      omega
    rw [List.getElem?_eq_none h.le, List.getElem?_eq_none hlong]
    simp [h.ne']

/-- What a submission leaves alone, and what it logs. -/
theorem submit_frame (maxQueueDepth : Nat) (executor : BackendExecutor) :
    (executor.submit maxQueueDepth).stopping = executor.stopping ∧
    (executor.submit maxQueueDepth).tasks.finished = executor.tasks.finished ∧
    (executor.submit maxQueueDepth).submissions =
      executor.submissions ++ [executor.offer maxQueueDepth] := by
  simp only [BackendExecutor.submit]
  split <;> exact ⟨rfl, rfl, rfl⟩

theorem afterWorker_frame (executor : BackendExecutor) (act : WorkerAct) (tasks : Lane Nat) :
    (executor.afterWorker act tasks).stopping = executor.stopping ∧
    (executor.afterWorker act tasks).tasks = tasks ∧
    (executor.afterWorker act tasks).submissions = executor.submissions := by
  cases act <;> exact ⟨rfl, rfl, rfl⟩

theorem Valid.submit (hv : Valid maxQueueDepth executor) :
    Valid maxQueueDepth (executor.submit maxQueueDepth) := by
  have hnew : ¬executor.Accepted executor.submissions.length := by
    simp [Accepted]
  by_cases hoffer : executor.offer maxQueueDepth = .accepted
  · have hrunning : executor.stopping = false := by
      rw [offer] at hoffer
      split_ifs at hoffer
      simp_all
    have hroom : executor.tasks.queue.length < maxQueueDepth := by
      rw [offer] at hoffer
      split_ifs at hoffer
      omega
    have horderly : (executor.tasks.push executor.submissions.length).Orderly executor.stopping := by
      have h := hv.orderly
      rw [hrunning] at h ⊢
      exact h.push _
    have hnot : executor.destruction = .notCalled := by
      by_contra hne
      rw [hv.stopped hne] at hrunning
      cases hrunning
    simp only [BackendExecutor.submit, hoffer]
    exact {
      hv with
      keeps := hv.keeps.push hnew fun task => (accepted_append _ task).trans (by simp [Accepted])
      orderly := horderly
      bounded := by simp [Lane.push]; omega
      joined := fun h => by rw [hnot] at h; cases h }
  · have hsubmit : executor.submit maxQueueDepth =
        { executor with submissions := executor.submissions ++ [executor.offer maxQueueDepth] } := by
      simp only [BackendExecutor.submit]
      split
      · rename_i h
        exact absurd h hoffer
      · rfl
      · rfl
    rw [hsubmit]
    exact {
      hv with
      keeps := hv.keeps.congr fun task => (accepted_append _ task).trans (by simp [hoffer, Accepted]) }

theorem Valid.worker (hv : Valid maxQueueDepth executor) {act : WorkerAct} {tasks : Lane Nat}
    (h : executor.tasks.step executor.stopping 0 act = some tasks) :
    Valid maxQueueDepth (executor.afterWorker act tasks) := by
  have hworkers := (length_workers_step h).trans hv.workers
  have hbounded := le_trans (length_queue_step h) hv.bounded
  have hjoined : executor.destruction ≠ .returned := by
    intro hreturned
    rw [not_step_of_allExited (hv.joined hreturned)] at h
    cases h
  have hbusy := busy_le tasks
  have hactive := hv.active
  cases act with
  | take =>
    obtain ⟨task, rest, ht⟩ := take_eq_some h
    have hmore := busy_take ht
    exact {
      hv with
      workers := hworkers
      orderly := hv.orderly.step h
      keeps := hv.keeps.step h
      bounded := hbounded
      active := by simp only [afterWorker]; omega
      joined := fun hr => absurd hr hjoined }
  | finish =>
    obtain ⟨task, hf⟩ := finish_eq_some h
    exact {
      hv with
      workers := hworkers
      orderly := hv.orderly.step h
      keeps := hv.keeps.step h
      bounded := hbounded
      active := hv.active.trans (busy_finish hf).symm
      joined := fun hr => absurd hr hjoined }
  | report =>
    obtain ⟨hphase, htasks⟩ := report_eq_some h
    have hless := busy_report hphase
    rw [← htasks] at hless
    exact {
      hv with
      workers := hworkers
      orderly := hv.orderly.step h
      keeps := hv.keeps.step h
      bounded := hbounded
      active := by simp only [afterWorker]; rw [if_pos (by omega)]; omega
      joined := fun hr => absurd hr hjoined }
  | exit =>
    have hl := exit_eq_some h
    exact {
      hv with
      workers := hworkers
      orderly := hv.orderly.step h
      keeps := hv.keeps.step h
      bounded := hbounded
      active := by rw [hl.eq]; exact hv.active.trans (busy_exit hl.phase).symm
      joined := fun hr => absurd hr hjoined }

theorem Valid.step (hv : Valid maxQueueDepth executor) {act : Act}
    (h : executor.step maxQueueDepth act = some executor') : Valid maxQueueDepth executor' := by
  cases act with
  | submit =>
    cases h
    exact hv.submit
  | worker act =>
    obtain ⟨tasks, htasks, rfl⟩ := Option.map_eq_some_iff.mp h
    exact hv.worker htasks
  | destroy =>
    obtain ⟨_, h⟩ := Option.ite_none_right_eq_some.mp h
    cases h
    exact {
      hv with
      orderly := hv.orderly.stop
      joined := fun hr => by cases hr
      stopped := fun _ => rfl }
  | join =>
    obtain ⟨⟨hjoining, htasks⟩, h⟩ := Option.ite_none_right_eq_some.mp h
    cases h
    exact {
      hv with
      joined := fun _ => htasks
      stopped := fun _ => hv.stopped (by simp [hjoining]) }

theorem valid_of_run {acts : List Act}
    (h : Runs.run (BackendExecutor.step maxQueueDepth) start acts = some executor) :
    Valid maxQueueDepth executor :=
  Runs.run_invariant (fun _ _ _ hv hstep => hv.step hstep) h (valid_start maxQueueDepth)

/-! ### Whole runs -/

/-- No operation is lost or run twice, and the metrics count. -/
structure Accounts (maxQueueDepth : Nat) (executor : BackendExecutor) : Prop where
  once : executor.destruction = .returned →
    ∀ task, executor.tasks.finished.count task = if executor.Accepted task then 1 else 0
  refused : ∀ task, ¬executor.Accepted task →
    task ∉ executor.tasks.running ∧ task ∉ executor.tasks.finished
  bounded : executor.tasks.queue.length ≤ maxQueueDepth
  counters : Phase.ended ∉ executor.tasks.workers →
    executor.activeOperations = executor.tasks.running.length

theorem accounts_of_run {acts : List Act}
    (h : Runs.run (BackendExecutor.step maxQueueDepth) start acts = some executor) :
    Accounts maxQueueDepth executor := by
  have hv := valid_of_run h
  have hworkers := hv.workers
  exact {
    once := fun hreturned task => hv.keeps.ran hv.orderly (hv.joined hreturned)
      (List.ne_nil_of_length_pos (by omega)) task
    refused := fun task hrefused => ⟨fun hmem => hrefused (hv.keeps.admitted (Or.inl hmem)),
      fun hmem => hrefused (hv.keeps.admitted (Or.inr hmem))⟩
    bounded := hv.bounded
    counters := fun hended => hv.active.trans (busy_eq_length_running hended) }

end BackendExecutor

/-- In every run of the task queue and of the executor, no accepted task is lost or run twice. -/
theorem tasks_run_once :
    (∀ (limits : HttpQueueLimits) (acts : List HttpTaskQueue.Act) (queue : HttpTaskQueue),
      Runs.run (HttpTaskQueue.step limits) (HttpTaskQueue.start limits) acts = some queue →
        HttpTaskQueue.Accounts limits queue) ∧
    ∀ (maxQueueDepth : Nat) (acts : List BackendExecutor.Act) (executor : BackendExecutor),
      Runs.run (BackendExecutor.step maxQueueDepth) BackendExecutor.start acts = some executor →
        BackendExecutor.Accounts maxQueueDepth executor :=
  ⟨fun _ _ _ h => HttpTaskQueue.accounts_of_run h,
    fun _ _ _ h => BackendExecutor.accounts_of_run h⟩

/-- One worker, and room for one request. -/
def oneWorker : HttpQueueLimits where
  maxWorkers := 1
  maxQueuedRequests := 1
  maxWorkers_pos := by decide
  maxWorkers_lt := by decide

/-- Two requests are queued, the third is overloaded, the fourth finds the slot taken and the fifth
comes too late. -/
def fiveRequests : List HttpTaskQueue.Act :=
  [.enqueue, .worker 0 .take, .enqueue, .enqueue, .enqueue, .shutdown, .enqueue,
    .overloadWorker .take, .worker 0 .finish, .worker 0 .report, .worker 0 .take,
    .overloadWorker .finish, .overloadWorker .report, .overloadWorker .exit, .worker 0 .finish,
    .worker 0 .report, .worker 0 .exit, .join]

theorem fiveRequests_run_once : ∃ queue,
    Runs.run (HttpTaskQueue.step oneWorker) (HttpTaskQueue.start oneWorker) fiveRequests =
      some queue ∧
    (List.range 5).map queue.timesRun = [1, 1, 1, 0, 0] := by
  have hrun : (Runs.run (HttpTaskQueue.step oneWorker) (HttpTaskQueue.start oneWorker)
      fiveRequests).map (fun queue => (queue.shutdown, queue.calls.map EnqueueCall.admission)) =
      some (.returned, [.queued, .queued, .overloaded, .rejected, .rejected]) := by
    decide
  obtain ⟨queue, hqueue, hends⟩ := Option.map_eq_some_iff.mp hrun
  obtain ⟨hreturned, hcalls⟩ := Prod.mk.inj hends
  have honce := (tasks_run_once.1 oneWorker fiveRequests queue hqueue).once hreturned
  refine ⟨queue, hqueue, ?_⟩
  have hadmission : ∀ task, queue.admission task =
      [Admission.queued, .queued, .overloaded, .rejected, .rejected][task]? := by
    intro task
    rw [← hcalls, List.getElem?_map]
    rfl
  simp [List.range, List.range.loop, honce, HttpTaskQueue.Accepted, hadmission]

end InpxWebReader.Server
