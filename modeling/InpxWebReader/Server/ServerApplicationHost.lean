import InpxWebReader.Server.BackendExecutor

/-!
# The application host

The host owns the catalog application. Requests run on the backend executor and use the application
if it is still there; downloads use it from threads of their own, counted while they do. `Close`
turns new callers away, waits for the downloads, and submits the release of the application to the
executor.

The submission is refused when the queue of the executor is full, and `Close` then returns without
a release: `closes_iff_room` says that this is all that can go wrong.
-/

namespace InpxWebReader.Server

open TaskLane

/-- What a task of the executor does with the application. -/
inductive Operation
  | request
  | release
  deriving DecidableEq

/-- How far the `Close` that found the host open has come. -/
inductive Closing
  | notCalled
  | waiting
  | submitting
  | awaiting (task : Nat)
  | returned
  deriving DecidableEq

/-- `CServerApplicationHost`. Besides its members there are the requests that have passed
`EnsureOpen` and not yet submitted their task, the download that holds the mutex in
`BeginDownloadOperation`, the downloads that have begun and not ended, and, for every use of the
application so far, whether it was still there. -/
structure ServerApplicationHost where
  executor : BackendExecutor := .start
  operations : List Operation := []
  application : Bool := true
  isOpen : Bool := true
  checkedRequests : Nat := 0
  beginning : Bool := false
  activeDownloadOperations : Nat := 0
  downloads : Nat := 0
  closing : Closing := .notCalled
  uses : List Bool := []
  deriving DecidableEq

namespace ServerApplicationHost

/-- A task is submitted to the executor. -/
def submit (maxQueueDepth : Nat) (host : ServerApplicationHost) (operation : Operation) :
    ServerApplicationHost :=
  { host with
    executor := host.executor.submit maxQueueDepth
    operations := host.operations ++ [operation] }

def perform (host : ServerApplicationHost) : Option Operation → ServerApplicationHost
  | some .request => if host.application then { host with uses := host.uses ++ [true] } else host
  | some .release => { host with application := false }
  | none => host

/-- The body of the task that a step of the worker ends. -/
def performed (host : ServerApplicationHost) : WorkerAct → ServerApplicationHost
  | .finish =>
    match (host.executor.tasks.workers[0]? : Option (Phase Nat)) with
    | some (.running task) => host.perform host.operations[task]?
    | _ => host
  | .take | .report | .exit => host

inductive Act
  | ensureOpen
  | submitRequest
  | worker (act : WorkerAct)
  | beginDownload
  | countDownload
  | useApplication
  | endDownload
  | close
  | downloadsFinished
  | submitRelease
  | closeReturns
  deriving DecidableEq

/-- One step. The check and the count of `BeginDownloadOperation` are steps of their own, under one
lock, as `Close` stores `m_isOpen` without it. -/
def step (maxQueueDepth : Nat) (host : ServerApplicationHost) :
    Act → Option ServerApplicationHost
  | .ensureOpen =>
    if host.isOpen then some { host with checkedRequests := host.checkedRequests + 1 }
    else some host
  | .submitRequest =>
    if 0 < host.checkedRequests then
      some { host.submit maxQueueDepth .request with
        checkedRequests := host.checkedRequests - 1 }
    else none
  | .worker act =>
    (host.executor.step maxQueueDepth (.worker act)).map fun executor =>
      { host.performed act with executor := executor }
  | .beginDownload =>
    if host.beginning then none
    else if host.isOpen && host.application then some { host with beginning := true }
    else some host
  | .countDownload =>
    if host.beginning then
      some { host with
        beginning := false
        activeDownloadOperations := host.activeDownloadOperations + 1
        downloads := host.downloads + 1 }
    else none
  | .useApplication =>
    if 0 < host.downloads then some { host with uses := host.uses ++ [host.application] } else none
  | .endDownload =>
    if 0 < host.downloads ∧ host.beginning = false then
      some { host with
        activeDownloadOperations :=
          if 0 < host.activeDownloadOperations then host.activeDownloadOperations - 1
          else host.activeDownloadOperations
        downloads := host.downloads - 1 }
    else none
  | .close =>
    if host.isOpen then some { host with isOpen := false, closing := .waiting } else some host
  | .downloadsFinished =>
    if host.closing = .waiting ∧ host.beginning = false ∧ host.activeDownloadOperations = 0 then
      some { host with closing := .submitting }
    else none
  | .submitRelease =>
    if host.closing = .submitting then
      if host.executor.offer maxQueueDepth = .accepted then
        some { host.submit maxQueueDepth .release with
          closing := .awaiting host.executor.submissions.length }
      else some { host.submit maxQueueDepth .release with closing := .returned }
    else none
  | .closeReturns =>
    match host.closing with
    | .awaiting task =>
      if task ∈ host.executor.tasks.finished then some { host with closing := .returned } else none
    | _ => none

/-- An accepted task that releases the application. -/
def Releases (host : ServerApplicationHost) (task : Nat) : Prop :=
  host.operations[task]? = some .release ∧ host.executor.Accepted task

/-- The application is there and nothing is going to release it. -/
def Standing (host : ServerApplicationHost) : Prop :=
  host.application = true ∧ ∀ task, ¬host.Releases task

/-! ### The invariant -/

structure Valid (maxQueueDepth : Nat) (host : ServerApplicationHost) : Prop where
  executor : BackendExecutor.Valid maxQueueDepth host.executor
  running : host.executor.stopping = false
  aligned : host.operations.length = host.executor.submissions.length
  opened : host.isOpen = true ↔ host.closing = .notCalled
  counted : host.activeDownloadOperations = host.downloads
  begun : host.beginning = true ∨ 0 < host.downloads →
    host.closing = .notCalled ∨ host.closing = .waiting
  standing : host.closing = .notCalled ∨ host.closing = .waiting ∨ host.closing = .submitting →
    host.Standing
  awaited : ∀ task, host.closing = .awaiting task →
    (∀ t, host.Releases t ↔ t = task) ∧
      (host.application = false ↔ task ∈ host.executor.tasks.finished)
  used : ∀ alive ∈ host.uses, alive = true

variable {maxQueueDepth : Nat} {host host' : ServerApplicationHost}

theorem valid_opened (maxQueueDepth : Nat) : Valid maxQueueDepth {} where
  executor := BackendExecutor.valid_start maxQueueDepth
  running := rfl
  aligned := rfl
  opened := by simp
  counted := rfl
  begun := by simp
  standing := fun _ => ⟨rfl, fun task h => by cases h.1⟩
  awaited := fun task h => by cases h
  used := fun alive h => by cases h

/-- A submission adds a task that releases the application only if it is accepted as one. -/
theorem releases_submit (hv : Valid maxQueueDepth host) (operation : Operation) (task : Nat) :
    (host.submit maxQueueDepth operation).Releases task ↔ host.Releases task ∨
      task = host.executor.submissions.length ∧ operation = .release ∧
        host.executor.offer maxQueueDepth = .accepted := by
  have haligned := hv.aligned
  have hsubmissions := (BackendExecutor.submit_frame maxQueueDepth host.executor).2.2
  have haccepted : (host.executor.submit maxQueueDepth).Accepted task ↔
      host.executor.Accepted task ∨ task = host.executor.submissions.length ∧
        host.executor.offer maxQueueDepth = .accepted := by
    rw [BackendExecutor.Accepted, hsubmissions, BackendExecutor.accepted_append]
    rfl
  show (host.operations ++ [operation])[task]? = some .release ∧
    (host.executor.submit maxQueueDepth).Accepted task ↔ _
  rw [haccepted]
  rcases lt_trichotomy task host.operations.length with h | h | h
  · rw [List.getElem?_append_left h]
    simp [Releases, (show task ≠ host.executor.submissions.length by omega)]
  · simp [Releases, BackendExecutor.Accepted, h, haligned]
  · have hlong : (host.operations ++ [operation]).length ≤ task := by
      rw [List.length_append, List.length_singleton]
      omega
    simp [Releases, List.getElem?_eq_none hlong, List.getElem?_eq_none h.le]
    omega

theorem standing_of_releases (h : host.Standing) (happlication : host'.application = host.application)
    (hreleases : ∀ task, host'.Releases task ↔ host.Releases task) : host'.Standing :=
  ⟨happlication.trans h.1, fun task ht => h.2 task ((hreleases task).mp ht)⟩

/-- A request is submitted, whatever becomes of it. -/
theorem Valid.submitRequest (hv : Valid maxQueueDepth host) :
    Valid maxQueueDepth (host.submit maxQueueDepth .request) := by
  obtain ⟨hstopping, hfinished, hsubmissions⟩ :=
    BackendExecutor.submit_frame maxQueueDepth host.executor
  have hreleases : ∀ task, (host.submit maxQueueDepth .request).Releases task ↔
      host.Releases task := by
    intro task
    rw [releases_submit hv]
    simp
  have haligned := hv.aligned
  exact {
    executor := hv.executor.submit
    running := hstopping.trans hv.running
    aligned := by simp [submit, hsubmissions, haligned]
    opened := hv.opened
    counted := hv.counted
    begun := hv.begun
    standing := fun h => standing_of_releases (hv.standing h) rfl hreleases
    awaited := fun task h =>
      ⟨fun t => (hreleases t).trans ((hv.awaited task h).1 t), by
        rw [show (host.submit maxQueueDepth .request).executor.tasks.finished =
          host.executor.tasks.finished from hfinished]
        exact (hv.awaited task h).2⟩
    used := hv.used }

theorem Valid.submitRelease (hv : Valid maxQueueDepth host) (hclosing : host.closing = .submitting)
    {closing : Closing}
    (h : closing = if host.executor.offer maxQueueDepth = .accepted then
      .awaiting host.executor.submissions.length else .returned) :
    Valid maxQueueDepth { host.submit maxQueueDepth .release with closing := closing } := by
  obtain ⟨hstopping, hfinished, hsubmissions⟩ :=
    BackendExecutor.submit_frame maxQueueDepth host.executor
  have haligned := hv.aligned
  obtain ⟨happlication, hnone⟩ := hv.standing (Or.inr (Or.inr hclosing))
  have hidle : ¬(host.beginning = true ∨ 0 < host.downloads) := by
    intro hbegun
    have := hv.begun hbegun
    simp [hclosing] at this
  have hclosed : ¬host.isOpen = true := by
    rw [hv.opened, hclosing]
    exact Closing.noConfusion
  have hafter : closing ≠ .notCalled ∧ closing ≠ .waiting ∧ closing ≠ .submitting := by
    rw [h]
    split <;> simp
  exact {
    executor := hv.executor.submit
    running := hstopping.trans hv.running
    aligned := by simp [submit, hsubmissions, haligned]
    opened := iff_of_false hclosed hafter.1
    counted := hv.counted
    begun := fun hbegun => absurd hbegun hidle
    standing := fun hpending => by
      rcases hpending with hc | hc | hc
      · exact absurd hc hafter.1
      · exact absurd hc hafter.2.1
      · exact absurd hc hafter.2.2
    awaited := fun task hc => by
      rw [h] at hc
      split at hc
      · rename_i hoffer
        have htask : task = host.executor.submissions.length := (Closing.awaiting.inj hc).symm
        constructor
        · intro t
          show (host.submit maxQueueDepth .release).Releases t ↔ t = task
          rw [releases_submit hv, htask]
          simp [hnone t, hoffer]
        · -- the task is new, so it has not run yet
          have hnew : task ∉ (host.executor.submit maxQueueDepth).tasks.finished := by
            intro hmem
            rw [hfinished] at hmem
            have haccepted := hv.executor.keeps.admitted (Or.inr hmem)
            rw [BackendExecutor.Accepted, htask] at haccepted
            simp at haccepted
          exact iff_of_false (by simp [submit, happlication]) hnew
      · cases hc
    used := hv.used }

/-- A step of the worker that ends no task changes the executor only. -/
theorem Valid.quietWorker (hv : Valid maxQueueDepth host) {act : WorkerAct} (hne : act ≠ .finish)
    {tasks : Lane Nat}
    (h : host.executor.tasks.step host.executor.stopping 0 act = some tasks) :
    Valid maxQueueDepth { host with executor := host.executor.afterWorker act tasks } := by
  obtain ⟨hstopping, htasks, hsubmissions⟩ := host.executor.afterWorker_frame act tasks
  have hreleases : ∀ task,
      Releases { host with executor := host.executor.afterWorker act tasks } task ↔
        host.Releases task := by
    intro task
    simp [Releases, BackendExecutor.Accepted, hsubmissions]
  exact {
    executor := hv.executor.worker h
    running := hstopping.trans hv.running
    aligned := by simp [hsubmissions, hv.aligned]
    opened := hv.opened
    counted := hv.counted
    begun := hv.begun
    standing := fun hc => standing_of_releases (hv.standing hc) rfl hreleases
    awaited := fun task hc => by
      refine ⟨fun t => (hreleases t).trans ((hv.awaited task hc).1 t), ?_⟩
      rw [htasks, finished_of_ne h hne]
      exact (hv.awaited task hc).2
    used := hv.used }

/-- The worker ends a task, whose body it has run. -/
theorem Valid.finish (hv : Valid maxQueueDepth host) {tasks : Lane Nat}
    (h : host.executor.tasks.step host.executor.stopping 0 .finish = some tasks) :
    Valid maxQueueDepth
      { host.performed .finish with executor := host.executor.afterWorker .finish tasks } := by
  obtain ⟨task, hf⟩ := finish_eq_some h
  obtain ⟨hstopping, htasks, hsubmissions⟩ := host.executor.afterWorker_frame .finish tasks
  have hexecutor := hv.executor.worker h
  have hfinished : tasks.finished = host.executor.tasks.finished ++ [task] := by
    rw [hf.eq]
  have hrunning : task ∈ host.executor.tasks.running :=
    List.mem_filterMap.mpr ⟨.running task, List.mem_of_getElem? hf.phase, rfl⟩
  have haccepted : host.executor.Accepted task := hv.executor.keeps.admitted (Or.inl hrunning)
  have hperformed : host.performed .finish = host.perform host.operations[task]? := by
    simp only [performed, hf.phase]
  have hreleases : ∀ (application : Bool) (uses : List Bool) (t : Nat),
      Releases { host with
        application := application
        uses := uses
        executor := host.executor.afterWorker .finish tasks } t ↔ host.Releases t := by
    intro application uses t
    simp [Releases, BackendExecutor.Accepted, hsubmissions]
  have hmem : ∀ t, t ∈ (host.executor.afterWorker .finish tasks).tasks.finished ↔
      t ∈ host.executor.tasks.finished ∨ t = task := by
    intro t
    rw [htasks, hfinished, List.mem_append, List.mem_singleton]
  -- a task that is not the release may use the application, which stays as it was
  have hrequest : ∀ uses : List Bool, (∀ alive ∈ uses, alive = true) →
      host.operations[task]? ≠ some .release →
      Valid maxQueueDepth { host with
        uses := uses
        executor := host.executor.afterWorker .finish tasks } := by
    intro uses huses hne
    exact {
      executor := hexecutor
      running := hstopping.trans hv.running
      aligned := by simp [hsubmissions, hv.aligned]
      opened := hv.opened
      counted := hv.counted
      begun := hv.begun
      standing := fun hc => standing_of_releases (hv.standing hc) rfl (hreleases _ _)
      awaited := fun t hc => by
        obtain ⟨hiff, hreleased⟩ := hv.awaited t hc
        have ht : t ≠ task := by
          rintro rfl
          exact hne ((hiff t).mpr rfl).1
        refine ⟨fun t' => (hreleases _ _ t').trans (hiff t'), ?_⟩
        rw [hmem]
        simpa [ht] using hreleased
      used := huses }
  rw [hperformed]
  cases hoperation : host.operations[task]? with
  | none => exact hrequest host.uses hv.used (by simp [hoperation])
  | some operation =>
    cases operation with
    | request =>
      simp only [perform]
      split
      · refine hrequest _ ?_ (by simp [hoperation])
        intro alive halive
        rcases List.mem_append.mp halive with halive | halive
        · exact hv.used alive halive
        · exact List.mem_singleton.mp halive
      · exact hrequest host.uses hv.used (by simp [hoperation])
    | release =>
      have hrelease : host.Releases task := ⟨hoperation, haccepted⟩
      exact {
        executor := hexecutor
        running := hstopping.trans hv.running
        aligned := by simp [hsubmissions, hv.aligned, perform]
        opened := hv.opened
        counted := hv.counted
        begun := hv.begun
        standing := fun hc => absurd hrelease ((hv.standing hc).2 task)
        awaited := fun t hc => by
          obtain ⟨hiff, _⟩ := hv.awaited t hc
          have ht : task = t := (hiff task).mp hrelease
          refine ⟨fun t' => (hreleases false host.uses t').trans (hiff t'), ?_⟩
          rw [hmem]
          simp [perform, ht]
        used := hv.used }

theorem Valid.step (hv : Valid maxQueueDepth host) {act : Act}
    (h : host.step maxQueueDepth act = some host') : Valid maxQueueDepth host' := by
  cases act with
  | ensureOpen =>
    simp only [ServerApplicationHost.step] at h
    split at h
    · cases h
      exact { hv with }
    · cases h
      exact hv
  | submitRequest =>
    obtain ⟨_, h⟩ := Option.ite_none_right_eq_some.mp h
    cases h
    exact { hv.submitRequest with }
  | worker act =>
    obtain ⟨executor, hexecutor, rfl⟩ := Option.map_eq_some_iff.mp h
    obtain ⟨tasks, htasks, rfl⟩ := Option.map_eq_some_iff.mp hexecutor
    cases act with
    | take => exact hv.quietWorker (by simp) htasks
    | finish => exact hv.finish htasks
    | report => exact hv.quietWorker (by simp) htasks
    | exit => exact hv.quietWorker (by simp) htasks
  | beginDownload =>
    simp only [ServerApplicationHost.step] at h
    split at h
    · cases h
    · split at h
      · rename_i hopen
        cases h
        rw [Bool.and_eq_true] at hopen
        exact { hv with begun := fun _ => Or.inl (hv.opened.mp hopen.1) }
      · cases h
        exact hv
  | countDownload =>
    obtain ⟨hbeginning, h⟩ := Option.ite_none_right_eq_some.mp h
    cases h
    exact {
      hv with
      counted := by simp [hv.counted]
      begun := fun _ => hv.begun (Or.inl hbeginning) }
  | useApplication =>
    obtain ⟨hdownloads, h⟩ := Option.ite_none_right_eq_some.mp h
    cases h
    have hclosing := hv.begun (Or.inr hdownloads)
    have hstanding := hv.standing (hclosing.imp_right Or.inl)
    exact {
      hv with
      used := by
        intro alive halive
        rcases List.mem_append.mp halive with halive | halive
        · exact hv.used alive halive
        · rw [List.mem_singleton.mp halive, hstanding.1] }
  | endDownload =>
    obtain ⟨⟨hdownloads, hbeginning⟩, h⟩ := Option.ite_none_right_eq_some.mp h
    cases h
    have hcounted := hv.counted
    exact {
      hv with
      counted := by dsimp only; rw [if_pos (by omega)]; omega
      begun := fun _ => hv.begun (Or.inr hdownloads) }
  | close =>
    simp only [ServerApplicationHost.step] at h
    split at h
    · rename_i hopen
      cases h
      have hclosing := hv.opened.mp hopen
      exact {
        hv with
        opened := by simp
        begun := fun _ => Or.inr rfl
        standing := fun _ => hv.standing (Or.inl hclosing)
        awaited := fun task hc => by cases hc }
    · cases h
      exact hv
  | downloadsFinished =>
    obtain ⟨⟨hclosing, hbeginning, hactive⟩, h⟩ := Option.ite_none_right_eq_some.mp h
    cases h
    have hcounted := hv.counted
    have hclosed : ¬host.isOpen = true := by
      rw [hv.opened, hclosing]
      exact Closing.noConfusion
    exact {
      hv with
      opened := iff_of_false hclosed Closing.noConfusion
      begun := fun hbegun => by
        rcases hbegun with hb | hd
        · rw [hbeginning] at hb
          cases hb
        · have hpos : 0 < host.downloads := hd
          omega
      standing := fun _ => hv.standing (Or.inr (Or.inl hclosing))
      awaited := fun task hc => by cases hc }
  | submitRelease =>
    obtain ⟨hclosing, h⟩ := Option.ite_none_right_eq_some.mp h
    split at h
    · rename_i hoffer
      cases h
      exact hv.submitRelease hclosing (by rw [if_pos hoffer])
    · rename_i hoffer
      cases h
      exact hv.submitRelease hclosing (by rw [if_neg hoffer])
  | closeReturns =>
    simp only [ServerApplicationHost.step] at h
    split at h
    · rename_i task hclosing
      obtain ⟨hfinished, h⟩ := Option.ite_none_right_eq_some.mp h
      cases h
      have hclosed : ¬host.isOpen = true := by
        rw [hv.opened, hclosing]
        exact Closing.noConfusion
      exact {
        hv with
        opened := iff_of_false hclosed Closing.noConfusion
        begun := fun hbegun => by
          have := hv.begun hbegun
          simp [hclosing] at this
        standing := fun hc => by simp at hc
        awaited := fun t hc => by cases hc }
    · cases h

theorem valid_of_run {acts : List Act}
    (h : Runs.run (ServerApplicationHost.step maxQueueDepth) {} acts = some host) :
    Valid maxQueueDepth host :=
  Runs.run_invariant (fun _ _ _ hv hstep => hv.step hstep) h (valid_opened maxQueueDepth)

/-! ### After the return of `Close` -/

theorem step_of_returned (hv : Valid maxQueueDepth host) (hclosing : host.closing = .returned)
    {act : Act} (h : host.step maxQueueDepth act = some host') :
    host' = host ∨
      (∃ n, host' = { host.submit maxQueueDepth .request with checkedRequests := n }) ∨
      ∃ act tasks, host.executor.tasks.step host.executor.stopping 0 act = some tasks ∧
        host' = { host.performed act with executor := host.executor.afterWorker act tasks } := by
  have hclosed : ¬host.isOpen = true := by
    rw [hv.opened, hclosing]
    exact Closing.noConfusion
  have hidle : ¬(host.beginning = true ∨ 0 < host.downloads) := by
    intro hbegun
    have := hv.begun hbegun
    simp [hclosing] at this
  rw [not_or] at hidle
  cases act with
  | ensureOpen =>
    simp only [ServerApplicationHost.step, if_neg hclosed] at h
    exact Or.inl (Option.some.inj h).symm
  | submitRequest =>
    obtain ⟨_, h⟩ := Option.ite_none_right_eq_some.mp h
    exact Or.inr (Or.inl ⟨_, (Option.some.inj h).symm⟩)
  | worker act =>
    obtain ⟨executor, hexecutor, rfl⟩ := Option.map_eq_some_iff.mp h
    obtain ⟨tasks, htasks, rfl⟩ := Option.map_eq_some_iff.mp hexecutor
    exact Or.inr (Or.inr ⟨act, tasks, htasks, rfl⟩)
  | beginDownload =>
    have hnot : ¬(host.isOpen && host.application) = true := by
      rw [Bool.and_eq_true]
      exact fun hopen => hclosed hopen.1
    simp only [ServerApplicationHost.step, if_neg hidle.1, if_neg hnot] at h
    exact Or.inl (Option.some.inj h).symm
  | countDownload => exact absurd (Option.ite_none_right_eq_some.mp h).1 hidle.1
  | useApplication => exact absurd (Option.ite_none_right_eq_some.mp h).1 hidle.2
  | endDownload => exact absurd (Option.ite_none_right_eq_some.mp h).1.1 hidle.2
  | close =>
    simp only [ServerApplicationHost.step, if_neg hclosed] at h
    exact Or.inl (Option.some.inj h).symm
  | downloadsFinished => simp [ServerApplicationHost.step, hclosing] at h
  | submitRelease => simp [ServerApplicationHost.step, hclosing] at h
  | closeReturns => simp [ServerApplicationHost.step, hclosing] at h

/-- The body of a task leaves everything but the application and its uses alone, and a host without
an application altogether. -/
theorem performed_frame (host : ServerApplicationHost) (act : WorkerAct) :
    (host.performed act).closing = host.closing ∧
    (host.performed act).operations = host.operations ∧
    (host.application = false → host.performed act = host) := by
  have hperform : ∀ operation, (host.perform operation).closing = host.closing ∧
      (host.perform operation).operations = host.operations ∧
      (host.application = false → host.perform operation = host) := by
    intro operation
    cases operation with
    | none => exact ⟨rfl, rfl, fun _ => rfl⟩
    | some operation =>
      cases operation with
      | request =>
        simp only [perform]
        split
        · rename_i happlication
          exact ⟨rfl, rfl, fun hnone => by rw [happlication] at hnone; cases hnone⟩
        · exact ⟨rfl, rfl, fun _ => rfl⟩
      | release =>
        refine ⟨rfl, rfl, fun hnone => ?_⟩
        rw [perform, ← hnone]
  cases act with
  | finish =>
    simp only [performed]
    split
    · exact hperform _
    · exact ⟨rfl, rfl, fun _ => rfl⟩
  | take => exact ⟨rfl, rfl, fun _ => rfl⟩
  | report => exact ⟨rfl, rfl, fun _ => rfl⟩
  | exit => exact ⟨rfl, rfl, fun _ => rfl⟩

theorem step_of_released (hv : Valid maxQueueDepth host) (hclosing : host.closing = .returned)
    (hreleased : host.application = false) {act : Act}
    (h : host.step maxQueueDepth act = some host') :
    host'.closing = .returned ∧ host'.application = false ∧ host'.uses = host.uses := by
  rcases step_of_returned hv hclosing h with rfl | ⟨n, rfl⟩ | ⟨act, tasks, _, rfl⟩
  · exact ⟨hclosing, hreleased, rfl⟩
  · exact ⟨hclosing, hreleased, rfl⟩
  · rw [(host.performed_frame act).2.2 hreleased]
    exact ⟨hclosing, hreleased, rfl⟩

theorem step_of_refused (hv : Valid maxQueueDepth host) (hclosing : host.closing = .returned)
    (hstanding : host.Standing) {act : Act} (h : host.step maxQueueDepth act = some host') :
    host'.closing = .returned ∧ host'.Standing := by
  rcases step_of_returned hv hclosing h with rfl | ⟨n, rfl⟩ | ⟨act, tasks, hstep, rfl⟩
  · exact ⟨hclosing, hstanding⟩
  · refine ⟨hclosing, hstanding.1, fun task htask => hstanding.2 task ?_⟩
    have hsubmitted := (releases_submit hv .request task).mp htask
    simpa using hsubmitted
  · obtain ⟨_, _, hsubmissions⟩ := host.executor.afterWorker_frame act tasks
    obtain ⟨hsame, hoperations, _⟩ := host.performed_frame act
    refine ⟨hsame.trans hclosing, ?_, fun task htask => hstanding.2 task ?_⟩
    · show (host.performed act).application = true
      cases act with
      | finish =>
        obtain ⟨task, hf⟩ := finish_eq_some hstep
        have hrunning : task ∈ host.executor.tasks.running :=
          List.mem_filterMap.mpr ⟨.running task, List.mem_of_getElem? hf.phase, rfl⟩
        have haccepted : host.executor.Accepted task :=
          hv.executor.keeps.admitted (Or.inl hrunning)
        simp only [performed, hf.phase]
        cases hoperation : host.operations[task]? with
        | none => exact hstanding.1
        | some operation =>
          cases operation with
          | request => simp [perform, hstanding.1]
          | release => exact absurd ⟨hoperation, haccepted⟩ (hstanding.2 task)
      | take => exact hstanding.1
      | report => exact hstanding.1
      | exit => exact hstanding.1
    · simpa [Releases, BackendExecutor.Accepted, hsubmissions, hoperations] using htask

/-! ### Whole runs -/

/-- The queue of the executor has room when `Close` submits the release. -/
def RoomForRelease (maxQueueDepth : Nat) (host : ServerApplicationHost) (act : Act) : Prop :=
  act = .submitRelease → host.executor.tasks.queue.length < maxQueueDepth

/-- `Close` did what it is for: the downloads have ended, the application is gone after having been
there whenever it was used, and nothing that is still queued or that starts later uses it. -/
structure Closed (maxQueueDepth : Nat) (host : ServerApplicationHost) : Prop where
  ended : host.downloads = 0
  released : host.application = false
  alive : ∀ alive ∈ host.uses, alive = true
  untouched : ∀ acts host', Runs.run (ServerApplicationHost.step maxQueueDepth) host acts =
    some host' → host'.application = false ∧ host'.uses = host.uses

/-- Where `Close` has returned, the application is gone. -/
def ReleasedOnReturn (host : ServerApplicationHost) : Prop :=
  host.closing = .returned → host.application = false

theorem releasedOnReturn_step (hv : Valid maxQueueDepth host) (hr : host.ReleasedOnReturn)
    {act : Act} (hroom : RoomForRelease maxQueueDepth host act)
    (h : host.step maxQueueDepth act = some host') : host'.ReleasedOnReturn := by
  by_cases hclosing : host.closing = .returned
  · exact fun _ => (step_of_released hv hclosing (hr hclosing) h).2.1
  intro hreturned
  cases act with
  | ensureOpen =>
    simp only [ServerApplicationHost.step] at h
    split at h <;> cases h <;> exact absurd hreturned hclosing
  | submitRequest =>
    obtain ⟨_, h⟩ := Option.ite_none_right_eq_some.mp h
    cases h
    exact absurd hreturned hclosing
  | worker act =>
    obtain ⟨executor, _, rfl⟩ := Option.map_eq_some_iff.mp h
    exact absurd ((host.performed_frame act).1.symm.trans hreturned) hclosing
  | beginDownload =>
    simp only [ServerApplicationHost.step] at h
    split_ifs at h <;> cases h <;> exact absurd hreturned hclosing
  | countDownload =>
    obtain ⟨_, h⟩ := Option.ite_none_right_eq_some.mp h
    cases h
    exact absurd hreturned hclosing
  | useApplication =>
    obtain ⟨_, h⟩ := Option.ite_none_right_eq_some.mp h
    cases h
    exact absurd hreturned hclosing
  | endDownload =>
    obtain ⟨_, h⟩ := Option.ite_none_right_eq_some.mp h
    cases h
    exact absurd hreturned hclosing
  | close =>
    simp only [ServerApplicationHost.step] at h
    split at h
    · cases h
      cases hreturned
    · cases h
      exact absurd hreturned hclosing
  | downloadsFinished =>
    obtain ⟨_, h⟩ := Option.ite_none_right_eq_some.mp h
    cases h
    cases hreturned
  | submitRelease =>
    obtain ⟨_, h⟩ := Option.ite_none_right_eq_some.mp h
    have hlength := hroom rfl
    have hoffer : host.executor.offer maxQueueDepth = .accepted := by
      rw [BackendExecutor.offer, hv.running, if_neg Bool.false_ne_true, if_neg (by omega)]
    rw [if_pos hoffer] at h
    cases h
    cases hreturned
  | closeReturns =>
    simp only [ServerApplicationHost.step] at h
    split at h
    · rename_i task hawaiting
      obtain ⟨hfinished, h⟩ := Option.ite_none_right_eq_some.mp h
      cases h
      exact (hv.awaited task hawaiting).2.mpr hfinished
    · cases h

/-- A release that is submitted to a full queue is refused. -/
theorem refused_of_full (hv : Valid maxQueueDepth host)
    (hfull : maxQueueDepth ≤ host.executor.tasks.queue.length)
    (h : host.step maxQueueDepth .submitRelease = some host') :
    host'.closing = .returned ∧ host'.Standing := by
  obtain ⟨hclosing, h⟩ := Option.ite_none_right_eq_some.mp h
  have hoffer : host.executor.offer maxQueueDepth = .overload := by
    rw [BackendExecutor.offer, hv.running, if_neg Bool.false_ne_true, if_pos hfull]
  obtain ⟨happlication, hnone⟩ := hv.standing (Or.inr (Or.inr hclosing))
  rw [if_neg (by simp [hoffer])] at h
  cases h
  refine ⟨rfl, happlication, fun task htask => hnone task ?_⟩
  have hsubmitted := (releases_submit hv .release task).mp htask
  simpa [hoffer] using hsubmitted

/-- `Close` does what it is for exactly where the executor has room for the release. -/
theorem closes_iff_room {acts : List Act}
    (h : Runs.run (ServerApplicationHost.step maxQueueDepth) {} acts = some host)
    (hreturned : host.closing = .returned) : Closed maxQueueDepth host ↔
      Runs.EachStep (ServerApplicationHost.step maxQueueDepth) (RoomForRelease maxQueueDepth) {}
        acts := by
  have hv := valid_of_run h
  constructor
  · rintro hclosed before act after middle rfl hbefore rfl
    by_contra hfull
    rw [Nat.not_lt] at hfull
    have hmiddle := valid_of_run hbefore
    obtain ⟨middle', hmiddle', hrest⟩ := Runs.run_append_eq_some.mp h
    rw [hbefore] at hmiddle'
    cases hmiddle'
    obtain ⟨refused, hrefused, hafter⟩ := Runs.run_cons_eq_some.mp hrest
    have hstart := refused_of_full hmiddle hfull hrefused
    have hkept := Runs.run_invariant
      (I := fun s => Valid maxQueueDepth s ∧ s.closing = .returned ∧ s.Standing)
      (fun _ _ _ hs hstep => ⟨hs.1.step hstep, step_of_refused hs.1 hs.2.1 hs.2.2 hstep⟩) hafter
      ⟨hmiddle.step hrefused, hstart⟩
    have hthere := hkept.2.2.1
    rw [hclosed.released] at hthere
    cases hthere
  · intro hroom
    have hreleased := hroom.run_invariant
      (I := fun s => Valid maxQueueDepth s ∧ s.ReleasedOnReturn)
      (fun _ _ _ hs hgood hstep => ⟨hs.1.step hstep, releasedOnReturn_step hs.1 hs.2 hgood hstep⟩)
      h ⟨valid_opened maxQueueDepth, fun hc => (by cases hc)⟩
    have hgone := hreleased.2 hreturned
    refine {
      ended := ?_
      released := hgone
      alive := hv.used
      untouched := ?_ }
    · by_contra hne
      have hbegun := hv.begun (Or.inr (by omega))
      simp [hreturned] at hbegun
    · intro acts' host' hrun
      have hlater := Runs.run_invariant
        (I := fun s => Valid maxQueueDepth s ∧ s.closing = .returned ∧ s.application = false ∧
          s.uses = host.uses)
        (fun _ _ _ hs hstep => by
          obtain ⟨hvalid, hc, ha, hu⟩ := hs
          obtain ⟨hc', ha', hu'⟩ := step_of_released hvalid hc ha hstep
          exact ⟨hvalid.step hstep, hc', ha', hu'.trans hu⟩) hrun
        ⟨hv, hreturned, hgone, rfl⟩
      exact hlater.2.2

/-- A download and a request are in flight when the host is closed. -/
def busyClose : List Act :=
  [.beginDownload, .countDownload, .ensureOpen, .submitRequest, .close, .useApplication,
    .worker .take, .endDownload, .downloadsFinished, .submitRelease, .worker .finish,
    .worker .report, .worker .take, .worker .finish, .closeReturns]

/-- Is there room at every submission of the release? -/
def hasRoom (maxQueueDepth : Nat) : ServerApplicationHost → List Act → Bool
  | _, [] => true
  | host, act :: acts =>
    (act ≠ .submitRelease || host.executor.tasks.queue.length < maxQueueDepth) &&
      match host.step maxQueueDepth act with
      | some host' => hasRoom maxQueueDepth host' acts
      | none => true

theorem eachStep_of_hasRoom {acts : List Act} (h : hasRoom maxQueueDepth host acts = true) :
    Runs.EachStep (ServerApplicationHost.step maxQueueDepth) (RoomForRelease maxQueueDepth) host
      acts := by
  rintro before act after middle rfl hrun
  induction before generalizing host with
  | nil =>
    cases hrun
    rw [List.nil_append, hasRoom, Bool.and_eq_true] at h
    intro hact
    simpa [hact] using h.1
  | cons first before ih =>
    obtain ⟨host', hstep, hrest⟩ := Runs.run_cons_eq_some.mp hrun
    rw [List.cons_append, hasRoom, Bool.and_eq_true, hstep] at h
    exact ih h.2 hrest

theorem busyClose_closes : ∃ host,
    Runs.run (ServerApplicationHost.step 1) {} busyClose = some host ∧ Closed 1 host := by
  have hrun : (Runs.run (ServerApplicationHost.step 1) {} busyClose).map
      ServerApplicationHost.closing = some .returned := by
    decide
  obtain ⟨host, hhost, hreturned⟩ := Option.map_eq_some_iff.mp hrun
  exact ⟨host, hhost, (closes_iff_room hhost hreturned).mpr (eachStep_of_hasRoom (by decide))⟩

/-- Two requests occupy an executor of depth one when the host is closed. -/
def crowdedClose : List Act :=
  [.ensureOpen, .ensureOpen, .submitRequest, .worker .take, .submitRequest, .close,
    .downloadsFinished, .submitRelease]

/-- The application outlives the close, and the request that was queued uses it. -/
theorem crowdedClose_not_closed : ∃ host,
    Runs.run (ServerApplicationHost.step 1) {} crowdedClose = some host ∧
    host.closing = .returned ∧ ¬Closed 1 host := by
  have hrun : (Runs.run (ServerApplicationHost.step 1) {} crowdedClose).map
      (fun host => (host.closing, host.application)) = some (.returned, true) := by
    decide
  obtain ⟨host, hhost, hends⟩ := Option.map_eq_some_iff.mp hrun
  obtain ⟨hreturned, hthere⟩ := Prod.mk.inj hends
  refine ⟨host, hhost, hreturned, fun hclosed => ?_⟩
  rw [hclosed.released] at hthere
  cases hthere

end ServerApplicationHost

end InpxWebReader.Server
