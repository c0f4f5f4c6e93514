import Mathlib.Algebra.Order.BigOperators.Group.List
import Mathlib.Algebra.Order.Ring.Nat
import Mathlib.Data.List.Count

/-!
# Task lanes

A lane is a queue of tasks with the workers that take them from its head. A worker runs a task from
the moment it takes it; when the task has ended the worker reports so and looks for the next one, and
it leaves when the lane is stopping and nothing is queued.

`traces t` counts the places where the task `t` is: queued, being run, or among those that were run.
No step of a worker changes it (`traces_step`), so a task that was put into the queue once is run at
most once, and has been run once all workers have left (`count_finished`).
-/

namespace TaskLane

variable {τ : Type}

/-- What a worker is doing. -/
inductive Phase (τ : Type)
  | idle
  | running (task : τ)
  | ended
  | exited
  deriving DecidableEq

/-- A queue of tasks, its workers, and the tasks that were run to their end. -/
structure Lane (τ : Type) where
  queue : List τ := []
  workers : List (Phase τ)
  finished : List τ := []
  deriving DecidableEq

/-- What a worker does next. -/
inductive WorkerAct
  | take
  | finish
  | report
  | exit
  deriving DecidableEq

/-- The lane with the worker `i` in another phase. -/
def Lane.withWorker (lane : Lane τ) (i : Nat) (phase : Phase τ) : Lane τ :=
  { lane with workers := lane.workers.set i phase }

/-- A task is put at the end of the queue. -/
def Lane.push (lane : Lane τ) (task : τ) : Lane τ := { lane with queue := lane.queue ++ [task] }

/-- The worker `i` does its next step, where it can. -/
def Lane.step (lane : Lane τ) (stopping : Bool) (i : Nat) : WorkerAct → Option (Lane τ)
  | .take =>
    match lane.workers[i]?, lane.queue with
    | some .idle, task :: rest => some { lane.withWorker i (.running task) with queue := rest }
    | _, _ => none
  | .finish =>
    match lane.workers[i]? with
    | some (.running task) =>
      some { lane.withWorker i .ended with finished := lane.finished ++ [task] }
    | _ => none
  | .report =>
    match lane.workers[i]? with
    | some .ended => some (lane.withWorker i .idle)
    | _ => none
  | .exit =>
    match lane.workers[i]?, lane.queue with
    | some .idle, [] => if stopping then some (lane.withWorker i .exited) else none
    | _, _ => none

/-- A lane of `n` idle workers with nothing to do. -/
def Lane.ofIdle (n : Nat) : Lane τ where
  workers := List.replicate n .idle

/-- Every worker has left. -/
def Lane.AllExited (lane : Lane τ) : Prop := ∀ phase ∈ lane.workers, phase = .exited

instance [DecidableEq τ] (lane : Lane τ) : Decidable lane.AllExited :=
  inferInstanceAs (Decidable (∀ phase ∈ lane.workers, phase = .exited))

/-! ### What a step does -/

/-- The worker `i` takes the task at the head of the queue. -/
structure Takes (lane : Lane τ) (i : Nat) (task : τ) (rest : List τ) (lane' : Lane τ) : Prop where
  phase : lane.workers[i]? = some .idle
  queue : lane.queue = task :: rest
  eq : lane' = { lane.withWorker i (.running task) with queue := rest }

/-- The worker `i` ends its task. -/
structure Finishes (lane : Lane τ) (i : Nat) (task : τ) (lane' : Lane τ) : Prop where
  phase : lane.workers[i]? = some (.running task)
  eq : lane' = { lane.withWorker i .ended with finished := lane.finished ++ [task] }

/-- The worker `i` leaves. -/
structure Leaves (lane : Lane τ) (stopping : Bool) (i : Nat) (lane' : Lane τ) : Prop where
  phase : lane.workers[i]? = some .idle
  stopping : stopping = true
  queue : lane.queue = []
  eq : lane' = lane.withWorker i .exited

variable {lane lane' : Lane τ} {stopping : Bool} {i : Nat} {act : WorkerAct}

theorem take_eq_some (h : lane.step stopping i .take = some lane') :
    ∃ task rest, Takes lane i task rest lane' := by
  simp only [Lane.step] at h
  split at h
  · rename_i task rest hphase hqueue
    exact ⟨task, rest, hphase, hqueue, (Option.some.inj h).symm⟩
  · cases h

theorem finish_eq_some (h : lane.step stopping i .finish = some lane') :
    ∃ task, Finishes lane i task lane' := by
  simp only [Lane.step] at h
  split at h
  · rename_i task hphase
    exact ⟨task, hphase, (Option.some.inj h).symm⟩
  · cases h

theorem report_eq_some (h : lane.step stopping i .report = some lane') :
    lane.workers[i]? = some .ended ∧ lane' = lane.withWorker i .idle := by
  simp only [Lane.step] at h
  split at h
  · rename_i hphase
    exact ⟨hphase, (Option.some.inj h).symm⟩
  · cases h

theorem exit_eq_some (h : lane.step stopping i .exit = some lane') :
    Leaves lane stopping i lane' := by
  simp only [Lane.step] at h
  split at h
  · rename_i hphase hqueue
    obtain ⟨hstopping, hlane⟩ := Option.ite_none_right_eq_some.mp h
    exact ⟨hphase, hstopping, hqueue, (Option.some.inj hlane).symm⟩
  · cases h

@[simp] theorem length_workers_withWorker (lane : Lane τ) (i : Nat) (phase : Phase τ) :
    (lane.withWorker i phase).workers.length = lane.workers.length := List.length_set

theorem length_workers_step (h : lane.step stopping i act = some lane') :
    lane'.workers.length = lane.workers.length := by
  cases act with
  | take =>
    obtain ⟨task, rest, ht⟩ := take_eq_some h
    rw [ht.eq]
    exact length_workers_withWorker lane i _
  | finish =>
    obtain ⟨task, hf⟩ := finish_eq_some h
    rw [hf.eq]
    exact length_workers_withWorker lane i _
  | report => rw [(report_eq_some h).2, length_workers_withWorker]
  | exit => rw [(exit_eq_some h).eq, length_workers_withWorker]

/-! ### Weighing the workers -/

/-- The sum of a weight over the workers. -/
def Lane.weigh (lane : Lane τ) (weight : Phase τ → Nat) : Nat := (lane.workers.map weight).sum

theorem sum_map_set (weight : Phase τ → Nat) {phases : List (Phase τ)} {old : Phase τ}
    (h : phases[i]? = some old) (new : Phase τ) :
    ((phases.set i new).map weight).sum + weight old = (phases.map weight).sum + weight new := by
  induction phases generalizing i with
  | nil => simp at h
  | cons phase phases ih =>
    cases i with
    | zero =>
      have hold : phase = old := by simpa using h
      simp only [List.set_cons_zero, List.map_cons, List.sum_cons, hold]
      omega
    | succ i =>
      have := ih (i := i) (by simpa using h)
      simp only [List.set_cons_succ, List.map_cons, List.sum_cons]
      omega

/-- When a worker changes, the sum changes by the difference of its weights. -/
theorem weigh_withWorker (weight : Phase τ → Nat) {old : Phase τ}
    (h : lane.workers[i]? = some old) (new : Phase τ) :
    (lane.withWorker i new).weigh weight + weight old = lane.weigh weight + weight new :=
  sum_map_set weight h new

theorem weigh_of_allExited (h : lane.AllExited) {weight : Phase τ → Nat}
    (hweight : weight .exited = 0) : lane.weigh weight = 0 := by
  apply List.sum_eq_zero
  intro n hn
  obtain ⟨phase, hphase, rfl⟩ := List.mem_map.mp hn
  rw [h phase hphase, hweight]

theorem weigh_ofIdle (n : Nat) {weight : Phase τ → Nat} (hweight : weight .idle = 0) :
    (Lane.ofIdle n : Lane τ).weigh weight = 0 := by
  simp [Lane.weigh, Lane.ofIdle, hweight]

/-- Does a worker in the phase have a task whose end it has not reported? -/
@[simp] def Phase.isBusy : Phase τ → Nat
  | .running _ | .ended => 1
  | .idle | .exited => 0

/-- The task that a worker in the phase runs. -/
@[simp] def Phase.task? : Phase τ → Option τ
  | .running task => some task
  | .idle | .ended | .exited => none

/-- The number of busy workers. -/
def Lane.busy (lane : Lane τ) : Nat := lane.weigh Phase.isBusy

/-- The tasks that are being run. -/
def Lane.running (lane : Lane τ) : List τ := lane.workers.filterMap Phase.task?

theorem busy_take {task : τ} {rest : List τ} (h : Takes lane i task rest lane') :
    lane'.busy = lane.busy + 1 := by
  rw [h.eq]
  exact weigh_withWorker Phase.isBusy h.phase (.running task)

theorem busy_finish {task : τ} (h : Finishes lane i task lane') : lane'.busy = lane.busy := by
  rw [h.eq]
  exact Nat.add_right_cancel (weigh_withWorker Phase.isBusy h.phase .ended)

theorem busy_report (h : lane.workers[i]? = some .ended) :
    (lane.withWorker i .idle).busy + 1 = lane.busy :=
  weigh_withWorker Phase.isBusy h .idle

theorem busy_exit (h : lane.workers[i]? = some .idle) :
    (lane.withWorker i .exited).busy = lane.busy :=
  weigh_withWorker Phase.isBusy h .exited

theorem busy_le (lane : Lane τ) : lane.busy ≤ lane.workers.length := by
  rw [Lane.busy, Lane.weigh]
  induction lane.workers with
  | nil => simp
  | cons phase phases ih =>
    rw [List.map_cons, List.sum_cons, List.length_cons]
    cases phase <;> simp <;> omega

/-- Where no worker has yet to report an end, the busy ones run a task each. -/
theorem busy_eq_length_running (h : Phase.ended ∉ lane.workers) :
    lane.busy = lane.running.length := by
  rw [Lane.busy, Lane.weigh, Lane.running]
  generalize lane.workers = phases at h
  induction phases with
  | nil => rfl
  | cons phase phases ih =>
    rw [List.mem_cons, not_or] at h
    have hrest := ih h.2
    cases phase with
    | ended => exact absurd rfl h.1
    | running task => simp [hrest, Nat.add_comm]
    | idle => simp [hrest, List.filterMap_cons]
    | exited => simp [hrest, List.filterMap_cons]

/-! ### Where a task is -/

section Traces

variable [DecidableEq τ]

/-- Is this task being run by a worker in the phase? -/
def Phase.runs (t : τ) : Phase τ → Nat
  | .running task => if task = t then 1 else 0
  | _ => 0

/-- In how many places the task is. -/
def Lane.traces (lane : Lane τ) (t : τ) : Nat :=
  lane.queue.count t + lane.weigh (Phase.runs t) + lane.finished.count t

theorem traces_push (lane : Lane τ) (task t : τ) :
    (lane.push task).traces t = lane.traces t + if task = t then 1 else 0 := by
  have hqueue : (lane.push task).queue.count t = lane.queue.count t + if task = t then 1 else 0 := by
    rw [Lane.push, List.count_append, List.count_singleton]
    simp
  have hrest : (lane.push task).weigh (Phase.runs t) = lane.weigh (Phase.runs t) := rfl
  have hfinished : (lane.push task).finished = lane.finished := rfl
  rw [Lane.traces, hqueue, hrest, hfinished, Lane.traces]
  omega

/-- A worker only moves a task from one place to the next. -/
theorem traces_step (h : lane.step stopping i act = some lane') (t : τ) :
    lane'.traces t = lane.traces t := by
  cases act with
  | take =>
    obtain ⟨task, rest, ht⟩ := take_eq_some h
    have hweigh := weigh_withWorker (Phase.runs t) ht.phase (.running task)
    have hqueue : lane.queue.count t = rest.count t + if task = t then 1 else 0 := by
      rw [ht.queue, List.count_cons]
      simp
    rw [ht.eq, Lane.traces, Lane.traces, hqueue]
    show rest.count t + (lane.withWorker i (.running task)).weigh (Phase.runs t) +
      lane.finished.count t = _
    simp only [Phase.runs] at hweigh ⊢
    omega
  | finish =>
    obtain ⟨task, hf⟩ := finish_eq_some h
    have hweigh := weigh_withWorker (Phase.runs t) hf.phase .ended
    have hfinished : (lane.finished ++ [task]).count t =
        lane.finished.count t + if task = t then 1 else 0 := by
      rw [List.count_append, List.count_singleton]
      simp
    rw [hf.eq, Lane.traces, Lane.traces]
    show lane.queue.count t + (lane.withWorker i .ended).weigh (Phase.runs t) +
      (lane.finished ++ [task]).count t = _
    rw [hfinished]
    simp only [Phase.runs] at hweigh ⊢
    omega
  | report =>
    obtain ⟨hphase, rfl⟩ := report_eq_some h
    have hweigh := weigh_withWorker (Phase.runs t) hphase .idle
    simp only [Phase.runs, Nat.add_zero] at hweigh
    rw [Lane.traces, Lane.traces, ← hweigh]
    rfl
  | exit =>
    have hl := exit_eq_some h
    have hweigh := weigh_withWorker (Phase.runs t) hl.phase .exited
    simp only [Phase.runs, Nat.add_zero] at hweigh
    rw [hl.eq, Lane.traces, Lane.traces, ← hweigh]
    rfl

/-- The tasks that were admitted are those that are somewhere in the lane, each in one place. -/
def Lane.Keeps (lane : Lane τ) (admitted : τ → Prop) : Prop :=
  ∀ t, lane.traces t ≤ 1 ∧ (lane.traces t = 1 ↔ admitted t)

theorem Lane.Keeps.ofIdle (n : Nat) {admitted : τ → Prop} (h : ∀ t, ¬admitted t) :
    (Lane.ofIdle n : Lane τ).Keeps admitted := by
  intro t
  have hzero : (Lane.ofIdle n : Lane τ).traces t = 0 := by
    rw [Lane.traces, weigh_ofIdle n rfl]
    rfl
  rw [hzero]
  exact ⟨Nat.zero_le 1, iff_of_false Nat.zero_ne_one (h t)⟩

theorem Lane.Keeps.step {admitted : τ → Prop} (hk : lane.Keeps admitted)
    (h : lane.step stopping i act = some lane') : lane'.Keeps admitted := by
  intro t
  rw [traces_step h]
  exact hk t

theorem Lane.Keeps.push {admitted admitted' : τ → Prop} (hk : lane.Keeps admitted) {task : τ}
    (hnew : ¬admitted task) (h : ∀ t, admitted' t ↔ admitted t ∨ t = task) :
    (lane.push task).Keeps admitted' := by
  intro t
  obtain ⟨hle, hiff⟩ := hk t
  rw [traces_push, h t]
  by_cases ht : task = t
  · have hzero : ¬lane.traces t = 1 := fun hone => hnew (ht ▸ hiff.mp hone)
    rw [if_pos ht]
    exact ⟨by omega, fun _ => Or.inr ht.symm, fun _ => by omega⟩
  · have hne : ¬t = task := fun he => ht he.symm
    rw [if_neg ht, Nat.add_zero]
    exact ⟨hle, fun hone => Or.inl (hiff.mp hone), fun hor => hiff.mpr (hor.resolve_right hne)⟩

theorem Lane.Keeps.congr {admitted admitted' : τ → Prop} (hk : lane.Keeps admitted)
    (h : ∀ t, admitted' t ↔ admitted t) : lane.Keeps admitted' :=
  fun t => ⟨(hk t).1, (hk t).2.trans (h t).symm⟩

theorem traces_pos_of_mem_running {t : τ} (h : t ∈ lane.running) : 0 < lane.traces t := by
  obtain ⟨phase, hphase, ht⟩ := List.mem_filterMap.mp h
  have hone : Phase.runs t phase = 1 := by
    cases phase with
    | running task => simpa [Phase.runs] using ht
    | idle => cases ht
    | ended => cases ht
    | exited => cases ht
  have hle : Phase.runs t phase ≤ lane.weigh (Phase.runs t) :=
    List.single_le_sum (fun _ _ => Nat.zero_le _) _ (List.mem_map_of_mem hphase)
  rw [Lane.traces]
  omega

theorem traces_pos_of_mem_finished {t : τ} (h : t ∈ lane.finished) : 0 < lane.traces t := by
  have := List.count_pos_iff.mpr h
  rw [Lane.traces]
  omega

theorem Lane.Keeps.admitted {admitted : τ → Prop} (hk : lane.Keeps admitted) {t : τ}
    (h : t ∈ lane.running ∨ t ∈ lane.finished) : admitted t := by
  have hpos : 0 < lane.traces t := by
    rcases h with h | h
    · exact traces_pos_of_mem_running h
    · exact traces_pos_of_mem_finished h
  have hle := (hk t).1
  exact (hk t).2.mp (by omega)

end Traces

/-! ### Leaving -/

/-- A worker that has left did so in a stopping lane with nothing queued. -/
def Lane.Orderly (lane : Lane τ) (stopping : Bool) : Prop :=
  Phase.exited ∈ lane.workers → stopping = true ∧ lane.queue = []

theorem Lane.Orderly.ofIdle (n : Nat) (stopping : Bool) :
    (Lane.ofIdle n : Lane τ).Orderly stopping := by
  intro h
  cases List.eq_of_mem_replicate h

theorem Lane.Orderly.push (h : lane.Orderly false) (task : τ) : (lane.push task).Orderly false :=
  fun hmem => absurd (h hmem).1 Bool.false_ne_true

theorem Lane.Orderly.stop (h : lane.Orderly stopping) : lane.Orderly true :=
  fun hmem => ⟨rfl, (h hmem).2⟩

theorem Lane.Orderly.step (hl : lane.Orderly stopping)
    (h : lane.step stopping i act = some lane') : lane'.Orderly stopping := by
  have hkeep : ∀ phase : Phase τ, phase ≠ .exited →
      Phase.exited ∈ (lane.withWorker i phase).workers → Phase.exited ∈ lane.workers := by
    intro phase hne hmem
    rcases List.mem_or_eq_of_mem_set hmem with hmem | heq
    · exact hmem
    · exact absurd heq.symm hne
  intro hmem
  cases act with
  | take =>
    obtain ⟨task, rest, ht⟩ := take_eq_some h
    rw [ht.eq] at hmem
    have hnil := (hl (hkeep _ (by simp) hmem)).2
    rw [ht.queue] at hnil
    cases hnil
  | finish =>
    obtain ⟨task, hf⟩ := finish_eq_some h
    rw [hf.eq] at hmem ⊢
    exact hl (hkeep _ (by simp) hmem)
  | report =>
    obtain ⟨_, rfl⟩ := report_eq_some h
    exact hl (hkeep _ (by simp) hmem)
  | exit =>
    have hleaves := exit_eq_some h
    rw [hleaves.eq]
    exact ⟨hleaves.stopping, hleaves.queue⟩

/-- When all workers have left, every task was run as often as it was put into the lane. -/
theorem count_finished [DecidableEq τ] (hl : lane.Orderly stopping) (h : lane.AllExited)
    (hpos : lane.workers ≠ []) (t : τ) : lane.finished.count t = lane.traces t := by
  obtain ⟨phase, hphase⟩ := List.exists_mem_of_ne_nil _ hpos
  have hqueue := (hl (h phase hphase ▸ hphase)).2
  rw [Lane.traces, hqueue, weigh_of_allExited h rfl, List.count_nil]
  omega

/-- When all workers have left, exactly the tasks that were admitted have been run, once each. -/
theorem Lane.Keeps.ran [DecidableEq τ] {admitted : τ → Prop} [DecidablePred admitted]
    (hk : lane.Keeps admitted) (hl : lane.Orderly stopping) (h : lane.AllExited)
    (hpos : lane.workers ≠ []) (t : τ) :
    lane.finished.count t = if admitted t then 1 else 0 := by
  obtain ⟨hle, hiff⟩ := hk t
  rw [count_finished hl h hpos]
  split
  · rename_i hadmitted
    exact hiff.mpr hadmitted
  · rename_i hadmitted
    have hne : lane.traces t ≠ 1 := fun hone => hadmitted (hiff.mp hone)
    omega

/-- Where all workers have left no worker does anything. -/
theorem not_step_of_allExited (h : lane.AllExited) : lane.step stopping i act = none := by
  have hexited : ∀ phase, lane.workers[i]? = some phase → phase = .exited :=
    fun phase hphase => h phase (List.mem_of_getElem? hphase)
  cases hstep : lane.step stopping i act with
  | none => rfl
  | some lane' =>
    cases act with
    | take =>
      obtain ⟨task, rest, ht⟩ := take_eq_some hstep
      cases hexited _ ht.phase
    | finish =>
      obtain ⟨task, hf⟩ := finish_eq_some hstep
      cases hexited _ hf.phase
    | report => cases hexited _ (report_eq_some hstep).1
    | exit => cases hexited _ (exit_eq_some hstep).phase

/-- Only the end of a task adds to the tasks that were run. -/
theorem finished_of_ne (h : lane.step stopping i act = some lane') (hne : act ≠ .finish) :
    lane'.finished = lane.finished := by
  cases act with
  | take =>
    obtain ⟨task, rest, ht⟩ := take_eq_some h
    rw [ht.eq]
    rfl
  | finish => exact absurd rfl hne
  | report =>
    obtain ⟨_, rfl⟩ := report_eq_some h
    rfl
  | exit =>
    rw [(exit_eq_some h).eq]
    rfl

theorem length_queue_step (h : lane.step stopping i act = some lane') :
    lane'.queue.length ≤ lane.queue.length := by
  cases act with
  | take =>
    obtain ⟨task, rest, ht⟩ := take_eq_some h
    rw [ht.eq, ht.queue]
    simp
  | finish =>
    obtain ⟨task, hf⟩ := finish_eq_some h
    rw [hf.eq]
    exact le_refl _
  | report =>
    obtain ⟨_, rfl⟩ := report_eq_some h
    exact le_refl _
  | exit =>
    rw [(exit_eq_some h).eq]
    exact le_refl _

end TaskLane
