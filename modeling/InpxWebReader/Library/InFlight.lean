import Mathlib.Algebra.Order.BigOperators.Group.List
import Mathlib.Algebra.Order.Ring.Nat
import Mathlib.Data.List.Perm.Basic

/-!
# Bounded work in flight

A queue of tasks with a limit on its length and a budget for the sizes of its tasks. A task reserves
its size when it is submitted. It leaves the queue from any place, and its reservation is released
when the work on it ends; or it is joined from the head of the queue, when the work is given up.

`Follows log w` says that `log`, the newest moment first, leads from an empty queue to `w`.
`Follows.sound` is the invariant of such a run: what is reserved is what the tasks need, within the
budget, and the queue is within its limit. `Follows.perm` counts the tasks: every submitted one is
taken, joined or still queued, once.
-/

namespace InFlight

variable {τ κ : Type}

/-- What happens to the queue. `opened` is the switch to another source of tasks. -/
inductive Event (τ κ : Type)
  | submitted (task : τ)
  | taken (index : Nat) (task : τ)
  | released (task : τ)
  | joined (task : τ)
  | opened (key : κ)
  deriving DecidableEq

/-- The queue, what is reserved, and the task that was taken and still has its reservation. -/
structure Window (τ : Type) where
  queue : List τ := []
  reserved : Nat := 0
  held : Option τ := none
  deriving DecidableEq

/-- The windows before and after something happened. -/
structure Moment (τ κ : Type) where
  before : Window τ
  event : Event τ κ
  after : Window τ
  deriving DecidableEq

/-- What something does to the window. A release never takes back more than is reserved. -/
def Window.next (size : τ → Nat) (w : Window τ) : Event τ κ → Window τ
  | .submitted task =>
    { w with queue := w.queue ++ [task], reserved := w.reserved + size task }
  | .taken index task => { w with queue := w.queue.eraseIdx index, held := some task }
  | .released task => { w with reserved := w.reserved - size task, held := none }
  | .joined task => { w with queue := w.queue.tail, reserved := w.reserved - size task }
  | .opened _ => w

/-- When something may happen. -/
def Window.Allows (size : τ → Nat) (limit budget : Nat) (w : Window τ) : Event τ κ → Prop
  | .submitted task => w.held = none ∧ w.queue.length < limit ∧ size task ≤ budget ∧
      (w.queue = [] ∨ w.reserved ≤ budget - size task)
  | .taken index task => w.held = none ∧ w.queue[index]? = some task
  | .released task => w.held = some task
  | .joined task => w.queue.head? = some task
  | .opened _ => w.held = none ∧ w.queue = []

/-- The log of a run that starts with an empty queue, and the window it ends with. -/
inductive Follows (size : τ → Nat) (limit budget : Nat) : List (Moment τ κ) → Window τ → Prop
  | start : Follows size limit budget [] {}
  | step {log : List (Moment τ κ)} {w : Window τ} {event : Event τ κ}
      (h : Follows size limit budget log w) (hallows : w.Allows size limit budget event) :
      Follows size limit budget (⟨w, event, w.next size event⟩ :: log) (w.next size event)

/-- What is reserved is what the tasks need, and both bounds are kept. -/
structure Window.Sound (size : τ → Nat) (limit budget : Nat) (w : Window τ) : Prop where
  reserved : w.reserved = (w.queue.map size).sum + (w.held.map size).getD 0
  budget : w.reserved ≤ budget
  limit : w.queue.length ≤ limit

def submittedTasks (log : List (Moment τ κ)) : List τ :=
  log.filterMap fun m => match m.event with
    | .submitted task => some task
    | _ => none

def takenTasks (log : List (Moment τ κ)) : List τ :=
  log.filterMap fun m => match m.event with
    | .taken _ task => some task
    | _ => none

def releasedTasks (log : List (Moment τ κ)) : List τ :=
  log.filterMap fun m => match m.event with
    | .released task => some task
    | _ => none

def joinedTasks (log : List (Moment τ κ)) : List τ :=
  log.filterMap fun m => match m.event with
    | .joined task => some task
    | _ => none

/-! ### One step -/

section Step

variable {size : τ → Nat} {limit budget : Nat} {w : Window τ} {event : Event τ κ}

theorem Window.sound_empty : ({} : Window τ).Sound size limit budget :=
  ⟨rfl, Nat.zero_le _, Nat.zero_le _⟩

theorem perm_of_getElem?_eq_some {queue : List τ} {index : Nat} {task : τ}
    (h : queue[index]? = some task) : (task :: queue.eraseIdx index).Perm queue := by
  obtain ⟨hlt, rfl⟩ := List.getElem?_eq_some_iff.mp h
  exact List.getElem_cons_eraseIdx_perm hlt

theorem Window.Sound.next (hw : w.Sound size limit budget)
    (h : w.Allows size limit budget event) : (w.next size event).Sound size limit budget := by
  have hreserved := hw.reserved
  have hbudget := hw.budget
  have hlimit := hw.limit
  cases event with
  | submitted task =>
    obtain ⟨hheld, hlt, hfits, hroom⟩ := h
    rw [hheld] at hreserved
    refine ⟨?_, ?_, ?_⟩
    · simp only [Window.next, hheld, List.map_append, List.map_cons, List.map_nil, List.sum_append,
        List.sum_cons, List.sum_nil, Option.map_none, Option.getD_none] at hreserved ⊢
      omega
    · rcases hroom with hempty | hroom
      · rw [hempty] at hreserved
        simp only [Window.next, List.map_nil, List.sum_nil, Option.map_none,
          Option.getD_none] at hreserved ⊢
        omega
      · simp only [Window.next]
        omega
    · simp only [Window.next, List.length_append, List.length_cons, List.length_nil]
      omega
  | taken index task =>
    obtain ⟨hheld, htask⟩ := h
    have hsum := ((perm_of_getElem?_eq_some htask).map size).sum_eq
    rw [List.map_cons, List.sum_cons] at hsum
    rw [hheld] at hreserved
    refine ⟨?_, hbudget, (List.length_eraseIdx_le _ _).trans hlimit⟩
    simp only [Window.next, Option.map_some, Option.getD_some, Option.map_none,
      Option.getD_none] at hreserved ⊢
    omega
  | released task =>
    change w.held = some task at h
    rw [h] at hreserved
    refine ⟨?_, ?_, hlimit⟩
    · simp only [Window.next, Option.map_some, Option.getD_some, Option.map_none,
        Option.getD_none] at hreserved ⊢
      omega
    · simp only [Window.next]
      omega
  | joined task =>
    obtain ⟨queue, hqueue⟩ := List.head?_eq_some_iff.mp h
    rw [hqueue] at hreserved hlimit
    refine ⟨?_, ?_, ?_⟩
    · simp only [Window.next, hqueue, List.tail_cons, List.map_cons, List.sum_cons] at hreserved ⊢
      omega
    · simp only [Window.next]
      omega
    · simp only [Window.next, hqueue, List.tail_cons, List.length_cons] at hlimit ⊢
      omega
  | opened key => exact ⟨hreserved, hbudget, hlimit⟩

theorem Window.Sound.size_le (hw : w.Sound size limit budget)
    (h : w.Allows size limit budget event) {task : τ}
    (hevent : event = .released task ∨ event = .joined task) : size task ≤ w.reserved := by
  have hreserved := hw.reserved
  rcases hevent with rfl | rfl
  · change w.held = some task at h
    rw [h, Option.map_some, Option.getD_some] at hreserved
    omega
  · obtain ⟨queue, hqueue⟩ := List.head?_eq_some_iff.mp h
    rw [hqueue, List.map_cons, List.sum_cons] at hreserved
    omega

end Step

/-! ### Whole runs -/

section Run

variable {size : τ → Nat} {limit budget : Nat} {log : List (Moment τ κ)} {w : Window τ}

theorem Follows.next (h : Follows size limit budget log w) (event : Event τ κ)
    (hallows : w.Allows size limit budget event) :
    Follows size limit budget (⟨w, event, w.next size event⟩ :: log) (w.next size event) :=
  .step h hallows

theorem Follows.sound (h : Follows size limit budget log w) : w.Sound size limit budget := by
  induction h with
  | start => exact Window.sound_empty
  | step _ hallows ih => exact ih.next hallows

/-- What holds at every moment of a run. -/
structure Moment.Sound (size : τ → Nat) (limit budget : Nat) (m : Moment τ κ) : Prop where
  before : m.before.Sound size limit budget
  after : m.after.Sound size limit budget
  allows : m.before.Allows size limit budget m.event
  next : m.after = m.before.next size m.event

theorem Follows.moments (h : Follows size limit budget log w) :
    ∀ m ∈ log, m.Sound size limit budget := by
  induction h with
  | start => exact fun _ hm => absurd hm List.not_mem_nil
  | step h hallows ih =>
    rw [List.forall_mem_cons]
    exact ⟨⟨h.sound, h.sound.next hallows, hallows, rfl⟩, ih⟩

theorem Moment.Sound.size_le {m : Moment τ κ} (hm : m.Sound size limit budget) {task : τ}
    (hevent : m.event = .released task ∨ m.event = .joined task) :
    size task ≤ m.before.reserved :=
  hm.before.size_le hm.allows hevent

/-- Every submitted task was taken, was joined or is queued. -/
theorem Follows.perm (h : Follows size limit budget log w) :
    (submittedTasks log).Perm (takenTasks log ++ joinedTasks log ++ w.queue) := by
  induction h with
  | start => exact .refl _
  | @step log w event h hallows ih =>
    cases event with
    | submitted task =>
      refine (ih.cons task).trans ?_
      change (task :: (takenTasks log ++ joinedTasks log ++ w.queue)).Perm
        (takenTasks log ++ joinedTasks log ++ (w.queue ++ [task]))
      rw [← List.append_assoc]
      exact (List.perm_append_singleton _ _).symm
    | taken index task =>
      refine ih.trans ?_
      change (takenTasks log ++ joinedTasks log ++ w.queue).Perm
        (task :: (takenTasks log ++ joinedTasks log ++ w.queue.eraseIdx index))
      refine List.Perm.trans ?_ List.perm_middle
      exact (perm_of_getElem?_eq_some hallows.2).symm.append_left _
    | released task => exact ih
    | joined task =>
      obtain ⟨queue, hqueue⟩ := List.head?_eq_some_iff.mp hallows
      refine ih.trans ?_
      change (takenTasks log ++ joinedTasks log ++ w.queue).Perm
        (takenTasks log ++ (task :: joinedTasks log) ++ w.queue.tail)
      rw [hqueue, List.tail_cons, List.append_assoc, List.append_assoc, List.cons_append]
      refine List.Perm.append_left _ ?_
      exact List.perm_middle
    | opened key => exact ih

/-- Every task that was taken gave its reservation back, or holds it. -/
theorem Follows.released (h : Follows size limit budget log w) :
    (takenTasks log).Perm (w.held.toList ++ releasedTasks log) := by
  induction h with
  | start => exact .refl _
  | @step log w event h hallows ih =>
    cases event with
    | submitted task => exact ih
    | taken index task =>
      rw [hallows.1] at ih
      exact ih.cons task
    | released task =>
      rw [show w.held = some task from hallows] at ih
      exact ih
    | joined task => exact ih
    | opened key => exact ih

end Run

end InFlight
