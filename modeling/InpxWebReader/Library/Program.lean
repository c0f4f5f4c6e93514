import Mathlib.Logic.Basic
import Mathlib.Data.List.Basic

/-!
# Programs with a state and exceptions

A program is an `EStateM ε σ α`: run from a state it returns a value or throws, and in both cases
leaves a state behind. `Triple P c Q E` is the partial-correctness statement about one such
program, with a postcondition `Q` for a normal return and a postcondition `E` for a throw; a
program of this kind always ends, so the two together say what every run does.

The rules below follow the constructs of the language: `Triple.bind` for sequencing,
`Triple.tryCatch` for handlers, `Triple.forM` for a loop over a list (with an invariant indexed by
the part of the list already done), `Triple.drainWhile` for a loop that runs while a condition
holds and `Triple.zoom` for a program that works on a part of the state.
-/

namespace Program

variable {ε σ τ α β : Type}

/-- Run from a state that satisfies `P`, the program returns with `Q` or throws with `E`. -/
def Triple (P : σ → Prop) (c : EStateM ε σ α) (Q : α → σ → Prop) (E : ε → σ → Prop) : Prop :=
  ∀ s, P s → match c s with
    | .ok a s' => Q a s'
    | .error e s' => E e s'

/-- The postcondition of a throw that says nothing. -/
def Anything : ε → σ → Prop := fun _ _ => True

/-- Throw `e` unless `p` holds. -/
def require (p : Prop) [Decidable p] (e : ε) : EStateM ε σ Unit :=
  if p then pure () else throw e

/-- Run a program on a part of the state. -/
def zoom (read : σ → τ) (write : τ → σ → σ) (c : EStateM ε τ α) : EStateM ε σ α := fun s =>
  match c (read s) with
  | .ok a t => .ok a (write t s)
  | .error e t => .error e (write t s)

/-- An answer computed outside the program: a value or the exception it raises. -/
def ofExcept : Except ε α → EStateM ε σ α
  | .ok a => pure a
  | .error e => throw e

/-- Run a program with local variables of its own, which go when it ends. -/
def withLocals (init : τ) (c : EStateM ε (σ × τ) α) : EStateM ε σ α := fun s =>
  match c (s, init) with
  | .ok a s' => .ok a s'.1
  | .error e s' => .error e s'.1

/-- A step of a program that leaves its local variables alone. -/
def onState (c : EStateM ε σ α) : EStateM ε (σ × τ) α := zoom Prod.fst (fun s p => (s, p.2)) c

/-- The state a run leaves, whether it returned or threw. -/
def stateAfter : EStateM.Result ε σ α → σ
  | .ok _ s => s
  | .error _ s => s

/-- What a run returns or throws. -/
def answerOf : EStateM.Result ε σ α → Except ε α
  | .ok a _ => .ok a
  | .error e _ => .error e

/-- Run `body` while `busy` holds of the state, at most `fuel` times. -/
def drainWhile (busy : σ → Bool) (body : EStateM ε σ Unit) : Nat → EStateM ε σ Unit
  | 0 => pure ()
  | fuel + 1 => do
    if busy (← get) then
      body
      drainWhile busy body fuel
    else
      pure ()

/-! ### Structural rules -/

section Rules

variable {P P' : σ → Prop} {Q Q' : α → σ → Prop} {E E' : ε → σ → Prop}

theorem Triple.conseq {c : EStateM ε σ α} (h : Triple P' c Q' E') (hP : ∀ s, P s → P' s)
    (hQ : ∀ a s, Q' a s → Q a s) (hE : ∀ e s, E' e s → E e s) : Triple P c Q E := by
  intro s hs
  have hc := h s (hP s hs)
  cases hr : c s with
  | ok a s' =>
    rw [hr] at hc
    exact hQ a s' hc
  | error e s' =>
    rw [hr] at hc
    exact hE e s' hc

theorem Triple.pre {R : σ → Prop} {c : EStateM ε σ α} (h : Triple R c Q E)
    (hP : ∀ s, P s → R s) :
    Triple P c Q E :=
  h.conseq hP (fun _ _ hq => hq) fun _ _ he => he

theorem Triple.post {c : EStateM ε σ α} (h : Triple P c Q' E) (hQ : ∀ a s, Q' a s → Q a s) :
    Triple P c Q E :=
  h.conseq (fun _ hp => hp) hQ fun _ _ he => he

theorem Triple.error {c : EStateM ε σ α} (h : Triple P c Q E') (hE : ∀ e s, E' e s → E e s) :
    Triple P c Q E :=
  h.conseq (fun _ hp => hp) (fun _ _ hq => hq) hE

theorem Triple.and {c : EStateM ε σ α} (h : Triple P c Q E) (h' : Triple P' c Q' E') :
    Triple (fun s => P s ∧ P' s) c (fun a s => Q a s ∧ Q' a s) (fun e s => E e s ∧ E' e s) := by
  intro s hs
  have h₁ := h s hs.1
  have h₂ := h' s hs.2
  cases hr : c s with
  | ok a s' =>
    rw [hr] at h₁ h₂
    exact ⟨h₁, h₂⟩
  | error e s' =>
    rw [hr] at h₁ h₂
    exact ⟨h₁, h₂⟩

/-- A fact that does not mention the state may be moved out of the precondition. -/
theorem Triple.of_pure {p : Prop} {c : EStateM ε σ α} (h : p → Triple P c Q E) :
    Triple (fun s => p ∧ P s) c Q E :=
  fun s hs => h hs.1 s hs.2

theorem Triple.of_exists {γ : Type} {R : γ → σ → Prop} {c : EStateM ε σ α}
    (h : ∀ x, Triple (R x) c Q E) : Triple (fun s => ∃ x, R x s) c Q E := by
  rintro s ⟨x, hx⟩
  exact h x s hx

theorem Triple.of_state {c : EStateM ε σ α}
    (h : ∀ s₀, P s₀ → Triple (fun s => s = s₀) c Q E) : Triple P c Q E :=
  fun s hs => h s hs s rfl

/-- The statement about a program fixes what its runs return. -/
theorem Triple.ok {c : EStateM ε σ α} {s s' : σ} {a : α} (h : Triple P c Q E) (hs : P s)
    (hr : c s = .ok a s') : Q a s' := by
  have hc := h s hs
  rw [hr] at hc
  exact hc

theorem Triple.throws {c : EStateM ε σ α} {s s' : σ} {e : ε} (h : Triple P c Q E) (hs : P s)
    (hr : c s = .error e s') : E e s' := by
  have hc := h s hs
  rw [hr] at hc
  exact hc

end Rules

/-! ### Rules of the constructs -/

section Constructs

variable {P R : σ → Prop} {Q : α → σ → Prop} {E : ε → σ → Prop}

theorem Triple.pure {a : α} (h : ∀ s, P s → Q a s) :
    Triple P (Pure.pure a : EStateM ε σ α) Q E :=
  fun s hs => h s hs

theorem Triple.throw {e : ε} (h : ∀ s, P s → E e s) :
    Triple P (MonadExcept.throw e : EStateM ε σ α) Q E :=
  fun s hs => h s hs

theorem Triple.bind {c : EStateM ε σ β} {f : β → EStateM ε σ α} {M : β → σ → Prop}
    (hc : Triple P c M E) (hf : ∀ b, Triple (M b) (f b) Q E) : Triple P (c >>= f) Q E := by
  intro s hs
  have h₁ := hc s hs
  change match EStateM.bind c f s with
    | .ok a s' => Q a s'
    | .error e s' => E e s'
  rw [EStateM.bind]
  cases hr : c s with
  | ok b s' =>
    rw [hr] at h₁
    exact hf b s' h₁
  | error e s' =>
    rw [hr] at h₁
    exact h₁

/-- A run of a sequence whose first step returned goes on with the second. -/
theorem bind_ok {c : EStateM ε σ β} {f : β → EStateM ε σ α} {s s' : σ} {b : β}
    (h : c s = .ok b s') : (c >>= f) s = f b s' := by
  change EStateM.bind c f s = _
  rw [EStateM.bind]
  rw [h]

/-- A run of a sequence whose first step threw has thrown. -/
theorem bind_error {c : EStateM ε σ β} {f : β → EStateM ε σ α} {s s' : σ} {e : ε}
    (h : c s = .error e s') : (c >>= f) s = .error e s' := by
  change EStateM.bind c f s = _
  rw [EStateM.bind]
  rw [h]

theorem except_bind_eq_ok {x : Except ε α} {f : α → Except ε β} {b : β} :
    (x >>= f) = .ok b → ∃ a, x = .ok a ∧ f a = .ok b := by
  cases x with
  | error e =>
    intro h
    cases h
  | ok a =>
    intro h
    exact ⟨a, rfl, h⟩

theorem except_bind_eq_error {x : Except ε α} {f : α → Except ε β} {e : ε} :
    (x >>= f) = .error e → x = .error e ∨ ∃ a, x = .ok a ∧ f a = .error e := by
  cases x with
  | error e' =>
    intro h
    cases h
    exact .inl rfl
  | ok a =>
    intro h
    exact .inr ⟨a, rfl, h⟩

theorem require_ok {p : Prop} [Decidable p] {e : ε} (h : p) (s : σ) :
    (require p e : EStateM ε σ Unit) s = .ok () s := by
  rw [require]
  rw [if_pos h]
  rfl

theorem require_error {p : Prop} [Decidable p] {e : ε} (h : ¬p) (s : σ) :
    (require p e : EStateM ε σ Unit) s = .error e s := by
  rw [require]
  rw [if_neg h]
  rfl

theorem Triple.of_ok {c : EStateM ε σ α} (h : ∀ s, P s → ∃ a s', c s = .ok a s' ∧ Q a s') :
    Triple P c Q E := by
  intro s hs
  obtain ⟨a, s', hrun, hq⟩ := h s hs
  rw [hrun]
  exact hq

theorem Triple.of_error {c : EStateM ε σ α} (h : ∀ s, P s → ∃ e s', c s = .error e s' ∧ E e s') :
    Triple P c Q E := by
  intro s hs
  obtain ⟨e, s', hrun, he⟩ := h s hs
  rw [hrun]
  exact he

/-- Sequencing of steps whose results are not looked at. -/
theorem Triple.seq {c : EStateM ε σ Unit} {d : EStateM ε σ α} {M : σ → Prop}
    (hc : Triple P c (fun _ => M) E) (hd : Triple M d Q E) :
    Triple P (c >>= fun _ => d) Q E :=
  hc.bind fun _ => hd

theorem Triple.tryCatch {c : EStateM ε σ α} {handler : ε → EStateM ε σ α} {F : ε → σ → Prop}
    (hc : Triple P c Q F) (hh : ∀ e, Triple (F e) (handler e) Q E) :
    Triple P (MonadExcept.tryCatch c handler) Q E := by
  intro s hs
  have h₁ := hc s hs
  change match EStateM.tryCatch c handler s with
    | .ok a s' => Q a s'
    | .error e s' => E e s'
  rw [EStateM.tryCatch]
  cases hr : c s with
  | ok a s' =>
    rw [hr] at h₁
    exact h₁
  | error e s' =>
    rw [hr] at h₁
    exact hh e s' h₁

theorem Triple.adaptExcept {ε' : Type} {c : EStateM ε' σ α} {f : ε' → ε}
    (h : Triple P c Q fun e => E (f e)) : Triple P (EStateM.adaptExcept f c) Q E := by
  intro s hs
  have hc := h s hs
  rw [EStateM.adaptExcept]
  cases hr : c s with
  | ok a s' =>
    rw [hr] at hc
    exact hc
  | error e s' =>
    rw [hr] at hc
    exact hc

theorem Triple.get {Q : σ → σ → Prop} (h : ∀ s, P s → Q s s) :
    Triple P (MonadState.get : EStateM ε σ σ) Q E :=
  fun s hs => h s hs

theorem Triple.modify {f : σ → σ} {Q : σ → Prop} (h : ∀ s, P s → Q (f s)) :
    Triple P (MonadStateOf.modifyGet fun s => (PUnit.unit, f s) : EStateM ε σ PUnit) (fun _ => Q) E :=
  fun s hs => h s hs

theorem Triple.ite {p : Prop} [Decidable p] {c d : EStateM ε σ α}
    (hc : p → Triple P c Q E) (hd : ¬p → Triple P d Q E) :
    Triple P (if p then c else d) Q E := by
  split
  · exact hc ‹p›
  · exact hd ‹¬p›

theorem Triple.require {p : Prop} [Decidable p] {e : ε} {Q : σ → Prop}
    (h : ∀ s, P s → p → Q s) (he : ∀ s, P s → ¬p → E e s) :
    Triple P (Program.require p e) (fun _ => Q) E := by
  rw [Program.require]
  exact .ite (fun hp => .pure fun s hs => h s hs hp) fun hp => .throw fun s hs => he s hs hp

theorem Triple.ofExcept {x : Except ε α} (h : ∀ a s, x = .ok a → P s → Q a s)
    (he : ∀ e s, x = .error e → P s → E e s) :
    Triple P (Program.ofExcept x : EStateM ε σ α) Q E := by
  cases x with
  | ok a => exact .pure fun s hs => h a s rfl hs
  | error e => exact .throw fun s hs => he e s rfl hs

/-- A program on a part of the state: the rest is framed by `write`. -/
theorem Triple.zoom {read : σ → τ} {write : τ → σ → σ} {c : EStateM ε τ α}
    (h : ∀ s, P s → Triple (fun t => t = read s) c (fun a t => Q a (write t s))
      fun e t => E e (write t s)) :
    Triple P (Program.zoom read write c) Q E := by
  intro s hs
  have hc := h s hs (read s) rfl
  rw [Program.zoom]
  cases hr : c (read s) with
  | ok a t =>
    rw [hr] at hc
    exact hc
  | error e t =>
    rw [hr] at hc
    exact hc

theorem Triple.withLocals {init : τ} {c : EStateM ε (σ × τ) α}
    (h : Triple (fun s => P s.1 ∧ s.2 = init) c (fun a s => Q a s.1) fun e s => E e s.1) :
    Triple P (Program.withLocals init c) Q E := by
  intro s hs
  have hc := h (s, init) ⟨hs, rfl⟩
  simp only [Program.withLocals]
  cases hr : c (s, init) with
  | ok a s' =>
    rw [hr] at hc
    exact hc
  | error e s' =>
    rw [hr] at hc
    exact hc

theorem Triple.onState {t : τ} {c : EStateM ε σ α} (h : Triple P c Q E) :
    Triple (fun s => P s.1 ∧ s.2 = t) (Program.onState c) (fun a s => Q a s.1 ∧ s.2 = t)
      fun e s => E e s.1 ∧ s.2 = t := by
  refine Triple.zoom ?_
  rintro ⟨s, t'⟩ ⟨hs, ht⟩
  intro u hu
  have hc := h u (hu ▸ hs)
  cases hr : c u with
  | ok a s' =>
    rw [hr] at hc
    exact ⟨hc, ht⟩
  | error e s' =>
    rw [hr] at hc
    exact ⟨hc, ht⟩

end Constructs

/-! ### Loops -/

section Loops

variable {E : ε → σ → Prop}

/-- A loop over a list. `I done` is what holds once the elements of `done` were visited. -/
theorem Triple.forM {xs : List α} {f : α → EStateM ε σ PUnit} (I : List α → σ → Prop)
    (h : ∀ done x rest, xs = done ++ x :: rest →
      Triple (I done) (f x) (fun _ => I (done ++ [x])) E) :
    Triple (I []) (xs.forM f) (fun _ => I xs) E := by
  suffices hs : ∀ rest done, xs = done ++ rest →
      Triple (I done) (rest.forM f) (fun _ => I xs) E from hs xs [] rfl
  intro rest
  induction rest with
  | nil =>
    intro done hx
    rw [List.append_nil] at hx
    subst hx
    exact .pure fun s hs => hs
  | cons x rest ih =>
    intro done hx
    change Triple (I done) (f x >>= fun _ => rest.forM f) (fun _ => I xs) E
    refine (h done x rest hx).bind fun _ => ?_
    exact ih (done ++ [x]) (by rw [hx, List.append_assoc, List.singleton_append])

/-- A loop over a list whose invariant does not depend on the position. -/
theorem Triple.forM_inv {xs : List α} {f : α → EStateM ε σ PUnit} {I : σ → Prop}
    (h : ∀ x ∈ xs, Triple I (f x) (fun _ => I) E) :
    Triple I (xs.forM f) (fun _ => I) E := by
  refine Triple.forM (fun _ => I) fun done x rest hx => h x ?_
  rw [hx]
  exact List.mem_append_right _ (List.mem_cons_self ..)

/-- A loop that follows a pure fold which may fail. `F why` is what a throw leaves, and why it was
thrown: the fold does not come to a `good` end from here. -/
theorem Triple.forM_foldlM {f : α → EStateM ε σ PUnit} {g : τ → α → Option τ}
    {I : τ → σ → Prop} {good : τ → Prop} {F : Prop → ε → σ → Prop}
    (hF : ∀ {p q : Prop}, (p → q) → ∀ e s, F p e s → F q e s)
    (h : ∀ x t, Triple (I t) (f x) (fun _ s => ∃ t', g t x = some t' ∧ I t' s)
      (F (∀ t', g t x = some t' → ¬good t')))
    (hgood : ∀ t x t', g t x = some t' → good t' → good t) (xs : List α) (t : τ) :
    Triple (I t) (xs.forM f) (fun _ s => ∃ t', xs.foldlM g t = some t' ∧ I t' s)
      (F (∀ t', xs.foldlM g t = some t' → ¬good t')) := by
  have hfold : ∀ xs t t', List.foldlM g t xs = some t' → good t' → good t := by
    intro xs
    induction xs with
    | nil =>
      intro t t' ht hg
      injection ht with ht
      exact ht ▸ hg
    | cons x xs ih =>
      intro t t' ht hg
      rw [List.foldlM_cons] at ht
      cases hx : g t x with
      | none =>
        rw [hx] at ht
        cases ht
      | some t₁ =>
        rw [hx] at ht
        exact hgood t x t₁ hx (ih t₁ t' ht hg)
  induction xs generalizing t with
  | nil => exact .pure fun s hs => ⟨t, rfl, hs⟩
  | cons x xs ih =>
    change Triple (I t) (f x >>= fun _ => xs.forM f) _ _
    refine Triple.bind ((h x t).error (hF fun hx t' ht hg => ?_)) fun _ =>
      Triple.of_exists fun t₁ => Triple.of_pure fun hx => ?_
    · rw [List.foldlM_cons] at ht
      cases hx' : g t x with
      | none =>
        rw [hx'] at ht
        cases ht
      | some t₁ =>
        rw [hx'] at ht
        exact hx t₁ hx' (hfold xs t₁ t' ht hg)
    · rw [List.foldlM_cons, hx]
      exact ih t₁

/-- A loop that ends: `size` bounds the rounds still to come, and each round makes it smaller. -/
theorem Triple.drainWhile {busy : σ → Bool} {body : EStateM ε σ Unit} {I : σ → Prop}
    (size : σ → Nat) (hsize : ∀ s, busy s = true → 0 < size s)
    (h : ∀ n, Triple (fun s => I s ∧ busy s = true ∧ size s = n + 1) body
      (fun _ s => I s ∧ size s = n) E) (fuel : Nat) :
    Triple (fun s => I s ∧ size s ≤ fuel) (Program.drainWhile busy body fuel)
      (fun _ s => I s ∧ busy s = false) E := by
  induction fuel with
  | zero =>
    rw [Program.drainWhile]
    refine .pure fun s hs => ⟨hs.1, ?_⟩
    by_contra hb
    have hpos := hsize s (by simpa using hb)
    omega
  | succ fuel ih =>
    rw [Program.drainWhile]
    refine Triple.bind (M := fun t s => t = s ∧ I s ∧ size s ≤ fuel + 1)
      (.get fun s hs => ⟨rfl, hs⟩) fun t => ?_
    refine .ite (fun hb => ?_) fun hb => ?_
    · refine Triple.seq (M := fun s => I s ∧ size s ≤ fuel) ?_ ih
      intro s hs
      obtain ⟨rfl, hi, hle⟩ := hs
      obtain ⟨n, hn⟩ := Nat.exists_eq_succ_of_ne_zero (Nat.pos_iff_ne_zero.mp (hsize t hb))
      have hbody := h n t ⟨hi, hb, hn⟩
      cases hr : body t with
      | ok a s' =>
        rw [hr] at hbody
        exact ⟨hbody.1, by have := hbody.2; omega⟩
      | error e s' =>
        rw [hr] at hbody
        exact hbody
    · refine .pure fun s hs => ?_
      obtain ⟨rfl, hi, _⟩ := hs
      exact ⟨hi, by simpa using hb⟩

end Loops

end Program
