import InpxWebReader.Library.Program

/-!
# What a program leaves alone

`Leaves part k c` says that `part` of the state is `k` after `c` when it was `k` before, whether `c`
returned or threw. The rules follow the constructs of the language, so that the proof of it has the
shape of the program.
-/

namespace Program

variable {ε σ τ γ δ α β : Type} {part : σ → γ} {k : γ}

/-- The program leaves a part of the state alone. -/
def Leaves (part : σ → γ) (k : γ) (c : EStateM ε σ α) : Prop :=
  Triple (fun s => part s = k) c (fun _ s => part s = k) fun _ s => part s = k

namespace Leaves

theorem pure {a : α} : Leaves part k (Pure.pure a : EStateM ε σ α) :=
  Triple.pure fun _ hs => hs

theorem throw {e : ε} : Leaves part k (MonadExcept.throw e : EStateM ε σ α) :=
  Triple.throw fun _ hs => hs

theorem bind {c : EStateM ε σ β} {f : β → EStateM ε σ α} (hc : Leaves part k c)
    (hf : ∀ b, Leaves part k (f b)) : Leaves part k (c >>= f) :=
  Triple.bind hc hf

theorem ite {p : Prop} [Decidable p] {c d : EStateM ε σ α} (hc : Leaves part k c)
    (hd : Leaves part k d) : Leaves part k (if p then c else d) :=
  Triple.ite (fun _ => hc) fun _ => hd

/-- Reading the state: the part is known of what was read. -/
theorem get_bind {f : σ → EStateM ε σ α} (hf : ∀ s, part s = k → Leaves part k (f s)) :
    Leaves part k (MonadState.get >>= f) := by
  intro s hs
  exact hf s hs s hs

theorem set {s : σ} (h : part s = k) :
    Leaves part k (MonadStateOf.set s : EStateM ε σ PUnit) :=
  fun _ _ => h

theorem modify {f : σ → σ} (h : ∀ s, part s = k → part (f s) = k) :
    Leaves part k (MonadStateOf.modifyGet fun s => (PUnit.unit, f s) : EStateM ε σ PUnit) :=
  Triple.modify h

theorem require {p : Prop} [Decidable p] {e : ε} : Leaves part k (Program.require p e) := by
  rw [Program.require]
  exact .ite .pure .throw

theorem ofExcept {x : Except ε α} : Leaves part k (Program.ofExcept x : EStateM ε σ α) := by
  cases x with
  | ok a => exact .pure
  | error e => exact .throw

theorem forM {xs : List α} {f : α → EStateM ε σ PUnit} (h : ∀ x, Leaves part k (f x)) :
    Leaves part k (xs.forM f) :=
  Triple.forM_inv fun x _ => h x

theorem tryCatch {c : EStateM ε σ α} {handler : ε → EStateM ε σ α} (hc : Leaves part k c)
    (hh : ∀ e, Leaves part k (handler e)) : Leaves part k (MonadExcept.tryCatch c handler) :=
  Triple.tryCatch hc hh

theorem drainWhile {busy : σ → Bool} {body : EStateM ε σ Unit} (h : Leaves part k body)
    (fuel : Nat) : Leaves part k (Program.drainWhile busy body fuel) := by
  induction fuel with
  | zero => exact .pure
  | succ fuel ih =>
    rw [Program.drainWhile]
    exact .get_bind fun s _ => .ite (h.bind fun _ => ih) .pure

theorem zoom {read : σ → τ} {write : τ → σ → σ} {c : EStateM ε τ α}
    (h : ∀ t s, part (write t s) = part s) : Leaves part k (Program.zoom read write c) := by
  refine Triple.zoom fun s hs t _ => ?_
  cases c t with
  | ok a t' => exact (h t' s).trans hs
  | error e t' => exact (h t' s).trans hs

theorem ok {c : EStateM ε σ α} {s s' : σ} {a : α} (h : ∀ k, Leaves part k c)
    (hr : c s = .ok a s') : part s' = part s := by
  have hs := h (part s) s rfl
  rw [hr] at hs
  exact hs

theorem throws {c : EStateM ε σ α} {s s' : σ} {e : ε} (h : ∀ k, Leaves part k c)
    (hr : c s = .error e s') : part s' = part s := by
  have hs := h (part s) s rfl
  rw [hr] at hs
  exact hs

/-- A program that leaves a part alone keeps what is known of it. -/
theorem keeps {P : γ → Prop} {E : ε → σ → Prop} {c : EStateM ε σ α} (h : ∀ k, Leaves part k c)
    (hE : ∀ e s, P (part s) → E e s) :
    Triple (fun s => P (part s)) c (fun _ s => P (part s)) E := by
  refine Triple.of_state fun s hs => ?_
  refine Triple.conseq (h (part s)) (fun s' hs' => by rw [hs']) (fun _ s' hs' => ?_)
    fun e s' hs' => hE e s' ?_
  · rw [hs']
    exact hs
  · rw [hs']
    exact hs

end Leaves

end Program
