import InpxWebReader.Foundation.Text

/-!
# Exceptions

What a handler of the program can tell apart: the stop signal `CInpxScanCancelled`, which is a
`std::exception` of its own class, and a `Failure`, which is every other throw. Code outside the
scan (the file system, the archives, the database) raises failures only; the stop signal comes
from a checkpoint.
-/

namespace InpxWebReader

open Foundation

/-- A throw other than the stop signal. -/
inductive Failure
  /-- a `std::exception`, with its text -/
  | standard (text : Bytes)
  /-- a throw of something that is not a `std::exception` -/
  | nonStandard
  deriving DecidableEq, Repr

/-- `throw std::runtime_error` with a literal text. -/
def runtimeError (text : String) : Failure := .standard (ascii text)

inductive Exception
  /-- `CInpxScanCancelled` -/
  | cancelled
  | failed (failure : Failure)
  deriving DecidableEq, Repr

namespace Exception

/-- `what()`, for the exceptions that have one. -/
def what? : Exception → Option Bytes
  | .cancelled => some (ascii "INPX scan cancelled.")
  | .failed (.standard text) => some text
  | .failed .nonStandard => none

/-- `catch (const std::exception& e)` that throws a new error made from the text; whatever is not
a `std::exception` passes through. -/
def rethrowAs (wrap : Bytes → Bytes) (e : Exception) : Exception :=
  match e.what? with
  | some text => .failed (.standard (wrap text))
  | none => e

/-- The same handler behind `catch (const CInpxScanCancelled&) { throw; }`. -/
def rethrowUnlessCancelled (wrap : Bytes → Bytes) (e : Exception) : Exception :=
  if e = .cancelled then e else e.rethrowAs wrap

/-- A handler for `std::exception` alone turns the stop signal into an ordinary error. -/
theorem rethrowAs_ne_cancelled (wrap : Bytes → Bytes) (e : Exception) :
    e.rethrowAs wrap ≠ .cancelled := by
  rcases e with _ | _ | _ <;> exact fun h => by cases h

theorem rethrowUnlessCancelled_eq_cancelled {wrap : Bytes → Bytes} {e : Exception} :
    e.rethrowUnlessCancelled wrap = .cancelled ↔ e = .cancelled := by
  unfold rethrowUnlessCancelled
  split
  · exact Iff.rfl
  · exact ⟨fun h => absurd h (rethrowAs_ne_cancelled wrap e), fun h => absurd h ‹_›⟩

end Exception

/-- An operation outside the scan that runs the checkpoint it is given `checkpoints` times before
it answers. -/
structure Call (α : Type) where
  checkpoints : Nat := 0
  result : Except Failure α

def Call.of {α : Type} (a : α) : Call α := ⟨0, .ok a⟩

end InpxWebReader
