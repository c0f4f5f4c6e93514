import InpxWebReader.Domain.SearchQuery
import InpxWebReader.Foundation.Exception
import InpxWebReader.Library.Program
import InpxWebReader.Storage.CacheLayout

/-!
# The host a download works on

The files a download writes, and beside them whatever it only reads. Every call to the operating
system is one operation. The environment decides about each in turn: it may fail the operation,
which then changes nothing, and before each it may have changed what the program only reads.
-/

namespace InpxWebReader.App

open Foundation Storage

inductive Thrown
  | failed (failure : Failure)
  /-- `CFileReplacementRestoreException` -/
  | restore (message backupPath destinationPath : Bytes)
  /-- `CDomainException` -/
  | domain (code : Domain.DomainErrorCode) (message : Bytes)
  deriving DecidableEq, Repr

/-- `what()`, for a `std::exception`. -/
def Thrown.what? : Thrown → Option Bytes
  | .failed (.standard text) => some text
  | .failed .nonStandard => none
  | .restore message _ _ => some message
  | .domain _ message => some message

/-- `error_code::message`, for an operation that reports its error. -/
def errorMessage : Failure → Bytes
  | .standard text => text
  | .nonStandard => []

inductive Operation
  | exists (path : Bytes)
  | rename (source destination : Bytes)
  | remove (path : Bytes)
  | isDirectory (path : Bytes)
  | canonicalize (path : Bytes)
  | createDirectory (path : Bytes)
  | fileSize (path : Bytes)
  | copy (source destination : Bytes)
  | write (path : Bytes)
  | readDatabase
  | readSource
  | openArchive (path : Bytes)
  | readArchive
  | convert
  deriving DecidableEq, Repr

/-- The host: its files and directories by path, what is only read (`S`), the counter behind the
temporary names, and the operations so far, the latest first, each with whether it failed. -/
structure Host (S : Type) where
  files : Bytes → Option Bytes
  directories : Bytes → Bool := fun _ => true
  sources : S
  sequence : Nat := 0
  trace : List (Operation × Bool) := []

/-- What the environment does, by the number of operations so far. -/
structure HostEnv (S : Type) where
  /-- the error of an operation that fails -/
  fault : Nat → Option Failure := fun _ => none
  /-- what happens to the sources before an operation -/
  drift : Nat → S → S := fun _ sources => sources
  /-- `steady_clock::now` -/
  clock : Nat → Nat := fun n => n

abbrev HostM (S : Type) := EStateM Thrown (Host S)

variable {S α : Type}

def perform (env : HostEnv S) (operation : Operation)
    (act : Host S → Except Failure (α × Host S)) : HostM S α := fun h =>
  let seen := { h with sources := env.drift h.trace.length h.sources }
  match env.fault h.trace.length with
  | some failure => .error (.failed failure) { seen with trace := (operation, true) :: h.trace }
  | none =>
    match act seen with
    | .error failure => .error (.failed failure) { seen with trace := (operation, true) :: h.trace }
    | .ok (a, h') => .ok a { h' with trace := (operation, false) :: h.trace }

/-- An operation that reports its error instead of throwing it. -/
def attempt (c : HostM S Unit) : HostM S (Option Thrown) :=
  tryCatch (do c; return none) fun e => return some e

/-- What one operation can do: fail and change no file, or act. -/
theorem perform_triple {env : HostEnv S} {operation : Operation}
    {act : Host S → Except Failure (α × Host S)} {P : Host S → Prop} {Q : α → Host S → Prop}
    {E : Thrown → Host S → Prop}
    (hok : ∀ h sources a h', P h → act { h with sources := sources } = .ok (a, h') →
      Q a { h' with trace := (operation, false) :: h.trace })
    (herror : ∀ h sources failure, P h →
      E (.failed failure) { h with sources := sources, trace := (operation, true) :: h.trace }) :
    Program.Triple P (perform env operation act) Q E := by
  intro h hp
  rw [perform]
  dsimp only
  cases env.fault h.trace.length with
  | some failure => exact herror h _ failure hp
  | none =>
    cases hact : act { h with sources := env.drift h.trace.length h.sources } with
    | error failure => exact herror h _ failure hp
    | ok r => exact hok h _ r.1 r.2 hp hact

/-- An operation that reports its error comes back either way. -/
theorem attempt_triple {c : HostM S Unit} {P : Host S → Prop}
    {Q : Option Thrown → Host S → Prop} {E : Thrown → Host S → Prop}
    (h : Program.Triple P c (fun _ => Q none) fun e => Q (some e)) :
    Program.Triple P (attempt c) Q E :=
  .tryCatch (h.bind fun _ => .pure fun _ hq => hq) fun _ => .pure fun _ hq => hq

end InpxWebReader.App
