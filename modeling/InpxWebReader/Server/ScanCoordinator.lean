import InpxWebReader.Library.Program
import InpxWebReader.Scan.Progress
import InpxWebReader.Server.BookListRequest

/-!
# The scan coordinator

The coordinator holds the identifier of the job it started and the progress it saw last. Every
request takes its mutex, so requests run one after another; between them, and inside them, are calls
of the application host, each of which may throw.

`told_of_reply` says that a returned progress is the last thing the host said, always about one
job. The progress of the last job is still there when the next one has started and its first
snapshot has not arrived: `consistent_iff` says when this shows.
-/

namespace InpxWebReader.Server

open Foundation Scan Program

/-- `SInpxScanRequest`. -/
structure ScanRequest where
  mode : ScanMode := .initialScan
  warningLimit : Nat := 50
  deriving DecidableEq

/-- `SServerScanProgress`. -/
@[ext] structure ScanProgress where
  snapshot : Option ScanJobSnapshot := none
  result : Option ScanJobResult := none
  deriving DecidableEq

/-- `SServerScanRuntimeStatus`. -/
structure ScanRuntimeStatus where
  active : Bool := false
  activeJobs : Nat := 0
  maxConcurrentJobs : Nat := 1
  activeWorkers : Nat := 0
  maxWorkers : Nat := 1
  deriving DecidableEq

/-- The part of `IServerApplicationHost` that is about scan jobs, over a state of its own. What the
jobs do between two calls is part of the second of them. -/
structure ScanHost (κ : Type) where
  startInpxScan : ScanRequest → EStateM Exception κ Nat
  getInpxScanJobSnapshot : Nat → EStateM Exception κ (Option ScanJobSnapshot)
  getInpxScanJobResult : Nat → EStateM Exception κ (Option ScanJobResult)
  cancelInpxScanJob : Nat → EStateM Exception κ Bool
  removeInpxScanJob : Nat → EStateM Exception κ Bool

/-- An answer of the host about a job: a call that returned. -/
inductive HostAnswer
  | started (jobId : Nat)
  | snapshot (jobId : Nat) (answer : Option ScanJobSnapshot)
  | result (jobId : Nat) (answer : Option ScanJobResult)
  deriving DecidableEq

/-- `CServerScanCoordinator`. -/
structure ScanCoordinator where
  activeJobId : Option Nat := none
  lastProgress : ScanProgress := {}
  deriving DecidableEq

/-- `HasActiveScanLocked`. -/
def ScanCoordinator.hasActiveScan (coordinator : ScanCoordinator) : Bool :=
  coordinator.activeJobId.isSome &&
    !coordinator.lastProgress.snapshot.any ScanJobSnapshot.isTerminal

/-- The coordinator and its host, with the answers the host gave so far, the last one first. -/
structure ScanSystem (κ : Type) where
  coordinator : ScanCoordinator := {}
  host : κ
  answers : List HostAnswer := []

/-- What a request throws: an exception of the host, or an error of the coordinator. -/
inductive ScanError
  | host (e : Exception)
  | http (e : HttpError)
  deriving DecidableEq

/-- `CHttpErrorMapper::Conflict`. -/
def conflict (message : Bytes) : HttpError := ⟨409, ascii "conflict", message⟩

/-- `CHttpErrorMapper::NotFound`. -/
def notFound (message : Bytes) : HttpError := ⟨404, ascii "not_found", message⟩

/-! ### The requests -/

section Requests

variable {κ α : Type}

abbrev CoordM (κ : Type) := EStateM ScanError (ScanSystem κ)

def ask (call : EStateM Exception κ α) (heard : α → List HostAnswer) : CoordM κ α := fun s =>
  match call s.host with
  | .ok a k => .ok a { s with host := k, answers := heard a ++ s.answers }
  | .error e k => .error (.host e) { s with host := k }

/-- An assignment to `m_activeJobId`. -/
def setActiveJobId (jobId : Option Nat) : CoordM κ Unit :=
  modify fun s => { s with coordinator := { s.coordinator with activeJobId := jobId } }

/-- An assignment to `m_lastProgress`. -/
def setLastProgress (progress : ScanProgress) : CoordM κ Unit :=
  modify fun s => { s with coordinator := { s.coordinator with lastProgress := progress } }

/-- `PollProgressLocked`, after a snapshot that is terminal. -/
def collectResult (host : ScanHost κ) (jobId : Nat) (snapshot : ScanJobSnapshot) :
    CoordM κ ScanProgress := do
  let result ← ask (host.getInpxScanJobResult jobId) fun answer => [.result jobId answer]
  setLastProgress ⟨some snapshot, result⟩
  -- an answer of `false` is only logged
  let _ ← ask (host.removeInpxScanJob jobId) fun _ => []
  setActiveJobId none
  return ⟨some snapshot, result⟩

/-- `PollProgressLocked`, with the answer to its question for a snapshot. -/
def takeSnapshot (host : ScanHost κ) (jobId : Nat) :
    Option ScanJobSnapshot → CoordM κ ScanProgress
  | none => do
    setActiveJobId none
    setLastProgress {}
    return {}
  | some snapshot => do
    setLastProgress ⟨some snapshot, (← get).coordinator.lastProgress.result⟩
    if snapshot.isTerminal then
      collectResult host jobId snapshot
    else do
      setLastProgress ⟨some snapshot, none⟩
      return ⟨some snapshot, none⟩

def pollProgressLocked (host : ScanHost κ) : CoordM κ ScanProgress := do
  match (← get).coordinator.activeJobId with
  | none => return (← get).coordinator.lastProgress
  | some jobId => do
    let snapshot ← ask (host.getInpxScanJobSnapshot jobId) fun answer => [.snapshot jobId answer]
    takeSnapshot host jobId snapshot

/-- The first part of `StartScan`: a job that has ended makes room. -/
def makeRoom (host : ScanHost κ) : CoordM κ Unit := do
  match (← get).coordinator.activeJobId with
  | none => return ()
  | some _ => do
    let progress ← pollProgressLocked host
    require (¬(← get).coordinator.hasActiveScan)
      (.http (conflict (ascii "An INPX scan is already running.")))
    setLastProgress progress

/-- `SServerScanStartResult`, `SServerScanProgress`, `SServerScanCancelResult` and
`SServerScanRuntimeStatus`. -/
inductive ScanReply
  | started (jobId : Nat) (progress : ScanProgress)
  | progress (progress : ScanProgress)
  | cancelled (accepted : Bool) (progress : ScanProgress)
  | status (status : ScanRuntimeStatus)
  deriving DecidableEq

def ScanReply.progress? : ScanReply → Option ScanProgress
  | .started _ seen => some seen
  | .progress seen => some seen
  | .cancelled _ seen => some seen
  | .status _ => none

def startScan (host : ScanHost κ) (request : ScanRequest) : CoordM κ ScanReply := do
  makeRoom host
  let jobId ← ask (host.startInpxScan request) fun jobId => [.started jobId]
  setActiveJobId (some jobId)
  let progress ← pollProgressLocked host
  setLastProgress progress
  return .started jobId progress

def cancelActiveScan (host : ScanHost κ) : CoordM κ ScanReply := do
  match (← get).coordinator.activeJobId with
  | none => throw (.http (notFound (ascii "No active INPX scan is running.")))
  | some jobId => do
    let accepted ← ask (host.cancelInpxScanJob jobId) fun _ => []
    let progress ← pollProgressLocked host
    setLastProgress progress
    require (accepted ∨ (← get).coordinator.hasActiveScan)
      (.http (notFound (ascii "No active INPX scan is running.")))
    return .cancelled accepted progress

def ScanCoordinator.getRuntimeStatus (coordinator : ScanCoordinator) (maxWorkers : Nat) :
    ScanRuntimeStatus where
  active := coordinator.hasActiveScan
  activeJobs := if coordinator.hasActiveScan then 1 else 0
  maxConcurrentJobs := 1
  activeWorkers := if coordinator.hasActiveScan then maxWorkers else 0
  maxWorkers := maxWorkers

inductive ScanOperation
  | startScan (request : ScanRequest)
  | pollProgress
  | cancelActiveScan
  | getRuntimeStatus (maxWorkers : Nat)
  deriving DecidableEq

def serve (host : ScanHost κ) : ScanOperation → CoordM κ ScanReply
  | .startScan request => startScan host request
  | .pollProgress => do return .progress (← pollProgressLocked host)
  | .cancelActiveScan => cancelActiveScan host
  | .getRuntimeStatus maxWorkers => do
    return .status ((← get).coordinator.getRuntimeStatus maxWorkers)

/-- The state after some requests, each of which returned or threw. -/
def afterRequests (host : ScanHost κ) (s : ScanSystem κ) (operations : List ScanOperation) :
    ScanSystem κ :=
  operations.foldl (fun s operation => stateAfter (serve host operation s)) s

end Requests

/-! ### What the host said -/

/-- The answer to the last question for a snapshot. -/
def heardSnapshot : List HostAnswer → Option ScanJobSnapshot
  | [] => none
  | .started _ :: earlier => heardSnapshot earlier
  | .snapshot _ answer :: _ => answer
  | .result _ _ :: earlier => heardSnapshot earlier

/-- The answer to the last question for a result, of the job that was started last. -/
def heardResult : List HostAnswer → Option ScanJobResult
  | [] => none
  | .started _ :: _ => none
  | .snapshot _ _ :: earlier => heardResult earlier
  | .result _ answer :: _ => answer

/-- The job that has been started and of which neither a terminal snapshot nor the disappearance
has been observed. -/
def pending : List HostAnswer → Option Nat
  | [] => none
  | .started jobId :: _ => some jobId
  | .snapshot _ none :: _ => none
  | .snapshot _ (some snapshot) :: earlier => if snapshot.isTerminal then none else pending earlier
  | .result _ _ :: earlier => pending earlier

/-- A terminal snapshot of the job that was started last, and its result, have been observed. -/
inductive Observed (snapshot : ScanJobSnapshot) (result : ScanJobResult) : List HostAnswer → Prop
  | ended {jobId : Nat} {earlier : List HostAnswer} (hterminal : snapshot.isTerminal = true) :
      Observed snapshot result
        (.result jobId (some result) :: .snapshot jobId (some snapshot) :: earlier)
  | snapshot {jobId : Nat} {answer : Option ScanJobSnapshot} {earlier : List HostAnswer}
      (h : Observed snapshot result earlier) : Observed snapshot result (.snapshot jobId answer :: earlier)
  | result {jobId : Nat} {answer : Option ScanJobResult} {earlier : List HostAnswer}
      (h : Observed snapshot result earlier) : Observed snapshot result (.result jobId answer :: earlier)

/-- A job has been started, nothing has been heard of it, and the snapshot heard last is the
terminal one of a job before it. -/
def StartUnheard : List HostAnswer → Prop
  | [] => False
  | .started _ :: earlier => (heardSnapshot earlier).any ScanJobSnapshot.isTerminal = true
  | .snapshot _ _ :: _ => False
  | .result _ _ :: earlier => StartUnheard earlier

/-- The snapshot heard last is not terminal, though the job had ended or disappeared before. -/
def Resumed : List HostAnswer → Prop
  | .snapshot _ (some snapshot) :: earlier => snapshot.isTerminal = false ∧ pending earlier = none
  | _ => False

/-- What the host said last about the job is not this snapshot with this result. -/
def TakenBack (answers : List HostAnswer) (snapshot : ScanJobSnapshot) (result : ScanJobResult) :
    Prop :=
  heardSnapshot answers ≠ some snapshot ∨ heardResult answers ≠ some result

/-- The progress that the last answers of the host make, all of them about one job. -/
inductive Told : List HostAnswer → ScanProgress → Prop
  | nothing : Told [] {}
  | gone {jobId : Nat} {earlier : List HostAnswer} : Told (.snapshot jobId none :: earlier) {}
  | running {jobId : Nat} {snapshot : ScanJobSnapshot} {earlier : List HostAnswer}
      (hterminal : snapshot.isTerminal = false) :
      Told (.snapshot jobId (some snapshot) :: earlier) ⟨some snapshot, none⟩
  | ended {jobId : Nat} {snapshot : ScanJobSnapshot} {result : Option ScanJobResult}
      {earlier : List HostAnswer} (hterminal : snapshot.isTerminal = true) :
      Told (.result jobId result :: .snapshot jobId (some snapshot) :: earlier)
        ⟨some snapshot, result⟩

section Answers

variable {answers : List HostAnswer} {progress : ScanProgress} {snapshot : ScanJobSnapshot}
  {result : ScanJobResult}

theorem Observed.terminal (h : Observed snapshot result answers) : snapshot.isTerminal = true := by
  induction h with
  | ended hterminal => exact hterminal
  | snapshot _ ih => exact ih
  | result _ ih => exact ih

theorem Told.heard (h : Told answers progress) : progress.snapshot = heardSnapshot answers := by
  cases h <;> rfl

/-- The progress repeats an observed end unless the host has said something else since. -/
theorem Told.eq_observed_iff (h : Told answers progress) (hseen : Observed snapshot result answers) :
    progress = ⟨some snapshot, some result⟩ ↔ ¬TakenBack answers snapshot result := by
  have hterminal := hseen.terminal
  cases h with
  | nothing => cases hseen
  | gone => simp [TakenBack, heardSnapshot]
  | @running jobId heard earlier hrunning =>
    have hne : heard ≠ snapshot := by
      rintro rfl
      rw [hterminal] at hrunning
      cases hrunning
    simp [TakenBack, heardSnapshot, hne]
  | ended => simp [TakenBack, heardSnapshot, heardResult]

/-- While a job is pending, the snapshot heard last is terminal only if it is of a job before. -/
theorem terminal_iff_startUnheard {jobId : Nat} (h : pending answers = some jobId) :
    (heardSnapshot answers).any ScanJobSnapshot.isTerminal = true ↔ StartUnheard answers := by
  induction answers with
  | nil => cases h
  | cons answer earlier ih =>
    cases answer with
    | started jobId => exact Iff.rfl
    | result jobId result => exact ih h
    | snapshot jobId answer =>
      cases answer with
      | none => cases h
      | some snapshot =>
        simp only [pending, Option.ite_none_left_eq_some] at h
        simp [heardSnapshot, StartUnheard, h.1]

theorem not_startUnheard (h : pending answers = none) : ¬StartUnheard answers := by
  induction answers with
  | nil => exact id
  | cons answer earlier ih =>
    cases answer with
    | started jobId => cases h
    | result jobId result => exact ih h
    | snapshot jobId answer => exact id

theorem Resumed.pending_eq_none (h : Resumed answers) : pending answers = none := by
  match answers, h with
  | .snapshot _ (some snapshot) :: earlier, h => simp [pending, h.1, h.2]

theorem Resumed.not_terminal (h : Resumed answers) :
    (heardSnapshot answers).any ScanJobSnapshot.isTerminal = false := by
  match answers, h with
  | .snapshot _ (some snapshot) :: earlier, h => simp [heardSnapshot, h.1]

end Answers

/-! ### What a request leaves behind -/

section Steps

variable {κ α : Type} {host : ScanHost κ}

/-- The answers about the job with this identifier, which the coordinator has not let go. -/
def Current (jobId : Nat) (answers : List HostAnswer) : Prop :=
  pending answers = some jobId ∨ pending answers = none ∧
    ((heardSnapshot answers).any ScanJobSnapshot.isTerminal = true ∨ Resumed answers)

/-- What the coordinator holds is what the host said. -/
structure Agrees (s : ScanSystem κ) : Prop where
  heard : s.coordinator.lastProgress.snapshot = heardSnapshot s.answers
  live : ∀ jobId, s.coordinator.activeJobId = some jobId → Current jobId s.answers
  idle : s.coordinator.activeJobId = none →
    Told s.answers s.coordinator.lastProgress ∧ pending s.answers = none ∧ ¬Resumed s.answers

/-- A throw leaves a coordinator that agrees with the host. -/
def StillAgrees : ScanError → ScanSystem κ → Prop := fun _ s => Agrees s

theorem agrees_initially (k : κ) : Agrees ({ host := k } : ScanSystem κ) where
  heard := rfl
  live := nofun
  idle _ := ⟨.nothing, rfl, id⟩

theorem Agrees.onHost {s : ScanSystem κ} (h : Agrees s) (k : κ) : Agrees { s with host := k } :=
  ⟨h.heard, h.live, h.idle⟩

/-- A call of the host adds its answer when it returns, and nothing when it throws. -/
theorem ask_spec {call : EStateM Exception κ α} {heard : α → List HostAnswer}
    {P : ScanSystem κ → Prop} {Q : α → ScanSystem κ → Prop} {E : ScanError → ScanSystem κ → Prop}
    (hok : ∀ s a k, P s → Q a { s with host := k, answers := heard a ++ s.answers })
    (herror : ∀ s e k, P s → E e { s with host := k }) : Triple P (ask call heard) Q E := by
  intro s hs
  rw [ask]
  cases call s.host with
  | ok a k => exact hok s a k hs
  | error e k => exact herror s (.host e) k hs

/-- A coordinator that has seen the end of its job agrees with the host before it lets go. -/
theorem Agrees.of_end {jobId : Nat} {s : ScanSystem κ}
    (hactive : s.coordinator.activeJobId = some jobId)
    (hheard : s.coordinator.lastProgress.snapshot = heardSnapshot s.answers)
    (hterminal : (heardSnapshot s.answers).any ScanJobSnapshot.isTerminal = true)
    (hpending : pending s.answers = none) : Agrees s where
  heard := hheard
  live _ _ := .inr ⟨hpending, .inl hterminal⟩
  idle hidle := by
    rw [hactive] at hidle
    cases hidle

/-- A poll returned what the coordinator now holds, and it is what the host said last. -/
structure Polled (progress : ScanProgress) (s : ScanSystem κ) : Prop where
  agrees : Agrees s
  told : Told s.answers progress
  held : s.coordinator.lastProgress = progress
  -- a job whose end is returned has been removed
  settled : progress.snapshot.any ScanJobSnapshot.isTerminal = true →
    s.coordinator.activeJobId = none

/-- The coordinator lets go of its job when what it holds is what the host said last. -/
theorem polled_of_told {progress : ScanProgress} {s : ScanSystem κ}
    (hidle : s.coordinator.activeJobId = none) (htold : Told s.answers progress)
    (hheld : s.coordinator.lastProgress = progress) (hpending : pending s.answers = none)
    (hresumed : ¬Resumed s.answers) : Polled progress s := by
  refine ⟨⟨?_, ?_, fun _ => ⟨hheld ▸ htold, hpending, hresumed⟩⟩, htold, hheld, fun _ => hidle⟩
  · rw [hheld, htold.heard]
  · intro jobId hactive
    rw [hidle] at hactive
    cases hactive

theorem collectResult_spec {jobId : Nat} {snapshot : ScanJobSnapshot} {earlier : List HostAnswer}
    (hterminal : snapshot.isTerminal = true) :
    Triple (fun s => s.coordinator.activeJobId = some jobId ∧
        s.coordinator.lastProgress.snapshot = some snapshot ∧
        s.answers = .snapshot jobId (some snapshot) :: earlier)
      (collectResult host jobId snapshot) Polled StillAgrees := by
  rw [collectResult]
  refine .bind (M := fun result s => s.coordinator.activeJobId = some jobId ∧
      s.answers = .result jobId result :: .snapshot jobId (some snapshot) :: earlier)
    (ask_spec (fun s result k h => ?_) fun s e k h => ?_) fun result => ?_
  · obtain ⟨hactive, -, hanswers⟩ := h
    exact ⟨hactive, congrArg (HostAnswer.result jobId result :: ·) hanswers⟩
  · obtain ⟨hactive, hheld, hanswers⟩ := h
    refine (Agrees.of_end hactive ?_ ?_ ?_).onHost k
    · rw [hheld, hanswers, heardSnapshot]
    · rw [hanswers]
      exact hterminal
    · simp [hanswers, pending, hterminal]
  refine .seq (M := fun s => s.coordinator.activeJobId = some jobId ∧
      s.coordinator.lastProgress = ⟨some snapshot, result⟩ ∧
      s.answers = .result jobId result :: .snapshot jobId (some snapshot) :: earlier)
    (.modify fun s h => ⟨h.1, rfl, h.2⟩) ?_
  refine .bind (M := fun _ s => s.coordinator.lastProgress = ⟨some snapshot, result⟩ ∧
      s.answers = .result jobId result :: .snapshot jobId (some snapshot) :: earlier)
    (ask_spec (fun s _ k h => h.2) fun s e k h => ?_) fun _ => ?_
  · -- the removal threw: the coordinator keeps the job it has seen the end of
    obtain ⟨hactive, hheld, hanswers⟩ := h
    refine (Agrees.of_end hactive ?_ ?_ ?_).onHost k
    · rw [hheld, hanswers]
      rfl
    · rw [hanswers]
      exact hterminal
    · simp [hanswers, pending, hterminal]
  refine .seq (M := Polled ⟨some snapshot, result⟩) (.modify fun s h => ?_) (.pure fun s h => h)
  obtain ⟨hheld, hanswers⟩ := h
  refine polled_of_told rfl ?_ hheld ?_ ?_
  · show Told s.answers ⟨some snapshot, result⟩
    rw [hanswers]
    exact .ended hterminal
  · show pending s.answers = none
    simp [hanswers, pending, hterminal]
  · show ¬Resumed s.answers
    rw [hanswers]
    exact id

theorem takeSnapshot_spec {jobId : Nat} {answer : Option ScanJobSnapshot}
    {earlier : List HostAnswer} (hearlier : pending earlier = some jobId ∨ pending earlier = none) :
    Triple (fun s => s.coordinator.activeJobId = some jobId ∧
        s.answers = .snapshot jobId answer :: earlier)
      (takeSnapshot host jobId answer) Polled StillAgrees := by
  cases answer with
  | none =>
    refine .seq (M := fun s => s.coordinator.activeJobId = none ∧
        s.answers = .snapshot jobId none :: earlier)
      (.modify fun s h => ⟨rfl, h.2⟩) ?_
    refine .seq (M := Polled {}) (.modify fun s h => ?_) (.pure fun s h => h)
    obtain ⟨hidle, hanswers⟩ := h
    refine polled_of_told hidle ?_ rfl ?_ ?_
    · show Told s.answers {}
      rw [hanswers]
      exact .gone
    · show pending s.answers = none
      rw [hanswers, pending]
    · show ¬Resumed s.answers
      rw [hanswers]
      exact id
  | some snapshot =>
    rw [takeSnapshot]
    refine .bind (M := fun _ s => s.coordinator.activeJobId = some jobId ∧
        s.answers = .snapshot jobId (some snapshot) :: earlier)
      (.get fun s h => h) fun s₀ => ?_
    refine .seq (M := fun s => s.coordinator.activeJobId = some jobId ∧
        s.coordinator.lastProgress.snapshot = some snapshot ∧
        s.answers = .snapshot jobId (some snapshot) :: earlier)
      (.modify fun s h => ⟨h.1, rfl, h.2⟩) ?_
    refine .ite (fun hterminal => collectResult_spec hterminal) fun hrunning => ?_
    replace hrunning : snapshot.isTerminal = false := by simpa using hrunning
    refine .seq (M := Polled ⟨some snapshot, none⟩) (.modify fun s h => ?_) (.pure fun s h => h)
    obtain ⟨hactive, -, hanswers⟩ := h
    refine ⟨⟨?_, ?_, ?_⟩, ?_, rfl, ?_⟩
    · show some snapshot = heardSnapshot s.answers
      rw [hanswers, heardSnapshot]
    · intro jobId' hactive'
      have hjob : jobId' = jobId := Option.some.inj (hactive'.symm.trans hactive)
      subst hjob
      show Current jobId' s.answers
      rw [hanswers]
      rcases hearlier with hpending | hpending
      · exact .inl (by simp [pending, hrunning, hpending])
      · exact .inr ⟨by simp [pending, hrunning, hpending], .inr ⟨hrunning, hpending⟩⟩
    · intro hidle
      exact absurd (hactive.symm.trans hidle) nofun
    · show Told s.answers ⟨some snapshot, none⟩
      rw [hanswers]
      exact .running hrunning
    · intro hterminal
      rw [Option.any_some, hrunning] at hterminal
      cases hterminal

/-- A poll keeps the agreement, also where it throws, and returns what the host said last. -/
theorem pollProgressLocked_spec : Triple Agrees (pollProgressLocked host) Polled StillAgrees := by
  rw [pollProgressLocked]
  refine .bind (M := fun s₀ s => s = s₀ ∧ Agrees s) (.get fun s h => ⟨rfl, h⟩) fun s₀ => ?_
  refine .of_state fun s hs => ?_
  obtain ⟨rfl, h⟩ := hs
  cases hactive : s.coordinator.activeJobId with
  | none =>
    refine .bind (M := fun s₁ s₂ => s₁ = s ∧ s₂ = s) (.get fun _ hs => ⟨hs, hs⟩) fun s₁ => ?_
    refine .pure fun s₂ hs => ?_
    obtain ⟨rfl, rfl⟩ := hs
    obtain ⟨htold, -, -⟩ := h.idle hactive
    exact ⟨h, htold, rfl, fun _ => hactive⟩
  | some jobId =>
    have hearlier : pending s.answers = some jobId ∨ pending s.answers = none :=
      (h.live jobId hactive).imp id And.left
    refine .bind (M := fun answer s' => s'.coordinator.activeJobId = some jobId ∧
        s'.answers = .snapshot jobId answer :: s.answers)
      (ask_spec (fun s' answer k hs => ?_) fun s' e k hs => ?_)
      fun answer => takeSnapshot_spec hearlier
    · subst hs
      exact ⟨hactive, rfl⟩
    · subst hs
      exact h.onHost k

theorem makeRoom_spec : Triple Agrees (makeRoom host) (fun _ => Agrees) StillAgrees := by
  rw [makeRoom]
  refine .bind (M := fun _ => Agrees) (.get fun s h => h) fun s₀ => ?_
  cases s₀.coordinator.activeJobId with
  | none => exact .pure fun s h => h
  | some jobId =>
    refine .bind (M := Polled) pollProgressLocked_spec fun progress => ?_
    refine .bind (M := fun _ => Polled progress) (.get fun s h => h) fun s₁ => ?_
    refine .seq (M := Polled progress) (.require (fun s h _ => h) fun s h _ => h.agrees) ?_
    exact .modify fun s h => h.held ▸ h.agrees

/-- A progress in a reply is that of a poll. -/
def RepliedAs (reply : ScanReply) (s : ScanSystem κ) : Prop :=
  Agrees s ∧ ∀ progress ∈ reply.progress?, Polled progress s

theorem serve_pollProgress_of_idle {s : ScanSystem κ} (h : s.coordinator.activeJobId = none) :
    serve host .pollProgress s = .ok (.progress s.coordinator.lastProgress) s := by
  have hpoll : pollProgressLocked host s = .ok s.coordinator.lastProgress s := by
    rw [pollProgressLocked, bind_ok (rfl : (get : CoordM κ _) s = .ok s s), h]
    rfl
  rw [serve, bind_ok hpoll]
  rfl

theorem startScan_spec (request : ScanRequest) :
    Triple Agrees (startScan host request) RepliedAs StillAgrees := by
  rw [startScan]
  refine .seq (M := Agrees) makeRoom_spec ?_
  refine .bind (M := fun jobId s => pending s.answers = some jobId ∧
      s.coordinator.lastProgress.snapshot = heardSnapshot s.answers)
    (ask_spec (fun s jobId k h => ⟨rfl, h.heard⟩) fun s e k h => h.onHost k) fun jobId => ?_
  refine .seq (M := Agrees) (.modify fun s h => ?_) ?_
  · obtain ⟨hpending, hheard⟩ := h
    refine ⟨hheard, fun jobId' hactive => .inl ?_, nofun⟩
    exact hpending.trans hactive
  refine .bind (M := Polled) pollProgressLocked_spec fun progress => ?_
  refine .seq (M := Polled progress)
    (.modify fun s h => ⟨h.held ▸ h.agrees, h.told, rfl, h.settled⟩) (.pure fun s h => ?_)
  refine ⟨h.agrees, ?_⟩
  rintro _ ⟨⟩
  exact h

theorem cancelActiveScan_spec :
    Triple Agrees (cancelActiveScan host) RepliedAs StillAgrees := by
  rw [cancelActiveScan]
  refine .bind (M := fun _ => Agrees) (.get fun s h => h) fun s₀ => ?_
  cases s₀.coordinator.activeJobId with
  | none => exact .throw fun s h => h
  | some jobId =>
    refine .bind (M := fun _ => Agrees)
      (ask_spec (fun s _ k h => h.onHost k) fun s e k h => h.onHost k) fun accepted => ?_
    refine .bind (M := Polled) pollProgressLocked_spec fun progress => ?_
    refine .seq (M := Polled progress)
      (.modify fun s h => ⟨h.held ▸ h.agrees, h.told, rfl, h.settled⟩) ?_
    refine .bind (M := fun _ => Polled progress) (.get fun s h => h) fun s₁ => ?_
    refine .seq (M := Polled progress) (.require (fun s h _ => h) fun s h _ => h.agrees)
      (.pure fun s h => ?_)
    refine ⟨h.agrees, ?_⟩
    rintro _ ⟨⟩
    exact h

/-- Every request keeps the agreement, whether it returns or throws. -/
theorem serve_spec (operation : ScanOperation) :
    Triple Agrees (serve host operation) RepliedAs StillAgrees := by
  cases operation with
  | startScan request => exact startScan_spec request
  | cancelActiveScan => exact cancelActiveScan_spec
  | pollProgress =>
    refine .bind (M := Polled) pollProgressLocked_spec fun progress => .pure fun s h => ?_
    refine ⟨h.agrees, ?_⟩
    rintro _ ⟨⟩
    exact h
  | getRuntimeStatus maxWorkers =>
    exact .bind (M := fun _ => Agrees) (.get fun s h => h) fun s₀ => .pure fun s h => ⟨h, nofun⟩

theorem agrees_afterRequests {s : ScanSystem κ} (h : Agrees s) (operations : List ScanOperation) :
    Agrees (afterRequests host s operations) := by
  induction operations generalizing s with
  | nil => exact h
  | cons operation operations ih =>
    refine ih ?_
    show Agrees (stateAfter (serve host operation s))
    have hspec : Triple Agrees (serve host operation) RepliedAs StillAgrees := serve_spec operation
    have hserve := hspec s h
    cases hrun : serve host operation s with
    | ok reply s' =>
      rw [hrun] at hserve
      exact hserve.1
    | error e s' =>
      rw [hrun] at hserve
      exact hserve

/-- A scan is reported as active when a job is pending, except where the last job hides a new one
or the host took an end back. -/
theorem Agrees.active_iff {s : ScanSystem κ} (h : Agrees s) :
    (s.coordinator.hasActiveScan = true ↔ (pending s.answers).isSome = true) ↔
      ¬(StartUnheard s.answers ∨ Resumed s.answers) := by
  rw [ScanCoordinator.hasActiveScan, h.heard]
  cases hactive : s.coordinator.activeJobId with
  | none =>
    obtain ⟨-, hpending, hresumed⟩ := h.idle hactive
    simp [hpending, hresumed, not_startUnheard hpending]
  | some jobId =>
    rcases h.live jobId hactive with hpending | ⟨hpending, hterminal | hresumed⟩
    · have hresumed : ¬Resumed s.answers := by
        intro hresumed
        rw [hresumed.pending_eq_none] at hpending
        cases hpending
      have hiff := terminal_iff_startUnheard hpending
      simp [hpending, hresumed, ← hiff]
    · have hresumed : ¬Resumed s.answers := by
        intro hresumed
        rw [hresumed.not_terminal] at hterminal
        cases hterminal
      simp [hpending, hterminal, hresumed, not_startUnheard hpending]
    · simp [hpending, hresumed, hresumed.not_terminal]

end Steps

/-! ### The coordinator -/

/-- The coordinator is consistent with what its host said: after any requests, whatever the calls of
the host returned or threw, the runtime status is right unless a new job is still unheard behind the
end of the last one (or the host took an end back); a progress that a request returns is about one
job, and repeats an observed end unless the host has taken it back; and once a request returned an
end, which it does when the job is removed, a poll returns it again and asks the host nothing. -/
theorem consistent_iff {κ : Type} (host : ScanHost κ) (k : κ) (before : List ScanOperation) :
    let s := afterRequests host { host := k } before
    (∀ maxWorkers status s', serve host (.getRuntimeStatus maxWorkers) s = .ok (.status status) s' →
      ((status.active = true ↔ (pending s.answers).isSome = true) ↔
        ¬(StartUnheard s.answers ∨ Resumed s.answers))) ∧
    (∀ operation reply s', serve host operation s = .ok reply s' →
      ∀ progress ∈ reply.progress?, Told s'.answers progress ∧
        ∀ snapshot result, Observed snapshot result s'.answers →
          (progress = ⟨some snapshot, some result⟩ ↔ ¬TakenBack s'.answers snapshot result)) ∧
    (∀ operation reply s', serve host operation s = .ok reply s' →
      ∀ progress ∈ reply.progress?,
        progress.snapshot.any ScanJobSnapshot.isTerminal = true →
          serve host .pollProgress s' = .ok (.progress progress) s') := by
  intro s
  have hs : Agrees s := agrees_afterRequests (agrees_initially k) before
  refine ⟨?_, ?_, ?_⟩
  · intro maxWorkers status s' hrun
    cases hrun
    exact hs.active_iff
  · intro operation reply s' hrun progress hprogress
    have htold := (((serve_spec operation).ok hs hrun).2 progress hprogress).told
    exact ⟨htold, fun snapshot result hseen => htold.eq_observed_iff hseen⟩
  · intro operation reply s' hrun progress hprogress hterminal
    have hpolled := ((serve_spec operation).ok hs hrun).2 progress hprogress
    rw [serve_pollProgress_of_idle (hpolled.settled hterminal), hpolled.held]

/-! ### Two runs -/

/-- The next answer of a host that follows a script. -/
inductive ScriptedAnswer
  | started (jobId : Nat)
  | snapshot (answer : Option ScanJobSnapshot)
  | result (answer : Option ScanJobResult)
  | done (answer : Bool)
  | throws
  deriving DecidableEq

/-- A host whose calls take their answers from a script, and throw where it has another one. -/
def scriptedHost : ScanHost (List ScriptedAnswer) where
  startInpxScan _ := fun script => match script with
    | .started jobId :: rest => .ok jobId rest
    | _ => .error (.failed .nonStandard) script.tail
  getInpxScanJobSnapshot _ := fun script => match script with
    | .snapshot answer :: rest => .ok answer rest
    | _ => .error (.failed .nonStandard) script.tail
  getInpxScanJobResult _ := fun script => match script with
    | .result answer :: rest => .ok answer rest
    | _ => .error (.failed .nonStandard) script.tail
  cancelInpxScanJob _ := fun script => match script with
    | .done answer :: rest => .ok answer rest
    | _ => .error (.failed .nonStandard) script.tail
  removeInpxScanJob _ := fun script => match script with
    | .done answer :: rest => .ok answer rest
    | _ => .error (.failed .nonStandard) script.tail

/-- The snapshot and the result of a scan that ended. -/
def endedScan : ScanJobSnapshot := { jobId := 1, status := .completed }

def endedResult : ScanJobResult := { snapshot := endedScan }

/-- A scan runs and ends. The next one starts, and the first question for its snapshot throws. -/
def unheardScript : List ScriptedAnswer :=
  [.started 1, .snapshot (some { jobId := 1, status := .running }),
    .snapshot (some endedScan), .result (some endedResult), .done true, .started 2, .throws]

/-- A scan ends, and its removal throws after the job is gone. -/
def goneScript : List ScriptedAnswer :=
  [.started 1, .snapshot (some { jobId := 1, status := .running }),
    .snapshot (some endedScan), .result (some endedResult), .throws, .snapshot none]

/-- A job has been started and the runtime status does not report it; a progress that was observed
is not returned. -/
theorem not_consistent :
    (let s := afterRequests scriptedHost { host := unheardScript }
      [.startScan {}, .pollProgress, .startScan {}]
    pending s.answers = some 2 ∧ (s.coordinator.getRuntimeStatus 4).active = false) ∧
    (let s := afterRequests scriptedHost { host := goneScript } [.startScan {}, .pollProgress]
    Observed endedScan endedResult s.answers ∧
      ∃ s', serve scriptedHost .pollProgress s = .ok (.progress {}) s') := by
  refine ⟨by decide, .ended rfl, _, rfl⟩

end InpxWebReader.Server
