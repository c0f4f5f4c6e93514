import InpxWebReader.Scan.ExecutionSpec
import InpxWebReader.Scan.RecordCounts
import InpxWebReader.Scan.Watch

/-!
# The counters of a scan

The planning publishes what the segments hold and what of it is reused. From there every record that
the execution comes to is scanned, and it is deleted, unsupported, or a book whose payload is in
flight or parsed (`Tally`). So the counters of a published snapshot never pass their totals, the
percentage rises, and at the end of the execution, when nothing is in flight, the records are
accounted for.
-/

namespace InpxWebReader.Scan

open Foundation Domain Inpx Program ExecState

/-- What the counters of every snapshot satisfy. -/
structure ScanCounts.Sound (c : ScanCounts) : Prop where
  scanned : c.scannedRecords ≤ c.totalRecords
  percent : c.percent < 100
  segments : c.segmentsTotal =
    c.segmentsUnchanged + c.segmentsAdded + c.segmentsChanged + c.segmentsRemoved

/-- The snapshots so far have sound counters, and their percentages rise to the current one. -/
structure Progress.Sound (p : Progress) : Prop where
  current : p.snapshot.counts.Sound
  published : ∀ snapshot ∈ p.published,
    snapshot.counts.Sound ∧ snapshot.percent ≤ p.snapshot.percent
  rising : p.published.Pairwise fun later earlier => earlier.percent ≤ later.percent

theorem Progress.Sound.publish {p : Progress} (h : p.Sound)
    {update : ScanJobSnapshot → ScanJobSnapshot} (hsound : (update p.snapshot).counts.Sound)
    (hle : p.snapshot.percent ≤ (update p.snapshot).percent) : (p.publish update).Sound := by
  have hbelow : ∀ snapshot ∈ p.published,
      snapshot.counts.Sound ∧ snapshot.percent ≤ (update p.snapshot).percent :=
    fun snapshot hs => ⟨(h.published snapshot hs).1, (h.published snapshot hs).2.trans hle⟩
  refine ⟨hsound, fun snapshot hs => ?_, ?_⟩
  · rcases List.mem_cons.mp hs with rfl | hs
    · exact ⟨hsound, le_refl _⟩
    · exact hbelow snapshot hs
  · exact List.pairwise_cons.mpr ⟨fun snapshot hs => (hbelow snapshot hs).2, h.rising⟩

theorem Progress.Sound.publish_same {p : Progress} (h : p.Sound)
    {update : ScanJobSnapshot → ScanJobSnapshot}
    (hsame : (update p.snapshot).counts = p.snapshot.counts) : (p.publish update).Sound := by
  refine h.publish ?_ (le_of_eq (congrArg ScanCounts.percent hsame).symm)
  rw [hsame]
  exact h.current

/-! ### Watching the counters -/

/-- The counters, and something beside them, are watched; the snapshots stay sound. -/
def countWatch {ω : Type} (R : ScanCounts → ω → Prop) : Watch ω where
  holds p k := p.Sound ∧ R p.snapshot.counts k
  left _ p _ := p.Sound

section Watching

variable {ω : Type} {R : ScanCounts → ω → Prop} {stop : StopRequest}
  {sites : CheckpointSite → Prop}

theorem sound_publishSame {update : ScanJobSnapshot → ScanJobSnapshot}
    (hsame : ∀ snapshot, (update snapshot).counts = snapshot.counts) (R : ScanCounts → Prop)
    {E : Exception → Progress → Prop} :
    Triple (fun p => p.Sound ∧ R p.snapshot.counts) (publishSnapshot update)
      (fun _ p => p.Sound ∧ R p.snapshot.counts) E := by
  refine .modify fun p hp => ⟨hp.1.publish_same (hsame _), ?_⟩
  change R (update p.snapshot).counts
  rw [hsame]
  exact hp.2

theorem sound_throwIfCancelled (site : CheckpointSite) (R : ScanCounts → Prop) :
    Triple (fun p => p.Sound ∧ R p.snapshot.counts) (throwIfCancelled stop site)
      (fun _ p => p.Sound ∧ R p.snapshot.counts) fun _ p => p.Sound := by
  rw [throwIfCancelled]
  refine Triple.bind (M := fun _ p => p.Sound ∧ R p.snapshot.counts) (.get fun _ hp => hp)
    fun t => .ite (fun _ => ?_) fun _ => .modify fun p hp => ?_
  · refine Triple.bind (sound_publishSame ?_ R) fun _ => ?_
    · exact fun _ => rfl
    refine Triple.seq (M := fun p => p.Sound) (.modify fun p hp => ?_) (.throw fun _ hp => hp)
    exact ⟨hp.1.current, hp.1.published, hp.1.rising⟩
  · exact ⟨⟨hp.1.current, hp.1.published, hp.1.rising⟩, hp.2⟩

theorem patient_countWatch : (countWatch R).Patient stop sites where
  failed := fun _ hp => hp.1
  checkpoint := fun _ k => sound_throwIfCancelled _ fun c => R c k

theorem publishes_countWatch : (countWatch R).Publishes := by
  intro update p k hsame hp
  refine ⟨hp.1.publish_same hsame, ?_⟩
  change R (update p.snapshot).counts k
  rw [hsame]
  exact hp.2

end Watching

/-! ### Planning -/

theorem computePercent_lt (scannedRecords totalRecords : Nat) :
    computePercent scannedRecords totalRecords < 100 := by
  rw [computePercent]
  split <;> omega

theorem computePercent_mono {n m : Nat} (h : n ≤ m) (totalRecords : Nat) :
    computePercent n totalRecords ≤ computePercent m totalRecords := by
  rw [computePercent, computePercent]
  split
  · exact le_refl _
  · have hdiv := Nat.div_le_div_right (c := totalRecords) (Nat.mul_le_mul_right 100 h)
    omega

/-- The records of the unchanged segments. -/
def reusedRecords (plans : List SegmentPlan) : Nat :=
  ((plans.filter fun plan => plan.change = .unchanged).map fun plan =>
    plan.summary.totalRecords).sum

def readPlans (plans : List SegmentPlan) : List SegmentPlan :=
  plans.filter fun plan => plan.change.isRead

structure Planned (plans : List SegmentPlan) (c : ScanCounts) : Prop where
  percent : c.percent = computePercent c.scannedRecords c.totalRecords
  total : c.totalRecords = totalRecords plans
  scanned : c.scannedRecords = reusedRecords plans
  reused : c.reusedRecords = reusedRecords plans
  parsed : c.parsedFb2Records = 0
  added : c.addedRecords = 0
  updated : c.updatedRecords = 0
  skipped : c.skippedRecords = 0
  sound : c.Sound

theorem totalRecords_eq (plans : List SegmentPlan) :
    totalRecords plans = reusedRecords plans +
      ((readPlans plans).map fun plan => plan.summary.totalRecords).sum := by
  rw [totalRecords, reusedRecords, readPlans]
  induction plans with
  | nil => rfl
  | cons plan plans ih =>
    cases hchange : plan.change <;>
      simp [hchange, SegmentChange.isRead] at ih ⊢ <;> omega

theorem length_plans (plans : List SegmentPlan) :
    plans.length = (plans.filter fun plan => plan.change = .unchanged).length +
      (plans.filter fun plan => plan.change = .added).length +
      (plans.filter fun plan => plan.change = .changed).length +
      (plans.filter fun plan => plan.change = .removed).length := by
  induction plans with
  | nil => rfl
  | cons plan plans ih =>
    cases hchange : plan.change <;> simp [hchange] at ih ⊢ <;> omega

/-- The counters of a job that has just been registered. -/
def noCounts : ScanCounts := ScanJobSnapshot.counts {}

theorem planned_publishPlans {modeLabel : Bytes} {plans : List SegmentPlan}
    {snapshot : ScanJobSnapshot} (h : snapshot.counts = noCounts) :
    Planned plans (publishPlans modeLabel plans snapshot).counts := by
  have hzero : ∀ f : ScanCounts → Nat, f snapshot.counts = f noCounts := fun f => congrArg f h
  have hscanned : snapshot.scannedRecords = 0 := hzero ScanCounts.scannedRecords
  have hreused : snapshot.reusedRecords = 0 := hzero ScanCounts.reusedRecords
  have hunchanged : snapshot.segmentsUnchanged = 0 := hzero ScanCounts.segmentsUnchanged
  have hadded : snapshot.segmentsAdded = 0 := hzero ScanCounts.segmentsAdded
  have hchanged : snapshot.segmentsChanged = 0 := hzero ScanCounts.segmentsChanged
  have hremoved : snapshot.segmentsRemoved = 0 := hzero ScanCounts.segmentsRemoved
  have htotal := totalRecords_eq plans
  have hlength := length_plans plans
  refine ⟨rfl, rfl, ?_, ?_, hzero ScanCounts.parsedFb2Records, hzero ScanCounts.addedRecords,
    hzero ScanCounts.updatedRecords, hzero ScanCounts.skippedRecords,
    ⟨?_, computePercent_lt _ _, ?_⟩⟩
  · change snapshot.scannedRecords + reusedRecords plans = _
    omega
  · change snapshot.reusedRecords + reusedRecords plans = _
    omega
  · change snapshot.scannedRecords + reusedRecords plans ≤ totalRecords plans
    omega
  · change plans.length = snapshot.segmentsUnchanged +
      (plans.filter fun plan => plan.change = .unchanged).length + (snapshot.segmentsAdded +
      (plans.filter fun plan => plan.change = .added).length) + (snapshot.segmentsChanged +
      (plans.filter fun plan => plan.change = .changed).length) + (snapshot.segmentsRemoved +
      (plans.filter fun plan => plan.change = .removed).length)
    omega

theorem planWatch_counts (stop : StopRequest) :
    PlanWatch stop (fun p => p.Sound ∧ p.snapshot.counts = noCounts) (fun _ p => p.Sound)
      (fun _ p => p.Sound) fun _ p => p.Sound where
  lookup := patient_countWatch (R := fun c (_ : Unit) => c = noCounts)
  scan := patient_countWatch (R := fun c (_ : Unit) => c = noCounts)
  publishes := publishes_countWatch (R := fun c (_ : Unit) => c = noCounts)
  leaves := id
  rethrowAs := fun _ hp => hp
  rethrowUnlessCancelled := fun _ hp => hp

/-- The planning counts nothing but in the snapshot that it ends with. -/
theorem planScan_counts (readers : Readers) (env : ScanEnv) (db : Database) :
    Triple (fun s => s.progress.Sound ∧ s.progress.snapshot.counts = noCounts)
      (planScan readers env db)
      (fun _ s => s.progress.Sound ∧ Planned s.plans s.progress.snapshot.counts)
      fun _ s => s.progress.Sound := by
  refine planScan_preserves (planWatch_counts env.stop) db fun s ⟨hsound, hzero⟩ => ?_
  have hplanned : Planned s.plans
      (publishPlans (buildModeLabel env.mode) s.plans s.progress.snapshot).counts :=
    planned_publishPlans hzero
  refine ⟨hsound.publish hplanned.sound ?_, hplanned⟩
  have hpercent : s.progress.snapshot.percent = 0 := congrArg ScanCounts.percent hzero
  omega

/-! ### Answers -/

/-- What a program answers, when it does. -/
def Answers {σ α : Type} (c : EStateM Exception σ α) (R : α → Prop) : Prop :=
  Triple (fun _ => True) c (fun a _ => R a) fun _ _ => True

section Answers

variable {σ α β : Type} {c : EStateM Exception σ β} {f : β → EStateM Exception σ α}
  {R : α → Prop} {M : β → Prop}

theorem Answers.pure {a : α} (h : R a) : Answers (Pure.pure a : EStateM Exception σ α) R :=
  Triple.pure fun _ _ => h

theorem Answers.bind (hc : Answers c M) (hf : ∀ b, M b → Answers (f b) R) :
    Answers (c >>= f) R := by
  refine Triple.bind (M := fun b _ => M b ∧ True) (hc.post fun _ _ hb => ⟨hb, trivial⟩) fun b => ?_
  exact Triple.of_pure fun hb => hf b hb

theorem Answers.seq (hf : ∀ b, Answers (f b) R) : Answers (c >>= f) R := by
  refine Answers.bind (M := fun _ => True) (fun s _ => ?_) fun b _ => hf b
  cases c s <;> trivial

theorem Answers.ite {p : Prop} [Decidable p] {c d : EStateM Exception σ α} (hc : p → Answers c R)
    (hd : ¬p → Answers d R) : Answers (if p then c else d) R :=
  Triple.ite hc hd

end Answers

/-! ### Execution -/

/-- The records whose payloads are read. -/
def isBook (inpxRecord : InpxRecord) : Bool := !inpxRecord.deleted && inpxRecord.isFb2

/-- The records that are skipped with a warning. -/
def isUnsupported (inpxRecord : InpxRecord) : Bool := !inpxRecord.deleted && !inpxRecord.isFb2

/-- The counters after the execution came past `seen` records, with so many books and unsupported
records among them. The payloads of `waiting` books are in flight. -/
structure Tally (persistent : Bool) (base : ScanCounts) (seen books unsupported waiting : Nat)
    (c : ScanCounts) : Prop where
  total : c.totalRecords = base.totalRecords
  reused : c.reusedRecords = base.reusedRecords
  scanned : c.scannedRecords = base.scannedRecords + seen
  parsed : c.parsedFb2Records + waiting = books
  skipped : c.skippedRecords = unsupported
  stored : persistent = true → c.parsedFb2Records = c.addedRecords + c.updatedRecords
  percent : c.percent = computePercent c.scannedRecords c.totalRecords

/-- The tally of a state of the execution. -/
def Tallied (env : ScanEnv) (base : ScanCounts) (seen books unsupported : Nat) (s : ExecState) :
    Prop :=
  s.progress.Sound ∧
    Tally env.persistent base seen books unsupported s.inFlight.length s.progress.snapshot.counts

/-- What is left when an exception leaves the execution. -/
abbrev StillSound (_ : Exception) (s : ExecState) : Prop := s.progress.Sound

section Execution

variable {readers : Readers} {env : ScanEnv} {pick : Nat → Nat} {base : ScanCounts}
  {seen books unsupported : Nat}

/-- The watch of a tally, with what is known of the length of the queue. -/
abbrev tallyWatch (env : ScanEnv) (base : ScanCounts) (seen books unsupported : Nat)
    (L : Nat → Prop) : Watch (InFlight.Window InFlightParsedRecord ×
      List (InFlight.Moment InFlightParsedRecord Bytes)) :=
  countWatch fun c k => Tally env.persistent base seen books unsupported k.1.queue.length c ∧
    L k.1.queue.length

theorem patient_tally (env : ScanEnv) (L : Nat → Prop) :
    (tallyWatch env base seen books unsupported L).Patient env.stop NotArchiveResolution :=
  patient_countWatch

/-- What leaves the counters and the queue alone keeps the tally. -/
theorem Preserves.tallied {α : Type} {L : Nat → Prop} {c : ExecM α}
    (hc : Preserves (tallyWatch env base seen books unsupported L) watched c) :
    Triple (fun s => Tallied env base seen books unsupported s ∧ L s.inFlight.length) c
      (fun _ s => Tallied env base seen books unsupported s ∧ L s.inFlight.length) StillSound :=
  hc.conseq (fun _ hs => ⟨hs.1.1, hs.1.2, hs.2⟩) (fun _ _ hs => ⟨⟨hs.1, hs.2.1⟩, hs.2.2⟩)
    fun _ _ hs => hs

variable {L : Nat → Prop}

theorem tallied_check (site : CheckpointSite) (hs : NotArchiveResolution site) :
    Triple (fun s => Tallied env base seen books unsupported s ∧ L s.inFlight.length)
      (onProgress (throwIfCancelled env.stop site))
      (fun _ s => Tallied env base seen books unsupported s ∧ L s.inFlight.length) StillSound :=
  (preserves_execution ((patient_tally env L).checkpoint hs)).tallied

theorem tallied_publish {update : ScanJobSnapshot → ScanJobSnapshot}
    {seen' books' unsupported' : Nat}
    (hsound : ∀ c : ScanJobSnapshot, c.counts.Sound → ∀ waiting,
      Tally env.persistent base seen books unsupported waiting c.counts →
      (update c).counts.Sound ∧ c.percent ≤ (update c).percent ∧
      Tally env.persistent base seen' books' unsupported' waiting (update c).counts) :
    Triple (fun s => Tallied env base seen books unsupported s ∧ L s.inFlight.length)
      (onProgress (publishSnapshot update))
      (fun _ s => Tallied env base seen' books' unsupported' s ∧ L s.inFlight.length)
      StillSound := by
  refine Triple.zoom fun s hs => ?_
  obtain ⟨⟨hp, htally⟩, hL⟩ := hs
  refine .modify fun p hpp => ?_
  subst hpp
  obtain ⟨hsound', hle, htally'⟩ := hsound _ hp.current _ htally
  exact ⟨⟨hp.publish hsound' hle, htally'⟩, hL⟩

/-! ### Drains -/

theorem answers_storeParsedRecord (task : InFlightParsedRecord) (payload : PreparedPayload) :
    Answers (storeParsedRecord readers env task payload) fun writeResult =>
      env.persistent = true →
        (if writeResult.added then 1 else 0) + (if writeResult.updated then 1 else 0) = 1 := by
  rw [storeParsedRecord]
  refine .ite (fun _ => ?_) fun hnot => .pure fun h => absurd h hnot
  rw [writeParsedRecord]
  refine .seq fun _ => .seq fun s => ?_
  split
  · rw [writeNewRecord]
    iterate 9 refine .seq fun _ => ?_
    exact .pure fun _ => rfl
  · rw [writeExistingRecord]
    iterate 9 refine .seq fun _ => ?_
    exact .pure fun _ => rfl

/-- A payload that was stored is one more that was parsed. -/
theorem tallied_addParsedRecord {writeResult : RecordWriteResult}
    (h : env.persistent = true →
      (if writeResult.added then 1 else 0) + (if writeResult.updated then 1 else 0) = 1) :
    Triple (fun s => Tallied env base seen books unsupported s ∧ L s.inFlight.length)
      (onProgress (publishSnapshot (addParsedRecord writeResult)))
      (fun _ s => Tallied env base seen (books + 1) unsupported s ∧ L s.inFlight.length)
      StillSound := by
  refine tallied_publish fun c hsound waiting ht => ⟨?_, le_refl _, ?_⟩
  · exact ⟨hsound.scanned, hsound.percent, hsound.segments⟩
  · refine ⟨ht.total, ht.reused, ht.scanned, ?_, ht.skipped, fun hp => ?_, ht.percent⟩
    · have hparsed := ht.parsed
      change c.parsedFb2Records + waiting = books at hparsed
      change c.parsedFb2Records + 1 + waiting = books + 1
      omega
    · have hstored : c.parsedFb2Records = c.addedRecords + c.updatedRecords := ht.stored hp
      have hone := h hp
      change c.parsedFb2Records + 1 = c.addedRecords + (if writeResult.added then 1 else 0) +
        (c.updatedRecords + if writeResult.updated then 1 else 0)
      omega

theorem drainTask_tallied (task : InFlightParsedRecord) :
    Triple (fun s => Tallied env base seen books unsupported s ∧ L s.inFlight.length)
      (drainTask readers env task)
      (fun _ s => Tallied env base seen (books + 1) unsupported s ∧ L s.inFlight.length)
      StillSound := by
  have hkeeps : ∀ {α : Type} {c : ExecM α},
      Preserves (tallyWatch env base seen books unsupported L) watched c →
      Triple (fun s => Tallied env base seen books unsupported s ∧ L s.inFlight.length) c
        (fun _ s => Tallied env base seen books unsupported s ∧ L s.inFlight.length) StillSound :=
    fun h => h.tallied
  rw [drainTask]
  refine Triple.bind (M := fun _ s => Tallied env base seen books unsupported s ∧
    L s.inFlight.length) (.get fun _ hs => hs) fun t => ?_
  refine (hkeeps (.answer (patient_tally env L))).bind fun payload => ?_
  refine (tallied_check .payloadDraining (fun h => by cases h)).bind fun _ => ?_
  have hanswer : Answers (storeParsedRecord readers env task payload) _ :=
    answers_storeParsedRecord task payload
  have hstore := (hkeeps (preserves_storeParsedRecord (patient_tally env L) task payload)).and
    hanswer
  refine Triple.bind (M := fun writeResult s => (env.persistent = true →
    (if writeResult.added then 1 else 0) + (if writeResult.updated then 1 else 0) = 1) ∧
    (Tallied env base seen books unsupported s ∧ L s.inFlight.length))
    (hstore.conseq (fun s hs => ⟨hs, trivial⟩) (fun _ s hs => ⟨hs.2, hs.1⟩) fun _ _ hs => hs.1)
    fun writeResult => Triple.of_pure fun hone => ?_
  refine (tallied_addParsedRecord hone).bind fun _ => ?_
  refine Triple.bind (M := fun _ s => Tallied env base seen (books + 1) unsupported s ∧
    L s.inFlight.length) ?_ fun _ => ?_
  · exact .modify fun _ hs => hs
  · exact .modify fun _ hs => hs

theorem sound_publishWarning (warning : Database.ScanWarningRecord) (countAsSkipped : Bool) :
    Triple (fun s => s.progress.Sound) (publishWarning env warning countAsSkipped)
      (fun _ s => s.progress.Sound) StillSound := by
  rw [publishWarning]
  refine Triple.bind (M := fun _ s => s.progress.Sound) ?_ fun _ => ?_
  · exact .modify fun _ hs => hs
  have hpersist : Preserves (countWatch fun _ _ => True) watched (persistWarning env warning) :=
    preserves_persistWarning patient_countWatch warning
  refine Triple.bind (M := fun _ s => s.progress.Sound) (hpersist.conseq
    (fun _ hs => ⟨hs, trivial⟩) (fun _ _ hs => hs.1) fun _ _ hs => hs) fun _ => ?_
  refine Triple.zoom fun s hs => .modify fun p hp => ?_
  subst hp
  exact hs.publish ⟨hs.current.scanned, hs.current.percent, hs.current.segments⟩ (le_refl _)

theorem drainFailed_sound (task : InFlightParsedRecord) (e : Exception)
    {Q : Unit → ExecState → Prop} :
    Triple (fun s => s.progress.Sound) (drainFailed env task e) Q StillSound := by
  have hrelease : Triple (fun s => s.progress.Sound) (releasePayloadReservation task)
      (fun _ s => s.progress.Sound) StillSound := .modify fun _ hs => hs
  rw [drainFailed]
  refine .ite (fun _ => hrelease.bind fun _ => .throw fun _ hs => hs) fun _ => ?_
  cases e.what? with
  | none => exact .throw fun _ hs => hs
  | some what =>
    refine hrelease.bind fun _ => ?_
    refine Triple.bind (M := fun _ s => s.progress.Sound) ?_ fun _ =>
      (sound_publishWarning _ _).bind fun _ => .throw fun _ hs => hs
    have hcheck : Preserves (countWatch fun _ _ => True) watched
        (onProgress (throwIfCancelled env.stop .payloadDraining)) :=
      preserves_execution fun _ => sound_throwIfCancelled .payloadDraining fun _ => True
    exact hcheck.conseq (fun _ hs => ⟨hs, trivial⟩) (fun _ _ hs => hs.1) fun _ _ hs => hs

/-- A drain parses the payload of a book that was waiting. -/
theorem drainParsedRecord_tallied (preferReady : Bool) (n : Nat) :
    Triple (fun s => Tallied env base seen books unsupported s ∧ s.inFlight.length = n + 1)
      (drainParsedRecord readers env pick preferReady)
      (fun _ s => Tallied env base seen books unsupported s ∧ s.inFlight.length = n)
      StillSound := by
  refine Triple.of_state fun s₀ ⟨h₀, hlength⟩ => ?_
  rw [drainParsedRecord]
  refine Triple.bind (M := fun t s => t = s₀ ∧ s = s₀) (.get fun s hs => ⟨hs, hs⟩) fun t =>
    Triple.of_pure fun ht => ?_
  rw [ht]
  have hlt := takenIndex_lt pick preferReady (s := s₀) (by omega)
  set index := takenIndex pick preferReady s₀
  obtain ⟨task, htask⟩ : ∃ task, s₀.inFlight[index]? = some task :=
    ⟨_, List.getElem?_eq_getElem hlt⟩
  rw [htask]
  have hrest : (s₀.inFlight.eraseIdx index).length = n := by
    rw [List.length_eraseIdx_of_lt hlt]
    omega
  have hparsed := h₀.2.parsed
  rw [hlength] at hparsed
  -- the book that was taken is not counted until it is parsed
  obtain ⟨waited, rfl⟩ : ∃ waited, books = waited + 1 := ⟨books - 1, by omega⟩
  refine Triple.bind (M := fun _ s => Tallied env base seen waited unsupported s ∧
    s.inFlight.length = n) (fun _ _ => ⟨⟨h₀.1, ?_⟩, hrest⟩) fun _ => ?_
  · refine ⟨h₀.2.total, h₀.2.reused, h₀.2.scanned, ?_, h₀.2.skipped, h₀.2.stored, h₀.2.percent⟩
    change s₀.progress.snapshot.counts.parsedFb2Records +
      (s₀.inFlight.eraseIdx index).length = waited
    omega
  · exact Triple.tryCatch (drainTask_tallied (L := (· = n)) task) fun e => drainFailed_sound task e

theorem drainAndCheck_tallied (n : Nat) :
    Triple (fun s => Tallied env base seen books unsupported s ∧ s.inFlight.length = n + 1)
      (drainAndCheck readers env pick)
      (fun _ s => Tallied env base seen books unsupported s ∧ s.inFlight.length = n)
      StillSound := by
  rw [drainAndCheck]
  exact (drainParsedRecord_tallied true n).bind fun _ =>
    tallied_check (L := (· = n)) .execution nofun

/-! ### Records -/

/-- What leaves the counters and the queue alone keeps the tally. -/
theorem Preserves.keepsTally {α : Type} {c : ExecM α}
    (hc : Preserves (tallyWatch env base seen books unsupported fun _ => True) watched c) :
    Triple (Tallied env base seen books unsupported) c
      (fun _ => Tallied env base seen books unsupported) StillSound :=
  hc.tallied.conseq (fun _ hs => ⟨hs, trivial⟩) (fun _ _ hs => hs.1) fun _ _ hs => hs

theorem preserves_tally_progress {α : Type} {c : ProgressM α}
    (hc : ∀ R : ScanCounts → Prop, Triple (fun p => p.Sound ∧ R p.snapshot.counts) c
      (fun _ p => p.Sound ∧ R p.snapshot.counts) fun _ p => p.Sound) :
    Preserves (tallyWatch env base seen books unsupported L) watched (onProgress c) :=
  preserves_execution fun k => hc fun c => Tally env.persistent base seen books unsupported
    k.1.queue.length c ∧ L k.1.queue.length

theorem openArchive_tallied (planIndex : Nat) (plan : SegmentPlan) :
    Triple (Tallied env base seen books unsupported)
      (openArchive readers env pick planIndex plan)
      (fun _ => Tallied env base seen books unsupported) StillSound := by
  rw [openArchive]
  refine Triple.bind (M := fun _ => Tallied env base seen books unsupported)
    (.get fun _ hs => hs) fun t => .ite (fun _ => .pure fun _ hs => hs) fun _ => ?_
  refine Triple.bind ((drainQueueWhile_spec (fun _ => length_pos_of_not_isEmpty)
    (drainParsedRecord_tallied true)).post fun _ _ hs => hs.1) fun _ => ?_
  refine Triple.bind (M := fun _ => Tallied env base seen books unsupported) ?_ fun _ => ?_
  · exact .modify fun _ hs => hs
  refine Triple.bind (preserves_execution
    ((patient_tally env _).call (fun h => by cases h) _)).keepsTally fun fingerprint => ?_
  refine Triple.bind (Preserves.require (patient_tally env _)).keepsTally fun _ => ?_
  exact .modify fun _ hs => hs

theorem submitRecord_tallied (planIndex : Nat) (plan : SegmentPlan) (segmentId recordIndex : Nat)
    (inpxRecord : InpxRecord) :
    Triple (Tallied env base seen books unsupported)
      (submitRecord readers env pick planIndex plan segmentId recordIndex inpxRecord)
      (fun _ => Tallied env base seen (books + 1) unsupported) StillSound := by
  have hpos : 0 < env.maxInFlightPayloads := resolveInpxPayloadWorkerWindow_pos _ _
  rw [submitRecord]
  refine Triple.bind (M := fun _ => Tallied env base seen books unsupported) ?_ fun _ => ?_
  · rw [claimLibId]
    refine Triple.bind (M := fun _ => Tallied env base seen books unsupported)
      (.get fun _ hs => hs) fun t => ?_
    refine Triple.bind (Preserves.answer (patient_tally env _)).keepsTally fun ids => ?_
    split
    · exact .throw fun _ hs => hs.1
    · exact .modify fun _ hs => hs
  refine Triple.bind ((drainQueueWhile_spec (fun s hbusy => ?_)
    drainAndCheck_tallied).post fun _ _ hs => hs.1) fun _ => ?_
  · have hle : env.maxInFlightPayloads ≤ s.inFlight.length := by simpa using hbusy
    omega
  refine (openArchive_tallied planIndex plan).bind fun _ => ?_
  refine Triple.bind (Preserves.answer (patient_tally env _)).keepsTally fun actualSizeBytes => ?_
  refine Triple.bind ((drainQueueWhile_spec (fun s hbusy => ?_)
    drainAndCheck_tallied).post fun _ _ hs => hs.1) fun _ => ?_
  · rw [Bool.and_eq_true] at hbusy
    exact length_pos_of_not_isEmpty hbusy.1
  refine Triple.bind (preserves_execution
    ((patient_tally env _).call (fun h => by cases h) _)).keepsTally fun payloadBytes => ?_
  refine Triple.bind (preserves_tally_progress fun R =>
    sound_publishSame ?_ R).keepsTally fun _ => ?_
  · exact fun _ => rfl
  refine .modify fun s hs => ?_
  obtain ⟨hsound, ht⟩ := hs
  refine ⟨hsound, ht.total, ht.reused, ht.scanned, ?_, ht.skipped, ht.stored, ht.percent⟩
  have hparsed := ht.parsed
  change s.progress.snapshot.counts.parsedFb2Records + (s.inFlight ++ [_]).length = books + 1
  rw [List.length_append, List.length_singleton]
  omega

theorem comeToRecord_tallied (inpxRecord : InpxRecord)
    (hroom : base.scannedRecords + seen + 1 ≤ base.totalRecords) :
    Triple (Tallied env base seen books unsupported)
      (onProgress (publishSnapshot (comeToRecord inpxRecord)))
      (fun _ => Tallied env base (seen + 1) books unsupported) StillSound := by
  refine (tallied_publish (L := fun _ => True) fun c hsound waiting ht => ?_).conseq
    (fun _ hs => ⟨hs, trivial⟩) (fun _ _ hs => hs.1) fun _ _ hs => hs
  have htotal : c.totalRecords = base.totalRecords := ht.total
  have hscanned : c.scannedRecords = base.scannedRecords + seen := ht.scanned
  have hpercent : c.percent = computePercent c.scannedRecords c.totalRecords := ht.percent
  refine ⟨⟨?_, computePercent_lt _ _, hsound.segments⟩, ?_, ?_⟩
  · change c.scannedRecords + 1 ≤ c.totalRecords
    omega
  · rw [hpercent]
    exact computePercent_mono (Nat.le_succ _) _
  · refine ⟨htotal, ht.reused, ?_, ht.parsed, ht.skipped, ht.stored, rfl⟩
    change c.scannedRecords + 1 = base.scannedRecords + (seen + 1)
    omega

/-- A warning about an unsupported record counts it as skipped. -/
theorem skipRecord_tallied (warning : Database.ScanWarningRecord) :
    Triple (Tallied env base seen books unsupported) (publishWarning env warning true)
      (fun _ => Tallied env base seen books (unsupported + 1)) StillSound := by
  rw [publishWarning]
  refine Triple.bind (M := fun _ => Tallied env base seen books unsupported) ?_ fun _ => ?_
  · exact .modify fun _ hs => hs
  refine Triple.bind (preserves_persistWarning (patient_tally env _) _).keepsTally fun _ => ?_
  refine (tallied_publish (L := fun _ => True) fun c hsound waiting ht => ?_).conseq
    (fun _ hs => ⟨hs, trivial⟩) (fun _ _ hs => hs.1) fun _ _ hs => hs
  refine ⟨⟨hsound.scanned, hsound.percent, hsound.segments⟩, le_refl _, ?_⟩
  exact ⟨ht.total, ht.reused, ht.scanned, ht.parsed, congrArg (· + 1) ht.skipped, ht.stored,
    ht.percent⟩

/-- The execution has come past these records. -/
def CameTo (env : ScanEnv) (base : ScanCounts) (visited : List InpxRecord) (s : ExecState) : Prop :=
  Tallied env base visited.length (visited.countP isBook) (visited.countP isUnsupported) s

theorem executeRecord_tallied {visited : List InpxRecord} (planIndex : Nat) (plan : SegmentPlan)
    (segmentId recordIndex : Nat) (inpxRecord : InpxRecord)
    (hroom : base.scannedRecords + visited.length + 1 ≤ base.totalRecords) :
    Triple (CameTo env base visited)
      (executeRecord readers env pick planIndex plan segmentId recordIndex inpxRecord)
      (fun _ => CameTo env base (visited ++ [inpxRecord])) StillSound := by
  have hcame : ∀ {s : ExecState}, Tallied env base (visited.length + 1)
      (visited.countP isBook + if isBook inpxRecord then 1 else 0)
      (visited.countP isUnsupported + if isUnsupported inpxRecord then 1 else 0) s →
      CameTo env base (visited ++ [inpxRecord]) s := by
    intro s hs
    rw [CameTo, List.length_append, List.length_singleton, List.countP_append, List.countP_append,
      List.countP_singleton, List.countP_singleton]
    exact hs
  rw [executeRecord]
  refine Triple.bind (preserves_tally_progress fun R =>
    sound_throwIfCancelled .execution R).keepsTally fun _ => ?_
  refine (comeToRecord_tallied inpxRecord hroom).bind fun _ => ?_
  refine .ite (fun hdeleted => .pure fun s hs => hcame ?_) fun hactive =>
    .ite (fun hfb2 => ?_) fun hnot => ?_
  · simpa [isBook, isUnsupported, hdeleted] using hs
  · refine (submitRecord_tallied planIndex plan segmentId recordIndex inpxRecord).post
      fun _ s hs => hcame ?_
    simpa [isBook, isUnsupported, hactive, hfb2] using hs
  · refine (skipRecord_tallied _).post fun _ s hs => hcame ?_
    simpa [isBook, isUnsupported, hactive, hnot] using hs

theorem executePlan_tallied {visited : List InpxRecord} (placed : PlacedPlan)
    (hroom : base.scannedRecords + (visited ++ placed.plan.records).length ≤ base.totalRecords) :
    Triple (CameTo env base visited) (executePlan readers env pick placed)
      (fun _ => CameTo env base (visited ++ placed.plan.records)) StillSound := by
  rw [executePlan]
  refine Triple.bind (preserves_tally_progress fun R =>
    sound_throwIfCancelled .execution R).keepsTally fun _ => ?_
  refine Triple.conseq (Triple.forM (fun done => CameTo env base (visited ++ done.map Prod.fst)) ?_)
    (fun s hs => by simpa [CameTo] using hs) (fun _ s hs => ?_) fun _ _ hs => hs
  · intro done r rest hsplit
    rw [List.map_append, List.map_singleton, ← List.append_assoc]
    refine executeRecord_tallied _ _ _ _ _ ?_
    have hlength := congrArg List.length hsplit
    rw [List.length_zipIdx, List.length_append, List.length_cons] at hlength
    rw [List.length_append] at hroom
    rw [List.length_append, List.length_map]
    omega
  · rwa [List.zipIdx_map_fst] at hs

/-- The loop comes past every record, and all books among them are parsed at its end. -/
theorem executePlans_tallied (order : List PlacedPlan)
    (hroom : base.scannedRecords + (order.flatMap fun p => p.plan.records).length ≤
      base.totalRecords) :
    Triple (CameTo env base []) (executePlans readers env pick order)
      (fun _ s => CameTo env base (order.flatMap fun p => p.plan.records) s ∧ s.inFlight = [])
      StillSound := by
  rw [executePlans]
  refine Triple.tryCatch (F := StillSound) ?_ fun e => ?_
  · have hloop : Triple (CameTo env base []) (order.forM (executePlan readers env pick))
        (fun _ => CameTo env base (order.flatMap fun p => p.plan.records)) StillSound := by
      refine Triple.forM (fun done => CameTo env base
        (done.flatMap fun p : PlacedPlan => p.plan.records)) fun done placed rest hsplit => ?_
      rw [List.flatMap_append, List.flatMap_singleton]
      refine executePlan_tallied placed ?_
      rw [hsplit, List.flatMap_append, List.flatMap_cons, ← List.append_assoc,
        List.length_append] at hroom
      omega
    refine hloop.bind fun _ => ((drainQueueWhile_spec (fun _ => length_pos_of_not_isEmpty)
      drainAndCheck_tallied).post fun _ s hs => ⟨hs.1, ?_⟩)
    simpa using hs.2
  · exact Triple.seq (M := fun s => s.progress.Sound) (.modify fun _ hs => hs)
      (.throw fun _ hs => hs)

end Execution

/-! ### The plans that are executed -/

section Order

variable {readers : Readers} {env : ScanEnv} {plans : List SegmentPlan} {segmentIds : List Nat}

theorem answers_upsertSegments (env : ScanEnv) (plans : List SegmentPlan) :
    Answers (upsertSegments env plans) fun segmentIds => segmentIds.length = plans.length := by
  induction plans with
  | nil => exact .pure rfl
  | cons plan plans ih =>
    refine .seq fun _ => .seq fun segmentId => ih.bind fun segmentIds hlength => .pure ?_
    rw [List.length_cons, List.length_cons, hlength]

theorem answers_prepareCatalog (env : ScanEnv) (plans : List SegmentPlan) :
    Answers (prepareCatalog env plans) fun segmentIds => segmentIds.length = plans.length := by
  rw [prepareCatalog]
  exact .ite (fun _ => .seq fun _ => answers_upsertSegments env plans) fun _ =>
    .pure (List.length_map _)

theorem map_plan_placedPlans (hlength : segmentIds.length = plans.length) :
    (placedPlans plans segmentIds).map PlacedPlan.plan = plans := by
  have hfst : (placedPlans plans segmentIds).map PlacedPlan.plan =
      ((plans.zip segmentIds).zipIdx.map Prod.fst).map Prod.fst := by
    rw [placedPlans, List.map_map, List.map_map]
    rfl
  rw [hfst, List.zipIdx_map_fst]
  exact List.map_fst_zip (le_of_eq hlength.symm)

theorem perm_executedRecords (hlength : segmentIds.length = plans.length) :
    ((executionOrder (placedPlans plans segmentIds)).flatMap fun p => p.plan.records).Perm
      ((readPlans plans).flatMap SegmentPlan.records) := by
  have hsort : (executionOrder (placedPlans plans segmentIds)).Perm
      ((placedPlans plans segmentIds).filter fun p => p.plan.change.isRead) :=
    List.perm_insertionSort executesBefore _
  have hread : readPlans plans = ((placedPlans plans segmentIds).filter
      fun p => p.plan.change.isRead).map PlacedPlan.plan := by
    rw [readPlans]
    nth_rewrite 1 [← map_plan_placedPlans hlength]
    rw [List.filter_map]
    rfl
  rw [hread, List.flatMap_map]
  exact hsort.flatMap_right _

/-- Every record is deleted, a book or unsupported. -/
theorem length_records (records : List InpxRecord) :
    records.length = records.countP InpxRecord.deleted + records.countP isBook +
      records.countP isUnsupported := by
  induction records with
  | nil => rfl
  | cons inpxRecord records ih =>
    rw [List.length_cons, List.countP_cons, List.countP_cons, List.countP_cons, isBook,
      isUnsupported]
    cases inpxRecord.deleted <;> cases inpxRecord.isFb2 <;> simp <;> omega

theorem length_flatMap_records (h : ∀ plan ∈ plans, CountsRecords plan.records plan.summary) :
    (plans.flatMap SegmentPlan.records).length =
      (plans.map fun plan => plan.summary.totalRecords).sum := by
  induction plans with
  | nil => rfl
  | cons plan plans ih =>
    rw [List.flatMap_cons, List.length_append, List.map_cons, List.sum_cons,
      ih fun p hp => h p (List.mem_cons_of_mem _ hp), (h plan List.mem_cons_self).total]

theorem countP_deleted_flatMap (h : ∀ plan ∈ plans, CountsRecords plan.records plan.summary) :
    (plans.flatMap SegmentPlan.records).countP InpxRecord.deleted =
      (plans.map fun plan => plan.summary.deletedRecords).sum := by
  induction plans with
  | nil => rfl
  | cons plan plans ih =>
    rw [List.flatMap_cons, List.countP_append, List.map_cons, List.sum_cons,
      ih fun p hp => h p (List.mem_cons_of_mem _ hp), (h plan List.mem_cons_self).deleted]

end Order

/-! ### The run -/

structure RecordsAccounted (plans : List SegmentPlan) (c : ScanCounts) : Prop where
  scanned : c.scannedRecords = c.totalRecords
  total : c.totalRecords = c.reusedRecords + c.parsedFb2Records + c.skippedRecords +
    ((readPlans plans).map fun plan => plan.summary.deletedRecords).sum

section Run

variable {readers : Readers} {env : ScanEnv} {pick : Nat → Nat} {plans : List SegmentPlan}
  {base : ScanCounts}

/-- The records that are read fill what is not reused. -/
theorem Planned.room (hplanned : Planned plans base)
    (hcounted : ∀ plan ∈ readPlans plans, CountsRecords plan.records plan.summary) :
    base.scannedRecords + ((readPlans plans).flatMap SegmentPlan.records).length =
      base.totalRecords := by
  rw [hplanned.scanned, hplanned.total, totalRecords_eq, length_flatMap_records hcounted]

/-- Past all records, and with nothing in flight, the records are accounted for. -/
theorem CameTo.accounted {visited : List InpxRecord} {s : ExecState}
    (h : CameTo env base visited s) (hplanned : Planned plans base)
    (hcounted : ∀ plan ∈ readPlans plans, CountsRecords plan.records plan.summary)
    (hperm : visited.Perm ((readPlans plans).flatMap SegmentPlan.records))
    (hempty : s.inFlight = []) : RecordsAccounted plans s.progress.snapshot.counts := by
  obtain ⟨-, ht⟩ := h
  have hroom := hplanned.room hcounted
  have hlength := hperm.length_eq
  have hrecords := length_records visited
  have hdeleted := hperm.countP_eq InpxRecord.deleted
  rw [countP_deleted_flatMap hcounted] at hdeleted
  have hscanned := ht.scanned
  have htotal := ht.total
  have hreused := ht.reused
  have hparsed := ht.parsed
  have hskipped := ht.skipped
  rw [hempty, List.length_nil] at hparsed
  have hbase := hplanned.scanned
  rw [← hplanned.reused] at hbase
  refine ⟨?_, ?_⟩ <;> omega

/-- The counters of an execution, whatever it comes to. -/
theorem executeScan_counts (committed : Database)
    (archiveGuards : List (Bytes × ArchiveScanGuard)) (sourceFingerprint : Bytes)
    (hplanned : Planned plans base)
    (hcounted : ∀ plan ∈ readPlans plans, CountsRecords plan.records plan.summary) :
    Triple (fun s => s.progress.Sound ∧ s.progress.snapshot.counts = base ∧ s.inFlight = [])
      (executeScan readers env pick committed plans archiveGuards sourceFingerprint)
      (fun result s => result = scanResult env s ∧ s.progress.Sound ∧
        RecordsAccounted plans s.progress.snapshot.counts ∧ (env.persistent = true →
          s.progress.snapshot.parsedFb2Records =
            s.progress.snapshot.addedRecords + s.progress.snapshot.updatedRecords)) StillSound := by
  have hkeeps : ∀ (R : ScanCounts → List InFlightParsedRecord → Prop) {α : Type} {c : ExecM α},
      Preserves (countWatch fun c k => R c k.1.queue) watched c →
      Triple (fun s => s.progress.Sound ∧ R s.progress.snapshot.counts s.inFlight) c
        (fun _ s => s.progress.Sound ∧ R s.progress.snapshot.counts s.inFlight) StillSound :=
    fun _ _ _ h => h
  rw [executeScan]
  have hprepare := (hkeeps (fun c queue => c = base ∧ queue = [])
    (preserves_prepareCatalog patient_countWatch plans)).and
      (answers_prepareCatalog env plans)
  refine Triple.bind (M := fun segmentIds s => segmentIds.length = plans.length ∧
    (s.progress.Sound ∧ s.progress.snapshot.counts = base ∧ s.inFlight = []))
    (hprepare.conseq (fun _ hs => ⟨hs, trivial⟩) (fun _ _ hs => ⟨hs.2, hs.1⟩) fun _ _ hs => hs.1)
    fun segmentIds => Triple.of_pure fun hlength => ?_
  refine (hkeeps (fun c queue => c = base ∧ queue = []) (preserves_prepareExecution
    patient_countWatch publishes_countWatch plans committed)).bind fun _ => ?_
  have hperm := perm_executedRecords hlength
  have hroom : base.scannedRecords + ((executionOrder (placedPlans plans segmentIds)).flatMap
      fun p => p.plan.records).length ≤ base.totalRecords := by
    rw [hperm.length_eq, hplanned.room hcounted]
  refine Triple.bind ((executePlans_tallied _ hroom).pre fun s ⟨hsound, hbase, hqueue⟩ =>
    ⟨hsound, ?_⟩) fun _ => ?_
  · rw [hbase, hqueue]
    exact ⟨rfl, rfl, rfl, hplanned.parsed, hplanned.skipped, fun _ => by
      rw [hplanned.parsed, hplanned.added, hplanned.updated], hplanned.percent⟩
  have hfinish : Preserves (countWatch fun c _ => RecordsAccounted plans c ∧
      (env.persistent = true → c.parsedFb2Records = c.addedRecords + c.updatedRecords)) watched
      (finishCatalog readers env sourceFingerprint plans archiveGuards
        (changedSegmentIds (placedPlans plans segmentIds))) :=
    preserves_finishCatalog patient_countWatch publishes_countWatch _ _ _ _
  refine Triple.bind (Triple.pre (hkeeps (fun c _ => RecordsAccounted plans c ∧
    (env.persistent = true → c.parsedFb2Records = c.addedRecords + c.updatedRecords)) hfinish)
    fun s ⟨hcame, hempty⟩ => ?_) fun _ => ?_
  · exact ⟨hcame.1, hcame.accounted hplanned hcounted hperm hempty, hcame.2.stored⟩
  refine Triple.bind (M := fun t s => t = s ∧ (s.progress.Sound ∧
    RecordsAccounted plans s.progress.snapshot.counts ∧ (env.persistent = true →
      s.progress.snapshot.parsedFb2Records =
        s.progress.snapshot.addedRecords + s.progress.snapshot.updatedRecords)))
    (.get fun s hs => ⟨rfl, hs⟩) fun t => .pure fun s hs => ⟨?_, hs.2⟩
  rw [hs.1]

end Run

/-- The counters of the snapshots that a scan publishes, and of its result. -/
structure ProgressAccounted (readers : Readers) (env : ScanEnv) (world : World) (run : ScanRun) :
    Prop where
  published : ∀ snapshot ∈ run.progress.published, snapshot.counts.Sound
  /-- the newest first -/
  rising : run.progress.published.Pairwise fun later earlier => earlier.percent ≤ later.percent
  last : ∀ snapshot ∈ run.progress.published,
    snapshot.percent ≤ (finishJob run).snapshot.percent
  result : (finishJob run).snapshot.scannedRecords ≤ (finishJob run).snapshot.totalRecords
  segments : (finishJob run).snapshot.segmentsTotal = (finishJob run).snapshot.segmentsUnchanged +
    (finishJob run).snapshot.segmentsAdded + (finishJob run).snapshot.segmentsChanged +
    (finishJob run).snapshot.segmentsRemoved
  /-- only a scan that came to its end is at 100 percent -/
  completed : if (finishJob run).snapshot.status = .completed
    then (finishJob run).snapshot.percent = 100 else (finishJob run).snapshot.percent < 100
  committed : run.committed = true → ∃ sourceFingerprint s,
    planScan readers env world.database (.start env) = .ok sourceFingerprint s ∧
    RecordsAccounted s.plans (finishJob run).snapshot.counts ∧
    (finishJob run).snapshot.parsedFb2Records =
      (finishJob run).snapshot.addedRecords + (finishJob run).snapshot.updatedRecords

theorem ProgressAccounted.of_error {readers : Readers} {env : ScanEnv} {world : World}
    {run : ScanRun} {e : Exception} (hresult : run.result = .error e)
    (hsound : run.progress.Sound) (hcommitted : run.committed = false) :
    ProgressAccounted readers env world run := by
  have hcounts : (finishJob run).snapshot.counts = run.progress.snapshot.counts ∧
      (finishJob run).snapshot.status ≠ .completed := by
    rw [finishJob, hresult]
    cases e with
    | cancelled => exact ⟨rfl, nofun⟩
    | failed failure => exact ⟨rfl, nofun⟩
  obtain ⟨hcounts, hstatus⟩ := hcounts
  have hcurrent : (finishJob run).snapshot.counts.Sound := hcounts ▸ hsound.current
  refine ⟨fun snapshot hs => (hsound.published snapshot hs).1, hsound.rising,
    fun snapshot hs => ?_, hcurrent.scanned, hcurrent.segments, ?_, fun h => ?_⟩
  · rw [show (finishJob run).snapshot.percent = run.progress.snapshot.percent from
      congrArg ScanCounts.percent hcounts]
    exact (hsound.published snapshot hs).2
  · rw [if_neg hstatus]
    exact hcurrent.percent
  · rw [hcommitted] at h
    cases h

theorem ProgressAccounted.of_ok {readers : Readers} {env : ScanEnv} {world : World}
    {s : ExecState} (hsound : s.progress.Sound)
    (hcommitted : s.committed = true → ∃ sourceFingerprint planned,
      planScan readers env world.database (.start env) = .ok sourceFingerprint planned ∧
      RecordsAccounted planned.plans s.progress.snapshot.counts ∧
      s.progress.snapshot.parsedFb2Records =
        s.progress.snapshot.addedRecords + s.progress.snapshot.updatedRecords) :
    ProgressAccounted readers env world (.ofExec world (.ok (scanResult env s)) s) := by
  refine ⟨fun snapshot hs => (hsound.published snapshot hs).1, hsound.rising,
    fun snapshot hs => ?_, hsound.current.scanned, hsound.current.segments, rfl, fun h => ?_⟩
  · exact (hsound.published snapshot hs).1.percent.le
  · obtain ⟨sourceFingerprint, planned, hplan, haccounted, hstored⟩ := hcommitted h
    exact ⟨sourceFingerprint, planned, hplan, ⟨haccounted.scanned, haccounted.total⟩, hstored⟩

/-- Progress accounting, for every scan that a service runs: whatever its snapshot, the answers it
is given and the order of the drains are, and wherever it ends. -/
theorem progress_accounted (iconv : Unicode.Iconv) (readers : Readers) (service : Service)
    (hparser : Parses iconv readers.parser) (h : Reachable readers Set.univ service)
    (env : ScanEnv) (pick : Nat → Nat) :
    ProgressAccounted readers env service.world (runScan readers env pick service.world) := by
  have hstart : (PlanState.start env).progress.Sound ∧
      (PlanState.start env).progress.snapshot.counts = noCounts :=
    ⟨⟨⟨le_refl _, Nat.zero_lt_succ _, rfl⟩, nofun, List.Pairwise.nil⟩, rfl⟩
  have hplan := planScan_counts readers env service.world.database
  rw [runScan]
  cases hr : planScan readers env service.world.database (.start env) with
  | error e s => exact .of_error rfl (hplan.throws hstart hr) rfl
  | ok sourceFingerprint s =>
    obtain ⟨hsound, hplanned⟩ := hplan.ok hstart hr
    have hcounted : ∀ plan ∈ readPlans s.plans, CountsRecords plan.records plan.summary := by
      intro plan hplan
      obtain ⟨hmem, hread⟩ := List.mem_filter.mp hplan
      obtain ⟨_, _, _, hcounts⟩ := (planScan_counted hparser hr plan hmem).read hread
      exact hcounts
    have hexecute : Triple _ (executeScan readers env pick service.world.database s.plans
        s.archiveGuards sourceFingerprint) _ _ :=
      (executeScan_counts service.world.database s.archiveGuards sourceFingerprint hplanned
        hcounted).and (executeScan_spec (coversIn_univ readers env) h.sound pick s.archiveGuards
          sourceFingerprint)
    have hrun := hexecute (.start service.world s.progress) ⟨⟨hsound, rfl, rfl⟩, ⟨rfl, rfl⟩⟩
    dsimp only
    revert hrun
    cases executeScan readers env pick service.world.database s.plans s.archiveGuards
        sourceFingerprint (.start service.world s.progress) with
    | error e s' => exact fun hrun => .of_error rfl hrun.1 hrun.2.committed
    | ok result s' =>
      rintro ⟨⟨rfl, hsound', haccounted, hstored⟩, hcommits⟩
      refine .of_ok hsound' fun hcommitted => ⟨sourceFingerprint, s, hr, haccounted, ?_⟩
      rcases hcommits with ⟨hpersistent, _⟩ | hundoable
      · exact hstored hpersistent
      · have hnot : s'.committed = false := hundoable.committed
        rw [hnot] at hcommitted
        cases hcommitted

theorem parsedScan_accounted :
    (runScan parsingReaders firstEnv (fun _ => 0) emptyWorld).committed = true ∧
      ProgressAccounted parsingReaders firstEnv emptyWorld
        (runScan parsingReaders firstEnv (fun _ => 0) emptyWorld) := by
  have hstart : Reachable parsingReaders Set.univ { world := emptyWorld } := .start _ 0 _
  exact ⟨by decide +kernel, progress_accounted _ parsingReaders { world := emptyWorld }
    plainParser_parses hstart firstEnv fun _ => 0⟩

end InpxWebReader.Scan
