import InpxWebReader.Scan.JobService

/-!
# The lifecycle of scan jobs

What holds in every interleaving: at most one job is active, a result is there exactly when the
status is terminal, and a terminal status is never left. The fourth law, that a job whose
cancellation was accepted is never seen `Pending` or `Running` again, holds in the runs in which no
worker publishes its start over `Cancelling`, and in no others: the first publication of `RunScan`
does not look at the status it replaces.
-/

namespace InpxWebReader.Scan

open Foundation Runs

/-! ### One record -/

structure JobRecord.Valid (record : JobRecord) : Prop where
  result : record.result.isSome = record.snapshot.isTerminal
  finished : record.snapshot.isTerminal = true → record.phase = .finished
  leaving : ∀ result, record.phase = .leaving result → result.snapshot.isTerminal = true
  early : record.phase = .notStarted ∨ record.phase = .starting →
    record.snapshot.status = .pending ∨ record.snapshot.status = .cancelling

section Record

variable {record record' : JobRecord} {action : RecordAction}

theorem isTerminal_result (snapshot : ScanJobSnapshot) (scanEnd : ScanEnd) :
    (scanEnd.result snapshot).snapshot.isTerminal = true := by
  cases scanEnd <;> rfl

theorem JobRecord.step_cases (h : record.step action = some record') :
    -- the worker starts, or leaves, or a stop is requested: the snapshot stays
    (record'.snapshot = record.snapshot ∧ record'.result = record.result ∧
      (record'.phase = record.phase ∨
        (record.phase = .notStarted ∧ record'.phase = .starting) ∨
        ((record.phase = .starting ∨ record.phase = .scanning) ∧
          ∃ scanEnd : ScanEnd, record'.phase = .leaving (scanEnd.result record.snapshot)))) ∨
    -- the worker publishes its start
    ((∃ mode, action = .publishRunning mode) ∧ record.phase = .starting ∧
      record'.phase = .scanning ∧ record'.result = record.result ∧
      record'.snapshot.status = .running) ∨
    -- the worker publishes its progress
    (record.phase = .scanning ∧ record'.phase = .scanning ∧ record'.result = record.result ∧
      (record'.snapshot.status = record.snapshot.status ∨
        record'.snapshot.status = .cancelling)) ∨
    -- the worker publishes its result
    (∃ result, record.phase = .leaving result ∧ record'.phase = .finished ∧
      record'.result = some result ∧ record'.snapshot = result.snapshot) ∨
    -- the job is cancelled
    (action = .cancel ∧ record.snapshot.isTerminal = false ∧ record'.phase = record.phase ∧
      record'.result = record.result ∧ record'.snapshot.status = .cancelling) := by
  cases action with
  | startWorker =>
    obtain ⟨hphase, ⟨⟩⟩ := Option.ite_none_right_eq_some.mp h
    exact .inl ⟨rfl, rfl, .inr (.inl ⟨hphase, rfl⟩)⟩
  | publishRunning mode =>
    obtain ⟨hphase, ⟨⟩⟩ := Option.ite_none_right_eq_some.mp h
    exact .inr (.inl ⟨⟨mode, rfl⟩, hphase, rfl, rfl, rfl⟩)
  | publishProgress snapshot =>
    obtain ⟨hphase, ⟨⟩⟩ := Option.ite_none_right_eq_some.mp h
    exact .inr (.inr (.inl ⟨hphase, hphase, rfl, .inl rfl⟩))
  | checkpoint mode =>
    obtain ⟨hphase, ⟨⟩⟩ := Option.ite_none_right_eq_some.mp h
    exact .inr (.inr (.inl ⟨hphase.1, hphase.1, rfl, .inr rfl⟩))
  | leave scanEnd =>
    obtain ⟨hcan, ⟨⟩⟩ := Option.ite_none_right_eq_some.mp h
    refine .inl ⟨rfl, rfl, .inr (.inr ⟨?_, scanEnd, rfl⟩)⟩
    cases scanEnd <;> simp [JobRecord.canEnd] at hcan <;> tauto
  | finish =>
    simp only [JobRecord.step, JobRecord.finish] at h
    split at h
    · next result hphase =>
      injection h with h
      subst h
      exact .inr (.inr (.inr (.inl ⟨result, hphase, rfl, rfl, rfl⟩)))
    · cases h
  | cancel =>
    injection h with h
    subst h
    rw [JobRecord.cancel]
    cases ht : record.snapshot.isTerminal with
    | true => exact .inl ⟨rfl, rfl, .inl rfl⟩
    | false => exact .inr (.inr (.inr (.inr ⟨rfl, rfl, rfl, rfl, rfl⟩)))
  | requestStop =>
    injection h with h
    subst h
    exact .inl ⟨rfl, rfl, .inl rfl⟩

theorem JobRecord.Valid.of_new (jobId : Nat) :
    JobRecord.Valid { snapshot := { jobId := jobId } } :=
  ⟨rfl, nofun, nofun, fun _ => .inl rfl⟩

/-- The status of a record whose worker has not finished is not terminal. -/
theorem JobRecord.Valid.not_terminal (hv : record.Valid) (h : record.phase ≠ .finished) :
    record.snapshot.isTerminal = false :=
  Bool.eq_false_iff.mpr fun ht => h (hv.finished ht)

theorem isTerminal_of_status {snapshot : ScanJobSnapshot} {status : ScanJobStatus}
    (h : snapshot.status = status) : snapshot.isTerminal = status.isTerminal :=
  congrArg ScanJobStatus.isTerminal h

theorem JobRecord.Valid.step (hv : record.Valid) (h : record.step action = some record') :
    record'.Valid := by
  rcases JobRecord.step_cases h with ⟨hsnap, hres, hphase⟩ | ⟨-, hphase, hphase', hres, hst⟩ |
    ⟨hphase, hphase', hres, hst⟩ | ⟨result, hphase, hphase', hres, hsnap⟩ |
    ⟨-, hterm, hphase, hres, hst⟩
  · rcases hphase with hp | ⟨hp, hp'⟩ | ⟨hp, scanEnd, hp'⟩
    · exact ⟨by rw [hres, hsnap, hv.result], fun ht => hp ▸ hv.finished (hsnap ▸ ht),
        fun result hl => hv.leaving result (hp ▸ hl), fun he => hsnap ▸ hv.early (hp ▸ he)⟩
    · have hnot := hv.not_terminal (by rw [hp]; decide)
      refine ⟨by rw [hres, hsnap, hv.result], fun ht => ?_, fun result hl => ?_,
        fun _ => hsnap ▸ hv.early (.inl hp)⟩
      · rw [hsnap, hnot] at ht
        cases ht
      · rw [hp'] at hl
        cases hl
    · have hnot := hv.not_terminal (by rcases hp with hp | hp <;> rw [hp] <;> decide)
      refine ⟨by rw [hres, hsnap, hv.result], fun ht => ?_, fun result hl => ?_, fun he => ?_⟩
      · rw [hsnap, hnot] at ht
        cases ht
      · rw [hp'] at hl
        injection hl with hl
        exact hl ▸ isTerminal_result _ _
      · rw [hp'] at he
        rcases he with he | he <;> cases he
  · have hnot : record'.snapshot.isTerminal = false := isTerminal_of_status hst
    have hnot₀ := hv.not_terminal (by rw [hphase]; decide)
    refine ⟨by rw [hres, hnot, hv.result, hnot₀], fun ht => ?_, fun result hl => ?_, fun he => ?_⟩
    · rw [hnot] at ht
      cases ht
    · rw [hphase'] at hl
      cases hl
    · rw [hphase'] at he
      rcases he with he | he <;> cases he
  · have hnot₀ := hv.not_terminal (by rw [hphase]; decide)
    have hnot : record'.snapshot.isTerminal = false := by
      rcases hst with hst | hst
      · exact (isTerminal_of_status hst).trans hnot₀
      · exact isTerminal_of_status hst
    refine ⟨by rw [hres, hnot, hv.result, hnot₀], fun ht => ?_, fun result hl => ?_, fun he => ?_⟩
    · rw [hnot] at ht
      cases ht
    · rw [hphase'] at hl
      cases hl
    · rw [hphase'] at he
      rcases he with he | he <;> cases he
  · have hterm : record'.snapshot.isTerminal = true := hsnap ▸ hv.leaving result hphase
    refine ⟨by rw [hres, hterm]; rfl, fun _ => hphase', fun result hl => ?_, fun he => ?_⟩
    · rw [hphase'] at hl
      cases hl
    · rw [hphase'] at he
      rcases he with he | he <;> cases he
  · have hnot : record'.snapshot.isTerminal = false := isTerminal_of_status hst
    refine ⟨by rw [hres, hnot, hv.result, hterm], fun ht => ?_, fun result hl => ?_,
      fun _ => .inr hst⟩
    · rw [hnot] at ht
      cases ht
    · exact hv.leaving result (hphase ▸ hl)

theorem JobRecord.Valid.terminal_stays (hv : record.Valid)
    (ht : record.snapshot.isTerminal = true) (h : record.step action = some record') :
    record'.snapshot = record.snapshot ∧ record'.result = record.result := by
  have hphase := hv.finished ht
  rcases JobRecord.step_cases h with ⟨hsnap, hres, -⟩ | ⟨-, hp, -⟩ | ⟨hp, -⟩ | ⟨result, hp, -⟩ |
    ⟨-, hn, -⟩
  · exact ⟨hsnap, hres⟩
  · rw [hphase] at hp
    cases hp
  · rw [hphase] at hp
    cases hp
  · rw [hphase] at hp
    cases hp
  · rw [ht] at hn
    cases hn

/-- A job that is being cancelled, or is over. -/
def ScanJobStatus.isCancelled (status : ScanJobStatus) : Bool :=
  status = .cancelling || status.isTerminal

/-- Only the publication of the start of a worker takes a job out of its cancellation. -/
theorem JobRecord.Valid.cancelling_stays (hv : record.Valid)
    (hc : record.snapshot.status.isCancelled = true)
    (hrunning : ¬((∃ mode, action = .publishRunning mode) ∧ record.phase = .starting))
    (h : record.step action = some record') : record'.snapshot.status.isCancelled = true := by
  rcases JobRecord.step_cases h with ⟨hsnap, -⟩ | ⟨hmode, hp, -⟩ | ⟨-, -, -, hst⟩ |
    ⟨result, hp, -, -, hsnap⟩ | ⟨-, -, -, -, hst⟩
  · rw [hsnap]
    exact hc
  · exact absurd ⟨hmode, hp⟩ hrunning
  · rcases hst with hst | hst
    · rw [hst]
      exact hc
    · rw [hst]
      rfl
  · rw [hsnap]
    rw [ScanJobStatus.isCancelled]
    rw [show result.snapshot.status.isTerminal = true from hv.leaving result hp, Bool.or_true]
  · rw [hst]
    rfl

/-- The worker has published nothing yet. -/
def JobRecord.isEarly (record : JobRecord) : Bool :=
  record.phase = .notStarted || record.phase = .starting

/-- A worker that has published something stays past its beginning. -/
theorem JobRecord.late_stays (hl : record.isEarly = false)
    (h : record.step action = some record') : record'.isEarly = false := by
  rw [JobRecord.isEarly] at hl ⊢
  rw [Bool.or_eq_false_iff, decide_eq_false_iff_not, decide_eq_false_iff_not] at hl
  rcases JobRecord.step_cases h with ⟨-, -, hp | ⟨hp, -⟩ | ⟨-, scanEnd, hp⟩⟩ | ⟨-, hp, -⟩ |
    ⟨-, hp, -⟩ | ⟨result, -, hp, -⟩ | ⟨-, -, hp, -⟩
  · rw [hp]
    simp [hl]
  · exact absurd hp hl.1
  · rw [hp]
    rfl
  · exact absurd hp hl.2
  · rw [hp]
    rfl
  · rw [hp]
    rfl
  · rw [hp]
    simp [hl]

/-- Before the worker has published something, only `Cancel` makes the status `Cancelling`. -/
theorem JobRecord.cancel_of_cancelling (he : record'.isEarly = true)
    (h : record.step action = some record') (hn : record.snapshot.status ≠ .cancelling)
    (hc : record'.snapshot.status = .cancelling) :
    action = .cancel ∧ record.cancelAnswer = true := by
  rw [JobRecord.isEarly] at he
  rcases JobRecord.step_cases h with ⟨hsnap, -⟩ | ⟨-, -, -, -, hst⟩ | ⟨-, hp, -⟩ |
    ⟨result, -, hp, -⟩ | ⟨ha, ht, -⟩
  · exact absurd (hsnap ▸ hc) hn
  · rw [hst] at hc
    cases hc
  · rw [hp] at he
    cases he
  · rw [hp] at he
    cases he
  · refine ⟨ha, ?_⟩
    rw [JobRecord.cancelAnswer]
    rw [ht]
    rfl

end Record

/-! ### The service -/

structure JobService.Valid (s : JobService) : Prop where
  records : ∀ jobId record, s.records jobId = some record → record.Valid
  fresh : ∀ jobId, s.nextJobId ≤ jobId → s.records jobId = none
  oneActive : ∀ i ∈ s.jobs, ∀ j ∈ s.jobs, s.isActive i = true → s.isActive j = true → i = j

section Service

variable {s s' : JobService} {a : JobAction} {jobId : Nat} {record : JobRecord}

theorem JobService.step_cases (h : s.step a = some s') :
    (s'.records = s.records ∧ s'.jobs ⊆ s.jobs ∧ s'.nextJobId = s.nextJobId) ∨
    (a = .start ∧ (∀ i ∈ s.jobs, s.isActive i = false) ∧ s' = s.register) ∨
    (∃ jobId action record record', a = .onRecord jobId action ∧
      s.records jobId = some record ∧ record.step action = some record' ∧
      s'.records = Function.update s.records jobId (some record') ∧
      s'.jobs = s.jobs ∧ s'.nextJobId = s.nextJobId) := by
  cases a with
  | start =>
    injection h with h
    subst h
    rw [JobService.start]
    cases hany : s.jobs.any s.isActive with
    | true => exact .inl ⟨rfl, List.Subset.refl _, rfl⟩
    | false => exact .inr (.inl ⟨rfl, by simpa using hany, rfl⟩)
  | abandonStart jobId =>
    obtain ⟨-, ⟨⟩⟩ := Option.ite_none_right_eq_some.mp h
    exact .inl ⟨rfl, List.erase_subset, rfl⟩
  | onRecord jobId action =>
    obtain ⟨-, -, h⟩ := Option.bind_eq_some_iff.mp h
    obtain ⟨record, hrecord, h⟩ := Option.bind_eq_some_iff.mp h
    obtain ⟨record', hstep, ⟨⟩⟩ := Option.bind_eq_some_iff.mp h
    exact .inr (.inr ⟨jobId, action, record, record', rfl, hrecord, hstep, rfl, rfl, rfl⟩)
  | tryGetRecord jobId =>
    simp only [JobService.step] at h
    split at h <;> cases h <;> exact .inl ⟨rfl, List.Subset.refl _, rfl⟩
  | observe jobId =>
    obtain ⟨-, ⟨⟩⟩ := Option.ite_none_right_eq_some.mp h
    exact .inl ⟨rfl, List.Subset.refl _, rfl⟩
  | remove jobId =>
    simp only [JobService.step] at h
    split at h <;> cases h
    · exact .inl ⟨rfl, List.erase_subset, rfl⟩
    · exact .inl ⟨rfl, List.Subset.refl _, rfl⟩

theorem JobService.onRecord_eq {action : RecordAction} {record' : JobRecord}
    (hmay : s.mayAct jobId action = true) (hr : s.records jobId = some record)
    (h : record.step action = some record') :
    s.step (.onRecord jobId action) = some { s with
      records := Function.update s.records jobId (some record')
      handles := s.handlesAfter jobId action } := by
  refine Option.bind_eq_some_iff.mpr ⟨(), if_pos hmay, ?_⟩
  exact Option.bind_eq_some_iff.mpr ⟨record, hr, Option.bind_eq_some_iff.mpr ⟨record', h, rfl⟩⟩

/-- A record stays, and changes by an action on it. -/
theorem JobService.Valid.record_step (hv : s.Valid) (h : s.step a = some s')
    (hr : s.records jobId = some record) :
    ∃ record', s'.records jobId = some record' ∧
      (record' = record ∨ ∃ action, a = .onRecord jobId action ∧
        record.step action = some record') := by
  rcases JobService.step_cases h with ⟨hrecords, -⟩ | ⟨-, -, rfl⟩ |
    ⟨id, action, record₀, record', rfl, hr₀, hstep, hrecords, -⟩
  · exact ⟨record, hrecords ▸ hr, .inl rfl⟩
  · have hne : jobId ≠ s.nextJobId := by
      rintro rfl
      rw [hv.fresh _ le_rfl] at hr
      cases hr
    exact ⟨record, (Function.update_of_ne hne ..).trans hr, .inl rfl⟩
  · by_cases he : jobId = id
    · subst he
      rw [hr, Option.some_inj] at hr₀
      subst hr₀
      exact ⟨record', by rw [hrecords, Function.update_self], .inr ⟨action, rfl, hstep⟩⟩
    · exact ⟨record, by rw [hrecords, Function.update_of_ne he, hr], .inl rfl⟩

/-- A job that is active was active, or is new. -/
theorem JobService.Valid.isActive_of_step (hv : s.Valid) (h : s.step a = some s')
    (hr : s.records jobId = some record) (hactive : s'.isActive jobId = true) :
    s.isActive jobId = true := by
  rw [JobService.isActive] at hactive ⊢
  obtain ⟨record', hr', hmoved⟩ := hv.record_step h hr
  rw [hr', Option.any_some] at hactive
  rw [hr, Option.any_some]
  rcases hmoved with rfl | ⟨action, -, hstep⟩
  · exact hactive
  · rw [Bool.not_eq_true'] at hactive ⊢
    by_contra ht
    rw [Bool.not_eq_false] at ht
    rw [((hv.records jobId record hr).terminal_stays ht hstep).1, ht] at hactive
    cases hactive

theorem JobService.Valid.step (hv : s.Valid) (h : s.step a = some s') : s'.Valid := by
  have hactive : ∀ i, (s.records i).isSome = true → s'.isActive i = true →
      s.isActive i = true := fun i hi => by
    obtain ⟨record, hr⟩ := Option.isSome_iff_exists.mp hi
    exact hv.isActive_of_step h hr
  rcases JobService.step_cases h with ⟨hrecords, hjobs, hnext⟩ | ⟨-, hidle, rfl⟩ |
    ⟨id, action, record₀, record', -, hr₀, hstep, hrecords, hjobs, hnext⟩
  · have hsame : ∀ i, s'.isActive i = s.isActive i := fun i => by
      unfold JobService.isActive
      rw [hrecords]
    refine ⟨fun i r hr => hv.records i r (hrecords ▸ hr), fun i hi => ?_, fun i hi j hj => ?_⟩
    · rw [hrecords]
      exact hv.fresh i (hnext ▸ hi)
    · rw [hsame, hsame]
      exact hv.oneActive i (hjobs hi) j (hjobs hj)
  · refine ⟨fun i r hr => ?_, fun i hi => ?_, fun i hi j hj hai haj => ?_⟩
    · by_cases he : i = s.nextJobId
      · subst he
        rw [show s.register.records = Function.update s.records s.nextJobId _ from rfl,
          Function.update_self] at hr
        injection hr with hr
        exact hr ▸ .of_new _
      · rw [show s.register.records = Function.update s.records s.nextJobId _ from rfl,
          Function.update_of_ne he] at hr
        exact hv.records i r hr
    · have hi : s.nextJobId + 1 ≤ i := hi
      exact (Function.update_of_ne (by omega) ..).trans (hv.fresh i (by omega))
    · -- the jobs that were there are idle, so only the new one is active
      have hnew : ∀ k ∈ s.register.jobs, s.register.isActive k = true → k = s.nextJobId := by
        intro k hk hak
        by_contra he
        have hsame : s.register.isActive k = s.isActive k := by
          unfold JobService.isActive
          rw [show s.register.records k = s.records k from Function.update_of_ne he ..]
        rw [hsame, hidle k ((List.mem_cons.mp hk).resolve_left he)] at hak
        cases hak
      rw [hnew i hi hai, hnew j hj haj]
  · have hold : ∀ i, s'.isActive i = true → s.isActive i = true := fun i hi => by
      refine hactive i ?_ hi
      obtain ⟨r, hr, -⟩ := (Option.any_eq_true _ _).mp hi
      rw [hrecords] at hr
      by_cases he : i = id
      · rw [he, hr₀]
        rfl
      · rw [Function.update_of_ne he] at hr
        rw [hr]
        rfl
    refine ⟨fun i r hr => ?_, fun i hi => ?_, fun i hi j hj hai haj => ?_⟩
    · rw [hrecords] at hr
      by_cases he : i = id
      · rw [he, Function.update_self] at hr
        injection hr with hr
        exact hr ▸ (hv.records id record₀ hr₀).step hstep
      · rw [Function.update_of_ne he] at hr
        exact hv.records i r hr
    · have hne : i ≠ id := by
        rintro rfl
        rw [hv.fresh i (hnext ▸ hi)] at hr₀
        cases hr₀
      rw [hrecords, Function.update_of_ne hne]
      exact hv.fresh i (hnext ▸ hi)
    · exact hv.oneActive i (hjobs ▸ hi) j (hjobs ▸ hj) (hold i hai) (hold j haj)

theorem JobService.Valid.of_new : JobService.Valid {} :=
  ⟨fun _ _ h => (Option.some_ne_none _ h.symm).elim, fun _ _ => rfl,
    fun _ h => absurd h List.not_mem_nil⟩

theorem JobService.Valid.of_run {acts : List JobAction} (hv : s.Valid)
    (h : run JobService.step s acts = some s') : s'.Valid :=
  run_invariant (I := JobService.Valid) (fun _ _ _ hv h => hv.step h) h hv

end Service

/-! ### The laws -/

/-- The laws of the lifecycle between a state of a run and a later one. -/
structure LawsBetween (s : JobService) (during : List JobAction) (s' : JobService) : Prop where
  oneActive : ∀ i ∈ s'.jobs, ∀ j ∈ s'.jobs, s'.isActive i = true → s'.isActive j = true → i = j
  result : ∀ jobId record, s'.records jobId = some record →
    (record.result.isSome = true ↔ record.snapshot.isTerminal = true)
  terminal : ∀ jobId record, s.records jobId = some record → record.snapshot.isTerminal = true →
    ∃ record', s'.records jobId = some record' ∧
      record'.snapshot.status = record.snapshot.status
  cancelled : ∀ jobId record rest, during = .onRecord jobId .cancel :: rest →
    s.records jobId = some record → record.cancelAnswer = true →
      ∀ record', s'.records jobId = some record' →
        record'.snapshot.status = .cancelling ∨ record'.snapshot.isTerminal = true

/-- The laws hold between any two states of the run from a new service. -/
def Lawful (acts : List JobAction) : Prop :=
  ∀ before during after s s', acts = before ++ during ++ after →
    run JobService.step {} before = some s → run JobService.step s during = some s' →
      LawsBetween s during s'

/-- The worker publishes its start over the `Cancelling` of an accepted `Cancel`. -/
def PublishesOverCancel (s : JobService) (a : JobAction) : Prop :=
  ∃ jobId mode record, a = .onRecord jobId (.publishRunning mode) ∧
    s.records jobId = some record ∧ record.phase = .starting ∧
      record.snapshot.status = .cancelling

section Laws

variable {s s' : JobService} {acts : List JobAction} {jobId : Nat} {record : JobRecord}

theorem JobService.Valid.terminal_stays (hv : s.Valid) (hr : s.records jobId = some record)
    (ht : record.snapshot.isTerminal = true) (h : run JobService.step s acts = some s') :
    ∃ record', s'.records jobId = some record' ∧
      record'.snapshot.status = record.snapshot.status := by
  have hinv := run_invariant (I := fun t : JobService => t.Valid ∧ ∃ record',
    t.records jobId = some record' ∧ record'.snapshot.status = record.snapshot.status)
    (fun t a t' ⟨hvt, r, hrt, hst⟩ hstep => ?_) h ⟨hv, record, hr, rfl⟩
  · exact hinv.2
  · obtain ⟨r', hr', hmoved⟩ := hvt.record_step hstep hrt
    refine ⟨hvt.step hstep, r', hr', ?_⟩
    rcases hmoved with rfl | ⟨action, -, hact⟩
    · exact hst
    · have htr : r.snapshot.isTerminal = true := (isTerminal_of_status hst).trans ht
      rw [((hvt.records jobId r hrt).terminal_stays htr hact).1, hst]

/-- A job that is being cancelled stays so, or ends, unless its worker publishes its start. -/
theorem JobService.Valid.cancelling_stays (hv : s.Valid) (hr : s.records jobId = some record)
    (hc : record.snapshot.status.isCancelled = true)
    (hgood : EachStep JobService.step (fun s a => ¬PublishesOverCancel s a) s acts)
    (h : run JobService.step s acts = some s') :
    ∃ record', s'.records jobId = some record' ∧
      record'.snapshot.status.isCancelled = true := by
  have hinv := hgood.run_invariant (I := fun t : JobService => t.Valid ∧ ∃ record',
    t.records jobId = some record' ∧ record'.snapshot.status.isCancelled = true)
    (fun t a t' ⟨hvt, r, hrt, hct⟩ hstart hstep => ?_) h ⟨hv, record, hr, hc⟩
  · exact hinv.2
  · obtain ⟨r', hr', hmoved⟩ := hvt.record_step hstep hrt
    refine ⟨hvt.step hstep, r', hr', ?_⟩
    rcases hmoved with rfl | ⟨action, ha, hact⟩
    · exact hct
    · refine (hvt.records jobId r hrt).cancelling_stays hct ?_ hact
      rintro ⟨⟨mode, rfl⟩, hphase⟩
      -- before the first publication the status is not terminal
      have hnot := (hvt.records jobId r hrt).not_terminal (by rw [hphase]; decide)
      rw [ScanJobStatus.isCancelled] at hct
      rw [show r.snapshot.status.isTerminal = false from hnot, Bool.or_false,
        decide_eq_true_eq] at hct
      exact hstart ⟨jobId, mode, r, ha, hrt, hphase, hct⟩

/-- A job that is `Cancelling` before its worker published something was cancelled. -/
theorem exists_cancel (h : run JobService.step {} acts = some s)
    (hr : s.records jobId = some record) (he : record.isEarly = true)
    (hc : record.snapshot.status = .cancelling) :
    ∃ before rest s₁ record₁, acts = before ++ .onRecord jobId .cancel :: rest ∧
      run JobService.step {} before = some s₁ ∧ s₁.records jobId = some record₁ ∧
      record₁.cancelAnswer = true ∧
      run JobService.step s₁ (.onRecord jobId .cancel :: rest) = some s := by
  obtain ⟨before, a, after, s₁, s₂, rfl, hbefore, hstep, hafter, hnot, record₂, hr₂, hc₂⟩ :=
    exists_step (P := fun t : JobService => ∃ r, t.records jobId = some r ∧
      r.snapshot.status = .cancelling) h (fun ⟨_, hr, _⟩ => by cases hr) ⟨record, hr, hc⟩
  have hv₁ := JobService.Valid.of_new.of_run hbefore
  have hv₂ := hv₁.step hstep
  -- a worker that has published something stays past its beginning
  have he₂ : record₂.isEarly = true := by
    by_contra hlate
    rw [Bool.not_eq_true] at hlate
    have hinv := run_invariant (I := fun t : JobService => t.Valid ∧ ∃ r,
      t.records jobId = some r ∧ r.isEarly = false)
      (fun t a t' ⟨hvt, r, hrt, hl⟩ hst => ?_) hafter ⟨hv₂, record₂, hr₂, hlate⟩
    · obtain ⟨-, r, hrs, hl⟩ := hinv
      rw [hr, Option.some_inj] at hrs
      rw [← hrs, he] at hl
      cases hl
    · obtain ⟨r', hr', hmoved⟩ := hvt.record_step hst hrt
      refine ⟨hvt.step hst, r', hr', ?_⟩
      rcases hmoved with rfl | ⟨action, -, hact⟩
      · exact hl
      · exact JobRecord.late_stays hl hact
  rcases hr₁ : s₁.records jobId with _ | record₁
  · -- a new record is pending
    exfalso
    rcases JobService.step_cases hstep with ⟨hrecords, -⟩ | ⟨-, -, rfl⟩ |
      ⟨id, action, r, r', -, hrid, -, hrecords, -⟩
    · rw [hrecords, hr₁] at hr₂
      cases hr₂
    · by_cases hnew : jobId = s₁.nextJobId
      · rw [hnew, show s₁.register.records = Function.update s₁.records s₁.nextJobId _ from rfl,
          Function.update_self] at hr₂
        injection hr₂ with hr₂
        rw [← hr₂] at hc₂
        cases hc₂
      · rw [show s₁.register.records = Function.update s₁.records s₁.nextJobId _ from rfl,
          Function.update_of_ne hnew, hr₁] at hr₂
        cases hr₂
    · have hne : jobId ≠ id := by
        rintro rfl
        rw [hr₁] at hrid
        cases hrid
      rw [hrecords, Function.update_of_ne hne, hr₁] at hr₂
      cases hr₂
  · obtain ⟨r', hr', hmoved⟩ := hv₁.record_step hstep hr₁
    rw [hr₂, Option.some_inj] at hr'
    subst hr'
    have hn₁ : record₁.snapshot.status ≠ .cancelling := fun hc₁ => hnot ⟨record₁, hr₁, hc₁⟩
    rcases hmoved with rfl | ⟨action, rfl, hact⟩
    · exact absurd hc₂ hn₁
    · obtain ⟨rfl, hanswer⟩ := JobRecord.cancel_of_cancelling he₂ hact hn₁ hc₂
      exact ⟨before, after, s₁, record₁, rfl, hbefore, hr₁, hanswer,
        run_cons_eq_some.mpr ⟨s₂, hstep, hafter⟩⟩

/-- In every interleaving the laws of the lifecycle hold if no worker publishes its start over an
accepted cancellation, and only then. -/
theorem lawful_iff (acts : List JobAction) :
    Lawful acts ↔ EachStep JobService.step (fun s a => ¬PublishesOverCancel s a) {} acts := by
  constructor
  · rintro hlawful before a after s rfl hbefore ⟨jobId, mode, record, rfl, hr, hphase, hc⟩
    have he : record.isEarly = true := by
      rw [JobRecord.isEarly]
      rw [hphase]
      rfl
    obtain ⟨first, rest, s₁, record₁, rfl, hfirst, hr₁, hanswer, hrest⟩ :=
      exists_cancel hbefore hr he hc
    -- the publication can happen, and shows the cancelled job as running
    obtain ⟨s', hs', record', hr', hrunning⟩ : ∃ s',
        s.step (.onRecord jobId (.publishRunning mode)) = some s' ∧ ∃ record',
          s'.records jobId = some record' ∧ record'.snapshot.status = .running := by
      have hpublish : s.step (.onRecord jobId (.publishRunning mode)) = some _ :=
        JobService.onRecord_eq rfl hr (if_pos hphase)
      exact ⟨_, hpublish, _, Function.update_self .., rfl⟩
    have hlaws := hlawful first (.onRecord jobId .cancel :: rest ++
      [.onRecord jobId (.publishRunning mode)]) after s₁ s' (by simp) hfirst
      (run_append_eq_some.mpr ⟨s, hrest, run_cons_eq_some.mpr ⟨s', hs', rfl⟩⟩)
    rcases hlaws.cancelled jobId record₁ _ rfl hr₁ hanswer record' hr' with hst | hst
    · rw [hrunning] at hst
      cases hst
    · rw [isTerminal_of_status hrunning] at hst
      cases hst
  · rintro hgood before during after s s' rfl hbefore hduring
    have hv := JobService.Valid.of_new.of_run hbefore
    have hv' := hv.of_run hduring
    refine ⟨hv'.oneActive, fun i r hr => ?_, fun i r hr ht => hv.terminal_stays hr ht hduring, ?_⟩
    · rw [(hv'.records i r hr).result]
    · rintro jobId record rest rfl hr hanswer record' hr'
      obtain ⟨s₁, hcancel, hrest⟩ := run_cons_eq_some.mp hduring
      obtain ⟨-, -, hcancel'⟩ := Option.bind_eq_some_iff.mp hcancel
      obtain ⟨r, hrs, hcancel'⟩ := Option.bind_eq_some_iff.mp hcancel'
      rw [hr, Option.some_inj] at hrs
      subst hrs
      injection hcancel' with hs₁
      have hr₁ : s₁.records jobId = some record.cancel := by
        rw [← hs₁]
        exact Function.update_self ..
      have hc₁ : record.cancel.snapshot.status.isCancelled = true := by
        rw [JobRecord.cancelAnswer] at hanswer
        rw [Bool.not_eq_true'] at hanswer
        rw [JobRecord.cancel]
        rw [hanswer]
        rfl
      have hgood₁ : EachStep JobService.step (fun s a => ¬PublishesOverCancel s a) s₁ rest :=
        (hgood.part hbefore).tail hcancel
      obtain ⟨r', hr'', hc'⟩ := (hv.step hcancel).cancelling_stays hr₁ hc₁ hgood₁ hrest
      rw [hr', Option.some_inj] at hr''
      subst hr''
      rw [ScanJobStatus.isCancelled] at hc'
      rw [Bool.or_eq_true, decide_eq_true_eq] at hc'
      exact hc'

end Laws

/-- A job is cancelled between the return of `Start` and the first publication of its worker. -/
def cancelledAtOnce : List JobAction :=
  [.start, .onRecord 1 .startWorker, .tryGetRecord 1, .onRecord 1 .cancel,
    .onRecord 1 (.publishRunning .initialScan)]

/-- The cancelled job is seen `Running`. -/
theorem cancelledAtOnce_not_lawful : ¬Lawful cancelledAtOnce := by
  intro h
  have hlaws := h (cancelledAtOnce.take 3) (cancelledAtOnce.drop 3) [] _ _ rfl rfl rfl
  have hshown := hlaws.cancelled 1 _ _ rfl rfl rfl _ rfl
  revert hshown
  decide

end InpxWebReader.Scan
