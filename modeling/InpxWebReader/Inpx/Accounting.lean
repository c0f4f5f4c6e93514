import InpxWebReader.Inpx.Parser

/-!
# What the counts of a segment count

A segment that `ParseSegment` accepts is a list of lines, and each of them is accounted for: a line
with text yields one record or one warning that the record is skipped, a line without text yields
nothing. The counts of the summary are the lengths of these lists.
-/

namespace InpxWebReader.Inpx

open Foundation Unicode

/-- The lines of a text, without the carriage returns of their ends. -/
def linesOf (text : Bytes) : List Bytes :=
  (text.splitOn (asciiByte '\n')).map withoutCarriageReturn

/-- The warnings that a record is skipped. -/
def skippedWarnings (warnings : List InpxWarning) : List InpxWarning :=
  warnings.filter InpxWarning.recordSkipped

def recordsIn (events : List ParseEvent) : List InpxRecord := ParseTrace.records ⟨events, .ok {}⟩

def warningsIn (events : List ParseEvent) : List InpxWarning := ParseTrace.warnings ⟨events, .ok {}⟩

/-- The calls out of `ParseSegment` for one line. -/
structure ReportsLine (lineNumber : Nat) (line : Bytes) (events : List ParseEvent) : Prop where
  blank : line = [] → events = []
  once : line ≠ [] →
    ((∃ r, recordsIn events = [r]) ∧ skippedWarnings (warningsIn events) = []) ∨
      (recordsIn events = [] ∧ ∃ w, skippedWarnings (warningsIn events) = [w])
  numbered : ∀ w ∈ warningsIn events, w.lineNumber = lineNumber

/-- The calls out of `ParseSegment` for lines that are numbered from `lineNumber` on: the calls for
one line after those for the other. -/
inductive ReportsLines : Nat → List Bytes → List ParseEvent → Prop
  | nil {lineNumber : Nat} : ReportsLines lineNumber [] []
  | cons {lineNumber : Nat} {line : Bytes} {lines : List Bytes} {events rest : List ParseEvent}
      (h : ReportsLine lineNumber line events)
      (hrest : ReportsLines (lineNumber + 1) lines rest) :
      ReportsLines lineNumber (line :: lines) (events ++ rest)

/-- The counts of a summary are those of the lines and of the calls. -/
structure Counts (lines : List Bytes) (trace : ParseTrace) (summary : InpxParseSummary) :
    Prop where
  lines : summary.totalRecords = (lines.filter fun line => line ≠ []).length
  sum : summary.totalRecords = summary.parsedRecords + summary.skippedRecords
  parsed : summary.parsedRecords = trace.records.length
  skipped : summary.skippedRecords = (skippedWarnings trace.warnings).length
  deleted : summary.deletedRecords = trace.records.countP InpxRecord.deleted
  warnings : summary.warningCount = trace.warnings.length

/-! ### Calls -/

theorem ParseTrace.records_eq (trace : ParseTrace) : trace.records = recordsIn trace.events := rfl

theorem ParseTrace.warnings_eq (trace : ParseTrace) : trace.warnings = warningsIn trace.events :=
  rfl

@[simp] theorem recordsIn_append (events rest : List ParseEvent) :
    recordsIn (events ++ rest) = recordsIn events ++ recordsIn rest := List.filterMap_append ..

@[simp] theorem warningsIn_append (events rest : List ParseEvent) :
    warningsIn (events ++ rest) = warningsIn events ++ warningsIn rest := List.filterMap_append ..

@[simp] theorem skippedWarnings_append (warnings rest : List InpxWarning) :
    skippedWarnings (warnings ++ rest) = skippedWarnings warnings ++ skippedWarnings rest :=
  List.filter_append ..

section Line

variable {inpEntryName message : Bytes} {lineNumber : Nat} {record : InpxRecord}
  {invalidSeriesNumber : Bool} {line : Bytes}

@[simp] theorem recordsIn_recordEvents :
    recordsIn (recordEvents inpEntryName lineNumber record invalidSeriesNumber) = [record] := by
  cases invalidSeriesNumber <;> rfl

@[simp] theorem skippedWarnings_recordEvents : skippedWarnings (warningsIn
    (recordEvents inpEntryName lineNumber record invalidSeriesNumber)) = [] := by
  cases invalidSeriesNumber <;> rfl

@[simp] theorem length_warningsIn_recordEvents :
    (warningsIn (recordEvents inpEntryName lineNumber record invalidSeriesNumber)).length =
      if invalidSeriesNumber then 1 else 0 := by
  cases invalidSeriesNumber <;> rfl

@[simp] theorem recordsIn_skippedEvent :
    recordsIn [skippedEvent inpEntryName message lineNumber] = [] := rfl

@[simp] theorem length_warningsIn_skippedEvent :
    (warningsIn [skippedEvent inpEntryName message lineNumber]).length = 1 := rfl

@[simp] theorem length_skippedWarnings_skippedEvent :
    (skippedWarnings (warningsIn [skippedEvent inpEntryName message lineNumber])).length = 1 := rfl

theorem reportsLine_blank : ReportsLine lineNumber [] [] :=
  ⟨fun _ => rfl, fun h => absurd rfl h, fun _ h => by cases h⟩

/-- A record is reported once, and a warning before it does not skip it. -/
theorem reportsLine_record (hline : line ≠ []) :
    ReportsLine lineNumber line
      (recordEvents inpEntryName lineNumber record invalidSeriesNumber) := by
  refine ⟨fun h => absurd h hline, fun _ => .inl ⟨⟨record, by simp⟩, by simp⟩, ?_⟩
  intro w hw
  cases invalidSeriesNumber with
  | false => cases hw
  | true => rw [List.mem_singleton.mp hw]

theorem reportsLine_skipped (hline : line ≠ []) :
    ReportsLine lineNumber line [skippedEvent inpEntryName message lineNumber] := by
  refine ⟨fun h => absurd h hline, fun _ => .inr ⟨rfl, _, rfl⟩, ?_⟩
  intro w hw
  rw [List.mem_singleton.mp hw]

end Line

/-! ### Lines -/

/-- The counts that the lines from some line on add to a summary. -/
structure Adds (lines : List Bytes) (trace : ParseTrace) (summary summary' : InpxParseSummary) :
    Prop where
  lines : summary'.totalRecords =
    summary.totalRecords + (lines.filter fun line => line ≠ []).length
  parsed : summary'.parsedRecords = summary.parsedRecords + trace.records.length
  skipped : summary'.skippedRecords =
    summary.skippedRecords + (skippedWarnings trace.warnings).length
  sum : summary'.totalRecords + summary.parsedRecords + summary.skippedRecords =
    summary.totalRecords + summary'.parsedRecords + summary'.skippedRecords
  deleted : summary'.deletedRecords =
    summary.deletedRecords + trace.records.countP InpxRecord.deleted
  warnings : summary'.warningCount = summary.warningCount + trace.warnings.length

section Adds

variable {inpEntryName message line : Bytes} {lineNumber : Nat} {record : InpxRecord}
  {invalidSeriesNumber : Bool} {lines : List Bytes} {trace : ParseTrace}
  {summary summary' : InpxParseSummary}

theorem filter_cons_of_text (hline : line ≠ []) :
    ((line :: lines).filter fun line => line ≠ []).length =
      (lines.filter fun line => line ≠ []).length + 1 := by
  rw [List.filter_cons_of_pos (by simpa using hline), List.length_cons]

theorem Adds.blank (h : Adds lines trace summary summary') :
    Adds ([] :: lines) trace summary summary' := by
  refine ⟨?_, h.parsed, h.skipped, h.sum, h.deleted, h.warnings⟩
  rw [h.lines, List.filter_cons_of_neg (by simp)]

theorem Adds.skippedLine (hline : line ≠ []) (h : Adds lines trace summary.addSkipped summary') :
    Adds (line :: lines) (trace.after [skippedEvent inpEntryName message lineNumber])
      summary summary' := by
  obtain ⟨hlines, hparsed, hskipped, hsum, hdeleted, hwarnings⟩ := h
  simp only [InpxParseSummary.addSkipped] at hlines hparsed hskipped hsum hdeleted hwarnings
  refine ⟨?_, ?_, ?_, by omega, ?_, ?_⟩
  · rw [filter_cons_of_text hline, hlines]
    omega
  · rw [hparsed, ParseTrace.records_eq, ParseTrace.records_eq, ParseTrace.after, recordsIn_append,
      recordsIn_skippedEvent, List.nil_append]
  · rw [hskipped, ParseTrace.warnings_eq, ParseTrace.warnings_eq, ParseTrace.after,
      warningsIn_append, skippedWarnings_append, List.length_append,
      length_skippedWarnings_skippedEvent]
    omega
  · rw [hdeleted, ParseTrace.records_eq, ParseTrace.records_eq, ParseTrace.after, recordsIn_append,
      recordsIn_skippedEvent, List.nil_append]
  · rw [hwarnings, ParseTrace.warnings_eq, ParseTrace.warnings_eq, ParseTrace.after,
      warningsIn_append, List.length_append, length_warningsIn_skippedEvent]
    omega

theorem Adds.recordLine (hline : line ≠ [])
    (h : Adds lines trace (summary.addRecord record invalidSeriesNumber) summary') :
    Adds (line :: lines)
      (trace.after (recordEvents inpEntryName lineNumber record invalidSeriesNumber))
      summary summary' := by
  obtain ⟨hlines, hparsed, hskipped, hsum, hdeleted, hwarnings⟩ := h
  simp only [InpxParseSummary.addRecord] at hlines hparsed hskipped hsum hdeleted hwarnings
  refine ⟨?_, ?_, ?_, by omega, ?_, ?_⟩
  · rw [filter_cons_of_text hline, hlines]
    omega
  · rw [hparsed, ParseTrace.records_eq, ParseTrace.records_eq, ParseTrace.after, recordsIn_append,
      recordsIn_recordEvents, List.length_append, List.length_singleton]
    omega
  · rw [hskipped, ParseTrace.warnings_eq, ParseTrace.warnings_eq, ParseTrace.after,
      warningsIn_append, skippedWarnings_append, skippedWarnings_recordEvents, List.nil_append]
  · rw [hdeleted, ParseTrace.records_eq, ParseTrace.records_eq, ParseTrace.after, recordsIn_append,
      recordsIn_recordEvents, List.countP_append, List.countP_singleton]
    omega
  · rw [hwarnings, ParseTrace.warnings_eq, ParseTrace.warnings_eq, ParseTrace.after,
      warningsIn_append, List.length_append, length_warningsIn_recordEvents]
    omega

end Adds

/-- The loop reports every line, and adds what it reports. -/
theorem parseLines_reports {archiveName inpEntryName : Bytes} {summary' : InpxParseSummary} :
    ∀ (lines : List Bytes) (lineNumber : Nat) (summary : InpxParseSummary),
      (parseLines archiveName inpEntryName lines lineNumber summary).outcome = .ok summary' →
        ReportsLines lineNumber (lines.map withoutCarriageReturn)
          (parseLines archiveName inpEntryName lines lineNumber summary).events ∧
        Adds (lines.map withoutCarriageReturn)
          (parseLines archiveName inpEntryName lines lineNumber summary) summary summary' := by
  intro lines
  induction lines with
  | nil =>
    intro lineNumber summary h
    injection h with h
    subst h
    exact ⟨.nil, ⟨rfl, rfl, rfl, rfl, rfl, rfl⟩⟩
  | cons rawLine lines ih =>
    intro lineNumber summary h
    rw [List.map_cons]
    rw [parseLines] at h ⊢
    by_cases hblank : withoutCarriageReturn rawLine = []
    · simp only [hblank, if_true] at h ⊢
      obtain ⟨hreports, hadds⟩ := ih _ _ h
      exact ⟨.cons reportsLine_blank hreports, hadds.blank⟩
    · simp only [if_neg hblank] at h ⊢
      by_cases hlong : maxInpRecordLineBytes < (withoutCarriageReturn rawLine).length
      · rw [if_pos hlong] at h
        cases h
      rw [if_neg hlong] at h ⊢
      cases hrecord : parseRecordLine archiveName inpEntryName (withoutCarriageReturn rawLine) with
      | error message =>
        simp only [hrecord] at h ⊢
        obtain ⟨hreports, hadds⟩ := ih _ _ h
        exact ⟨.cons (reportsLine_skipped hblank) hreports, hadds.skippedLine hblank⟩
      | ok result =>
        obtain ⟨record, invalidSeriesNumber⟩ := result
        simp only [hrecord] at h ⊢
        obtain ⟨hreports, hadds⟩ := ih _ _ h
        exact ⟨.cons (reportsLine_record hblank) hreports, hadds.recordLine hblank⟩

/-! ### Segments -/

/-- What `ParseSegment` reports of a segment that it accepts. -/
structure Accounts (text : Bytes) (trace : ParseTrace) (summary : InpxParseSummary) : Prop where
  lines : ReportsLines 1 (linesOf text) trace.events
  counts : Counts (linesOf text) trace summary

/-- A segment that is accepted is accounted for, line by line. -/
theorem parseSegment_accounts {iconv : Iconv} {segment : InpxSegmentPayload} {trace : ParseTrace}
    {summary : InpxParseSummary} (htrace : parseSegment iconv segment = some trace)
    (h : trace.outcome = .ok summary) :
    ∃ text, decodeInpPayloadToUtf8 iconv segment.bytes = .ok text ∧
      Accounts text trace summary := by
  rw [parseSegment] at htrace
  cases hdecode : decodeInpPayloadToUtf8 iconv segment.bytes with
  | error noResult =>
    rw [hdecode] at htrace
    cases noResult with
    | throws failure =>
      injection htrace with htrace
      rw [← htrace] at h
      cases h
    | loops => cases htrace
  | ok text =>
    rw [hdecode] at htrace
    injection htrace with htrace
    subst htrace
    obtain ⟨hreports, hadds⟩ := parseLines_reports _ _ _ h
    refine ⟨text, rfl, hreports, ?_⟩
    obtain ⟨hlines, hparsed, hskipped, hsum, hdeleted, hwarnings⟩ := hadds
    exact ⟨by simpa [linesOf] using hlines, by simpa using hsum, by simpa using hparsed,
      by simpa using hskipped, by simpa using hdeleted, by simpa using hwarnings⟩

end InpxWebReader.Inpx
