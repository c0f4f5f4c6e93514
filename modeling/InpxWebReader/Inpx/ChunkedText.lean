import InpxWebReader.Inpx.Parser
import InpxWebReader.Library.Checkpoints

/-!
# Text in chunks

The parser looks for separators, copies, appends and trims with a checkpoint for every 64 KiB, and
does all of it at once on shorter texts. `chunkedText_plain` says that both ways compute what the
plain operations of the parser's model compute, at every length.
-/

namespace InpxWebReader.Inpx

open Foundation Program

/-- `std::string_view::find` from an offset. -/
def findByte (value : Bytes) (expected : UInt8) (start : Nat) : Option Nat :=
  ((value.drop start).idxOf? expected).map (start + ·)

section Chunks

variable {ε σ : Type} (checkpoint : EStateM ε σ Unit)

def cancellationCheckpointIntervalBytes : Nat := 64 * 1024

/-- The checkpoint before every chunk but the first one. -/
def checkpointAfter (first offset : Nat) : EStateM ε σ Unit :=
  if offset = first then pure () else checkpoint

/-- How long the chunk at an offset is. -/
def chunkSize (value : Bytes) (offset : Nat) : Nat :=
  min cancellationCheckpointIntervalBytes (value.length - offset)

/-- The loop that appends a text chunk by chunk. -/
def appendChunks (value : Bytes) : Nat → Nat → Bytes → EStateM ε σ Bytes
  | 0, _, destination => return destination
  | fuel + 1, offset, destination => do
    if offset < value.length then
      checkpointAfter checkpoint 0 offset
      appendChunks value fuel (offset + chunkSize value offset)
        (destination ++ (value.drop offset).take (chunkSize value offset))
    else
      return destination

def copyTextWithCheckpoints (value : Bytes) : EStateM ε σ Bytes := do
  checkpoint
  if value.length ≤ cancellationCheckpointIntervalBytes then
    return value
  else
    appendChunks checkpoint value value.length 0 []

def appendTextWithCheckpoints (destination value : Bytes) : EStateM ε σ Bytes := do
  checkpoint
  if value.length ≤ cancellationCheckpointIntervalBytes then
    return destination ++ value
  else
    appendChunks checkpoint value value.length 0 destination

/-- The loop of `FindByteWithCheckpoints`. -/
def findInChunks (value : Bytes) (expected : UInt8) (start : Nat) :
    Nat → Nat → EStateM ε σ (Option Nat)
  | 0, _ => return none
  | fuel + 1, offset => do
    if offset < value.length then
      checkpointAfter checkpoint start offset
      match ((value.drop offset).take (chunkSize value offset)).idxOf? expected with
      | some relative => return some (offset + relative)
      | none => findInChunks value expected start fuel (offset + chunkSize value offset)
    else
      return none

def findByteWithCheckpoints (value : Bytes) (expected : UInt8) (start : Nat) :
    EStateM ε σ (Option Nat) := do
  checkpoint
  if value.length ≤ start then
    return none
  else if value.length - start ≤ cancellationCheckpointIntervalBytes then
    return ((value.drop start).idxOf? expected).map (start + ·)
  else
    findInChunks checkpoint value expected start value.length start

def isBlankAt (value : Bytes) (index : Nat) : Bool := value[index]?.any isAsciiBlank

/-- Where the text starts behind its blanks. -/
def firstNonBlank (value : Bytes) (stop : Nat) : Nat → Nat → Nat
  | 0, start => start
  | fuel + 1, start =>
    if start < stop ∧ isBlankAt value start then firstNonBlank value stop fuel (start + 1)
    else start

/-- Where the text stops before its blanks. -/
def lastNonBlank (value : Bytes) (start : Nat) : Nat → Nat → Nat
  | 0, stop => stop
  | fuel + 1, stop =>
    if start < stop ∧ isBlankAt value (stop - 1) then lastNonBlank value start fuel (stop - 1)
    else stop

/-- Count one more byte that was passed over. -/
def countPassedByte (bytesSinceCheckpoint : Nat) : EStateM ε σ Nat := do
  if bytesSinceCheckpoint + 1 = cancellationCheckpointIntervalBytes then
    checkpoint
    return 0
  else
    return bytesSinceCheckpoint + 1

/-- The first loop of `TrimAsciiWhitespace` on a long text. -/
def firstNonBlankLoop (value : Bytes) (stop : Nat) : Nat → Nat → Nat → EStateM ε σ (Nat × Nat)
  | 0, start, bytesSinceCheckpoint => return (start, bytesSinceCheckpoint)
  | fuel + 1, start, bytesSinceCheckpoint => do
    if start < stop ∧ isBlankAt value start then
      let bytesSinceCheckpoint ← countPassedByte checkpoint bytesSinceCheckpoint
      firstNonBlankLoop value stop fuel (start + 1) bytesSinceCheckpoint
    else
      return (start, bytesSinceCheckpoint)

def lastNonBlankLoop (value : Bytes) (start : Nat) : Nat → Nat → Nat → EStateM ε σ Nat
  | 0, stop, _ => return stop
  | fuel + 1, stop, bytesSinceCheckpoint => do
    if start < stop ∧ isBlankAt value (stop - 1) then
      let bytesSinceCheckpoint ← countPassedByte checkpoint bytesSinceCheckpoint
      lastNonBlankLoop value start fuel (stop - 1) bytesSinceCheckpoint
    else
      return stop

def trimAsciiWhitespaceWithCheckpoints (value : Bytes) : EStateM ε σ Bytes := do
  checkpoint
  if value.length ≤ cancellationCheckpointIntervalBytes then
    let start := firstNonBlank value value.length value.length 0
    let stop := lastNonBlank value start value.length value.length
    return (value.drop start).take (stop - start)
  else
    let (start, bytesSinceCheckpoint) ←
      firstNonBlankLoop checkpoint value value.length value.length 0 0
    let stop ← lastNonBlankLoop checkpoint value start value.length value.length
      bytesSinceCheckpoint
    copyTextWithCheckpoints checkpoint ((value.drop start).take (stop - start))

/-! ### Chunks -/

variable {checkpoint}

theorem checkpointAfter_checked (first offset : Nat) :
    Checked checkpoint (checkpointAfter checkpoint first offset) fun _ => True := by
  rw [checkpointAfter]
  split
  · exact .of_pure trivial
  · exact .of_checkpoint

theorem chunkSize_bounds {value : Bytes} {offset : Nat} (h : offset < value.length) :
    0 < chunkSize value offset ∧ offset + chunkSize value offset ≤ value.length := by
  rw [chunkSize, cancellationCheckpointIntervalBytes]
  omega

theorem appendChunks_checked (value : Bytes) {fuel offset : Nat} {destination : Bytes}
    (hfuel : value.length ≤ fuel + offset) :
    Checked checkpoint (appendChunks checkpoint value fuel offset destination) fun result =>
      result = destination ++ value.drop offset := by
  induction fuel generalizing offset destination with
  | zero =>
    refine .of_pure ?_
    rw [List.drop_eq_nil_of_le (by omega), List.append_nil]
  | succ fuel ih =>
    rw [appendChunks]
    by_cases hmore : offset < value.length
    · obtain ⟨hpos, -⟩ := chunkSize_bounds hmore
      rw [if_pos hmore]
      refine (checkpointAfter_checked 0 offset).bind fun _ _ => ?_
      refine (ih (by omega)).mono fun result hresult => ?_
      rw [hresult, List.append_assoc, ← List.drop_drop, List.take_append_drop]
    · rw [if_neg hmore]
      refine .of_pure ?_
      rw [List.drop_eq_nil_of_le (by omega), List.append_nil]

theorem copyTextWithCheckpoints_checked (value : Bytes) :
    Checked checkpoint (copyTextWithCheckpoints checkpoint value) fun result =>
      result = value := by
  refine .after_checkpoint ?_
  split
  · exact .of_pure rfl
  · exact appendChunks_checked value (by omega)

theorem appendTextWithCheckpoints_checked (destination value : Bytes) :
    Checked checkpoint (appendTextWithCheckpoints checkpoint destination value) fun result =>
      result = destination ++ value := by
  refine .after_checkpoint ?_
  split
  · exact .of_pure rfl
  · exact appendChunks_checked value (by omega)

/-- A byte is in the first chunk, or where it is in the rest. -/
theorem findByte_chunk (value : Bytes) (expected : UInt8) (offset size : Nat)
    (hsize : offset + size ≤ value.length) :
    findByte value expected offset =
      match ((value.drop offset).take size).idxOf? expected with
      | some relative => some (offset + relative)
      | none => findByte value expected (offset + size) := by
  have hsplit : value.drop offset =
      (value.drop offset).take size ++ value.drop (offset + size) := by
    rw [← List.drop_drop, List.take_append_drop]
  have hlength : ((value.drop offset).take size).length = size := by
    rw [List.length_take, List.length_drop]
    omega
  rw [findByte, findByte]
  conv_lhs => rw [hsplit]
  rw [List.idxOf?, List.findIdx?_append, hlength]
  cases List.findIdx? (· == expected) ((value.drop offset).take size) with
  | some relative => simp
  | none =>
    rw [Option.none_or, Option.map_map]
    simp only [Function.comp_def, Nat.add_assoc, Nat.add_comm size]

theorem findByte_of_le {value : Bytes} {expected : UInt8} {start : Nat}
    (h : value.length ≤ start) : findByte value expected start = none := by
  rw [findByte, List.drop_eq_nil_of_le h]
  rfl

theorem findInChunks_checked (value : Bytes) (expected : UInt8) (start : Nat) {fuel offset : Nat}
    (hfuel : value.length ≤ fuel + offset) :
    Checked checkpoint (findInChunks checkpoint value expected start fuel offset) fun result =>
      result = findByte value expected offset := by
  induction fuel generalizing offset with
  | zero => exact .of_pure (findByte_of_le (by omega)).symm
  | succ fuel ih =>
    rw [findInChunks]
    by_cases hmore : offset < value.length
    · obtain ⟨hpos, hle⟩ := chunkSize_bounds hmore
      rw [if_pos hmore]
      refine (checkpointAfter_checked start offset).bind fun _ _ => ?_
      rw [findByte_chunk value expected offset _ hle]
      split
      · exact .of_pure rfl
      · exact ih (by omega)
    · rw [if_neg hmore]
      exact .of_pure (findByte_of_le (by omega)).symm

theorem findByteWithCheckpoints_checked (value : Bytes) (expected : UInt8) (start : Nat) :
    Checked checkpoint (findByteWithCheckpoints checkpoint value expected start) fun result =>
      result = findByte value expected start := by
  refine .after_checkpoint ?_
  split
  · rename_i hend
    exact .of_pure (findByte_of_le hend).symm
  split
  · exact .of_pure rfl
  · exact findInChunks_checked value expected start (by omega)

/-! ### Blanks -/

theorem drop_firstNonBlank (value : Bytes) {fuel start : Nat}
    (hfuel : value.length ≤ fuel + start) :
    value.drop (firstNonBlank value value.length fuel start) =
      (value.drop start).dropWhile isAsciiBlank := by
  induction fuel generalizing start with
  | zero =>
    have hnil : value.drop start = [] := List.drop_eq_nil_of_le (by omega)
    rw [firstNonBlank, hnil]
    rfl
  | succ fuel ih =>
    rw [firstNonBlank]
    by_cases hmore : start < value.length
    · have hcons := List.drop_eq_getElem_cons hmore
      have hblank : isBlankAt value start = isAsciiBlank value[start] := by
        rw [isBlankAt, List.getElem?_eq_getElem hmore, Option.any_some]
      rw [hcons, List.dropWhile_cons, hblank]
      by_cases hb : isAsciiBlank value[start] = true
      · rw [if_pos ⟨hmore, hb⟩, if_pos hb]
        exact ih (by omega)
      · rw [if_neg fun h => hb h.2, if_neg hb, hcons]
    · have hnil : value.drop start = [] := List.drop_eq_nil_of_le (by omega)
      rw [if_neg fun h => hmore h.1, hnil]
      rfl

theorem take_lastNonBlank (value : Bytes) {fuel start stop : Nat} (hstop : stop ≤ value.length)
    (hfuel : stop ≤ fuel + start) :
    (value.drop start).take (lastNonBlank value start fuel stop - start) =
      ((value.drop start).take (stop - start)).rdropWhile isAsciiBlank := by
  induction fuel generalizing stop with
  | zero =>
    have hzero : stop - start = 0 := by omega
    rw [lastNonBlank, hzero, List.take_zero]
    rfl
  | succ fuel ih =>
    rw [lastNonBlank]
    by_cases hmore : start < stop
    · have hlt : stop - 1 < value.length := by omega
      have hblank : isBlankAt value (stop - 1) = isAsciiBlank value[stop - 1] := by
        rw [isBlankAt, List.getElem?_eq_getElem hlt, Option.any_some]
      have hconcat : (value.drop start).take (stop - start) =
          (value.drop start).take (stop - 1 - start) ++ [value[stop - 1]] := by
        have hlength : stop - 1 - start < (value.drop start).length := by
          rw [List.length_drop]
          omega
        have hsucc : stop - start = stop - 1 - start + 1 := by omega
        rw [hsucc, List.take_succ_eq_append_getElem hlength, List.getElem_drop]
        congr 3
        omega
      rw [hconcat, List.rdropWhile_concat, hblank]
      by_cases hb : isAsciiBlank value[stop - 1] = true
      · rw [if_pos ⟨hmore, hb⟩, if_pos hb]
        exact ih (by omega) (by omega)
      · rw [if_neg fun h => hb h.2, if_neg hb, hconcat]
    · have hzero : stop - start = 0 := by omega
      rw [if_neg fun h => hmore h.1, hzero, List.take_zero]
      rfl

/-- The bytes between the two ends are the trimmed text. -/
theorem trim_between (value : Bytes) :
    (value.drop (firstNonBlank value value.length value.length 0)).take
        (lastNonBlank value (firstNonBlank value value.length value.length 0) value.length
          value.length - firstNonBlank value value.length value.length 0) =
      trimAsciiWhitespace value := by
  have hfront := drop_firstNonBlank value (Nat.le_add_right value.length 0)
  rw [List.drop_zero] at hfront
  rw [take_lastNonBlank value le_rfl (Nat.le_add_right ..), hfront,
    List.take_of_length_le, trimAsciiWhitespace]
  rw [← hfront, List.length_drop]

theorem countPassedByte_checked (bytesSinceCheckpoint : Nat) :
    Checked checkpoint (countPassedByte checkpoint bytesSinceCheckpoint) fun _ => True := by
  rw [countPassedByte]
  split
  · exact .after_checkpoint (.of_pure trivial)
  · exact .of_pure trivial

theorem firstNonBlankLoop_checked (value : Bytes) (stop : Nat)
    {fuel start bytesSinceCheckpoint : Nat} :
    Checked checkpoint (firstNonBlankLoop checkpoint value stop fuel start bytesSinceCheckpoint)
      fun result => result.1 = firstNonBlank value stop fuel start := by
  induction fuel generalizing start bytesSinceCheckpoint with
  | zero => exact .of_pure rfl
  | succ fuel ih =>
    rw [firstNonBlankLoop, firstNonBlank]
    split
    · exact (countPassedByte_checked bytesSinceCheckpoint).bind fun _ _ => ih
    · exact .of_pure rfl

theorem lastNonBlankLoop_checked (value : Bytes) (start : Nat)
    {fuel stop bytesSinceCheckpoint : Nat} :
    Checked checkpoint (lastNonBlankLoop checkpoint value start fuel stop bytesSinceCheckpoint)
      fun result => result = lastNonBlank value start fuel stop := by
  induction fuel generalizing stop bytesSinceCheckpoint with
  | zero => exact .of_pure rfl
  | succ fuel ih =>
    rw [lastNonBlankLoop, lastNonBlank]
    split
    · exact (countPassedByte_checked bytesSinceCheckpoint).bind fun _ _ => ih
    · exact .of_pure rfl

theorem trimAsciiWhitespaceWithCheckpoints_checked (value : Bytes) :
    Checked checkpoint (trimAsciiWhitespaceWithCheckpoints checkpoint value) fun result =>
      result = trimAsciiWhitespace value := by
  refine .after_checkpoint ?_
  split
  · exact .of_pure (trim_between value)
  · refine (firstNonBlankLoop_checked value value.length).bind fun front hfront => ?_
    obtain ⟨start, bytesSinceCheckpoint⟩ := front
    refine (lastNonBlankLoop_checked value start).bind fun stop hstop => ?_
    refine (copyTextWithCheckpoints_checked _).mono fun result hresult => ?_
    dsimp only at hfront
    rw [hresult, hstop, hfront, trim_between]

/-- Where no checkpoint throws, the helpers return what the plain operations return. -/
theorem chunkedText_plain (hcheckpoint : NeverThrows checkpoint) (value destination : Bytes)
    (expected : UInt8) (start : Nat) (s : σ) :
    (∃ s', findByteWithCheckpoints checkpoint value expected start s =
        .ok (findByte value expected start) s') ∧
      (∃ s', copyTextWithCheckpoints checkpoint value s = .ok value s') ∧
      (∃ s', appendTextWithCheckpoints checkpoint destination value s =
        .ok (destination ++ value) s') ∧
      ∃ s', trimAsciiWhitespaceWithCheckpoints checkpoint value s =
        .ok (trimAsciiWhitespace value) s' :=
  ⟨(findByteWithCheckpoints_checked value expected start).returns hcheckpoint s,
    (copyTextWithCheckpoints_checked value).returns hcheckpoint s,
    (appendTextWithCheckpoints_checked destination value).returns hcheckpoint s,
    (trimAsciiWhitespaceWithCheckpoints_checked value).returns hcheckpoint s⟩

end Chunks

/-- A checkpoint that counts its calls. -/
theorem chunkedText_plain_counting :
    (∃ n, findByteWithCheckpoints (modify (· + 1) : EStateM Empty Nat Unit) (ascii "a:b") 0x3A 1 0 =
        .ok (some 1) n) ∧
      ∃ n, trimAsciiWhitespaceWithCheckpoints (modify (· + 1) : EStateM Empty Nat Unit)
        (ascii " ab ") 0 = .ok (ascii "ab") n := by
  have hcount : NeverThrows (modify (· + 1) : EStateM Empty Nat Unit) := neverThrows_modify _
  have hplain : findByte (ascii "a:b") 0x3A 1 = some 1 := by decide
  have hblank : trimAsciiWhitespace (ascii " ab ") = ascii "ab" := by decide
  obtain ⟨hfind, -, -, -⟩ := chunkedText_plain hcount (ascii "a:b") [] 0x3A 1 0
  obtain ⟨-, -, -, htrim⟩ := chunkedText_plain hcount (ascii " ab ") [] 0x3A 1 0
  rw [hplain] at hfind
  rw [hblank] at htrim
  exact ⟨hfind, htrim⟩

end InpxWebReader.Inpx
