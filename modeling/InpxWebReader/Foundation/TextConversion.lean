import InpxWebReader.Foundation.Exception
import InpxWebReader.Foundation.Utf8
import InpxWebReader.Library.Blocks
import InpxWebReader.Library.Program

/-!
# Conversion to UTF-8

`convertText` hands a text to the system's `iconv`, a parameter here, and takes what it writes into
a buffer that grows by 64 KiB. The buffer only grows when it is full: where the next character does
not fit into what is left of it, `iconv` is asked again and again. So `convertText` returns exactly
if no character lies across the border of two of these blocks (`convertText_eq`).
-/

namespace InpxWebReader.Unicode

open Foundation Blocks

/-! ### `iconv` -/

/-- What `iconv` makes of a text: the characters it writes, in UTF-8, and whether it reads the text
to its end. Each character is written whole or not at all. -/
structure IconvReading where
  characters : List Bytes
  complete : Bool
  deriving DecidableEq

/-- One more character in front of a reading. -/
def IconvReading.cons (character : Bytes) (reading : IconvReading) : IconvReading :=
  ⟨character :: reading.characters, reading.complete⟩

/-- `iconv_open` to UTF-8 from the named encoding, with the conversion where there is one. -/
abbrev Iconv := Bytes → Option (Bytes → IconvReading)

/-- The characters of a reading are UTF-8. -/
def IconvReading.Valid (reading : IconvReading) : Prop :=
  ∀ character ∈ reading.characters, ValidUtf8 character

/-- What the system promises of its conversions. -/
def Iconv.WritesUtf8 (iconv : Iconv) : Prop :=
  ∀ encoding convert value, iconv encoding = some convert → (convert value).Valid

def noConversion : Iconv := fun _ => none

theorem noConversion_writesUtf8 : noConversion.WritesUtf8 := fun _ _ _ h => by cases h

abbrev IconvReading.text (reading : IconvReading) : Bytes := reading.characters.flatten

/-! ### The buffer -/

/-- `std::string::max_size`. -/
def maxStringSize : Nat := 2 ^ 62 - 1

/-- How a conversion may end without a text. -/
inductive ConversionEnd
  /-- `CTextConversionError` -/
  | conversionError
  /-- `std::length_error` -/
  | lengthError (text : Bytes)
  /-- not at all -/
  | neverReturns
  deriving DecidableEq

/-- The buffer of `ConvertText`: what is written, and how many bytes are left behind it. -/
structure OutputBuffer where
  written : Bytes := []
  bytesLeft : Nat

def growOutputBuffer (output : OutputBuffer) : Except ConversionEnd OutputBuffer :=
  if maxStringSize - checkpointIntervalBytes < output.written.length + output.bytesLeft then
    .error (.lengthError
      (ascii "Unicode conversion output exceeds its implementation limit."))
  else .ok { output with bytesLeft := output.bytesLeft + checkpointIntervalBytes }

/-- `GrowOutputBuffer` where no byte is left. -/
def growIfFull (output : OutputBuffer) : Except ConversionEnd OutputBuffer :=
  if output.bytesLeft = 0 then growOutputBuffer output else .ok output

/-- A call of `iconv` that writes into what is left of the buffer. -/
def OutputBuffer.put (output : OutputBuffer) (characters : List Bytes) :
    OutputBuffer × List Bytes :=
  let (produced, left) := fill (min output.bytesLeft checkpointIntervalBytes) characters
  (⟨output.written ++ produced, output.bytesLeft - produced.length⟩, left)

/-- The loop of `ConvertText` over the text, for the characters that `iconv` finds in it; `fuel`
bounds its turns. -/
def convertLoop (complete : Bool) :
    Nat → List Bytes → OutputBuffer → Except ConversionEnd OutputBuffer
  | 0, _, _ => .error .neverReturns
  | fuel + 1, characters, output => do
    let output ← growIfFull output
    let (output, left) := output.put characters
    if left = [] then
      if complete then return output else throw .conversionError
    else
      -- `E2BIG`
      let output ← growIfFull output
      convertLoop complete fuel left output

/-- `ConvertText`. The encodings in use have no state, so that the second loop, over what `iconv`
held back, writes nothing. -/
def convertText (iconv : Iconv) (encoding value : Bytes) : Except ConversionEnd Bytes :=
  if value = [] then .ok []
  else
    match iconv encoding with
    | none => .error .conversionError
    | some convert => do
      if maxStringSize / 4 < value.length then
        throw (.lengthError (ascii "Unicode conversion input exceeds its implementation limit."))
      let reading := convert value
      let output ← convertLoop reading.complete (reading.characters.length + 1) reading.characters
        { bytesLeft := min (max 32 (value.length * 4)) checkpointIntervalBytes }
      let output ← growIfFull output
      return output.written

/-! ### What is written -/

section Loop

variable {complete : Bool} {characters : List Bytes} {output output' : OutputBuffer}

theorem growIfFull_written (h : growIfFull output = .ok output') :
    output'.written = output.written := by
  rw [growIfFull] at h
  split at h
  · rw [growOutputBuffer] at h
    split at h
    · cases h
    · injection h with h
      rw [← h]
  · injection h with h
    rw [h]

theorem OutputBuffer.put_text (output : OutputBuffer) (characters : List Bytes) :
    (output.put characters).1.written ++ (output.put characters).2.flatten =
      output.written ++ characters.flatten := by
  change (_ ++ (fill _ characters).1) ++ _ = _
  rw [List.append_assoc]
  exact congrArg _ (fill_flatten _ characters)

theorem convertLoop_ok {fuel : Nat} (h : convertLoop complete fuel characters output = .ok output') :
    complete = true ∧ output'.written = output.written ++ characters.flatten := by
  induction fuel generalizing characters output with
  | zero => cases h
  | succ fuel ih =>
    rw [convertLoop] at h
    obtain ⟨grown, hgrown, h⟩ := Program.except_bind_eq_ok h
    have hput := grown.put_text characters
    rw [growIfFull_written hgrown] at hput
    dsimp only at h
    split at h
    · rename_i hleft
      rw [hleft, List.flatten_nil, List.append_nil] at hput
      split at h
      · rename_i hcomplete
        injection h with h
        exact ⟨hcomplete, h ▸ hput⟩
      · cases h
    · obtain ⟨again, hagain, h⟩ := Program.except_bind_eq_ok h
      obtain ⟨hcomplete, hwritten⟩ := ih h
      rw [growIfFull_written hagain, hput] at hwritten
      exact ⟨hcomplete, hwritten⟩

end Loop

/-- A text that is returned is the one that `iconv` writes. -/
theorem convertText_ok {iconv : Iconv} {encoding value text : Bytes}
    (h : convertText iconv encoding value = .ok text) :
    (value = [] ∧ text = []) ∨ ∃ convert, iconv encoding = some convert ∧
      value.length ≤ maxStringSize / 4 ∧ (convert value).complete = true ∧
        text = (convert value).text := by
  rw [convertText] at h
  split at h
  · injection h with h
    exact .inl ⟨‹_›, h.symm⟩
  · split at h
    · cases h
    · rename_i convert hopen
      split at h
      · cases h
      · rename_i hlength
        obtain ⟨output, hloop, h⟩ := Program.except_bind_eq_ok h
        obtain ⟨flushed, hflush, h⟩ := Program.except_bind_eq_ok h
        injection h with h
        obtain ⟨hcomplete, hwritten⟩ := convertLoop_ok hloop
        refine .inr ⟨convert, hopen, Nat.not_lt.mp hlength, hcomplete, ?_⟩
        rw [← h, growIfFull_written hflush, hwritten]
        rfl

theorem convertText_valid {iconv : Iconv} (hiconv : iconv.WritesUtf8)
    {encoding value text : Bytes} (h : convertText iconv encoding value = .ok text) :
    ValidUtf8 text := by
  rcases convertText_ok h with ⟨_, rfl⟩ | ⟨convert, hopen, _, _, rfl⟩
  · exact .nil
  · exact .flatten (hiconv encoding convert value hopen)

/-! ### When the loop ends -/

section Exact

variable {complete : Bool} {characters : List Bytes} {output : OutputBuffer}

/-- Where one more block fits into a string, the buffer grows. -/
theorem growIfFull_eq (h : output.written.length + checkpointIntervalBytes ≤ maxStringSize) :
    growIfFull output = .ok { output with
      bytesLeft := if output.bytesLeft = 0 then checkpointIntervalBytes else output.bytesLeft } := by
  rw [growIfFull]
  split
  · rename_i hfull
    rw [growOutputBuffer, hfull, if_neg (by omega), Nat.zero_add]
  · rfl

theorem convertLoop_turn {grown : OutputBuffer} (hgrow : growIfFull output = .ok grown)
    (complete : Bool) (fuel : Nat) (characters : List Bytes) :
    convertLoop complete (fuel + 1) characters output =
      if (grown.put characters).2 = [] then
        if complete then .ok (grown.put characters).1 else .error .conversionError
      else growIfFull (grown.put characters).1 >>=
        convertLoop complete fuel (grown.put characters).2 := by
  rw [convertLoop, hgrow]
  rfl

/-- A buffer with bytes left into which the next character does not fit is offered for ever. -/
theorem convertLoop_stuck (hleft : output.bytesLeft ≠ 0) (hne : characters ≠ [])
    (hfill : fill (min output.bytesLeft checkpointIntervalBytes) characters = ([], characters))
    (fuel : Nat) : convertLoop complete fuel characters output = .error .neverReturns := by
  have hgrow : growIfFull output = .ok output := if_neg hleft
  have hput : output.put characters = (output, characters) := by
    rw [OutputBuffer.put, hfill]
    simp
  induction fuel with
  | zero => rfl
  | succ fuel ih =>
    rw [convertLoop_turn hgrow, hput, if_neg hne, hgrow]
    exact ih

/-- Where all characters fit into the buffer, one turn is enough. -/
theorem convertLoop_all (hleft : output.bytesLeft ≠ 0)
    (hblock : output.bytesLeft ≤ checkpointIntervalBytes)
    (hfits : characters.flatten.length ≤ output.bytesLeft) (fuel : Nat) :
    (convertLoop complete (fuel + 1) characters output).map OutputBuffer.written =
      if complete then .ok (output.written ++ characters.flatten) else .error .conversionError := by
  have hgrow : growIfFull output = .ok output := if_neg hleft
  have hput : output.put characters = (⟨output.written ++ characters.flatten,
      output.bytesLeft - characters.flatten.length⟩, []) := by
    rw [OutputBuffer.put, min_eq_left hblock, fill_all hfits]
  rw [convertLoop_turn hgrow, hput, if_pos rfl]
  cases complete <;> rfl

/-- A turn that fills the buffer takes characters away. -/
theorem length_left_lt {room : Nat} (hroom : 0 < room)
    (hfull : (fill room characters).1.length = room) :
    (fill room characters).2.length < characters.length := by
  refine lt_of_le_of_ne (fill_suffix room characters).length_le fun heq => ?_
  have hsame := (fill_suffix room characters).eq_of_length heq
  have hflatten := congrArg List.length (fill_flatten room characters)
  rw [hsame, List.length_append, hfull] at hflatten
  omega

/-- Before each turn the buffer has room, and ends at the border of a block. -/
theorem exists_room (hblock : output.bytesLeft ≤ checkpointIntervalBytes)
    (hborder : (output.written.length + output.bytesLeft) % checkpointIntervalBytes = 0)
    (hsize : output.written.length + checkpointIntervalBytes ≤ maxStringSize) :
    ∃ room, growIfFull output = .ok ⟨output.written, room⟩ ∧ 0 < room ∧
      room ≤ checkpointIntervalBytes ∧
        (output.written.length + room) % checkpointIntervalBytes = 0 := by
  refine ⟨_, growIfFull_eq hsize, ?_⟩
  split
  · rename_i hfull
    rw [hfull, Nat.add_zero] at hborder
    exact ⟨by decide, le_rfl, by rw [Nat.add_mod_right, hborder]⟩
  · exact ⟨Nat.pos_of_ne_zero ‹_›, hblock, hborder⟩

theorem OutputBuffer.put_eq {room : Nat} (hroom : room ≤ checkpointIntervalBytes)
    (written : Bytes) (characters : List Bytes) :
    (⟨written, room⟩ : OutputBuffer).put characters =
      (⟨written ++ (fill room characters).1, room - (fill room characters).1.length⟩,
        (fill room characters).2) := by
  rw [OutputBuffer.put, min_eq_left hroom]

/-- Where a turn leaves a few bytes of the buffer and the next character needs more, the loop
turns for ever. -/
theorem convertLoop_short {room : Nat} (hroom : room ≤ checkpointIntervalBytes)
    (hdone : (fill room characters).2 ≠ []) (hshort : (fill room characters).1.length ≠ room)
    (complete : Bool) (fuel : Nat) (written : Bytes) :
    (growIfFull ⟨written, room - (fill room characters).1.length⟩ >>=
      convertLoop complete fuel (fill room characters).2) = .error .neverReturns := by
  have hle := length_fill_le room characters
  have hleft : room - (fill room characters).1.length ≠ 0 := by omega
  rw [growIfFull, if_neg hleft]
  refine convertLoop_stuck hleft hdone ?_ fuel
  rw [min_eq_left ((Nat.sub_le _ _).trans hroom)]
  exact fill_rest room characters

/-- From a buffer that ends at the border of a block, the loop ends exactly if no character lies
across a border, however often it turns. -/
theorem convertLoop_eq {fuel : Nat} (hfuel : characters.length < fuel)
    (hblock : output.bytesLeft ≤ checkpointIntervalBytes)
    (hborder : (output.written.length + output.bytesLeft) % checkpointIntervalBytes = 0)
    (hsize : output.written.length + characters.flatten.length + checkpointIntervalBytes ≤
      maxStringSize) :
    (convertLoop complete fuel characters output).map OutputBuffer.written =
      if within checkpointIntervalBytes output.written.length characters then
        if complete then .ok (output.written ++ characters.flatten) else .error .conversionError
      else .error .neverReturns := by
  induction fuel generalizing characters output with
  | zero => exact absurd hfuel (Nat.not_lt_zero _)
  | succ fuel ih =>
    obtain ⟨room, hgrow, hpos, hroom, hborder⟩ := exists_room hblock hborder (by omega)
    have htext := fill_flatten room characters
    have hwithin := @within_iff_fill _ _ _ _ characters hroom hborder
    rw [convertLoop_turn hgrow, OutputBuffer.put_eq hroom]
    by_cases hdone : (fill room characters).2 = []
    · rw [hdone, List.flatten_nil, List.append_nil] at htext
      rw [if_pos hdone, if_pos (hwithin.mpr (.inl hdone)), htext]
      cases complete <;> rfl
    rw [if_neg hdone]
    by_cases hfull : (fill room characters).1.length = room
    · -- the buffer is full, and the next turn begins a block
      have hlength : (output.written ++ (fill room characters).1).length =
          output.written.length + room := by rw [List.length_append, hfull]
      have hsize' : output.written.length + room + (fill room characters).2.flatten.length +
          checkpointIntervalBytes ≤ maxStringSize := by
        have := congrArg List.length htext
        rw [List.length_append, hfull] at this
        omega
      have hnext := @ih (fill room characters).2
        ⟨output.written ++ (fill room characters).1, checkpointIntervalBytes⟩
        (by have := length_left_lt hpos hfull; omega) le_rfl
        (by rw [hlength, Nat.add_mod_right, hborder])
        (by rw [hlength]; exact hsize')
      rw [growIfFull_eq (by rw [hlength]; omega), hfull, Nat.sub_self]
      rw [hlength, List.append_assoc, htext] at hnext
      refine hnext.trans (if_congr ?_ rfl rfl)
      rw [hwithin]
      exact ⟨fun h => .inr ⟨hfull, h⟩, fun h => (h.resolve_left hdone).2⟩
    · have hnot : ¬within checkpointIntervalBytes output.written.length characters = true := by
        rw [hwithin]
        exact fun h => hfull (h.resolve_left hdone).1
      rw [if_neg hnot, convertLoop_short hroom hdone hfull]
      rfl

end Exact

/-- A text that is not too long is converted exactly if no character of the result lies across the
border of two blocks. -/
theorem convertText_eq {iconv : Iconv} {encoding value : Bytes} {convert : Bytes → IconvReading}
    (hopen : iconv encoding = some convert) (hvalue : value ≠ [])
    (hlength : value.length ≤ maxStringSize / 4)
    (hexpected : (convert value).text.length ≤ 3 * value.length) :
    convertText iconv encoding value =
      if within checkpointIntervalBytes 0 (convert value).characters then
        if (convert value).complete then .ok (convert value).text else .error .conversionError
      else .error .neverReturns := by
  have hsize : (convert value).text.length + checkpointIntervalBytes ≤ maxStringSize := by
    simp only [checkpointIntervalBytes, maxStringSize] at hlength ⊢
    omega
  rw [convertText, if_neg hvalue, hopen]
  simp only [if_neg (Nat.not_lt.mpr hlength)]
  generalize hroom : min (max 32 (value.length * 4)) checkpointIntervalBytes = room
  have hloop : (convertLoop (convert value).complete ((convert value).characters.length + 1)
      (convert value).characters { bytesLeft := room }).map OutputBuffer.written =
        if within checkpointIntervalBytes 0 (convert value).characters then
          if (convert value).complete then .ok (convert value).text else .error .conversionError
        else .error .neverReturns := by
    rcases Nat.lt_or_ge (max 32 (value.length * 4)) checkpointIntervalBytes with hsmall | hlarge
    · have hfits : (convert value).text.length ≤ room := by omega
      have hall := fill_all (hfits.trans (by omega : room ≤ checkpointIntervalBytes))
      have hwithin : within checkpointIntervalBytes 0 (convert value).characters = true :=
        (within_iff_fill le_rfl (by rw [Nat.zero_add, Nat.mod_self])).mpr (.inl (by rw [hall]))
      rw [if_pos hwithin]
      exact convertLoop_all (by simp only; omega) (by simp only; omega) hfits _
    · obtain rfl : checkpointIntervalBytes = room := by omega
      exact convertLoop_eq (Nat.lt_succ_self _) le_rfl (by decide)
        (by simpa only [List.length_nil, Nat.zero_add] using hsize)
  rw [← hloop]
  cases hend : convertLoop (convert value).complete ((convert value).characters.length + 1)
      (convert value).characters { bytesLeft := room } with
  | error e => rfl
  | ok output =>
    have hwritten := (convertLoop_ok hend).2
    change (growIfFull output >>= fun output => pure output.written) = _
    rw [growIfFull_eq (by rw [hwritten]; exact hsize)]
    rfl

end InpxWebReader.Unicode
