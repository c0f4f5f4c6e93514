import InpxWebReader.Foundation.CodePoints
import InpxWebReader.Library.Checkpoints

/-!
# Reading UTF-8 from an offset

The program reads code points at an offset, checks texts with and without a checkpoint, and cuts a
sequence that a text ends in the middle of. The three loops accept the same language: `utf8_core`
says so for every text.
-/

namespace InpxWebReader.Unicode

open Foundation Program

/-- `TryDecodeUtf8CodePoint`, as the program calls it: the code point at an offset, and how many
bytes it takes there. -/
def tryDecodeUtf8CodePointAt (value : Bytes) (index : Nat) : Option (Nat × Nat) :=
  (tryDecodeUtf8CodePoint (value.drop index)).map fun read =>
    (read.1, value.length - index - read.2.length)

/-! ### A sequence cut off at the end -/

def expectedUtf8SequenceLength (firstByte : UInt8) : Option Nat :=
  if firstByte < 0x80 then some 1
  else if 0xC2 ≤ firstByte ∧ firstByte ≤ 0xDF then some 2
  else if 0xE0 ≤ firstByte ∧ firstByte ≤ 0xEF then some 3
  else if 0xF0 ≤ firstByte ∧ firstByte ≤ 0xF4 then some 4
  else none

def canBeSecondUtf8Byte (firstByte secondByte : UInt8) : Bool :=
  if firstByte = 0xE0 then 0xA0 ≤ secondByte && secondByte ≤ 0xBF
  else if firstByte = 0xED then 0x80 ≤ secondByte && secondByte ≤ 0x9F
  else if firstByte = 0xF0 then 0x90 ≤ secondByte && secondByte ≤ 0xBF
  else if firstByte = 0xF4 then 0x80 ≤ secondByte && secondByte ≤ 0x8F
  else isUtf8ContinuationByte secondByte

/-- `IsTrailingIncompleteUtf8Sequence`, for the rest of the text. -/
def isTrailingIncompleteUtf8Sequence (rest : Bytes) (expectedLength : Nat) : Bool :=
  match rest with
  | [] => false
  | [_] => 1 < expectedLength
  | firstByte :: secondByte :: more =>
    rest.length < expectedLength && canBeSecondUtf8Byte firstByte secondByte &&
      more.all isUtf8ContinuationByte

/-- The loop of `TryTrimTrailingIncompleteUtf8`: how much of the rest is kept. -/
def trimmedLength : Nat → Bytes → Option Nat
  | _, [] => none
  | 0, _ => none
  | fuel + 1, b :: rest =>
    match expectedUtf8SequenceLength b with
    | none => none
    | some expectedLength =>
      if isTrailingIncompleteUtf8Sequence (b :: rest) expectedLength then some 0
      else
        match tryDecodeUtf8CodePoint (b :: rest) with
        | none => none
        | some (_, rest') =>
          (trimmedLength fuel rest').map fun length =>
            (b :: rest).length - rest'.length + length

def tryTrimTrailingIncompleteUtf8 (value : Bytes) : Option Bytes :=
  (trimmedLength value.length value).map value.take

/-! ### The loops with checkpoints -/

section Loops

variable {ε σ : Type}

/-- Call the checkpoint where it is due; the answer is where it is due next. -/
def checkpointAt (checkpoint : EStateM ε σ Unit) (index nextCheckpoint : Nat) :
    EStateM ε σ Nat := do
  if nextCheckpoint ≤ index then
    checkpoint
    return index + checkpointIntervalBytes
  else
    return nextCheckpoint

/-- The loop of the `IsValidUtf8` that takes a checkpoint. -/
def isValidUtf8Loop (checkpoint : EStateM ε σ Unit) (value : Bytes) :
    Nat → Nat → Nat → EStateM ε σ Bool
  | 0, _, _ => return false
  | fuel + 1, index, nextCheckpoint => do
    if index < value.length then
      let nextCheckpoint ← checkpointAt checkpoint index nextCheckpoint
      match tryDecodeUtf8CodePointAt value index with
      | none => return false
      | some (_, sequenceLength) =>
        isValidUtf8Loop checkpoint value fuel (index + sequenceLength) nextCheckpoint
    else
      checkpoint
      return true

/-- The `IsValidUtf8` that takes a checkpoint. The loop ends at the latest after the last byte. -/
def isValidUtf8Checked (checkpoint : EStateM ε σ Unit) (value : Bytes) : EStateM ε σ Bool :=
  isValidUtf8Loop checkpoint value (value.length + 1) 0 0

/-- The loop of `TryTrimTrailingIncompleteUtf8`. -/
def tryTrimLoop (checkpoint : EStateM ε σ Unit) (value : Bytes) :
    Nat → Nat → Nat → EStateM ε σ (Option Bytes)
  | 0, _, _ => return none
  | fuel + 1, index, nextCheckpoint => do
    match value.drop index with
    | [] => return none
    | firstByte :: _ =>
      let nextCheckpoint ← checkpointAt checkpoint index nextCheckpoint
      match expectedUtf8SequenceLength firstByte with
      | none => return none
      | some expectedLength =>
        if isTrailingIncompleteUtf8Sequence (value.drop index) expectedLength then
          return some (value.take index)
        else
          match tryDecodeUtf8CodePointAt value index with
          | none => return none
          | some (_, sequenceLength) =>
            tryTrimLoop checkpoint value fuel (index + sequenceLength) nextCheckpoint

def tryTrimTrailingIncompleteUtf8Checked (checkpoint : EStateM ε σ Unit) (value : Bytes) :
    EStateM ε σ (Option Bytes) :=
  tryTrimLoop checkpoint value value.length 0 0

end Loops

/-! ### Reading at an offset -/

/-- A code point is read at an offset exactly where its bytes begin there. -/
theorem tryDecodeUtf8CodePointAt_iff {value : Bytes} {index codePoint length : Nat} :
    tryDecodeUtf8CodePointAt value index = some (codePoint, length) ↔
      codePoint.isValidChar ∧ utf8OfCodePoint codePoint <+: value.drop index ∧
        length = (utf8OfCodePoint codePoint).length := by
  have hdrop : (value.drop index).length = value.length - index := List.length_drop
  constructor
  · intro h
    rw [tryDecodeUtf8CodePointAt] at h
    obtain ⟨⟨c, rest⟩, hread, heq⟩ := Option.map_eq_some_iff.mp h
    obtain ⟨hvalid, htext⟩ := utf8OfCodePoint_of_tryDecodeUtf8CodePoint hread
    injection heq with hc hlength
    subst hc
    refine ⟨hvalid, ⟨rest, htext.symm⟩, ?_⟩
    rw [htext, List.length_append] at hdrop
    dsimp only at hlength ⊢
    omega
  · rintro ⟨hvalid, ⟨rest, htext⟩, rfl⟩
    rw [tryDecodeUtf8CodePointAt, ← htext, tryDecodeUtf8CodePoint_utf8OfCodePoint hvalid,
      Option.map_some]
    rw [← htext, List.length_append] at hdrop
    congr 2
    dsimp only
    omega

theorem utf8OfCodePoint_length_pos (codePoint : Nat) : 0 < (utf8OfCodePoint codePoint).length :=
  List.length_pos_iff.mpr (utf8OfCodePoint_ne_nil codePoint)

/-- What an offset reads, in terms of the rest of the text. -/
theorem tryDecodeUtf8CodePointAt_eq_none {value : Bytes} {index : Nat} :
    tryDecodeUtf8CodePointAt value index = none ↔
      tryDecodeUtf8CodePoint (value.drop index) = none := by
  rw [tryDecodeUtf8CodePointAt, Option.map_eq_none_iff]

/-- After a code point that is read at an offset comes the rest that is read there. -/
theorem drop_of_tryDecodeUtf8CodePointAt {value : Bytes} {index codePoint length : Nat}
    (h : tryDecodeUtf8CodePointAt value index = some (codePoint, length)) :
    tryDecodeUtf8CodePoint (value.drop index) = some (codePoint, value.drop (index + length)) ∧
      0 < length ∧ index + length ≤ value.length := by
  obtain ⟨hvalid, ⟨rest, htext⟩, rfl⟩ := tryDecodeUtf8CodePointAt_iff.mp h
  have hpos := utf8OfCodePoint_length_pos codePoint
  have hlength : (value.drop index).length = value.length - index := List.length_drop
  rw [← htext, List.length_append] at hlength
  refine ⟨?_, hpos, by omega⟩
  rw [← List.drop_drop, ← htext, List.drop_left,
    tryDecodeUtf8CodePoint_utf8OfCodePoint hvalid]

/-! ### Sequences -/

/-- The first bytes of a code point, and not all of them. -/
def IncompleteSequence (tail : Bytes) : Prop :=
  tail ≠ [] ∧ ∃ codePoint : Nat, codePoint.isValidChar ∧ tail <+: utf8OfCodePoint codePoint ∧
    tail ≠ utf8OfCodePoint codePoint

theorem utf8OfCodePoint_cases {codePoint : Nat} (h : codePoint.isValidChar) :
    (∃ b₀, utf8OfCodePoint codePoint = [b₀] ∧ b₀.toNat < 128) ∨
    (∃ b₀ b₁, utf8OfCodePoint codePoint = [b₀, b₁] ∧ 194 ≤ b₀.toNat ∧ b₀.toNat ≤ 223 ∧
      isUtf8ContinuationByte b₁ = true) ∨
    (∃ b₀ b₁ b₂, utf8OfCodePoint codePoint = [b₀, b₁, b₂] ∧ isValidLead3 b₀ b₁ = true ∧
      isUtf8ContinuationByte b₂ = true) ∨
    ∃ b₀ b₁ b₂ b₃, utf8OfCodePoint codePoint = [b₀, b₁, b₂, b₃] ∧ isValidLead4 b₀ b₁ = true ∧
      isUtf8ContinuationByte b₂ = true ∧ isUtf8ContinuationByte b₃ = true := by
  have hread := tryDecodeUtf8CodePoint_utf8OfCodePoint h []
  rw [List.append_nil] at hread
  rcases tryDecodeUtf8CodePoint_cases hread with ⟨b₀, heq, h₀, -⟩ |
    ⟨b₀, b₁, heq, h₀, h₀', h₁, -⟩ | ⟨b₀, b₁, b₂, heq, hlead, h₂, -⟩ |
    ⟨b₀, b₁, b₂, b₃, heq, hlead, h₂, h₃, -⟩
  · exact .inl ⟨b₀, heq, h₀⟩
  · exact .inr (.inl ⟨b₀, b₁, heq, h₀, h₀', h₁⟩)
  · exact .inr (.inr (.inl ⟨b₀, b₁, b₂, heq, hlead, h₂⟩))
  · exact .inr (.inr (.inr ⟨b₀, b₁, b₂, b₃, heq, hlead, h₂, h₃⟩))

/-- A code point is one ASCII byte or bytes that are not ASCII. -/
theorem utf8OfCodePoint_ascii_or {codePoint : Nat} (h : codePoint.isValidChar) :
    (∃ b, utf8OfCodePoint codePoint = [b] ∧ b < 0x80) ∨
      ∀ b ∈ utf8OfCodePoint codePoint, ¬b < 0x80 := by
  have hbyte : ∀ b : UInt8, ¬b < 0x80 ↔ 128 ≤ b.toNat := fun b =>
    UInt8.not_lt.trans UInt8.le_iff_toNat_le
  rcases utf8OfCodePoint_cases h with ⟨b₀, heq, h₀⟩ | ⟨b₀, b₁, heq, h₀, h₀', h₁⟩ |
    ⟨b₀, b₁, b₂, heq, hlead, h₂⟩ | ⟨b₀, b₁, b₂, b₃, heq, hlead, h₂, h₃⟩
  · exact .inl ⟨b₀, heq, UInt8.lt_iff_toNat_lt.mpr h₀⟩
  · rw [isUtf8ContinuationByte_iff] at h₁
    refine .inr fun b hb => (hbyte b).mpr ?_
    rw [heq] at hb
    simp only [List.mem_cons, List.not_mem_nil, or_false] at hb
    rcases hb with rfl | rfl <;> omega
  · rw [isUtf8ContinuationByte_iff] at h₂
    rw [isValidLead3_iff] at hlead
    refine .inr fun b hb => (hbyte b).mpr ?_
    rw [heq] at hb
    simp only [List.mem_cons, List.not_mem_nil, or_false] at hb
    rcases hb with rfl | rfl | rfl <;> omega
  · rw [isUtf8ContinuationByte_iff] at h₂ h₃
    rw [isValidLead4_iff] at hlead
    refine .inr fun b hb => (hbyte b).mpr ?_
    rw [heq] at hb
    simp only [List.mem_cons, List.not_mem_nil, or_false] at hb
    rcases hb with rfl | rfl | rfl | rfl <;> omega

theorem expectedUtf8SequenceLength_eq (b : UInt8) : expectedUtf8SequenceLength b =
    if b.toNat < 128 then some 1
    else if 194 ≤ b.toNat ∧ b.toNat ≤ 223 then some 2
    else if 224 ≤ b.toNat ∧ b.toNat ≤ 239 then some 3
    else if 240 ≤ b.toNat ∧ b.toNat ≤ 244 then some 4
    else none := by
  simp only [expectedUtf8SequenceLength, UInt8.lt_iff_toNat_lt, UInt8.le_iff_toNat_le,
    UInt8.reduceToNat]

theorem expectedUtf8SequenceLength_two {b : UInt8} (h : 194 ≤ b.toNat) (h' : b.toNat ≤ 223) :
    expectedUtf8SequenceLength b = some 2 := by
  rw [expectedUtf8SequenceLength_eq, if_neg (by omega), if_pos ⟨h, h'⟩]

theorem expectedUtf8SequenceLength_three {b₀ b₁ : UInt8} (h : isValidLead3 b₀ b₁ = true) :
    expectedUtf8SequenceLength b₀ = some 3 := by
  rw [isValidLead3_iff] at h
  rw [expectedUtf8SequenceLength_eq, if_neg (by omega), if_neg (by omega), if_pos (by omega)]

theorem expectedUtf8SequenceLength_four {b₀ b₁ : UInt8} (h : isValidLead4 b₀ b₁ = true) :
    expectedUtf8SequenceLength b₀ = some 4 := by
  rw [isValidLead4_iff] at h
  rw [expectedUtf8SequenceLength_eq, if_neg (by omega), if_neg (by omega), if_neg (by omega),
    if_pos (by omega)]

theorem expectedUtf8SequenceLength_utf8OfCodePoint {codePoint : Nat} (h : codePoint.isValidChar) :
    ∃ b rest, utf8OfCodePoint codePoint = b :: rest ∧
      expectedUtf8SequenceLength b = some (rest.length + 1) := by
  rcases utf8OfCodePoint_cases h with ⟨b₀, heq, h₀⟩ | ⟨b₀, b₁, heq, h₀, h₀', -⟩ |
    ⟨b₀, b₁, b₂, heq, hlead, -⟩ | ⟨b₀, b₁, b₂, b₃, heq, hlead, -, -⟩
  · refine ⟨b₀, _, heq, ?_⟩
    rw [expectedUtf8SequenceLength_eq, if_pos h₀]
    rfl
  · exact ⟨b₀, _, heq, expectedUtf8SequenceLength_two h₀ h₀'⟩
  · exact ⟨b₀, _, heq, expectedUtf8SequenceLength_three hlead⟩
  · exact ⟨b₀, _, heq, expectedUtf8SequenceLength_four hlead⟩

/-- The second byte of a sequence of three or four is checked against the first in one way. -/
theorem canBeSecondUtf8Byte_iff {b₀ b₁ : UInt8} : canBeSecondUtf8Byte b₀ b₁ = true ↔
    if b₀.toNat = 224 then 160 ≤ b₁.toNat ∧ b₁.toNat ≤ 191
    else if b₀.toNat = 237 then 128 ≤ b₁.toNat ∧ b₁.toNat ≤ 159
    else if b₀.toNat = 240 then 144 ≤ b₁.toNat ∧ b₁.toNat ≤ 191
    else if b₀.toNat = 244 then 128 ≤ b₁.toNat ∧ b₁.toNat ≤ 143
    else 128 ≤ b₁.toNat ∧ b₁.toNat ≤ 191 := by
  rw [canBeSecondUtf8Byte]
  simp only [← UInt8.toNat_inj, UInt8.reduceToNat]
  split_ifs <;> simp [isUtf8ContinuationByte_iff, UInt8.le_iff_toNat_le]

theorem canBeSecondUtf8Byte_of_lead3 {b₀ b₁ : UInt8} (h : isValidLead3 b₀ b₁ = true) :
    canBeSecondUtf8Byte b₀ b₁ = true := by
  rw [isValidLead3_iff] at h
  rw [canBeSecondUtf8Byte_iff]
  split_ifs <;> omega

theorem canBeSecondUtf8Byte_of_lead4 {b₀ b₁ : UInt8} (h : isValidLead4 b₀ b₁ = true) :
    canBeSecondUtf8Byte b₀ b₁ = true := by
  rw [isValidLead4_iff] at h
  rw [canBeSecondUtf8Byte_iff]
  split_ifs <;> omega

theorem isValidLead3_of_canBeSecondUtf8Byte {b₀ b₁ : UInt8} (h₀ : 224 ≤ b₀.toNat)
    (h₀' : b₀.toNat ≤ 239) (h : canBeSecondUtf8Byte b₀ b₁ = true) :
    isValidLead3 b₀ b₁ = true := by
  rw [canBeSecondUtf8Byte_iff] at h
  rw [isValidLead3_iff]
  split_ifs at h <;> omega

theorem isValidLead4_of_canBeSecondUtf8Byte {b₀ b₁ : UInt8} (h₀ : 240 ≤ b₀.toNat)
    (h₀' : b₀.toNat ≤ 244) (h : canBeSecondUtf8Byte b₀ b₁ = true) :
    isValidLead4 b₀ b₁ = true := by
  rw [canBeSecondUtf8Byte_iff] at h
  rw [isValidLead4_iff]
  split_ifs at h <;> omega

/-- Every first byte of a longer sequence has a second byte. -/
theorem exists_canBeSecondUtf8Byte (b₀ : UInt8) :
    ∃ b₁, canBeSecondUtf8Byte b₀ b₁ = true := by
  by_cases h : b₀.toNat = 237 ∨ b₀.toNat = 244
  · refine ⟨0x80, ?_⟩
    rw [canBeSecondUtf8Byte_iff]
    simp only [UInt8.reduceToNat]
    split_ifs <;> omega
  · refine ⟨0xA0, ?_⟩
    rw [canBeSecondUtf8Byte_iff]
    simp only [UInt8.reduceToNat]
    split_ifs <;> omega

/-! ### Sequences cut off -/

/-- What can be completed to a code point is an incomplete sequence. -/
theorem IncompleteSequence.of_append {tail fill : Bytes} {codePoint : Nat} (htail : tail ≠ [])
    (hfill : fill ≠ [])
    (h : tryDecodeUtf8CodePoint (tail ++ fill) = some (codePoint, [])) :
    IncompleteSequence tail := by
  obtain ⟨hvalid, heq⟩ := utf8OfCodePoint_of_tryDecodeUtf8CodePoint h
  rw [List.append_nil] at heq
  refine ⟨htail, codePoint, hvalid, ⟨fill, heq⟩, fun hall => hfill ?_⟩
  rw [← hall] at heq
  exact List.append_right_eq_self.mp heq

/-- A first byte on its own is an incomplete sequence. -/
theorem IncompleteSequence.of_first {b₀ : UInt8} {length : Nat}
    (h : expectedUtf8SequenceLength b₀ = some length) (hlength : 1 < length) :
    IncompleteSequence [b₀] := by
  have hcont : isUtf8ContinuationByte 0x80 = true := by decide
  obtain ⟨b₁, hsecond⟩ := exists_canBeSecondUtf8Byte b₀
  rw [expectedUtf8SequenceLength_eq] at h
  split_ifs at h with h₁ h₂ h₃ h₄ <;> cases h
  · omega
  · exact .of_append (by simp) (List.cons_ne_nil _ _ : ([0x80] : Bytes) ≠ [])
      (tryDecodeUtf8CodePoint_two h₂.1 h₂.2 hcont)
  · exact .of_append (by simp) (List.cons_ne_nil _ _ : ([b₁, 0x80] : Bytes) ≠ [])
      (tryDecodeUtf8CodePoint_three (isValidLead3_of_canBeSecondUtf8Byte h₃.1 h₃.2 hsecond) hcont)
  · exact .of_append (by simp) (List.cons_ne_nil _ _ : ([b₁, 0x80, 0x80] : Bytes) ≠ [])
      (tryDecodeUtf8CodePoint_four (isValidLead4_of_canBeSecondUtf8Byte h₄.1 h₄.2 hsecond) hcont
        hcont)

/-- The code finds an incomplete sequence exactly where there is one. -/
theorem incompleteSequence_iff {b₀ : UInt8} {rest : Bytes} :
    IncompleteSequence (b₀ :: rest) ↔ ∃ length, expectedUtf8SequenceLength b₀ = some length ∧
      isTrailingIncompleteUtf8Sequence (b₀ :: rest) length = true := by
  have hcont : isUtf8ContinuationByte 0x80 = true := by decide
  constructor
  · rintro ⟨-, codePoint, hvalid, ⟨fill, hfill⟩, hne⟩
    rcases utf8OfCodePoint_cases hvalid with ⟨c₀, heq, h₀⟩ | ⟨c₀, c₁, heq, h₀, h₀', h₁⟩ |
      ⟨c₀, c₁, c₂, heq, hlead, h₂⟩ | ⟨c₀, c₁, c₂, c₃, heq, hlead, h₂, h₃⟩
    · rw [heq] at hfill hne
      simp_all
    · refine ⟨2, ?_, ?_⟩ <;> rw [heq] at hfill hne
      · injection hfill with hb
        rw [hb]
        exact expectedUtf8SequenceLength_two h₀ h₀'
      · rcases rest with _ | ⟨b₁, rest⟩
        · rfl
        · simp_all
    · refine ⟨3, ?_, ?_⟩ <;> rw [heq] at hfill hne
      · injection hfill with hb
        rw [hb]
        exact expectedUtf8SequenceLength_three hlead
      · have := canBeSecondUtf8Byte_of_lead3 hlead
        rcases rest with _ | ⟨b₁, _ | ⟨b₂, rest⟩⟩
        · rfl
        · simp_all [isTrailingIncompleteUtf8Sequence]
        · simp_all
    · refine ⟨4, ?_, ?_⟩ <;> rw [heq] at hfill hne
      · injection hfill with hb
        rw [hb]
        exact expectedUtf8SequenceLength_four hlead
      · have := canBeSecondUtf8Byte_of_lead4 hlead
        rcases rest with _ | ⟨b₁, _ | ⟨b₂, _ | ⟨b₃, rest⟩⟩⟩
        · rfl
        · simp_all [isTrailingIncompleteUtf8Sequence]
        · simp_all [isTrailingIncompleteUtf8Sequence]
        · simp_all
  · rintro ⟨length, hlength, htrailing⟩
    rcases rest with _ | ⟨b₁, rest⟩
    · exact .of_first hlength (of_decide_eq_true htrailing)
    · rw [isTrailingIncompleteUtf8Sequence, Bool.and_eq_true, Bool.and_eq_true, decide_eq_true_eq]
        at htrailing
      obtain ⟨⟨hshort, hsecond⟩, hmore⟩ := htrailing
      rw [expectedUtf8SequenceLength_eq] at hlength
      simp only [List.length_cons] at hshort
      split_ifs at hlength with h₁ h₂ h₃ h₄ <;> cases hlength
      · omega
      · omega
      · have hlead := isValidLead3_of_canBeSecondUtf8Byte h₃.1 h₃.2 hsecond
        rcases rest with _ | ⟨b₂, rest⟩
        · exact .of_append (by simp) (List.cons_ne_nil _ _ : ([0x80] : Bytes) ≠ [])
            (tryDecodeUtf8CodePoint_three hlead hcont)
        · simp only [List.length_cons] at hshort
          omega
      · have hlead := isValidLead4_of_canBeSecondUtf8Byte h₄.1 h₄.2 hsecond
        rcases rest with _ | ⟨b₂, _ | ⟨b₃, rest⟩⟩
        · exact .of_append (by simp) (List.cons_ne_nil _ _ : ([0x80, 0x80] : Bytes) ≠ [])
            (tryDecodeUtf8CodePoint_four hlead hcont hcont)
        · simp only [List.all_cons, List.all_nil, Bool.and_true] at hmore
          exact .of_append (by simp) (List.cons_ne_nil _ _ : ([0x80] : Bytes) ≠ [])
            (tryDecodeUtf8CodePoint_four hlead hmore hcont)
        · simp only [List.length_cons] at hshort
          omega

/-- No code point can be read where a sequence is incomplete. -/
theorem IncompleteSequence.tryDecodeUtf8CodePoint_eq_none {tail : Bytes}
    (h : IncompleteSequence tail) : tryDecodeUtf8CodePoint tail = none := by
  obtain ⟨-, codePoint, hvalid, ⟨fill, hfill⟩, hne⟩ := h
  cases hread : tryDecodeUtf8CodePoint tail with
  | none => rfl
  | some read =>
    have hall := tryDecodeUtf8CodePoint_append hread fill
    have hwhole := tryDecodeUtf8CodePoint_utf8OfCodePoint hvalid []
    rw [List.append_nil, ← hfill, hall] at hwhole
    injection hwhole with hwhole
    injection hwhole with _ hrest
    rw [(List.append_eq_nil_iff.mp hrest).2, List.append_nil] at hfill
    exact absurd hfill hne

/-- What the loop keeps is valid, and what it drops is the beginning of a code point. -/
theorem trimmedLength_spec {fuel : Nat} {rest : Bytes} {length : Nat}
    (h : trimmedLength fuel rest = some length) :
    ValidUtf8 (rest.take length) ∧ IncompleteSequence (rest.drop length) := by
  induction fuel generalizing rest length with
  | zero => cases rest <;> cases h
  | succ fuel ih =>
    cases rest with
    | nil => cases h
    | cons b rest =>
      rw [trimmedLength] at h
      split at h
      · cases h
      rename_i expectedLength hexpected
      split at h
      · rename_i htrailing
        injection h with h
        rw [← h]
        exact ⟨.nil, incompleteSequence_iff.mpr ⟨expectedLength, hexpected, htrailing⟩⟩
      split at h
      · cases h
      · rename_i codePoint rest' hdecode
        obtain ⟨tail, htail, rfl⟩ := Option.map_eq_some_iff.mp h
        obtain ⟨hvalid, heq⟩ := utf8OfCodePoint_of_tryDecodeUtf8CodePoint hdecode
        have hlength : (b :: rest).length - rest'.length = (utf8OfCodePoint codePoint).length := by
          rw [heq, List.length_append]
          omega
        obtain ⟨hkept, hdropped⟩ := ih htail
        rw [hlength, heq, List.take_length_add_append, List.drop_length_add_append]
        exact ⟨.step (tryDecodeUtf8CodePoint_utf8OfCodePoint hvalid _) hkept, hdropped⟩

/-- The loop finds the incomplete sequence behind a valid text. -/
theorem trimmedLength_append {kept tail : Bytes} (hkept : ValidUtf8 kept)
    (htail : IncompleteSequence tail) :
    ∀ {fuel : Nat}, (kept ++ tail).length ≤ fuel →
      trimmedLength fuel (kept ++ tail) = some kept.length := by
  induction hkept with
  | nil =>
    intro fuel hfuel
    cases tail with
    | nil => exact absurd rfl htail.1
    | cons b rest =>
      obtain ⟨length, hlength, htrailing⟩ := incompleteSequence_iff.mp htail
      cases fuel with
      | zero => simp at hfuel
      | succ fuel =>
        rw [List.nil_append, trimmedLength, hlength]
        simp only [htrailing, if_true, List.length_nil]
  | @step value rest codePoint decode _ ih =>
    intro fuel hfuel
    have hread := tryDecodeUtf8CodePoint_append decode tail
    obtain ⟨hvalid, heq⟩ := utf8OfCodePoint_of_tryDecodeUtf8CodePoint decode
    obtain ⟨b, more, hbytes, hexpected⟩ := expectedUtf8SequenceLength_utf8OfCodePoint hvalid
    have hlength : value.length = more.length + 1 + rest.length := by
      rw [heq, hbytes, List.length_append, List.length_cons]
    have hcons : value ++ tail = b :: (more ++ rest ++ tail) := by
      rw [heq, hbytes]
      simp
    have hnot : isTrailingIncompleteUtf8Sequence (value ++ tail) (more.length + 1) = false := by
      rw [Bool.eq_false_iff]
      intro htrailing
      rw [hcons] at htrailing hread
      have hincomplete := incompleteSequence_iff.mpr ⟨_, hexpected, htrailing⟩
      rw [hincomplete.tryDecodeUtf8CodePoint_eq_none] at hread
      cases hread
    cases fuel with
    | zero =>
      rw [List.length_append] at hfuel
      omega
    | succ fuel =>
      have hrest := @ih fuel (by
        rw [List.length_append] at hfuel ⊢
        omega)
      rw [hcons] at hread hnot
      rw [hcons, trimmedLength, hexpected]
      simp only [hnot, hread, hrest, Option.map_some, Bool.false_eq_true, if_false]
      simp only [List.length_cons, List.length_append]
      congr 1
      omega

/-- A text is trimmed exactly where it is a valid text and an incomplete sequence. -/
theorem tryTrimTrailingIncompleteUtf8_iff {value kept : Bytes} :
    tryTrimTrailingIncompleteUtf8 value = some kept ↔
      ∃ tail, value = kept ++ tail ∧ ValidUtf8 kept ∧ IncompleteSequence tail := by
  rw [tryTrimTrailingIncompleteUtf8]
  constructor
  · intro h
    obtain ⟨length, hlength, rfl⟩ := Option.map_eq_some_iff.mp h
    obtain ⟨hkept, htail⟩ := trimmedLength_spec hlength
    exact ⟨value.drop length, (List.take_append_drop ..).symm, hkept, htail⟩
  · rintro ⟨tail, rfl, hkept, htail⟩
    rw [trimmedLength_append hkept htail le_rfl, Option.map_some, List.take_left]

theorem tryTrimTrailingIncompleteUtf8_valid {value text : Bytes}
    (h : tryTrimTrailingIncompleteUtf8 value = some text) : ValidUtf8 text := by
  obtain ⟨-, -, hkept, -⟩ := tryTrimTrailingIncompleteUtf8_iff.mp h
  exact hkept

/-! ### A valid text that was cut -/

/-- A valid text cut at a byte is valid, or ends in an incomplete sequence. -/
def CutText (value : Bytes) : Prop :=
  ValidUtf8 value ∨ ∃ kept tail, value = kept ++ tail ∧ ValidUtf8 kept ∧ IncompleteSequence tail

theorem ValidUtf8.cutText_take {value : Bytes} (h : ValidUtf8 value) (n : Nat) :
    CutText (value.take n) := by
  induction h generalizing n with
  | nil =>
    rw [List.take_nil]
    exact .inl .nil
  | @step value rest codePoint decode tail ih =>
    obtain ⟨hvalid, rfl⟩ := utf8OfCodePoint_of_tryDecodeUtf8CodePoint decode
    by_cases hn : n < (utf8OfCodePoint codePoint).length
    · rw [List.take_append_of_le_length (by omega)]
      by_cases hzero : (utf8OfCodePoint codePoint).take n = []
      · rw [hzero]
        exact .inl .nil
      · refine .inr ⟨[], _, rfl, .nil, hzero, codePoint, hvalid, List.take_prefix _ _, ?_⟩
        intro hall
        have hlength := congrArg List.length hall
        rw [List.length_take] at hlength
        omega
    · obtain ⟨m, rfl⟩ := Nat.exists_eq_add_of_le (Nat.le_of_not_lt hn)
      rw [List.take_length_add_append]
      have hread := tryDecodeUtf8CodePoint_utf8OfCodePoint hvalid (rest.take m)
      rcases ih m with hrest | ⟨kept, cut, heq, hkept, hcut⟩
      · exact .inl (.step hread hrest)
      · refine .inr ⟨utf8OfCodePoint codePoint ++ kept, cut, ?_, ?_, hcut⟩
        · rw [heq, List.append_assoc]
        · exact .step (tryDecodeUtf8CodePoint_utf8OfCodePoint hvalid kept) hkept

/-- The text without the sequence it ends in the middle of, if it does. -/
def withoutIncompleteUtf8 (value : Bytes) : Bytes :=
  (tryTrimTrailingIncompleteUtf8 value).getD value

theorem withoutIncompleteUtf8_isPrefix (value : Bytes) : withoutIncompleteUtf8 value <+: value := by
  rw [withoutIncompleteUtf8]
  cases htrim : tryTrimTrailingIncompleteUtf8 value with
  | none => exact List.prefix_refl value
  | some kept =>
    obtain ⟨tail, rfl, -, -⟩ := tryTrimTrailingIncompleteUtf8_iff.mp htrim
    exact List.prefix_append kept tail

theorem CutText.withoutIncompleteUtf8_valid {value : Bytes} (h : CutText value) :
    ValidUtf8 (withoutIncompleteUtf8 value) := by
  rw [withoutIncompleteUtf8]
  cases htrim : tryTrimTrailingIncompleteUtf8 value with
  | some kept => exact tryTrimTrailingIncompleteUtf8_valid htrim
  | none =>
    rcases h with hvalid | ⟨kept, tail, heq, hkept, htail⟩
    · exact hvalid
    · rw [tryTrimTrailingIncompleteUtf8_iff.mpr ⟨tail, heq, hkept, htail⟩] at htrim
      cases htrim

theorem IncompleteSequence.not_ascii {tail : Bytes} (h : IncompleteSequence tail) :
    ∀ b ∈ tail, ¬b < 0x80 := by
  intro b hb hascii
  obtain ⟨front, back, rfl⟩ := List.append_of_mem hb
  obtain ⟨-, codePoint, hvalid, ⟨fill, hfill⟩, hne⟩ := h
  have hread := tryDecodeUtf8CodePoint_utf8OfCodePoint hvalid []
  rw [List.append_nil, ← hfill, List.append_assoc, List.cons_append] at hread
  by_cases hfront : front = []
  · subst hfront
    rw [List.nil_append, tryDecodeUtf8CodePoint_one (UInt8.lt_iff_toNat_lt.mp hascii)] at hread
    injection hread with hread
    injection hread with _ hrest
    obtain ⟨hback, hfill'⟩ := List.append_eq_nil_iff.mp hrest
    subst hback hfill'
    exact hne (by rw [← hfill, List.append_nil])
  · obtain ⟨rest, -, hrest⟩ := tryDecodeUtf8CodePoint_of_append hascii hfront hread
    simp at hrest

/-! ### The loops with checkpoints find the same -/

section Loops

variable {ε σ : Type} (checkpoint : EStateM ε σ Unit)

theorem checkpointAt_checked (index nextCheckpoint : Nat) :
    Checked checkpoint (checkpointAt checkpoint index nextCheckpoint) fun _ => True := by
  rw [checkpointAt]
  split
  · exact .after_checkpoint (.of_pure trivial)
  · exact .of_pure trivial

theorem isValidUtf8Loop_checked (value : Bytes) {fuel index nextCheckpoint : Nat}
    (hindex : index ≤ value.length) (hfuel : value.length < fuel + index) :
    Checked checkpoint (isValidUtf8Loop checkpoint value fuel index nextCheckpoint) fun valid =>
      valid = true ↔ ValidUtf8 (value.drop index) := by
  induction fuel generalizing index nextCheckpoint with
  | zero => omega
  | succ fuel ih =>
    rw [isValidUtf8Loop]
    by_cases hend : index < value.length
    · rw [if_pos hend]
      refine (checkpointAt_checked checkpoint index nextCheckpoint).bind fun next _ => ?_
      cases hread : tryDecodeUtf8CodePointAt value index with
      | none =>
        refine .of_pure ⟨fun h => absurd h Bool.false_ne_true, fun hvalid => ?_⟩
        rw [tryDecodeUtf8CodePointAt_eq_none] at hread
        generalize hrest : value.drop index = rest at hread hvalid
        cases hvalid with
        | nil =>
          have hlength : (value.drop index).length = value.length - index := List.length_drop
          rw [hrest, List.length_nil] at hlength
          omega
        | step decode _ =>
          rw [hread] at decode
          cases decode
      | some read =>
        obtain ⟨codePoint, length⟩ := read
        obtain ⟨hdecode, hpos, hle⟩ := drop_of_tryDecodeUtf8CodePointAt hread
        refine (ih hle (by omega)).mono fun valid hvalid => hvalid.trans ?_
        exact ⟨.step hdecode, fun h => h.tail_of_decode hdecode⟩
    · rw [if_neg hend]
      refine .after_checkpoint (.of_pure ⟨fun _ => ?_, fun _ => rfl⟩)
      rw [List.drop_eq_nil_of_le (by omega)]
      exact .nil

/-- The check with a checkpoint accepts what the plain one accepts. -/
theorem isValidUtf8Checked_checked (value : Bytes) :
    Checked checkpoint (isValidUtf8Checked checkpoint value) fun valid =>
      valid = true ↔ ValidUtf8 value :=
  isValidUtf8Loop_checked checkpoint value (Nat.zero_le _) (by omega)

theorem tryTrimLoop_checked (value : Bytes) {fuel index nextCheckpoint : Nat} :
    Checked checkpoint (tryTrimLoop checkpoint value fuel index nextCheckpoint) fun kept =>
      kept = (trimmedLength fuel (value.drop index)).map fun n => value.take (index + n) := by
  induction fuel generalizing index nextCheckpoint with
  | zero =>
    refine .of_pure ?_
    cases value.drop index <;> rfl
  | succ fuel ih =>
    rw [tryTrimLoop]
    cases hrest : value.drop index with
    | nil => exact .of_pure rfl
    | cons b rest =>
      refine (checkpointAt_checked checkpoint index nextCheckpoint).bind fun next _ => ?_
      rw [trimmedLength]
      cases expectedUtf8SequenceLength b with
      | none => exact .of_pure rfl
      | some expectedLength =>
        dsimp only
        split
        · exact .of_pure rfl
        · cases hread : tryDecodeUtf8CodePointAt value index with
          | none =>
            rw [tryDecodeUtf8CodePointAt_eq_none, hrest] at hread
            rw [hread]
            exact .of_pure rfl
          | some read =>
            obtain ⟨codePoint, length⟩ := read
            obtain ⟨hdecode, hpos, hle⟩ := drop_of_tryDecodeUtf8CodePointAt hread
            rw [hrest] at hdecode
            refine ih.mono fun kept hkept => ?_
            have hlength : (b :: rest).length - (value.drop (index + length)).length = length := by
              rw [← hrest, List.length_drop, List.length_drop]
              omega
            rw [hkept, hdecode]
            simp only [hlength, Option.map_map, Function.comp_def, Nat.add_assoc]

/-- The trim with its checkpoint keeps what the plain one keeps. -/
theorem tryTrimTrailingIncompleteUtf8Checked_checked (value : Bytes) :
    Checked checkpoint (tryTrimTrailingIncompleteUtf8Checked checkpoint value) fun kept =>
      kept = tryTrimTrailingIncompleteUtf8 value := by
  refine (tryTrimLoop_checked checkpoint value).mono fun kept hkept => ?_
  rw [hkept, tryTrimTrailingIncompleteUtf8]
  simp only [List.drop_zero, Nat.zero_add]

/-- The decoder, the two checks and the trim agree on one language, the encoded code points. -/
theorem utf8_core (value : Bytes) :
    (∀ index codePoint length,
      tryDecodeUtf8CodePointAt value index = some (codePoint, length) ↔
        codePoint.isValidChar ∧ utf8OfCodePoint codePoint <+: value.drop index ∧
          length = (utf8OfCodePoint codePoint).length) ∧
      (isValidUtf8 value = true ↔ ∃ text, encodeUtf8 text = value) ∧
      Checked checkpoint (isValidUtf8Checked checkpoint value) (fun valid =>
        valid = true ↔ ∃ text, encodeUtf8 text = value) ∧
      Checked checkpoint (tryTrimTrailingIncompleteUtf8Checked checkpoint value) fun result =>
        ∀ kept, result = some kept ↔ ∃ tail, value = kept ++ tail ∧
          (∃ text, encodeUtf8 text = kept) ∧ IncompleteSequence tail := by
  refine ⟨fun _ _ _ => tryDecodeUtf8CodePointAt_iff,
    isValidUtf8_iff.trans validUtf8_iff_encodeUtf8,
    (isValidUtf8Checked_checked checkpoint value).mono fun _ h =>
      h.trans validUtf8_iff_encodeUtf8,
    (tryTrimTrailingIncompleteUtf8Checked_checked checkpoint value).mono fun result h kept => ?_⟩
  rw [h, tryTrimTrailingIncompleteUtf8_iff]
  simp only [validUtf8_iff_encodeUtf8]

end Loops

end InpxWebReader.Unicode
