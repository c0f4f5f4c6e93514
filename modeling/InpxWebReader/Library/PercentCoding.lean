import Mathlib.Data.List.Basic

/-!
# Percent encoding

A byte that may not stand for itself is written as a percent sign and two hexadecimal digits. The
encoder is given the bytes that it leaves as they are; `decode_encode` says that a decoder that knows
nothing of them reads every text back.
-/

namespace PercentCoding

/-- The percent sign. -/
def percent : UInt8 := 0x25

/-- A digit of a number below 16, in upper case. -/
def hexDigit (n : Nat) : UInt8 := UInt8.ofNat (if n < 10 then 0x30 + n else 0x37 + n)

/-- The value of a hexadecimal digit in either case, given as the number of its character. -/
def hexValue (code : Nat) : Option Nat :=
  if 0x30 ≤ code ∧ code ≤ 0x39 then some (code - 0x30)
  else if 0x41 ≤ code ∧ code ≤ 0x46 then some (code - 0x37)
  else if 0x61 ≤ code ∧ code ≤ 0x66 then some (code - 0x57)
  else none

/-- The three bytes of an escaped byte. -/
def escape (b : UInt8) : List UInt8 := [percent, hexDigit (b.toNat / 16), hexDigit (b.toNat % 16)]

/-- One byte of a text. -/
def encodeByte (plain : UInt8 → Bool) (b : UInt8) : List UInt8 := if plain b then [b] else escape b

def encode (plain : UInt8 → Bool) (text : List UInt8) : List UInt8 :=
  text.flatMap (encodeByte plain)

/-- The byte of two hexadecimal digits. -/
def octet (high low : UInt8) : Option UInt8 := do
  let high ← hexValue high.toNat
  let low ← hexValue low.toNat
  return UInt8.ofNat (16 * high + low)

/-- The text of an encoding; nothing where a percent sign has no two digits after it. -/
def decode : List UInt8 → Option (List UInt8)
  | [] => some []
  | b :: rest =>
    if b ≠ percent then (decode rest).map (b :: ·)
    else match rest with
      | high :: low :: rest => do
        let b ← octet high low
        return b :: (← decode rest)
      | _ => none

theorem decode_of_ne {b : UInt8} (hb : b ≠ percent) (rest : List UInt8) :
    decode (b :: rest) = (decode rest).map (b :: ·) := by
  rw [decode.eq_def]
  dsimp only
  rw [if_pos hb]

theorem decode_percent (high low : UInt8) (rest : List UInt8) :
    decode (percent :: high :: low :: rest) =
      (octet high low).bind fun b => (decode rest).map (b :: ·) := by
  rw [decode, if_neg (not_not.mpr rfl)]
  cases octet high low <;> cases decode rest <;> rfl

/-! ### Digits -/

theorem toNat_hexDigit {n : Nat} (h : n < 16) :
    (hexDigit n).toNat = if n < 10 then 0x30 + n else 0x37 + n := by
  rw [hexDigit, UInt8.toNat_ofNat', Nat.mod_eq_of_lt]
  split <;> omega

theorem hexValue_hexDigit {n : Nat} (h : n < 16) : hexValue (hexDigit n).toNat = some n := by
  rw [toNat_hexDigit h, hexValue]
  by_cases hn : n < 10
  · rw [if_pos hn, if_pos (by omega)]
    congr 1
    omega
  · rw [if_neg hn, if_neg (by omega), if_pos (by omega)]
    congr 1
    omega

theorem ofNat_digits (b : UInt8) : UInt8.ofNat (16 * (b.toNat / 16) + b.toNat % 16) = b := by
  rw [Nat.div_add_mod, UInt8.ofNat_toNat]

theorem digits_lt (b : UInt8) : b.toNat / 16 < 16 ∧ b.toNat % 16 < 16 := by
  have := b.toNat_lt
  omega

@[simp] theorem octet_hexDigit (b : UInt8) :
    octet (hexDigit (b.toNat / 16)) (hexDigit (b.toNat % 16)) = some b := by
  rw [octet, hexValue_hexDigit (digits_lt b).1, hexValue_hexDigit (digits_lt b).2]
  exact congrArg some (ofNat_digits b)

/-! ### Texts -/

variable {plain : UInt8 → Bool}

@[simp] theorem encode_nil : encode plain [] = [] := rfl

@[simp] theorem encode_cons (b : UInt8) (text : List UInt8) :
    encode plain (b :: text) = encodeByte plain b ++ encode plain text := rfl

theorem encodeByte_ne_nil (b : UInt8) : encodeByte plain b ≠ [] := by
  rw [encodeByte]
  split <;> exact List.cons_ne_nil _ _

theorem mem_encode {b : UInt8} {text : List UInt8} (h : b ∈ encode plain text) :
    plain b = true ∨ b = percent ∨ ∃ n < 16, b = hexDigit n := by
  obtain ⟨c, -, hb⟩ := List.mem_flatMap.mp h
  rw [encodeByte] at hb
  split at hb
  · next hplain =>
    rw [List.mem_singleton.mp hb]
    exact .inl hplain
  · rw [escape] at hb
    simp only [List.mem_cons, List.not_mem_nil, or_false] at hb
    rcases hb with rfl | rfl | rfl
    · exact .inr (.inl rfl)
    · exact .inr (.inr ⟨_, (digits_lt c).1, rfl⟩)
    · exact .inr (.inr ⟨_, (digits_lt c).2, rfl⟩)

theorem decode_encodeByte (hplain : plain percent = false) (b : UInt8) (rest : List UInt8) :
    decode (encodeByte plain b ++ rest) = (decode rest).map (b :: ·) := by
  rw [encodeByte]
  split
  · next hb =>
    have hne : b ≠ percent := by
      rintro rfl
      rw [hplain] at hb
      cases hb
    rw [List.singleton_append, decode_of_ne hne]
  · show decode (percent :: hexDigit (b.toNat / 16) :: hexDigit (b.toNat % 16) :: rest) = _
    rw [decode_percent, octet_hexDigit, Option.bind_some]

/-- Every text is read back, where the percent sign is escaped. -/
theorem decode_encode (hplain : plain percent = false) (text : List UInt8) :
    decode (encode plain text) = some text := by
  induction text with
  | nil => rfl
  | cons b text ih => rw [encode_cons, decode_encodeByte hplain, ih, Option.map_some]

end PercentCoding
