import InpxWebReader.Foundation.Exception
import InpxWebReader.Library.Program

/-!
# The base64 of a cover

`DecodeBase64` drops the white space of its input, checks where the padding is, and decodes groups
of four characters. `base64` is the canonical encoding: what is decoded is exactly this encoding of
the result, wherever there was white space in it.
-/

namespace InpxWebReader.Parsing

open Foundation

/-! ### The encoding -/

/-- The characters for the values below 64. -/
def base64Alphabet : Bytes :=
  ascii "ABCDEFGHIJKLMNOPQRSTUVWXYZabcdefghijklmnopqrstuvwxyz0123456789+/"

def base64Character (value : Nat) : UInt8 := base64Alphabet.getD value 0

def padding : UInt8 := asciiByte '='

/-- The base64 of a byte string: three bytes are four characters, and one or two bytes at the end
are padded, with zero bits behind them. -/
def base64 : Bytes → Bytes
  | [] => []
  | [x] =>
    [base64Character (x.toNat / 4), base64Character (x.toNat % 4 * 16), padding, padding]
  | [x, y] =>
    [base64Character (x.toNat / 4), base64Character (x.toNat % 4 * 16 + y.toNat / 16),
      base64Character (y.toNat % 16 * 4), padding]
  | x :: y :: z :: bytes =>
    base64Character (x.toNat / 4) :: base64Character (x.toNat % 4 * 16 + y.toNat / 16) ::
      base64Character (y.toNat % 16 * 4 + z.toNat / 64) :: base64Character (z.toNat % 64) ::
        base64 bytes

/-! ### The decoder -/

/-- `std::isspace` in the C locale. -/
def isSpace (value : UInt8) : Bool := value = 0x20 || (0x09 ≤ value && value ≤ 0x0D)

def decodeCharacter (value : UInt8) : Except Failure Nat :=
  if asciiByte 'A' ≤ value ∧ value ≤ asciiByte 'Z' then .ok (value.toNat - (asciiByte 'A').toNat)
  else if asciiByte 'a' ≤ value ∧ value ≤ asciiByte 'z' then
    .ok (value.toNat - (asciiByte 'a').toNat + 26)
  else if asciiByte '0' ≤ value ∧ value ≤ asciiByte '9' then
    .ok (value.toNat - (asciiByte '0').toNat + 52)
  else if value = asciiByte '+' then .ok 62
  else if value = asciiByte '/' then .ok 63
  else .error (runtimeError "Invalid base64 character in FB2 binary data.")

/-- The value of a character that may be padding. -/
def decodePadded (value : UInt8) : Except Failure Nat :=
  if value = padding then .ok 0 else decodeCharacter value

def groupBytes (c d : UInt8) (aValue bValue cValue dValue : Nat) : Bytes :=
  let block := aValue <<< 18 ||| bValue <<< 12 ||| cValue <<< 6 ||| dValue
  [UInt8.ofNat (block >>> 16 &&& 0xFF)] ++
    (if c ≠ padding then [UInt8.ofNat (block >>> 8 &&& 0xFF)] else []) ++
    (if d ≠ padding then [UInt8.ofNat (block &&& 0xFF)] else [])

def decodeGroup (a b c d : UInt8) : Except Failure Bytes := do
  let aValue ← decodeCharacter a
  let bValue ← decodeCharacter b
  let cValue ← decodePadded c
  let dValue ← decodePadded d
  if (c = padding ∧ bValue &&& 0x0F ≠ 0) ∨ (d = padding ∧ c ≠ padding ∧ cValue &&& 0x03 ≠ 0) then
    .error (runtimeError "Invalid base64 padding bits in FB2 binary data.")
  else return groupBytes c d aValue bValue cValue dValue

/-- The loop. A text of whole groups ends it with nothing left. -/
def decodeGroups : Bytes → Except Failure Bytes
  | a :: b :: c :: d :: rest => do
    let group ← decodeGroup a b c d
    let bytes ← decodeGroups rest
    return group ++ bytes
  | _ => .ok []

def paddingCount (sanitized : Bytes) : Nat :=
  if sanitized.getLast? = some padding then
    if sanitized[sanitized.length - 2]? = some padding then 2 else 1
  else 0

def decodeBase64 (encodedValue : Bytes) : Except Failure Bytes :=
  let sanitized := encodedValue.filter fun value => !isSpace value
  if sanitized = [] then .ok []
  else if sanitized.length % 4 ≠ 0 then
    .error (runtimeError "Invalid base64 length in FB2 binary data.")
  else
    let firstPadding := sanitized.idxOf padding
    if firstPadding < sanitized.length ∧
        firstPadding ≠ sanitized.length - paddingCount sanitized then
      .error (runtimeError "Invalid base64 padding in FB2 binary data.")
    else decodeGroups sanitized

/-! ### Characters -/

theorem decodeCharacter_base64Character {value : Nat} (h : value < 64) :
    decodeCharacter (base64Character value) = .ok value := by
  have hall : ∀ value < 64, decodeCharacter (base64Character value) = .ok value := by
    decide +kernel
  exact hall value h

theorem decodeCharacter_eq_ok {c : UInt8} {value : Nat} (h : decodeCharacter c = .ok value) :
    value < 64 ∧ base64Character value = c := by
  have hall : ∀ n < 256, ∀ value ∈ (decodeCharacter (UInt8.ofNat n)).toOption,
      value < 64 ∧ base64Character value = UInt8.ofNat n := by decide +kernel
  have hc := hall c.toNat c.toNat_lt value
  rw [UInt8.ofNat_toNat, h] at hc
  exact hc rfl

theorem base64Character_ne_padding {value : Nat} (h : value < 64) :
    base64Character value ≠ padding := by
  have hall : ∀ value < 64, base64Character value ≠ padding := by decide +kernel
  exact hall value h

theorem isSpace_base64Character {value : Nat} (h : value < 64) :
    isSpace (base64Character value) = false := by
  have hall : ∀ value < 64, isSpace (base64Character value) = false := by decide +kernel
  exact hall value h

theorem decodePadded_base64Character {value : Nat} (h : value < 64) :
    decodePadded (base64Character value) = .ok value := by
  rw [decodePadded, if_neg (base64Character_ne_padding h), decodeCharacter_base64Character h]

theorem decodePadded_padding : decodePadded padding = .ok 0 := if_pos rfl

theorem decodePadded_eq_ok {c : UInt8} {value : Nat} (h : decodePadded c = .ok value)
    (hc : c ≠ padding) : value < 64 ∧ base64Character value = c := by
  rw [decodePadded, if_neg hc] at h
  exact decodeCharacter_eq_ok h

/-! ### Groups -/

/-- The block is the number with the four values as its digits. -/
theorem block_eq {a b c d : Nat} (hb : b < 64) (hc : c < 64) (hd : d < 64) :
    a <<< 18 ||| b <<< 12 ||| c <<< 6 ||| d = ((a * 64 + b) * 64 + c) * 64 + d := by
  have hab : a <<< 18 ||| b <<< 12 = (a * 64 + b) <<< 12 := by
    rw [← Nat.shiftLeft_add_eq_or_of_lt (by rw [Nat.shiftLeft_eq]; omega)]
    simp only [Nat.shiftLeft_eq]
    omega
  have habc : (a * 64 + b) <<< 12 ||| c <<< 6 = ((a * 64 + b) * 64 + c) <<< 6 := by
    rw [← Nat.shiftLeft_add_eq_or_of_lt (by rw [Nat.shiftLeft_eq]; omega)]
    simp only [Nat.shiftLeft_eq]
    omega
  rw [hab, habc, ← Nat.shiftLeft_add_eq_or_of_lt (by omega), Nat.shiftLeft_eq]

/-- The bytes of a group, from the values. -/
theorem groupBytes_eq {c d : UInt8} {v₁ v₂ v₃ v₄ : Nat} (h₁ : v₁ < 64) (h₂ : v₂ < 64)
    (h₃ : v₃ < 64) (h₄ : v₄ < 64) :
    groupBytes c d v₁ v₂ v₃ v₄ = [UInt8.ofNat (v₁ * 4 + v₂ / 16)] ++
      (if c ≠ padding then [UInt8.ofNat (v₂ % 16 * 16 + v₃ / 4)] else []) ++
      (if d ≠ padding then [UInt8.ofNat (v₃ % 4 * 64 + v₄)] else []) := by
  have hmask : ∀ n : Nat, n &&& 0xFF = n % 256 := fun n => Nat.and_two_pow_sub_one_eq_mod n 8
  rw [groupBytes]
  simp only [block_eq h₂ h₃ h₄, hmask, Nat.shiftRight_eq_div_pow]
  have e₁ : (((v₁ * 64 + v₂) * 64 + v₃) * 64 + v₄) / 2 ^ 16 % 256 = v₁ * 4 + v₂ / 16 := by omega
  have e₂ : (((v₁ * 64 + v₂) * 64 + v₃) * 64 + v₄) / 2 ^ 8 % 256 = v₂ % 16 * 16 + v₃ / 4 := by
    omega
  have e₃ : (((v₁ * 64 + v₂) * 64 + v₃) * 64 + v₄) % 256 = v₃ % 4 * 64 + v₄ := by omega
  rw [e₁, e₂, e₃]

theorem decodeGroup_eq {v₁ v₂ v₃ v₄ : Nat} (h₁ : v₁ < 64) (h₂ : v₂ < 64) (h₃ : v₃ < 64)
    (h₄ : v₄ < 64) :
    decodeGroup (base64Character v₁) (base64Character v₂) (base64Character v₃)
      (base64Character v₄) = .ok [UInt8.ofNat (v₁ * 4 + v₂ / 16),
        UInt8.ofNat (v₂ % 16 * 16 + v₃ / 4), UInt8.ofNat (v₃ % 4 * 64 + v₄)] := by
  have hc := base64Character_ne_padding h₃
  have hd := base64Character_ne_padding h₄
  rw [decodeGroup, decodeCharacter_base64Character h₁, decodeCharacter_base64Character h₂,
    decodePadded_base64Character h₃, decodePadded_base64Character h₄]
  simp only [bind, Except.bind, hc, hd, false_and, or_self, if_false]
  rw [groupBytes_eq h₁ h₂ h₃ h₄, if_pos hc, if_pos hd]
  rfl

theorem decodeGroup_one {v₁ v₂ v₃ : Nat} (h₁ : v₁ < 64) (h₂ : v₂ < 64) (h₃ : v₃ < 64) :
    decodeGroup (base64Character v₁) (base64Character v₂) (base64Character v₃) padding =
      if v₃ % 4 = 0 then
        .ok [UInt8.ofNat (v₁ * 4 + v₂ / 16), UInt8.ofNat (v₂ % 16 * 16 + v₃ / 4)]
      else .error (runtimeError "Invalid base64 padding bits in FB2 binary data.") := by
  have hc := base64Character_ne_padding h₃
  have hmask : v₃ &&& 0x03 = v₃ % 4 := Nat.and_two_pow_sub_one_eq_mod v₃ 2
  rw [decodeGroup, decodeCharacter_base64Character h₁, decodeCharacter_base64Character h₂,
    decodePadded_base64Character h₃, decodePadded_padding]
  simp only [bind, Except.bind, hc, hmask, false_and, false_or, true_and, ne_eq, not_false_eq_true]
  by_cases hzero : v₃ % 4 = 0
  · rw [if_neg (not_not.mpr hzero), if_pos hzero, groupBytes_eq h₁ h₂ h₃ (by decide), if_pos hc,
      if_neg (not_not.mpr rfl)]
    rfl
  · rw [if_pos hzero, if_neg hzero]

theorem decodeGroup_two {v₁ v₂ : Nat} (h₁ : v₁ < 64) (h₂ : v₂ < 64) :
    decodeGroup (base64Character v₁) (base64Character v₂) padding padding =
      if v₂ % 16 = 0 then .ok [UInt8.ofNat (v₁ * 4 + v₂ / 16)]
      else .error (runtimeError "Invalid base64 padding bits in FB2 binary data.") := by
  have hmask : v₂ &&& 0x0F = v₂ % 16 := Nat.and_two_pow_sub_one_eq_mod v₂ 4
  rw [decodeGroup, decodeCharacter_base64Character h₁, decodeCharacter_base64Character h₂,
    decodePadded_padding]
  simp only [bind, Except.bind, hmask, true_and, ne_eq, not_true_eq_false, false_and, or_false]
  by_cases hzero : v₂ % 16 = 0
  · rw [if_neg (not_not.mpr hzero), if_pos hzero, groupBytes_eq h₁ h₂ (by decide) (by decide),
      if_neg (not_not.mpr rfl), if_neg (not_not.mpr rfl)]
    rfl
  · rw [if_pos hzero, if_neg hzero]

/-- A group that is decoded begins with two characters that have a value. -/
theorem decodeGroup_eq_ok {a b c d : UInt8} {group : Bytes} (h : decodeGroup a b c d = .ok group) :
    (∃ v₁ < 64, base64Character v₁ = a) ∧ (∃ v₂ < 64, base64Character v₂ = b) ∧
      (c ≠ padding → ∃ v₃ < 64, base64Character v₃ = c) ∧
      (d ≠ padding → ∃ v₄ < 64, base64Character v₄ = d) := by
  rw [decodeGroup] at h
  obtain ⟨v₁, h₁, h⟩ := Program.except_bind_eq_ok h
  obtain ⟨v₂, h₂, h⟩ := Program.except_bind_eq_ok h
  obtain ⟨v₃, h₃, h⟩ := Program.except_bind_eq_ok h
  obtain ⟨v₄, h₄, h⟩ := Program.except_bind_eq_ok h
  exact ⟨⟨v₁, decodeCharacter_eq_ok h₁⟩, ⟨v₂, decodeCharacter_eq_ok h₂⟩,
    fun hc => ⟨v₃, decodePadded_eq_ok h₃ hc⟩, fun hd => ⟨v₄, decodePadded_eq_ok h₄ hd⟩⟩

/-! ### Where the padding is -/

/-- Is there a padding character before the padding? -/
def IsMisplaced (sanitized : Bytes) : Prop :=
  sanitized.idxOf padding < sanitized.length ∧
    sanitized.idxOf padding ≠ sanitized.length - paddingCount sanitized

theorem paddingCount_le (sanitized : Bytes) : paddingCount sanitized ≤ 2 := by
  rw [paddingCount]
  split
  · split <;> omega
  · omega

theorem paddingCount_append {front rest : Bytes} (h : 2 ≤ rest.length) :
    paddingCount (front ++ rest) = paddingCount rest := by
  have hne : rest ≠ [] := by
    intro hnil
    rw [hnil] at h
    exact absurd h (by decide)
  have hlast : (front ++ rest)[(front ++ rest).length - 2]? = rest[rest.length - 2]? := by
    rw [List.getElem?_append_right (by rw [List.length_append]; omega), List.length_append]
    congr 1
    omega
  rw [paddingCount, paddingCount, hlast, List.getLast?_append_of_ne_nil _ hne]

/-- Padding in a group that is not the last is misplaced. -/
theorem isMisplaced_append {front rest : Bytes} (h : 4 ≤ rest.length) :
    IsMisplaced (front ++ rest) ↔ padding ∈ front ∨ IsMisplaced rest := by
  have hpad := paddingCount_le rest
  rw [IsMisplaced, IsMisplaced, paddingCount_append (by omega), List.length_append]
  by_cases hfront : padding ∈ front
  · have hlt := List.idxOf_lt_length_of_mem hfront
    rw [List.idxOf_append_of_mem hfront]
    exact ⟨fun _ => .inl hfront, fun _ => ⟨by omega, by omega⟩⟩
  · rw [List.idxOf_append_of_notMem hfront]
    constructor
    · rintro ⟨hlt, hne⟩
      exact .inr ⟨by omega, by omega⟩
    · rintro (hmem | ⟨hlt, hne⟩)
      · exact absurd hmem hfront
      · exact ⟨by omega, by omega⟩

/-- The last group, without misplaced padding: only its last two characters may be padding, and
the third only if the fourth is. -/
theorem isMisplaced_group {a b c d : UInt8} :
    IsMisplaced [a, b, c, d] ↔ a = padding ∨ b = padding ∨ c = padding ∧ d ≠ padding := by
  by_cases ha : a = padding <;> by_cases hb : b = padding <;> by_cases hc : c = padding <;>
    by_cases hd : d = padding <;>
    simp [IsMisplaced, paddingCount, ha, hb, hc, hd]

/-! ### The round trip -/

theorem length_base64 : ∀ bytes : Bytes, (base64 bytes).length % 4 = 0
  | [] => rfl
  | [_] => by simp [base64]
  | [_, _] => by simp [base64]
  | _ :: _ :: _ :: bytes => by
    have ih := length_base64 bytes
    simp only [base64, List.length_cons]
    omega

theorem base64_ne_nil {bytes : Bytes} (h : bytes ≠ []) : base64 bytes ≠ [] := by
  rcases bytes with _ | ⟨x, _ | ⟨y, _ | ⟨z, bytes⟩⟩⟩
  · exact absurd rfl h
  · exact List.cons_ne_nil _ _
  · exact List.cons_ne_nil _ _
  · exact List.cons_ne_nil _ _

theorem not_isMisplaced_nil : ¬IsMisplaced [] := fun h => absurd h.1 (by decide)

theorem not_isMisplaced_base64 : ∀ bytes : Bytes, ¬IsMisplaced (base64 bytes)
  | [] => not_isMisplaced_nil
  | [x] => by
    have hx := x.toNat_lt
    rw [base64, isMisplaced_group]
    have h₁ : base64Character (x.toNat / 4) ≠ padding :=
      base64Character_ne_padding (by omega)
    have h₂ : base64Character (x.toNat % 4 * 16) ≠ padding :=
      base64Character_ne_padding (by omega)
    simp [h₁, h₂]
  | [x, y] => by
    have hx := x.toNat_lt
    have hy := y.toNat_lt
    rw [base64, isMisplaced_group]
    have h₁ : base64Character (x.toNat / 4) ≠ padding :=
      base64Character_ne_padding (by omega)
    have h₂ : base64Character (x.toNat % 4 * 16 + y.toNat / 16) ≠ padding :=
      base64Character_ne_padding (by omega)
    have h₃ : base64Character (y.toNat % 16 * 4) ≠ padding :=
      base64Character_ne_padding (by omega)
    simp [h₁, h₂, h₃]
  | x :: y :: z :: bytes => by
    have hx := x.toNat_lt
    have hy := y.toNat_lt
    have hz := z.toNat_lt
    have ih := not_isMisplaced_base64 bytes
    have h₁ : base64Character (x.toNat / 4) ≠ padding :=
      base64Character_ne_padding (by omega)
    have h₂ : base64Character (x.toNat % 4 * 16 + y.toNat / 16) ≠ padding :=
      base64Character_ne_padding (by omega)
    have h₃ : base64Character (y.toNat % 16 * 4 + z.toNat / 64) ≠ padding :=
      base64Character_ne_padding (by omega)
    have h₄ : base64Character (z.toNat % 64) ≠ padding :=
      base64Character_ne_padding (by omega)
    by_cases hnil : bytes = []
    · rw [hnil, base64, base64, isMisplaced_group]
      simp [h₁, h₂, h₃]
    · have hlength := length_base64 bytes
      have hpos := List.length_pos_iff.mpr (base64_ne_nil hnil)
      change ¬IsMisplaced ([_, _, _, _] ++ base64 bytes)
      rw [isMisplaced_append (by omega)]
      simp [h₁.symm, h₂.symm, h₃.symm, h₄.symm, ih]

theorem ofNat_of_eq {n : Nat} {x : UInt8} (h : n = x.toNat) : UInt8.ofNat n = x := by
  rw [h, UInt8.ofNat_toNat]

theorem decodeGroups_base64 : ∀ bytes : Bytes, decodeGroups (base64 bytes) = .ok bytes
  | [] => rfl
  | [x] => by
    have hx := x.toNat_lt
    rw [base64, decodeGroups, decodeGroup_two (by omega) (by omega), if_pos (by omega),
      ofNat_of_eq (x := x) (by omega)]
    rfl
  | [x, y] => by
    have hx := x.toNat_lt
    have hy := y.toNat_lt
    rw [base64, decodeGroups, decodeGroup_one (by omega) (by omega) (by omega),
      if_pos (by omega), ofNat_of_eq (x := x) (by omega), ofNat_of_eq (x := y) (by omega)]
    rfl
  | x :: y :: z :: bytes => by
    have hx := x.toNat_lt
    have hy := y.toNat_lt
    have hz := z.toNat_lt
    rw [base64, decodeGroups, decodeGroup_eq (by omega) (by omega) (by omega) (by omega),
      decodeGroups_base64 bytes, ofNat_of_eq (x := x) (by omega), ofNat_of_eq (x := y) (by omega),
      ofNat_of_eq (x := z) (by omega)]
    rfl

/-- Four characters with values are the encoding of three bytes. -/
theorem base64_group {v₁ v₂ v₃ v₄ : Nat} (h₁ : v₁ < 64) (h₂ : v₂ < 64) (h₃ : v₃ < 64)
    (h₄ : v₄ < 64) (bytes : Bytes) :
    base64 (UInt8.ofNat (v₁ * 4 + v₂ / 16) :: UInt8.ofNat (v₂ % 16 * 16 + v₃ / 4) ::
      UInt8.ofNat (v₃ % 4 * 64 + v₄) :: bytes) =
        base64Character v₁ :: base64Character v₂ :: base64Character v₃ :: base64Character v₄ ::
          base64 bytes := by
  rw [base64, UInt8.toNat_ofNat', UInt8.toNat_ofNat', UInt8.toNat_ofNat']
  have e₁ : (v₁ * 4 + v₂ / 16) % 2 ^ 8 / 4 = v₁ := by omega
  have e₂ : (v₁ * 4 + v₂ / 16) % 2 ^ 8 % 4 * 16 + (v₂ % 16 * 16 + v₃ / 4) % 2 ^ 8 / 16 = v₂ := by
    omega
  have e₃ : (v₂ % 16 * 16 + v₃ / 4) % 2 ^ 8 % 16 * 4 + (v₃ % 4 * 64 + v₄) % 2 ^ 8 / 64 = v₃ := by
    omega
  have e₄ : (v₃ % 4 * 64 + v₄) % 2 ^ 8 % 64 = v₄ := by omega
  rw [e₁, e₂, e₃, e₄]

/-- The last group is the encoding of what it is decoded to. -/
theorem base64_of_decodeGroup {a b c d : UInt8} {group : Bytes}
    (hplaced : ¬IsMisplaced [a, b, c, d]) (h : decodeGroup a b c d = .ok group) :
    base64 group = [a, b, c, d] := by
  rw [isMisplaced_group, not_or, not_or, not_and, not_not] at hplaced
  obtain ⟨⟨v₁, hv₁, rfl⟩, ⟨v₂, hv₂, rfl⟩, hthird, hfourth⟩ := decodeGroup_eq_ok h
  by_cases hc : c = padding
  · have hd := hplaced.2.2 hc
    rw [hc, hd] at h ⊢
    rw [decodeGroup_two hv₁ hv₂] at h
    split at h
    · rename_i hzero
      injection h with h
      rw [← h, base64, UInt8.toNat_ofNat']
      congr 2
      · omega
      · congr 1
        omega
    · cases h
  obtain ⟨v₃, hv₃, rfl⟩ := hthird hc
  by_cases hd : d = padding
  · rw [hd] at h ⊢
    rw [decodeGroup_one hv₁ hv₂ hv₃] at h
    split at h
    · rename_i hzero
      injection h with h
      rw [← h, base64, UInt8.toNat_ofNat', UInt8.toNat_ofNat']
      have e₁ : (v₁ * 4 + v₂ / 16) % 2 ^ 8 / 4 = v₁ := by omega
      have e₂ : (v₁ * 4 + v₂ / 16) % 2 ^ 8 % 4 * 16 + (v₂ % 16 * 16 + v₃ / 4) % 2 ^ 8 / 16 =
          v₂ := by omega
      have e₃ : (v₂ % 16 * 16 + v₃ / 4) % 2 ^ 8 % 16 * 4 = v₃ := by omega
      rw [e₁, e₂, e₃]
    · cases h
  obtain ⟨v₄, hv₄, rfl⟩ := hfourth hd
  rw [decodeGroup_eq hv₁ hv₂ hv₃ hv₄] at h
  injection h with h
  rw [← h, base64_group hv₁ hv₂ hv₃ hv₄, base64]

theorem base64_of_decodeGroups : ∀ (sanitized bytes : Bytes), sanitized.length % 4 = 0 →
    ¬IsMisplaced sanitized → decodeGroups sanitized = .ok bytes → base64 bytes = sanitized
  | [], bytes, _, _, h => by
    injection h with h
    rw [← h, base64]
  | [_], _, hlength, _, _ => by simp at hlength
  | [_, _], _, hlength, _, _ => by simp at hlength
  | [_, _, _], _, hlength, _, _ => by simp at hlength
  | a :: b :: c :: d :: rest, bytes, hlength, hplaced, h => by
    obtain ⟨group, hgroup, h⟩ := Program.except_bind_eq_ok h
    obtain ⟨later, hlater, h⟩ := Program.except_bind_eq_ok h
    injection h with h
    subst h
    by_cases hnil : rest = []
    · subst hnil
      injection hlater with hlater
      rw [← hlater, List.append_nil]
      exact base64_of_decodeGroup hplaced hgroup
    · have hrest : rest.length % 4 = 0 := by
        simp only [List.length_cons] at hlength
        omega
      have hpos := List.length_pos_iff.mpr hnil
      change ¬IsMisplaced ([a, b, c, d] ++ rest) at hplaced
      rw [isMisplaced_append (by omega), not_or] at hplaced
      have ih := base64_of_decodeGroups rest later hrest hplaced.2 hlater
      have hnone : c ≠ padding ∧ d ≠ padding := by
        constructor
        · exact fun he => hplaced.1 (by simp [he])
        · exact fun he => hplaced.1 (by simp [he])
      obtain ⟨⟨v₁, hv₁, rfl⟩, ⟨v₂, hv₂, rfl⟩, hthird, hfourth⟩ := decodeGroup_eq_ok hgroup
      obtain ⟨v₃, hv₃, rfl⟩ := hthird hnone.1
      obtain ⟨v₄, hv₄, rfl⟩ := hfourth hnone.2
      rw [decodeGroup_eq hv₁ hv₂ hv₃ hv₄] at hgroup
      injection hgroup with hgroup
      rw [← hgroup, ← ih]
      exact base64_group hv₁ hv₂ hv₃ hv₄ later

theorem mem_base64 {c : UInt8} : ∀ bytes : Bytes, c ∈ base64 bytes →
    c = padding ∨ ∃ value < 64, c = base64Character value
  | [], h => by cases h
  | [x], h => by
    have hx := x.toNat_lt
    simp only [base64, List.mem_cons, List.not_mem_nil, or_false] at h
    rcases h with h | h | h | h
    · exact .inr ⟨_, by omega, h⟩
    · exact .inr ⟨_, by omega, h⟩
    · exact .inl h
    · exact .inl h
  | [x, y], h => by
    have hx := x.toNat_lt
    have hy := y.toNat_lt
    simp only [base64, List.mem_cons, List.not_mem_nil, or_false] at h
    rcases h with h | h | h | h
    · exact .inr ⟨_, by omega, h⟩
    · exact .inr ⟨_, by omega, h⟩
    · exact .inr ⟨_, by omega, h⟩
    · exact .inl h
  | x :: y :: z :: bytes, h => by
    have hx := x.toNat_lt
    have hy := y.toNat_lt
    have hz := z.toNat_lt
    simp only [base64, List.mem_cons] at h
    rcases h with h | h | h | h | h
    · exact .inr ⟨_, by omega, h⟩
    · exact .inr ⟨_, by omega, h⟩
    · exact .inr ⟨_, by omega, h⟩
    · exact .inr ⟨_, by omega, h⟩
    · exact mem_base64 bytes h

theorem filter_base64 (bytes : Bytes) :
    (base64 bytes).filter (fun value => !isSpace value) = base64 bytes := by
  rw [List.filter_eq_self]
  intro c hc
  rcases mem_base64 bytes hc with rfl | ⟨value, hvalue, rfl⟩
  · decide
  · rw [isSpace_base64Character hvalue]
    rfl

/-- A text is decoded exactly if it is a canonical encoding, white space apart, and it is decoded
to what was encoded. -/
theorem decodeBase64_exact (encodedValue bytes : Bytes) :
    (decodeBase64 encodedValue = .ok bytes ↔
      encodedValue.filter (fun value => !isSpace value) = base64 bytes) ∧
    decodeBase64 (base64 bytes) = .ok bytes := by
  have hiff : ∀ encodedValue : Bytes, decodeBase64 encodedValue = .ok bytes ↔
      encodedValue.filter (fun value => !isSpace value) = base64 bytes := by
    intro encodedValue
    rw [decodeBase64]
    generalize encodedValue.filter (fun value => !isSpace value) = sanitized
    constructor
    · intro h
      split at h
      · rename_i hnil
        injection h with h
        rw [← h, hnil, base64]
      split at h
      · cases h
      rename_i hlength
      dsimp only at h
      split at h
      · cases h
      · rename_i hplaced
        exact (base64_of_decodeGroups sanitized bytes (not_not.mp hlength) hplaced h).symm
    · rintro rfl
      by_cases hnil : bytes = []
      · rw [hnil, base64, if_pos rfl]
      rw [if_neg (base64_ne_nil hnil), if_neg (not_not.mpr (length_base64 bytes))]
      exact (if_neg (not_isMisplaced_base64 bytes)).trans (decodeGroups_base64 bytes)
  exact ⟨hiff encodedValue, (hiff _).mpr (filter_base64 bytes)⟩

end InpxWebReader.Parsing
