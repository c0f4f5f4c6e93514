import InpxWebReader.Foundation.Text

/-!
# Base64url

The codec that cursors travel in. Both directions keep a 32-bit buffer, into which they shift what
they read, and the number of bits in it that are still to be written; what is above these bits is
never looked at again, and `encodeFrom_aligned` and `decodeFrom_aligned` say so where a group of
three bytes is complete.

`decodeBase64Url_encodeBase64Url` and `decodeBase64Url_eq_ok` are the two halves of the round trip.
-/

namespace InpxWebReader.Server

open Foundation

def maxEncodedCursorBytes : Nat := 8192

def base64UrlAlphabet : Bytes :=
  ascii "ABCDEFGHIJKLMNOPQRSTUVWXYZabcdefghijklmnopqrstuvwxyz0123456789-_"

/-- `GBase64UrlAlphabet[value]`. -/
def base64UrlCharacter (value : Nat) : UInt8 := base64UrlAlphabet.getD value 0

/-- The 32-bit buffer after it took another byte (`width` 256) or character (`width` 64). -/
def shiftIn (width buffer value : Nat) : Nat := (buffer * width + value) % 2 ^ 32

/-- The loop that writes characters while there are six bits: the characters, and the bits left. -/
def takeSextets (buffer : Nat) : Nat → Bytes × Nat
  | bitCount + 6 =>
    let rest := takeSextets buffer bitCount
    (base64UrlCharacter (buffer / 2 ^ bitCount % 64) :: rest.1, rest.2)
  | bitCount => ([], bitCount)

/-- The loop of `EncodeBase64Url`, from a state of its buffer. -/
def encodeFrom (buffer bitCount : Nat) : Bytes → Bytes
  | [] => if 0 < bitCount then [base64UrlCharacter (buffer * 2 ^ (6 - bitCount) % 64)] else []
  | byte :: bytes =>
    let buffer := shiftIn 256 buffer byte.toNat
    let written := takeSextets buffer (bitCount + 8)
    written.1 ++ encodeFrom buffer written.2 bytes

def encodeBase64Url (bytes : Bytes) : Bytes := encodeFrom 0 0 bytes

def decodeBase64UrlCharacter (c : UInt8) : Option Nat :=
  if 65 ≤ c ∧ c ≤ 90 then some (c.toNat - 65)
  else if 97 ≤ c ∧ c ≤ 122 then some (c.toNat - 97 + 26)
  else if 48 ≤ c ∧ c ≤ 57 then some (c.toNat - 48 + 52)
  else if c = asciiByte '-' then some 62
  else if c = asciiByte '_' then some 63
  else none

/-- The loop of `DecodeBase64Url`, from a state of its buffer. -/
def decodeFrom (buffer bitCount : Nat) : Bytes → Option Bytes
  | [] => if 0 < bitCount ∧ buffer % 2 ^ bitCount ≠ 0 then none else some []
  | c :: cs => do
    let value ← decodeBase64UrlCharacter c
    let buffer := shiftIn 64 buffer value
    if 8 ≤ bitCount + 6 then
      let rest ← decodeFrom buffer (bitCount + 6 - 8) cs
      return UInt8.ofNat (buffer / 2 ^ (bitCount + 6 - 8) % 256) :: rest
    else decodeFrom buffer (bitCount + 6) cs

/-- `DecodeBase64Url`; `none` is the exception "Catalog cursor encoding is invalid.". -/
def decodeBase64Url (encoded : Bytes) : Option Bytes :=
  if encoded = [] ∨ maxEncodedCursorBytes < encoded.length ∨ encoded.length % 4 = 1 then none
  else decodeFrom 0 0 encoded

/-! ### Characters -/

theorem decodeCharacter_base64UrlCharacter (value : Nat) (h : value < 64) :
    decodeBase64UrlCharacter (base64UrlCharacter value) = some value := by
  have hall : ∀ value < 64, decodeBase64UrlCharacter (base64UrlCharacter value) = some value := by
    decide +kernel
  exact hall value h

theorem decodeCharacter_eq_some {c : UInt8} {value : Nat}
    (h : decodeBase64UrlCharacter c = some value) :
    value < 64 ∧ base64UrlCharacter value = c := by
  have hall : ∀ n < 256, ∀ value ∈ decodeBase64UrlCharacter (UInt8.ofNat n),
      value < 64 ∧ base64UrlCharacter value = UInt8.ofNat n := by decide +kernel
  have hc := hall c.toNat c.toNat_lt value
  rw [UInt8.ofNat_toNat] at hc
  exact hc h

/-! ### What the buffer says -/

theorem shiftIn_byte (buffer : Nat) {value : Nat} (h : value < 256) :
    shiftIn 256 buffer value % 65536 = buffer % 256 * 256 + value := by
  rw [shiftIn]
  omega

theorem shiftIn_sextet (buffer : Nat) {value : Nat} (h : value < 64) :
    shiftIn 64 buffer value % 4096 = buffer % 64 * 64 + value := by
  rw [shiftIn]
  omega

/-- The buffer shifts out what the bytes that it took last say. -/
theorem sextets_of_bytes (buffer : Nat) {a b c : Nat} (ha : a < 256) (hb : b < 256)
    (hc : c < 256) :
    shiftIn 256 buffer a / 4 % 64 = a / 4 ∧
    shiftIn 256 (shiftIn 256 buffer a) b / 16 % 64 = a % 4 * 16 + b / 16 ∧
    shiftIn 256 (shiftIn 256 (shiftIn 256 buffer a) b) c / 64 % 64 = b % 16 * 4 + c / 64 ∧
    shiftIn 256 (shiftIn 256 (shiftIn 256 buffer a) b) c % 64 = c % 64 := by
  have hx := shiftIn_byte buffer ha
  have hy := shiftIn_byte (shiftIn 256 buffer a) hb
  have hz := shiftIn_byte (shiftIn 256 (shiftIn 256 buffer a) b) hc
  refine ⟨?_, ?_, ?_, ?_⟩
  · omega
  · omega
  · omega
  · omega

/-- The buffer shifts out what the characters that it took last say. -/
theorem bytes_of_sextets (buffer : Nat) {v₁ v₂ v₃ v₄ : Nat} (h₁ : v₁ < 64) (h₂ : v₂ < 64)
    (h₃ : v₃ < 64) (h₄ : v₄ < 64) :
    shiftIn 64 (shiftIn 64 buffer v₁) v₂ / 16 % 256 = v₁ * 4 + v₂ / 16 ∧
    shiftIn 64 (shiftIn 64 (shiftIn 64 buffer v₁) v₂) v₃ / 4 % 256 = v₂ % 16 * 16 + v₃ / 4 ∧
    shiftIn 64 (shiftIn 64 (shiftIn 64 (shiftIn 64 buffer v₁) v₂) v₃) v₄ % 256 =
      v₃ % 4 * 64 + v₄ := by
  have hx := shiftIn_sextet buffer h₁
  have hy := shiftIn_sextet (shiftIn 64 buffer v₁) h₂
  have hz := shiftIn_sextet (shiftIn 64 (shiftIn 64 buffer v₁) v₂) h₃
  have hw := shiftIn_sextet (shiftIn 64 (shiftIn 64 (shiftIn 64 buffer v₁) v₂) v₃) h₄
  refine ⟨?_, ?_, ?_⟩
  · omega
  · omega
  · omega

theorem takeSextets_eight (buffer : Nat) :
    takeSextets buffer 8 = ([base64UrlCharacter (buffer / 4 % 64)], 2) := by
  simp [takeSextets]

theorem takeSextets_ten (buffer : Nat) :
    takeSextets buffer 10 = ([base64UrlCharacter (buffer / 16 % 64)], 4) := by
  simp [takeSextets]

theorem takeSextets_twelve (buffer : Nat) : takeSextets buffer 12 =
    ([base64UrlCharacter (buffer / 64 % 64), base64UrlCharacter (buffer % 64)], 0) := by
  simp [takeSextets]

/-! ### Groups -/

theorem encodeFrom_aligned (buffer : Nat) (a b c : UInt8) (bytes : Bytes) :
    ∃ buffer', encodeFrom buffer 0 (a :: b :: c :: bytes) =
      base64UrlCharacter (a.toNat / 4) ::
        base64UrlCharacter (a.toNat % 4 * 16 + b.toNat / 16) ::
        base64UrlCharacter (b.toNat % 16 * 4 + c.toNat / 64) ::
        base64UrlCharacter (c.toNat % 64) :: encodeFrom buffer' 0 bytes := by
  obtain ⟨h₁, h₂, h₃, h₄⟩ := sextets_of_bytes buffer a.toNat_lt b.toNat_lt c.toNat_lt
  refine ⟨shiftIn 256 (shiftIn 256 (shiftIn 256 buffer a.toNat) b.toNat) c.toNat, ?_⟩
  rw [← h₁, ← h₂, ← h₃, ← h₄]
  simp only [encodeFrom, Nat.zero_add, Nat.reduceAdd, takeSextets_eight, takeSextets_ten,
    takeSextets_twelve, List.cons_append, List.nil_append]

theorem decodeFrom_aligned (buffer : Nat) {c₁ c₂ c₃ c₄ : UInt8} {v₁ v₂ v₃ v₄ : Nat}
    (h₁ : decodeBase64UrlCharacter c₁ = some v₁) (h₂ : decodeBase64UrlCharacter c₂ = some v₂)
    (h₃ : decodeBase64UrlCharacter c₃ = some v₃) (h₄ : decodeBase64UrlCharacter c₄ = some v₄)
    (cs : Bytes) : ∃ buffer', decodeFrom buffer 0 (c₁ :: c₂ :: c₃ :: c₄ :: cs) =
      (decodeFrom buffer' 0 cs).map fun bytes =>
        UInt8.ofNat (v₁ * 4 + v₂ / 16) :: UInt8.ofNat (v₂ % 16 * 16 + v₃ / 4) ::
          UInt8.ofNat (v₃ % 4 * 64 + v₄) :: bytes := by
  obtain ⟨hb₁, hb₂, hb₃⟩ := bytes_of_sextets buffer (decodeCharacter_eq_some h₁).1
    (decodeCharacter_eq_some h₂).1 (decodeCharacter_eq_some h₃).1 (decodeCharacter_eq_some h₄).1
  refine ⟨shiftIn 64 (shiftIn 64 (shiftIn 64 (shiftIn 64 buffer v₁) v₂) v₃) v₄, ?_⟩
  rw [← hb₁, ← hb₂, ← hb₃]
  simp only [decodeFrom, h₁, h₂, h₃, h₄, Option.bind_eq_bind, Option.bind_some, Nat.zero_add,
    Nat.reduceAdd, Nat.reduceLeDiff, Nat.reduceSub, Nat.reducePow, Nat.div_one, if_false, if_true]
  cases decodeFrom _ 0 cs <;> rfl

/-- The characters of one or two bytes at the end, with zero bits after them. -/
theorem encodeFrom_one (buffer : Nat) (a : UInt8) : encodeFrom buffer 0 [a] =
    [base64UrlCharacter (a.toNat / 4), base64UrlCharacter (a.toNat % 4 * 16)] := by
  have ha := a.toNat_lt
  have hx := shiftIn_byte buffer ha
  have h₁ : shiftIn 256 buffer a.toNat / 4 % 64 = a.toNat / 4 := by omega
  have h₂ : shiftIn 256 buffer a.toNat * 16 % 64 = a.toNat % 4 * 16 := by omega
  rw [← h₁, ← h₂]
  simp [encodeFrom, takeSextets_eight]

theorem encodeFrom_two (buffer : Nat) (a b : UInt8) : encodeFrom buffer 0 [a, b] =
    [base64UrlCharacter (a.toNat / 4), base64UrlCharacter (a.toNat % 4 * 16 + b.toNat / 16),
      base64UrlCharacter (b.toNat % 16 * 4)] := by
  have ha := a.toNat_lt
  have hb := b.toNat_lt
  have hx := shiftIn_byte buffer ha
  have hy := shiftIn_byte (shiftIn 256 buffer a.toNat) hb
  have h₁ : shiftIn 256 buffer a.toNat / 4 % 64 = a.toNat / 4 := by omega
  have h₂ : shiftIn 256 (shiftIn 256 buffer a.toNat) b.toNat / 16 % 64 =
      a.toNat % 4 * 16 + b.toNat / 16 := by omega
  have h₃ : shiftIn 256 (shiftIn 256 buffer a.toNat) b.toNat * 4 % 64 =
      b.toNat % 16 * 4 := by omega
  rw [← h₁, ← h₂, ← h₃]
  simp [encodeFrom, takeSextets_eight, takeSextets_ten]

/-- Two characters at the end are one byte, if no bits are left over. -/
theorem decodeFrom_two (buffer : Nat) {c₁ c₂ : UInt8} {v₁ v₂ : Nat}
    (h₁ : decodeBase64UrlCharacter c₁ = some v₁) (h₂ : decodeBase64UrlCharacter c₂ = some v₂) :
    decodeFrom buffer 0 [c₁, c₂] =
      if v₂ % 16 = 0 then some [UInt8.ofNat (v₁ * 4 + v₂ / 16)] else none := by
  have hv₁ := (decodeCharacter_eq_some h₁).1
  have hv₂ := (decodeCharacter_eq_some h₂).1
  have hx := shiftIn_sextet buffer hv₁
  have hy := shiftIn_sextet (shiftIn 64 buffer v₁) hv₂
  have hbyte : shiftIn 64 (shiftIn 64 buffer v₁) v₂ / 16 % 256 = v₁ * 4 + v₂ / 16 := by omega
  have hleft : shiftIn 64 (shiftIn 64 buffer v₁) v₂ % 16 = v₂ % 16 := by omega
  rw [← hbyte, ← hleft]
  simp [decodeFrom, h₁, h₂]
  split <;> simp

/-- Three characters at the end are two bytes, if no bits are left over. -/
theorem decodeFrom_three (buffer : Nat) {c₁ c₂ c₃ : UInt8} {v₁ v₂ v₃ : Nat}
    (h₁ : decodeBase64UrlCharacter c₁ = some v₁) (h₂ : decodeBase64UrlCharacter c₂ = some v₂)
    (h₃ : decodeBase64UrlCharacter c₃ = some v₃) :
    decodeFrom buffer 0 [c₁, c₂, c₃] =
      if v₃ % 4 = 0 then
        some [UInt8.ofNat (v₁ * 4 + v₂ / 16), UInt8.ofNat (v₂ % 16 * 16 + v₃ / 4)]
      else none := by
  have hv₁ := (decodeCharacter_eq_some h₁).1
  have hv₂ := (decodeCharacter_eq_some h₂).1
  have hv₃ := (decodeCharacter_eq_some h₃).1
  have hx := shiftIn_sextet buffer hv₁
  have hy := shiftIn_sextet (shiftIn 64 buffer v₁) hv₂
  have hz := shiftIn_sextet (shiftIn 64 (shiftIn 64 buffer v₁) v₂) hv₃
  have hbyte₁ : shiftIn 64 (shiftIn 64 buffer v₁) v₂ / 16 % 256 = v₁ * 4 + v₂ / 16 := by omega
  have hbyte₂ : shiftIn 64 (shiftIn 64 (shiftIn 64 buffer v₁) v₂) v₃ / 4 % 256 =
      v₂ % 16 * 16 + v₃ / 4 := by omega
  have hleft : shiftIn 64 (shiftIn 64 (shiftIn 64 buffer v₁) v₂) v₃ % 4 = v₃ % 4 := by omega
  rw [← hbyte₁, ← hbyte₂, ← hleft]
  simp [decodeFrom, h₁, h₂, h₃]
  split <;> simp

/-! ### The round trip -/

theorem ofNat_eq_of_toNat {n : Nat} {a : UInt8} (h : n = a.toNat) : UInt8.ofNat n = a := by
  rw [h, UInt8.ofNat_toNat]

theorem decodeFrom_encodeFrom : ∀ (bytes : Bytes) (buffer buffer' : Nat),
    decodeFrom buffer 0 (encodeFrom buffer' 0 bytes) = some bytes
  | [], _, _ => rfl
  | [a], buffer, buffer' => by
    have ha := a.toNat_lt
    rw [encodeFrom_one, decodeFrom_two buffer (decodeCharacter_base64UrlCharacter _ (by omega))
      (decodeCharacter_base64UrlCharacter _ (by omega)), if_pos (by omega),
      ofNat_eq_of_toNat (a := a) (by omega)]
  | [a, b], buffer, buffer' => by
    have ha := a.toNat_lt
    have hb := b.toNat_lt
    rw [encodeFrom_two, decodeFrom_three buffer (decodeCharacter_base64UrlCharacter _ (by omega))
      (decodeCharacter_base64UrlCharacter _ (by omega))
      (decodeCharacter_base64UrlCharacter _ (by omega)), if_pos (by omega),
      ofNat_eq_of_toNat (a := a) (by omega), ofNat_eq_of_toNat (a := b) (by omega)]
  | a :: b :: c :: bytes, buffer, buffer' => by
    have ha := a.toNat_lt
    have hb := b.toNat_lt
    have hc := c.toNat_lt
    obtain ⟨later', hencode⟩ := encodeFrom_aligned buffer' a b c bytes
    obtain ⟨later, hdecode⟩ := decodeFrom_aligned buffer
      (decodeCharacter_base64UrlCharacter (a.toNat / 4) (by omega))
      (decodeCharacter_base64UrlCharacter (a.toNat % 4 * 16 + b.toNat / 16) (by omega))
      (decodeCharacter_base64UrlCharacter (b.toNat % 16 * 4 + c.toNat / 64) (by omega))
      (decodeCharacter_base64UrlCharacter (c.toNat % 64) (by omega))
      (encodeFrom later' 0 bytes)
    rw [hencode, hdecode, decodeFrom_encodeFrom bytes, Option.map_some,
      ofNat_eq_of_toNat (a := a) (by omega), ofNat_eq_of_toNat (a := b) (by omega),
      ofNat_eq_of_toNat (a := c) (by omega)]

theorem length_encodeFrom : ∀ (bytes : Bytes) (buffer : Nat),
    (encodeFrom buffer 0 bytes).length = (4 * bytes.length + 2) / 3
  | [], _ => rfl
  | [a], buffer => by
    rw [encodeFrom_one]
    simp
  | [a, b], buffer => by
    rw [encodeFrom_two]
    simp
  | a :: b :: c :: bytes, buffer => by
    obtain ⟨later, hencode⟩ := encodeFrom_aligned buffer a b c bytes
    rw [hencode]
    simp only [List.length_cons, length_encodeFrom bytes later]
    omega

theorem length_encodeBase64Url (bytes : Bytes) :
    (encodeBase64Url bytes).length = (4 * bytes.length + 2) / 3 := length_encodeFrom bytes 0

/-- The first character of a text that is decoded stands for a value. -/
theorem decodeFrom_cons_eq_some {buffer bitCount : Nat} {c : UInt8} {cs bytes : Bytes}
    (h : decodeFrom buffer bitCount (c :: cs) = some bytes) :
    ∃ value, decodeBase64UrlCharacter c = some value ∧
      ∃ buffer' bitCount' rest, decodeFrom buffer' bitCount' cs = some rest := by
  obtain ⟨value, hvalue, h⟩ := Option.bind_eq_some_iff.mp h
  refine ⟨value, hvalue, ?_⟩
  dsimp only at h
  split at h
  · obtain ⟨rest, hrest, _⟩ := Option.bind_eq_some_iff.mp h
    exact ⟨_, _, rest, hrest⟩
  · exact ⟨_, _, bytes, h⟩

theorem encodeFrom_decodeFrom : ∀ (encoded bytes : Bytes) (buffer buffer' : Nat),
    encoded.length % 4 ≠ 1 → decodeFrom buffer 0 encoded = some bytes →
    encodeFrom buffer' 0 bytes = encoded
  | [], bytes, _, _, _, h => by
    injection h with h
    rw [← h]
    rfl
  | [_], _, _, _, hlength, _ => absurd rfl hlength
  | [c₁, c₂], bytes, buffer, buffer', _, h => by
    obtain ⟨v₁, h₁, _, _, _, hrest⟩ := decodeFrom_cons_eq_some h
    obtain ⟨v₂, h₂, _⟩ := decodeFrom_cons_eq_some hrest
    obtain ⟨hv₁, hc₁⟩ := decodeCharacter_eq_some h₁
    obtain ⟨hv₂, hc₂⟩ := decodeCharacter_eq_some h₂
    rw [decodeFrom_two buffer h₁ h₂] at h
    obtain ⟨hzero, h⟩ := Option.ite_none_right_eq_some.mp h
    injection h with h
    rw [← h, encodeFrom_one, UInt8.toNat_ofNat', ← hc₁, ← hc₂]
    congr 2
    · omega
    · congr 1
      omega
  | [c₁, c₂, c₃], bytes, buffer, buffer', _, h => by
    obtain ⟨v₁, h₁, _, _, _, hrest⟩ := decodeFrom_cons_eq_some h
    obtain ⟨v₂, h₂, _, _, _, hrest⟩ := decodeFrom_cons_eq_some hrest
    obtain ⟨v₃, h₃, _⟩ := decodeFrom_cons_eq_some hrest
    obtain ⟨hv₁, hc₁⟩ := decodeCharacter_eq_some h₁
    obtain ⟨hv₂, hc₂⟩ := decodeCharacter_eq_some h₂
    obtain ⟨hv₃, hc₃⟩ := decodeCharacter_eq_some h₃
    rw [decodeFrom_three buffer h₁ h₂ h₃] at h
    obtain ⟨hzero, h⟩ := Option.ite_none_right_eq_some.mp h
    injection h with h
    rw [← h, encodeFrom_two, UInt8.toNat_ofNat', UInt8.toNat_ofNat', ← hc₁, ← hc₂, ← hc₃]
    have e₁ : (v₁ * 4 + v₂ / 16) % 2 ^ 8 / 4 = v₁ := by omega
    have e₂ : (v₁ * 4 + v₂ / 16) % 2 ^ 8 % 4 * 16 + (v₂ % 16 * 16 + v₃ / 4) % 2 ^ 8 / 16 = v₂ := by
      omega
    have e₃ : (v₂ % 16 * 16 + v₃ / 4) % 2 ^ 8 % 16 * 4 = v₃ := by omega
    rw [e₁, e₂, e₃]
  | c₁ :: c₂ :: c₃ :: c₄ :: cs, bytes, buffer, buffer', hlength, h => by
    obtain ⟨v₁, h₁, _, _, _, hrest⟩ := decodeFrom_cons_eq_some h
    obtain ⟨v₂, h₂, _, _, _, hrest⟩ := decodeFrom_cons_eq_some hrest
    obtain ⟨v₃, h₃, _, _, _, hrest⟩ := decodeFrom_cons_eq_some hrest
    obtain ⟨v₄, h₄, _⟩ := decodeFrom_cons_eq_some hrest
    obtain ⟨hv₁, hc₁⟩ := decodeCharacter_eq_some h₁
    obtain ⟨hv₂, hc₂⟩ := decodeCharacter_eq_some h₂
    obtain ⟨hv₃, hc₃⟩ := decodeCharacter_eq_some h₃
    obtain ⟨hv₄, hc₄⟩ := decodeCharacter_eq_some h₄
    obtain ⟨later, hdecode⟩ := decodeFrom_aligned buffer h₁ h₂ h₃ h₄ cs
    rw [hdecode] at h
    obtain ⟨rest, hrest, rfl⟩ := Option.map_eq_some_iff.mp h
    obtain ⟨later', hencode⟩ := encodeFrom_aligned buffer' (UInt8.ofNat (v₁ * 4 + v₂ / 16))
      (UInt8.ofNat (v₂ % 16 * 16 + v₃ / 4)) (UInt8.ofNat (v₃ % 4 * 64 + v₄)) rest
    have hcs : cs.length % 4 ≠ 1 := by
      simp only [List.length_cons] at hlength
      omega
    have ih := encodeFrom_decodeFrom cs rest later later' hcs hrest
    rw [hencode, ih, UInt8.toNat_ofNat', UInt8.toNat_ofNat', UInt8.toNat_ofNat', ← hc₁, ← hc₂,
      ← hc₃, ← hc₄]
    have e₁ : (v₁ * 4 + v₂ / 16) % 2 ^ 8 / 4 = v₁ := by omega
    have e₂ : (v₁ * 4 + v₂ / 16) % 2 ^ 8 % 4 * 16 + (v₂ % 16 * 16 + v₃ / 4) % 2 ^ 8 / 16 = v₂ := by
      omega
    have e₃ : (v₂ % 16 * 16 + v₃ / 4) % 2 ^ 8 % 16 * 4 + (v₃ % 4 * 64 + v₄) % 2 ^ 8 / 64 = v₃ := by
      omega
    have e₄ : (v₃ % 4 * 64 + v₄) % 2 ^ 8 % 64 = v₄ := by omega
    rw [e₁, e₂, e₃, e₄]

/-- What was encoded can be decoded, unless it is empty or too long for the decoder. -/
theorem decodeBase64Url_encodeBase64Url {bytes : Bytes} (hne : bytes ≠ [])
    (hlength : (encodeBase64Url bytes).length ≤ maxEncodedCursorBytes) :
    decodeBase64Url (encodeBase64Url bytes) = some bytes := by
  have hpos := List.length_pos_iff.mpr hne
  rw [decodeBase64Url]
  rw [if_neg]
  · exact decodeFrom_encodeFrom bytes 0 0
  · rw [not_or, not_or, ← List.length_eq_zero_iff]
    have hlength' := length_encodeBase64Url bytes
    omega

/-- What can be decoded is an encoding, neither empty nor too long. -/
theorem decodeBase64Url_eq_some {encoded bytes : Bytes} (h : decodeBase64Url encoded = some bytes) :
    encodeBase64Url bytes = encoded ∧ encoded ≠ [] ∧ encoded.length ≤ maxEncodedCursorBytes := by
  rw [decodeBase64Url] at h
  obtain ⟨haccepted, h⟩ := Option.ite_none_left_eq_some.mp h
  rw [not_or, not_or, Nat.not_lt] at haccepted
  exact ⟨encodeFrom_decodeFrom encoded bytes 0 0 haccepted.2.2 h, haccepted.1, haccepted.2.1⟩

end InpxWebReader.Server
