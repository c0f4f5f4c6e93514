import InpxWebReader.Foundation.Utf8

/-!
# Texts as code points

A valid text is the encoding of exactly one list of code points. The decoder and the encoder of the
program are inverse to each other, one code point at a time.
-/

namespace InpxWebReader.Unicode

open Foundation

def encodeUtf8 (text : List Char) : Bytes := text.flatMap fun c => utf8OfCodePoint c.toNat

/-! ### One code point -/

section Bounds

variable {b₀ b₁ b₂ b₃ : UInt8} {rest : Bytes}

theorem isUtf8ContinuationByte_iff :
    isUtf8ContinuationByte b₀ = true ↔ 128 ≤ b₀.toNat ∧ b₀.toNat ≤ 191 := by
  simp [isUtf8ContinuationByte, UInt8.le_iff_toNat_le]

theorem isValidLead3_iff : isValidLead3 b₀ b₁ = true ↔
    b₀.toNat = 224 ∧ 160 ≤ b₁.toNat ∧ b₁.toNat ≤ 191 ∨
      225 ≤ b₀.toNat ∧ b₀.toNat ≤ 239 ∧ b₀.toNat ≠ 237 ∧ 128 ≤ b₁.toNat ∧ b₁.toNat ≤ 191 ∨
      b₀.toNat = 237 ∧ 128 ≤ b₁.toNat ∧ b₁.toNat ≤ 159 := by
  simp only [isValidLead3, Bool.or_eq_true, Bool.and_eq_true, decide_eq_true_eq,
    UInt8.le_iff_toNat_le, ← UInt8.toNat_inj, UInt8.reduceToNat]
  omega

theorem isValidLead4_iff : isValidLead4 b₀ b₁ = true ↔
    b₀.toNat = 240 ∧ 144 ≤ b₁.toNat ∧ b₁.toNat ≤ 191 ∨
      241 ≤ b₀.toNat ∧ b₀.toNat ≤ 243 ∧ 128 ≤ b₁.toNat ∧ b₁.toNat ≤ 191 ∨
      b₀.toNat = 244 ∧ 128 ≤ b₁.toNat ∧ b₁.toNat ≤ 143 := by
  simp only [isValidLead4, Bool.or_eq_true, Bool.and_eq_true, decide_eq_true_eq,
    UInt8.le_iff_toNat_le, ← UInt8.toNat_inj, UInt8.reduceToNat]
  omega

theorem tryDecodeUtf8CodePoint_one (h : b₀.toNat < 128) :
    tryDecodeUtf8CodePoint (b₀ :: rest) = some (b₀.toNat, rest) := by
  have hlt : b₀ < 0x80 := by
    rw [UInt8.lt_iff_toNat_lt]
    exact h
  simp only [tryDecodeUtf8CodePoint, if_pos hlt]

theorem tryDecodeUtf8CodePoint_two (h₀ : 194 ≤ b₀.toNat) (h₀' : b₀.toNat ≤ 223)
    (h₁ : isUtf8ContinuationByte b₁ = true) :
    tryDecodeUtf8CodePoint (b₀ :: b₁ :: rest) =
      some (b₀.toNat % 32 * 64 + b₁.toNat % 64, rest) := by
  simp only [tryDecodeUtf8CodePoint, UInt8.lt_iff_toNat_lt, UInt8.le_iff_toNat_le,
    UInt8.reduceToNat, payload, h₁, Bool.not_true, Bool.false_eq_true, or_false]
  rw [if_neg (by omega), if_pos (by omega), if_neg (by omega)]

theorem tryDecodeUtf8CodePoint_three (h : isValidLead3 b₀ b₁ = true)
    (h₂ : isUtf8ContinuationByte b₂ = true) :
    tryDecodeUtf8CodePoint (b₀ :: b₁ :: b₂ :: rest) =
      some ((b₀.toNat % 16 * 64 + b₁.toNat % 64) * 64 + b₂.toNat % 64, rest) := by
  have hlead := isValidLead3_iff.mp h
  simp only [tryDecodeUtf8CodePoint, UInt8.lt_iff_toNat_lt, UInt8.le_iff_toNat_le,
    UInt8.reduceToNat, payload, h, h₂, Bool.and_self, if_true]
  rw [if_neg (by omega), if_neg (by omega), if_pos (by omega)]

theorem tryDecodeUtf8CodePoint_four (h : isValidLead4 b₀ b₁ = true)
    (h₂ : isUtf8ContinuationByte b₂ = true) (h₃ : isUtf8ContinuationByte b₃ = true) :
    tryDecodeUtf8CodePoint (b₀ :: b₁ :: b₂ :: b₃ :: rest) =
      some (((b₀.toNat % 8 * 64 + b₁.toNat % 64) * 64 + b₂.toNat % 64) * 64 + b₃.toNat % 64,
        rest) := by
  have hlead := isValidLead4_iff.mp h
  simp only [tryDecodeUtf8CodePoint, UInt8.lt_iff_toNat_lt, UInt8.le_iff_toNat_le,
    UInt8.reduceToNat, payload, h, h₂, h₃, Bool.and_self, if_true]
  rw [if_neg (by omega), if_neg (by omega), if_neg (by omega), if_pos (by omega)]

/-- A code point that is read is one byte, or a sequence of two, three or four. -/
theorem tryDecodeUtf8CodePoint_cases {value : Bytes} {codePoint : Nat}
    (h : tryDecodeUtf8CodePoint value = some (codePoint, rest)) :
    (∃ b₀, value = b₀ :: rest ∧ b₀.toNat < 128 ∧ codePoint = b₀.toNat) ∨
    (∃ b₀ b₁, value = b₀ :: b₁ :: rest ∧ 194 ≤ b₀.toNat ∧ b₀.toNat ≤ 223 ∧
      isUtf8ContinuationByte b₁ = true ∧ codePoint = b₀.toNat % 32 * 64 + b₁.toNat % 64) ∨
    (∃ b₀ b₁ b₂, value = b₀ :: b₁ :: b₂ :: rest ∧ isValidLead3 b₀ b₁ = true ∧
      isUtf8ContinuationByte b₂ = true ∧
      codePoint = (b₀.toNat % 16 * 64 + b₁.toNat % 64) * 64 + b₂.toNat % 64) ∨
    ∃ b₀ b₁ b₂ b₃, value = b₀ :: b₁ :: b₂ :: b₃ :: rest ∧ isValidLead4 b₀ b₁ = true ∧
      isUtf8ContinuationByte b₂ = true ∧ isUtf8ContinuationByte b₃ = true ∧
      codePoint =
        ((b₀.toNat % 8 * 64 + b₁.toNat % 64) * 64 + b₂.toNat % 64) * 64 + b₃.toNat % 64 := by
  rcases value with _ | ⟨b₀, value⟩
  · cases h
  rw [tryDecodeUtf8CodePoint.eq_def] at h
  simp only [UInt8.lt_iff_toNat_lt, UInt8.le_iff_toNat_le, UInt8.reduceToNat, payload] at h
  split at h
  · rename_i hone
    injection h with h
    injection h with hc hrest
    exact .inl ⟨b₀, by rw [hrest], hone, hc.symm⟩
  split at h
  · rename_i htwo
    split at h
    · rename_i b₁ value
      split at h
      · cases h
      · rename_i hcont
        rw [not_or, Bool.not_eq_true', Bool.not_eq_false] at hcont
        injection h with h
        injection h with hc hrest
        exact .inr (.inl ⟨b₀, b₁, by rw [hrest], by omega, htwo.2, hcont.2, hc.symm⟩)
    · cases h
  split at h
  · split at h
    · rename_i b₁ b₂ value
      split at h
      · rename_i hvalid
        rw [Bool.and_eq_true] at hvalid
        injection h with h
        injection h with hc hrest
        exact .inr (.inr (.inl ⟨b₀, b₁, b₂, by rw [hrest], hvalid.1, hvalid.2, hc.symm⟩))
      · cases h
    · cases h
  split at h
  · split at h
    · rename_i b₁ b₂ b₃ value
      split at h
      · rename_i hvalid
        rw [Bool.and_eq_true, Bool.and_eq_true] at hvalid
        injection h with h
        injection h with hc hrest
        exact .inr (.inr (.inr ⟨b₀, b₁, b₂, b₃, by rw [hrest], hvalid.1.1, hvalid.1.2, hvalid.2,
          hc.symm⟩))
      · cases h
    · cases h
  · cases h

end Bounds

theorem toNat_ofNat_of_lt {n : Nat} (h : n < 256) : (UInt8.ofNat n).toNat = n := by
  rw [UInt8.toNat_ofNat']
  omega

theorem ofNat_eq_of_eq_toNat {n : Nat} {b : UInt8} (h : n = b.toNat) : UInt8.ofNat n = b := by
  rw [h, UInt8.ofNat_toNat]

theorem tryDecodeUtf8CodePoint_utf8OfCodePoint {codePoint : Nat} (h : codePoint.isValidChar)
    (rest : Bytes) :
    tryDecodeUtf8CodePoint (utf8OfCodePoint codePoint ++ rest) = some (codePoint, rest) := by
  have hbound : codePoint < 0x110000 := by
    rcases h with h | h
    · exact Nat.lt_trans h (by decide)
    · exact h.2
  have hsurrogate : codePoint < 0xD800 ∨ 0xDFFF < codePoint := h.imp_right fun h => h.1
  have hcont : ∀ n, isUtf8ContinuationByte (UInt8.ofNat (0x80 + n % 64)) = true := by
    intro n
    rw [isUtf8ContinuationByte_iff, toNat_ofNat_of_lt (by omega)]
    omega
  rw [utf8OfCodePoint]
  split_ifs with h₁ h₂ h₃
  · rw [List.singleton_append, tryDecodeUtf8CodePoint_one] <;>
      rw [toNat_ofNat_of_lt (by omega)]
    omega
  · rw [List.cons_append, List.singleton_append, tryDecodeUtf8CodePoint_two _ _ (hcont _)] <;>
      rw [toNat_ofNat_of_lt (by omega)]
    · rw [toNat_ofNat_of_lt (by omega)]
      congr 2
      omega
    · omega
    · omega
  · rw [List.cons_append, List.cons_append, List.singleton_append,
      tryDecodeUtf8CodePoint_three _ (hcont _)]
    · rw [toNat_ofNat_of_lt (by omega), toNat_ofNat_of_lt (by omega),
        toNat_ofNat_of_lt (by omega)]
      congr 2
      omega
    · rw [isValidLead3_iff, toNat_ofNat_of_lt (by omega), toNat_ofNat_of_lt (by omega)]
      omega
  · rw [List.cons_append, List.cons_append, List.cons_append, List.singleton_append,
      tryDecodeUtf8CodePoint_four _ (hcont _) (hcont _)]
    · rw [toNat_ofNat_of_lt (by omega), toNat_ofNat_of_lt (by omega),
        toNat_ofNat_of_lt (by omega), toNat_ofNat_of_lt (by omega)]
      congr 2
      omega
    · rw [isValidLead4_iff, toNat_ofNat_of_lt (by omega), toNat_ofNat_of_lt (by omega)]
      omega

theorem utf8OfCodePoint_of_tryDecodeUtf8CodePoint {value rest : Bytes} {codePoint : Nat}
    (h : tryDecodeUtf8CodePoint value = some (codePoint, rest)) :
    codePoint.isValidChar ∧ value = utf8OfCodePoint codePoint ++ rest := by
  rcases tryDecodeUtf8CodePoint_cases h with ⟨b₀, rfl, h₀, rfl⟩ |
    ⟨b₀, b₁, rfl, h₀, h₀', h₁, rfl⟩ | ⟨b₀, b₁, b₂, rfl, hlead, h₂, rfl⟩ |
    ⟨b₀, b₁, b₂, b₃, rfl, hlead, h₂, h₃, rfl⟩
  · refine ⟨.inl (by omega), ?_⟩
    rw [utf8OfCodePoint, if_pos (by omega), UInt8.ofNat_toNat]
    rfl
  · rw [isUtf8ContinuationByte_iff] at h₁
    refine ⟨.inl (by omega), ?_⟩
    rw [utf8OfCodePoint, if_neg (by omega), if_pos (by omega),
      ofNat_eq_of_eq_toNat (b := b₀) (by omega), ofNat_eq_of_eq_toNat (b := b₁) (by omega)]
    rfl
  · rw [isValidLead3_iff] at hlead
    rw [isUtf8ContinuationByte_iff] at h₂
    refine ⟨?_, ?_⟩
    · rw [Nat.isValidChar]
      omega
    · rw [utf8OfCodePoint, if_neg (by omega), if_neg (by omega), if_pos (by omega),
        ofNat_eq_of_eq_toNat (b := b₀) (by omega), ofNat_eq_of_eq_toNat (b := b₁) (by omega),
        ofNat_eq_of_eq_toNat (b := b₂) (by omega)]
      rfl
  · rw [isValidLead4_iff] at hlead
    rw [isUtf8ContinuationByte_iff] at h₂ h₃
    refine ⟨.inr (by omega), ?_⟩
    rw [utf8OfCodePoint, if_neg (by omega), if_neg (by omega), if_neg (by omega),
      ofNat_eq_of_eq_toNat (b := b₀) (by omega), ofNat_eq_of_eq_toNat (b := b₁) (by omega),
      ofNat_eq_of_eq_toNat (b := b₂) (by omega), ofNat_eq_of_eq_toNat (b := b₃) (by omega)]
    rfl

/-! ### Texts -/

@[simp] theorem encodeUtf8_nil : encodeUtf8 [] = [] := rfl

@[simp] theorem encodeUtf8_cons (c : Char) (text : List Char) :
    encodeUtf8 (c :: text) = utf8OfCodePoint c.toNat ++ encodeUtf8 text := rfl

@[simp] theorem encodeUtf8_append (text text' : List Char) :
    encodeUtf8 (text ++ text') = encodeUtf8 text ++ encodeUtf8 text' := List.flatMap_append ..

theorem tryDecodeUtf8CodePoint_encodeUtf8 (c : Char) (rest : Bytes) :
    tryDecodeUtf8CodePoint (utf8OfCodePoint c.toNat ++ rest) = some (c.toNat, rest) :=
  tryDecodeUtf8CodePoint_utf8OfCodePoint c.valid rest

theorem utf8OfCodePoint_ne_nil (codePoint : Nat) : utf8OfCodePoint codePoint ≠ [] := by
  rw [utf8OfCodePoint]
  split_ifs <;> exact List.cons_ne_nil _ _

/-- A text is valid exactly if it encodes code points. -/
theorem validUtf8_iff_encodeUtf8 {value : Bytes} :
    ValidUtf8 value ↔ ∃ text : List Char, encodeUtf8 text = value := by
  constructor
  · intro h
    induction h with
    | nil => exact ⟨[], rfl⟩
    | step decode _ ih =>
      obtain ⟨text, rfl⟩ := ih
      obtain ⟨hvalid, rfl⟩ := utf8OfCodePoint_of_tryDecodeUtf8CodePoint decode
      refine ⟨Char.ofNatAux _ hvalid :: text, ?_⟩
      rw [encodeUtf8_cons]
      congr 2
  · rintro ⟨text, rfl⟩
    induction text with
    | nil => exact .nil
    | cons c text ih => exact .step (tryDecodeUtf8CodePoint_encodeUtf8 c _) ih

theorem validUtf8_encodeUtf8 (text : List Char) : ValidUtf8 (encodeUtf8 text) :=
  validUtf8_iff_encodeUtf8.mpr ⟨text, rfl⟩

/-- Two lists of code points with one encoding are the same. -/
theorem flatMap_utf8OfCodePoint_inj : ∀ {codePoints codePoints' : List Nat},
    (∀ c ∈ codePoints, c.isValidChar) → (∀ c ∈ codePoints', c.isValidChar) →
    codePoints.flatMap utf8OfCodePoint = codePoints'.flatMap utf8OfCodePoint →
      codePoints = codePoints'
  | [], [], _, _, _ => rfl
  | [], c :: _, _, _, h => absurd h.symm (by simp [utf8OfCodePoint_ne_nil])
  | c :: _, [], _, _, h => absurd h (by simp [utf8OfCodePoint_ne_nil])
  | c :: codePoints, c' :: codePoints', hvalid, hvalid', h => by
    rw [List.flatMap_cons, List.flatMap_cons] at h
    have hread := tryDecodeUtf8CodePoint_utf8OfCodePoint (hvalid c List.mem_cons_self)
      (codePoints.flatMap utf8OfCodePoint)
    rw [h, tryDecodeUtf8CodePoint_utf8OfCodePoint (hvalid' c' List.mem_cons_self)] at hread
    injection hread with hread
    injection hread with hc hrest
    rw [hc, flatMap_utf8OfCodePoint_inj (fun c hc => hvalid c (List.mem_cons_of_mem _ hc))
      (fun c hc => hvalid' c (List.mem_cons_of_mem _ hc)) hrest.symm]

end InpxWebReader.Unicode
