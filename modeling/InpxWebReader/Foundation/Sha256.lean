import InpxWebReader.Foundation.Exception

/-!
# SHA-256 fingerprints

The digest itself comes from OpenSSL and is a parameter, `Sha256`; the program renders its 32
bytes as `sha256:` and 64 lower-case hexadecimal digits. `CollisionFree` says that the digest told
apart the byte strings of one set, which is all that is ever assumed of it.
-/

namespace InpxWebReader.Foundation

structure Sha256 where
  digest : Bytes → Bytes
  length_digest : ∀ bytes, (digest bytes).length = 32

/-- No two byte strings of `S` share a digest. -/
def Sha256.CollisionFree (sha : Sha256) (S : Set Bytes) : Prop :=
  ∀ a ∈ S, ∀ b ∈ S, sha.digest a = sha.digest b → a = b

/-- `hexDigits[n]`. -/
def hexDigit (n : Nat) : UInt8 :=
  if n < 10 then UInt8.ofNat (48 + n) else UInt8.ofNat (87 + n)

/-- The two hexadecimal digits of each byte. -/
def hexText : Bytes → Bytes
  | [] => []
  | b :: bytes => hexDigit (b.toNat / 16) :: hexDigit (b.toNat % 16) :: hexText bytes

def sha256Prefix : Bytes := ascii "sha256:"

/-- `CSha256Fingerprint::ComputeBytes`, and `ComputeFile` of a file with these bytes. -/
def Sha256.computeBytes (sha : Sha256) (bytes : Bytes) : Bytes :=
  sha256Prefix ++ hexText (sha.digest bytes)

def isAsciiHexDigit (b : UInt8) : Bool :=
  (48 ≤ b && b ≤ 57) || (97 ≤ b && b ≤ 102) || (65 ≤ b && b ≤ 70)

/-- `isLowerHex`: a digit of a rendered fingerprint. -/
def isLowerHex (b : UInt8) : Bool := (48 ≤ b && b ≤ 57) || (97 ≤ b && b ≤ 102)

/-- `CSha256Fingerprint::Normalize`. -/
def normalizeFingerprint (fingerprint : Bytes) : Except Failure Bytes :=
  let value := if sha256Prefix.isPrefixOf fingerprint
    then fingerprint.drop sha256Prefix.length else fingerprint
  if value.length ≠ 64 ∨ ¬value.all isAsciiHexDigit then
    .error (runtimeError "Expected a SHA-256 fingerprint.")
  else .ok (sha256Prefix ++ toLowerAscii value)

/-! ### The rendered digest -/

theorem hexDigit_inj {m n : Nat} (hm : m < 16) (hn : n < 16) (h : hexDigit m = hexDigit n) :
    m = n := by
  have hall : ∀ m < 16, ∀ n < 16, hexDigit m = hexDigit n → m = n := by decide
  exact hall m hm n hn h

theorem hexText_inj {a b : Bytes} (h : hexText a = hexText b) : a = b := by
  induction a generalizing b with
  | nil =>
    cases b with
    | nil => rfl
    | cons y ys => exact absurd h (by simp [hexText])
  | cons x xs ih =>
    cases b with
    | nil => exact absurd h (by simp [hexText])
    | cons y ys =>
      simp only [hexText, List.cons.injEq] at h
      have hx := x.toNat_lt
      have hy := y.toNat_lt
      have hhigh := hexDigit_inj (by omega) (by omega) h.1
      have hlow := hexDigit_inj (by omega) (by omega) h.2.1
      have hxy : x = y := UInt8.toNat_inj.mp (by omega)
      rw [hxy, ih h.2.2]

theorem isLowerHex_hexDigit {n : Nat} (h : n < 16) : isLowerHex (hexDigit n) = true := by
  have hall : ∀ n < 16, isLowerHex (hexDigit n) = true := by decide
  exact hall n h

theorem isLowerHex_of_mem_hexText {bytes : Bytes} {c : UInt8} (h : c ∈ hexText bytes) :
    isLowerHex c = true := by
  induction bytes with
  | nil => exact absurd h List.not_mem_nil
  | cons b bytes ih =>
    have hb := b.toNat_lt
    rcases List.mem_cons.mp h with rfl | h
    · exact isLowerHex_hexDigit (by omega)
    · rcases List.mem_cons.mp h with rfl | h
      · exact isLowerHex_hexDigit (by omega)
      · exact ih h

@[simp] theorem length_hexText (bytes : Bytes) : (hexText bytes).length = 2 * bytes.length := by
  induction bytes with
  | nil => rfl
  | cons b bytes ih =>
    simp only [hexText, List.length_cons, ih]
    omega

theorem length_hexText_digest (sha : Sha256) (bytes : Bytes) :
    (hexText (sha.digest bytes)).length = 64 := by
  rw [length_hexText, sha.length_digest]

theorem Sha256.digest_eq_of_computeBytes_eq {sha : Sha256} {a b : Bytes}
    (h : sha.computeBytes a = sha.computeBytes b) : sha.digest a = sha.digest b :=
  hexText_inj (List.append_cancel_left h)

theorem toLowerAscii_of_isLowerHex {value : Bytes} (h : ∀ c ∈ value, isLowerHex c = true) :
    toLowerAscii value = value := by
  have hc : ∀ c : UInt8, isLowerHex c = true → toLowerAsciiCharacter c = c := by
    intro c hc
    unfold isLowerHex at hc
    unfold toLowerAsciiCharacter
    grind
  unfold toLowerAscii
  conv_rhs => rw [← List.map_id value]
  exact List.map_congr_left fun c hm => hc c (h c hm)

theorem isAsciiHexDigit_of_isLowerHex {c : UInt8} (h : isLowerHex c = true) :
    isAsciiHexDigit c = true := by
  unfold isLowerHex at h
  unfold isAsciiHexDigit
  grind

/-- A rendered digest is its own normal form, with and without the prefix. -/
theorem normalizeFingerprint_computeBytes (sha : Sha256) (bytes : Bytes) :
    normalizeFingerprint (sha.computeBytes bytes) = .ok (sha.computeBytes bytes) := by
  have hp : sha256Prefix.isPrefixOf (sha.computeBytes bytes) = true :=
    List.isPrefixOf_iff_prefix.mpr (List.prefix_append _ _)
  have hall : (hexText (sha.digest bytes)).all isAsciiHexDigit = true :=
    List.all_eq_true.mpr fun c hc => isAsciiHexDigit_of_isLowerHex (isLowerHex_of_mem_hexText hc)
  have hd : (sha.computeBytes bytes).drop sha256Prefix.length = hexText (sha.digest bytes) :=
    List.drop_left
  unfold normalizeFingerprint
  simp only [hp, hd, if_true, length_hexText_digest, hall, ne_eq, not_true_eq_false, or_self,
    if_false, toLowerAscii_of_isLowerHex fun c hc => isLowerHex_of_mem_hexText hc]
  rfl

end InpxWebReader.Foundation
