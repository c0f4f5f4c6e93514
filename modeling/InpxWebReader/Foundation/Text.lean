import Mathlib.Algebra.BigOperators.Group.List.Basic
import Mathlib.Algebra.Order.Ring.Int
import Mathlib.Algebra.Order.Ring.Nat
import Mathlib.Data.Bool.AllAny
import Mathlib.Data.List.Basic
import Mathlib.Tactic.Common

/-!
# Texts

A `std::string` is a list of bytes. `ascii` writes the literals of the source, `decimal` is
`std::to_string` of an unsigned number.

`decimal_inj` and `hyphen_notMem_decimal` are what makes an identifier built from two decimal
numbers joined by a hyphen readable back.
-/

namespace InpxWebReader

/-- The bytes of a `std::string` or of a file. -/
abbrev Bytes := List UInt8

instance : LawfulBEq Bytes := inferInstance

namespace Foundation

def asciiByte (c : Char) : UInt8 := UInt8.ofNat c.toNat

def ascii (s : String) : Bytes := s.toList.map asciiByte

/-- A string literal of the source with letters outside ASCII. -/
def utf8 (s : String) : Bytes := s.toUTF8.data.toList

/-- `std::to_string` of an unsigned integer. -/
def decimal (n : Nat) : Bytes := (Nat.toDigits 10 n).map asciiByte

/-- `std::to_string` of a signed integer. -/
def decimalInt : Int → Bytes
  | .ofNat n => decimal n
  | .negSucc n => asciiByte '-' :: decimal (n + 1)

def toLowerAsciiCharacter (b : UInt8) : UInt8 :=
  if 65 ≤ b ∧ b ≤ 90 then b + 32 else b

def toLowerAscii (value : Bytes) : Bytes := value.map toLowerAsciiCharacter

def endsWithAsciiInsensitive (value suffix : Bytes) : Bool :=
  suffix.length ≤ value.length &&
    toLowerAscii (value.drop (value.length - suffix.length)) = toLowerAscii suffix

/-- `'text'`: a text between single quotes, as the messages quote names. -/
def quoted (text : Bytes) : Bytes := ascii "'" ++ text ++ ascii "'"

@[simp] theorem length_toLowerAscii (value : Bytes) :
    (toLowerAscii value).length = value.length := List.length_map _

theorem toLowerAscii_idem (value : Bytes) :
    toLowerAscii (toLowerAscii value) = toLowerAscii value := by
  have h : ∀ b : UInt8, toLowerAsciiCharacter (toLowerAsciiCharacter b) =
      toLowerAsciiCharacter b := by
    intro b
    unfold toLowerAsciiCharacter
    grind
  unfold toLowerAscii
  rw [List.map_map]
  exact List.map_congr_left fun b _ => h b

/-! ### Decimal numbers -/

theorem toNat_asciiByte_of_isDigit {c : Char} (h : c.isDigit = true) :
    (asciiByte c).toNat = c.toNat ∧ 48 ≤ c.toNat := by
  simp only [Char.isDigit, Bool.and_eq_true, decide_eq_true_eq] at h
  have hlow : 48 ≤ c.toNat := UInt32.le_iff_toNat_le.mp h.1
  have hhigh : c.toNat ≤ 57 := UInt32.le_iff_toNat_le.mp h.2
  rw [asciiByte]
  rw [UInt8.toNat_ofNat', Nat.mod_eq_of_lt (by omega)]
  exact ⟨rfl, hlow⟩

theorem toNat_asciiByte_bounds {c : Char} (h : c.isDigit = true) :
    48 ≤ (asciiByte c).toNat ∧ (asciiByte c).toNat ≤ 57 := by
  rw [(toNat_asciiByte_of_isDigit h).1]
  simp only [Char.isDigit, Bool.and_eq_true, decide_eq_true_eq] at h
  exact ⟨UInt32.le_iff_toNat_le.mp h.1, UInt32.le_iff_toNat_le.mp h.2⟩

theorem isDigit_of_mem_toDigits {n : Nat} {c : Char} (h : c ∈ Nat.toDigits 10 n) :
    c.isDigit = true :=
  Nat.isDigit_of_mem_toDigits (by decide) (by decide) h

theorem eq_of_map_asciiByte_eq {cs ds : List Char} (hc : ∀ c ∈ cs, c.isDigit = true)
    (hd : ∀ d ∈ ds, d.isDigit = true) (h : cs.map asciiByte = ds.map asciiByte) : cs = ds := by
  induction cs generalizing ds with
  | nil => exact (List.map_eq_nil_iff.mp h.symm).symm
  | cons c cs ih =>
    cases ds with
    | nil => exact absurd h (by simp)
    | cons d ds =>
      rw [List.map_cons, List.map_cons, List.cons.injEq] at h
      have hcd : c = d := by
        rw [← Char.toNat_inj, ← (toNat_asciiByte_of_isDigit (hc c (List.mem_cons_self ..))).1,
          ← (toNat_asciiByte_of_isDigit (hd d (List.mem_cons_self ..))).1, h.1]
      rw [hcd, ih (fun x hx => hc x (List.mem_cons_of_mem _ hx))
        (fun x hx => hd x (List.mem_cons_of_mem _ hx)) h.2]

theorem decimal_inj {m n : Nat} (h : decimal m = decimal n) : m = n := by
  have hd : Nat.toDigits 10 m = Nat.toDigits 10 n :=
    eq_of_map_asciiByte_eq (fun _ => isDigit_of_mem_toDigits)
      (fun _ => isDigit_of_mem_toDigits) h
  have := congrArg (fun cs => Nat.ofDigitChars 10 cs 0) hd
  simpa only [Nat.ofDigitChars_ten_toDigits] using this

theorem decimal_ne_nil (n : Nat) : decimal n ≠ [] := by
  intro h
  exact Nat.toDigits_ne_nil (List.map_eq_nil_iff.mp h)

theorem mem_decimal_bounds {n : Nat} {b : UInt8} (h : b ∈ decimal n) :
    48 ≤ b.toNat ∧ b.toNat ≤ 57 := by
  obtain ⟨c, hc, rfl⟩ := List.mem_map.mp h
  exact toNat_asciiByte_bounds (isDigit_of_mem_toDigits hc)

theorem hyphen_notMem_decimal (n : Nat) : asciiByte '-' ∉ decimal n := by
  intro h
  have hlow := (mem_decimal_bounds h).1
  have hhyphen : (asciiByte '-').toNat = 45 := rfl
  omega

theorem colon_notMem_decimal (n : Nat) : asciiByte ':' ∉ decimal n := by
  intro h
  have hhigh := (mem_decimal_bounds h).2
  have hcolon : (asciiByte ':').toNat = 58 := rfl
  omega

/-- What stands before the first separator and what follows it can be read back. -/
theorem append_separator_inj {separator : UInt8} {xs ys as bs : Bytes} (hx : separator ∉ xs)
    (hy : separator ∉ ys) (h : xs ++ separator :: as = ys ++ separator :: bs) :
    xs = ys ∧ as = bs := by
  have htake : ∀ zs cs : Bytes, separator ∉ zs →
      (zs ++ separator :: cs).takeWhile (· ≠ separator) = zs := by
    intro zs cs hz
    have hne : ∀ z ∈ zs, decide (z ≠ separator) = true := by
      intro z hm
      simp only [ne_eq, decide_eq_true_eq]
      exact fun he => hz (he ▸ hm)
    rw [List.takeWhile_append_of_pos hne]
    simp
  have hxy := congrArg (List.takeWhile (· ≠ separator)) h
  rw [htake _ _ hx, htake _ _ hy] at hxy
  rw [hxy, List.append_right_inj, List.cons.injEq] at h
  exact ⟨hxy, h.2⟩

theorem decimal_hyphen_inj {a b c d : Nat}
    (h : decimal a ++ asciiByte '-' :: decimal b = decimal c ++ asciiByte '-' :: decimal d) :
    a = c ∧ b = d := by
  obtain ⟨hac, hbd⟩ :=
    append_separator_inj (hyphen_notMem_decimal a) (hyphen_notMem_decimal c) h
  exact ⟨decimal_inj hac, decimal_inj hbd⟩

/-! ### Reading numbers -/

def isAsciiDigit (b : UInt8) : Bool := 48 ≤ b && b ≤ 57

def digitsValue (value : Bytes) : Nat := value.foldl (fun n b => 10 * n + (b.toNat - 48)) 0

/-- `std::from_chars` of an unsigned type below `limit`, where it takes the whole text. -/
def parseUnsigned (limit : Nat) (value : Bytes) : Option Nat :=
  if value ≠ [] ∧ value.all isAsciiDigit ∧ digitsValue value < limit then some (digitsValue value)
  else none

theorem isAsciiDigit_of_bounds {b : UInt8} (h : 48 ≤ b.toNat ∧ b.toNat ≤ 57) :
    isAsciiDigit b = true := by
  simp only [isAsciiDigit, Bool.and_eq_true, decide_eq_true_eq]
  exact ⟨UInt8.le_iff_toNat_le.mpr h.1, UInt8.le_iff_toNat_le.mpr h.2⟩

theorem digitsValue_decimal (n : Nat) : digitsValue (decimal n) = n := by
  have hcongr : ∀ (cs : List Char) (init : Nat), (∀ c ∈ cs, c.isDigit = true) →
      (cs.map asciiByte).foldl (fun n b => 10 * n + (b.toNat - 48)) init =
        Nat.ofDigitChars 10 cs init := by
    intro cs
    induction cs with
    | nil => exact fun init _ => rfl
    | cons c cs ih =>
      intro init hdigits
      rw [List.map_cons, List.foldl_cons, Nat.ofDigitChars_cons,
        (toNat_asciiByte_of_isDigit (hdigits c List.mem_cons_self)).1]
      exact ih _ fun x hx => hdigits x (List.mem_cons_of_mem _ hx)
  rw [digitsValue, decimal]
  rw [hcongr _ _ fun _ => isDigit_of_mem_toDigits]
  exact Nat.ofDigitChars_ten_toDigits

/-- What `std::to_string` wrote is read back. -/
theorem parseUnsigned_decimal {limit n : Nat} (h : n < limit) :
    parseUnsigned limit (decimal n) = some n := by
  have hdigits : (decimal n).all isAsciiDigit = true :=
    List.all_eq_true.mpr fun _ hb => isAsciiDigit_of_bounds (mem_decimal_bounds hb)
  rw [parseUnsigned]
  rw [digitsValue_decimal, if_pos ⟨decimal_ne_nil n, hdigits, h⟩]

end Foundation

end InpxWebReader
