import InpxWebReader.Foundation.Exception
import InpxWebReader.Library.Calendar

/-!
# Time points as texts

A time point is a signed count of nanoseconds of 64 bits. It is stored as the text of its second,
`2026-01-31T23:59:59Z`, and read back from it. The reader checks the form of the text, the date and
the time of day, and then multiplies the seconds without a check, so it accepts years that the count
does not reach.

What is proved rests on `parseTimePoint_eq_ok_iff`, which says that the accepted texts are those of
the times of four-digit years, and on `compare_formatTime`, which says that these texts compare as
the times do.
-/

namespace InpxWebReader.Database

open Foundation Calendar MixedRadix

/-- `std::chrono::system_clock::time_point`: the nanoseconds from 1970 on. -/
abbrev TimePoint := Int64

def nanoseconds : Int := 1000000000

/-! ### Writing -/

/-- `std::chrono::floor<std::chrono::seconds>`. -/
def floorSeconds (value : TimePoint) : Int := value.toInt / nanoseconds

/-- A number that is padded with zeros. -/
def padded (width n : Nat) : Bytes := (decimal n).leftpad width (asciiByte '0')

/-- `%Y`. -/
def formatYear (year : Int) : Bytes :=
  if year < 0 then ascii "-" ++ padded 4 year.natAbs else padded 4 year.natAbs

/-- The components between their separators. -/
def timestampText (year month day hour minute second : Bytes) : Bytes :=
  year ++ asciiByte '-' :: (month ++ asciiByte '-' :: (day ++ asciiByte 'T' :: (hour ++
    asciiByte ':' :: (minute ++ asciiByte ':' :: (second ++ [asciiByte 'Z'])))))

/-- `%Y-%m-%dT%H:%M:%SZ`. -/
def formatTime (time : DateTime) : Bytes :=
  timestampText (formatYear time.date.year) (padded 2 time.date.month) (padded 2 time.date.day)
    (padded 2 time.hour) (padded 2 time.minute) (padded 2 time.second)

def serializeTimePoint (value : TimePoint) : Bytes :=
  formatTime (DateTime.ofSeconds (floorSeconds value))

/-! ### Reading -/

/-- The error of a text that is no time stamp. -/
def timestampFailure (value : Bytes) : Failure :=
  .standard (ascii "Failed to parse sqlite timestamp: " ++ value)

/-- `std::from_chars` of an `int` that takes the whole text. -/
def fromCharsInt (value : Bytes) : Option Int :=
  if value.head? = some (asciiByte '-') then
    (parseUnsigned (2 ^ 31 + 1) value.tail).map fun n => -(n : Int)
  else (parseUnsigned (2 ^ 31) value).map fun n => (n : Int)

def component (value : Bytes) (offset length : Nat) : Bytes := (value.drop offset).take length

def parseIntComponent (value : Bytes) (offset length : Nat) : Except Failure Int :=
  match fromCharsInt (component value offset length) with
  | some number => .ok number
  | none => .error (timestampFailure value)

/-- What stands between the components. -/
def separators : List (Nat × Char) :=
  [(4, '-'), (7, '-'), (10, 'T'), (13, ':'), (16, ':'), (19, 'Z')]

/-- The test of `ValidateTimestampShape`. -/
def hasTimestampShape (value : Bytes) : Bool :=
  value.length = 20 &&
    (separators.all fun separator => value[separator.1]? = some (asciiByte separator.2)) &&
    (List.range value.length).all fun index =>
      separators.any (fun separator => separator.1 = index) || isAsciiDigit (value.getD index 0)

def validateTimestampShape (value : Bytes) : Except Failure Unit :=
  if hasTimestampShape value then .ok () else .error (timestampFailure value)

/-- `std::chrono::year_month_day::ok`. -/
def isDate (date : YearMonthDay) : Prop :=
  (-32767 ≤ date.year ∧ date.year ≤ 32767) ∧ date.Ok

instance (date : YearMonthDay) : Decidable (isDate date) := inferInstanceAs (Decidable (_ ∧ _))

/-- The time point of a number of seconds. The multiplication is that of the 64-bit count. -/
def timePointOfSeconds (seconds : Int) : TimePoint := Int64.ofInt (seconds * nanoseconds)

def parseTimePoint (value : Bytes) : Except Failure TimePoint := do
  validateTimestampShape value
  let year ← parseIntComponent value 0 4
  let month ← parseIntComponent value 5 2
  let day ← parseIntComponent value 8 2
  let hour ← parseIntComponent value 11 2
  let minute ← parseIntComponent value 14 2
  let second ← parseIntComponent value 17 2
  let date : YearMonthDay := ⟨year, month.toNat, day.toNat⟩
  if ¬isDate date ∨ hour < 0 ∨ hour > 23 ∨ minute < 0 ∨ minute > 59 ∨ second < 0 ∨ second > 59 then
    .error (timestampFailure value)
  else
    .ok (timePointOfSeconds (date.dayNumber * 86400 + hour * 3600 + minute * 60 + second))

/-! ### Digits -/

def digitBytes (ds : List Nat) : Bytes := ds.map fun d => UInt8.ofNat (48 + d)

theorem toNat_digit {d : Nat} (h : d < 10) : (UInt8.ofNat (48 + d)).toNat = 48 + d := by
  rw [UInt8.toNat_ofNat', Nat.mod_eq_of_lt (by omega)]

theorem decimal_digit {d : Nat} (h : d < 10) : decimal d = digitBytes [d] := by
  have hall : ∀ d < 10, decimal d = digitBytes [d] := by decide
  exact hall d h

theorem decimal_of_le {n : Nat} (h : 10 ≤ n) :
    decimal n = decimal (n / 10) ++ digitBytes [n % 10] := by
  rw [← decimal_digit (Nat.mod_lt n (by decide)), decimal, decimal, decimal, ← List.map_append,
    Nat.toDigits_append_toDigits (by decide) (by omega) (Nat.mod_lt n (by decide)),
    Nat.div_add_mod]

theorem leftpad_append_singleton {α : Type} (width : Nat) (a x : α) (xs : List α) :
    (xs ++ [x]).leftpad (width + 1) a = xs.leftpad width a ++ [x] := by
  rw [List.leftpad, List.leftpad, List.length_append, List.length_singleton,
    Nat.add_sub_add_right, List.append_assoc]

/-- A padded number is written with its digits of that width. -/
theorem padded_eq {width n : Nat} (h : n < 10 ^ (width + 1)) :
    padded (width + 1) n = digitBytes (digits 10 (width + 1) n) := by
  induction width generalizing n with
  | zero =>
    have hn : n < 10 := by rwa [Nat.zero_add, Nat.pow_one] at h
    rw [padded, decimal_digit hn, digits, digits, Nat.mod_eq_of_lt hn]
    rfl
  | succ width ih =>
    rw [Nat.pow_succ'] at h
    rw [digits, digitBytes, List.map_append, ← digitBytes, ← digitBytes,
      ← ih (Nat.div_lt_of_lt_mul h), padded, padded]
    by_cases hn : n < 10
    · rw [Nat.div_eq_of_lt hn, Nat.mod_eq_of_lt hn, decimal_digit hn]
      show List.leftpad (width + 1 + 1) _ ([] ++ [_]) = List.leftpad (width + 1) _ ([] ++ [_]) ++ [_]
      rw [leftpad_append_singleton, leftpad_append_singleton, List.leftpad, List.leftpad,
        List.append_nil, List.append_nil, List.length_nil, Nat.sub_zero, Nat.sub_zero,
        List.replicate_succ']
      rfl
    · rw [decimal_of_le (Nat.le_of_not_lt hn)]
      exact leftpad_append_singleton (width + 1) _ _ _

def IsNumber (width : Nat) (text : Bytes) : Prop :=
  text.length = width ∧ ∀ b ∈ text, isAsciiDigit b = true

theorem digitsValue_append (text : Bytes) (b : UInt8) :
    digitsValue (text ++ [b]) = 10 * digitsValue text + (b.toNat - 48) := by
  rw [digitsValue, List.foldl_append]
  rfl

theorem isNumber_digitBytes {ds : List Nat} (h : ∀ d ∈ ds, d < 10) :
    IsNumber ds.length (digitBytes ds) := by
  refine ⟨List.length_map _, fun b hb => ?_⟩
  obtain ⟨d, hd, rfl⟩ := List.mem_map.mp hb
  have hlt := h d hd
  exact isAsciiDigit_of_bounds (by rw [toNat_digit hlt]; omega)

theorem IsNumber.eq_digitBytes {width : Nat} {text : Bytes} (h : IsNumber width text) :
    ∃ ds : List Nat, text = digitBytes ds ∧ ds.length = width ∧ ∀ d ∈ ds, d < 10 := by
  have hbyte : ∀ b ∈ text, 48 ≤ b.toNat ∧ b.toNat ≤ 57 := by
    intro b hb
    have hdigit := h.2 b hb
    rw [isAsciiDigit, Bool.and_eq_true, decide_eq_true_eq, decide_eq_true_eq] at hdigit
    exact ⟨UInt8.le_iff_toNat_le.mp hdigit.1, UInt8.le_iff_toNat_le.mp hdigit.2⟩
  refine ⟨text.map fun b => b.toNat - 48, ?_, by rw [List.length_map, h.1], ?_⟩
  · rw [digitBytes, List.map_map]
    refine (List.map_id text).symm.trans (List.map_congr_left fun b hb => ?_)
    have hb := hbyte b hb
    show b = UInt8.ofNat (48 + (b.toNat - 48))
    rw [Nat.add_sub_of_le hb.1, UInt8.ofNat_toNat]
  · intro d hd
    obtain ⟨b, hb, rfl⟩ := List.mem_map.mp hd
    have := hbyte b hb
    omega

theorem digitsValue_digitBytes {ds : List Nat} (h : ∀ d ∈ ds, d < 10) :
    digitsValue (digitBytes ds) = digitsNumber 10 ds := by
  induction ds using List.reverseRecOn with
  | nil => rfl
  | append_singleton ds d ih =>
    rw [digitBytes, List.map_append, ← digitBytes, List.map_singleton, digitsValue_append,
      ih fun d hd => h d (List.mem_append_left _ hd), digitsNumber_append,
      toNat_digit (h d (List.mem_append_right _ List.mem_cons_self)), Nat.add_sub_cancel_left]

theorem isNumber_padded {width n : Nat} (h : n < 10 ^ (width + 1)) :
    IsNumber (width + 1) (padded (width + 1) n) ∧ digitsValue (padded (width + 1) n) = n := by
  have hdigits : ∀ d ∈ digits 10 (width + 1) n, d < 10 := fun d hd =>
    lt_of_mem_digits (by decide) hd
  rw [padded_eq h, digitsValue_digitBytes hdigits, digitsNumber_digits h]
  exact ⟨by simpa only [length_digits] using isNumber_digitBytes hdigits, rfl⟩

theorem IsNumber.padded_digitsValue {width : Nat} {text : Bytes} (h : IsNumber (width + 1) text) :
    digitsValue text < 10 ^ (width + 1) ∧ padded (width + 1) (digitsValue text) = text := by
  obtain ⟨ds, rfl, hlength, hds⟩ := h.eq_digitBytes
  have hlt := digitsNumber_lt hds
  rw [hlength] at hlt
  rw [digitsValue_digitBytes hds, padded_eq hlt, ← hlength, digits_digitsNumber hds]
  exact ⟨hlength ▸ hlt, rfl⟩

theorem compare_padded {width m n : Nat} (hm : m < 10 ^ (width + 1)) (hn : n < 10 ^ (width + 1)) :
    compare (padded (width + 1) m) (padded (width + 1) n) = compare m n := by
  rw [padded_eq hm, padded_eq hn, digitBytes, digitBytes, compare_map, compare_digits hm hn]
  intro d hd e he
  have hd' := toNat_digit (lt_of_mem_digits (by decide) hd)
  have he' := toNat_digit (lt_of_mem_digits (by decide) he)
  show compareOfLessAndEq _ _ = compareOfLessAndEq d e
  simp only [compareOfLessAndEq, UInt8.lt_iff_toNat_lt, ← UInt8.toNat_inj, hd', he',
    Nat.add_lt_add_iff_left, Nat.add_left_cancel_iff]

/-! ### Time stamps -/

/-- A time of a year that four digits write. -/
def Writable (time : DateTime) : Prop := time.Ok ∧ 0 ≤ time.date.year ∧ time.date.year ≤ 9999

instance (time : DateTime) : Decidable (Writable time) := inferInstanceAs (Decidable (_ ∧ _))

/-- Components of the widths of a time stamp. -/
structure AreComponents (year month day hour minute second : Bytes) : Prop where
  year : IsNumber 4 year
  month : IsNumber 2 month
  day : IsNumber 2 day
  hour : IsNumber 2 hour
  minute : IsNumber 2 minute
  second : IsNumber 2 second

theorem formatYear_eq {year : Int} (h : 0 ≤ year) : formatYear year = padded 4 year.toNat := by
  rw [formatYear, if_neg (Int.not_lt.mpr h), ← Int.toNat_of_nonneg h]
  rfl

theorem Writable.month_day_lt {time : DateTime} (h : Writable time) :
    time.date.month < 10 ^ 2 ∧ time.date.day < 10 ^ 2 := by
  obtain ⟨⟨⟨⟨_, hmonth⟩, _, hday⟩, _⟩, _⟩ := h
  have hlength : ∀ leap, ∀ month ≤ 12, daysInMonth leap month ≤ 31 := by decide
  have hbound := hlength (isLeap time.date.year) _ hmonth
  omega

theorem Writable.areComponents {time : DateTime} (h : Writable time) :
    AreComponents (padded 4 time.date.year.toNat) (padded 2 time.date.month)
      (padded 2 time.date.day) (padded 2 time.hour) (padded 2 time.minute)
      (padded 2 time.second) := by
  obtain ⟨hmonth, hday⟩ := h.month_day_lt
  obtain ⟨⟨_, hhour, hminute, hsecond⟩, hyear, hlast⟩ := h
  exact ⟨(isNumber_padded (by omega)).1, (isNumber_padded hmonth).1, (isNumber_padded hday).1,
    (isNumber_padded (by omega)).1, (isNumber_padded (by omega)).1, (isNumber_padded (by omega)).1⟩

/-- Components of one width compare before what follows them. -/
theorem compare_component {width : Nat} {text text' rest rest' : Bytes} {separator : UInt8}
    (h : IsNumber width text) (h' : IsNumber width text') :
    compare (text ++ separator :: rest) (text' ++ separator :: rest') =
      (compare text text').then (compare rest rest') := by
  have hself : compare separator separator = .eq := Std.ReflCmp.compare_self
  rw [compare_append (h.1.trans h'.1.symm), List.compare_cons_cons, hself]
  rfl

theorem compare_formatTime {time time' : DateTime} (h : Writable time) (h' : Writable time') :
    compare (formatTime time) (formatTime time') = time.order time' := by
  have hparts := h.areComponents
  have hparts' := h'.areComponents
  obtain ⟨hmonth, hday⟩ := h.month_day_lt
  obtain ⟨hmonth', hday'⟩ := h'.month_day_lt
  obtain ⟨⟨_, hhour, hminute, hsecond⟩, hyear, hlast⟩ := h
  obtain ⟨⟨_, hhour', hminute', hsecond'⟩, hyear', hlast'⟩ := h'
  have hyears : compare time.date.year.toNat time'.date.year.toNat =
      compare time.date.year time'.date.year := compare_congr (by omega) (by omega) (by omega)
  rw [formatTime, formatTime, formatYear_eq hyear, formatYear_eq hyear', timestampText,
    timestampText, compare_component hparts.year hparts'.year,
    compare_component hparts.month hparts'.month, compare_component hparts.day hparts'.day,
    compare_component hparts.hour hparts'.hour, compare_component hparts.minute hparts'.minute,
    compare_component hparts.second hparts'.second, compare_padded (by omega) (by omega),
    compare_padded hmonth hmonth', compare_padded hday hday', compare_padded (by omega) (by omega),
    compare_padded (by omega) (by omega), compare_padded (by omega) (by omega), hyears,
    DateTime.order, YearMonthDay.order]
  have hend : compare ([] : Bytes) [] = .eq := rfl
  simp only [Ordering.then_assoc, hend, Ordering.then_eq]

/-- The years of four digits, in seconds. -/
theorem writable_iff {time : DateTime} (h : time.Ok) :
    Writable time ↔ -62167219200 ≤ time.seconds ∧ time.seconds < 253402300800 := by
  have hday := h.1.dayOfYear_lt
  have hsecond := h.secondOfDay_lt
  have hsucc := daysBeforeYear_succ time.date.year
  have hfirst : daysBeforeYear 0 = -366 := by decide
  have hlast : daysBeforeYear 10000 = 3652059 := by decide
  rw [DateTime.seconds, YearMonthDay.dayNumber, YearMonthDay.epoch]
  constructor
  · rintro ⟨_, hlow, hhigh⟩
    have hlow := daysBeforeYear_le hlow
    have hhigh : daysBeforeYear (time.date.year + 1) ≤ daysBeforeYear 10000 :=
      daysBeforeYear_le (by omega)
    omega
  · rintro ⟨hlow, hhigh⟩
    refine ⟨h, Int.not_lt.mp fun hneg => ?_, Int.not_lt.mp fun hlarge => ?_⟩
    · have hyear : daysBeforeYear (time.date.year + 1) ≤ daysBeforeYear 0 :=
        daysBeforeYear_le hneg
      omega
    · have hyear : daysBeforeYear 10000 ≤ daysBeforeYear time.date.year :=
        daysBeforeYear_le hlarge
      omega

/-! ### The form of a time stamp -/

theorem IsNumber.two {text : Bytes} (h : IsNumber 2 text) :
    ∃ a b, text = [a, b] ∧ isAsciiDigit a = true ∧ isAsciiDigit b = true := by
  obtain ⟨hlength, hdigits⟩ := h
  obtain ⟨a, b, rfl⟩ := List.length_eq_two.mp hlength
  exact ⟨a, b, rfl, hdigits a (by simp), hdigits b (by simp)⟩

theorem IsNumber.four {text : Bytes} (h : IsNumber 4 text) :
    ∃ xs ys, text = xs ++ ys ∧ IsNumber 2 xs ∧ IsNumber 2 ys := by
  refine ⟨text.take 2, text.drop 2, (List.take_append_drop 2 text).symm, ⟨?_, ?_⟩, ⟨?_, ?_⟩⟩
  · rw [List.length_take, h.1]
    rfl
  · exact fun b hb => h.2 b (List.mem_of_mem_take hb)
  · rw [List.length_drop, h.1]
  · exact fun b hb => h.2 b (List.mem_of_mem_drop hb)

theorem areComponents_of_shape {value : Bytes} (h : hasTimestampShape value = true) :
    AreComponents (component value 0 4) (component value 5 2) (component value 8 2)
        (component value 11 2) (component value 14 2) (component value 17 2) ∧
      value = timestampText (component value 0 4) (component value 5 2) (component value 8 2)
        (component value 11 2) (component value 14 2) (component value 17 2) := by
  rw [hasTimestampShape, Bool.and_eq_true, Bool.and_eq_true, decide_eq_true_eq] at h
  obtain ⟨⟨hlength, hseparators⟩, hdigits⟩ := h
  match value, hlength with
  | [y₀, y₁, y₂, y₃, c₄, mo₀, mo₁, c₇, d₀, d₁, c₁₀, h₀, h₁, c₁₃, mi₀, mi₁, c₁₆, s₀, s₁, c₁₉], _ =>
    simp only [separators, List.all_cons, List.all_nil, Bool.and_true, Bool.and_eq_true,
      decide_eq_true_eq] at hseparators
    obtain ⟨h₄, h₇, h₁₀, h₁₃, h₁₆, h₁₉⟩ := hseparators
    cases h₄; cases h₇; cases h₁₀; cases h₁₃; cases h₁₆; cases h₁₉
    refine ⟨⟨⟨rfl, ?_⟩, ⟨rfl, ?_⟩, ⟨rfl, ?_⟩, ⟨rfl, ?_⟩, ⟨rfl, ?_⟩, ⟨rfl, ?_⟩⟩, rfl⟩
    all_goals simp_all [List.range, List.range.loop, separators, component]

/-- Components make a text of the form, and are read from it. -/
theorem AreComponents.shape {year month day hour minute second : Bytes}
    (h : AreComponents year month day hour minute second) :
    hasTimestampShape (timestampText year month day hour minute second) = true ∧
      component (timestampText year month day hour minute second) 0 4 = year ∧
      component (timestampText year month day hour minute second) 5 2 = month ∧
      component (timestampText year month day hour minute second) 8 2 = day ∧
      component (timestampText year month day hour minute second) 11 2 = hour ∧
      component (timestampText year month day hour minute second) 14 2 = minute ∧
      component (timestampText year month day hour minute second) 17 2 = second := by
  obtain ⟨_, _, rfl, hfirst, hlast⟩ := h.year.four
  obtain ⟨y₀, y₁, rfl, hcentury⟩ := hfirst.two
  obtain ⟨y₂, y₃, rfl, hyear⟩ := hlast.two
  obtain ⟨mo₀, mo₁, rfl, hmonth⟩ := h.month.two
  obtain ⟨d₀, d₁, rfl, hday⟩ := h.day.two
  obtain ⟨h₀, h₁, rfl, hhour⟩ := h.hour.two
  obtain ⟨mi₀, mi₁, rfl, hminute⟩ := h.minute.two
  obtain ⟨s₀, s₁, rfl, hsecond⟩ := h.second.two
  refine ⟨?_, rfl, rfl, rfl, rfl, rfl, rfl⟩
  simp [hasTimestampShape, separators, timestampText, List.range, List.range.loop, hcentury, hyear,
    hmonth, hday, hhour, hminute, hsecond]

/-! ### Reading what was written -/

/-- The time that the digits of a text write. -/
def writtenTime (value : Bytes) : DateTime where
  date := ⟨digitsValue (component value 0 4), digitsValue (component value 5 2),
    digitsValue (component value 8 2)⟩
  hour := digitsValue (component value 11 2)
  minute := digitsValue (component value 14 2)
  second := digitsValue (component value 17 2)

theorem parseIntComponent_eq {value : Bytes} {offset length width : Nat} (hwidth : width < 9)
    (h : IsNumber (width + 1) (component value offset length)) :
    parseIntComponent value offset length = .ok (digitsValue (component value offset length)) := by
  generalize hread : component value offset length = text at h
  have hlt := h.padded_digitsValue.1
  have hlimit : 10 ^ (width + 1) ≤ 10 ^ 9 := Nat.pow_le_pow_right (by decide) hwidth
  obtain ⟨hlength, hdigits⟩ := h
  have hne : text ≠ [] := List.ne_nil_of_length_eq_add_one hlength
  have hminus : text.head? ≠ some (asciiByte '-') := fun hhead =>
    absurd (hdigits _ (List.mem_of_mem_head? hhead)) (by decide)
  rw [parseIntComponent, hread, fromCharsInt, if_neg hminus, parseUnsigned,
    if_pos ⟨hne, List.all_eq_true.mpr hdigits, by omega⟩]
  rfl

/-- The test of the reader, for the numbers of four and of two digits. -/
theorem not_ok_iff {time : DateTime} (hyear : 0 ≤ time.date.year ∧ time.date.year ≤ 9999) :
    (¬isDate time.date ∨ (time.hour : Int) < 0 ∨ (time.hour : Int) > 23 ∨ (time.minute : Int) < 0 ∨
      (time.minute : Int) > 59 ∨ (time.second : Int) < 0 ∨ (time.second : Int) > 59) ↔
      ¬time.Ok := by
  rw [isDate, and_iff_right (by omega), DateTime.Ok]
  by_cases hdate : time.date.Ok
  · simp only [hdate, not_true_eq_false, false_or, true_and]
    omega
  · simp only [hdate, not_false_eq_true, true_or, false_and]

theorem parseTimePoint_of_shape {value : Bytes} (h : hasTimestampShape value = true) :
    parseTimePoint value = if (writtenTime value).Ok then
      .ok (timePointOfSeconds (writtenTime value).seconds) else .error (timestampFailure value) := by
  obtain ⟨hparts, -⟩ := areComponents_of_shape h
  rw [parseTimePoint, validateTimestampShape, if_pos h, parseIntComponent_eq (by decide) hparts.year,
    parseIntComponent_eq (by decide) hparts.month, parseIntComponent_eq (by decide) hparts.day,
    parseIntComponent_eq (by decide) hparts.hour, parseIntComponent_eq (by decide) hparts.minute,
    parseIntComponent_eq (by decide) hparts.second]
  have hlt := hparts.year.padded_digitsValue.1
  have hyear : 0 ≤ (writtenTime value).date.year ∧ (writtenTime value).date.year ≤ 9999 :=
    ⟨Int.natCast_nonneg _, Int.ofNat_le.mpr (Nat.le_of_lt_succ hlt)⟩
  by_cases hok : (writtenTime value).Ok
  · rw [if_pos hok]
    refine (if_neg fun hbad => (not_ok_iff hyear).mp hbad hok).trans ?_
    rw [DateTime.seconds, DateTime.secondOfDay, Int.natCast_add, Int.natCast_add, Int.natCast_mul,
      Int.natCast_mul, ← Int.add_assoc, ← Int.add_assoc]
    rfl
  · rw [if_neg hok]
    exact if_pos ((not_ok_iff hyear).mpr hok)

theorem parseTimePoint_of_not_shape {value : Bytes} (h : ¬hasTimestampShape value = true) :
    parseTimePoint value = .error (timestampFailure value) := by
  rw [parseTimePoint, validateTimestampShape, if_neg h]
  rfl

theorem formatTime_writtenTime {value : Bytes} (h : hasTimestampShape value = true) :
    formatTime (writtenTime value) = value := by
  obtain ⟨hparts, htext⟩ := areComponents_of_shape h
  simp only [formatTime, writtenTime]
  rw [formatYear_eq (Int.natCast_nonneg _), Int.toNat_natCast, hparts.year.padded_digitsValue.2, hparts.month.padded_digitsValue.2,
    hparts.day.padded_digitsValue.2, hparts.hour.padded_digitsValue.2,
    hparts.minute.padded_digitsValue.2, hparts.second.padded_digitsValue.2, ← htext]

theorem Writable.formatTime {time : DateTime} (h : Writable time) :
    hasTimestampShape (formatTime time) = true ∧ writtenTime (formatTime time) = time := by
  obtain ⟨hshape, hyear, hmonth, hday, hhour, hminute, hsecond⟩ := h.areComponents.shape
  obtain ⟨hmonthLt, hdayLt⟩ := h.month_day_lt
  obtain ⟨⟨_, hhourLe, hminuteLe, hsecondLe⟩, hlow, hhigh⟩ := h
  rw [Database.formatTime, formatYear_eq hlow, writtenTime, hyear, hmonth, hday, hhour, hminute,
    hsecond, (isNumber_padded (by omega)).2, (isNumber_padded hmonthLt).2,
    (isNumber_padded hdayLt).2, (isNumber_padded (by omega)).2, (isNumber_padded (by omega)).2,
    (isNumber_padded (by omega)).2, Int.toNat_of_nonneg hlow]
  exact ⟨hshape, rfl⟩

/-- The accepted texts are those of the times of four-digit years. -/
theorem parseTimePoint_eq_ok_iff {value : Bytes} {result : TimePoint} :
    parseTimePoint value = .ok result ↔
      ∃ time, Writable time ∧ formatTime time = value ∧
        timePointOfSeconds time.seconds = result := by
  constructor
  · intro h
    by_cases hshape : hasTimestampShape value = true
    · rw [parseTimePoint_of_shape hshape] at h
      split at h
      · rename_i hok
        obtain ⟨hparts, -⟩ := areComponents_of_shape hshape
        have hlt := hparts.year.padded_digitsValue.1
        exact ⟨writtenTime value,
          ⟨hok, Int.natCast_nonneg _, Int.ofNat_le.mpr (Nat.le_of_lt_succ hlt)⟩,
          formatTime_writtenTime hshape, Except.ok.inj h⟩
      · cases h
    · rw [parseTimePoint_of_not_shape hshape] at h
      cases h
  · rintro ⟨time, hwritable, rfl, rfl⟩
    obtain ⟨hshape, htime⟩ := hwritable.formatTime
    rw [parseTimePoint_of_shape hshape, htime, if_pos hwritable.1]

/-! ### The range of the count -/

/-- The serialized time point is the text of its second. -/
theorem serializeTimePoint_spec (value : TimePoint) :
    ∃ time, Writable time ∧ time.seconds = floorSeconds value ∧
      serializeTimePoint value = formatTime time := by
  obtain ⟨hok, hseconds⟩ := DateTime.ofSeconds_spec (floorSeconds value)
  have hlow := value.le_toInt
  have hhigh := value.toInt_lt
  refine ⟨DateTime.ofSeconds (floorSeconds value), (writable_iff hok).mpr ?_, hseconds, rfl⟩
  rw [hseconds, floorSeconds, nanoseconds]
  omega

/-- The seconds whose nanoseconds the count reaches. -/
def IsRepresentable (seconds : Int) : Prop := -9223372036 ≤ seconds ∧ seconds ≤ 9223372036

instance (seconds : Int) : Decidable (IsRepresentable seconds) :=
  inferInstanceAs (Decidable (_ ∧ _))

theorem toInt_timePointOfSeconds {seconds : Int} (h : IsRepresentable seconds) :
    (timePointOfSeconds seconds).toInt = seconds * nanoseconds := by
  rw [IsRepresentable] at h
  rw [timePointOfSeconds, Int64.toInt_ofInt_of_le] <;> rw [nanoseconds] <;> omega

/-- The second of a time point that was made from a second. -/
theorem floorSeconds_timePointOfSeconds {seconds : Int} :
    floorSeconds (timePointOfSeconds seconds) = seconds ↔ IsRepresentable seconds := by
  constructor
  · intro h
    have hlow := (timePointOfSeconds seconds).le_toInt
    have hhigh := (timePointOfSeconds seconds).toInt_lt
    -- the second before the range wraps around to its other end
    have hwraps : floorSeconds (timePointOfSeconds (-9223372037)) ≠ -9223372037 := by decide
    have hne : seconds ≠ -9223372037 := by
      rintro rfl
      exact hwraps h
    rw [floorSeconds, nanoseconds] at h
    rw [IsRepresentable]
    omega
  · intro h
    rw [floorSeconds, toInt_timePointOfSeconds h, nanoseconds]
    exact Int.mul_ediv_cancel _ (by decide)

theorem parse_serialize (value : TimePoint) :
    parseTimePoint (serializeTimePoint value) = .ok (timePointOfSeconds (floorSeconds value)) := by
  obtain ⟨time, hwritable, hseconds, htext⟩ := serializeTimePoint_spec value
  exact parseTimePoint_eq_ok_iff.mpr ⟨time, hwritable, htext.symm, by rw [hseconds]⟩

/-- Parsing the text of a time point gives its second. -/
def ReadsBack (value : TimePoint) : Prop :=
  ∃ result, parseTimePoint (serializeTimePoint value) = .ok result ∧
    result.toInt = floorSeconds value * nanoseconds

theorem readsBack_iff {value : TimePoint} :
    ReadsBack value ↔ -9223372036 * nanoseconds ≤ value.toInt := by
  have hhigh := value.toInt_lt
  have hrange : IsRepresentable (floorSeconds value) ↔
      -9223372036 * nanoseconds ≤ value.toInt := by
    rw [IsRepresentable, floorSeconds, nanoseconds]
    omega
  rw [← hrange, ReadsBack, parse_serialize]
  constructor
  · rintro ⟨result, hresult, htoInt⟩
    cases hresult
    rw [← floorSeconds_timePointOfSeconds, floorSeconds, htoInt]
    exact Int.mul_ediv_cancel _ (by decide)
  · exact fun h => ⟨_, rfl, toInt_timePointOfSeconds h⟩

theorem compare_serializeTimePoint (value other : TimePoint) :
    compare (serializeTimePoint value) (serializeTimePoint other) =
      compare (floorSeconds value) (floorSeconds other) := by
  obtain ⟨time, hwritable, hseconds, htext⟩ := serializeTimePoint_spec value
  obtain ⟨time', hwritable', hseconds', htext'⟩ := serializeTimePoint_spec other
  rw [htext, htext', compare_formatTime hwritable hwritable', ← hseconds, ← hseconds',
    DateTime.compare_seconds hwritable.1 hwritable'.1]

theorem formatTime_inj {time time' : DateTime} (h : Writable time) (h' : Writable time')
    (heq : formatTime time = formatTime time') : time = time' := by
  rw [← h.formatTime.2, heq, h'.formatTime.2]

/-- An accepted text is that of the value it is read as exactly if the count reaches its second. -/
theorem serialize_parse_iff {time : DateTime} (h : Writable time) :
    serializeTimePoint (timePointOfSeconds time.seconds) = formatTime time ↔
      IsRepresentable time.seconds := by
  obtain ⟨time', hwritable, hseconds, htext⟩ :=
    serializeTimePoint_spec (timePointOfSeconds time.seconds)
  rw [htext, ← floorSeconds_timePointOfSeconds, ← hseconds]
  constructor
  · exact fun heq => congrArg DateTime.seconds (formatTime_inj hwritable h heq)
  · intro heq
    rw [← DateTime.ofSeconds_seconds hwritable.1, heq, DateTime.ofSeconds_seconds h.1]

/-- The texts from the first to the last second of the count. -/
def IsReached (text : Bytes) : Prop :=
  (compare (ascii "1677-09-21T00:12:44Z") text).isLE = true ∧
    (compare text (ascii "2262-04-11T23:47:16Z")).isLE = true

instance (text : Bytes) : Decidable (IsReached text) := inferInstanceAs (Decidable (_ ∧ _))

theorem isReached_iff {time : DateTime} (h : Writable time) :
    IsReached (formatTime time) ↔ IsRepresentable time.seconds := by
  have hfirst : Writable ⟨⟨1677, 9, 21⟩, 0, 12, 44⟩ := by decide
  have hlast : Writable ⟨⟨2262, 4, 11⟩, 23, 47, 16⟩ := by decide
  have htext : formatTime ⟨⟨1677, 9, 21⟩, 0, 12, 44⟩ = ascii "1677-09-21T00:12:44Z" := by
    decide
  have htext' : formatTime ⟨⟨2262, 4, 11⟩, 23, 47, 16⟩ = ascii "2262-04-11T23:47:16Z" := by
    decide
  have hseconds : DateTime.seconds ⟨⟨1677, 9, 21⟩, 0, 12, 44⟩ = -9223372036 := by decide
  have hseconds' : DateTime.seconds ⟨⟨2262, 4, 11⟩, 23, 47, 16⟩ = 9223372036 := by decide
  rw [IsReached, ← htext, ← htext', compare_formatTime hfirst h, compare_formatTime h hlast,
    ← DateTime.compare_seconds hfirst.1 h.1, ← DateTime.compare_seconds h.1 hlast.1, hseconds,
    hseconds', IsRepresentable]
  exact and_congr Int.isLE_compare Int.isLE_compare

/-! ### Round trips and order -/

/-- Time stamps sort. A time point is read back as its second exactly from the first second of the
count on, and an accepted text is that of its value exactly if the count reaches it. -/
theorem timestamps_iff (value other : TimePoint) (text : Bytes) :
    (ReadsBack value ↔ -9223372036 * nanoseconds ≤ value.toInt) ∧
      compare (serializeTimePoint value) (serializeTimePoint other) =
        compare (floorSeconds value) (floorSeconds other) ∧
      ∀ result, parseTimePoint text = .ok result →
        (serializeTimePoint result = text ↔ IsReached text) := by
  refine ⟨readsBack_iff, compare_serializeTimePoint value other, fun result hresult => ?_⟩
  obtain ⟨time, hwritable, rfl, rfl⟩ := parseTimePoint_eq_ok_iff.mp hresult
  rw [serialize_parse_iff hwritable, isReached_iff hwritable]

/-- The year 9999 is accepted and comes back as 1816. -/
theorem timestamps_year_9999 :
    parseTimePoint (ascii "9999-12-31T23:59:59Z") =
        .ok (Int64.ofInt (-4852116232933722624)) ∧
      serializeTimePoint (Int64.ofInt (-4852116232933722624)) = ascii "1816-03-30T05:56:07Z" ∧
      ascii "1816-03-30T05:56:07Z" ≠ ascii "9999-12-31T23:59:59Z" := by
  decide

/-- A leap day of the range comes back. -/
theorem timestamps_leap_day :
    ReadsBack (Int64.ofInt 951868799000000000) ∧
      compare (serializeTimePoint 0) (serializeTimePoint (Int64.ofInt (-1))) = .gt ∧
      serializeTimePoint (Int64.ofInt 951868799000000000) = ascii "2000-02-29T23:59:59Z" := by
  obtain ⟨hreads, -, -⟩ := timestamps_iff (Int64.ofInt 951868799000000000) 0 []
  obtain ⟨-, horder, -⟩ := timestamps_iff 0 (Int64.ofInt (-1)) []
  obtain ⟨-, -, htext⟩ := timestamps_iff 0 0 (ascii "2000-02-29T23:59:59Z")
  refine ⟨hreads.mpr (by decide), horder.trans (by decide), ?_⟩
  exact (htext _ (by decide)).mpr (by decide)

end InpxWebReader.Database
