import InpxWebReader.Library.MixedRadix
import Mathlib.Data.Nat.Find
import Mathlib.Order.Monotone.Basic

/-!
# The Gregorian calendar

Dates of the Gregorian calendar, extended to all years, and their day numbers from 1970-01-01 on.
Every number is that of a date (`ofDayNumber_spec`), and dates compare as their numbers do
(`compare_dayNumber`). The same holds of a date with a time of day and its seconds, and a time that
exists is read back from its seconds (`ofSeconds_seconds`).

Years, months, days, hours and minutes are blocks of what they are counted in, so the order is that
of `MixedRadix.Blocks`.
-/

namespace Calendar

open MixedRadix

theorem compare_natCast (m n : Nat) : compare (m : Int) n = compare m n :=
  compare_congr Int.ofNat_lt.mp Int.ofNat_inj.mp Int.ofNat_lt.mp

/-! ### Years and months -/

/-- Has the year 366 days? -/
def isLeap (year : Int) : Bool := year % 4 = 0 && (year % 100 ≠ 0 || year % 400 = 0)

/-- The days of a month. There is no month 0. -/
def daysInMonth (leap : Bool) : Nat → Nat
  | 0 => 0
  | 2 => 28 + leap.toNat
  | 4 | 6 | 9 | 11 => 30
  | _ => 31

def daysBeforeMonth (leap : Bool) : Nat → Nat
  | 0 => 0
  | month + 1 => daysBeforeMonth leap month + daysInMonth leap month

/-- The days from 0001-01-01 to the first day of a year. -/
def daysBeforeYear (year : Int) : Int :=
  365 * (year - 1) + (year - 1) / 4 - (year - 1) / 100 + (year - 1) / 400

def daysInYear (year : Int) : Nat := 365 + (isLeap year).toNat

theorem isLeap_iff {year : Int} :
    isLeap year = true ↔ year % 4 = 0 ∧ (year % 100 ≠ 0 ∨ year % 400 = 0) := by
  simp [isLeap]

theorem daysInYear_eq (year : Int) :
    daysInYear year = if year % 4 = 0 ∧ (year % 100 ≠ 0 ∨ year % 400 = 0) then 366 else 365 := by
  rw [daysInYear]
  split
  · rename_i hleap
    rw [isLeap_iff.mpr hleap]
    rfl
  · rename_i hleap
    rw [Bool.eq_false_iff.mpr fun h => hleap (isLeap_iff.mp h)]
    rfl

theorem daysBeforeYear_succ (year : Int) :
    daysBeforeYear (year + 1) = daysBeforeYear year + daysInYear year := by
  rw [daysInYear_eq, daysBeforeYear, daysBeforeYear]
  split <;> omega

theorem daysBeforeYear_le {a b : Int} (h : a ≤ b) : daysBeforeYear a ≤ daysBeforeYear b := by
  have hmono : Monotone daysBeforeYear := monotone_int_of_le_succ fun year => by
    rw [daysBeforeYear_succ]
    omega
  exact hmono h

theorem blocks_daysBeforeYear : Blocks daysBeforeYear fun year => (daysInYear year : Int) := by
  intro a b hab
  rw [← daysBeforeYear_succ]
  exact daysBeforeYear_le hab

theorem blocks_daysBeforeMonth (leap : Bool) : Blocks (daysBeforeMonth leap) (daysInMonth leap) := by
  intro a b hab
  have hmono : Monotone (daysBeforeMonth leap) :=
    monotone_nat_of_le_succ fun month => Nat.le_add_right _ _
  exact hmono hab

theorem daysBeforeMonth_year (year : Int) :
    daysBeforeMonth (isLeap year) 13 = daysInYear year := by
  have hall : ∀ leap, daysBeforeMonth leap 13 = 365 + leap.toNat := by decide
  exact hall (isLeap year)

/-! ### Dates -/

/-- A year, a month and a day, counted from 1. -/
@[ext] structure YearMonthDay where
  year : Int
  month : Nat
  day : Nat
  deriving DecidableEq, Repr

namespace YearMonthDay

/-- Does the date exist? -/
def Ok (date : YearMonthDay) : Prop :=
  (1 ≤ date.month ∧ date.month ≤ 12) ∧
    1 ≤ date.day ∧ date.day ≤ daysInMonth (isLeap date.year) date.month

instance (date : YearMonthDay) : Decidable date.Ok := inferInstanceAs (Decidable (_ ∧ _))

/-- The days of the year before a date. -/
def dayOfYear (date : YearMonthDay) : Nat :=
  daysBeforeMonth (isLeap date.year) date.month + (date.day - 1)

/-- The days from 0001-01-01 to 1970-01-01. -/
def epoch : Int := 719162

/-- The days from 1970-01-01 to a date. -/
def dayNumber (date : YearMonthDay) : Int := daysBeforeYear date.year + date.dayOfYear - epoch

/-- Dates compare by year, month and day. -/
def order (date date' : YearMonthDay) : Ordering :=
  (compare date.year date'.year).then
    ((compare date.month date'.month).then (compare date.day date'.day))

theorem order_eq_iff {date date' : YearMonthDay} : date.order date' = .eq ↔ date = date' := by
  rw [order, Ordering.then_eq_eq, Ordering.then_eq_eq, compare_eq_iff_eq, compare_eq_iff_eq,
    compare_eq_iff_eq, YearMonthDay.ext_iff]

theorem Ok.dayOfYear_lt {date : YearMonthDay} (h : date.Ok) :
    date.dayOfYear < daysInYear date.year := by
  obtain ⟨⟨_, hmonth⟩, hday, hlast⟩ := h
  have hblock := blocks_daysBeforeMonth (isLeap date.year) date.month 13 (by omega)
  have hyear := daysBeforeMonth_year date.year
  rw [dayOfYear]
  omega

theorem compare_dayOfYear {date date' : YearMonthDay} (h : date.Ok) (h' : date'.Ok)
    (hyear : date.year = date'.year) :
    compare date.dayOfYear date'.dayOfYear =
      (compare date.month date'.month).then (compare date.day date'.day) := by
  obtain ⟨_, hday, hlast⟩ := h
  obtain ⟨_, hday', hlast'⟩ := h'
  have hdays : compare (date.day - 1) (date'.day - 1) = compare date.day date'.day :=
    compare_congr (by omega) (by omega) (by omega)
  rw [← hyear] at hlast'
  rw [dayOfYear, dayOfYear, ← hyear,
    (blocks_daysBeforeMonth _).compare_add ⟨Nat.zero_le _, by omega⟩ ⟨Nat.zero_le _, by omega⟩,
    hdays]

theorem compare_dayNumber {date date' : YearMonthDay} (h : date.Ok) (h' : date'.Ok) :
    compare date.dayNumber date'.dayNumber = date.order date' := by
  have hlt := h.dayOfYear_lt
  have hlt' := h'.dayOfYear_lt
  have hyears : compare (daysBeforeYear date.year + date.dayOfYear)
      (daysBeforeYear date'.year + date'.dayOfYear) =
      (compare date.year date'.year).then (compare (date.dayOfYear : Int) date'.dayOfYear) :=
    blocks_daysBeforeYear.compare_add (by omega) (by omega)
  rw [dayNumber, dayNumber, compare_congr (x := daysBeforeYear date.year + date.dayOfYear)
    (y := daysBeforeYear date'.year + date'.dayOfYear) (by omega) (by omega) (by omega), hyears,
    order]
  cases hcompare : compare date.year date'.year with
  | lt => rfl
  | gt => rfl
  | eq => rw [compare_natCast, compare_dayOfYear h h' (compare_eq_iff_eq.mp hcompare)]

/-! ### The date of a number -/

/-- The year of a day, counted from 0001-01-01: cycles of 400 years, centuries, four years. The last
century of a cycle and the last of four years may be a day longer. -/
def yearOf (day : Int) : Int :=
  let inCycle := day % 146097
  let century := min 3 (inCycle / 36524)
  let inCentury := inCycle - 36524 * century
  400 * (day / 146097) + 100 * century + 4 * (inCentury / 1461) + min 3 (inCentury % 1461 / 365) + 1

/-- The month of a day of a year, counted from 0. -/
def monthOf (leap : Bool) (day : Nat) : Nat :=
  Nat.findGreatest (fun month => daysBeforeMonth leap month ≤ day) 12

def ofDayNumber (n : Int) : YearMonthDay :=
  let year := yearOf (n + epoch)
  let inYear := (n + epoch - daysBeforeYear year).toNat
  let month := monthOf (isLeap year) inYear
  ⟨year, month, inYear - daysBeforeMonth (isLeap year) month + 1⟩

/-- The days before a year that is counted in cycles, centuries and four years, and the length of
the year. -/
theorem daysBeforeYear_parts {cycle century four year : Int} (hcentury : 0 ≤ century ∧ century ≤ 3)
    (hfour : 0 ≤ four ∧ four ≤ 24) (hyear : 0 ≤ year ∧ year ≤ 3) :
    daysBeforeYear (400 * cycle + 100 * century + 4 * four + year + 1) =
        146097 * cycle + 36524 * century + 1461 * four + 365 * year ∧
      (daysInYear (400 * cycle + 100 * century + 4 * four + year + 1) =
        if year = 3 ∧ (four ≠ 24 ∨ century = 3) then 366 else 365) := by
  constructor
  · rw [daysBeforeYear]
    omega
  · rw [daysInYear_eq]
    congr 1
    simp only [eq_iff_iff]
    omega

theorem yearOf_spec (day : Int) :
    daysBeforeYear (yearOf day) ≤ day ∧
      day < daysBeforeYear (yearOf day) + daysInYear (yearOf day) := by
  rw [yearOf]
  generalize hcycle : day / 146097 = cycle
  generalize hcentury : min 3 (day % 146097 / 36524) = century
  generalize hinCentury : day % 146097 - 36524 * century = inCentury
  generalize hfour : inCentury / 1461 = four
  generalize hyear : min 3 (inCentury % 1461 / 365) = year
  have hparts : daysBeforeYear (400 * cycle + 100 * century + 4 * four + year + 1) =
      146097 * cycle + 36524 * century + 1461 * four + 365 * year ∧ _ :=
    daysBeforeYear_parts (by omega) (by omega) (by omega)
  obtain ⟨hbefore, hlength⟩ := hparts
  rw [hbefore, hlength]
  split <;> omega

theorem monthOf_spec {leap : Bool} {day : Nat} (h : day < 365 + leap.toNat) :
    (1 ≤ monthOf leap day ∧ monthOf leap day ≤ 12) ∧ daysBeforeMonth leap (monthOf leap day) ≤ day ∧
      day < daysBeforeMonth leap (monthOf leap day) + daysInMonth leap (monthOf leap day) := by
  have hfirst : daysBeforeMonth leap 1 ≤ day := Nat.zero_le day
  have hle : monthOf leap day ≤ 12 := Nat.findGreatest_le 12
  refine ⟨⟨Nat.le_findGreatest (by omega) hfirst, hle⟩,
    Nat.findGreatest_spec (P := fun month => daysBeforeMonth leap month ≤ day) (by omega) hfirst, ?_⟩
  show day < daysBeforeMonth leap (monthOf leap day + 1)
  by_cases hlast : monthOf leap day = 12
  · have hall : ∀ leap, daysBeforeMonth leap 13 = 365 + leap.toNat := by decide
    rw [hlast, hall]
    exact h
  · exact Nat.lt_of_not_le (Nat.findGreatest_is_greatest
      (P := fun month => daysBeforeMonth leap month ≤ day) (Nat.lt_succ_self _) (by omega))

theorem ofDayNumber_spec (n : Int) : (ofDayNumber n).Ok ∧ (ofDayNumber n).dayNumber = n := by
  obtain ⟨hlow, hhigh⟩ := yearOf_spec (n + epoch)
  rw [ofDayNumber]
  generalize hyear : yearOf (n + epoch) = year at hlow hhigh
  obtain ⟨day, hday⟩ := Int.eq_ofNat_of_zero_le (Int.sub_nonneg_of_le hlow)
  rw [hday, Int.toNat_natCast]
  have hlt : day < 365 + (isLeap year).toNat := by
    rw [daysInYear] at hhigh
    omega
  obtain ⟨hmonth, hstart, hend⟩ := monthOf_spec hlt
  refine ⟨⟨hmonth, Nat.le_add_left 1 _, ?_⟩, ?_⟩
  · show day - _ + 1 ≤ daysInMonth (isLeap year) (monthOf (isLeap year) day)
    omega
  · rw [dayNumber, dayOfYear]
    dsimp only
    omega

end YearMonthDay

/-! ### Times -/

@[ext] structure DateTime where
  date : YearMonthDay
  hour : Nat
  minute : Nat
  second : Nat
  deriving DecidableEq, Repr

namespace DateTime

open YearMonthDay

/-- Does the date exist, and the time of day? -/
def Ok (time : DateTime) : Prop :=
  time.date.Ok ∧ time.hour ≤ 23 ∧ time.minute ≤ 59 ∧ time.second ≤ 59

instance (time : DateTime) : Decidable time.Ok := inferInstanceAs (Decidable (_ ∧ _))

def secondOfDay (time : DateTime) : Nat := time.hour * 3600 + (time.minute * 60 + time.second)

/-- The seconds from 1970-01-01T00:00:00. -/
def seconds (time : DateTime) : Int := time.date.dayNumber * 86400 + time.secondOfDay

/-- The time of a number of seconds. -/
def ofSeconds (seconds : Int) : DateTime where
  date := ofDayNumber (seconds / 86400)
  hour := (seconds % 86400 / 3600).toNat
  minute := (seconds % 3600 / 60).toNat
  second := (seconds % 60).toNat

/-- Times compare by date, hour, minute and second. -/
def order (time time' : DateTime) : Ordering :=
  (time.date.order time'.date).then ((compare time.hour time'.hour).then
    ((compare time.minute time'.minute).then (compare time.second time'.second)))

theorem order_eq_iff {time time' : DateTime} : time.order time' = .eq ↔ time = time' := by
  rw [order, Ordering.then_eq_eq, Ordering.then_eq_eq, Ordering.then_eq_eq,
    YearMonthDay.order_eq_iff, compare_eq_iff_eq, compare_eq_iff_eq, compare_eq_iff_eq,
    DateTime.ext_iff]

theorem Ok.secondOfDay_lt {time : DateTime} (h : time.Ok) : time.secondOfDay < 86400 := by
  obtain ⟨_, hhour, hminute, hsecond⟩ := h
  rw [secondOfDay]
  omega

/-- Times of one day compare by hour, minute and second. -/
theorem compare_secondOfDay {time time' : DateTime} (h : time.Ok) (h' : time'.Ok) :
    compare time.secondOfDay time'.secondOfDay = (compare time.hour time'.hour).then
      ((compare time.minute time'.minute).then (compare time.second time'.second)) := by
  obtain ⟨_, _, hminute, hsecond⟩ := h
  obtain ⟨_, _, hminute', hsecond'⟩ := h'
  have hhours : Blocks (fun hour : Nat => hour * 3600) fun _ => 3600 := blocks_mul (Nat.zero_le _)
  have hminutes : Blocks (fun minute : Nat => minute * 60) fun _ => 60 := blocks_mul (Nat.zero_le _)
  rw [secondOfDay, secondOfDay,
    hhours.compare_add ⟨Nat.zero_le _, by omega⟩ ⟨Nat.zero_le _, by omega⟩,
    hminutes.compare_add ⟨Nat.zero_le _, by omega⟩ ⟨Nat.zero_le _, by omega⟩]

theorem compare_seconds {time time' : DateTime} (h : time.Ok) (h' : time'.Ok) :
    compare time.seconds time'.seconds = time.order time' := by
  have hlt := h.secondOfDay_lt
  have hlt' := h'.secondOfDay_lt
  have hdays : Blocks (fun day : Int => day * 86400) fun _ => 86400 := blocks_mul (by decide)
  rw [seconds, seconds, hdays.compare_add (by omega) (by omega), compare_dayNumber h.1 h'.1,
    compare_natCast, compare_secondOfDay h h', order]

theorem ofSeconds_spec (n : Int) : (ofSeconds n).Ok ∧ (ofSeconds n).seconds = n := by
  obtain ⟨hok, hdate⟩ := ofDayNumber_spec (n / 86400)
  refine ⟨⟨hok, ?_⟩, ?_⟩
  · simp only [ofSeconds]
    omega
  · simp only [seconds, secondOfDay, ofSeconds, hdate]
    omega

theorem ofSeconds_seconds {time : DateTime} (h : time.Ok) : ofSeconds time.seconds = time := by
  rw [← order_eq_iff, ← compare_seconds (ofSeconds_spec _).1 h, (ofSeconds_spec _).2]
  exact compare_eq_iff_eq.mpr rfl

end DateTime

end Calendar
