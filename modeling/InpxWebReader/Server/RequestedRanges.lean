import InpxWebReader.Library.Fenwick
import Mathlib.Data.List.Destutter
import Mathlib.Data.List.Sort

/-!
# Byte ranges

`normalizeRequestedRanges` clips the ranges of a request to a file and refuses requests with a
reversed range, with no range of the file, or with more than two ranges that overlap an earlier one.
It counts overlaps with a tree of maxima over the sorted starts; `clipped` and `overlapCount` say
plainly what is kept and what is counted.
-/

namespace InpxWebReader.Server

abbrev TRangeOffset := Int64

/-- A range of `httplib::Request::ranges`. An open end is `-1`. -/
structure ByteRange where
  first : TRangeOffset
  last : TRangeOffset
  deriving DecidableEq

instance : LinearOrder TRangeOffset where
  le_refl := Int64.le_refl
  le_trans _ _ _ := Int64.le_trans
  le_antisymm _ _ := Int64.le_antisymm
  le_total := Int64.le_total
  lt_iff_le_not_ge a b := by
    rw [Int64.not_le, Int64.lt_iff_toInt_lt, Int64.le_iff_toInt_le]
    omega
  toDecidableLE := inferInstance

/-! ### The model -/

/-- What the predicate of `remove_if` says of a range, with the range as it leaves it. -/
inductive RangeFate where
  | reversed
  | removed
  | kept (range : ByteRange)
  deriving DecidableEq

/-- The predicate of `remove_if`. -/
def judgeRange (fileSize : UInt64) (lastByte : TRangeOffset) (range : ByteRange) : RangeFate :=
  if range.first < 0 then
    if range.last ≤ 0 then .removed
    else
      .kept ⟨if fileSize ≤ range.last.toUInt64 then 0 else lastByte - range.last + 1, lastByte⟩
  else if 0 ≤ range.last ∧ range.last < range.first then .reversed
  else if fileSize ≤ range.first.toUInt64 then .removed
  else if range.last < 0 ∨ fileSize ≤ range.last.toUInt64 then .kept ⟨range.first, lastByte⟩
  else .kept range

/-- `remove_if`: the ranges that are kept, and `hasReversedRange`. -/
def removeRanges (fileSize : UInt64) (lastByte : TRangeOffset) :
    List ByteRange → List ByteRange × Bool
  | [] => ([], false)
  | range :: ranges =>
    let (kept, hasReversedRange) := removeRanges fileSize lastByte ranges
    match judgeRange fileSize lastByte range with
    | .reversed => (kept, true)
    | .removed => (kept, hasReversedRange)
    | .kept range => (range :: kept, hasReversedRange)

/-- `std::ranges::lower_bound`, as an index. -/
def lowerBound (sorted : List TRangeOffset) (value : TRangeOffset) : Nat :=
  sorted.findIdx fun x => ¬x < value

/-- `std::ranges::upper_bound`, as an index. -/
def upperBound (sorted : List TRangeOffset) (value : TRangeOffset) : Nat :=
  sorted.findIdx fun x => value < x

def sortedStarts (ranges : List ByteRange) : List TRangeOffset :=
  ((ranges.map ByteRange.first).insertionSort (· ≤ ·)).destutter (· ≠ ·)

def readMaximumEnd (maximumEndTree : List TRangeOffset) (index : Nat) : TRangeOffset :=
  Fenwick.read 64 maximumEndTree (-1) index index (-1)

def recordEnd (maximumEndTree : List TRangeOffset) (index : Nat) (last : TRangeOffset) :
    List TRangeOffset :=
  Fenwick.record 64 (-1) last maximumEndTree.length index maximumEndTree

/-- The loop over the ranges: `overlappingRangeCount`, or `none` where the loop gives up. -/
def countOverlaps (sortedStarts : List TRangeOffset) :
    List ByteRange → List TRangeOffset → Nat → Option Nat
  | [], _, overlappingRangeCount => some overlappingRangeCount
  | range :: ranges, maximumEndTree, overlappingRangeCount =>
    let startsThroughEnd := upperBound sortedStarts range.last
    let overlapping := decide (range.first ≤ readMaximumEnd maximumEndTree startsThroughEnd)
    let overlappingRangeCount := overlappingRangeCount + overlapping.toNat
    if overlapping ∧ 2 < overlappingRangeCount then none
    else
      let startIndex := lowerBound sortedStarts range.first + 1
      countOverlaps sortedStarts ranges (recordEnd maximumEndTree startIndex range.last)
        overlappingRangeCount

def overlappingRangeCount (ranges : List ByteRange) : Option Nat :=
  countOverlaps (sortedStarts ranges) ranges
    (List.replicate ((sortedStarts ranges).length + 1) (-1)) 0

/-- `NormalizeRequestedRanges`: its result and the ranges of the request behind it.
`maxRangeCount` is `CPPHTTPLIB_RANGE_MAX_COUNT`. -/
def normalizeRequestedRanges (maxRangeCount : Nat) (fileSize : UInt64) (ranges : List ByteRange) :
    Bool × List ByteRange :=
  if ranges = [] then (true, ranges)
  else if fileSize = 0 then (false, [])
  else if maxRangeCount < ranges.length then (false, [])
  else if Int64.maxValue.toUInt64 < fileSize then (false, [])
  else
    let lastByte := (fileSize - 1).toInt64
    let (ranges, hasReversedRange) := removeRanges fileSize lastByte ranges
    if hasReversedRange ∨ ranges = [] then (false, [])
    else
      match overlappingRangeCount ranges with
      | none => (false, [])
      | some _ => (true, ranges)

/-! ### The specification -/

def ByteRange.offsets (range : ByteRange) : Int × Int := (range.first.toInt, range.last.toInt)

/-- A range that ends before it begins. -/
def ByteRange.Reversed (range : ByteRange) : Prop :=
  0 ≤ range.first.toInt ∧ 0 ≤ range.last.toInt ∧ range.last.toInt < range.first.toInt

/-- What a range asks of a file, as the first and the last byte: a suffix of a length, or the bytes
from an offset to another one or to the end. -/
def clip (fileSize : Nat) (range : Int × Int) : Option (Int × Int) :=
  if range.1 < 0 then
    if 0 < range.2 then some (max 0 (fileSize - range.2), fileSize - 1) else none
  else if range.1 < fileSize then
    some (range.1, if range.2 < 0 then (fileSize : Int) - 1 else min range.2 (fileSize - 1))
  else none

/-- The satisfiable ranges of a request, clipped to the file. -/
def clipped (fileSize : Nat) (ranges : List ByteRange) : List (Int × Int) :=
  ranges.filterMap fun range => clip fileSize range.offsets

/-- Two ranges have a byte in common. -/
def Overlaps (range range' : Int × Int) : Prop := range.1 ≤ range'.2 ∧ range'.1 ≤ range.2

instance (range range' : Int × Int) : Decidable (Overlaps range range') :=
  inferInstanceAs (Decidable (_ ∧ _))

/-- How many ranges overlap an earlier one. -/
def overlapCount (earlier : List (Int × Int)) : List (Int × Int) → Nat
  | [] => 0
  | range :: ranges =>
    (decide (∃ range' ∈ earlier, Overlaps range' range)).toNat +
      overlapCount (earlier ++ [range]) ranges

/-- A request for ranges that is granted. -/
structure Acceptable (maxRangeCount : Nat) (fileSize : UInt64) (ranges : List ByteRange) :
    Prop where
  nonempty : 0 < fileSize.toNat
  representable : fileSize.toNat < 2 ^ 63
  counted : ranges.length ≤ maxRangeCount
  ordered : ∀ range ∈ ranges, ¬range.Reversed
  satisfiable : clipped fileSize.toNat ranges ≠ []
  overlaps : overlapCount [] (clipped fileSize.toNat ranges) ≤ 2

/-! ### Machine arithmetic -/

theorem toNat_toUInt64 {x : Int64} (h : 0 ≤ x.toInt) : (x.toUInt64.toNat : Int) = x.toInt := by
  rw [Int64.toNat_toUInt64_of_le (Int64.le_iff_toInt_le.mpr h)]
  exact Int.toNat_of_nonneg h

theorem toInt_lastByte {fileSize : UInt64} (hpos : 0 < fileSize.toNat)
    (h : fileSize.toNat < 2 ^ 63) :
    (fileSize - 1).toInt64.toInt = (fileSize.toNat : Int) - 1 := by
  have hone : (fileSize - 1).toNat = fileSize.toNat - 1 := by
    rw [UInt64.toNat_sub_of_le _ _
      (UInt64.le_iff_toNat_le.mpr (show (1 : UInt64).toNat ≤ _ from hpos))]
    rfl
  have hint : (fileSize - 1).toInt64.toInt = ((fileSize - 1).toNat : Int) :=
    BitVec.toInt_eq_toNat_of_lt (by
      change 2 * (fileSize - 1).toNat < 2 ^ 64
      omega)
  rw [hint, hone]
  omega

/-- The offset of a suffix shorter than the file is computed without overflow. -/
theorem toInt_suffix {fileSize : UInt64} {last : TRangeOffset} (hpos : 0 < fileSize.toNat)
    (h : fileSize.toNat < 2 ^ 63) (hlast : 0 < last.toInt) (hlt : last.toInt < fileSize.toNat) :
    ((fileSize - 1).toInt64 - last).toInt = (fileSize.toNat : Int) - 1 - last.toInt ∧
    ((fileSize - 1).toInt64 - last + 1).toInt = (fileSize.toNat : Int) - last.toInt := by
  have hsub : ((fileSize - 1).toInt64 - last).toInt = (fileSize.toNat : Int) - 1 - last.toInt := by
    rw [Int64.toInt_sub, toInt_lastByte hpos h]
    exact Int.bmod_eq_of_le (by omega) (by omega)
  refine ⟨hsub, ?_⟩
  have hone : (1 : Int64).toInt = 1 := rfl
  rw [Int64.toInt_add, hsub, hone, Int.bmod_eq_of_le (by omega) (by omega)]
  omega

theorem fileSize_le_iff {fileSize : UInt64} {x : TRangeOffset} (h : 0 ≤ x.toInt) :
    fileSize ≤ x.toUInt64 ↔ (fileSize.toNat : Int) ≤ x.toInt := by
  rw [UInt64.le_iff_toNat_le, ← toNat_toUInt64 h]
  omega

/-! ### The ranges that are kept -/

def RangeFate.range? : RangeFate → Option ByteRange
  | .kept range => some range
  | _ => none

theorem judgeRange_reversed_iff {fileSize : UInt64} {lastByte : TRangeOffset} {range : ByteRange} :
    judgeRange fileSize lastByte range = .reversed ↔ range.Reversed := by
  have hzero : (0 : Int64).toInt = 0 := rfl
  rw [judgeRange, ByteRange.Reversed]
  simp only [Int64.lt_iff_toInt_lt, Int64.le_iff_toInt_le, hzero]
  split_ifs <;> simp only [false_iff, true_iff] <;> omega

/-- A range that is not reversed is kept as what it asks of the file. -/
theorem judgeRange_range? {fileSize : UInt64} (hpos : 0 < fileSize.toNat)
    (h : fileSize.toNat < 2 ^ 63) {range : ByteRange} (hordered : ¬range.Reversed) :
    (judgeRange fileSize (fileSize - 1).toInt64 range).range?.map ByteRange.offsets =
      clip fileSize.toNat range.offsets := by
  have hzero : (0 : Int64).toInt = 0 := rfl
  have hlastByte := toInt_lastByte hpos h
  rw [judgeRange, clip, ByteRange.offsets]
  simp only [Int64.lt_iff_toInt_lt, Int64.le_iff_toInt_le, hzero]
  rw [ByteRange.Reversed] at hordered
  by_cases hfirst : range.first.toInt < 0
  · rw [if_pos hfirst, if_pos hfirst]
    by_cases hlast : range.last.toInt ≤ 0
    · have hnone : ¬0 < range.last.toInt := by omega
      rw [if_pos hlast, if_neg hnone]
      rfl
    · have hsome : 0 < range.last.toInt := by omega
      have hle := @fileSize_le_iff fileSize range.last (by omega)
      rw [if_neg hlast, if_pos hsome, RangeFate.range?, Option.map_some, ByteRange.offsets]
      refine congrArg some (Prod.ext ?_ hlastByte)
      dsimp only
      split
      · rename_i hlong
        have := hle.mp hlong
        rw [hzero, max_eq_left (by omega)]
      · rename_i hshort
        rw [hle] at hshort
        rw [(toInt_suffix hpos h hsome (by omega)).2, max_eq_right (by omega)]
  · rw [if_neg hfirst, if_neg hfirst]
    have hge : ¬(0 ≤ range.last.toInt ∧ range.last.toInt < range.first.toInt) := by omega
    have hle := @fileSize_le_iff fileSize range.first (by omega)
    rw [if_neg hge]
    by_cases hbehind : (fileSize.toNat : Int) ≤ range.first.toInt
    · have hnone : ¬range.first.toInt < fileSize.toNat := by omega
      rw [if_pos (hle.mpr hbehind), if_neg hnone]
      rfl
    · have hsome : range.first.toInt < fileSize.toNat := by omega
      rw [if_neg (fun hc => hbehind (hle.mp hc)), if_pos hsome]
      by_cases hopen : range.last.toInt < 0
      · rw [if_pos (.inl hopen), if_pos hopen, RangeFate.range?, Option.map_some,
          ByteRange.offsets, hlastByte]
      · have hle' := @fileSize_le_iff fileSize range.last (by omega)
        rw [if_neg hopen]
        split
        · rename_i hlong
          have := hle'.mp (hlong.resolve_left hopen)
          rw [RangeFate.range?, Option.map_some, ByteRange.offsets, hlastByte,
            min_eq_right (by omega)]
        · rename_i hshort
          rw [hle', not_or] at hshort
          rw [RangeFate.range?, Option.map_some, ByteRange.offsets, min_eq_left (by omega)]

theorem removeRanges_reversed_iff {fileSize : UInt64} {lastByte : TRangeOffset}
    (ranges : List ByteRange) :
    (removeRanges fileSize lastByte ranges).2 = true ↔ ∃ range ∈ ranges, range.Reversed := by
  induction ranges with
  | nil => simp [removeRanges]
  | cons range ranges ih =>
    rw [removeRanges, List.exists_mem_cons_iff, ← ih, ← @judgeRange_reversed_iff fileSize lastByte]
    cases judgeRange fileSize lastByte range <;> simp

theorem removeRanges_kept {fileSize : UInt64} (hpos : 0 < fileSize.toNat)
    (h : fileSize.toNat < 2 ^ 63) {ranges : List ByteRange}
    (hordered : ∀ range ∈ ranges, ¬range.Reversed) :
    (removeRanges fileSize (fileSize - 1).toInt64 ranges).1.map ByteRange.offsets =
      clipped fileSize.toNat ranges := by
  induction ranges with
  | nil => rfl
  | cons range ranges ih =>
    have hfate := judgeRange_range? hpos h (hordered range List.mem_cons_self)
    have ih := ih fun r hr => hordered r (List.mem_cons_of_mem _ hr)
    rw [clipped, List.filterMap_cons, ← hfate, removeRanges]
    cases hj : judgeRange fileSize (fileSize - 1).toInt64 range with
    | reversed =>
      exact absurd (judgeRange_reversed_iff.mp hj) (hordered range List.mem_cons_self)
    | removed => exact ih
    | kept range' =>
      simp only [RangeFate.range?, Option.map_some, List.map_cons]
      rw [ih, clipped]

theorem clip_bounds {fileSize : Nat} {range range' : Int × Int} (hpos : 0 < fileSize)
    (hordered : ¬(0 ≤ range.1 ∧ 0 ≤ range.2 ∧ range.2 < range.1)) (h : clip fileSize range = some range') :
    0 ≤ range'.1 ∧ range'.1 ≤ range'.2 ∧ range'.2 < fileSize := by
  rw [clip] at h
  split_ifs at h <;> injection h with h <;> subst h <;> dsimp only <;> omega

theorem mem_clipped_bounds {fileSize : Nat} {ranges : List ByteRange} (hpos : 0 < fileSize)
    (hordered : ∀ range ∈ ranges, ¬range.Reversed) :
    ∀ range ∈ clipped fileSize ranges, 0 ≤ range.1 ∧ range.1 ≤ range.2 ∧ range.2 < fileSize := by
  intro range hrange
  obtain ⟨range', hmem, hclip⟩ := List.mem_filterMap.mp hrange
  exact @clip_bounds _ range'.offsets _ hpos (hordered range' hmem) hclip

/-! ### The places of the starts -/

theorem pairwise_sortedStarts (ranges : List ByteRange) :
    (sortedStarts ranges).Pairwise (· ≤ ·) :=
  (List.pairwise_insertionSort (· ≤ ·) _).sublist (List.destutter_sublist ..)

theorem mem_sortedStarts {ranges : List ByteRange} {start : TRangeOffset} :
    start ∈ sortedStarts ranges ↔ ∃ range ∈ ranges, range.first = start := by
  rw [sortedStarts, (List.pairwise_insertionSort (· ≤ ·) _).destutter_eq_dedup, List.mem_dedup,
    List.mem_insertionSort, List.mem_map]

theorem lowerBound_lt {sorted : List TRangeOffset} {start : TRangeOffset} (h : start ∈ sorted) :
    lowerBound sorted start < sorted.length :=
  List.findIdx_lt_length.mpr ⟨start, h, by simp⟩

theorem getElem_lowerBound {sorted : List TRangeOffset} (hsorted : sorted.Pairwise (· ≤ ·))
    {start : TRangeOffset} (h : start ∈ sorted) (hbound : lowerBound sorted start < sorted.length) :
    sorted[lowerBound sorted start] = start := by
  have hge : start ≤ sorted[lowerBound sorted start] := by
    have hat := @List.findIdx_getElem _ (fun x => decide ¬x < start) sorted hbound
    exact not_lt.mp (of_decide_eq_true hat)
  refine le_antisymm ?_ hge
  obtain ⟨i, hi, rfl⟩ := List.mem_iff_getElem.mp h
  rcases Nat.lt_or_ge i (lowerBound sorted sorted[i]) with hlt | hle
  · have := List.not_of_lt_findIdx hlt
    simp at this
  · rcases Nat.eq_or_lt_of_le hle with heq | hlt
    · simp [heq]
    · exact List.pairwise_iff_getElem.mp hsorted _ _ _ _ hlt

/-- A start is among those up to a value exactly if its place is. -/
theorem lowerBound_lt_upperBound {sorted : List TRangeOffset} (hsorted : sorted.Pairwise (· ≤ ·))
    {start value : TRangeOffset} (h : start ∈ sorted) :
    lowerBound sorted start < upperBound sorted value ↔ start ≤ value := by
  constructor
  · intro hlt
    have := List.not_of_lt_findIdx hlt
    rw [getElem_lowerBound hsorted h (lowerBound_lt h)] at this
    simpa using this
  · intro hle
    refine List.lt_findIdx_of_not (lowerBound_lt h) fun j hj => ?_
    have hbound : j < sorted.length := Nat.lt_of_le_of_lt hj (lowerBound_lt h)
    have hstart : sorted[j] ≤ start := by
      rcases Nat.eq_or_lt_of_le hj with rfl | hlt
      · exact (getElem_lowerBound hsorted h hbound).le
      · have := List.pairwise_iff_getElem.mp hsorted _ _ (Nat.lt_trans hlt (lowerBound_lt h))
          (lowerBound_lt h) hlt
        rwa [getElem_lowerBound hsorted h (lowerBound_lt h)] at this
    simpa using le_trans hstart hle

/-! ### The count of overlaps -/

/-- What the tree holds for the ranges before: their ends, at the places of their starts. -/
def recorded (sorted : List TRangeOffset) (earlier : List ByteRange) :
    List (Nat × TRangeOffset) :=
  earlier.reverse.map fun range => (lowerBound sorted range.first + 1, range.last)

/-- Reading the tree tells whether a range overlaps one of those before. -/
theorem le_readMaximumEnd_iff {sorted tree : List TRangeOffset} {earlier : List ByteRange}
    {range : ByteRange} (hsorted : sorted.Pairwise (· ≤ ·))
    (hstarts : ∀ range ∈ earlier, range.first ∈ sorted)
    (hlength : tree.length = sorted.length + 1)
    (holds : Fenwick.Holds 64 (-1) (recorded sorted earlier) tree) (hfirst : 0 ≤ range.first) :
    range.first ≤ readMaximumEnd tree (upperBound sorted range.last) ↔
      ∃ range' ∈ earlier, Overlaps range'.offsets range.offsets := by
  have hupper : upperBound sorted range.last ≤ sorted.length := List.findIdx_le_length
  have hnone : ¬range.first ≤ -1 := by
    intro hle
    exact absurd (le_trans hfirst hle) (by decide)
  rw [readMaximumEnd, Fenwick.le_read_iff holds _ _ le_rfl (by omega) le_rfl, or_iff_right hnone]
  constructor
  · rintro ⟨entry, hentry, hplace, hend⟩
    obtain ⟨range', hmem, rfl⟩ := List.mem_map.mp hentry
    rw [List.mem_reverse] at hmem
    have hle := (lowerBound_lt_upperBound hsorted (hstarts range' hmem)).mp hplace
    exact ⟨range', hmem, Int64.le_iff_toInt_le.mp hle, Int64.le_iff_toInt_le.mp hend⟩
  · rintro ⟨range', hmem, hle, hend⟩
    refine ⟨_, List.mem_map_of_mem (List.mem_reverse.mpr hmem), ?_, Int64.le_iff_toInt_le.mpr hend⟩
    exact (lowerBound_lt_upperBound hsorted (hstarts range' hmem)).mpr
      (Int64.le_iff_toInt_le.mpr hle)

/-- The loop counts the ranges that overlap an earlier one, and gives up at the third. -/
theorem countOverlaps_eq {sorted : List TRangeOffset} (hsorted : sorted.Pairwise (· ≤ ·))
    (ranges : List ByteRange) : ∀ {earlier : List ByteRange} {tree : List TRangeOffset} {count : Nat},
      (∀ range ∈ earlier, range.first ∈ sorted) →
      (∀ range ∈ ranges, range.first ∈ sorted ∧ 0 ≤ range.first) →
      tree.length = sorted.length + 1 →
      Fenwick.Holds 64 (-1) (recorded sorted earlier) tree → count ≤ 2 →
      countOverlaps sorted ranges tree count =
        if count + overlapCount (earlier.map ByteRange.offsets) (ranges.map ByteRange.offsets) ≤ 2
        then some (count +
          overlapCount (earlier.map ByteRange.offsets) (ranges.map ByteRange.offsets))
        else none := by
  induction ranges with
  | nil =>
    intro earlier tree count _ _ _ _ hcount
    rw [countOverlaps, List.map_nil, overlapCount, Nat.add_zero, if_pos hcount]
  | cons range ranges ih =>
    intro earlier tree count hearlier hranges hlength holds hcount
    obtain ⟨hstart, hfirst⟩ := hranges range List.mem_cons_self
    have hread := le_readMaximumEnd_iff hsorted hearlier hlength holds hfirst
    have hexists : (∃ range' ∈ earlier.map ByteRange.offsets, Overlaps range' range.offsets) ↔
        ∃ range' ∈ earlier, Overlaps range'.offsets range.offsets := by
      simp only [List.mem_map, exists_exists_and_eq_and]
    -- the tree behind this turn of the loop
    have hrecord : Fenwick.Holds 64 (-1) (recorded sorted (earlier ++ [range]))
        (recordEnd tree (lowerBound sorted range.first + 1) range.last) := by
      rw [recorded, List.reverse_append, List.reverse_singleton, List.singleton_append,
        List.map_cons]
      exact holds.record (Nat.succ_pos _) (by omega)
    have hearlier' : ∀ r ∈ earlier ++ [range], r.first ∈ sorted := by
      intro r hr
      rcases List.mem_append.mp hr with hr | hr
      · exact hearlier r hr
      · rw [List.mem_singleton.mp hr]
        exact hstart
    have hlength' : (recordEnd tree (lowerBound sorted range.first + 1) range.last).length =
        sorted.length + 1 := by
      rw [recordEnd, Fenwick.length_record, hlength]
    have ih := fun count => @ih _ _ count hearlier'
      (fun r hr => hranges r (List.mem_cons_of_mem _ hr)) hlength' hrecord
    rw [List.map_append, List.map_singleton] at ih
    rw [countOverlaps, List.map_cons, overlapCount]
    dsimp only
    by_cases hoverlap : ∃ range' ∈ earlier, Overlaps range'.offsets range.offsets
    · rw [decide_eq_true (hread.mpr hoverlap), decide_eq_true (hexists.mpr hoverlap),
        Bool.toNat_true, ← Nat.add_assoc]
      by_cases hmany : 2 < count + 1
      · rw [if_pos ⟨rfl, hmany⟩, if_neg (by omega)]
      · rw [if_neg (fun h => hmany h.2), ih _ (by omega)]
    · rw [decide_eq_false (fun h => hoverlap (hread.mp h)),
        decide_eq_false (fun h => hoverlap (hexists.mp h)), Bool.toNat_false, Nat.zero_add,
        Nat.add_zero, if_neg (fun h => Bool.false_ne_true h.1), ih _ hcount]

theorem length_sortedStarts_le (ranges : List ByteRange) :
    (sortedStarts ranges).length ≤ ranges.length := by
  have hsub := (List.destutter_sublist (· ≠ ·)
    ((ranges.map ByteRange.first).insertionSort (· ≤ ·))).length_le
  rwa [List.length_insertionSort, List.length_map] at hsub

theorem overlappingRangeCount_eq {ranges : List ByteRange} (hlength : ranges.length < 2 ^ 63)
    (hfirst : ∀ range ∈ ranges, 0 ≤ range.first) :
    overlappingRangeCount ranges =
      if overlapCount [] (ranges.map ByteRange.offsets) ≤ 2 then
        some (overlapCount [] (ranges.map ByteRange.offsets))
      else none := by
  have hstarts := length_sortedStarts_le ranges
  have hmem : ∀ range ∈ ranges, range.first ∈ sortedStarts ranges ∧ 0 ≤ range.first :=
    fun range hrange => ⟨mem_sortedStarts.mpr ⟨range, hrange, rfl⟩, hfirst range hrange⟩
  have hcount := @countOverlaps_eq _ (pairwise_sortedStarts ranges) ranges [] _ 0 nofun hmem
    List.length_replicate (Fenwick.holds_replicate (-1) (by omega)) (by omega)
  rw [List.map_nil, Nat.zero_add] at hcount
  exact hcount

/-! ### The whole of it -/

theorem length_removeRanges_le (fileSize : UInt64) (lastByte : TRangeOffset)
    (ranges : List ByteRange) :
    (removeRanges fileSize lastByte ranges).1.length ≤ ranges.length := by
  induction ranges with
  | nil => exact le_rfl
  | cons range ranges ih =>
    rw [removeRanges]
    cases judgeRange fileSize lastByte range with
    | reversed => exact Nat.le_succ_of_le ih
    | removed => exact Nat.le_succ_of_le ih
    | kept range => exact Nat.succ_le_succ ih

theorem removeRanges_first_nonneg {fileSize : UInt64} (hpos : 0 < fileSize.toNat)
    (h : fileSize.toNat < 2 ^ 63) {ranges : List ByteRange}
    (hordered : ∀ range ∈ ranges, ¬range.Reversed) :
    ∀ range ∈ (removeRanges fileSize (fileSize - 1).toInt64 ranges).1,
      0 ≤ range.first.toInt ∧ range.first.toInt ≤ range.last.toInt ∧
        range.last.toInt < fileSize.toNat := by
  intro range hrange
  have hmem := List.mem_map_of_mem (f := ByteRange.offsets) hrange
  rw [removeRanges_kept hpos h hordered] at hmem
  exact mem_clipped_bounds hpos hordered _ hmem

theorem maxValue_lt_iff {fileSize : UInt64} :
    Int64.maxValue.toUInt64 < fileSize ↔ ¬fileSize.toNat < 2 ^ 63 := by
  have hmax : Int64.maxValue.toUInt64.toNat = 2 ^ 63 - 1 := rfl
  rw [UInt64.lt_iff_toNat_lt, hmax]
  omega

/-- The request is granted, with the ranges that are kept, exactly if it is acceptable. -/
theorem normalizeRequestedRanges_eq {maxRangeCount : Nat} (hmax : maxRangeCount < 2 ^ 63)
    (fileSize : UInt64) {ranges : List ByteRange} (hne : ranges ≠ []) :
    (Acceptable maxRangeCount fileSize ranges ∧
      normalizeRequestedRanges maxRangeCount fileSize ranges =
        (true, (removeRanges fileSize (fileSize - 1).toInt64 ranges).1)) ∨
    (¬Acceptable maxRangeCount fileSize ranges ∧
      normalizeRequestedRanges maxRangeCount fileSize ranges = (false, [])) := by
  rw [normalizeRequestedRanges, if_neg hne]
  by_cases hzero : fileSize = 0
  · rw [if_pos hzero]
    refine .inr ⟨fun h => ?_, rfl⟩
    have hpos := h.nonempty
    rw [hzero] at hpos
    exact absurd hpos (by decide)
  have hpos : 0 < fileSize.toNat := by
    refine Nat.pos_of_ne_zero fun h => hzero ?_
    exact UInt64.toNat_inj.mp h
  rw [if_neg hzero]
  by_cases hcounted : maxRangeCount < ranges.length
  · rw [if_pos hcounted]
    exact .inr ⟨fun h => absurd h.counted (by omega), rfl⟩
  rw [if_neg hcounted]
  by_cases hsize : fileSize.toNat < 2 ^ 63
  swap
  · rw [if_pos (maxValue_lt_iff.mpr hsize)]
    exact .inr ⟨fun h => hsize h.representable, rfl⟩
  rw [if_neg fun h => maxValue_lt_iff.mp h hsize]
  dsimp only
  by_cases hordered : ∀ range ∈ ranges, ¬range.Reversed
  swap
  · have hreversed : (removeRanges fileSize (fileSize - 1).toInt64 ranges).2 = true := by
      rw [removeRanges_reversed_iff]
      simpa only [not_forall, not_not, exists_prop] using hordered
    rw [if_pos (.inl hreversed)]
    exact .inr ⟨fun h => hordered h.ordered, rfl⟩
  have hnot : ¬(removeRanges fileSize (fileSize - 1).toInt64 ranges).2 = true := by
    rw [removeRanges_reversed_iff]
    rintro ⟨range, hrange, hreversed⟩
    exact hordered range hrange hreversed
  have hkept := removeRanges_kept hpos hsize hordered
  have hlength := length_removeRanges_le fileSize (fileSize - 1).toInt64 ranges
  by_cases hnone : clipped fileSize.toNat ranges = []
  · rw [hnone, List.map_eq_nil_iff] at hkept
    rw [if_pos (.inr hkept)]
    exact .inr ⟨fun h => h.satisfiable hnone, rfl⟩
  have hsome : ¬(removeRanges fileSize (fileSize - 1).toInt64 ranges).1 = [] := by
    intro hnil
    rw [hnil, List.map_nil] at hkept
    exact hnone hkept.symm
  have hcount := overlappingRangeCount_eq (Nat.lt_of_le_of_lt hlength (by omega)) fun range hrange =>
    Int64.le_iff_toInt_le.mpr (removeRanges_first_nonneg hpos hsize hordered range hrange).1
  rw [if_neg (not_or.mpr ⟨hnot, hsome⟩), hcount, hkept]
  by_cases hoverlaps : overlapCount [] (clipped fileSize.toNat ranges) ≤ 2
  · rw [if_pos hoverlaps]
    exact .inl ⟨⟨hpos, hsize, by omega, hordered, hnone, hoverlaps⟩, rfl⟩
  · rw [if_neg hoverlaps]
    exact .inr ⟨fun h => hoverlaps h.overlaps, rfl⟩

/-- A request with ranges is granted exactly if it is acceptable; then the ranges are the
satisfiable ones, clipped to the file. The overlaps counted with the tree are those of the naive
test, and the offsets of suffixes are computed without overflow. -/
theorem normalizeRequestedRanges_spec {maxRangeCount : Nat} (hmax : maxRangeCount < 2 ^ 63)
    (fileSize : UInt64) {ranges : List ByteRange} (hne : ranges ≠ []) :
    ((normalizeRequestedRanges maxRangeCount fileSize ranges).1 = true ↔
      Acceptable maxRangeCount fileSize ranges) ∧
    ((normalizeRequestedRanges maxRangeCount fileSize ranges).1 = true →
      ∀ kept, (normalizeRequestedRanges maxRangeCount fileSize ranges).2 = kept →
        kept.map ByteRange.offsets = clipped fileSize.toNat ranges ∧
        (∀ range ∈ kept, 0 ≤ range.first.toInt ∧ range.first.toInt ≤ range.last.toInt ∧
          range.last.toInt < fileSize.toNat) ∧
        overlappingRangeCount kept = some (overlapCount [] (clipped fileSize.toNat ranges))) ∧
    (0 < fileSize.toNat → fileSize.toNat < 2 ^ 63 → ∀ range ∈ ranges,
      0 < range.last.toInt → range.last.toInt < fileSize.toNat →
        ((fileSize - 1).toInt64 - range.last).toInt =
          (fileSize - 1).toInt64.toInt - range.last.toInt ∧
        ((fileSize - 1).toInt64 - range.last + 1).toInt =
          (fileSize - 1).toInt64.toInt - range.last.toInt + 1) := by
  refine ⟨?_, ?_, ?_⟩
  · rcases normalizeRequestedRanges_eq hmax fileSize hne with ⟨h, heq⟩ | ⟨h, heq⟩
    · exact iff_of_true (congrArg Prod.fst heq) h
    · rw [heq]
      exact iff_of_false Bool.false_ne_true h
  · rintro hgranted kept rfl
    rcases normalizeRequestedRanges_eq hmax fileSize hne with ⟨h, heq⟩ | ⟨_, heq⟩
    · have hkept := removeRanges_kept h.nonempty h.representable h.ordered
      have hbounds := removeRanges_first_nonneg h.nonempty h.representable h.ordered
      have hlength := length_removeRanges_le fileSize (fileSize - 1).toInt64 ranges
      have hcounted := h.counted
      rw [heq]
      refine ⟨hkept, hbounds, ?_⟩
      rw [overlappingRangeCount_eq (by omega) fun range hrange =>
        Int64.le_iff_toInt_le.mpr (hbounds range hrange).1, hkept, if_pos h.overlaps]
    · rw [heq] at hgranted
      cases hgranted
  · intro hpos hsize range _ hlast hlt
    obtain ⟨hsub, hadd⟩ := toInt_suffix hpos hsize hlast hlt
    rw [toInt_lastByte hpos hsize]
    omega

/-- Three ranges of a file of ten bytes, with a suffix and an open end: the last two overlap an
earlier one. -/
theorem normalizeRequestedRanges_spec_three :
    (normalizeRequestedRanges 1024 10 [⟨0, 4⟩, ⟨-1, 20⟩, ⟨3, -1⟩, ⟨30, -1⟩]).1 = true ∧
      ∀ kept, (normalizeRequestedRanges 1024 10 [⟨0, 4⟩, ⟨-1, 20⟩, ⟨3, -1⟩, ⟨30, -1⟩]).2 = kept →
        kept.map ByteRange.offsets = [(0, 4), (0, 9), (3, 9)] ∧
        overlappingRangeCount kept = some 2 := by
  have hspec := @normalizeRequestedRanges_spec 1024 (by decide) 10
    [⟨0, 4⟩, ⟨-1, 20⟩, ⟨3, -1⟩, ⟨30, -1⟩] (by decide)
  have hgranted : (normalizeRequestedRanges 1024 10
      [⟨0, 4⟩, ⟨-1, 20⟩, ⟨3, -1⟩, ⟨30, -1⟩]).1 = true := by decide +kernel
  refine ⟨hgranted, fun kept hkept => ?_⟩
  obtain ⟨hclipped, _, hcount⟩ := hspec.2.1 hgranted kept hkept
  rw [hclipped, hcount]
  exact ⟨by decide +kernel, by decide +kernel⟩

end InpxWebReader.Server
