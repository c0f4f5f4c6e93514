import Mathlib.Algebra.BigOperators.Group.List.Basic
import Mathlib.Algebra.Order.Ring.Int
import Mathlib.Algebra.Order.Ring.Nat
import Mathlib.Data.List.Basic

/-!
# Lexical paths

A path is a root directory, or none, and a list of file names, over any type of names with an empty
name, `.` and `..`. The empty name stands at the end of a path that ends in a separator. Equality is
the comparison element by element.

`normal` is the lexical normal form: no `.`, no name followed by `..`, no `..` at the root.
`relativeTo` is the path from one path to another. On a plain path, one whose names are neither
empty nor dots, both have the meaning one expects: `normal_append` and `relativeTo_eq_iff`.
-/

namespace LexicalPath

/-- The names that mean something to a path. -/
class DotNames (N : Type) where
  empty : N
  dot : N
  dotdot : N
  dot_ne_empty : dot ≠ empty
  dotdot_ne_empty : dotdot ≠ empty
  dotdot_ne_dot : dotdot ≠ dot

open DotNames

@[ext] structure NamePath (N : Type) where
  rooted : Bool := false
  names : List N := []
  deriving DecidableEq

variable {N : Type} [DecidableEq N] [DotNames N]

/-- A name other than the empty one and the dots. -/
def IsPlain (name : N) : Prop := name ≠ empty ∧ name ≠ dot ∧ name ≠ dotdot

namespace NamePath

/-- The names without the empty one that a separator leaves at the end. -/
def stem (names : List N) : List N := if names.getLast? = some empty then names.dropLast else names

/-- `p / q`. -/
def append (p q : NamePath N) : NamePath N :=
  if q.rooted then q
  else if q.names = [] then
    if p.names = [] then p else ⟨p.rooted, stem p.names ++ [empty]⟩
  else ⟨p.rooted, stem p.names ++ q.names⟩

/-- What a name does to the normal form of the names before it. -/
def normalStep (rooted : Bool) (normal : List N) (name : N) : List N :=
  if name = empty ∨ name = dot then normal
  else if name = dotdot then
    if normal = [] then (if rooted then [] else [dotdot])
    else if normal.getLast? = some dotdot then normal ++ [dotdot]
    else normal.dropLast
  else normal ++ [name]

/-- The names of the normal form, without a separator at the end. -/
def normalNames (rooted : Bool) (names : List N) : List N := names.foldl (normalStep rooted) []

/-- The lexical normal form. -/
def normal (p : NamePath N) : NamePath N :=
  let names := normalNames p.rooted p.names
  if names = [] then
    if p.rooted ∨ p.names = [] then ⟨p.rooted, []⟩ else ⟨false, [dot]⟩
  else if p.names.getLast? ∈ [some empty, some dot, some dotdot] ∧
      names.getLast? ≠ some dotdot then ⟨p.rooted, names ++ [empty]⟩
  else ⟨p.rooted, names⟩

/-- What is left of two lists after their common beginning. -/
def mismatch : List N → List N → List N × List N
  | a :: as, b :: bs => if a = b then mismatch as bs else (a :: as, b :: bs)
  | as, bs => (as, bs)

/-- How far a path goes down. -/
def depth (names : List N) : Int :=
  (names.map fun name =>
    if name = dotdot then (-1 : Int) else if name = empty ∨ name = dot then 0 else 1).sum

/-- `lexically_relative`. The empty path stands for none. -/
def relativeTo (p base : NamePath N) : NamePath N :=
  if p.rooted ≠ base.rooted then {}
  else
    let (rest, baseRest) := mismatch p.names base.names
    if rest = [] ∧ baseRest = [] then ⟨false, [dot]⟩
    else if depth baseRest = 0 ∧ (rest = [] ∨ rest.head? = some empty) then ⟨false, [dot]⟩
    else if 0 ≤ depth baseRest then
      ⟨false, List.replicate (depth baseRest).toNat dotdot ++ rest⟩
    else {}

/-! ### Normal forms -/

section Normal

variable {rooted : Bool} {names rest : List N} {name : N}

/-- The separator at the end of a path is all that its stem lacks. -/
theorem stem_cases (names : List N) : stem names = names ∨ names = stem names ++ [empty] := by
  rw [stem]
  split
  · next hlast =>
    refine .inr ?_
    have hne : names ≠ [] := by
      rintro rfl
      cases hlast
    have hget := List.dropLast_append_getLast hne
    rw [List.getLast?_eq_some_getLast hne, Option.some_inj] at hlast
    rw [← hlast, hget]
  · exact .inl rfl

theorem append_append {p : NamePath N} {names rest : List N} (hne : names ≠ [])
    (h : ∀ name ∈ names, IsPlain name) (hrest : rest ≠ []) :
    (p.append ⟨false, names⟩).append ⟨false, rest⟩ = p.append ⟨false, names ++ rest⟩ := by
  have hstem : stem (stem p.names ++ names) = stem p.names ++ names := by
    refine if_neg ?_
    rw [List.getLast?_append_of_ne_nil _ hne, List.getLast?_eq_some_getLast hne, Option.some_inj]
    exact (h _ (List.getLast_mem hne)).1
  simp only [append, if_neg Bool.false_ne_true, if_neg hrest, hstem,
    List.append_eq_nil_iff, hne, false_and, if_false, List.append_assoc]

theorem normalStep_plain (normal : List N) (h : IsPlain name) :
    normalStep rooted normal name = normal ++ [name] := by
  obtain ⟨hempty, hdot, hdotdot⟩ := h
  simp [normalStep, hempty, hdot, hdotdot]

theorem normalNames_append (names rest : List N) :
    normalNames rooted (names ++ rest) =
      rest.foldl (normalStep rooted) (normalNames rooted names) := by
  rw [normalNames, normalNames, List.foldl_append]

theorem foldl_normalStep_plain (normal : List N) (h : ∀ name ∈ rest, IsPlain name) :
    rest.foldl (normalStep rooted) normal = normal ++ rest := by
  induction rest generalizing normal with
  | nil => exact (List.append_nil _).symm
  | cons name rest ih =>
    rw [List.foldl_cons, normalStep_plain _ (h name (List.mem_cons_self ..)),
      ih _ fun name hname => h name (List.mem_cons_of_mem _ hname), List.append_assoc,
      List.singleton_append]

/-- The separator at the end of a path does not show in the names of its normal form. -/
theorem normalNames_stem (names : List N) :
    normalNames rooted (stem names) = normalNames rooted names := by
  rcases stem_cases names with h | h
  · rw [h]
  · conv_rhs => rw [h, normalNames_append]
    simp [normalStep]

/-- Below a root the normal form has plain names only. -/
theorem normalNames_plain (names : List N) : ∀ name ∈ normalNames true names, IsPlain name := by
  suffices hfold : ∀ normal : List N, (∀ name ∈ normal, IsPlain name) →
      ∀ name ∈ names.foldl (normalStep true) normal, IsPlain name from hfold [] nofun
  induction names with
  | nil => exact fun normal h => h
  | cons next names ih =>
    intro normal h
    refine ih _ ?_
    rw [normalStep]
    split
    · exact h
    · next hkeep =>
      rw [not_or] at hkeep
      split
      · split
        · exact nofun
        · split
          · next hlast => exact absurd rfl (h _ (List.mem_of_mem_getLast? hlast)).2.2
          · exact fun name hname => h name ((List.dropLast_sublist _).mem hname)
      · next hdotdot =>
        intro name hname
        rcases List.mem_append.mp hname with hname | hname
        · exact h name hname
        · rw [List.mem_singleton] at hname
          subst hname
          exact ⟨hkeep.1, hkeep.2, hdotdot⟩

/-- The names of a path are those of its normal form exactly when they are plain. -/
theorem normalNames_eq_self_iff : normalNames true names = names ↔ ∀ name ∈ names, IsPlain name := by
  constructor
  · intro h name hname
    rw [← h] at hname
    exact normalNames_plain names name hname
  · intro h
    exact foldl_normalStep_plain [] h

theorem normalStep_up (ups : Nat) : normalStep false (List.replicate ups (dotdot : N)) dotdot =
    List.replicate (ups + 1) dotdot := by
  rw [normalStep, if_neg (by simp [dotdot_ne_empty, dotdot_ne_dot]), if_pos rfl]
  cases ups with
  | zero => simp
  | succ ups =>
    have hlast : (List.replicate (ups + 1) (dotdot : N)).getLast? = some dotdot := by
      rw [List.replicate_succ', List.getLast?_concat]
    rw [if_neg (by simp), if_pos hlast, List.replicate_succ' (n := ups + 1)]

/-- Without a root the normal form begins with the steps up that are left. -/
theorem normalNames_relative (names : List N) : ∃ ups plain,
    normalNames false names = List.replicate ups dotdot ++ plain ∧ ∀ name ∈ plain, IsPlain name := by
  suffices hfold : ∀ (ups : Nat) (plain : List N), (∀ name ∈ plain, IsPlain name) →
      ∃ ups' plain', names.foldl (normalStep false) (List.replicate ups dotdot ++ plain) =
        List.replicate ups' dotdot ++ plain' ∧ ∀ name ∈ plain', IsPlain name from hfold 0 [] nofun
  induction names with
  | nil => exact fun ups plain h => ⟨ups, plain, rfl, h⟩
  | cons name names ih =>
    intro ups plain h
    rw [List.foldl_cons]
    by_cases hskip : name = empty ∨ name = dot
    · rw [normalStep, if_pos hskip]
      exact ih ups plain h
    · by_cases hup : name = dotdot
      · subst hup
        rcases List.eq_nil_or_concat plain with rfl | ⟨init, last, rfl⟩
        · have hstep : normalStep false (List.replicate ups dotdot ++ []) (dotdot : N) =
              List.replicate (ups + 1) dotdot ++ [] := by
            rw [List.append_nil, List.append_nil, normalStep_up]
          rw [hstep]
          exact ih (ups + 1) [] nofun
        · rw [List.concat_eq_append] at h ⊢
          have hplain := h last (List.mem_append_right _ (List.mem_cons_self ..))
          have hstep : normalStep false (List.replicate ups dotdot ++ (init ++ [last])) (dotdot : N) =
              List.replicate ups dotdot ++ init := by
            rw [normalStep, if_neg hskip, ← List.append_assoc]
            simp [hplain.2.2]
          rw [hstep]
          exact ih ups init fun name hname => h name (List.mem_append_left _ hname)
      · have hplain : IsPlain name := ⟨fun h => hskip (.inl h), fun h => hskip (.inr h), hup⟩
        rw [normalStep_plain _ hplain, List.append_assoc]
        refine ih ups (plain ++ [name]) ?_
        intro next hnext
        rcases List.mem_append.mp hnext with hnext | hnext
        · exact h next hnext
        · rw [List.mem_singleton] at hnext
          exact hnext ▸ hplain

theorem normalNames_ups (ups : Nat) {plain : List N} (h : ∀ name ∈ plain, IsPlain name) :
    normalNames false (List.replicate ups dotdot ++ plain) = List.replicate ups dotdot ++ plain := by
  have hups : normalNames false (List.replicate ups (dotdot : N)) = List.replicate ups dotdot := by
    induction ups with
    | zero => rfl
    | succ ups ih =>
      rw [List.replicate_succ', normalNames_append, ih, List.foldl_cons, List.foldl_nil,
        normalStep_up, List.replicate_succ']
  rw [normalNames_append, hups, foldl_normalStep_plain _ h]

/-- The normal form of a path that goes on with plain names. -/
theorem normal_append {p : NamePath N} (hne : rest ≠ []) (h : ∀ name ∈ rest, IsPlain name) :
    (p.append ⟨false, rest⟩).normal = ⟨p.rooted, normalNames p.rooted p.names ++ rest⟩ := by
  have hnames : normalNames p.rooted (stem p.names ++ rest) =
      normalNames p.rooted p.names ++ rest := by
    rw [normalNames_append, foldl_normalStep_plain _ h, normalNames_stem]
  have hlast : (stem p.names ++ rest).getLast? ∉ [some empty, some dot, some dotdot] := by
    obtain ⟨hempty, hdot, hdotdot⟩ := h _ (List.getLast_mem hne)
    rw [List.getLast?_append_of_ne_nil _ hne, List.getLast?_eq_some_getLast hne]
    simp [hempty, hdot, hdotdot]
  simp only [append, if_neg Bool.false_ne_true, normal, hnames, hlast, false_and,
    if_false, List.append_eq_nil_iff, hne, and_false]

theorem normal_of_plain (h : ∀ name ∈ names, IsPlain name) :
    (NamePath.mk rooted names).normal = ⟨rooted, names⟩ := by
  by_cases hne : names = []
  · subst hne
    simp [normal, normalNames]
  · have happend := normal_append (p := ⟨rooted, []⟩) hne h
    simpa [append, stem, normalNames, hne] using happend

end Normal

/-! ### Relative paths -/

section Relative

variable {names rest base : List N} {r : Bool}

omit [DotNames N] in
theorem mismatch_append (base rest : List N) : mismatch (base ++ rest) base = (rest, []) := by
  induction base with
  | nil => cases rest <;> rfl
  | cons b base ih => simp [mismatch, ih]

omit [DotNames N] in
theorem mismatch_cons (base : List N) {a b : N} {tail rest : List N} (h : a ≠ b) :
    mismatch (base ++ a :: tail) (base ++ b :: rest) = (a :: tail, b :: rest) := by
  induction base with
  | nil => exact if_neg h
  | cons name base ih => simp [mismatch, ih]

omit [DotNames N] in
/-- The lists are their common beginning with what is left of them. -/
theorem mismatch_spec (as bs : List N) :
    ∃ common, as = common ++ (mismatch as bs).1 ∧ bs = common ++ (mismatch as bs).2 := by
  fun_induction mismatch as bs with
  | case1 as a bs ih =>
    obtain ⟨common, has, hbs⟩ := ih
    exact ⟨a :: common, by rw [List.cons_append, ← has], by rw [List.cons_append, ← hbs]⟩
  | case2 a as b bs hne => exact ⟨[], rfl, rfl⟩
  | case3 as bs => exact ⟨[], rfl, rfl⟩

theorem depth_of_plain (h : ∀ name ∈ names, IsPlain name) : depth names = names.length := by
  induction names with
  | nil => rfl
  | cons name names ih =>
    obtain ⟨hempty, hdot, hdotdot⟩ := h name (List.mem_cons_self ..)
    have ih := ih fun name hname => h name (List.mem_cons_of_mem _ hname)
    rw [depth] at ih
    simp only [depth, List.map_cons, List.sum_cons, ih, hempty, hdot, hdotdot, if_false, or_self,
      List.length_cons]
    omega

/-- The path from a plain base to a path, when it goes down only. -/
theorem relativeTo_eq_iff {p : NamePath N} (hbase : ∀ name ∈ base, IsPlain name) (hrest : rest ≠ [])
    (hhead : ∀ name ∈ rest.head?, IsPlain name) :
    p.relativeTo ⟨r, base⟩ = ⟨false, rest⟩ ↔ p = ⟨r, base ++ rest⟩ := by
  obtain ⟨first, tail, rfl⟩ := List.exists_cons_of_ne_nil hrest
  obtain ⟨hempty, hdot, hdotdot⟩ := hhead first rfl
  constructor
  · intro h
    obtain ⟨common, hp, hb⟩ := mismatch_spec p.names base
    simp only [relativeTo] at h
    split at h
    · injection h with _ h
      cases h
    · next hrooted =>
      have hplain : ∀ name ∈ (mismatch p.names base).2, IsPlain name := by
        intro name hname
        refine hbase name ?_
        rw [hb]
        exact List.mem_append_right _ hname
      have hdepth := depth_of_plain hplain
      split at h
      · injection h with _ h
        injection h with h
        exact absurd h.symm hdot
      · split at h
        · injection h with _ h
          injection h with h
          exact absurd h.symm hdot
        · split at h
          · injection h with _ h
            cases hleft : (mismatch p.names base).2 with
            | nil =>
              rw [hleft] at h hb
              rw [List.append_nil] at hb
              have hrest' : (mismatch p.names base).1 = first :: tail := h
              refine NamePath.ext (not_not.mp hrooted) ?_
              show p.names = base ++ first :: tail
              rw [hp, ← hb, hrest']
            | cons b bs =>
              -- a step up would come first
              rw [hdepth, hleft, Int.toNat_natCast, List.length_cons, List.replicate_succ,
                List.cons_append] at h
              injection h with h
              exact absurd h.symm hdotdot
          · injection h with _ h
            cases h
  · rintro rfl
    simp only [relativeTo, ne_eq, not_true_eq_false, if_false, mismatch_append]
    simp [depth, hempty]

/-- The path from a path to one below it, however the upper one is written. -/
theorem relativeTo_append {p : NamePath N} (hrest : rest ≠ [])
    (hhead : ∀ name ∈ rest.head?, IsPlain name) :
    (p.append ⟨false, rest⟩).relativeTo p = ⟨false, rest⟩ := by
  obtain ⟨first, tail, rfl⟩ := List.exists_cons_of_ne_nil hrest
  obtain ⟨hempty, hdot, hdotdot⟩ := hhead first rfl
  have hmismatch : mismatch (stem p.names ++ first :: tail) p.names = (first :: tail, []) ∨
      mismatch (stem p.names ++ first :: tail) p.names = (first :: tail, [empty]) := by
    rcases stem_cases p.names with h | h
    · rw [h]
      exact .inl (mismatch_append _ _)
    · have hfirst := @mismatch_cons N _ (stem p.names) first empty tail [] hempty
      rw [← h] at hfirst
      exact .inr hfirst
  rcases hmismatch with h | h <;>
    simp [append, relativeTo, h, depth, hempty, dotdot_ne_empty.symm]

end Relative

end NamePath

/-! ### Texts -/

section Texts

variable {α : Type} [DecidableEq α]

/-- The path a text spells, with `sep` between its names. -/
def parse [DotNames (List α)] (sep : α) (text : List α) : NamePath (List α) where
  rooted := text.head? = some sep
  names :=
    let names := (text.splitOn sep).filter fun name => name ≠ empty
    if names ≠ [] ∧ text.getLast? = some sep then names ++ [empty] else names

theorem stem_names_parse [DotNames (List α)] (sep : α) (text : List α) :
    NamePath.stem (parse sep text).names = (text.splitOn sep).filter fun name => name ≠ empty := by
  have hlast : ((text.splitOn sep).filter fun name => name ≠ empty).getLast? ≠ some empty := by
    intro hlast
    have hmem := List.mem_of_mem_getLast? hlast
    simp at hmem
  simp only [parse]
  split
  · rw [NamePath.stem, if_pos List.getLast?_concat, List.dropLast_concat]
  · exact if_neg hlast

end Texts

end LexicalPath
