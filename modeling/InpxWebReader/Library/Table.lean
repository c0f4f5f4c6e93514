import Mathlib.Data.List.Nodup
import Mathlib.Data.List.Count
import Mathlib.Algebra.BigOperators.Group.List.Basic
import Mathlib.Tactic.Ring

/-!
# Relational tables

A table is a list of rows with a primary key and one further unique column (`key` and `name`; a
table without a second unique column takes `name = key`). Both columns are free of repeats by
construction, so a lookup has one answer and a statement that would break a constraint has to
fail: `insert?` and `put?` return `none` there.

`total` adds up a weight over the rows; its lemmas say by how much one statement changes it, which
is what a counter kept beside the table has to follow.
-/

/-- The rows of a table with the unique columns `key` and `name`. -/
structure Table {ρ κ ν : Type} (key : ρ → κ) (name : ρ → ν) where
  rows : List ρ
  key_nodup : (rows.map key).Nodup
  name_nodup : (rows.map name).Nodup

namespace Table

variable {ρ κ ν : Type} {key : ρ → κ} {name : ρ → ν}

@[ext]
theorem ext {t u : Table key name} (h : t.rows = u.rows) : t = u := by
  cases t
  cases u
  subst h
  rfl

/-- The table without rows. -/
def empty : Table key name := ⟨[], List.nodup_nil, List.nodup_nil⟩

@[simp] theorem rows_empty : (empty : Table key name).rows = [] := rfl

theorem key_inj {t : Table key name} {r r' : ρ} (h : r ∈ t.rows) (h' : r' ∈ t.rows)
    (he : key r = key r') : r = r' :=
  List.inj_on_of_nodup_map t.key_nodup h h' he

theorem name_inj {t : Table key name} {r r' : ρ} (h : r ∈ t.rows) (h' : r' ∈ t.rows)
    (he : name r = name r') : r = r' :=
  List.inj_on_of_nodup_map t.name_nodup h h' he

/-! ### Lookups -/

section Lookup

variable [DecidableEq κ] [DecidableEq ν]

/-- `SELECT … WHERE key = k`. -/
def find? (t : Table key name) (k : κ) : Option ρ := t.rows.find? fun r => key r = k

/-- `SELECT … WHERE name = n`. -/
def findBy? (t : Table key name) (n : ν) : Option ρ := t.rows.find? fun r => name r = n

omit [DecidableEq ν] in
theorem find?_eq_some {t : Table key name} {k : κ} {r : ρ} :
    t.find? k = some r ↔ r ∈ t.rows ∧ key r = k := by
  constructor
  · intro h
    exact ⟨List.mem_of_find?_eq_some h, by simpa using List.find?_some h⟩
  · rintro ⟨hr, rfl⟩
    cases hf : t.find? (key r) with
    | none => exact absurd (List.find?_eq_none.mp hf r hr) (by simp)
    | some r' =>
      have hk : key r' = key r := by simpa using List.find?_some hf
      rw [key_inj (List.mem_of_find?_eq_some hf) hr hk]

omit [DecidableEq κ] in
theorem findBy?_eq_some {t : Table key name} {n : ν} {r : ρ} :
    t.findBy? n = some r ↔ r ∈ t.rows ∧ name r = n := by
  constructor
  · intro h
    exact ⟨List.mem_of_find?_eq_some h, by simpa using List.find?_some h⟩
  · rintro ⟨hr, rfl⟩
    cases hf : t.findBy? (name r) with
    | none => exact absurd (List.find?_eq_none.mp hf r hr) (by simp)
    | some r' =>
      have hk : name r' = name r := by simpa using List.find?_some hf
      rw [name_inj (List.mem_of_find?_eq_some hf) hr hk]

omit [DecidableEq ν] in
theorem find?_eq_none {t : Table key name} {k : κ} :
    t.find? k = none ↔ ∀ r ∈ t.rows, key r ≠ k := by
  rw [find?]
  rw [List.find?_eq_none]
  simp

omit [DecidableEq κ] in
theorem findBy?_eq_none {t : Table key name} {n : ν} :
    t.findBy? n = none ↔ ∀ r ∈ t.rows, name r ≠ n := by
  rw [findBy?]
  rw [List.find?_eq_none]
  simp

end Lookup

/-! ### Statements -/

/-- `INSERT INTO …`: one more row, `none` where a unique column already has its value. -/
def insert? [DecidableEq κ] [DecidableEq ν] (t : Table key name) (r : ρ) :
    Option (Table key name) :=
  if h : key r ∉ t.rows.map key ∧ name r ∉ t.rows.map name then
    some ⟨t.rows ++ [r], by simpa [List.nodup_append] using ⟨t.key_nodup, by simpa using h.1⟩,
      by simpa [List.nodup_append] using ⟨t.name_nodup, by simpa using h.2⟩⟩
  else none

/-- `UPDATE … SET … WHERE p`, for an assignment that leaves the unique columns alone. -/
def update (t : Table key name) (p : ρ → Bool) (f : ρ → ρ) (hkey : ∀ r, key (f r) = key r)
    (hname : ∀ r, name (f r) = name r) : Table key name where
  rows := t.rows.map fun r => if p r then f r else r
  key_nodup := by
    rw [List.map_map]
    convert t.key_nodup using 2
    funext r
    by_cases h : p r <;> simp [h, hkey]
  name_nodup := by
    rw [List.map_map]
    convert t.name_nodup using 2
    funext r
    by_cases h : p r <;> simp [h, hname]

/-- `DELETE FROM … WHERE p`. -/
def delete (t : Table key name) (p : ρ → Bool) : Table key name where
  rows := t.rows.filter fun r => !p r
  key_nodup := t.key_nodup.sublist (List.filter_sublist.map key)
  name_nodup := t.name_nodup.sublist (List.filter_sublist.map name)

/-- `INSERT INTO … ON CONFLICT(key) DO UPDATE SET …` with a whole row: the row of that key is
replaced. `none` where another row holds the name. -/
def put? [DecidableEq κ] [DecidableEq ν] (t : Table key name) (r : ρ) : Option (Table key name) :=
  (t.delete fun r' => key r' = key r).insert? r

@[simp] theorem rows_update (t : Table key name) (p : ρ → Bool) (f : ρ → ρ) (hkey hname) :
    (t.update p f hkey hname).rows = t.rows.map fun r => if p r then f r else r := rfl

@[simp] theorem rows_delete (t : Table key name) (p : ρ → Bool) :
    (t.delete p).rows = t.rows.filter fun r => !p r := rfl

theorem insert?_eq_some [DecidableEq κ] [DecidableEq ν] {t t' : Table key name} {r : ρ} :
    t.insert? r = some t' ↔ (key r ∉ t.rows.map key ∧ name r ∉ t.rows.map name) ∧
      t'.rows = t.rows ++ [r] := by
  rw [insert?]
  by_cases h : key r ∉ t.rows.map key ∧ name r ∉ t.rows.map name
  · rw [dif_pos h, Option.some_inj]
    constructor
    · rintro rfl
      exact ⟨h, rfl⟩
    · intro h'
      exact Table.ext h'.2.symm
  · rw [dif_neg h]
    exact ⟨fun hn => absurd hn (by simp), fun hi => absurd hi.1 h⟩

theorem insert?_isSome [DecidableEq κ] [DecidableEq ν] {t : Table key name} {r : ρ}
    (hkey : key r ∉ t.rows.map key) (hname : name r ∉ t.rows.map name) :
    ∃ t', t.insert? r = some t' := by
  rw [insert?]
  rw [dif_pos ⟨hkey, hname⟩]
  exact ⟨_, rfl⟩

theorem mem_update {t : Table key name} {p : ρ → Bool} {f : ρ → ρ} {hkey hname} {r : ρ} :
    r ∈ (t.update p f hkey hname).rows ↔ ∃ r₀ ∈ t.rows, (if p r₀ then f r₀ else r₀) = r := by
  rw [rows_update, List.mem_map]

theorem mem_delete {t : Table key name} {p : ρ → Bool} {r : ρ} :
    r ∈ (t.delete p).rows ↔ r ∈ t.rows ∧ p r = false := by
  rw [rows_delete, List.mem_filter]
  simp

section Find

variable [DecidableEq κ]

theorem find?_insert? [DecidableEq ν] {t t' : Table key name} {r : ρ} (h : t.insert? r = some t')
    (k : κ) : t'.find? k = if key r = k then some r else t.find? k := by
  obtain ⟨⟨hk, _⟩, hrows⟩ := insert?_eq_some.mp h
  unfold find?
  rw [hrows, List.find?_append]
  by_cases he : key r = k
  · have hnone : t.rows.find? (fun r => key r = k) = none := by
      rw [List.find?_eq_none]
      intro r' hr' hkey
      exact hk (List.mem_map.mpr ⟨r', hr', by rw [of_decide_eq_true hkey, he]⟩)
    simp [hnone, he]
  · simp [he]

theorem find?_update {t : Table key name} {p : ρ → Bool} {f : ρ → ρ} {hkey hname} (k : κ) :
    (t.update p f hkey hname).find? k = (t.find? k).map fun r => if p r then f r else r := by
  cases h : t.find? k with
  | none =>
    rw [find?_eq_none] at h
    rw [Option.map_none, find?_eq_none]
    intro r hr
    obtain ⟨r₀, hr₀, rfl⟩ := mem_update.mp hr
    have := h r₀ hr₀
    by_cases hp : p r₀ <;> simpa [hp, hkey] using this
  | some r =>
    rw [find?_eq_some] at h
    rw [Option.map_some, find?_eq_some]
    refine ⟨mem_update.mpr ⟨r, h.1, rfl⟩, ?_⟩
    by_cases hp : p r <;> simpa [hp, hkey] using h.2

theorem find?_delete {t : Table key name} {p : ρ → Bool} (k : κ) :
    (t.delete p).find? k = (t.find? k).filter fun r => !p r := by
  cases h : t.find? k with
  | none =>
    rw [find?_eq_none] at h
    rw [Option.filter_none, find?_eq_none]
    intro r hr
    exact h r (mem_delete.mp hr).1
  | some r =>
    rw [find?_eq_some] at h
    cases hp : p r with
    | false =>
      rw [Option.filter_some, if_pos (by simp [hp]), find?_eq_some]
      exact ⟨mem_delete.mpr ⟨h.1, hp⟩, h.2⟩
    | true =>
      rw [Option.filter_some, if_neg (by simp [hp]), find?_eq_none]
      intro r' hr' hk
      rw [mem_delete] at hr'
      rw [key_inj hr'.1 h.1 (hk.trans h.2.symm), hp] at hr'
      exact absurd hr'.2 (by simp)

/-- The table with its two unique columns exchanged. -/
def swap (t : Table key name) : Table name key := ⟨t.rows, t.name_nodup, t.key_nodup⟩

variable [DecidableEq ν]

theorem findBy?_insert? {t t' : Table key name} {r : ρ} (h : t.insert? r = some t') (n : ν) :
    t'.findBy? n = if name r = n then some r else t.findBy? n := by
  have hs : t.swap.insert? r = some t'.swap := by
    obtain ⟨⟨hk, hn⟩, hrows⟩ := insert?_eq_some.mp h
    exact insert?_eq_some.mpr ⟨⟨hn, hk⟩, hrows⟩
  exact find?_insert? hs n

omit [DecidableEq κ] in
theorem findBy?_update {t : Table key name} {p : ρ → Bool} {f : ρ → ρ} {hkey hname} (n : ν) :
    (t.update p f hkey hname).findBy? n = (t.findBy? n).map fun r => if p r then f r else r := by
  change (t.swap.update p f hname hkey).find? n = _
  exact find?_update n

omit [DecidableEq κ] in
theorem findBy?_delete {t : Table key name} {p : ρ → Bool} (n : ν) :
    (t.delete p).findBy? n = (t.findBy? n).filter fun r => !p r :=
  find?_delete (t := t.swap) n

end Find

/-! ### Tables with the same lookups -/

/-- Tables that answer every lookup alike have the same rows, in some order. -/
theorem rows_perm [DecidableEq κ] {t t' : Table key name} (h : ∀ k, t.find? k = t'.find? k) :
    t.rows.Perm t'.rows := by
  refine (List.perm_ext_iff_of_nodup t.key_nodup.of_map t'.key_nodup.of_map).mpr fun r => ?_
  have hmem : ∀ u : Table key name, r ∈ u.rows ↔ u.find? (key r) = some r := fun u =>
    ⟨fun hr => find?_eq_some.mpr ⟨hr, rfl⟩, fun hr => (find?_eq_some.mp hr).1⟩
  rw [hmem, hmem, h]

/-! ### Replacing a row -/

section Put

variable [DecidableEq κ] [DecidableEq ν] {t t' : Table key name} {r : ρ}

/-- A row can be put where its name is free, or taken by the row it replaces. -/
theorem put?_isSome (hname : ∀ r₀ ∈ t.rows, name r₀ = name r → key r₀ = key r) :
    ∃ t', t.put? r = some t' := by
  have hfree : key r ∉ (t.delete fun r' => key r' = key r).rows.map key ∧
      name r ∉ (t.delete fun r' => key r' = key r).rows.map name := by
    constructor <;> intro hm <;> obtain ⟨r₀, hr₀, he⟩ := List.mem_map.mp hm <;>
      obtain ⟨hmem, hp⟩ := mem_delete.mp hr₀
    · exact of_decide_eq_false hp he
    · exact of_decide_eq_false hp (hname r₀ hmem he)
  exact insert?_isSome hfree.1 hfree.2

theorem rows_put? (h : t.put? r = some t') :
    t'.rows = (t.rows.filter fun r' => !decide (key r' = key r)) ++ [r] :=
  (insert?_eq_some.mp h).2

theorem find?_put? (h : t.put? r = some t') (k : κ) :
    t'.find? k = if key r = k then some r else t.find? k := by
  rw [find?_insert? h, find?_delete]
  by_cases hk : key r = k
  · rw [if_pos hk, if_pos hk]
  · rw [if_neg hk, if_neg hk]
    cases hf : t.find? k with
    | none => rfl
    | some r₀ =>
      have hk₀ : key r₀ ≠ key r := by
        rw [(find?_eq_some.mp hf).2]
        exact Ne.symm hk
      rw [Option.filter_some, if_pos (by simpa using hk₀)]

theorem findBy?_put? (h : t.put? r = some t')
    (hkey : ∀ r₀ ∈ t.rows, key r₀ = key r → name r₀ = name r) (n : ν) :
    t'.findBy? n = if name r = n then some r else t.findBy? n := by
  rw [findBy?_insert? h, findBy?_delete]
  by_cases hn : name r = n
  · rw [if_pos hn, if_pos hn]
  · rw [if_neg hn, if_neg hn]
    cases hf : t.findBy? n with
    | none => rfl
    | some r₀ =>
      obtain ⟨hmem, hn₀⟩ := findBy?_eq_some.mp hf
      have hk₀ : key r₀ ≠ key r := fun he => hn ((hkey r₀ hmem he).symm.trans hn₀)
      rw [Option.filter_some, if_pos (by simpa using hk₀)]

omit [DecidableEq ν] in
theorem filter_key_ne_of_notMem (hk : ∀ r₀ ∈ t.rows, key r₀ ≠ key r) :
    (t.rows.filter fun r' => !decide (key r' = key r)) = t.rows := by
  rw [List.filter_eq_self]
  intro r₀ hr₀
  simpa using hk r₀ hr₀

omit [DecidableEq ν] in
/-- The keys are those before, and that of the row. -/
theorem keys_filter_perm {r₀ : ρ} (hr₀ : r₀ ∈ t.rows) (hk : key r₀ = key r) :
    ((t.rows.filter fun r' => !decide (key r' = key r)) ++ [r]).map key |>.Perm
      (t.rows.map key) := by
  rw [List.map_append, List.map_singleton, ← hk]
  rw [List.perm_iff_count]
  intro k
  rw [List.count_append]
  have hfilter : ((t.rows.filter fun r' => !decide (key r' = key r₀)).map key) =
      (t.rows.map key).filter fun k => !decide (k = key r₀) := by
    rw [List.filter_map]
    rfl
  rw [hfilter]
  by_cases he : k = key r₀
  · subst he
    rw [List.count_eq_one_of_mem t.key_nodup (List.mem_map_of_mem hr₀),
      List.count_eq_zero_of_not_mem (by simp), List.count_singleton_self]
  · rw [List.count_filter (by simpa using he), List.count_singleton, if_neg (by simpa using Ne.symm he)]
    rfl

end Put

/-! ### Fresh integer keys -/

/-- The next rowid of an `INTEGER PRIMARY KEY`: one above the largest in use. -/
def nextId {key : ρ → Nat} (t : Table key name) : Nat := (t.rows.map key).foldr max 0 + 1

theorem le_foldr_max {xs : List Nat} {x : Nat} (h : x ∈ xs) : x ≤ xs.foldr max 0 := by
  induction xs with
  | nil => exact absurd h (List.not_mem_nil)
  | cons y ys ih =>
    rw [List.foldr_cons]
    rcases List.mem_cons.mp h with rfl | h
    · exact Nat.le_max_left _ _
    · exact (ih h).trans (Nat.le_max_right _ _)

theorem nextId_not_mem {key : ρ → Nat} (t : Table key name) : t.nextId ∉ t.rows.map key := by
  intro h
  have := le_foldr_max h
  rw [nextId] at this
  omega

theorem nextId_ne {key : ρ → Nat} {t : Table key name} {r : ρ} (h : r ∈ t.rows) :
    key r ≠ t.nextId := by
  intro he
  exact t.nextId_not_mem (he ▸ List.mem_map_of_mem h)

/-! ### Weights -/

/-- The sum of a weight over the rows. -/
def total (w : ρ → Int) (t : Table key name) : Int := (t.rows.map w).sum

@[simp] theorem total_empty (w : ρ → Int) : (empty : Table key name).total w = 0 := rfl

theorem total_nonneg {w : ρ → Int} {t : Table key name} (h : ∀ r ∈ t.rows, 0 ≤ w r) :
    0 ≤ t.total w := by
  rw [total]
  revert h
  induction t.rows with
  | nil => exact fun _ => le_refl 0
  | cons r rs ih =>
    intro h
    rw [List.map_cons, List.sum_cons]
    have hr := h r (List.mem_cons_self ..)
    have hrs := ih fun r' hr' => h r' (List.mem_cons_of_mem _ hr')
    omega

theorem total_insert? [DecidableEq κ] [DecidableEq ν] {t t' : Table key name} {r : ρ}
    (h : t.insert? r = some t') (w : ρ → Int) : t'.total w = t.total w + w r := by
  unfold total
  rw [(insert?_eq_some.mp h).2, List.map_append, List.sum_append]
  simp

theorem sum_map_ite_of_nodup {xs : List ρ} {r : ρ} (w w' : ρ → Int) (hx : xs.Nodup) (hr : r ∈ xs)
    (h : ∀ r' ∈ xs, r' ≠ r → w' r' = w r') : (xs.map w').sum = (xs.map w).sum + (w' r - w r) := by
  induction xs with
  | nil => exact absurd hr List.not_mem_nil
  | cons x xs ih =>
    rw [List.nodup_cons] at hx
    rw [List.map_cons, List.map_cons, List.sum_cons, List.sum_cons]
    by_cases he : x = r
    · subst he
      have hw : xs.map w' = xs.map w := by
        refine List.map_congr_left fun r' hr' => h r' (List.mem_cons_of_mem _ hr') ?_
        rintro rfl
        exact hx.1 hr'
      rw [hw]
      ring
    · have hr' : r ∈ xs := (List.mem_cons.mp hr).resolve_left (Ne.symm he)
      rw [h x (List.mem_cons_self ..) he,
        ih hx.2 hr' fun r' hm => h r' (List.mem_cons_of_mem _ hm)]
      ring

theorem rows_nodup (t : Table key name) : t.rows.Nodup := t.key_nodup.of_map

/-- An update that concerns a single row changes a total by that row's difference. -/
theorem total_update_one {t : Table key name} {p : ρ → Bool} {f : ρ → ρ} {hkey hname} {r : ρ}
    (hr : r ∈ t.rows) (hp : p r = true) (hone : ∀ r' ∈ t.rows, p r' = true → r' = r)
    (w : ρ → Int) :
    (t.update p f hkey hname).total w = t.total w + (w (f r) - w r) := by
  unfold total
  rw [rows_update, List.map_map]
  rw [sum_map_ite_of_nodup w (w ∘ fun r => if p r then f r else r) t.rows_nodup hr ?_]
  · simp [hp]
  · intro r' hr' hne
    have : p r' = false := by
      by_contra hb
      exact hne (hone r' hr' (by simpa using hb))
    simp [this]

theorem sum_filter_not_of_nodup {xs : List ρ} {r : ρ} (hx : xs.Nodup) (hr : r ∈ xs)
    {p : ρ → Bool} (hp : p r = true) (hone : ∀ r' ∈ xs, p r' = true → r' = r) (w : ρ → Int) :
    ((xs.filter fun r => !p r).map w).sum = (xs.map w).sum - w r := by
  induction xs with
  | nil => exact absurd hr List.not_mem_nil
  | cons x xs ih =>
    rw [List.nodup_cons] at hx
    by_cases he : x = r
    · subst he
      have hall : xs.filter (fun r => !p r) = xs := by
        rw [List.filter_eq_self]
        intro r' hr'
        by_contra hb
        have := hone r' (List.mem_cons_of_mem _ hr') (by simpa using hb)
        exact hx.1 (this ▸ hr')
      rw [List.filter_cons_of_neg (by simp [hp]), hall, List.map_cons, List.sum_cons]
      ring
    · have hr' : r ∈ xs := (List.mem_cons.mp hr).resolve_left (Ne.symm he)
      have hpx : p x = false := by
        by_contra hb
        exact he (hone x (List.mem_cons_self ..) (by simpa using hb))
      rw [List.filter_cons_of_pos (by simp [hpx]), List.map_cons, List.map_cons, List.sum_cons,
        List.sum_cons, ih hx.2 hr' fun r' hm => hone r' (List.mem_cons_of_mem _ hm)]
      ring

/-- Deleting a single row takes its weight out of a total. -/
theorem total_delete_one {t : Table key name} {p : ρ → Bool} {r : ρ} (hr : r ∈ t.rows)
    (hp : p r = true) (hone : ∀ r' ∈ t.rows, p r' = true → r' = r) (w : ρ → Int) :
    (t.delete p).total w = t.total w - w r := by
  rw [total]
  rw [rows_delete]
  exact sum_filter_not_of_nodup t.rows_nodup hr hp hone w

/-- Putting a row in the place of another changes a total by their difference. -/
theorem total_put?_old [DecidableEq κ] [DecidableEq ν] {t t' : Table key name} {r r₀ : ρ}
    (h : t.put? r = some t') (hr₀ : r₀ ∈ t.rows) (hk : key r₀ = key r) (w : ρ → Int) :
    t'.total w = t.total w + (w r - w r₀) := by
  have hd : (t.delete fun r' => key r' = key r).total w = t.total w - w r₀ := by
    refine total_delete_one hr₀ (by simp [hk]) (fun r' hr' hp => ?_) w
    exact key_inj hr' hr₀ ((of_decide_eq_true hp).trans hk.symm)
  rw [total_insert? (h : (t.delete _).insert? r = some t') w, hd]
  ring

theorem countP_eq_total (t : Table key name) (p : ρ → Bool) :
    (t.rows.countP p : Int) = t.total fun r => if p r then 1 else 0 := by
  rw [total]
  induction t.rows with
  | nil => rfl
  | cons r rs ih =>
    rw [List.countP_cons, List.map_cons, List.sum_cons, ← ih]
    split <;> push_cast <;> ring

/-- An update that makes the rows it concerns count adds as many of them. -/
theorem countP_update_add {t : Table key name} {p q : ρ → Bool} {f : ρ → ρ} {hkey hname}
    (h : ∀ r, p r = true → q r = false ∧ q (f r) = true) :
    (t.update p f hkey hname).rows.countP q = t.rows.countP q + t.rows.countP p := by
  rw [rows_update]
  induction t.rows with
  | nil => rfl
  | cons r rs ih =>
    rw [List.map_cons, List.countP_cons, List.countP_cons, List.countP_cons, ih]
    by_cases hp : p r = true
    · obtain ⟨hq, hqf⟩ := h r hp
      simp only [hp, if_true, hqf, hq]
      simp only [Bool.false_eq_true, if_false]
      omega
    · simp only [hp]
      simp only [Bool.false_eq_true, if_false]
      omega

/-- An update that makes the rows it concerns no longer count takes as many of them away. -/
theorem countP_update_sub {t : Table key name} {p q : ρ → Bool} {f : ρ → ρ} {hkey hname}
    (h : ∀ r, p r = true → q r = true ∧ q (f r) = false) :
    (t.update p f hkey hname).rows.countP q + t.rows.countP p = t.rows.countP q := by
  rw [rows_update]
  induction t.rows with
  | nil => rfl
  | cons r rs ih =>
    rw [List.map_cons, List.countP_cons, List.countP_cons, List.countP_cons, ← ih]
    by_cases hp : p r = true
    · obtain ⟨hq, hqf⟩ := h r hp
      simp only [hp, if_true, hqf, hq]
      simp only [Bool.false_eq_true, if_false]
      omega
    · simp only [hp]
      simp only [Bool.false_eq_true, if_false]
      omega

end Table
