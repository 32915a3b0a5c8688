/-
# Tables with generated ids

A table whose rows get increasing ids from the table itself, the way an `AUTO_INCREMENT`
primary key does.  That no row stands at an id not yet given out is a field of the structure,
so an insert cannot hit an existing row and nothing has to be assumed about fresh ids.

`search` and `select` are the two ways a statement looks for rows by their content: the first
row that matches, and all of them in id order.
-/
import Mathlib.Logic.Function.Basic
import Mathlib.Data.List.Nodup

namespace OrderSystem.Kit

/-- Rows under the ids `1, 2, …` that have been given out. -/
structure Table (ρ : Type) where
  next : Nat
  row : Nat → Option ρ
  next_pos : 0 < next
  zero : row 0 = none
  fresh : ∀ i, next ≤ i → row i = none

namespace Table

variable {ρ : Type}

/-- No rows. -/
def empty : Table ρ := ⟨1, fun _ => none, Nat.one_pos, rfl, fun _ _ => rfl⟩

/-- A new row under the next id. -/
def insert (t : Table ρ) (r : ρ) : Table ρ where
  next := t.next + 1
  row := Function.update t.row t.next (some r)
  next_pos := Nat.succ_pos _
  zero := by
    rw [Function.update_of_ne (Nat.ne_of_lt t.next_pos)]
    exact t.zero
  fresh i hi := by
    rw [Function.update_of_ne (by omega)]
    exact t.fresh i (by omega)

/-- Change the row under one id, if there is one. -/
def modify (t : Table ρ) (i : Nat) (f : ρ → ρ) : Table ρ where
  next := t.next
  row j := if j = i then (t.row j).map f else t.row j
  next_pos := t.next_pos
  zero := by
    split
    · rw [t.zero]; rfl
    · exact t.zero
  fresh j hj := by
    split
    · rw [t.fresh j hj]; rfl
    · exact t.fresh j hj

/-- Take the row under one id away. -/
def remove (t : Table ρ) (i : Nat) : Table ρ where
  next := t.next
  row j := if j = i then none else t.row j
  next_pos := t.next_pos
  zero := by
    split
    · rfl
    · exact t.zero
  fresh j hj := by
    split
    · rfl
    · exact t.fresh j hj

/-- Change every row. -/
def mapRows (t : Table ρ) (f : Nat → ρ → ρ) : Table ρ where
  next := t.next
  row j := (t.row j).map (f j)
  next_pos := t.next_pos
  zero := by rw [t.zero]; rfl
  fresh j hj := by rw [t.fresh j hj]; rfl

/-- Another type of rows under the same ids. -/
def map {σ : Type} (t : Table ρ) (f : ρ → σ) : Table σ where
  next := t.next
  row j := (t.row j).map f
  next_pos := t.next_pos
  zero := by rw [t.zero]; rfl
  fresh j hj := by rw [t.fresh j hj]; rfl

/-- The first row that matches, with its id. -/
def search (t : Table ρ) (p : ρ → Bool) : Option (Nat × ρ) :=
  (List.range t.next).findSome? fun i => ((t.row i).filter p).map fun r => (i, r)

/-- The rows that match, with their ids, in id order. -/
def select (t : Table ρ) (p : ρ → Bool) : List (Nat × ρ) :=
  (List.range t.next).filterMap fun i => ((t.row i).filter p).map fun r => (i, r)

/-! ## Rows after an operation -/

@[simp] theorem empty_row (i : Nat) : (empty : Table ρ).row i = none := rfl

theorem insert_row (t : Table ρ) (r : ρ) (i : Nat) :
    (t.insert r).row i = if i = t.next then some r else t.row i :=
  Function.update_apply t.row t.next (some r) i

@[simp] theorem insert_row_next (t : Table ρ) (r : ρ) : (t.insert r).row t.next = some r := by
  simp [insert_row]

variable {t : Table ρ} {i : Nat} {r : ρ} {p : ρ → Bool}

theorem ne_next (h : t.row i = some r) : i ≠ t.next := by
  rintro rfl
  rw [t.fresh _ (Nat.le_refl _)] at h
  exact absurd h (by simp)

/-- Rows stay where they are when another is inserted. -/
theorem insert_row_of_some {r' : ρ} (h : t.row i = some r) :
    (t.insert r').row i = some r := by
  rw [insert_row, if_neg (ne_next h), h]

theorem pos_of_row (h : t.row i = some r) : 0 < i := by
  rcases Nat.eq_zero_or_pos i with rfl | hi
  · rw [t.zero] at h
    exact absurd h (by simp)
  · exact hi

theorem lt_next (h : t.row i = some r) : i < t.next := by
  by_contra hc
  rw [t.fresh i (Nat.le_of_not_lt hc)] at h
  exact absurd h (by simp)

theorem modify_row (t : Table ρ) (i : Nat) (f : ρ → ρ) (j : Nat) :
    (t.modify i f).row j = if j = i then (t.row j).map f else t.row j := rfl

@[simp] theorem modify_row_self (t : Table ρ) (i : Nat) (f : ρ → ρ) :
    (t.modify i f).row i = (t.row i).map f := by
  simp [modify_row]

theorem remove_row (t : Table ρ) (i j : Nat) :
    (t.remove i).row j = if j = i then none else t.row j := rfl

@[simp] theorem mapRows_row (t : Table ρ) (f : Nat → ρ → ρ) (j : Nat) :
    (t.mapRows f).row j = (t.row j).map (f j) := rfl

/-! ## Searching -/

theorem search_eq_some (h : t.search p = some (i, r)) : t.row i = some r ∧ p r = true := by
  obtain ⟨j, -, hj⟩ := List.exists_of_findSome?_eq_some h
  obtain ⟨r', hr', heq⟩ := Option.map_eq_some_iff.mp hj
  obtain ⟨rfl, rfl⟩ := Prod.mk.inj heq
  exact Option.filter_eq_some_iff.mp hr'

theorem search_eq_none (h : t.search p = none) (hr : t.row i = some r) : p r = false := by
  have hi := List.findSome?_eq_none_iff.mp h i (List.mem_range.mpr (lt_next hr))
  rw [Option.map_eq_none_iff, hr] at hi
  by_contra hp
  rw [Bool.not_eq_false] at hp
  simp [Option.filter, hp] at hi

theorem mem_select :
    (i, r) ∈ t.select p ↔ t.row i = some r ∧ p r = true := by
  constructor
  · intro h
    obtain ⟨j, -, hj⟩ := List.mem_filterMap.mp h
    obtain ⟨r', hr', heq⟩ := Option.map_eq_some_iff.mp hj
    obtain ⟨rfl, rfl⟩ := Prod.mk.inj heq
    exact Option.filter_eq_some_iff.mp hr'
  · rintro ⟨hr, hp⟩
    refine List.mem_filterMap.mpr ⟨i, List.mem_range.mpr (lt_next hr), ?_⟩
    simp [hr, Option.filter, hp]

/-- Selecting from what is selected. -/
theorem select_filter (t : Table ρ) (p q : ρ → Bool) :
    (t.select p).filter (fun e => q e.2) = t.select fun r => p r && q r := by
  rw [select, List.filter_filterMap]
  refine List.filterMap_congr fun i _ => ?_
  cases t.row i with
  | none => rfl
  | some r => cases hp : p r <;> cases hq : q r <;> simp [Option.filter, hp, hq]

/-- Selecting from translated rows. -/
theorem select_map {σ : Type} (t : Table ρ) (f : ρ → σ) (p : σ → Bool) :
    (t.map f).select p = (t.select fun r => p (f r)).map fun e => (e.1, f e.2) := by
  rw [select, select, List.map_filterMap]
  refine List.filterMap_congr fun i _ => ?_
  cases hr : t.row i with
  | none => simp [map, hr]
  | some r => cases hp : p (f r) <;> simp [map, hr, Option.filter, hp]

/-- No id is selected twice. -/
theorem select_nodup (t : Table ρ) (p : ρ → Bool) : ((t.select p).map Prod.fst).Nodup := by
  have hfst : ∀ i, Option.map Prod.fst (((t.row i).filter p).map fun r => (i, r)) =
      ((t.row i).filter p).map fun _ => i := fun i => by
    rw [Option.map_map]
    rfl
  rw [select, List.map_filterMap]
  simp only [hfst]
  refine List.Nodup.filterMap (fun i j k hi hj => ?_) List.nodup_range
  obtain ⟨_, _, rfl⟩ := Option.map_eq_some_iff.mp (Option.mem_def.mp hi)
  obtain ⟨_, _, rfl⟩ := Option.map_eq_some_iff.mp (Option.mem_def.mp hj)
  rfl

/-! ## Counting -/

/-- The ids of the rows that match. -/
def ids (t : Table ρ) (p : Nat → ρ → Bool) : List Nat :=
  (List.range t.next).filter fun i => (t.row i).any (p i)

theorem mem_ids {p : Nat → ρ → Bool} :
    i ∈ t.ids p ↔ ∃ r, t.row i = some r ∧ p i r = true := by
  rw [ids, List.mem_filter, List.mem_range, Option.any_eq_true]
  constructor
  · exact fun h => h.2
  · rintro ⟨r, hr, hp⟩
    exact ⟨lt_next hr, r, hr, hp⟩

theorem ids_nodup (t : Table ρ) (p : Nat → ρ → Bool) : (t.ids p).Nodup :=
  List.nodup_range.filter _

end Table

end OrderSystem.Kit
