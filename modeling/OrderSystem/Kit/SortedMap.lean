/-
# Finite maps that are read in the order of their keys

A Go map is iterated in no particular order, and code that wants a definite one collects the keys
and sorts them.  The result depends on the map only (`sortedKeys`), and together with the values
it determines the map (`sortedPairs_injective`).

The keys are in a type with a linear order that need not be an instance of Mathlib's class: lists
of bytes have one in core only.
-/
import Mathlib.Data.Finmap
import Mathlib.Data.List.Sort

namespace OrderSystem.Kit

variable {κ β : Type} [LE κ] [DecidableLE κ] [Std.IsLinearOrder κ]

/-- Sorting forgets the order it is given. -/
theorem insertionSort_congr {l l' : List κ} (h : l.Perm l') :
    l.insertionSort (· ≤ ·) = l'.insertionSort (· ≤ ·) := by
  refine List.Perm.eq_of_pairwise' (r := (· ≤ ·)) (List.pairwise_insertionSort _ _)
    (List.pairwise_insertionSort _ _) ?_
  exact (List.perm_insertionSort _ _).trans (h.trans (List.perm_insertionSort _ _).symm)

theorem sortedKeys_congr (a b : AList fun _ : κ => β) (h : a.entries.Perm b.entries) :
    a.keys.insertionSort (· ≤ ·) = b.keys.insertionSort (· ≤ ·) :=
  insertionSort_congr (h.map _)

/-- The keys of a map in increasing order. -/
def sortedKeys (m : Finmap fun _ : κ => β) : List κ :=
  m.liftOn (fun a => a.keys.insertionSort (· ≤ ·)) sortedKeys_congr

theorem pairwise_sortedKeys (m : Finmap fun _ : κ => β) :
    (sortedKeys m).Pairwise (· ≤ ·) := by
  induction m using Finmap.induction_on with
  | H a => exact List.pairwise_insertionSort _ _

theorem nodup_sortedKeys (m : Finmap fun _ : κ => β) : (sortedKeys m).Nodup := by
  induction m using Finmap.induction_on with
  | H a => exact (List.perm_insertionSort _ _).nodup_iff.mpr a.keys_nodup

variable [DecidableEq κ]

variable {m : Finmap fun _ : κ => β}

theorem mem_sortedKeys {k : κ} :
    k ∈ sortedKeys m ↔ ∃ v, m.lookup k = some v := by
  have hmem : k ∈ m ↔ ∃ v, m.lookup k = some v := Finmap.mem_iff
  rw [← hmem]
  induction m using Finmap.induction_on with
  | H a => exact (List.perm_insertionSort _ _).mem_iff

/-- The values of a map in the order of their keys. -/
def sortedValues (m : Finmap fun _ : κ => β) : List β := (sortedKeys m).filterMap m.lookup

theorem mem_sortedValues {v : β} :
    v ∈ sortedValues m ↔ ∃ k, m.lookup k = some v := by
  rw [sortedValues, List.mem_filterMap]
  constructor
  · rintro ⟨k, -, h⟩
    exact ⟨k, h⟩
  · rintro ⟨k, h⟩
    exact ⟨k, mem_sortedKeys.mpr ⟨v, h⟩, h⟩

/-- What relates the values of any two keys relates the values pairwise. -/
theorem pairwise_sortedValues {R : β → β → Prop}
    (h : ∀ k k' v v', k ≠ k' → m.lookup k = some v → m.lookup k' = some v' → R v v') :
    (sortedValues m).Pairwise R := by
  refine List.Pairwise.filterMap _ ?_ (nodup_sortedKeys m)
  intro k k' hne v hv v' hv'
  exact h k k' v v' hne hv hv'

/-- The entries of a map in the order of their keys. -/
def sortedPairs (m : Finmap fun _ : κ => β) : List (κ × β) :=
  (sortedKeys m).filterMap fun k => (m.lookup k).map fun v => (k, v)

theorem mem_sortedPairs {k : κ} {v : β} :
    (k, v) ∈ sortedPairs m ↔ m.lookup k = some v := by
  simp only [sortedPairs, List.mem_filterMap, Option.map_eq_some_iff, Prod.mk.injEq]
  constructor
  · rintro ⟨k', -, v', hv', rfl, rfl⟩
    exact hv'
  · intro h
    exact ⟨k, mem_sortedKeys.mpr ⟨v, h⟩, v, h, rfl, rfl⟩

theorem map_fst_sortedPairs (m : Finmap fun _ : κ => β) :
    (sortedPairs m).map Prod.fst = sortedKeys m := by
  rw [sortedPairs, List.map_filterMap]
  refine (List.filterMap_congr (g := some) fun k hk => ?_).trans List.filterMap_some
  obtain ⟨v, hv⟩ := mem_sortedKeys.mp hk
  simp [hv]

theorem sortedPairs_injective :
    Function.Injective (sortedPairs : (Finmap fun _ : κ => β) → List (κ × β)) := by
  intro m m' h
  refine Finmap.ext_lookup fun k => Option.ext fun v => ?_
  rw [← mem_sortedPairs, h, mem_sortedPairs]

end OrderSystem.Kit
