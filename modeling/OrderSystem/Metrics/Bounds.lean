/-
# Bounds and buckets

The two loops of the histograms.  `normalizeBounds` sorts a copy of the bounds and removes the
repetitions in place: the slice it appends to shares the array that it ranges over.  The append
never overtakes the reading index, so the loop does what it would do with a slice of its own
(`compact_eq`), and the result is the strictly increasing list of the given bounds
(`normalizeBounds_spec`).

`ObserveHistogram` then goes over the bounds and adds one to the bucket of each that the value
does not exceed (`countInto_map`).
-/
import OrderSystem.Metrics.Registry

namespace OrderSystem.Metrics

variable {F : Type} [Float64 F]

/-! ## 1. Without repetitions -/

/-- The loop of `normalizeBounds` with a result of its own. -/
def keepDistinct : (kept : List F) → List F → Except Panic (List F)
  | kept, [] => .ok kept
  | kept, value :: rest =>
    if notFinite value then .error (str "histogram bounds must be finite")
    else if kept.getLast? ≠ some value then keepDistinct (kept ++ [value]) rest
    else keepDistinct kept rest

omit [Float64 F] in
/-- The cell behind the result is overwritten; `gap` is what was read and not kept. -/
theorem set_append (kept gap rest : List F) (value : F) :
    (kept ++ gap ++ value :: rest).set kept.length value =
      (kept ++ [value]) ++ (gap ++ [value]).tail ++ rest := by
  cases gap with
  | nil => simp [List.set_append_right]
  | cons g gap => simp [List.set_append_right]

/-- The array is the result, then what was read and not kept, then what is to be read. -/
theorem compact_eq (rest kept gap : List F) :
    compact rest.length (kept ++ gap ++ rest) (kept.length + gap.length) kept.length =
      keepDistinct kept rest := by
  induction rest generalizing kept gap with
  | nil => simp [compact, keepDistinct]
  | cons value rest ih =>
    have hread : (kept ++ gap ++ value :: rest).getD (kept.length + gap.length) Float64.zero =
        value := by
      rw [← List.length_append, List.getD_eq_getElem?_getD, List.getElem?_append_right le_rfl]
      simp
    have hlast : (kept.length = 0 ∨
        (kept ++ gap ++ value :: rest)[kept.length - 1]? ≠ some value) ↔
        kept.getLast? ≠ some value := by
      rcases List.eq_nil_or_concat kept with rfl | ⟨kept, last, rfl⟩
      · simp
      · simp
    rw [List.length_cons, compact, keepDistinct]
    simp only [hread, hlast]
    split
    · rfl
    · split
      · rw [set_append]
        have hih := ih (kept ++ [value]) (gap ++ [value]).tail
        simpa [Nat.add_assoc, Nat.add_comm 1] using hih
      · have hih := ih kept (gap ++ [value])
        simpa [Nat.add_assoc] using hih

/-- What the loop has kept, and what is still to be read. -/
structure Compacting (kept rest : List F) : Prop where
  increasing : kept.Pairwise (· < ·)
  finite : ∀ x ∈ kept, notFinite x = false
  sorted : rest.Pairwise (· ≤ ·)
  between : ∀ x ∈ kept, ∀ y ∈ rest, x ≤ y

namespace Compacting

variable {kept rest : List F} {value : F}

theorem skip (h : Compacting kept (value :: rest)) : Compacting kept rest where
  increasing := h.increasing
  finite := h.finite
  sorted := (List.pairwise_cons.mp h.sorted).2
  between x hx y hy := h.between x hx y (List.mem_cons_of_mem value hy)

/-- A value that is not the last one kept is greater than all of them. -/
theorem lt_of_last_ne (h : Compacting kept (value :: rest)) (hlast : kept.getLast? ≠ some value) :
    ∀ x ∈ kept, x < value := by
  intro x hx
  refine lt_of_le_of_ne (h.between x hx value List.mem_cons_self) ?_
  rintro rfl
  rcases List.eq_nil_or_concat kept with rfl | ⟨kept, last, rfl⟩
  · exact absurd hx List.not_mem_nil
  · rw [List.concat_eq_append] at h hx hlast
    have hle := h.between last (by simp) x List.mem_cons_self
    have hlt := (List.pairwise_append.mp h.increasing).2.2
    rcases List.mem_append.mp hx with hx | hx
    · exact absurd (hlt x hx last (by simp)) (not_lt.mpr hle)
    · rw [List.mem_singleton.mp hx] at hlast
      exact hlast (by simp)

theorem keep (h : Compacting kept (value :: rest)) (hfinite : notFinite value = false)
    (hlast : kept.getLast? ≠ some value) : Compacting (kept ++ [value]) rest where
  increasing := by
    refine List.pairwise_append.mpr ⟨h.increasing, List.pairwise_singleton _ _, ?_⟩
    intro x hx y hy
    rw [List.mem_singleton.mp hy]
    exact h.lt_of_last_ne hlast x hx
  finite x hx := by
    rcases List.mem_append.mp hx with hx | hx
    · exact h.finite x hx
    · rw [List.mem_singleton.mp hx]
      exact hfinite
  sorted := (List.pairwise_cons.mp h.sorted).2
  between x hx y hy := by
    rcases List.mem_append.mp hx with hx | hx
    · exact h.between x hx y (List.mem_cons_of_mem value hy)
    · rw [List.mem_singleton.mp hx]
      exact (List.pairwise_cons.mp h.sorted).1 y hy

end Compacting

theorem keepDistinct_spec {kept rest result : List F} (h : Compacting kept rest)
    (hresult : keepDistinct kept rest = .ok result) :
    Compacting result [] ∧ ∀ x, x ∈ result ↔ x ∈ kept ∨ x ∈ rest := by
  induction rest generalizing kept with
  | nil =>
    obtain rfl := Except.ok.inj hresult
    exact ⟨h, fun x => by simp⟩
  | cons value rest ih =>
    rw [keepDistinct] at hresult
    split at hresult
    · exact absurd hresult nofun
    · rename_i hfinite
      split at hresult
      · rename_i hlast
        obtain ⟨hdone, hmem⟩ := ih (h.keep (Bool.not_eq_true _ ▸ hfinite) hlast) hresult
        refine ⟨hdone, fun x => ?_⟩
        rw [hmem, List.mem_append, List.mem_singleton, List.mem_cons, or_assoc]
      · rename_i hlast
        obtain ⟨hdone, hmem⟩ := ih h.skip hresult
        have hvalue : value ∈ kept := List.mem_of_getLast? (not_not.mp hlast)
        refine ⟨hdone, fun x => ?_⟩
        rw [hmem, List.mem_cons]
        constructor
        · rintro (hx | hx)
          · exact Or.inl hx
          · exact Or.inr (Or.inr hx)
        · rintro (hx | rfl | hx)
          · exact Or.inl hx
          · exact Or.inl hvalue
          · exact Or.inr hx

/-- The bounds of a family: finite, strictly increasing, and those that were given. -/
structure BoundsOf (given bounds : List F) : Prop where
  increasing : bounds.Pairwise (· < ·)
  finite : ∀ x ∈ bounds, notFinite x = false
  same : ∀ x, x ∈ bounds ↔ x ∈ given

theorem normalizeBounds_spec {given bounds : List F} (h : normalizeBounds given = .ok bounds) :
    BoundsOf given bounds := by
  rw [normalizeBounds] at h
  split at h
  · exact absurd h nofun
  · have hcompact := compact_eq (given.insertionSort (· ≤ ·)) [] []
    simp only [List.nil_append, List.length_nil, Nat.add_zero] at hcompact
    dsimp only at h
    rw [hcompact] at h
    have hstart : Compacting [] (given.insertionSort (· ≤ ·)) :=
      ⟨List.Pairwise.nil, nofun, List.pairwise_insertionSort _ _, nofun⟩
    obtain ⟨hdone, hmem⟩ := keepDistinct_spec hstart h
    refine ⟨hdone.increasing, hdone.finite, fun x => ?_⟩
    simp [hmem]

theorem equalBounds_iff {left right : List F} : equalBounds left right ↔ left = right := by
  simp only [equalBounds, Bool.and_eq_true, decide_eq_true_eq, List.all_eq_true]
  constructor
  · rintro ⟨hlength, hall⟩
    refine List.ext_getElem hlength fun i hi hi' => ?_
    exact hall (left[i], right[i]) (List.mem_iff_getElem.mpr ⟨i, by simp [hi, hi'], by simp⟩)
  · rintro rfl
    refine ⟨rfl, ?_⟩
    rintro ⟨l, r⟩ hmem
    obtain ⟨i, hi, hget⟩ := List.mem_iff_getElem.mp hmem
    rw [List.getElem_zip] at hget
    obtain ⟨rfl, rfl⟩ := Prod.mk.inj hget
    exact rfl

/-! ## 2. Counting a value -/

/-- The loop over the bounds, when the buckets behind `done` belong to the bounds that are
left. -/
theorem countInto_map (value : F) (count : F → UInt64) (bounds : List F) (done : List UInt64) :
    countInto value bounds done.length (done ++ bounds.map count) =
      done ++ bounds.map fun bound => if value ≤ bound then count bound + 1 else count bound := by
  induction bounds generalizing done with
  | nil => rfl
  | cons bound bounds ih =>
    rw [countInto]
    split
    · have hih := ih (done ++ [count bound + 1])
      have hmodify : (done ++ (bound :: bounds).map count).modify done.length (· + 1) =
          done ++ [count bound + 1] ++ bounds.map count := by
        rw [List.modify_eq_take_cons_drop (by simp)]
        simp
      rw [hmodify]
      simpa [*] using hih
    · have hih := ih (done ++ [count bound])
      simpa [*] using hih

end OrderSystem.Metrics
