/-
# The key of a sample

A family keeps its samples in a map whose keys are texts, so a set of labels has to be turned
into a text that no other set of labels has.  Label values are arbitrary, and may contain every
character that the key uses as a separator.  `normalizeLabels` therefore writes the length of a
name or value in front of it, and the names in increasing order.

A length in front makes a word that can be told from what follows it, and so does a sequence of
such words (`Kit/Code.lean`); the digits of a length end at the colon.  So the key determines the
pairs (`key_injective`), and these determine the labels.
-/
import OrderSystem.Kit.Code
import OrderSystem.Metrics.Registry

namespace OrderSystem.Metrics

open Kit

/-! ## 1. Digits -/

theorem toDigits_injective : Function.Injective (Nat.toDigits 10) := by
  intro m n h
  rw [← Nat.ofDigitChars_ten_toDigits (n := m), h, Nat.ofDigitChars_ten_toDigits]

/-- A digit is a byte. -/
theorem toNat_digit {c : Char} {n : Nat} (h : c ∈ Nat.toDigits 10 n) :
    (UInt8.ofNat c.toNat).toNat = c.toNat ∧ 0x30 ≤ c.toNat ∧ c.toNat ≤ 0x39 := by
  have hrange : 0x30 ≤ c.toNat ∧ c.toNat ≤ 0x39 := by
    have hdigit := Nat.isDigit_of_mem_toDigits (by decide) (by decide) h
    simp only [Char.isDigit, Bool.and_eq_true, decide_eq_true_eq] at hdigit
    exact hdigit
  exact ⟨UInt8.toNat_ofNat_of_lt (hrange.2.trans_lt (by decide)), hrange⟩

theorem mem_digits {n : Nat} {b : UInt8} (h : b ∈ digits n) : isDigit b := by
  obtain ⟨c, hc, rfl⟩ := List.mem_map.mp h
  obtain ⟨hval, hrange⟩ := toNat_digit hc
  simp only [isDigit, Bool.and_eq_true, decide_eq_true_eq, UInt8.le_iff_toNat_le, hval]
  exact hrange

theorem digits_injective : Function.Injective digits := by
  have hback : ∀ n, (digits n).map (fun b => Char.ofNat b.toNat) = Nat.toDigits 10 n := by
    intro n
    rw [digits, List.map_map]
    refine (List.map_congr_left fun c hc => ?_).trans (List.map_id _)
    have hval := (toNat_digit hc).1
    simp [hval]
  intro m n h
  refine toDigits_injective ?_
  rw [← hback m, h, hback n]

/-- `strconv.FormatInt` to base 10. -/
def integerText (n : Int) : GoString :=
  if n < 0 then 0x2D :: digits n.natAbs else digits n.natAbs

theorem mem_integerText {n : Int} {b : UInt8} (h : b ∈ integerText n) :
    b = 0x2D ∨ isDigit b := by
  unfold integerText at h
  split at h
  · rcases List.mem_cons.mp h with rfl | h
    · exact Or.inl rfl
    · exact Or.inr (mem_digits h)
  · exact Or.inr (mem_digits h)

theorem integerText_injective : Function.Injective integerText := by
  have hsign : ∀ k l, (0x2D : UInt8) :: digits k ≠ digits l := by
    intro k l h
    exact absurd (mem_digits (h ▸ List.mem_cons_self)) (by decide)
  intro m n h
  unfold integerText at h
  split at h
  · split at h
    · have habs := digits_injective (List.cons.inj h).2
      omega
    · exact absurd h (hsign _ _)
  · split at h
    · exact absurd h.symm (hsign _ _)
    · have habs := digits_injective h
      omega

/-- Whole numbers below a million as numbers of the registry: `FormatFloat` writes them in
decimal. -/
instance wholeNumbers : Float64 Int where
  toLinearOrder := inferInstance
  isNaN _ := false
  isInf _ := false
  zero := 0
  add m n := m + n
  ofCount n := n.toNat
  formatFloat := integerText
  formatFloat_clean n b hb := by
    have hb := mem_integerText hb
    constructor
    · rintro rfl
      exact absurd hb (by decide)
    · rintro rfl
      exact absurd hb (by decide)
  formatFloat_inj m n _ _ h := integerText_injective h
  formatFloat_ne_inf n _ h := by
    have hplus : (0x2B : UInt8) ∈ str "+Inf" := by decide +kernel
    exact absurd (mem_integerText (h ▸ hplus)) (by decide)

/-! ## 2. The key determines the labels -/

/-- A name or a value with its length, as the key has it. -/
theorem instant_field : Instant fun w : GoString => (digits w.length ++ [0x3A]) ++ w := by
  have hcolon : ∀ n, (0x3A : UInt8) ∉ digits n := by
    intro n h
    exact absurd (mem_digits h) (by decide)
  exact (Instant.terminated digits_injective hcolon).counted

theorem instant_pairKey : Instant LabelPair.key := by
  have hsplit : Function.Injective fun pair : LabelPair => (pair.name, pair.value) := by
    rintro ⟨n, v⟩ ⟨n', v'⟩ h
    obtain ⟨rfl, rfl⟩ := Prod.mk.inj h
    rfl
  have hcode := ((instant_field.append_fixed [0x3D]).prod (instant_field.append_fixed [0x3B])).comp
    hsplit
  intro pair pair' r s h
  refine hcode pair pair' r s ?_
  simpa only [LabelPair.key, List.append_assoc] using h

theorem pairs_injective : Function.Injective Labels.pairs := by
  intro A B h
  refine sortedPairs_injective (List.map_injective_iff.mpr ?_ h)
  rintro ⟨n, v⟩ ⟨n', v'⟩ hpair
  obtain ⟨rfl, rfl⟩ := LabelPair.mk.inj hpair
  rfl

theorem key_injective : Function.Injective Labels.key := by
  intro A B h
  refine pairs_injective (instant_pairKey.flatMap_injective ?_ h)
  intro pair hnil
  simp [LabelPair.key] at hnil

/-! ## 3. Samples -/

/-- Labels that `normalizeLabels` accepts. -/
def Labels.Valid (labels : Labels) : Prop := ∀ name ∈ sortedKeys labels, ValidLabelName name

instance (labels : Labels) : Decidable labels.Valid :=
  inferInstanceAs (Decidable (∀ _ ∈ _, _))

theorem normalizeLabels_of_valid {labels : Labels} (h : labels.Valid) :
    normalizeLabels labels = .ok (labels.pairs, labels.key) := by
  have hnone : (sortedKeys labels).find? (fun name => ¬ ValidLabelName name) = none := by
    rw [List.find?_eq_none]
    intro name hname
    simpa using h name hname
  rw [normalizeLabels, hnone]

theorem valid_of_normalizeLabels {labels : Labels} {pairs : List LabelPair} {key : GoString}
    (h : normalizeLabels labels = .ok (pairs, key)) :
    labels.Valid ∧ pairs = labels.pairs ∧ key = labels.key := by
  rw [normalizeLabels] at h
  split at h
  · exact absurd h nofun
  · rename_i hnone
    obtain ⟨rfl, rfl⟩ := Prod.mk.inj (Except.ok.inj h)
    refine ⟨fun name hname => ?_, rfl, rfl⟩
    simpa using List.find?_eq_none.mp hnone name hname

section

variable {F : Type} [Float64 F]

/-- The sample for these labels, which is new if there is none. -/
def Family.sampleOf (metric : Family F) (labels : Labels) : Sample F :=
  (metric.samples.lookup labels.key).getD (metric.newSample labels.pairs)

/-- `sampleLocked` finds or makes the sample under the key of the labels, where the caller then
writes. -/
theorem sampleLocked_of_valid {labels : Labels} (h : labels.Valid) (metric : Family F) :
    ∃ samples, metric.sampleLocked labels =
        .ok ({ metric with samples := samples }, labels.key, metric.sampleOf labels) ∧
      ∀ entry, samples.insert labels.key entry = metric.samples.insert labels.key entry := by
  rw [Family.sampleLocked, normalizeLabels_of_valid h, Family.sampleOf]
  cases hlookup : metric.samples.lookup labels.key with
  | some entry => exact ⟨metric.samples, by simp [hlookup], fun _ => rfl⟩
  | none =>
    exact ⟨metric.samples.insert labels.key (metric.newSample labels.pairs), by simp [hlookup],
      fun _ => Finmap.insert_insert _⟩

theorem valid_of_sampleLocked {labels : Labels} {metric : Family F}
    {result : Family F × GoString × Sample F} (h : metric.sampleLocked labels = .ok result) :
    labels.Valid := by
  rw [Family.sampleLocked] at h
  split at h
  · exact absurd h nofun
  · rename_i pairs key hnormal
    exact (valid_of_normalizeLabels hnormal).1

/-- The key identifies the labels; two updates of a family write to the same sample exactly when
their labels are the same, and the second one then finds what the first one wrote. -/
theorem key_identifies {A B : Labels} (hA : A.Valid) (hB : B.Valid) :
    (∃ pairsA keyA pairsB keyB, normalizeLabels A = .ok (pairsA, keyA) ∧
      normalizeLabels B = .ok (pairsB, keyB) ∧ (keyA = keyB ↔ A = B)) ∧
    ∀ (metric : Family F) (written : Sample F), ∃ metricA keyA entryA metricB keyB entryB,
      metric.sampleLocked A = .ok (metricA, keyA, entryA) ∧
      { metricA with samples := metricA.samples.insert keyA written }.sampleLocked B =
        .ok (metricB, keyB, entryB) ∧
      (keyA = keyB ↔ A = B) ∧ (A = B → entryB = written) := by
  have hkey : A.key = B.key ↔ A = B := key_injective.eq_iff
  constructor
  · exact ⟨_, _, _, _, normalizeLabels_of_valid hA, normalizeLabels_of_valid hB, hkey⟩
  · intro metric written
    obtain ⟨samplesA, hlockA, -⟩ := sampleLocked_of_valid hA metric
    obtain ⟨samplesB, hlockB, -⟩ := sampleLocked_of_valid hB
      { metric with samples := samplesA.insert A.key written }
    refine ⟨_, A.key, _, _, B.key, _, hlockA, hlockB, hkey, ?_⟩
    rintro rfl
    rw [Family.sampleOf, Finmap.lookup_insert]
    rfl

/-- A value that contains what the key puts between two labels. -/
theorem key_identifies_separators :
    ∃ pairsA keyA pairsB keyB,
      normalizeLabels (Finmap.insert (str "a") (str "1:b=1:c;") ∅) = .ok (pairsA, keyA) ∧
      normalizeLabels (Finmap.insert (str "a") [] (Finmap.insert (str "b") (str "c") ∅)) =
        .ok (pairsB, keyB) ∧ keyA ≠ keyB := by
  obtain ⟨⟨pairsA, keyA, pairsB, keyB, hA, hB, hkey⟩, -⟩ :=
    key_identifies (F := Int) (A := Finmap.insert (str "a") (str "1:b=1:c;") ∅)
      (B := Finmap.insert (str "a") [] (Finmap.insert (str "b") (str "c") ∅))
      (by decide +kernel) (by decide +kernel)
  refine ⟨pairsA, keyA, pairsB, keyB, hA, hB, ?_⟩
  intro h
  exact absurd (hkey.mp h) (by decide +kernel)

end

end OrderSystem.Metrics
