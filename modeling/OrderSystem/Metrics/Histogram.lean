/-
# Histograms count

A histogram has one sample for each set of labels, with the number of its observations and, for
each bound, the number of those that do not exceed it.  `histogram_counts` compares them with the
history: whatever calls are made on the registry, on the same family and on others, with the
bounds in any order and with repetitions, the counts are those of the observations that were made
with the labels of the sample.

The counts are `uint64`, so this is so modulo 2^64; it is exact for labels with fewer than 2^64
observations, and then the buckets increase with the bounds up to the number of observations.
-/
import OrderSystem.Metrics.Updates

namespace OrderSystem.Metrics

open Kit

variable {F : Type}

/-! ## 1. Observations -/

/-- The value that a call observes for these labels of this family. -/
def Call.observed (name : GoString) (labels : Labels) : Call F → Option F
  | .observeHistogram n _ l value _ => if n = name ∧ l = labels then some value else none
  | _ => none

/-- The values that were observed, in order. -/
def observations (name : GoString) (labels : Labels) (calls : List (Call F)) : List F :=
  calls.filterMap (Call.observed name labels)

variable {name : GoString} {labels : Labels} {call : Call F} {calls : List (Call F)}
  {observed bounds : List F} {entry : Sample F} {registry : Registry F}

theorem observations_append_of_none (calls : List (Call F)) (h : call.observed name labels = none) :
    observations name labels (calls ++ [call]) = observations name labels calls := by
  simp [observations, h]

theorem observations_append_of_some (calls : List (Call F)) {value : F}
    (h : call.observed name labels = some value) :
    observations name labels (calls ++ [call]) = observations name labels calls ++ [value] := by
  simp [observations, h]

theorem Call.observed_of_ne (h : call.name ≠ name ∨ call.labels ≠ labels) :
    call.observed name labels = none := by
  cases call with
  | addCounter n help l delta => rfl
  | setGauge n help l value => rfl
  | observeHistogram n help l value bounds =>
    rw [Call.observed, if_neg]
    rintro ⟨hname, hlabels⟩
    exact h.elim (fun h => h hname) fun h => h hlabels

theorem observations_ne_nil (h : observations name labels calls ≠ []) :
    ∃ help value bounds, Call.observeHistogram name help labels value bounds ∈ calls := by
  obtain ⟨value, hvalue⟩ := List.exists_mem_of_ne_nil _ h
  obtain ⟨call, hcall, hobserved⟩ := List.mem_filterMap.mp hvalue
  cases call with
  | addCounter n help l delta => exact absurd hobserved nofun
  | setGauge n help l value => exact absurd hobserved nofun
  | observeHistogram n help l value bounds =>
    rw [Call.observed] at hobserved
    split at hobserved
    · rename_i hsame
      obtain ⟨rfl, rfl⟩ := hsame
      exact ⟨help, value, bounds, hcall⟩
    · exact absurd hobserved nofun

/-! ## 2. The counts of one sample -/

variable [Float64 F]

/-- The sample counts these values. -/
structure Counts (observed bounds : List F) (entry : Sample F) : Prop where
  total : entry.histogramN = UInt64.ofNat observed.length
  buckets : entry.buckets = bounds.map fun bound => UInt64.ofNat (observed.countP (· ≤ bound))

theorem Counts.new {metric : Family F} (h : metric.kind = .histogram) (pairs : List LabelPair) :
    Counts [] metric.bounds (metric.newSample pairs) where
  total := rfl
  buckets := by
    rw [Family.newSample, if_pos h]
    simp [List.map_const']

/-- One more observation. -/
theorem Counts.observe (h : Counts observed bounds entry) (value sum : F) :
    Counts (observed ++ [value]) bounds
      { entry with
        histogramN := entry.histogramN + 1
        histogramSum := sum
        buckets := countInto value bounds 0 entry.buckets } where
  total := by
    rw [List.length_append, List.length_singleton, UInt64.ofNat_add, ← h.total]
    rfl
  buckets := by
    have hloop := countInto_map value
      (fun bound => UInt64.ofNat (observed.countP (· ≤ bound))) bounds []
    simp only [List.length_nil, List.nil_append] at hloop
    rw [h.buckets]
    refine hloop.trans (List.map_congr_left fun bound _ => ?_)
    rw [List.countP_append, List.countP_singleton]
    split
    · rename_i hle
      simp [hle, UInt64.ofNat_add]
    · rename_i hgt
      simp [hgt]

/-- Fewer than 2^64 observations are counted exactly. -/
theorem Counts.exact (h : Counts observed bounds entry) (hfew : observed.length < 2 ^ 64) :
    entry.histogramN.toNat = observed.length ∧
      entry.buckets.map UInt64.toNat = bounds.map fun bound => observed.countP (· ≤ bound) := by
  constructor
  · rw [h.total]
    exact UInt64.toNat_ofNat_of_lt hfew
  · rw [h.buckets, List.map_map]
    refine List.map_congr_left fun bound _ => ?_
    exact UInt64.toNat_ofNat_of_lt (List.countP_le_length.trans_lt hfew)

/-- The buckets increase with the bounds. -/
theorem Counts.monotone (h : Counts observed bounds entry) (hfew : observed.length < 2 ^ 64)
    (hincreasing : bounds.Pairwise (· < ·)) :
    entry.buckets.Pairwise (· ≤ ·) ∧ ∀ n ∈ entry.buckets, n ≤ entry.histogramN := by
  have hcount : ∀ bound, (UInt64.ofNat (observed.countP (· ≤ bound))).toNat =
      observed.countP (· ≤ bound) :=
    fun bound => UInt64.toNat_ofNat_of_lt (List.countP_le_length.trans_lt hfew)
  constructor
  · rw [h.buckets, List.pairwise_map]
    refine hincreasing.imp fun {a b} hab => ?_
    rw [UInt64.le_iff_toNat_le, hcount, hcount]
    refine List.countP_mono_left fun x _ hx => ?_
    simp only [decide_eq_true_eq] at hx ⊢
    exact hx.trans hab.le
  · intro n hn
    rw [h.buckets] at hn
    obtain ⟨bound, -, rfl⟩ := List.mem_map.mp hn
    rw [UInt64.le_iff_toNat_le, hcount, (h.exact hfew).1]
    exact List.countP_le_length

/-! ## 3. The counts of the registry -/

/-- The registry counts the observations of the calls. -/
structure Counted (calls : List (Call F)) (registry : Registry F) : Prop where
  present : ∀ name help labels value given,
    Call.observeHistogram name help labels value given ∈ calls →
    ∃ metric entry, registry.families.lookup name = some metric ∧ metric.kind = .histogram ∧
      normalizeBounds given = .ok metric.bounds ∧ metric.samples.lookup labels.key = some entry
  counts : ∀ name metric labels entry, registry.families.lookup name = some metric →
    metric.kind = .histogram → metric.samples.lookup labels.key = some entry →
    Counts (observations name labels calls) metric.bounds entry

/-- A call that writes to a histogram is an observation. -/
theorem Counts.write (hkind : call.kind = .histogram)
    (h : Counts (observations call.name call.labels calls) bounds entry) :
    Counts (observations call.name call.labels (calls ++ [call])) bounds
      (call.write bounds entry) := by
  cases call with
  | addCounter name help labels number | setGauge name help labels number => cases hkind
  | observeHistogram name help labels value given =>
    have hobserved : (Call.observeHistogram name help labels value given).observed name
        labels = some value := if_pos ⟨rfl, rfl⟩
    exact observations_append_of_some calls hobserved ▸ h.observe value _

/-- The sample a call writes to counts the observations before it, also if it is new. -/
theorem Counted.sampleOf (h : Counted calls registry)
    (hkind : (registry.metricOf call bounds).kind = .histogram) :
    Counts (observations call.name call.labels calls) (registry.metricOf call bounds).bounds
      ((registry.metricOf call bounds).sampleOf call.labels) := by
  rw [Family.sampleOf]
  cases hentry : (registry.metricOf call bounds).samples.lookup call.labels.key with
  | some entry =>
    exact h.counts call.name _ call.labels entry (lookup_metricOf hentry) hkind hentry
  | none =>
    have hnone : observations call.name call.labels calls = [] := by
      by_contra hne
      obtain ⟨help, value, given, hcall⟩ := observations_ne_nil hne
      obtain ⟨metric, entry, hmetric, -, -, hlookup⟩ := h.present _ _ _ _ _ hcall
      rw [Registry.metricOf, Registry.familyOf, hmetric, Option.getD_some, hlookup] at hentry
      cases hentry
    rw [hnone]
    exact Counts.new hkind _

theorem Counted.step {registry' : Registry F} (h : Counted calls registry)
    (hstep : step registry call = some registry') :
    Counted (calls ++ [call]) registry' := by
  obtain ⟨bounds, haccepted, hmatches, rfl⟩ := step_eq_some_iff.mp hstep
  constructor
  · intro name help labels value given hmem
    rcases List.mem_append.mp hmem with hmem | hmem
    · obtain ⟨metric, entry, hmetric, hkind, hgiven, hentry⟩ :=
        h.present name help labels value given hmem
      obtain ⟨metric', hmetric', hsame⟩ := lookup_record_of_some hmetric call bounds
      obtain ⟨entry', hentry', -⟩ := hsame.samples labels.key entry hentry
      exact ⟨metric', entry', hmetric', hsame.kind.trans hkind, hsame.bounds ▸ hgiven, hentry'⟩
    · obtain rfl := List.mem_singleton.mp hmem
      refine ⟨_, _, lookup_record_self _ _ _, hmatches.kind, ?_, Finmap.lookup_insert _⟩
      exact haccepted.bounds.trans (congrArg Except.ok hmatches.bounds.symm)
  · intro name metric labels entry hmetric hkind hentry
    rcases sample_record_cases hmetric hentry with
      ⟨rfl, hkey, hkeeps, rfl⟩ | ⟨hother, old, hold, hsample, hkeeps⟩
    · obtain rfl := key_injective hkey
      rw [hkeeps.kind] at hkind
      rw [hkeeps.bounds]
      exact (h.sampleOf hkind).write (hmatches.kind.symm.trans hkind)
    · have hne : call.name ≠ name ∨ call.labels ≠ labels := by
        rcases hother with hname | hkey
        · exact Or.inl (Ne.symm hname)
        · exact Or.inr fun hlabels => hkey (congrArg Labels.key hlabels.symm)
      rw [observations_append_of_none calls (Call.observed_of_ne hne), hkeeps.bounds]
      exact h.counts name old labels entry hold (hkeeps.kind.symm.trans hkind) hsample

theorem counted_run (h : run step newRegistry calls = some registry) : Counted calls registry := by
  refine run_history_of (C := fun _ _ => True) (I := Counted) ?_ ?_ (meets_true _ _) h
  · intro calls registry call registry' _ hcounted _ hstep
    exact hcounted.step hstep
  · constructor
    · intro name help labels value given hmem
      cases hmem
    · intro name metric labels entry hmetric
      rw [newRegistry, Finmap.lookup_empty] at hmetric
      cases hmetric

/-! ## 4. What a histogram holds -/

/-- What a histogram should hold for one set of labels that was observed. -/
structure HistogramHolds (given observed : List F) (metric : Family F) (entry : Sample F) :
    Prop where
  /-- the strictly increasing list of the distinct bounds -/
  bounds : BoundsOf given metric.bounds
  /-- the counts, as numbers of 64 bits -/
  counts : Counts observed metric.bounds entry
  /-- the number of observations -/
  total : observed.length < 2 ^ 64 → entry.histogramN.toNat = observed.length
  /-- the bucket of each bound -/
  buckets : observed.length < 2 ^ 64 →
    entry.buckets.map UInt64.toNat = metric.bounds.map fun bound => observed.countP (· ≤ bound)
  monotone : observed.length < 2 ^ 64 → entry.buckets.Pairwise (· ≤ ·)
  bounded : observed.length < 2 ^ 64 → ∀ n ∈ entry.buckets, n ≤ entry.histogramN

/-- In every history of calls that return normally, each set of labels that was observed has a
sample that holds what it should. -/
theorem histogram_counts {calls : List (Call F)} {registry : Registry F}
    (hrun : run step newRegistry calls = some registry) {name help : GoString} {labels : Labels}
    {value : F} {given : List F}
    (hcall : Call.observeHistogram name help labels value given ∈ calls) :
    ∃ metric entry, registry.families.lookup name = some metric ∧ metric.kind = .histogram ∧
      metric.samples.lookup labels.key = some entry ∧
      HistogramHolds given (observations name labels calls) metric entry := by
  have hcounted := counted_run hrun
  obtain ⟨metric, entry, hmetric, hkind, hgiven, hentry⟩ := hcounted.present _ _ _ _ _ hcall
  have hbounds := normalizeBounds_spec hgiven
  have hcounts := hcounted.counts name metric labels entry hmetric hkind hentry
  refine ⟨metric, entry, hmetric, hkind, hentry, ⟨hbounds, hcounts, ?_, ?_, ?_, ?_⟩⟩
  · exact fun hfew => (hcounts.exact hfew).1
  · exact fun hfew => (hcounts.exact hfew).2
  · exact fun hfew => (hcounts.monotone hfew hbounds.increasing).1
  · exact fun hfew => (hcounts.monotone hfew hbounds.increasing).2

/-- Two sets of labels and a counter in between, with the bounds in two orders. -/
def latencyCalls : List (Call Int) :=
  [.observeHistogram (str "h") (str "H") ∅ 2 [5, 1, 5],
    .observeHistogram (str "h") (str "H") (Finmap.insert (str "a") (str "x") ∅) 0 [1, 5],
    .addCounter (str "c") (str "C") ∅ 1,
    .observeHistogram (str "h") (str "H") ∅ 1 [5, 1, 1]]

theorem histogram_counts_latency :
    ∃ registry metric entry, run step newRegistry latencyCalls = some registry ∧
      registry.families.lookup (str "h") = some metric ∧
      metric.samples.lookup (Labels.key ∅) = some entry ∧
      entry.histogramN.toNat = 2 ∧
      entry.buckets.map UInt64.toNat =
        metric.bounds.map fun bound => ([2, 1] : List Int).countP (· ≤ bound) := by
  have hruns : (run step newRegistry latencyCalls).isSome := by decide +kernel
  obtain ⟨registry, hrun⟩ := Option.isSome_iff_exists.mp hruns
  obtain ⟨metric, entry, hmetric, -, hentry, hholds⟩ :=
    histogram_counts hrun List.mem_cons_self
  have hobserved : observations (str "h") ∅ latencyCalls = [2, 1] := by decide +kernel
  rw [hobserved] at hholds
  exact ⟨registry, metric, entry, hrun, hmetric, hentry, hholds.total (by decide),
    hholds.buckets (by decide)⟩

/-! ## 5. The count wraps -/

theorem run_replicate {registry' : Registry F} (h : step registry call = some registry') (n : Nat) :
    ∃ r r', run step registry (List.replicate n call) = some r ∧ step r call = some r' := by
  induction n with
  | zero => exact ⟨registry, registry', rfl, h⟩
  | succ n ih =>
    obtain ⟨r, r', hrun, hstep⟩ := ih
    obtain ⟨r'', hagain⟩ := step_again hstep
    refine ⟨r', r'', ?_, hagain⟩
    rw [List.replicate_succ', run_snoc]
    exact ⟨r, hrun, hstep⟩

/-- An observation without labels. -/
def tick : Call Int := .observeHistogram (str "h") (str "H") ∅ 0 [0]

/-- After 2^64 observations the count is zero. -/
theorem histogramN_wraps :
    ∃ registry metric entry, run step newRegistry (List.replicate (2 ^ 64) tick) = some registry ∧
      registry.families.lookup (str "h") = some metric ∧
      metric.samples.lookup (Labels.key ∅) = some entry ∧
      (observations (str "h") ∅ (List.replicate (2 ^ 64) tick)).length = 2 ^ 64 ∧
      entry.histogramN.toNat = 0 := by
  have hruns : (step newRegistry tick).isSome := by decide +kernel
  obtain ⟨first, hfirst⟩ := Option.isSome_iff_exists.mp hruns
  obtain ⟨registry, -, hrun, -⟩ := run_replicate hfirst (2 ^ 64)
  have hcounted := counted_run hrun
  have hmem : tick ∈ List.replicate (2 ^ 64) tick := List.mem_replicate.mpr ⟨by decide, rfl⟩
  obtain ⟨metric, entry, hmetric, hkind, -, hentry⟩ := hcounted.present _ _ _ _ _ hmem
  have hlength : (observations (str "h") ∅ (List.replicate (2 ^ 64) tick)).length = 2 ^ 64 := by
    have htick : tick.observed (str "h") ∅ = some 0 := by decide +kernel
    rw [observations, List.filterMap_replicate_of_some htick, List.length_replicate]
  have hcounts := hcounted.counts _ _ _ _ hmetric hkind hentry
  refine ⟨registry, metric, entry, hrun, hmetric, hentry, hlength, ?_⟩
  rw [hcounts.total, hlength]
  decide

end OrderSystem.Metrics
