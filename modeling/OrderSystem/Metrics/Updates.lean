/-
# What a call does

The three calls of the registry differ in what they check and in what they write; everything else
is the same.  `step_eq_some_iff` says it once: a call returns normally when its arguments are
accepted (`Call.Accepted`) and the family that has its name, if there is one, was registered with
the same kind, help and bounds (`Family.Matches`); it then writes to the sample of its labels
(`Registry.record`), and to nothing else.

`Registry.Ok` is what follows for every registry that calls have made: the families and samples
stand under their own names and keys, names and labels are valid, and the bounds of a histogram
are normalised.
-/
import OrderSystem.Metrics.Bounds
import OrderSystem.Metrics.Labels

namespace OrderSystem.Metrics

open Kit

variable {F : Type} [Float64 F]

/-! ## 1. The parts of a call -/

namespace Call

def name : Call F → GoString
  | addCounter name _ _ _ | setGauge name _ _ _ | observeHistogram name _ _ _ _ => name

def help : Call F → GoString
  | addCounter _ help _ _ | setGauge _ help _ _ | observeHistogram _ help _ _ _ => help

def labels : Call F → Labels
  | addCounter _ _ labels _ | setGauge _ _ labels _ | observeHistogram _ _ labels _ _ => labels

def kind : Call F → MetricKind
  | addCounter _ _ _ _ => .counter
  | setGauge _ _ _ _ => .gauge
  | observeHistogram _ _ _ _ _ => .histogram

/-- The check of the number. -/
def numberOk : Call F → Prop
  | addCounter _ _ _ delta => ¬ (delta < Float64.zero ∨ notFinite delta)
  | setGauge _ _ _ value => ¬ notFinite value
  | observeHistogram _ _ _ value _ => ¬ notFinite value

/-- The bounds the family is registered with. -/
def normalBounds : Call F → Except Panic (List F)
  | observeHistogram _ _ _ _ bounds => normalizeBounds bounds
  | _ => .ok []

def write : Call F → (bounds : List F) → Sample F → Sample F
  | addCounter _ _ _ delta, _, entry => { entry with value := Float64.add entry.value delta }
  | setGauge _ _ _ value, _, entry => { entry with value := value }
  | observeHistogram _ _ _ value _, bounds, entry =>
    { entry with
      histogramN := entry.histogramN + 1
      histogramSum := Float64.add entry.histogramSum value
      buckets := countInto value bounds 0 entry.buckets }

/-- The checks that do not look at the registry. -/
structure Accepted (call : Call F) (bounds : List F) : Prop where
  number : call.numberOk
  bounds : call.normalBounds = .ok bounds
  name : ValidMetricName call.name
  help : trimSpace call.help ≠ []
  labels : call.labels.Valid

end Call

/-- The family was registered as the call has it. -/
structure Family.Matches (metric : Family F) (help : GoString) (kind : MetricKind)
    (bounds : List F) : Prop where
  kind : metric.kind = kind
  help : metric.help = help
  bounds : metric.bounds = bounds

/-- The family of this name, which is new if there is none. -/
def Registry.familyOf (registry : Registry F) (name help : GoString) (kind : MetricKind)
    (bounds : List F) : Family F :=
  (registry.families.lookup name).getD ⟨name, help, kind, bounds, ∅⟩

/-- The family of a call. -/
def Registry.metricOf (registry : Registry F) (call : Call F) (bounds : List F) : Family F :=
  registry.familyOf call.name call.help call.kind bounds

/-- The registry after a call that returned. -/
def Registry.record (registry : Registry F) (call : Call F) (bounds : List F) : Registry F :=
  let metric := registry.metricOf call bounds
  registry.store call.name metric call.labels.key
    (call.write metric.bounds (metric.sampleOf call.labels))

/-! ## 2. A call that returns normally -/

variable {registry registry' : Registry F} {name help : GoString} {kind : MetricKind}
  {bounds : List F} {metric : Family F} {labels : Labels} {call : Call F}

/-- `familyLocked` returns the family, and the caller writes to it there. -/
theorem familyLocked_of_matches (hname : ValidMetricName name) (hhelp : trimSpace help ≠ [])
    (hmatches : (registry.familyOf name help kind bounds).Matches help kind bounds) :
    ∃ registry₁, registry.familyLocked name help kind bounds =
        .ok (registry₁, registry.familyOf name help kind bounds) ∧
      ∀ metric, registry₁.families.insert name metric = registry.families.insert name metric := by
  rw [Registry.familyLocked, if_neg (not_not.mpr hname), if_neg hhelp]
  rw [Registry.familyOf] at hmatches ⊢
  cases hlookup : registry.families.lookup name with
  | none => exact ⟨_, rfl, fun _ => Finmap.insert_insert _⟩
  | some metric =>
    rw [hlookup, Option.getD_some] at hmatches
    have hsame : ¬ (metric.kind ≠ kind ∨ metric.help ≠ help ∨ ¬ equalBounds metric.bounds bounds) :=
      by simp [hmatches.kind, hmatches.help, hmatches.bounds, equalBounds_iff]
    exact ⟨registry, by simp only [if_neg hsame, Option.getD_some], fun _ => rfl⟩

theorem matches_of_familyLocked {registry₁ : Registry F}
    (h : registry.familyLocked name help kind bounds = .ok (registry₁, metric)) :
    ValidMetricName name ∧ trimSpace help ≠ [] ∧
      (registry.familyOf name help kind bounds).Matches help kind bounds := by
  rw [Registry.familyLocked] at h
  split at h
  · exact absurd h nofun
  · rename_i hname
    split at h
    · exact absurd h nofun
    · rename_i hhelp
      refine ⟨not_not.mp hname, hhelp, ?_⟩
      rw [Registry.familyOf]
      split at h
      · rename_i hlookup
        rw [hlookup]
        exact ⟨rfl, rfl, rfl⟩
      · rename_i found hlookup
        rw [hlookup, Option.getD_some]
        split at h
        · exact absurd h nofun
        · rename_i hsame
          simp only [not_or, not_not, equalBounds_iff] at hsame
          exact ⟨hsame.1, hsame.2.1, hsame.2.2⟩

/-- When the checks pass, the two lookups lead to the write. -/
theorem withSample_of_matches (hname : ValidMetricName name) (hhelp : trimSpace help ≠ [])
    (hlabels : labels.Valid)
    (hmatches : (registry.familyOf name help kind bounds).Matches help kind bounds)
    (write : List F → Sample F → Sample F) :
    registry.withSample name help kind bounds labels write =
      (registry.store name (registry.familyOf name help kind bounds) labels.key
        (write (registry.familyOf name help kind bounds).bounds
          ((registry.familyOf name help kind bounds).sampleOf labels)), none) := by
  obtain ⟨registry₁, hfamily, hinsert⟩ := familyLocked_of_matches hname hhelp hmatches
  obtain ⟨samples, hsample, hentry⟩ :=
    sampleLocked_of_valid hlabels (registry.familyOf name help kind bounds)
  rw [Registry.withSample, hfamily]
  dsimp only
  rw [hsample]
  simp only [Registry.store, hinsert, hentry]

theorem withSample_eq_iff {write : List F → Sample F → Sample F} :
    registry.withSample name help kind bounds labels write = (registry', none) ↔
      (ValidMetricName name ∧ trimSpace help ≠ [] ∧ labels.Valid) ∧
      (registry.familyOf name help kind bounds).Matches help kind bounds ∧
      registry' = registry.store name (registry.familyOf name help kind bounds) labels.key
        (write (registry.familyOf name help kind bounds).bounds
          ((registry.familyOf name help kind bounds).sampleOf labels)) := by
  constructor
  · intro h
    cases hfamily : registry.familyLocked name help kind bounds with
    | error panic =>
      rw [Registry.withSample, hfamily] at h
      exact absurd (Prod.mk.inj h).2 nofun
    | ok found =>
      obtain ⟨hname, hhelp, hmatches⟩ := matches_of_familyLocked hfamily
      cases hsample : found.2.sampleLocked labels with
      | error panic =>
        rw [Registry.withSample, hfamily] at h
        simp only [hsample] at h
        exact absurd (Prod.mk.inj h).2 nofun
      | ok result =>
        have hlabels := valid_of_sampleLocked hsample
        rw [withSample_of_matches hname hhelp hlabels hmatches] at h
        exact ⟨⟨hname, hhelp, hlabels⟩, hmatches, (Prod.mk.inj h).1.symm⟩
  · rintro ⟨⟨hname, hhelp, hlabels⟩, hmatches, rfl⟩
    exact withSample_of_matches hname hhelp hlabels hmatches write

omit [Float64 F] in
theorem refused_iff {bad : Prop} [Decidable bad] {panic : Panic} {rest : Registry F × Option Panic}
    :
    (if bad then (registry, some panic) else rest) = (registry', none) ↔
      ¬ bad ∧ rest = (registry', none) := by
  split
  · rename_i hbad
    constructor
    · intro h
      exact absurd (Prod.mk.inj h).2 nofun
    · rintro ⟨hgood, -⟩
      exact absurd hbad hgood
  · rename_i hgood
    exact ⟨fun h => ⟨hgood, h⟩, fun h => h.2⟩

/-- The checks of the number and of the bounds come first. -/
theorem apply_eq_iff :
    call.apply registry = (registry', none) ↔
      ∃ bounds, call.numberOk ∧ call.normalBounds = .ok bounds ∧
        registry.withSample call.name call.help call.kind bounds call.labels call.write =
          (registry', none) := by
  cases call with
  | addCounter name help labels number | setGauge name help labels number =>
    simp only [Call.apply, Registry.addCounter, Registry.setGauge, refused_iff]
    constructor
    · rintro ⟨hnumber, h⟩
      exact ⟨[], hnumber, rfl, h⟩
    · rintro ⟨bounds, hnumber, hbounds, h⟩
      obtain rfl := Except.ok.inj hbounds
      exact ⟨hnumber, h⟩
  | observeHistogram name help labels value given =>
    rw [Call.apply, Registry.observeHistogram, refused_iff]
    constructor
    · rintro ⟨hnumber, h⟩
      split at h
      · exact absurd (Prod.mk.inj h).2 nofun
      · rename_i bounds hbounds
        exact ⟨bounds, hnumber, hbounds, h⟩
    · rintro ⟨bounds, hnumber, hbounds, h⟩
      refine ⟨hnumber, ?_⟩
      rw [show normalizeBounds given = .ok bounds from hbounds]
      exact h

theorem step_eq_some :
    step registry call = some registry' ↔ call.apply registry = (registry', none) := by
  rw [step]
  split
  · rename_i result happly
    simp [happly]
  · rename_i result panic happly
    simp [happly]

/-- **What a call does.** -/
theorem step_eq_some_iff :
    step registry call = some registry' ↔
      ∃ bounds, call.Accepted bounds ∧
        (registry.metricOf call bounds).Matches call.help call.kind bounds ∧
        registry' = registry.record call bounds := by
  rw [step_eq_some, apply_eq_iff]
  constructor
  · rintro ⟨bounds, hnumber, hbounds, h⟩
    obtain ⟨⟨hname, hhelp, hlabels⟩, hmatches, hresult⟩ := withSample_eq_iff.mp h
    exact ⟨bounds, ⟨hnumber, hbounds, hname, hhelp, hlabels⟩, hmatches, hresult⟩
  · rintro ⟨bounds, haccepted, hmatches, hresult⟩
    refine ⟨bounds, haccepted.number, haccepted.bounds, withSample_eq_iff.mpr ?_⟩
    exact ⟨⟨haccepted.name, haccepted.help, haccepted.labels⟩, hmatches, hresult⟩

/-- The family that a call has written to... -/
theorem lookup_record_self (registry : Registry F) (call : Call F) (bounds : List F) :
    (registry.record call bounds).families.lookup call.name =
      some { registry.metricOf call bounds with
        samples := (registry.metricOf call bounds).samples.insert call.labels.key
          (call.write (registry.metricOf call bounds).bounds
            ((registry.metricOf call bounds).sampleOf call.labels)) } :=
  Finmap.lookup_insert _

/-- ...and the others. -/
theorem lookup_record_ne (registry : Registry F) (call : Call F) (bounds : List F)
    (h : name ≠ call.name) :
    (registry.record call bounds).families.lookup name = registry.families.lookup name :=
  Finmap.lookup_insert_of_ne _ h

omit [Float64 F] in
/-- A family with a sample is not new. -/
theorem lookup_metricOf {key : GoString} {entry : Sample F}
    (h : (registry.metricOf call bounds).samples.lookup key = some entry) :
    registry.families.lookup call.name = some (registry.metricOf call bounds) := by
  rw [Registry.metricOf, Registry.familyOf] at h ⊢
  cases hlookup : registry.families.lookup call.name with
  | some metric => rfl
  | none =>
    rw [hlookup, Option.getD_none, Finmap.lookup_empty] at h
    exact absurd h nofun

/-- No call writes the labels of a sample. -/
@[simp] theorem labels_write (call : Call F) (bounds : List F) (entry : Sample F) :
    (call.write bounds entry).labels = entry.labels := by
  cases call <;> rfl

/-- The family keeps its definition and its samples, whatever is written to them. -/
structure Family.Keeps (metric metric' : Family F) : Prop where
  name : metric'.name = metric.name
  kind : metric'.kind = metric.kind
  bounds : metric'.bounds = metric.bounds
  samples : ∀ key entry, metric.samples.lookup key = some entry →
    ∃ entry', metric'.samples.lookup key = some entry' ∧ entry'.labels = entry.labels

omit [Float64 F] in
theorem Family.Keeps.refl (metric : Family F) : metric.Keeps metric :=
  ⟨rfl, rfl, rfl, fun _ entry hentry => ⟨entry, hentry, rfl⟩⟩

theorem keeps_write (metric : Family F) (call : Call F) :
    metric.Keeps { metric with
      samples := metric.samples.insert call.labels.key
        (call.write metric.bounds (metric.sampleOf call.labels)) } := by
  refine ⟨rfl, rfl, rfl, ?_⟩
  intro key entry hentry
  by_cases hkey : key = call.labels.key
  · subst hkey
    refine ⟨_, Finmap.lookup_insert _, ?_⟩
    rw [labels_write, Family.sampleOf, hentry, Option.getD_some]
  · exact ⟨entry, (Finmap.lookup_insert_of_ne _ hkey).trans hentry, rfl⟩

/-- No call removes a family or a sample. -/
theorem lookup_record_of_some (h : registry.families.lookup name = some metric) (call : Call F)
    (bounds : List F) :
    ∃ metric', (registry.record call bounds).families.lookup name = some metric' ∧
      metric.Keeps metric' := by
  by_cases hname : name = call.name
  · subst hname
    have hmetric : registry.metricOf call bounds = metric := by
      rw [Registry.metricOf, Registry.familyOf, h, Option.getD_some]
    refine ⟨_, lookup_record_self registry call bounds, ?_⟩
    rw [hmetric]
    exact keeps_write metric call
  · rw [lookup_record_ne registry call bounds hname]
    exact ⟨metric, h, Family.Keeps.refl metric⟩

/-- A sample after a call is the one it has written, or it was there before. -/
theorem sample_record_cases {key : GoString} {entry : Sample F}
    (hmetric : (registry.record call bounds).families.lookup name = some metric)
    (hentry : metric.samples.lookup key = some entry) :
    (name = call.name ∧ key = call.labels.key ∧ (registry.metricOf call bounds).Keeps metric ∧
      entry = call.write (registry.metricOf call bounds).bounds
        ((registry.metricOf call bounds).sampleOf call.labels)) ∨
    ((name ≠ call.name ∨ key ≠ call.labels.key) ∧
      ∃ old, registry.families.lookup name = some old ∧ old.samples.lookup key = some entry ∧
        old.Keeps metric) := by
  by_cases hname : name = call.name
  · subst hname
    rw [lookup_record_self] at hmetric
    obtain rfl := Option.some.inj hmetric
    have hkeeps := keeps_write (registry.metricOf call bounds) call
    by_cases hkey : key = call.labels.key
    · subst hkey
      rw [Finmap.lookup_insert] at hentry
      exact Or.inl ⟨rfl, rfl, hkeeps, (Option.some.inj hentry).symm⟩
    · rw [Finmap.lookup_insert_of_ne _ hkey] at hentry
      exact Or.inr ⟨Or.inr hkey, _, lookup_metricOf hentry, hentry, hkeeps⟩
  · rw [lookup_record_ne registry call bounds hname] at hmetric
    exact Or.inr ⟨Or.inl hname, metric, hmetric, hentry, Family.Keeps.refl metric⟩

/-! ## 3. The registries that calls make -/

/-- The labels of a sample, under the key they have. -/
def Sample.Labelled (key : GoString) (entry : Sample F) : Prop :=
  ∃ labels : Labels, labels.Valid ∧ entry.labels = labels.pairs ∧ key = labels.key

/-- A family under its name. -/
structure Family.Ok (name : GoString) (metric : Family F) : Prop where
  name_eq : metric.name = name
  valid : ValidMetricName name
  increasing : metric.bounds.Pairwise (· < ·)
  finite : ∀ x ∈ metric.bounds, notFinite x = false
  samples : ∀ key entry, metric.samples.lookup key = some entry → entry.Labelled key

def Registry.Ok (registry : Registry F) : Prop :=
  ∀ name metric, registry.families.lookup name = some metric → metric.Ok name

theorem Call.Accepted.bounds_ok (h : call.Accepted bounds) :
    bounds.Pairwise (· < ·) ∧ ∀ x ∈ bounds, notFinite x = false := by
  cases call with
  | addCounter name help labels number | setGauge name help labels number =>
    obtain rfl := Except.ok.inj h.bounds
    exact ⟨List.Pairwise.nil, nofun⟩
  | observeHistogram name help labels value given =>
    have hspec := normalizeBounds_spec h.bounds
    exact ⟨hspec.increasing, hspec.finite⟩

theorem Registry.Ok.metricOf (hok : registry.Ok) (h : call.Accepted bounds) :
    (registry.metricOf call bounds).Ok call.name := by
  rw [Registry.metricOf, Registry.familyOf]
  cases hlookup : registry.families.lookup call.name with
  | some metric => exact hok call.name metric hlookup
  | none =>
    refine ⟨rfl, h.name, h.bounds_ok.1, h.bounds_ok.2, ?_⟩
    intro key entry hentry
    rw [Option.getD_none, Finmap.lookup_empty] at hentry
    exact absurd hentry nofun

theorem Family.Ok.sampleOf (hok : metric.Ok name) (h : labels.Valid) :
    (metric.sampleOf labels).Labelled labels.key := by
  rw [Family.sampleOf]
  cases hlookup : metric.samples.lookup labels.key with
  | some entry => exact hok.samples labels.key entry hlookup
  | none => exact ⟨labels, h, rfl, rfl⟩

/-- The labels of the sample that a call writes to are its own. -/
theorem Family.Ok.sampleOf_labels (hok : metric.Ok name) (h : labels.Valid) :
    (metric.sampleOf labels).labels = labels.pairs := by
  obtain ⟨found, -, hpairs, hkey⟩ := hok.sampleOf h
  rw [hpairs, key_injective hkey]

theorem Registry.Ok.record (hok : registry.Ok) (h : call.Accepted bounds) :
    (registry.record call bounds).Ok := by
  intro name metric hmetric
  by_cases hname : name = call.name
  · subst hname
    rw [lookup_record_self] at hmetric
    obtain rfl := Option.some.inj hmetric
    have hfamily := hok.metricOf h
    refine ⟨hfamily.name_eq, hfamily.valid, hfamily.increasing, hfamily.finite, ?_⟩
    intro key entry hentry
    by_cases hkey : key = call.labels.key
    · subst hkey
      rw [Finmap.lookup_insert] at hentry
      obtain rfl := Option.some.inj hentry
      rw [Sample.Labelled, labels_write]
      exact hfamily.sampleOf h.labels
    · rw [Finmap.lookup_insert_of_ne _ hkey] at hentry
      exact hfamily.samples key entry hentry
  · rw [lookup_record_ne registry call bounds hname] at hmetric
    exact hok name metric hmetric

theorem ok_newRegistry : (newRegistry : Registry F).Ok := by
  intro name metric h
  rw [newRegistry, Finmap.lookup_empty] at h
  exact absurd h nofun

theorem ok_step (hok : registry.Ok) (h : step registry call = some registry') : registry'.Ok := by
  obtain ⟨bounds, haccepted, -, rfl⟩ := step_eq_some_iff.mp h
  exact hok.record haccepted

theorem ok_run {calls : List (Call F)} (h : run step newRegistry calls = some registry) :
    registry.Ok :=
  run_invariant (fun _ _ _ => ok_step) ok_newRegistry h

/-- A call that returned returns again. -/
theorem step_again (h : step registry call = some registry') :
    ∃ registry'', step registry' call = some registry'' := by
  obtain ⟨bounds, haccepted, hmatches, rfl⟩ := step_eq_some_iff.mp h
  refine ⟨_, step_eq_some_iff.mpr ⟨bounds, haccepted, ?_, rfl⟩⟩
  rw [Registry.metricOf, Registry.familyOf, lookup_record_self]
  exact ⟨hmatches.kind, hmatches.help, hmatches.bounds⟩

end OrderSystem.Metrics
