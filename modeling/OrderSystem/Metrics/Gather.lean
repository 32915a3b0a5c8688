/-
# The exposition of a registry

`Gather` should write every series once.  Here the text it writes is read again, line by line
(`readSamples`), and what is read is compared: no two lines of one series, and no label name
twice in a line (`SeriesUnique`).

Which calls may lead to a registry with this property is a matter of each call and the samples
that are there before it (`Call.Clear`): a histogram must not have a label `le`, and a counter or
gauge must not stand for a part of a histogram.  `gather_unique_iff` says that this condition is
exact: the exposition after a run has the property if and only if every call of the run met it.
-/
import OrderSystem.Metrics.Exposition
import OrderSystem.Metrics.Series

namespace OrderSystem.Metrics

open Kit
open Float64 (formatFloat)

variable {F : Type} [Float64 F]

/-! ## 1. The samples of a registry -/

/-- A sample of a family. -/
def Family.stored (metric : Family F) (entry : Sample F) : Stored F :=
  ⟨metric.name, metric.kind, metric.bounds, entry.labels⟩

/-- The samples in the order of the exposition. -/
def Registry.stored (registry : Registry F) : List (Stored F) :=
  registry.metrics.flatMap fun metric => metric.entries.map metric.stored

variable {registry : Registry F} {s : Stored F} {metric : Family F} {bounds : List F}
  {name : GoString}

omit [Float64 F] in
theorem mem_stored :
    s ∈ registry.stored ↔ ∃ name metric key entry, registry.families.lookup name = some metric ∧
      metric.samples.lookup key = some entry ∧ metric.stored entry = s := by
  simp only [Registry.stored, List.mem_flatMap, List.mem_map, Registry.metrics, Family.entries,
    mem_sortedValues]
  constructor
  · rintro ⟨metric, ⟨name, hmetric⟩, entry, ⟨key, hentry⟩, rfl⟩
    exact ⟨name, metric, key, entry, hmetric, hentry, rfl⟩
  · rintro ⟨name, metric, key, entry, hmetric, hentry, rfl⟩
    exact ⟨metric, ⟨name, hmetric⟩, entry, ⟨key, hentry⟩, rfl⟩

theorem stored_ok (hok : registry.Ok) : ∀ s ∈ registry.stored, s.Ok := by
  intro s hs
  obtain ⟨name, metric, key, entry, hmetric, hentry, rfl⟩ := mem_stored.mp hs
  have hfamily := hok name metric hmetric
  obtain ⟨labels, -, hpairs, -⟩ := hfamily.samples key entry hentry
  refine ⟨?_, hfamily.increasing, hfamily.finite⟩
  rw [Family.stored, hpairs]
  exact ordered_pairs labels

/-- Two samples differ in their names or in their labels. -/
theorem stored_apart (hok : registry.Ok) :
    registry.stored.Pairwise fun s t => ¬ (s.name = t.name ∧ s.labels = t.labels) := by
  refine List.pairwise_flatMap.mpr ⟨?_, ?_⟩
  · intro metric hmem
    obtain ⟨name, hmetric⟩ := mem_sortedValues.mp hmem
    have hfamily := hok name metric hmetric
    rw [List.pairwise_map]
    refine pairwise_sortedValues fun key key' entry entry' hne hentry hentry' hsame => hne ?_
    obtain ⟨labels, -, hpairs, rfl⟩ := hfamily.samples key entry hentry
    obtain ⟨labels', -, hpairs', rfl⟩ := hfamily.samples key' entry' hentry'
    have hlabels : labels.pairs = labels'.pairs := hpairs.symm.trans (hsame.2.trans hpairs')
    rw [pairs_injective hlabels]
  · refine pairwise_sortedValues fun name name' metric metric' hne hmetric hmetric' s hs t ht => ?_
    obtain ⟨entry, -, rfl⟩ := List.mem_map.mp hs
    obtain ⟨entry', -, rfl⟩ := List.mem_map.mp ht
    rintro ⟨hsame, -⟩
    exact hne ((hok name metric hmetric).name_eq.symm.trans
      (hsame.trans (hok name' metric' hmetric').name_eq))

/-! ## 2. The sample of a call -/

/-- The bounds that a call gives. -/
def Call.given : Call F → List F
  | .observeHistogram _ _ _ _ bounds => bounds
  | _ => []

/-- The sample of a call. -/
def Call.stored (call : Call F) : Stored F := ⟨call.name, call.kind, call.given, call.labels.pairs⟩

/-- The call is not an observation with a label `le`, and its sample and those of the registry do
not stand for the same series of a histogram: no counter or gauge is named like the `_sum` or
`_count` of a histogram and has its labels, or is named like its `_bucket` and has its labels with
`le` for one of its bounds or `+Inf`. -/
def Call.Clear (registry : Registry F) (call : Call F) : Prop :=
  (call.kind = .histogram → ¬ HasLe call.labels.pairs) ∧
    ∀ s ∈ registry.stored, ¬ s.Clashes call.stored ∧ ¬ call.stored.Clashes s

instance (registry : Registry F) (call : Call F) : Decidable (call.Clear registry) :=
  inferInstanceAs (Decidable (_ ∧ _))

omit [Float64 F] in
theorem Family.Keeps.stored {metric' : Family F} (h : metric.Keeps metric')
    {entry entry' : Sample F} (hlabels : entry'.labels = entry.labels) :
    metric'.stored entry' = metric.stored entry := by
  rw [Family.stored, Family.stored, h.name, h.kind, h.bounds, hlabels]

variable {call : Call F}

/-- A call adds its sample to those that are there. -/
theorem mem_stored_record (hok : registry.Ok) (haccepted : call.Accepted bounds)
    (hmatches : (registry.metricOf call bounds).Matches call.help call.kind bounds) :
    s ∈ (registry.record call bounds).stored ↔
      s ∈ registry.stored ∨ s = ⟨call.name, call.kind, bounds, call.labels.pairs⟩ := by
  have hfamily := hok.metricOf haccepted
  have hnew : ∀ entry : Sample F, entry.labels = call.labels.pairs →
      (registry.metricOf call bounds).stored entry =
        ⟨call.name, call.kind, bounds, call.labels.pairs⟩ := by
    intro entry hlabels
    rw [Family.stored, hfamily.name_eq, hmatches.kind, hmatches.bounds, hlabels]
  have hentry : (call.write (registry.metricOf call bounds).bounds
      ((registry.metricOf call bounds).sampleOf call.labels)).labels = call.labels.pairs := by
    rw [labels_write, hfamily.sampleOf_labels haccepted.labels]
  constructor
  · intro hs
    obtain ⟨name, metric, key, entry, hmetric, hlookup, rfl⟩ := mem_stored.mp hs
    rcases sample_record_cases hmetric hlookup with
      ⟨-, -, hkeeps, rfl⟩ | ⟨-, old, hold, hsample, hkeeps⟩
    · exact Or.inr ((hkeeps.stored rfl).trans (hnew _ hentry))
    · exact Or.inl (mem_stored.mpr
        ⟨name, old, key, entry, hold, hsample, (hkeeps.stored rfl).symm⟩)
  · rintro (hs | rfl)
    · obtain ⟨name, metric, key, entry, hmetric, hlookup, rfl⟩ := mem_stored.mp hs
      obtain ⟨metric', hmetric', hkeeps⟩ := lookup_record_of_some hmetric call bounds
      obtain ⟨entry', hlookup', hlabels⟩ := hkeeps.samples key entry hlookup
      exact mem_stored.mpr ⟨name, metric', key, entry', hmetric', hlookup', hkeeps.stored hlabels⟩
    · refine mem_stored.mpr ⟨_, _, _, _, lookup_record_self _ _ _, Finmap.lookup_insert _, ?_⟩
      exact hnew _ hentry

/-- Bounds that are the same set make the same parts. -/
theorem mem_parts {given : List F} (h : ∀ x, x ∈ bounds ↔ x ∈ given) {part : Part} :
    part ∈ parts bounds ↔ part ∈ parts given := by
  simp only [parts, List.mem_append, List.mem_map, h]

/-- For a clash it does not matter whether the bounds are normalised. -/
theorem clashes_stored_iff (h : call.Accepted bounds) :
    s.Clashes ⟨call.name, call.kind, bounds, call.labels.pairs⟩ ↔ s.Clashes call.stored := by
  cases call with
  | addCounter name help labels number | setGauge name help labels number =>
    obtain rfl := Except.ok.inj h.bounds
    exact Iff.rfl
  | observeHistogram name help labels value given =>
    have hsame := (normalizeBounds_spec h.bounds).same
    simp only [Stored.Clashes, Call.stored, Call.given, mem_parts hsame]

/-- One more sample. -/
theorem separate_insert_iff {stored stored' : List (Stored F)} {new : Stored F}
    (hmem : ∀ s, s ∈ stored' ↔ s ∈ stored ∨ s = new) :
    Separate stored' ↔ Separate stored ∧ (new.kind = .histogram → ¬ HasLe new.labels) ∧
      ∀ s ∈ stored, ¬ s.Clashes new ∧ ¬ new.Clashes s := by
  have hnew : new ∈ stored' := (hmem new).mpr (Or.inr rfl)
  have hold : ∀ s ∈ stored, s ∈ stored' := fun s hs => (hmem s).mpr (Or.inl hs)
  constructor
  · intro h
    refine ⟨⟨fun s hs => h.noLe s (hold s hs), ?_⟩, h.noLe new hnew, ?_⟩
    · exact fun s hs t ht => h.noClash s (hold s hs) t (hold t ht)
    · exact fun s hs => ⟨h.noClash s (hold s hs) new hnew, h.noClash new hnew s (hold s hs)⟩
  · rintro ⟨hseparate, hle, hclash⟩
    constructor
    · intro s hs
      rcases (hmem s).mp hs with hs | rfl
      · exact hseparate.noLe s hs
      · exact hle
    · intro s hs t ht
      rcases (hmem s).mp hs with hs | rfl
      · rcases (hmem t).mp ht with ht | rfl
        · exact hseparate.noClash s hs t ht
        · exact (hclash s hs).1
      · rcases (hmem t).mp ht with ht | rfl
        · exact (hclash t ht).2
        -- a sample is not a histogram and something else
        · rintro ⟨hscalar, hhistogram, -⟩
          exact hscalar hhistogram

theorem separate_step_iff {registry' : Registry F} (hok : registry.Ok)
    (h : step registry call = some registry') :
    Separate registry'.stored ↔ Separate registry.stored ∧ call.Clear registry := by
  obtain ⟨bounds, haccepted, hmatches, rfl⟩ := step_eq_some_iff.mp h
  rw [separate_insert_iff fun s => mem_stored_record hok haccepted hmatches]
  simp only [clashes_stored_iff haccepted]
  rfl

/-- The samples are separate after a run exactly when every call was clear. -/
theorem separate_iff_meets {calls : List (Call F)} (h : run step newRegistry calls = some registry)
    :
    Separate registry.stored ↔ Meets Call.Clear step newRegistry calls := by
  refine run_history_of (C := fun _ _ => True)
    (I := fun calls r => Separate r.stored ↔
      Meets Call.Clear step newRegistry calls) ?_ ?_ (meets_true _ _) h
  · intro calls r call r' hrun ih _ hstep
    rw [separate_step_iff (ok_run hrun) hstep, ih, meets_append hrun]
    simp [Meets]
  · have hnil : (newRegistry : Registry F).stored = [] := rfl
    rw [hnil]
    exact iff_of_true ⟨nofun, nofun⟩ trivial

/-! ## 3. Reading the exposition -/

/-- The lines of a text, each of which ends with a newline. -/
def linesFrom (line : GoString) : GoString → List GoString
  | [] => if line = [] then [] else [line]
  | b :: rest => if b = 0x0A then line :: linesFrom [] rest else linesFrom (line ++ [b]) rest

def lines (text : GoString) : List GoString := linesFrom [] text

/-- The sample lines of a text: those that are not comments. -/
def readSamples (text : GoString) : Option (List SampleLine) :=
  ((lines text).filter fun line => line.head? ≠ some 0x23).mapM parseSample

def SampleLine.series (line : SampleLine) : Series := ⟨line.name, line.labels⟩

/-- Every sample line can be read, no two have the same metric name and the same set of label
pairs, and in none a label name occurs twice. -/
def SeriesUnique (text : GoString) : Prop :=
  ∃ samples ∈ readSamples text, Unique (samples.map SampleLine.series)

instance (text : GoString) : Decidable (SeriesUnique text) :=
  inferInstanceAs (Decidable (∃ samples ∈ readSamples text, Unique _))

theorem linesFrom_append {w rest : GoString} (h : 0x0A ∉ w) (line : GoString) :
    linesFrom line (w ++ 0x0A :: rest) = (line ++ w) :: lines rest := by
  induction w generalizing line with
  | nil => simp [linesFrom, lines]
  | cons b w ih =>
    obtain ⟨hb, hw⟩ := List.ne_and_not_mem_of_not_mem_cons h
    rw [List.cons_append, linesFrom, if_neg (Ne.symm hb), ih hw]
    simp

theorem lines_flatMap {texts : List GoString} (h : ∀ w ∈ texts, 0x0A ∉ w) :
    lines (texts.flatMap (· ++ [0x0A])) = texts := by
  induction texts with
  | nil => rfl
  | cons w texts ih =>
    rw [List.flatMap_cons, List.append_assoc, List.singleton_append, lines,
      linesFrom_append (h w List.mem_cons_self), List.nil_append,
      ih fun v hv => h v (List.mem_cons_of_mem w hv)]

theorem mapM_map_eq_some {α β γ : Type} {f : β → Option γ} {write : α → β} {g : α → γ}
    {l : List α} (h : ∀ x ∈ l, f (write x) = some (g x)) :
    (l.map write).mapM f = some (l.map g) := by
  induction l with
  | nil => rfl
  | cons x l ih =>
    rw [List.map_cons, List.mapM_cons, h x List.mem_cons_self,
      ih fun y hy => h y (List.mem_cons_of_mem x hy)]
    rfl

/-! ## 4. The lines of a registry -/

/-- A point with valid names. -/
structure Point.Ok (point : Point F) : Prop where
  name : ValidMetricName point.name
  labels : ∀ pair ∈ point.labels, ValidLabelName pair.name

def Point.text (point : Point F) : GoString := lineText point.name point.labels point.value

def Point.line (point : Point F) : SampleLine :=
  ⟨point.name, point.labels, formatFloat point.value⟩

def Point.series (point : Point F) : Series := ⟨point.name, point.labels⟩

theorem validMetricName_append {suffix : GoString} (h : ValidMetricName name)
    (hsuffix : ∀ b ∈ suffix, isLetter b) : ValidMetricName (name ++ suffix) := by
  cases name with
  | nil => exact absurd rfl h.ne_nil
  | cons b name =>
    simp only [ValidMetricName, metricNamePattern, List.cons_append, matchName, Bool.and_eq_true,
      List.all_append, List.all_eq_true] at h ⊢
    refine ⟨h.1, h.2, fun c hc => ?_⟩
    simp [hsuffix c hc]

theorem Labels.Valid.pairs {labels : Labels} (h : labels.Valid) :
    ∀ pair ∈ labels.pairs, ValidLabelName pair.name := by
  intro pair hpair
  obtain ⟨⟨name, value⟩, hmem, rfl⟩ := List.mem_map.mp hpair
  exact h name (mem_sortedKeys.mpr ⟨value, mem_sortedPairs.mp hmem⟩)

theorem map_zipIdx {α β : Type} (l : List α) (f : α → β) :
    (l.zipIdx.map fun x => f x.1) = l.map f :=
  calc (l.zipIdx.map fun x => f x.1) = (l.zipIdx.map Prod.fst).map f := List.map_map.symm
    _ = l.map f := by rw [List.zipIdx_map_fst]

/-- The points of a sample are the series that it stands for. -/
theorem map_series_points (metric : Family F) (entry : Sample F) :
    (metric.points entry).map Point.series = (metric.stored entry).series := by
  rw [Family.points, Stored.series]
  cases hkind : metric.kind with
  | counter => simp [Family.stored, hkind, Point.series]
  | gauge => simp [Family.stored, hkind, Point.series]
  | histogram =>
    have hbuckets := map_zipIdx metric.bounds fun bound =>
      Part.series metric.name entry.labels (.bucket (formatFloat bound))
    simp only [Family.stored, hkind, if_pos, parts, List.map_append, List.map_map]
    exact congrArg (· ++ _) hbuckets

theorem Part.suffix_letters (part : Part) : ∀ b ∈ part.suffix, isLetter b := by
  have hall : ∀ s ∈ suffixes, ∀ b ∈ s, isLetter b := by decide +kernel
  exact hall _ part.suffix_mem

theorem points_ok (hok : metric.Ok name) {key : GoString} {entry : Sample F}
    (hentry : metric.samples.lookup key = some entry) :
    ∀ point ∈ metric.points entry, point.Ok := by
  obtain ⟨labels, hvalid, hpairs, -⟩ := hok.samples key entry hentry
  have hname : ValidMetricName metric.name := hok.name_eq ▸ hok.valid
  have hlabels : ∀ pair ∈ entry.labels, ValidLabelName pair.name := hpairs ▸ hvalid.pairs
  rintro ⟨pname, plabels, value⟩ hpoint
  have hseries : ⟨pname, plabels⟩ ∈ (metric.stored entry).series := by
    rw [← map_series_points]
    exact List.mem_map_of_mem hpoint
  rcases Stored.mem_series.mp hseries with ⟨-, part, -, hpart⟩ | ⟨-, hscalar⟩
  · obtain ⟨rfl, rfl⟩ := Series.mk.inj hpart
    refine ⟨validMetricName_append hname part.suffix_letters, ?_⟩
    cases part with
    | bucket le =>
      intro pair hpair
      rcases mem_appendLabel.mp hpair with hpair | rfl
      · exact hlabels pair hpair
      · exact (by decide +kernel : ValidLabelName (str "le"))
    | sum => exact hlabels
    | count => exact hlabels
  · obtain ⟨rfl, rfl⟩ := Series.mk.inj hscalar
    exact ⟨hname, hlabels⟩

/-- The two comments before the samples of a family. -/
def Family.comments (metric : Family F) : List GoString :=
  [str "# HELP " ++ metric.name ++ [0x20] ++ escapeHelp metric.help,
    str "# TYPE " ++ metric.name ++ [0x20] ++ metric.kind.text]

/-- The points of a family. -/
def Family.allPoints (metric : Family F) : List (Point F) := metric.entries.flatMap metric.points

theorem text_eq_lines (metric : Family F) :
    metric.text = (metric.comments ++ metric.allPoints.map Point.text).flatMap (· ++ [0x0A]) := by
  have hpoint : ∀ point : Point F,
      writeSample point.name point.labels point.value = point.text ++ [0x0A] := by
    intro point
    simp [writeSample, Point.text, lineText]
  simp only [Family.text, Family.comments, Family.allPoints, hpoint]
  simp [List.flatMap_map, List.flatMap_assoc]

theorem gather_eq_lines (registry : Registry F) :
    registry.gather = (registry.metrics.flatMap fun metric =>
      metric.comments ++ metric.allPoints.map Point.text).flatMap (· ++ [0x0A]) := by
  rw [Registry.gather, List.flatMap_assoc]
  exact List.flatMap_congr fun metric _ => text_eq_lines metric

theorem newline_notMem_escapeHelp (help : GoString) : 0x0A ∉ escapeHelp help := by
  rw [escapeHelp, List.mem_flatMap]
  rintro ⟨b, -, hb⟩
  split at hb
  · exact absurd hb (by decide)
  split at hb
  · exact absurd hb (by decide)
  · rename_i hnewline
    exact hnewline (List.mem_singleton.mp hb).symm

theorem comments_spec (hok : metric.Ok name) :
    ∀ line ∈ metric.comments, 0x0A ∉ line ∧ line.head? = some 0x23 := by
  have hname : 0x0A ∉ metric.name := by
    rw [hok.name_eq]
    exact fun hmem => (hok.valid.mem hmem).2.2.1 rfl
  have hhelp := newline_notMem_escapeHelp metric.help
  have hkind : 0x0A ∉ metric.kind.text := by cases metric.kind <;> decide +kernel
  have hHELP : str "# HELP " = [0x23, 0x20, 0x48, 0x45, 0x4C, 0x50, 0x20] := by decide +kernel
  have hTYPE : str "# TYPE " = [0x23, 0x20, 0x54, 0x59, 0x50, 0x45, 0x20] := by decide +kernel
  intro line hline
  simp only [Family.comments, hHELP, hTYPE, List.mem_cons, List.not_mem_nil, or_false] at hline
  rcases hline with rfl | rfl
  · simp [hname, hhelp]
  · simp [hname, hkind]

/-- A sample line is no comment. -/
theorem Point.Ok.head_ne {point : Point F} (h : point.Ok) : point.text.head? ≠ some 0x23 := by
  obtain ⟨b, name, hname⟩ := List.exists_cons_of_ne_nil h.name.ne_nil
  have hb := (h.name.mem (hname ▸ List.mem_cons_self : b ∈ point.name)).2.2.2
  rw [Point.text, lineText, seriesText, hname]
  simpa using hb

/-- The points of a registry. -/
def Registry.points (registry : Registry F) : List (Point F) :=
  registry.metrics.flatMap Family.allPoints

theorem registry_points_ok (hok : registry.Ok) (hmetric : metric ∈ registry.metrics) :
    ∀ point ∈ metric.allPoints, point.Ok := by
  obtain ⟨name, hlookup⟩ := mem_sortedValues.mp hmetric
  intro point hpoint
  obtain ⟨entry, hentry, hpoint⟩ := List.mem_flatMap.mp hpoint
  obtain ⟨key, hkey⟩ := mem_sortedValues.mp hentry
  exact points_ok (hok name metric hlookup) hkey point hpoint

theorem readSamples_gather (hok : registry.Ok) :
    readSamples registry.gather = some (registry.points.map Point.line) := by
  have hlines : lines registry.gather = registry.metrics.flatMap fun metric =>
      metric.comments ++ metric.allPoints.map Point.text := by
    rw [gather_eq_lines]
    refine lines_flatMap fun line hline => ?_
    obtain ⟨metric, hmetric, hline⟩ := List.mem_flatMap.mp hline
    rcases List.mem_append.mp hline with hline | hline
    · obtain ⟨name, hlookup⟩ := mem_sortedValues.mp hmetric
      exact (comments_spec (hok name metric hlookup) line hline).1
    · obtain ⟨point, hpoint, rfl⟩ := List.mem_map.mp hline
      have hpok := registry_points_ok hok hmetric point hpoint
      exact newline_notMem_lineText hpok.name hpok.labels point.value
  have hfilter : (lines registry.gather).filter (fun line => line.head? ≠ some 0x23) =
      registry.points.map Point.text := by
    rw [hlines, List.filter_flatMap, Registry.points, List.map_flatMap]
    refine List.flatMap_congr fun metric hmetric => ?_
    obtain ⟨name, hlookup⟩ := mem_sortedValues.mp hmetric
    rw [List.filter_append, List.filter_eq_nil_iff.mpr, List.filter_eq_self.mpr, List.nil_append]
    · intro line hline
      obtain ⟨point, hpoint, rfl⟩ := List.mem_map.mp hline
      simpa using (registry_points_ok hok hmetric point hpoint).head_ne
    · intro line hline
      simpa using (comments_spec (hok name metric hlookup) line hline).2
  rw [readSamples, hfilter]
  refine mapM_map_eq_some fun point hpoint => ?_
  obtain ⟨metric, hmetric, hpoint⟩ := List.mem_flatMap.mp hpoint
  have hpok := registry_points_ok hok hmetric point hpoint
  exact parseSample_lineText hpok.name hpok.labels point.value

/-! ## 5. Every series once -/

theorem map_series_registry (registry : Registry F) :
    (registry.points.map Point.line).map SampleLine.series =
      registry.stored.flatMap Stored.series := by
  rw [List.map_map, Registry.stored, Registry.points, List.map_flatMap, List.flatMap_assoc]
  refine List.flatMap_congr fun metric _ => ?_
  rw [Family.allPoints, List.map_flatMap, List.flatMap_map]
  exact List.flatMap_congr fun entry _ => map_series_points metric entry

/-- **After a run of calls that return normally, the exposition has every series once exactly
when every call of the run was clear.** -/
theorem gather_unique_iff {calls : List (Call F)} {registry : Registry F}
    (hrun : run step newRegistry calls = some registry) :
    SeriesUnique registry.gather ↔ Meets Call.Clear step newRegistry calls := by
  have hok := ok_run hrun
  rw [← separate_iff_meets hrun, ← unique_iff (stored_ok hok) (stored_apart hok),
    ← map_series_registry, SeriesUnique, readSamples_gather hok]
  simp

/-- A counter that is named like a part of the histogram, but has a label of its own. -/
def clearCalls : List (Call Int) :=
  [.observeHistogram (str "h") (str "H") ∅ 0 [1],
    .addCounter (str "h_sum") (str "S") (Finmap.insert (str "a") (str "x") ∅) 0]

theorem gather_unique_iff_clearCalls :
    ∃ registry, run step newRegistry clearCalls = some registry ∧
      SeriesUnique registry.gather := by
  have hruns : (run step newRegistry clearCalls).isSome := by decide +kernel
  obtain ⟨registry, hrun⟩ := Option.isSome_iff_exists.mp hruns
  exact ⟨registry, hrun, (gather_unique_iff hrun).mpr (by decide +kernel)⟩

/-- A counter that is named like the sum of a histogram and has its labels. -/
def clashCalls : List (Call Int) :=
  [.observeHistogram (str "h") (str "H") ∅ 0 [1], .addCounter (str "h_sum") (str "S") ∅ 0]

/-- A histogram with the label `le`. -/
def leCalls : List (Call Int) :=
  [.observeHistogram (str "g") (str "G") (Finmap.insert (str "le") (str "x") ∅) 0 [1]]

/-- `h_sum` is written twice after the first run, and the second writes lines with two labels
`le`. -/
theorem gather_duplicates :
    (run step newRegistry clashCalls).map Registry.gather =
        some (str "# HELP h H\n# TYPE h histogram\nh_bucket\x7ble=\"1\"\x7d 1\n" ++
          str "h_bucket\x7ble=\"+Inf\"\x7d 1\nh_sum 0\nh_count 1\n" ++
          str "# HELP h_sum S\n# TYPE h_sum counter\nh_sum 0\n") ∧
      (∀ registry, run step newRegistry clashCalls = some registry →
        ¬ SeriesUnique registry.gather) ∧
      (run step newRegistry leCalls).map Registry.gather =
        some (str "# HELP g G\n# TYPE g histogram\ng_bucket\x7ble=\"x\",le=\"1\"\x7d 1\n" ++
          str "g_bucket\x7ble=\"x\",le=\"+Inf\"\x7d 1\n" ++
          str "g_sum\x7ble=\"x\"\x7d 0\ng_count\x7ble=\"x\"\x7d 1\n") ∧
      ∀ registry, run step newRegistry leCalls = some registry →
        ¬ SeriesUnique registry.gather := by
  have hclash : ∀ text ∈ (run step newRegistry clashCalls).map Registry.gather,
      ¬ SeriesUnique text := by decide +kernel
  have hle : ∀ text ∈ (run step newRegistry leCalls).map Registry.gather,
      ¬ SeriesUnique text := by decide +kernel
  refine ⟨by decide +kernel, ?_, by decide +kernel, ?_⟩
  · intro registry hrun
    exact hclash _ (by rw [hrun]; rfl)
  · intro registry hrun
    exact hle _ (by rw [hrun]; rfl)

end OrderSystem.Metrics
