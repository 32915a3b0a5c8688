/-
# Series

A line of the exposition belongs to a series: a metric name and a set of label pairs.  A counter
or a gauge writes one series for a sample.  A histogram writes several: its name with `_bucket`
and one more label `le` for each bound, and its name with `_sum` and `_count` (`Part`).

The registry keeps families apart by the names they are registered under, not by the names they
write, and it does not reserve the label `le`.  So two samples can write one series: a counter
that is named like a part of a histogram and has the labels of that part (`Stored.Clashes`).  And
a histogram with a label `le` writes it twice.  `unique_iff` says that nothing else can happen:
two histograms never write the same series, because their names end in different ways, and
because different bounds are formatted differently.
-/
import OrderSystem.Metrics.Updates

namespace OrderSystem.Metrics

open Kit
open Float64 (formatFloat)

/-! ## 1. Sorted labels -/

/-- Sorted by name, and no name twice. -/
structure Ordered (labels : List LabelPair) : Prop where
  nodup : (labels.map LabelPair.name).Nodup
  sorted : labels.Pairwise (·.name ≤ ·.name)

theorem ordered_pairs (labels : Labels) : Ordered labels.pairs := by
  have hnames : labels.pairs.map LabelPair.name = sortedKeys labels := by
    rw [Labels.pairs, List.map_map, ← map_fst_sortedPairs]
    rfl
  constructor
  · rw [hnames]
    exact nodup_sortedKeys labels
  · have hsorted := pairwise_sortedKeys labels
    rw [← hnames, List.pairwise_map] at hsorted
    exact hsorted

/-- Labels in this form are the same list when they are the same set. -/
theorem Ordered.ext {l l' : List LabelPair} (h : Ordered l) (h' : Ordered l')
    (hmem : ∀ pair, pair ∈ l ↔ pair ∈ l') : l = l' := by
  have hperm : l.Perm l' :=
    (List.perm_ext_iff_of_nodup h.nodup.of_map h'.nodup.of_map).mpr hmem
  refine List.Perm.eq_of_pairwise (fun a b ha hb hab hba => ?_) h.sorted h'.sorted hperm
  exact List.inj_on_of_nodup_map h.nodup ha ((hmem b).mpr hb) (Std.le_antisymm hab hba)

@[simp] theorem mem_appendLabel {labels : List LabelPair} {name value : GoString}
    {pair : LabelPair} :
    pair ∈ appendLabel labels name value ↔ pair ∈ labels ∨ pair = ⟨name, value⟩ := by
  simp [appendLabel]

theorem appendLabel_perm (labels : List LabelPair) (name value : GoString) :
    (appendLabel labels name value).Perm (⟨name, value⟩ :: labels) :=
  (List.perm_insertionSort _ _).trans (List.perm_append_singleton _ _)

theorem Ordered.appendLabel {labels : List LabelPair} (h : Ordered labels) {name value : GoString}
    (hname : name ∉ labels.map LabelPair.name) : Ordered (appendLabel labels name value) := by
  have htotal : Std.Total fun a b : LabelPair => a.name ≤ b.name := ⟨fun a b => Std.le_total⟩
  have htrans : IsTrans LabelPair fun a b => a.name ≤ b.name := ⟨fun a b c => Std.le_trans⟩
  constructor
  · refine ((appendLabel_perm labels name value).map _).nodup_iff.mpr ?_
    exact List.nodup_cons.mpr ⟨hname, h.nodup⟩
  · exact List.pairwise_insertionSort _ _

/-! ## 2. The series of a sample -/

structure Series where
  name : GoString
  labels : List LabelPair
  deriving DecidableEq

/-- The same name and the same set of label pairs. -/
def Series.Same (a b : Series) : Prop := a.name = b.name ∧ ∀ pair, pair ∈ a.labels ↔ pair ∈ b.labels

instance (a b : Series) : Decidable (a.Same b) :=
  decidable_of_iff (a.name = b.name ∧ a.labels ⊆ b.labels ∧ b.labels ⊆ a.labels)
    ⟨fun h => ⟨h.1, fun _ => ⟨fun hp => h.2.1 hp, fun hp => h.2.2 hp⟩⟩,
      fun h => ⟨h.1, fun _ => (h.2 _).mp, fun _ => (h.2 _).mpr⟩⟩

/-- A part of a histogram; a bucket with the value of its label `le`. -/
inductive Part where
  | bucket (le : GoString)
  | sum
  | count
  deriving DecidableEq

namespace Part

def suffix : Part → GoString
  | bucket _ => str "_bucket"
  | sum => str "_sum"
  | count => str "_count"

def labels (base : List LabelPair) : Part → List LabelPair
  | bucket le => appendLabel base (str "le") le
  | sum | count => base

def series (name : GoString) (base : List LabelPair) (part : Part) : Series :=
  ⟨name ++ part.suffix, part.labels base⟩

end Part

section

variable {F : Type} [Float64 F]

/-- The parts of a histogram with these bounds. -/
def parts (bounds : List F) : List Part :=
  bounds.map (fun bound => .bucket (formatFloat bound)) ++ [.bucket (str "+Inf"), .sum, .count]

/-- A sample, as far as its series depend on it. -/
structure Stored (F : Type) where
  name : GoString
  kind : MetricKind
  bounds : List F
  labels : List LabelPair
  deriving DecidableEq

def Stored.series (s : Stored F) : List Series :=
  if s.kind = .histogram then (parts s.bounds).map (Part.series s.name s.labels)
  else [⟨s.name, s.labels⟩]

/-- A counter or gauge that stands for a part of a histogram. -/
def Stored.Clashes (s t : Stored F) : Prop :=
  s.kind ≠ .histogram ∧ t.kind = .histogram ∧
    ∃ part ∈ parts t.bounds, part.series t.name t.labels = ⟨s.name, s.labels⟩

instance (s t : Stored F) : Decidable (s.Clashes t) := inferInstanceAs (Decidable (_ ∧ _ ∧ _))

/-- The label that histograms write themselves. -/
def HasLe (labels : List LabelPair) : Prop := str "le" ∈ labels.map LabelPair.name

instance (labels : List LabelPair) : Decidable (HasLe labels) :=
  inferInstanceAs (Decidable (_ ∈ _))

end

/-! ## 3. Parts of histograms are different -/

def suffixes : List GoString := [str "_bucket", str "_sum", str "_count"]

theorem suffixes_apart : ∀ s ∈ suffixes, ∀ t ∈ suffixes, s ≠ t → ¬ s <:+ t := by decide +kernel

namespace Part

theorem suffix_mem (p : Part) : p.suffix ∈ suffixes := by
  cases p <;> simp [suffix, suffixes]

/-- A name ends in one way only. -/
theorem name_inj {p q : Part} {n n' : GoString} (h : n ++ p.suffix = n' ++ q.suffix) :
    n = n' ∧ p.suffix = q.suffix := by
  have hsuffix : p.suffix = q.suffix := by
    by_contra hne
    rcases List.suffix_or_suffix_of_suffix (h ▸ List.suffix_append n p.suffix)
      (List.suffix_append n' q.suffix) with hpq | hqp
    · exact suffixes_apart _ p.suffix_mem _ q.suffix_mem hne hpq
    · exact suffixes_apart _ q.suffix_mem _ p.suffix_mem (Ne.symm hne) hqp
  rw [hsuffix] at h
  exact ⟨List.append_cancel_right h, hsuffix⟩

/-- Parts that end in the same way are two buckets, or one part with the labels of the sample. -/
theorem eq_or_buckets {p q : Part} (h : p.suffix = q.suffix) :
    (p = q ∧ ∀ l, p.labels l = l) ∨ ∃ le le', p = bucket le ∧ q = bucket le' := by
  have hsum : str "_bucket" ≠ str "_sum" := by decide +kernel
  have hcount : str "_bucket" ≠ str "_count" := by decide +kernel
  have hboth : str "_sum" ≠ str "_count" := by decide +kernel
  cases p with
  | bucket le =>
    cases q with
    | bucket le' => exact Or.inr ⟨le, le', rfl, rfl⟩
    | sum => exact absurd h hsum
    | count => exact absurd h hcount
  | sum =>
    cases q with
    | bucket le' => exact absurd h.symm hsum
    | sum => exact Or.inl ⟨rfl, fun _ => rfl⟩
    | count => exact absurd h hboth
  | count =>
    cases q with
    | bucket le' => exact absurd h.symm hcount
    | sum => exact absurd h.symm hboth
    | count => exact Or.inl ⟨rfl, fun _ => rfl⟩

/-- The labels of a bucket, without the one it adds. -/
theorem mem_base_of_bucket {l l' : List LabelPair} (hl : ¬ HasLe l) {le le' : GoString}
    (h : ∀ pair, pair ∈ appendLabel l (str "le") le ↔ pair ∈ appendLabel l' (str "le") le')
    {pair : LabelPair} (hpair : pair ∈ l) : pair ∈ l' := by
  rcases mem_appendLabel.mp ((h pair).mp (mem_appendLabel.mpr (Or.inl hpair))) with hmem | rfl
  · exact hmem
  · exact absurd (List.mem_map_of_mem hpair) hl

theorem eq_of_same {p q : Part} {n n' : GoString} {l l' : List LabelPair} (hl : ¬ HasLe l)
    (hl' : ¬ HasLe l') (h : (p.series n l).Same (q.series n' l')) :
    p = q ∧ n = n' ∧ ∀ pair, pair ∈ l ↔ pair ∈ l' := by
  obtain ⟨hname, hlabels⟩ := h
  obtain ⟨rfl, hsuffix⟩ := name_inj hname
  rcases eq_or_buckets hsuffix with ⟨rfl, hbase⟩ | ⟨le, le', rfl, rfl⟩
  · simp only [series, hbase] at hlabels
    exact ⟨rfl, rfl, hlabels⟩
  · have hle : (⟨str "le", le⟩ : LabelPair) ∈ appendLabel l' (str "le") le' :=
      (hlabels _).mp (mem_appendLabel.mpr (Or.inr rfl))
    rcases mem_appendLabel.mp hle with hmem | heq
    · exact absurd (List.mem_map_of_mem hmem) hl'
    · obtain ⟨-, rfl⟩ := LabelPair.mk.inj heq
      exact ⟨rfl, rfl, fun pair => ⟨mem_base_of_bucket hl hlabels,
        mem_base_of_bucket hl' fun pair => (hlabels pair).symm⟩⟩

/-- The labels of a part in their normal form. -/
theorem ordered_labels {l : List LabelPair} (h : Ordered l) (hl : ¬ HasLe l) (p : Part) :
    Ordered (p.labels l) := by
  cases p with
  | bucket le => exact h.appendLabel hl
  | sum => exact h
  | count => exact h

end Part

section

variable {F : Type} [Float64 F]

theorem nodup_parts {bounds : List F} (hincreasing : bounds.Pairwise (· < ·))
    (hfinite : ∀ x ∈ bounds, notFinite x = false) : (parts bounds).Nodup := by
  rw [parts, List.nodup_append]
  refine ⟨?_, by decide, ?_⟩
  · refine List.Nodup.map_on ?_ (hincreasing.imp ne_of_lt)
    intro x hx y hy h
    exact Float64.formatFloat_inj x y (hfinite x hx) (hfinite y hy) (Part.bucket.inj h)
  · intro p hp q hq
    obtain ⟨x, hx, rfl⟩ := List.mem_map.mp hp
    rintro rfl
    simp only [List.mem_cons, Part.bucket.injEq, reduceCtorEq, List.not_mem_nil, or_false] at hq
    exact Float64.formatFloat_ne_inf x (hfinite x hx) hq

/-! ## 4. When all series are different -/

/-- No series twice, and no label name twice in a series. -/
structure Unique (series : List Series) : Prop where
  distinct : series.Pairwise fun a b => ¬ a.Same b
  once : ∀ s ∈ series, (s.labels.map LabelPair.name).Nodup

instance (series : List Series) : Decidable (Unique series) :=
  decidable_of_iff (series.Pairwise (fun a b => ¬ a.Same b) ∧
    ∀ s ∈ series, (s.labels.map LabelPair.name).Nodup) ⟨fun h => ⟨h.1, h.2⟩, fun h => ⟨h.1, h.2⟩⟩

/-- No histogram has the label `le`, and no counter or gauge stands for a part of one. -/
structure Separate (stored : List (Stored F)) : Prop where
  noLe : ∀ s ∈ stored, s.kind = .histogram → ¬ HasLe s.labels
  noClash : ∀ s ∈ stored, ∀ t ∈ stored, ¬ s.Clashes t

theorem Series.Same.symm {a b : Series} (h : a.Same b) : b.Same a :=
  ⟨h.1.symm, fun pair => (h.2 pair).symm⟩

/-- A sample of a registry that calls have made. -/
structure Stored.Ok (s : Stored F) : Prop where
  labels : Ordered s.labels
  increasing : s.bounds.Pairwise (· < ·)
  finite : ∀ x ∈ s.bounds, notFinite x = false

theorem Stored.mem_series {s : Stored F} {x : Series} :
    x ∈ s.series ↔
      (s.kind = .histogram ∧ ∃ part ∈ parts s.bounds, part.series s.name s.labels = x) ∨
      (s.kind ≠ .histogram ∧ x = ⟨s.name, s.labels⟩) := by
  rw [Stored.series]
  split
  · rename_i hkind
    simp [hkind]
  · rename_i hkind
    simp [hkind]

/-- The series of one sample are different. -/
theorem Stored.Ok.distinct {s : Stored F} (h : s.Ok)
    (hle : s.kind = .histogram → ¬ HasLe s.labels) :
    s.series.Pairwise fun a b => ¬ a.Same b := by
  rw [Stored.series]
  split
  · rename_i hkind
    rw [List.pairwise_map]
    refine (nodup_parts h.increasing h.finite).imp fun {p q} hne hsame => hne ?_
    exact (Part.eq_of_same (hle hkind) (hle hkind) hsame).1
  · exact List.pairwise_singleton _ _

/-- Two samples with a series in common are a clash, or have one name and one set of labels. -/
theorem Stored.clashes_of_same {s t : Stored F} (hs : s.Ok) (ht : t.Ok)
    (hsle : s.kind = .histogram → ¬ HasLe s.labels)
    (htle : t.kind = .histogram → ¬ HasLe t.labels) {x y : Series} (hx : x ∈ s.series)
    (hy : y ∈ t.series) (hsame : x.Same y) :
    s.Clashes t ∨ t.Clashes s ∨ s.name = t.name ∧ s.labels = t.labels := by
  rcases Stored.mem_series.mp hx with ⟨hskind, p, hp, rfl⟩ | ⟨hskind, rfl⟩
  · rcases Stored.mem_series.mp hy with ⟨htkind, q, hq, rfl⟩ | ⟨htkind, rfl⟩
    · obtain ⟨-, hname, hlabels⟩ := Part.eq_of_same (hsle hskind) (htle htkind) hsame
      exact Or.inr (Or.inr ⟨hname, hs.labels.ext ht.labels hlabels⟩)
    · have hlabels := (Part.ordered_labels hs.labels (hsle hskind) p).ext ht.labels hsame.2
      refine Or.inr (Or.inl ⟨htkind, hskind, p, hp, ?_⟩)
      exact Series.mk.injEq .. ▸ ⟨hsame.1, hlabels⟩
  · rcases Stored.mem_series.mp hy with ⟨htkind, q, hq, rfl⟩ | ⟨htkind, rfl⟩
    · have hlabels := (Part.ordered_labels ht.labels (htle htkind) q).ext hs.labels hsame.symm.2
      refine Or.inl ⟨hskind, htkind, q, hq, ?_⟩
      exact Series.mk.injEq .. ▸ ⟨hsame.1.symm, hlabels⟩
    · exact Or.inr (Or.inr ⟨hsame.1, hs.labels.ext ht.labels hsame.2⟩)

theorem Stored.Ok.once {s : Stored F} (h : s.Ok) (hle : s.kind = .histogram → ¬ HasLe s.labels) :
    ∀ x ∈ s.series, (x.labels.map LabelPair.name).Nodup := by
  intro x hx
  rcases Stored.mem_series.mp hx with ⟨hkind, p, -, rfl⟩ | ⟨-, rfl⟩
  · exact (Part.ordered_labels h.labels (hle hkind) p).nodup
  · exact h.labels.nodup

/-- A histogram with a label `le` writes it twice. -/
theorem not_once_of_hasLe {labels : List LabelPair} (h : HasLe labels) (le : GoString) :
    ¬ ((appendLabel labels (str "le") le).map LabelPair.name).Nodup := by
  intro hnodup
  have hcons := ((appendLabel_perm labels (str "le") le).map LabelPair.name).nodup_iff.mp hnodup
  exact (List.nodup_cons.mp hcons).1 h

/-- Samples with different names or labels write different series exactly when they are
separate. -/
theorem unique_iff {stored : List (Stored F)} (hok : ∀ s ∈ stored, s.Ok)
    (hapart : stored.Pairwise fun s t => ¬ (s.name = t.name ∧ s.labels = t.labels)) :
    Unique (stored.flatMap Stored.series) ↔ Separate stored := by
  constructor
  · intro h
    constructor
    · intro s hs hkind hle
      have hseries : Part.series s.name s.labels (.bucket (str "+Inf")) ∈ s.series :=
        Stored.mem_series.mpr (Or.inl ⟨hkind, _, by simp [parts], rfl⟩)
      exact not_once_of_hasLe hle _ (h.once _ (List.mem_flatMap.mpr ⟨s, hs, hseries⟩))
    · rintro s hs t ht ⟨hskind, htkind, part, hpart, hseries⟩
      have hsymm : Std.Symm fun a b : Stored F => ∀ x ∈ a.series, ∀ y ∈ b.series, ¬ x.Same y :=
        ⟨fun a b hab x hx y hy hxy => hab y hy x hx hxy.symm⟩
      have hne : s ≠ t := by
        rintro rfl
        exact hskind htkind
      refine (List.pairwise_flatMap.mp h.distinct).2.forall hs ht hne ⟨s.name, s.labels⟩
        (Stored.mem_series.mpr (Or.inr ⟨hskind, rfl⟩)) _
        (Stored.mem_series.mpr (Or.inl ⟨htkind, part, hpart, rfl⟩)) ?_
      rw [hseries]
      exact ⟨rfl, fun _ => Iff.rfl⟩
  · intro h
    constructor
    · refine List.pairwise_flatMap.mpr ⟨fun s hs => (hok s hs).distinct (h.noLe s hs), ?_⟩
      refine hapart.imp_of_mem fun {s t} hs ht hne x hx y hy hsame => ?_
      rcases Stored.clashes_of_same (hok s hs) (hok t ht) (h.noLe s hs) (h.noLe t ht) hx hy hsame
        with hclash | hclash | heq
      · exact h.noClash s hs t ht hclash
      · exact h.noClash t ht s hs hclash
      · exact hne heq
    · intro x hx
      obtain ⟨s, hs, hmem⟩ := List.mem_flatMap.mp hx
      exact (hok s hs).once (h.noLe s hs) x hmem

end

end OrderSystem.Metrics
