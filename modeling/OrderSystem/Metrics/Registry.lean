/-
# The metrics registry

`internal/platform/metrics/registry.go`: families of counters, gauges and histograms, each with
one sample for every set of labels, and their text in the exposition format of Prometheus.

* A Go map is a finite map (`StringMap`).  Where the code ranges over a map it sorts the keys
  afterwards, so the order of iteration shows in one place only: of several invalid label names
  any may be the one that is reported.  Here it is the first one.
* A Go function that panics returns the message in place of a result.  A call that panics on its
  labels has registered its family already (`withSample`).
* `float64` is a parameter (`Float64`): a linear order in which `sort.Float64s` sorts, with the
  checks and operations that the code applies and the documented properties of `FormatFloat`.
  Both zeros are one value.  The code compares only numbers it has checked to be finite.
* Counts are `uint64` and wrap.

Calls that return normally are the steps of the system (`step`).
-/
import OrderSystem.Kit.Run
import OrderSystem.Kit.SortedMap
import OrderSystem.Platform

namespace OrderSystem.Metrics

open Kit

/-! ## 1. Maps, digits and numbers -/

/-- `map[string]β`. -/
abbrev StringMap (β : Type) := Finmap fun _ : GoString => β

/-- `%d` of a length. -/
def digits (n : Nat) : GoString := (Nat.toDigits 10 n).map fun c => UInt8.ofNat c.toNat

/-- The numbers of the registry. -/
class Float64 (F : Type) extends LinearOrder F where
  isNaN : F → Bool
  isInf : F → Bool
  zero : F
  add : F → F → F
  /-- `float64(n)` -/
  ofCount : UInt64 → F
  /-- `strconv.FormatFloat(value, 'g', -1, 64)` -/
  formatFloat : F → GoString
  /-- it writes digits, signs, a point, an exponent, `NaN` or `Inf`... -/
  formatFloat_clean : ∀ x, ∀ b ∈ formatFloat x, b ≠ 0x20 ∧ b ≠ 0x0A
  /-- ...as many digits as are needed to read the number back... -/
  formatFloat_inj : ∀ x y, (isNaN x || isInf x) = false → (isNaN y || isInf y) = false →
    formatFloat x = formatFloat y → x = y
  /-- ...and `+Inf` for an infinity only -/
  formatFloat_ne_inf : ∀ x, (isNaN x || isInf x) = false → formatFloat x ≠ str "+Inf"

open Float64 (isNaN isInf formatFloat)

/-- `math.IsNaN(value) || math.IsInf(value, 0)`. -/
def notFinite {F : Type} [Float64 F] (value : F) : Bool := isNaN value || isInf value

/-! ## 2. Names and labels -/

/-- The message of a panic. -/
abbrev Panic := GoString

/-- `[a-zA-Z_]`. -/
def isLetter (b : UInt8) : Bool := (0x61 ≤ b && b ≤ 0x7A) || (0x41 ≤ b && b ≤ 0x5A) || b == 0x5F

/-- `[0-9]`. -/
def isDigit (b : UInt8) : Bool := 0x30 ≤ b && b ≤ 0x39

/-- A regular expression of the form `^[first][rest]*$`. -/
def matchName (first rest : UInt8 → Bool) : GoString → Bool
  | [] => false
  | b :: bs => first b && bs.all rest

/-- `metricNamePattern`. -/
def metricNamePattern : GoString → Bool :=
  matchName (fun b => isLetter b || b == 0x3A) fun b => isLetter b || isDigit b || b == 0x3A

/-- `labelNamePattern`. -/
def labelNamePattern : GoString → Bool := matchName isLetter fun b => isLetter b || isDigit b

/-- What `validateMetricName` accepts. -/
def ValidMetricName (name : GoString) : Prop := metricNamePattern name = true

/-- What `validateLabelName` accepts. -/
def ValidLabelName (name : GoString) : Prop :=
  labelNamePattern name = true ∧ ¬ str "__" <+: name

instance (name : GoString) : Decidable (ValidMetricName name) :=
  inferInstanceAs (Decidable (_ = _))

instance (name : GoString) : Decidable (ValidLabelName name) :=
  inferInstanceAs (Decidable (_ ∧ _))

/-- `Labels`. -/
abbrev Labels := StringMap GoString

structure LabelPair where
  name : GoString
  value : GoString
  deriving DecidableEq

/-- What `normalizeLabels` writes to the key for one label: `%d:%s=%d:%s;`. -/
def LabelPair.key (pair : LabelPair) : GoString :=
  digits pair.name.length ++ [0x3A] ++ pair.name ++ [0x3D] ++
    digits pair.value.length ++ [0x3A] ++ pair.value ++ [0x3B]

/-- The pairs that `normalizeLabels` returns... -/
def Labels.pairs (labels : Labels) : List LabelPair :=
  (sortedPairs labels).map fun (name, value) => ⟨name, value⟩

/-- ...and the key. -/
def Labels.key (labels : Labels) : GoString := labels.pairs.flatMap LabelPair.key

def normalizeLabels (labels : Labels) : Except Panic (List LabelPair × GoString) :=
  match (sortedKeys labels).find? fun name => ¬ ValidLabelName name with
  | some name => .error (str "invalid metric label name: " ++ name)
  | none => .ok (labels.pairs, labels.key)

/-- `appendLabel`; `sort.Slice` by the names. -/
def appendLabel (labels : List LabelPair) (name value : GoString) : List LabelPair :=
  (labels ++ [LabelPair.mk name value]).insertionSort (·.name ≤ ·.name)

/-! ## 3. Bounds -/

section

variable {F : Type} [Float64 F]

/-- The loop of `normalizeBounds` with the rounds that are left.  `result` is made of the first
`length` cells of the array that the loop ranges over. -/
def compact : (rounds : Nat) → (normalized : List F) → (index length : Nat) →
    Except Panic (List F)
  | 0, normalized, _, length => .ok (normalized.take length)
  | rounds + 1, normalized, index, length =>
    let value := normalized.getD index Float64.zero
    if notFinite value then .error (str "histogram bounds must be finite")
    else if length = 0 ∨ normalized[length - 1]? ≠ some value then
      compact rounds (normalized.set length value) (index + 1) (length + 1)
    else compact rounds normalized (index + 1) length

def normalizeBounds (bounds : List F) : Except Panic (List F) :=
  if bounds.length = 0 then .error (str "histogram bounds are required")
  else
    let normalized := bounds.insertionSort (· ≤ ·)
    compact normalized.length normalized 0 0

def equalBounds (left right : List F) : Bool :=
  left.length = right.length && (left.zip right).all fun (l, r) => l = r

end

/-! ## 4. Families and samples -/

inductive MetricKind where
  | counter
  | gauge
  | histogram
  deriving DecidableEq

def MetricKind.text : MetricKind → GoString
  | counter => str "counter"
  | gauge => str "gauge"
  | histogram => str "histogram"

structure Sample (F : Type) where
  labels : List LabelPair
  value : F
  histogramSum : F
  histogramN : UInt64
  buckets : List UInt64

structure Family (F : Type) where
  name : GoString
  help : GoString
  kind : MetricKind
  bounds : List F
  samples : StringMap (Sample F)

structure Registry (F : Type) where
  families : StringMap (Family F)

def newRegistry {F : Type} : Registry F := ⟨∅⟩

section

variable {F : Type} [Float64 F]

def Registry.familyLocked (registry : Registry F) (name help : GoString) (kind : MetricKind)
    (bounds : List F) : Except Panic (Registry F × Family F) :=
  if ¬ ValidMetricName name then .error (str "invalid metric name: " ++ name)
  else if trimSpace help = [] then .error (str "metric help is required")
  else
    match registry.families.lookup name with
    | none =>
      let metric : Family F := ⟨name, help, kind, bounds, ∅⟩
      .ok (⟨registry.families.insert name metric⟩, metric)
    | some metric =>
      if metric.kind ≠ kind ∨ metric.help ≠ help ∨ ¬ equalBounds metric.bounds bounds then
        .error (str "metric family definition conflicts with existing registration: " ++ name)
      else .ok (registry, metric)

/-- A sample that nothing was recorded in. -/
def Family.newSample (metric : Family F) (pairs : List LabelPair) : Sample F where
  labels := pairs
  value := Float64.zero
  histogramSum := Float64.zero
  histogramN := 0
  buckets := if metric.kind = .histogram then List.replicate metric.bounds.length 0 else []

/-- `sampleLocked`: the family, the key of the sample and the sample. -/
def Family.sampleLocked (metric : Family F) (labels : Labels) :
    Except Panic (Family F × GoString × Sample F) :=
  match normalizeLabels labels with
  | .error panic => .error panic
  | .ok (pairs, key) =>
    match metric.samples.lookup key with
    | some entry => .ok (metric, key, entry)
    | none =>
      let entry := metric.newSample pairs
      .ok ({ metric with samples := metric.samples.insert key entry }, key, entry)

/-- A write to a sample of the family `name`, which the code makes through pointers. -/
def Registry.store (registry : Registry F) (name : GoString) (metric : Family F) (key : GoString)
    (entry : Sample F) : Registry F :=
  ⟨registry.families.insert name { metric with samples := metric.samples.insert key entry }⟩

/-! ## 5. The three calls -/

/-- What the three calls have in common: find or make the family and the sample, and write to
it.  What is written may depend on the bounds of the family. -/
def Registry.withSample (registry : Registry F) (name help : GoString) (kind : MetricKind)
    (bounds : List F) (labels : Labels) (write : List F → Sample F → Sample F) :
    Registry F × Option Panic :=
  match registry.familyLocked name help kind bounds with
  | .error panic => (registry, some panic)
  | .ok (registry, metric) =>
    match metric.sampleLocked labels with
    -- a family that is new stays
    | .error panic => (registry, some panic)
    | .ok (metric, key, entry) =>
      (registry.store name metric key (write metric.bounds entry), none)

def Registry.addCounter (registry : Registry F) (name help : GoString) (labels : Labels)
    (delta : F) : Registry F × Option Panic :=
  if delta < Float64.zero ∨ notFinite delta then
    (registry, some (str "counter delta must be finite and non-negative"))
  else registry.withSample name help .counter [] labels fun _ entry =>
    { entry with value := Float64.add entry.value delta }

def Registry.incCounter (registry : Registry F) (name help : GoString) (labels : Labels) :
    Registry F × Option Panic :=
  registry.addCounter name help labels (Float64.ofCount 1)

def Registry.setGauge (registry : Registry F) (name help : GoString) (labels : Labels)
    (value : F) : Registry F × Option Panic :=
  if notFinite value then (registry, some (str "gauge value must be finite"))
  else registry.withSample name help .gauge [] labels fun _ entry => { entry with value := value }

/-- The loop of `ObserveHistogram` over the bounds from `index` on. -/
def countInto (value : F) : (bounds : List F) → (index : Nat) → List UInt64 → List UInt64
  | [], _, buckets => buckets
  | bound :: bounds, index, buckets =>
    countInto value bounds (index + 1)
      (if value ≤ bound then buckets.modify index (· + 1) else buckets)

def Registry.observeHistogram (registry : Registry F) (name help : GoString) (labels : Labels)
    (value : F) (bounds : List F) : Registry F × Option Panic :=
  if notFinite value then (registry, some (str "histogram observation must be finite"))
  else
    match normalizeBounds bounds with
    | .error panic => (registry, some panic)
    | .ok normalized =>
      registry.withSample name help .histogram normalized labels fun bounds entry =>
        { entry with
          histogramN := entry.histogramN + 1
          histogramSum := Float64.add entry.histogramSum value
          buckets := countInto value bounds 0 entry.buckets }

/-- A call of the registry. -/
inductive Call (F : Type) where
  | addCounter (name help : GoString) (labels : Labels) (delta : F)
  | setGauge (name help : GoString) (labels : Labels) (value : F)
  | observeHistogram (name help : GoString) (labels : Labels) (value : F) (bounds : List F)

def Call.apply (registry : Registry F) : Call F → Registry F × Option Panic
  | addCounter name help labels delta => registry.addCounter name help labels delta
  | setGauge name help labels value => registry.setGauge name help labels value
  | observeHistogram name help labels value bounds =>
    registry.observeHistogram name help labels value bounds

/-- A call that returns normally. -/
def step (registry : Registry F) (call : Call F) : Option (Registry F) :=
  match call.apply registry with
  | (registry, none) => some registry
  | (_, some _) => none

/-! ## 6. The exposition -/

/-- `escapeHelp`. -/
def escapeHelp (value : GoString) : GoString :=
  value.flatMap fun b =>
    if b = 0x5C then [0x5C, 0x5C] else if b = 0x0A then [0x5C, 0x6E] else [b]

/-- `escapeLabelValue`, which also escapes the quote. -/
def escapeLabelValue (value : GoString) : GoString :=
  value.flatMap fun b =>
    if b = 0x5C then [0x5C, 0x5C] else if b = 0x0A then [0x5C, 0x6E]
    else if b = 0x22 then [0x5C, 0x22] else [b]

/-- `%s="%s"`. -/
def LabelPair.text (pair : LabelPair) : GoString :=
  pair.name ++ [0x3D, 0x22] ++ escapeLabelValue pair.value ++ [0x22]

/-- What `writeSample` writes before the value. -/
def seriesText (name : GoString) (labels : List LabelPair) : GoString :=
  name ++ if labels = [] then [] else
    [0x7B] ++ [0x2C].intercalate (labels.map LabelPair.text) ++ [0x7D]

def writeSample (name : GoString) (labels : List LabelPair) (value : F) : GoString :=
  seriesText name labels ++ [0x20] ++ formatFloat value ++ [0x0A]

/-- The arguments of a call of `writeSample`. -/
structure Point (F : Type) where
  name : GoString
  labels : List LabelPair
  value : F

/-- The points that `Gather` writes for one sample. -/
def Family.points (metric : Family F) (entry : Sample F) : List (Point F) :=
  match metric.kind with
  | .histogram =>
    (metric.bounds.zipIdx.map fun (bound, index) =>
      ⟨metric.name ++ str "_bucket", appendLabel entry.labels (str "le") (formatFloat bound),
        Float64.ofCount (entry.buckets.getD index 0)⟩) ++
    [⟨metric.name ++ str "_bucket", appendLabel entry.labels (str "le") (str "+Inf"),
        Float64.ofCount entry.histogramN⟩,
      ⟨metric.name ++ str "_sum", entry.labels, entry.histogramSum⟩,
      ⟨metric.name ++ str "_count", entry.labels, Float64.ofCount entry.histogramN⟩]
  | _ => [⟨metric.name, entry.labels, entry.value⟩]

/-- The samples of a family in the order of their keys. -/
def Family.entries (metric : Family F) : List (Sample F) := sortedValues metric.samples

/-- The families in the order of their names. -/
def Registry.metrics (registry : Registry F) : List (Family F) := sortedValues registry.families

/-- What `Gather` writes for one family. -/
def Family.text (metric : Family F) : GoString :=
  str "# HELP " ++ metric.name ++ [0x20] ++ escapeHelp metric.help ++ [0x0A] ++
  (str "# TYPE " ++ metric.name ++ [0x20] ++ metric.kind.text ++ [0x0A]) ++
  metric.entries.flatMap fun entry =>
    (metric.points entry).flatMap fun point => writeSample point.name point.labels point.value

def Registry.gather (registry : Registry F) : GoString := registry.metrics.flatMap Family.text

end

end OrderSystem.Metrics
