/-
# Reading the exposition back

Label values are arbitrary texts, and a line of the exposition must not be corrupted by what they
contain: quotes, backslashes and newlines, or the braces and commas of the format itself.  A line
is read here by the rules of the text format (`parseSample`): the name ends at the brace or the
space, a label value at the first quote that is not escaped, and `\\`, `\"` and `\n` stand for
what they escape.  Whatever `writeSample` writes is read back as it was (`parseSample_lineText`),
and is one line.

The proof goes from the inside out: a value between its quotes (`readValue_escape`), a list of
labels between its braces (`readLabels_text`), the series.  What follows the part that is read is
a variable in each of them.
-/
import OrderSystem.Metrics.Labels

namespace OrderSystem.Metrics

open Float64 (formatFloat)

/-! ## 1. The reader -/

/-- The rest of a text that begins with this byte. -/
def expect (b : UInt8) : GoString → Option GoString
  | [] => none
  | c :: rest => if c = b then some rest else none

@[simp] theorem expect_self (b : UInt8) (rest : GoString) : expect b (b :: rest) = some rest :=
  if_pos rfl

/-- What a byte after a backslash stands for. -/
def unescape (b : UInt8) : Option UInt8 :=
  if b = 0x5C then some 0x5C else if b = 0x22 then some 0x22
  else if b = 0x6E then some 0x0A else none

/-- A label value after its opening quote, and what follows the closing one; `escaped` after a
backslash. -/
def readValue : (escaped : Bool) → GoString → Option (GoString × GoString)
  | _, [] => none
  | true, b :: rest =>
    (unescape b).bind fun b => (readValue false rest).map fun (value, rest) => (b :: value, rest)
  | false, b :: rest =>
    if b = 0x22 then some ([], rest)
    else if b = 0x0A then none
    else if b = 0x5C then readValue true rest
    else (readValue false rest).map fun (value, rest) => (b :: value, rest)

/-- After a label comes a comma with more of them, or the closing brace. -/
def afterLabel (pair : LabelPair) (more : GoString → Option (List LabelPair × GoString))
    (rest : GoString) : Option (List LabelPair × GoString) :=
  match expect 0x2C rest with
  | some rest => (more rest).map fun (labels, rest) => (pair :: labels, rest)
  | none => (expect 0x7D rest).map fun rest => ([pair], rest)

/-- The labels after the opening brace, and what follows the closing one.  There are no more
labels than bytes. -/
def readLabels : (fuel : Nat) → GoString → Option (List LabelPair × GoString)
  | 0, _ => none
  | fuel + 1, text => do
    let (name, rest) := text.span (· ≠ 0x3D)
    let rest ← expect 0x3D rest
    let rest ← expect 0x22 rest
    let (value, rest) ← readValue false rest
    afterLabel ⟨name, value⟩ (readLabels fuel) rest

/-- The name and the labels at the beginning of a line. -/
def readSeries (line : GoString) : Option (GoString × List LabelPair × GoString) :=
  let (name, rest) := line.span fun b => b ≠ 0x7B ∧ b ≠ 0x20
  match expect 0x7B rest with
  | some rest => (readLabels rest.length rest).map fun (labels, rest) => (name, labels, rest)
  | none => some (name, [], rest)

/-- A line that was read; the value is left as a text. -/
structure SampleLine where
  name : GoString
  labels : List LabelPair
  value : GoString
  deriving DecidableEq

/-- A line without its newline. -/
def parseSample (line : GoString) : Option SampleLine := do
  let (name, labels, rest) ← readSeries line
  let value ← expect 0x20 rest
  if 0x20 ∈ value ∨ 0x0A ∈ value then none else return ⟨name, labels, value⟩

/-! ## 2. Names -/

variable {name : GoString} {b : UInt8} {labels : List LabelPair}

theorem matchName_mem {first rest : UInt8 → Bool} (hfirst : ∀ b, first b → rest b)
    (h : matchName first rest name) : ∀ b ∈ name, rest b := by
  cases name with
  | nil => exact fun b hb => absurd hb List.not_mem_nil
  | cons c name =>
    simp only [matchName, Bool.and_eq_true, List.all_eq_true] at h
    intro b hb
    rcases List.mem_cons.mp hb with rfl | hb
    · exact hfirst b h.1
    · exact h.2 b hb

/-- The bytes of a metric name: none of the format. -/
theorem ValidMetricName.mem (h : ValidMetricName name) (hb : b ∈ name) :
    b ≠ 0x7B ∧ b ≠ 0x20 ∧ b ≠ 0x0A ∧ b ≠ 0x23 := by
  have hchar := matchName_mem (fun b h => by
    simp only [Bool.or_eq_true] at h ⊢
    tauto) h b hb
  refine ⟨?_, ?_, ?_, ?_⟩ <;> rintro rfl <;> exact absurd hchar (by decide)

theorem ValidLabelName.mem (h : ValidLabelName name) (hb : b ∈ name) : b ≠ 0x3D ∧ b ≠ 0x0A := by
  have hchar := matchName_mem (fun b h => by simp_all) h.1 b hb
  constructor <;> rintro rfl <;> exact absurd hchar (by decide)

theorem ValidMetricName.ne_nil (h : ValidMetricName name) : name ≠ [] := by
  rintro rfl
  exact absurd h (by decide)

/-- A span that ends at a byte. -/
theorem span_append {p : UInt8 → Bool} {w : GoString} {rest : GoString} (hw : ∀ c ∈ w, p c)
    (hb : p b = false) : (w ++ b :: rest).span p = (w, b :: rest) := by
  rw [List.span_eq_takeWhile_dropWhile, List.takeWhile_append_of_pos hw,
    List.dropWhile_append_of_pos hw]
  simp [hb]

/-! ## 3. Values and labels -/

theorem readValue_escape (value rest : GoString) :
    readValue false (escapeLabelValue value ++ 0x22 :: rest) = some (value, rest) := by
  induction value with
  | nil => rfl
  | cons b value ih =>
    rw [escapeLabelValue, List.flatMap_cons, List.append_assoc, ← escapeLabelValue]
    by_cases hbackslash : b = 0x5C
    · subst hbackslash
      simp [readValue, unescape, ih]
    by_cases hnewline : b = 0x0A
    · subst hnewline
      simp [readValue, unescape, ih]
    by_cases hquote : b = 0x22
    · subst hquote
      simp [readValue, unescape, ih]
    simp [readValue, hbackslash, hnewline, hquote, ih]

theorem newline_notMem_escape (value : GoString) : 0x0A ∉ escapeLabelValue value := by
  rw [escapeLabelValue, List.mem_flatMap]
  rintro ⟨b, -, hb⟩
  split at hb
  · exact absurd hb (by decide)
  split at hb
  · exact absurd hb (by decide)
  split at hb
  · exact absurd hb (by decide)
  · rename_i hnewline _
    exact hnewline (List.mem_singleton.mp hb).symm

theorem readLabels_succ {pair : LabelPair} (h : ValidLabelName pair.name) (fuel : Nat)
    (rest : GoString) :
    readLabels (fuel + 1) (pair.text ++ rest) = afterLabel pair (readLabels fuel) rest := by
  have htext : pair.text ++ rest =
      pair.name ++ 0x3D :: 0x22 :: (escapeLabelValue pair.value ++ 0x22 :: rest) := by
    simp [LabelPair.text]
  have hname : ∀ c ∈ pair.name, decide (c ≠ 0x3D) = true :=
    fun c hc => decide_eq_true (h.mem hc).1
  rw [htext, readLabels, span_append hname (by decide)]
  simp only [expect_self, Option.bind_eq_bind, Option.bind_some, readValue_escape]

theorem readLabels_text (labels : List LabelPair) (hne : labels ≠ [])
    (h : ∀ pair ∈ labels, ValidLabelName pair.name) {fuel : Nat} (hfuel : labels.length ≤ fuel)
    (rest : GoString) :
    readLabels fuel ([0x2C].intercalate (labels.map LabelPair.text) ++ 0x7D :: rest) =
      some (labels, rest) := by
  induction labels generalizing fuel with
  | nil => exact absurd rfl hne
  | cons pair labels ih =>
    obtain ⟨fuel, rfl⟩ : ∃ n, fuel = n + 1 := Nat.exists_eq_succ_of_ne_zero (by
      simp only [List.length_cons] at hfuel
      omega)
    have hpair := h pair List.mem_cons_self
    cases labels with
    | nil =>
      rw [List.map_singleton, List.intercalate_singleton, readLabels_succ hpair]
      rfl
    | cons next labels =>
      have hih := ih (List.cons_ne_nil _ _) (fun p hp => h p (List.mem_cons_of_mem _ hp))
        (Nat.le_of_succ_le_succ hfuel)
      rw [List.map_cons, List.map_cons, List.intercalate_cons_cons, ← List.map_cons,
        List.append_assoc, List.append_assoc, List.singleton_append, readLabels_succ hpair]
      simp only [afterLabel, expect_self, hih, Option.map_some]

/-! ## 4. Lines -/

/-- A line without its newline. -/
def lineText {F : Type} [Float64 F] (name : GoString) (labels : List LabelPair) (value : F) :
    GoString :=
  seriesText name labels ++ 0x20 :: formatFloat value

theorem length_le_intercalate (labels : List LabelPair) :
    labels.length ≤ ([0x2C].intercalate (labels.map LabelPair.text)).length := by
  induction labels with
  | nil => exact Nat.zero_le _
  | cons pair labels ih =>
    have hpair : 1 ≤ pair.text.length := by
      simp only [LabelPair.text, List.length_append, List.length_cons]
      omega
    cases labels with
    | nil => simpa using hpair
    | cons next labels =>
      rw [List.map_cons, List.map_cons, List.intercalate_cons_cons, ← List.map_cons]
      simp only [List.length_append, List.length_cons] at ih ⊢
      omega

theorem readSeries_text (hname : ValidMetricName name)
    (hlabels : ∀ pair ∈ labels, ValidLabelName pair.name) (rest : GoString) :
    readSeries (seriesText name labels ++ 0x20 :: rest) = some (name, labels, 0x20 :: rest) := by
  have hchars : ∀ c ∈ name, decide (c ≠ 0x7B ∧ c ≠ 0x20) = true := by
    intro c hc
    have hmem := hname.mem hc
    exact decide_eq_true ⟨hmem.1, hmem.2.1⟩
  rw [seriesText]
  split
  · rename_i hnil
    rw [List.append_nil, readSeries, span_append hchars (by decide), hnil]
    rfl
  · rename_i hne
    have hfuel := length_le_intercalate labels
    rw [List.append_assoc, List.append_assoc, List.append_assoc, List.singleton_append, readSeries,
      span_append hchars (by decide)]
    simp only [expect_self, List.singleton_append]
    rw [readLabels_text labels hne hlabels]
    · rfl
    · rw [List.length_append]
      omega

theorem parseSample_lineText {F : Type} [Float64 F] (hname : ValidMetricName name)
    (hlabels : ∀ pair ∈ labels, ValidLabelName pair.name) (value : F) :
    parseSample (lineText name labels value) = some ⟨name, labels, formatFloat value⟩ := by
  have hclean : ¬ (0x20 ∈ formatFloat value ∨ 0x0A ∈ formatFloat value) := by
    rintro (h | h)
    · exact (Float64.formatFloat_clean value _ h).1 rfl
    · exact (Float64.formatFloat_clean value _ h).2 rfl
  rw [parseSample, lineText, readSeries_text hname hlabels]
  simp only [Option.bind_eq_bind, Option.bind_some, expect_self, if_neg hclean]
  rfl

theorem newline_notMem_text {pair : LabelPair} (h : ValidLabelName pair.name) :
    0x0A ∉ pair.text := by
  have hname : 0x0A ∉ pair.name := fun hmem => (h.mem hmem).2 rfl
  have hvalue := newline_notMem_escape pair.value
  simp [LabelPair.text, hname, hvalue]

theorem newline_notMem_intercalate (h : ∀ pair ∈ labels, ValidLabelName pair.name) :
    0x0A ∉ [0x2C].intercalate (labels.map LabelPair.text) := by
  induction labels with
  | nil => exact List.not_mem_nil
  | cons pair labels ih =>
    have hpair := newline_notMem_text (h pair List.mem_cons_self)
    cases labels with
    | nil => simpa using hpair
    | cons next labels =>
      have hrest := ih fun p hp => h p (List.mem_cons_of_mem _ hp)
      rw [List.map_cons, List.map_cons, List.intercalate_cons_cons, ← List.map_cons]
      simp only [List.mem_append, not_or]
      exact ⟨⟨hpair, by decide⟩, hrest⟩

theorem newline_notMem_lineText {F : Type} [Float64 F] (hname : ValidMetricName name)
    (hlabels : ∀ pair ∈ labels, ValidLabelName pair.name) (value : F) :
    0x0A ∉ lineText name labels value := by
  have hmetric : 0x0A ∉ name := fun hmem => (hname.mem hmem).2.2.1 rfl
  have hvalue : 0x0A ∉ formatFloat value :=
    fun hmem => (Float64.formatFloat_clean value _ hmem).2 rfl
  have hinner := newline_notMem_intercalate hlabels
  rw [lineText, seriesText]
  split
  · simp [hmetric, hvalue]
  · simp [hmetric, hvalue, hinner]

/-- What `writeSample` writes is one line, from which the name and the labels are read back as
they were; and the text before the value belongs to one series only. -/
theorem writeSample_faithful {F : Type} [Float64 F] {name : GoString} {labels : List LabelPair}
    (hname : ValidMetricName name) (hlabels : ∀ pair ∈ labels, ValidLabelName pair.name)
    (value : F) :
    (∃ line, writeSample name labels value = line ++ [0x0A] ∧ 0x0A ∉ line ∧
      parseSample line = some ⟨name, labels, formatFloat value⟩) ∧
    ∀ name' labels', ValidMetricName name' → (∀ pair ∈ labels', ValidLabelName pair.name) →
      seriesText name' labels' = seriesText name labels → name' = name ∧ labels' = labels := by
  constructor
  · refine ⟨lineText name labels value, ?_, newline_notMem_lineText hname hlabels value,
      parseSample_lineText hname hlabels value⟩
    simp [writeSample, lineText]
  · intro name' labels' hname' hlabels' htext
    -- both are read from the same text
    have hread := readSeries_text hname' hlabels' []
    rw [htext, readSeries_text hname hlabels] at hread
    obtain ⟨rfl, hpair⟩ := Prod.mk.inj (Option.some.inj hread)
    exact ⟨rfl, (Prod.mk.inj hpair).1.symm⟩

/-- A value with a backslash, quotes, a newline and what would end the labels. -/
def quotedLabels : List LabelPair := [⟨str "a", str "\\\"\n\"\x7d 1"⟩]

theorem writeSample_faithful_quoted :
    ∃ line, writeSample (str "m") quotedLabels (7 : Int) = line ++ [0x0A] ∧ 0x0A ∉ line ∧
      parseSample line = some ⟨str "m", quotedLabels, str "7"⟩ := by
  have hname : ValidMetricName (str "m") := by decide +kernel
  have hlabels : ∀ pair ∈ quotedLabels, ValidLabelName pair.name := by decide +kernel
  obtain ⟨line, hline, hnewline, hparse⟩ := (writeSample_faithful hname hlabels (7 : Int)).1
  exact ⟨line, hline, hnewline, hparse.trans (by decide +kernel)⟩

end OrderSystem.Metrics
