/-
# The platform: Go values and MySQL comparisons

The services are Go programs over MySQL.  This file fixes how their values are modelled.

* A Go `string` is its bytes (`GoString`): `len` is the number of bytes and a slice cuts
  bytes, which is what `truncate` does.  `strings.TrimSpace` removes the UTF-8 encodings of
  Unicode white space from both ends.
* `int64` values are integers, and Go arithmetic on them wraps (`wrap64`).  Arithmetic done by
  MySQL on a `BIGINT` column does not wrap: it is an error outside the range (`InBigint`).
* The tables compare text by the collation `utf8mb4_general_ci` (every `CREATE TABLE` under
  `migrations/`), so two keys that differ in case are one key.  What the collation identifies
  is not part of this repository; `Collation.weight` stands for its weight string, and text
  columns are compared by weight.

Both `ordersvc` (`resolveItems`) and `inventorysvc` (`normalizeItems`) start by adding up the
requested lines of each product in a Go map.  That loop is here, once (`aggregate`).
-/
import Mathlib.Data.List.Sort
import Mathlib.Data.Int.ModEq
import Mathlib.Algebra.BigOperators.Group.List.Basic

namespace OrderSystem

/-! ## 1. Strings -/

/-- A Go string: its bytes. -/
abbrev GoString := List UInt8

/-- A string literal of the source. -/
def str (s : String) : GoString := s.toUTF8.toList

/-- The UTF-8 encodings of the code points that `unicode.IsSpace` accepts. -/
def whiteSpace : List GoString :=
  [[0x09], [0x0A], [0x0B], [0x0C], [0x0D], [0x20], [0xC2, 0x85], [0xC2, 0xA0],
    [0xE1, 0x9A, 0x80], [0xE2, 0x80, 0x80], [0xE2, 0x80, 0x81], [0xE2, 0x80, 0x82],
    [0xE2, 0x80, 0x83], [0xE2, 0x80, 0x84], [0xE2, 0x80, 0x85], [0xE2, 0x80, 0x86],
    [0xE2, 0x80, 0x87], [0xE2, 0x80, 0x88], [0xE2, 0x80, 0x89], [0xE2, 0x80, 0x8A],
    [0xE2, 0x80, 0xA8], [0xE2, 0x80, 0xA9], [0xE2, 0x80, 0xAF], [0xE2, 0x81, 0x9F],
    [0xE3, 0x80, 0x80]]

/-- Drop leading occurrences of the words `ws`.  Each word is nonempty, so `fuel` can be the
length of the string. -/
def dropLeading (ws : List GoString) : (fuel : Nat) → GoString → GoString
  | 0, s => s
  | fuel + 1, s =>
    match ws.find? (·.isPrefixOf s) with
    | some w => dropLeading ws fuel (s.drop w.length)
    | none => s

/-- `strings.TrimSpace`. -/
def trimSpace (s : GoString) : GoString :=
  let left := dropLeading whiteSpace s.length s
  (dropLeading (whiteSpace.map List.reverse) left.length left.reverse).reverse

variable {s : GoString} {p : Int}

/-- `truncate` (`ordersvc/order.go`): `value[:limit]` when the string is longer. -/
def truncate (value : GoString) (limit : Nat) : GoString :=
  if value.length ≤ limit then value else value.take limit

/-- The number of characters of a UTF-8 text: the bytes that do not continue one. -/
def charCount (s : GoString) : Nat := (s.filter fun b => b &&& 0xC0 != 0x80).length

/-- The bytes are UTF-8. -/
def ValidUTF8 (s : GoString) : Prop := s.toByteArray.IsValidUTF8

instance (s : GoString) : Decidable (ValidUTF8 s) :=
  inferInstanceAs (Decidable (ByteArray.IsValidUTF8 _))

theorem ValidUTF8.append {t : GoString} (hs : ValidUTF8 s) (ht : ValidUTF8 t) :
    ValidUTF8 (s ++ t) := by
  rw [ValidUTF8, List.toByteArray_append]
  exact ByteArray.IsValidUTF8.append hs ht

/-! ## 2. Integers -/

/-- `1<<63 - 1`. -/
def maxInt64 : Int := 2 ^ 63 - 1

/-- `time.Second`, in nanoseconds. -/
def second : Int := 1000000000

/-- Go's `int64` arithmetic: the representative modulo `2^64` in `[-2^63, 2^63)`. -/
def wrap64 (x : Int) : Int := x.bmod (2 ^ 64)

/-- A value that a `BIGINT` column can hold; MySQL reports anything else as out of range. -/
def InBigint (x : Int) : Prop := -(2 ^ 63) ≤ x ∧ x ≤ maxInt64

instance (x : Int) : Decidable (InBigint x) := inferInstanceAs (Decidable (_ ∧ _))

/-! ## 3. Text comparison -/

/-- The collation of the tables: two texts are equal to the database when their weights
are. -/
class Collation where
  weight : GoString → GoString
  /-- no character is ignored but trailing spaces: only a blank text compares equal to `''` -/
  blank : ∀ s, weight s = weight [] → trimSpace s = []

/-- `utf8mb4_general_ci` on ASCII text: letters are compared in upper case. -/
abbrev asciiCi : Collation where
  weight s := s.map fun b => if 0x61 ≤ b ∧ b ≤ 0x7A then b - 0x20 else b
  blank s h := by
    obtain rfl : s = [] := List.map_eq_nil_iff.mp h
    rfl

/-! ## 4. Adding up requested lines -/

/-- One line of a request: `CreateOrderItemRequest` and the client's `ReservationItem` of
`ordersvc`, `ItemRequest` of `inventorysvc`. -/
structure ItemRequest where
  productID : Int
  quantity : Int
  deriving DecidableEq, Repr

/-- Go's `map[int64]int64`, as the list of its entries. -/
abbrev Quantities := List (Int × Int)

/-- `quantities[productID] += quantity`: a missing entry reads as zero, and the sum wraps. -/
def Quantities.add : Quantities → Int → Int → Quantities
  | [], productID, quantity => [(productID, wrap64 (0 + quantity))]
  | (p, n) :: rest, productID, quantity =>
    if p = productID then (p, wrap64 (n + quantity)) :: rest
    else (p, n) :: Quantities.add rest productID quantity

/-- The loop both services run over the requested lines; `none` is the early return on a line
with a non-positive product id or quantity. -/
def aggregate : Quantities → List ItemRequest → Option Quantities
  | quantities, [] => some quantities
  | quantities, item :: items =>
    if item.productID ≤ 0 ∨ item.quantity ≤ 0 then none
    else aggregate (quantities.add item.productID item.quantity) items

/-- The entries of the map in increasing order of product id: what both services build by
sorting, whatever order Go iterates the map in. -/
def Quantities.sorted (quantities : Quantities) : List ItemRequest :=
  (quantities.map fun e => ⟨e.1, e.2⟩).insertionSort (·.productID ≤ ·.productID)

/-! ## 5. The map has one entry per product -/

theorem Quantities.add_keys (m : Quantities) (p q : Int) :
    (m.add p q).map Prod.fst = if p ∈ m.map Prod.fst then m.map Prod.fst
      else m.map Prod.fst ++ [p] := by
  induction m with
  | nil => simp [Quantities.add]
  | cons e m ih =>
    obtain ⟨k, n⟩ := e
    by_cases hk : k = p
    · simp [Quantities.add, hk]
    · have hpk : p ≠ k := fun h => hk h.symm
      simp only [Quantities.add, if_neg hk, List.map_cons, ih, List.mem_cons, hpk, false_or]
      split
      · rfl
      · rfl

variable {m : Quantities}

theorem Quantities.add_nodup (h : (m.map Prod.fst).Nodup) (p q : Int) :
    ((m.add p q).map Prod.fst).Nodup := by
  rw [Quantities.add_keys]
  split
  · exact h
  · rename_i hp
    refine List.nodup_append.mpr ⟨h, List.nodup_singleton p, ?_⟩
    intro a ha b hb
    rw [List.mem_singleton.mp hb]
    rintro rfl
    exact hp ha

theorem aggregate_nodup : ∀ (items : List ItemRequest) {m m' : Quantities},
    (m.map Prod.fst).Nodup → aggregate m items = some m' → (m'.map Prod.fst).Nodup
  | [], m, m', h, heq => by
    simp only [aggregate, Option.some.injEq] at heq
    exact heq ▸ h
  | item :: items, m, m', h, heq => by
    simp only [aggregate] at heq
    split at heq
    · exact absurd heq (by simp)
    · exact aggregate_nodup items (Quantities.add_nodup h _ _) heq

/-! ## 6. What the loop adds up -/

/-- What a list of lines asks for of one product. -/
def lineSum (items : List ItemRequest) (p : Int) : Int :=
  (items.map fun i => if i.productID = p then i.quantity else 0).sum

@[simp] theorem lineSum_nil (p : Int) : lineSum [] p = 0 := rfl

@[simp] theorem lineSum_cons (i : ItemRequest) (items : List ItemRequest) (p : Int) :
    lineSum (i :: items) p = (if i.productID = p then i.quantity else 0) + lineSum items p := by
  simp [lineSum]

variable {items : List ItemRequest}

theorem lineSum_perm {items' : List ItemRequest} (h : items.Perm items') (p : Int) :
    lineSum items p = lineSum items' p :=
  (h.map _).sum_eq

theorem lineSum_of_not_mem (h : p ∉ items.map ItemRequest.productID) : lineSum items p = 0 := by
  induction items with
  | nil => rfl
  | cons i items ih =>
    simp only [List.map_cons, List.mem_cons, not_or] at h
    rw [lineSum_cons, if_neg fun hp => h.1 hp.symm, ih h.2, zero_add]

@[simp] theorem wrap64_wrap64 (x : Int) : wrap64 (wrap64 x) = wrap64 x := Int.bmod_bmod

@[simp] theorem wrap64_wrap64_add (x y : Int) : wrap64 (wrap64 x + y) = wrap64 (x + y) :=
  Int.bmod_add_bmod

@[simp] theorem wrap64_add_wrap64 (x y : Int) : wrap64 (x + wrap64 y) = wrap64 (x + y) :=
  Int.add_bmod_bmod

/-- A sum that fits is not changed by wrapping. -/
theorem wrap64_eq {x : Int} (h : InBigint x) : wrap64 x = x := by
  obtain ⟨h1, h2⟩ := h
  unfold maxInt64 at h2
  unfold wrap64
  refine Int.bmod_eq_of_le ?_ ?_
  · simp only [Nat.cast_ofNat, Nat.cast_pow]
    omega
  · simp only [Nat.cast_ofNat, Nat.cast_pow]
    omega

/-- The entries of the map as lines. -/
def Quantities.lines (m : Quantities) : List ItemRequest := m.map fun e => ⟨e.1, e.2⟩

theorem Quantities.add_lineSum (h : (m.map Prod.fst).Nodup) (p q p' : Int) :
    lineSum (m.add p q).lines p' =
      if p = p' then wrap64 (lineSum m.lines p + q) else lineSum m.lines p' := by
  induction m with
  | nil =>
    simp only [Quantities.add, Quantities.lines, List.map_cons, List.map_nil, lineSum_cons,
      lineSum_nil, add_zero]
  | cons e m ih =>
    obtain ⟨k, n⟩ := e
    simp only [List.map_cons, List.nodup_cons] at h
    have ih := ih h.2
    by_cases hk : k = p
    · subst hk
      have hzero : lineSum (Quantities.lines m) k = 0 := by
        refine lineSum_of_not_mem ?_
        simpa [Quantities.lines] using h.1
      simp only [Quantities.add, if_true, Quantities.lines, List.map_cons, lineSum_cons] at hzero ⊢
      rw [hzero]
      by_cases hp : k = p'
      · subst hp
        simp [hzero]
      · simp [hp]
    · simp only [Quantities.add, if_neg hk, Quantities.lines, List.map_cons, lineSum_cons] at ih ⊢
      rw [ih]
      by_cases hp : p = p'
      · subst hp
        simp [hk]
      · simp [hp]

/-- **The loop adds up the lines**, modulo `2^64`. -/
theorem aggregate_lineSum : ∀ (items : List ItemRequest) {m m' : Quantities},
    (m.map Prod.fst).Nodup → (∀ p, wrap64 (lineSum m.lines p) = lineSum m.lines p) →
    aggregate m items = some m' → ∀ p,
      lineSum m'.lines p = wrap64 (lineSum m.lines p + lineSum items p)
  | [], m, m', h, hw, heq, p => by
    simp only [aggregate, Option.some.injEq] at heq
    simp [← heq, hw]
  | item :: items, m, m', h, hw, heq, p => by
    simp only [aggregate] at heq
    split at heq
    · exact absurd heq (by simp)
    · have hw' : ∀ p', wrap64 (lineSum (m.add item.productID item.quantity).lines p') =
          lineSum (m.add item.productID item.quantity).lines p' := by
        intro p'
        rw [Quantities.add_lineSum h]
        split
        · exact wrap64_wrap64 _
        · exact hw p'
      rw [aggregate_lineSum items (Quantities.add_nodup h _ _) hw' heq p,
        Quantities.add_lineSum h, lineSum_cons]
      split
      · rename_i hp
        subst hp
        rw [wrap64_wrap64_add, add_assoc]
      · rw [zero_add]

theorem Quantities.sorted_lineSum (m : Quantities) (p : Int) :
    lineSum m.sorted p = lineSum m.lines p :=
  lineSum_perm (List.perm_insertionSort _ _) p

/-! ## 7. Adding up twice -/

/-- A list sorted by a key that no two members share is strictly sorted. -/
theorem insertionSort_strict {ι : Type} (key : ι → Int) {l : List ι} (h : (l.map key).Nodup) :
    (l.insertionSort fun a b => key a ≤ key b).Pairwise fun a b => key a < key b := by
  have _ : IsTrans ι fun a b => key a ≤ key b := ⟨fun _ _ _ => le_trans⟩
  have _ : Std.Total fun a b : ι => key a ≤ key b := ⟨fun a b => le_total (key a) (key b)⟩
  have hle := List.pairwise_insertionSort (fun a b => key a ≤ key b) l
  have hnd : ((l.insertionSort fun a b => key a ≤ key b).map key).Nodup :=
    ((List.perm_insertionSort _ l).map key).nodup_iff.mpr h
  rw [List.Nodup, List.pairwise_map] at hnd
  exact (hle.and hnd).imp fun hab => lt_of_le_of_ne hab.1 hab.2

/-- Lines in increasing order of product, each with a quantity that fits: what the loop and the
sort leave, and what they leave alone. -/
structure Normal (lines : List ItemRequest) : Prop where
  sorted : lines.Pairwise fun i j => i.productID < j.productID
  range : ∀ i ∈ lines, InBigint i.quantity

theorem wrap64_range (x : Int) : InBigint (wrap64 x) := by
  unfold InBigint maxInt64 wrap64
  have h1 : -((2 ^ 64 : Nat) : Int) / 2 ≤ x.bmod (2 ^ 64) := Int.le_bmod (by decide)
  have h2 : x.bmod (2 ^ 64) < (((2 ^ 64 : Nat) : Int) + 1) / 2 := Int.bmod_lt (by decide)
  simp only [Nat.cast_ofNat, Nat.cast_pow] at h1 h2
  omega

theorem Quantities.add_range (h : ∀ e ∈ m, InBigint e.2) (p q : Int) :
    ∀ e ∈ m.add p q, InBigint e.2 := by
  induction m with
  | nil =>
    intro e he
    rw [Quantities.add, List.mem_singleton] at he
    subst he
    exact wrap64_range _
  | cons x m ih =>
    obtain ⟨k, n⟩ := x
    have hm : ∀ e ∈ m, InBigint e.2 := fun e he => h e (List.mem_cons_of_mem _ he)
    intro e he
    simp only [Quantities.add] at he
    split at he
    · rcases List.mem_cons.mp he with rfl | he
      · exact wrap64_range _
      · exact hm e he
    · rcases List.mem_cons.mp he with rfl | he
      · exact h _ List.mem_cons_self
      · exact ih hm e he

theorem aggregate_range : ∀ (items : List ItemRequest) {m m' : Quantities},
    (∀ e ∈ m, InBigint e.2) → aggregate m items = some m' → ∀ e ∈ m', InBigint e.2
  | [], m, m', h, heq => by
    simp only [aggregate, Option.some.injEq] at heq
    exact heq ▸ h
  | item :: items, m, m', h, heq => by
    simp only [aggregate] at heq
    split at heq
    · exact absurd heq (by simp)
    · exact aggregate_range items (Quantities.add_range h _ _) heq

/-- **What is added up and sorted is normal.** -/
theorem normal_sorted (h : aggregate [] items = some m) : Normal m.sorted where
  sorted := by
    refine insertionSort_strict ItemRequest.productID ?_
    simpa [Function.comp_def] using aggregate_nodup items (m := []) List.nodup_nil h
  range i hi := by
    have hmem : i ∈ m.map fun e => (⟨e.1, e.2⟩ : ItemRequest) :=
      (List.perm_insertionSort _ _).mem_iff.mp hi
    obtain ⟨e, he, rfl⟩ := List.mem_map.mp hmem
    exact aggregate_range items (m := []) (by simp) h e he

theorem Quantities.add_fresh {q : Int} (hp : p ∉ m.map Prod.fst) (hq : InBigint q) :
    m.add p q = m ++ [(p, q)] := by
  induction m with
  | nil => rw [Quantities.add, zero_add, wrap64_eq hq, List.nil_append]
  | cons x m ih =>
    obtain ⟨k, n⟩ := x
    simp only [List.map_cons, List.mem_cons, not_or] at hp
    rw [Quantities.add, if_neg (Ne.symm hp.1), ih hp.2, List.cons_append]

/-- The loop copies lines that name every product once. -/
theorem aggregate_fresh : ∀ (items : List ItemRequest) {m m' : Quantities},
    (m.map Prod.fst ++ items.map ItemRequest.productID).Nodup →
    (∀ i ∈ items, InBigint i.quantity) → aggregate m items = some m' →
    m' = m ++ items.map fun i => (i.productID, i.quantity)
  | [], m, m', _, _, heq => by
    simp only [aggregate, Option.some.injEq] at heq
    simp [heq]
  | item :: items, m, m', hnd, hrange, heq => by
    simp only [aggregate] at heq
    split at heq
    · exact absurd heq (by simp)
    · have hp : item.productID ∉ m.map Prod.fst := fun hmem =>
        List.disjoint_of_nodup_append hnd hmem (by simp)
      rw [Quantities.add_fresh hp (hrange item List.mem_cons_self)] at heq
      rw [aggregate_fresh items (by simpa using hnd)
        (fun i hi => hrange i (List.mem_cons_of_mem _ hi)) heq]
      simp

/-- **Adding up and sorting normal lines changes nothing.** -/
theorem Normal.sorted_eq {lines : List ItemRequest} (h : Normal lines)
    (heq : aggregate [] lines = some m) : m.sorted = lines := by
  have hnd : (lines.map ItemRequest.productID).Nodup := by
    rw [List.Nodup, List.pairwise_map]
    exact h.sorted.imp fun hlt => hlt.ne
  have hm := aggregate_fresh lines (m := []) (by simpa using hnd) h.range heq
  rw [hm, Quantities.sorted, List.nil_append, List.map_map]
  have hid : lines.map ((fun e : Int × Int => (⟨e.1, e.2⟩ : ItemRequest)) ∘
      fun i => (i.productID, i.quantity)) = lines := by simp [Function.comp_def]
  rw [hid]
  exact (h.sorted.imp fun hlt => hlt.le).insertionSort_eq

/-! ## 8. What the map holds -/

/-- The map has the requested products as its keys. -/
theorem aggregate_keys : ∀ (items : List ItemRequest) {m m' : Quantities},
    aggregate m items = some m' → ∀ p, p ∈ m'.map Prod.fst ↔
      p ∈ m.map Prod.fst ∨ p ∈ items.map ItemRequest.productID
  | [], m, m', h, p => by
    simp only [aggregate, Option.some.injEq] at h
    simp [h]
  | item :: items, m, m', h, p => by
    simp only [aggregate] at h
    split at h
    · exact absurd h (by simp)
    · rw [aggregate_keys items h p, Quantities.add_keys]
      split
      · rename_i hmem
        rw [List.map_cons, List.mem_cons]
        constructor
        · tauto
        · rintro (hp | rfl | hp)
          · exact Or.inl hp
          · exact Or.inl hmem
          · exact Or.inr hp
      · simp only [List.mem_append, List.map_cons, List.mem_cons, List.not_mem_nil, or_false]
        tauto

/-- A request that is added up has positive lines. -/
theorem pos_of_aggregate : ∀ (items : List ItemRequest) {m m' : Quantities},
    aggregate m items = some m' → ∀ i ∈ items, 0 < i.quantity
  | [], _, _, _, i, hi => absurd hi (by simp)
  | item :: items, m, m', h, i, hi => by
    simp only [aggregate] at h
    split at h
    · exact absurd h (by simp)
    · rename_i hpos
      rcases List.mem_cons.mp hi with rfl | hi
      · omega
      · exact pos_of_aggregate items h i hi

/-- What is asked of a requested product is positive. -/
theorem lineSum_pos {items : List ItemRequest} (hpos : ∀ i ∈ items, 0 < i.quantity) {p : Int}
    (hp : p ∈ items.map ItemRequest.productID) : 0 < lineSum items p := by
  induction items with
  | nil => exact absurd hp (by simp)
  | cons i items ih =>
    have hpos' : ∀ j ∈ items, 0 < j.quantity := fun j hj => hpos j (List.mem_cons_of_mem _ hj)
    have hi : 0 < i.quantity := hpos i List.mem_cons_self
    rw [lineSum_cons]
    by_cases hmem : p ∈ items.map ItemRequest.productID
    · have hrest := ih hpos' hmem
      split <;> omega
    · obtain rfl : p = i.productID := by
        rw [List.map_cons, List.mem_cons] at hp
        exact hp.resolve_right hmem
      rw [if_pos rfl, lineSum_of_not_mem hmem, add_zero]
      exact hi

/-- A line of strictly sorted lines is all there is of its product. -/
theorem lineSum_of_mem {lines : List ItemRequest}
    (h : (lines.map ItemRequest.productID).Nodup) {line : ItemRequest} (hline : line ∈ lines) :
    lineSum lines line.productID = line.quantity := by
  induction lines with
  | nil => exact absurd hline (by simp)
  | cons i lines ih =>
    rw [List.map_cons, List.nodup_cons] at h
    rw [lineSum_cons]
    rcases List.mem_cons.mp hline with rfl | hline
    · rw [if_pos rfl, lineSum_of_not_mem h.1, add_zero]
    · rw [if_neg, zero_add, ih h.2 hline]
      exact fun heq => h.1 (heq ▸ List.mem_map_of_mem hline)

/-- **The map after the loop**: an entry for each requested product, with the sum of what is
asked of it, modulo `2^64`. -/
theorem mem_aggregate (h : aggregate [] items = some m) (e : Int × Int) :
    e ∈ m ↔ e.1 ∈ items.map ItemRequest.productID ∧ e.2 = wrap64 (lineSum items e.1) := by
  have hkeys : ∀ p, p ∈ m.map Prod.fst ↔ p ∈ items.map ItemRequest.productID := by
    intro p
    simpa using aggregate_keys items h p
  have hnd : (m.lines.map ItemRequest.productID).Nodup := by
    simpa [Quantities.lines, Function.comp_def] using
      aggregate_nodup items (m := []) List.nodup_nil h
  -- the entry of a product is all that the map has of it
  have hvalue : ∀ e ∈ m, e.2 = wrap64 (lineSum items e.1) := by
    intro e he
    have hline : (⟨e.1, e.2⟩ : ItemRequest) ∈ m.lines := List.mem_map_of_mem he
    have hsum := aggregate_lineSum items (m := []) List.nodup_nil (fun _ => rfl) h e.1
    refine (lineSum_of_mem hnd hline).symm.trans (hsum.trans ?_)
    simp [Quantities.lines]
  constructor
  · intro he
    exact ⟨(hkeys e.1).mp (List.mem_map_of_mem he), hvalue e he⟩
  · rintro ⟨hp, hq⟩
    obtain ⟨e', he', heq⟩ := List.mem_map.mp ((hkeys e.1).mpr hp)
    have hsame : e' = e := Prod.ext heq (by rw [hvalue e' he', heq, hq])
    exact hsame ▸ he'

/-- The lines that the loop and the sort leave. -/
theorem mem_sorted (h : aggregate [] items = some m) (line : ItemRequest) :
    line ∈ m.sorted ↔ line.productID ∈ items.map ItemRequest.productID ∧
      line.quantity = wrap64 (lineSum items line.productID) := by
  have hentry : line ∈ m.sorted ↔ (line.productID, line.quantity) ∈ m := by
    rw [Quantities.sorted, (List.perm_insertionSort _ _).mem_iff, List.mem_map]
    constructor
    · rintro ⟨e, he, rfl⟩
      exact he
    · intro he
      exact ⟨_, he, rfl⟩
  rw [hentry, mem_aggregate h]

/-- Two strictly sorted lists of the same lines are one list. -/
theorem eq_of_sorted {l l' : List ItemRequest}
    (hl : l.Pairwise fun i j => i.productID < j.productID)
    (hl' : l'.Pairwise fun i j => i.productID < j.productID) (hmem : ∀ i, i ∈ l ↔ i ∈ l') :
    l = l' := by
  have hne : ∀ {i j : ItemRequest}, i.productID < j.productID → i ≠ j := by
    rintro i j hlt rfl
    exact lt_irrefl _ hlt
  have hperm : l.Perm l' :=
    (List.perm_ext_iff_of_nodup (hl.imp hne) (hl'.imp hne)).mpr hmem
  refine List.Perm.eq_of_pairwise ?_ hl hl' hperm
  intro i j _ _ hij hji
  exact absurd hij (Int.not_lt.mpr hji.le)

/-- The loop gives up on a line that is not positive, and on nothing else. -/
theorem aggregate_eq_none :
    aggregate m items = none ↔ ∃ i ∈ items, i.productID ≤ 0 ∨ i.quantity ≤ 0 := by
  induction items generalizing m with
  | nil => simp [aggregate]
  | cons item items ih =>
    rw [aggregate]
    split
    · rename_i hbad
      simp [hbad]
    · rename_i hgood
      rw [ih]
      simp [hgood]

/-- **The order of the lines does not matter.** -/
theorem aggregate_perm {items' : List ItemRequest} (h : items.Perm items') :
    (aggregate [] items).map Quantities.sorted = (aggregate [] items').map Quantities.sorted := by
  cases hm : aggregate [] items with
  | none =>
    obtain ⟨i, hi, hbad⟩ := aggregate_eq_none.mp hm
    rw [aggregate_eq_none.mpr ⟨i, h.mem_iff.mp hi, hbad⟩]
  | some m =>
    cases hm' : aggregate [] items' with
    | none =>
      obtain ⟨i, hi, hbad⟩ := aggregate_eq_none.mp hm'
      rw [aggregate_eq_none.mpr ⟨i, h.mem_iff.mpr hi, hbad⟩] at hm
      cases hm
    | some m' =>
      rw [Option.map_some, Option.map_some]
      congr 1
      refine eq_of_sorted (normal_sorted hm).sorted (normal_sorted hm').sorted fun line => ?_
      rw [mem_sorted hm, mem_sorted hm', lineSum_perm h, (h.map _).mem_iff]

end OrderSystem
