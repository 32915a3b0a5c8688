/-
# What `resolveItems` computes, and where it overflows

`resolveItems` adds up the requested lines of each product in a `map[int64]int64` and then the
costs of the products in an `int64`.  The second sum is guarded: a cost that does not fit, or that
does not fit on top of the total so far, is an error (`resolveItem_exact`).  The first sum is
not, and the guard divides by it.

A sum that has wrapped does no harm if the request is refused all the same.  No catalog sells a
negative quantity, and every price is one at least, so quantities that add up to more than an
`int64` holds are not sold either (`Sellable`).  That is all that the guard refuses whatever the
prices, and so the condition is exact:

* `pricing_exact` -- `resolveItems` divides by no zero, and what it returns is exact, for every
  catalog, if and only if no sum has wrapped to zero behind quantities that can be sold, and none
  has wrapped at all if all of them can be sold;
* `pricing_overflows` -- three lines that add up to `2^64` make it divide by zero, and three that
  add up to `2^64 + 3` are priced as a quantity of three.
-/
import OrderSystem.Saga.Contents

namespace OrderSystem.Saga

open OrderSystem.OrderSvc

/-! ## 1. The guarded sum -/

/-- Division by a positive number is a bound on products. -/
theorem mul_le_of_le_tdiv {a b q : Int} (hq : 0 < q) (hb : 0 ≤ b) (h : a ≤ b.tdiv q) :
    a * q ≤ b := by
  rw [Int.tdiv_eq_ediv_of_nonneg hb] at h
  exact (Int.le_ediv_iff_mul_le hq).mp h

/-- No price passes the guard with a quantity that is not positive. -/
theorem pos_of_le_tdiv {a q : Int} (ha : 0 < a) (h : a ≤ maxInt64.tdiv q) : 0 < q := by
  by_contra hq
  have hle : maxInt64.tdiv q ≤ 0 := by
    have hneg : maxInt64.tdiv q = -maxInt64.tdiv (-q) := by rw [Int.tdiv_neg, neg_neg]
    have hnonneg : 0 ≤ maxInt64.tdiv (-q) := Int.tdiv_nonneg (by decide) (by omega)
    omega
  omega

variable {acc : Resolved} {line : ItemRequest} {catalog : Int → Except GoString CatalogProduct}
  {requested : List ItemRequest}

/-- **The guard makes the sum exact.** -/
theorem resolveItem_exact {acc' : Resolved} {product : CatalogProduct}
    (h : resolveItem acc line product = .ok acc') (htotal : 0 ≤ acc.total) :
    0 < line.quantity ∧ acc.total + line.quantity ≤ acc'.total ∧
      acc'.total = acc.total + product.priceFen * line.quantity ∧ acc'.total ≤ maxInt64 := by
  unfold resolveItem at h
  split at h
  · exact absurd h (by simp)
  · rename_i hsale
    split at h
    · exact absurd h (by simp)
    · simp only at h
      split at h
      · exact absurd h (by simp)
      · rename_i hguard
        obtain ⟨-, hprice⟩ := not_or.mp hsale
        obtain ⟨hdiv, hroom⟩ := not_or.mp hguard
        rw [Int.not_le] at hprice
        rw [gt_iff_lt, Int.not_lt] at hdiv hroom
        have hq : 0 < line.quantity := pos_of_le_tdiv hprice hdiv
        have hamount : product.priceFen * line.quantity ≤ maxInt64 :=
          mul_le_of_le_tdiv hq (by decide) hdiv
        -- a price is one at least
        have hpos : 1 * line.quantity ≤ product.priceFen * line.quantity :=
          Int.mul_le_mul_of_nonneg_right hprice hq.le
        have hmax : maxInt64 = 2 ^ 63 - 1 := rfl
        have hwrap : wrap64 (product.priceFen * line.quantity) =
            product.priceFen * line.quantity := wrap64_eq ⟨by omega, hamount⟩
        rw [hwrap, wrap64_eq ⟨by omega, by omega⟩] at hroom
        rw [← Except.ok.inj h, hwrap]
        have hfit : wrap64 (acc.total + product.priceFen * line.quantity) =
            acc.total + product.priceFen * line.quantity := wrap64_eq ⟨by omega, by omega⟩
        refine ⟨hq, le_trans ?_ hfit.ge, hfit, hfit.trans_le (by omega)⟩
        omega

/-- The item that the catalog's answer makes of a line. -/
def PricedAs (catalog : Int → Except GoString CatalogProduct) (line : ItemRequest)
    (item : OrderItem) : Prop :=
  ∃ product, catalog line.productID = .ok product ∧
    item = ⟨product.id, product.name, product.priceFen, line.quantity⟩

/-- Quantities that some catalog sells: they are positive, and at a price of one each they cost no
more than fits into an `int64`. -/
def Sellable (lines : List ItemRequest) : Prop :=
  (∀ line ∈ lines, 0 < line.quantity) ∧ (lines.map ItemRequest.quantity).sum ≤ maxInt64

/-- The loop prices its lines one by one, each with a positive quantity, and the total it
returns is what they cost. -/
theorem resolveLoop_exact :
    ∀ (lines : List ItemRequest) {acc r : Resolved}, resolveLoop catalog acc lines = .ok r →
      0 ≤ acc.total → acc.total ≤ maxInt64 →
      ∃ items, r.items = acc.items ++ items ∧ List.Forall₂ (PricedAs catalog) lines items ∧
        (∀ line ∈ lines, 0 < line.quantity) ∧
        acc.total + (lines.map ItemRequest.quantity).sum ≤ r.total ∧
        r.total = acc.total + itemCost items ∧ r.total ≤ maxInt64
  | [], acc, r, h, _, hmax => by
    simp only [resolveLoop, Except.ok.injEq] at h
    subst h
    exact ⟨[], by simp, .nil, by simp, by simp, by simp [itemCost], hmax⟩
  | line :: lines, acc, r, h, hnonneg, _ => by
    simp only [resolveLoop] at h
    split at h
    · exact absurd h (by simp)
    · rename_i product hproduct
      split at h
      · exact absurd h (by simp)
      · rename_i acc' hitem
        obtain ⟨hq, hcost, htotal, hmax⟩ := resolveItem_exact hitem hnonneg
        obtain ⟨hitems, -, -⟩ := resolveItem_ok hitem
        obtain ⟨items, hr, hpriced, hqs, hsold, hsum, hmax'⟩ :=
          resolveLoop_exact lines h (by omega) hmax
        refine ⟨⟨product.id, product.name, product.priceFen, line.quantity⟩ :: items, ?_,
          .cons ⟨product, hproduct, rfl⟩ hpriced, ?_, ?_, ?_, hmax'⟩
        · rw [hr, hitems, List.append_assoc, List.singleton_append]
        · rw [List.forall_mem_cons]
          exact ⟨hq, hqs⟩
        · rw [List.map_cons, List.sum_cons]
          omega
        · rw [hsum, htotal, itemCost, itemCost, List.map_cons, List.sum_cons, add_assoc]

theorem resolveItem_panic {product : CatalogProduct}
    (h : resolveItem acc line product = .error .panic) : line.quantity = 0 := by
  unfold resolveItem at h
  split at h
  · cases h
  · split at h
    · assumption
    · simp only at h
      split at h
      · cases h
      · cases h

/-- The loop divides by a zero that stands behind lines it has sold. -/
theorem resolveLoop_panic :
    ∀ (lines : List ItemRequest) {acc : Resolved},
      resolveLoop catalog acc lines = .error .panic → 0 ≤ acc.total → acc.total ≤ maxInt64 →
      ∃ before line after, lines = before ++ line :: after ∧ line.quantity = 0 ∧
        (∀ l ∈ before, 0 < l.quantity) ∧
        acc.total + (before.map ItemRequest.quantity).sum ≤ maxInt64
  | [], acc, h, _, _ => by cases h
  | line :: lines, acc, h, hnonneg, hmax => by
    simp only [resolveLoop] at h
    split at h
    · cases h
    · rename_i product hproduct
      split at h
      · rename_i e hitem
        obtain rfl := Except.error.inj h
        exact ⟨[], line, lines, rfl, resolveItem_panic hitem, by simp, by simpa using hmax⟩
      · rename_i acc' hitem
        obtain ⟨hq, hcost, -, hmax'⟩ := resolveItem_exact hitem hnonneg
        obtain ⟨before, zero, after, rfl, hzero, hqs, hsold⟩ :=
          resolveLoop_panic lines h (by omega) hmax'
        refine ⟨line :: before, zero, after, rfl, hzero, ?_, ?_⟩
        · rw [List.forall_mem_cons]
          exact ⟨hq, hqs⟩
        · rw [List.map_cons, List.sum_cons]
          omega

/-- A catalog that sells everything for one price. -/
def soldAt (price p : Int) : Except GoString CatalogProduct := .ok ⟨p, [], price, 1⟩

theorem resolveItem_sold (hq : 0 < line.quantity) (hnonneg : 0 ≤ acc.total)
    (hroom : acc.total + line.quantity ≤ maxInt64) :
    ∃ acc', resolveItem acc line ⟨line.productID, [], 1, 1⟩ = .ok acc' ∧
      acc'.total = acc.total + line.quantity := by
  have hmax : maxInt64 = 2 ^ 63 - 1 := rfl
  have hamount : wrap64 (1 * line.quantity) = line.quantity := by
    rw [one_mul, wrap64_eq ⟨by omega, by omega⟩]
  have hdiv : (1 : Int) ≤ maxInt64.tdiv line.quantity := by
    rw [Int.tdiv_eq_ediv_of_nonneg (by decide), Int.le_ediv_iff_mul_le hq]
    omega
  have hleft : wrap64 (maxInt64 - line.quantity) = maxInt64 - line.quantity :=
    wrap64_eq ⟨by omega, by omega⟩
  have htotal : wrap64 (acc.total + line.quantity) = acc.total + line.quantity :=
    wrap64_eq ⟨by omega, by omega⟩
  rw [resolveItem, if_neg (by simp), if_neg hq.ne']
  simp only [hamount, hleft, htotal]
  rw [if_neg (by omega)]
  exact ⟨_, rfl, rfl⟩

/-- At a price of one, the loop gets past what can be sold. -/
theorem resolveLoop_sold (after : List ItemRequest) :
    ∀ (before : List ItemRequest) (acc : Resolved), (∀ l ∈ before, 0 < l.quantity) →
      0 ≤ acc.total → acc.total + (before.map ItemRequest.quantity).sum ≤ maxInt64 →
      ∃ acc', resolveLoop (soldAt 1) acc (before ++ after) = resolveLoop (soldAt 1) acc' after
  | [], acc, _, _, _ => ⟨acc, rfl⟩
  | line :: before, acc, hqs, hnonneg, hsold => by
    obtain ⟨hq, hqs⟩ := List.forall_mem_cons.mp hqs
    rw [List.map_cons, List.sum_cons] at hsold
    have hrest : 0 ≤ (before.map ItemRequest.quantity).sum := by
      refine List.sum_nonneg fun q hmem => ?_
      obtain ⟨l, hl, rfl⟩ := List.mem_map.mp hmem
      exact (hqs l hl).le
    obtain ⟨acc', hitem, htotal⟩ := resolveItem_sold hq hnonneg (by omega)
    obtain ⟨acc'', hloop⟩ := resolveLoop_sold after before acc' hqs (by omega) (by omega)
    refine ⟨acc'', ?_⟩
    rw [List.cons_append, resolveLoop, soldAt]
    simp only [hitem]
    exact hloop

/-! ## 2. The sums of the lines -/

/-- `productIDs`: the requested products, in increasing order. -/
def productIDs (requested : List ItemRequest) : List Int :=
  (requested.map ItemRequest.productID).dedup.insertionSort (· ≤ ·)

theorem mem_productIDs {p : Int} :
    p ∈ productIDs requested ↔ p ∈ requested.map ItemRequest.productID :=
  (List.perm_insertionSort _ _).mem_iff.trans List.mem_dedup

theorem productIDs_sorted (requested : List ItemRequest) :
    (productIDs requested).Pairwise (· < ·) := by
  refine insertionSort_strict (fun p => p) ?_
  rw [List.map_id']
  exact List.nodup_dedup _

/-- **The lines that are priced**: one for each requested product, in increasing order, with the
sum of what is asked of it, modulo `2^64`. -/
def pricedLines (requested : List ItemRequest) : List ItemRequest :=
  (productIDs requested).map fun p => ⟨p, wrap64 (lineSum requested p)⟩

theorem sorted_eq {m : Quantities} (h : aggregate [] requested = some m) :
    m.sorted = pricedLines requested := by
  refine eq_of_sorted (normal_sorted h).sorted ?_ fun line => ?_
  · rw [pricedLines, List.pairwise_map]
    exact productIDs_sorted requested
  · rw [mem_sorted h]
    constructor
    · rintro ⟨hp, hq⟩
      exact List.mem_map.mpr ⟨line.productID, mem_productIDs.mpr hp, by rw [← hq]⟩
    · intro hline
      obtain ⟨p, hp, rfl⟩ := List.mem_map.mp hline
      exact ⟨mem_productIDs.mp hp, rfl⟩

/-- A request of 1 to 100 lines with positive ids and quantities. -/
structure Wellformed (requested : List ItemRequest) : Prop where
  nonempty : requested ≠ []
  length : requested.length ≤ 100
  positive : ∀ i ∈ requested, 0 < i.productID ∧ 0 < i.quantity

instance (requested : List ItemRequest) : Decidable (Wellformed requested) :=
  decidable_of_iff (requested ≠ [] ∧ requested.length ≤ 100 ∧
    ∀ i ∈ requested, 0 < i.productID ∧ 0 < i.quantity)
    ⟨fun h => ⟨h.1, h.2.1, h.2.2⟩, fun h => ⟨h.1, h.2, h.3⟩⟩

theorem resolveItems_eq (h : Wellformed requested) (catalog : Int → Except GoString CatalogProduct)
    :
    resolveItems catalog requested = resolveLoop catalog ⟨[], [], 0⟩ (pricedLines requested) := by
  have hlen : ¬ (requested.length = 0 ∨ 100 < requested.length) := by
    rw [not_or, List.length_eq_zero_iff, Nat.not_lt]
    exact ⟨h.nonempty, h.length⟩
  rw [resolveItems, if_neg hlen]
  cases hagg : aggregate [] requested with
  | none =>
    obtain ⟨i, hi, hbad⟩ := aggregate_eq_none.mp hagg
    have := h.positive i hi
    omega
  | some m => exact congrArg (resolveLoop catalog _) (sorted_eq hagg)

/-! ## 3. When the prices are exact -/

/-- What `resolveItems` should return: one item for each requested product, with the sum of the
quantities asked of it, and the sum of price times quantity, which fits into an `int64`. -/
structure Exact (catalog : Int → Except GoString CatalogProduct) (requested : List ItemRequest)
    (r : Resolved) : Prop where
  items : List.Forall₂ (fun p => PricedAs catalog ⟨p, lineSum requested p⟩)
    (productIDs requested) r.items
  total : r.total = (r.items.map fun i => i.priceFen * i.quantity).sum
  range : r.total ≤ 2 ^ 63 - 1

/-- No sum that has wrapped gets past the guard: a zero stands behind lines that cannot be sold,
and lines that can be sold have the sums they should have. -/
structure NoneWrapped (requested : List ItemRequest) : Prop where
  nonzero : ∀ before line after, pricedLines requested = before ++ line :: after →
    line.quantity = 0 → ¬ Sellable before
  fits : Sellable (pricedLines requested) →
    ∀ p ∈ productIDs requested, lineSum requested p ≤ maxInt64

/-- **A zero is reached, with some catalog, exactly when it stands behind what can be sold.** -/
theorem resolveItems_panics_iff (h : Wellformed requested) :
    (∃ catalog, resolveItems catalog requested = .error .panic) ↔
      ∃ before line after, pricedLines requested = before ++ line :: after ∧
        line.quantity = 0 ∧ Sellable before := by
  constructor
  · rintro ⟨catalog, hpanic⟩
    rw [resolveItems_eq h] at hpanic
    obtain ⟨before, line, after, hlines, hzero, hqs, hsold⟩ :=
      resolveLoop_panic _ hpanic le_rfl (by decide)
    rw [zero_add] at hsold
    exact ⟨before, line, after, hlines, hzero, hqs, hsold⟩
  · rintro ⟨before, line, after, hlines, hzero, hqs, hsold⟩
    refine ⟨soldAt 1, ?_⟩
    obtain ⟨acc, hloop⟩ := resolveLoop_sold (line :: after) before ⟨[], [], 0⟩ hqs le_rfl
      (by rwa [zero_add])
    rw [resolveItems_eq h, hlines, hloop, resolveLoop, soldAt]
    simp [resolveItem, hzero]

/-- **A request is priced by some catalog exactly when its quantities can be sold.** -/
theorem resolveItems_succeeds_iff (h : Wellformed requested) :
    (∃ catalog r, resolveItems catalog requested = .ok r) ↔ Sellable (pricedLines requested) := by
  constructor
  · rintro ⟨catalog, r, hr⟩
    rw [resolveItems_eq h] at hr
    obtain ⟨items, -, -, hqs, hsold, -, hmax⟩ := resolveLoop_exact _ hr le_rfl (by decide)
    rw [zero_add] at hsold
    exact ⟨hqs, hsold.trans hmax⟩
  · rintro ⟨hqs, hsold⟩
    obtain ⟨acc, hloop⟩ := resolveLoop_sold [] (pricedLines requested) ⟨[], [], 0⟩ hqs
      le_rfl (by rwa [zero_add])
    rw [List.append_nil] at hloop
    exact ⟨soldAt 1, acc, by rw [resolveItems_eq h, hloop, resolveLoop]⟩

/-- Items that were priced with some quantities were priced with others if these are the same. -/
theorem pricedAs_iff {f g : Int → Int} {ps : List Int} {items : List OrderItem}
    (h : List.Forall₂ (fun p => PricedAs catalog ⟨p, f p⟩) ps items) :
    List.Forall₂ (fun p => PricedAs catalog ⟨p, g p⟩) ps items ↔ ∀ p ∈ ps, f p = g p := by
  induction h with
  | nil => simp
  | @cons p item ps items hitem _ ih =>
    rw [List.forall₂_cons, ih, List.forall_mem_cons]
    refine and_congr_left fun _ => ?_
    obtain ⟨product, hproduct, rfl⟩ := hitem
    simp [PricedAs, hproduct]

/-- A result is exact when no sum has wrapped. -/
theorem exact_iff_fits (h : Wellformed requested) {r : Resolved}
    (hr : resolveItems catalog requested = .ok r) :
    Exact catalog requested r ↔ ∀ p ∈ productIDs requested, lineSum requested p ≤ maxInt64 := by
  rw [resolveItems_eq h] at hr
  obtain ⟨items, hitems, hpriced, -, -, htotal, hmax⟩ :=
    resolveLoop_exact _ hr le_rfl (by decide)
  rw [List.nil_append] at hitems
  rw [zero_add, ← hitems] at htotal
  rw [← hitems, pricedLines, List.forall₂_map_left_iff] at hpriced
  have hwrap : ∀ p ∈ productIDs requested,
      wrap64 (lineSum requested p) = lineSum requested p ↔ lineSum requested p ≤ maxInt64 := by
    intro p hp
    refine ⟨fun heq => heq ▸ (wrap64_range _).2, fun hle => wrap64_eq ⟨?_, hle⟩⟩
    have hsum := lineSum_pos (fun i hi => (h.positive i hi).2) (mem_productIDs.mp hp)
    have hmin : (0 : Int) ≤ 2 ^ 63 := by decide
    omega
  rw [← forall₂_congr hwrap, ← pricedAs_iff hpriced]
  exact ⟨Exact.items, fun hexact => ⟨hexact, htotal, hmax⟩⟩

/-- **Order pricing is exact and does not crash, exactly when no wrapped sum gets past the guard.**
For every request of 1 to 100 lines with positive ids and quantities: with every catalog, there is
no division by zero, and what `resolveItems` returns is exact, if and only if a sum that has
wrapped to zero stands behind lines that cannot be sold, and no sum has wrapped if all lines can
be sold. -/
theorem pricing_exact {requested : List ItemRequest} (h : Wellformed requested) :
    (∀ catalog, resolveItems catalog requested ≠ .error .panic ∧
      ∀ r, resolveItems catalog requested = .ok r → Exact catalog requested r) ↔
    NoneWrapped requested := by
  constructor
  · intro hexact
    refine ⟨fun before line after hlines hzero hsold => ?_, fun hsold => ?_⟩
    · obtain ⟨catalog, hpanic⟩ :=
        (resolveItems_panics_iff h).mpr ⟨before, line, after, hlines, hzero, hsold⟩
      exact (hexact catalog).1 hpanic
    · obtain ⟨catalog, r, hr⟩ := (resolveItems_succeeds_iff h).mpr hsold
      exact (exact_iff_fits h hr).mp ((hexact catalog).2 r hr)
  · intro hnone catalog
    refine ⟨fun hpanic => ?_, fun r hr => ?_⟩
    · obtain ⟨before, line, after, hlines, hzero, hsold⟩ :=
        (resolveItems_panics_iff h).mp ⟨catalog, hpanic⟩
      exact hnone.nonzero before line after hlines hzero hsold
    · exact (exact_iff_fits h hr).mpr
        (hnone.fits ((resolveItems_succeeds_iff h).mp ⟨catalog, r, hr⟩))

/-- Two lines of one product are priced as their sum. -/
theorem pricing_exact_summed :
    ∃ r, resolveItems (soldAt 2) [⟨7, 3⟩, ⟨5, 1⟩, ⟨7, 4⟩] = .ok r ∧ r.total = 16 ∧
      Exact (soldAt 2) [⟨7, 3⟩, ⟨5, 1⟩, ⟨7, 4⟩] r := by
  have hnonzero : ∀ line ∈ pricedLines [⟨7, 3⟩, ⟨5, 1⟩, ⟨7, 4⟩], line.quantity ≠ 0 := by decide
  have hexact := (@pricing_exact [⟨7, 3⟩, ⟨5, 1⟩, ⟨7, 4⟩] (by decide)).mpr
    ⟨fun _ line _ hlines hzero => absurd hzero (hnonzero line (hlines ▸ by simp)),
      fun _ => by decide⟩
  exact ⟨_, rfl, rfl, (hexact (soldAt 2)).2 _ rfl⟩

/-! ## 4. The sum of the quantities is not guarded -/

/-- Three lines with positive `int64` quantities. -/
def threeLines (last : Int) : List ItemRequest := [⟨1, 2 ^ 63 - 1⟩, ⟨1, 2 ^ 63 - 1⟩, ⟨1, last⟩]

/-- **The sum wraps**: three quantities that add up to `2^64` make `resolveItems` divide by zero,
and three that add up to `2^64 + 3` are priced as a quantity of three. -/
theorem pricing_overflows :
    (∀ last ∈ [(2 : Int), 5], ∀ i ∈ threeLines last,
      0 < i.productID ∧ 0 < i.quantity ∧ i.quantity ≤ 2 ^ 63 - 1) ∧
    resolveItems (soldAt 2) (threeLines 2) = .error .panic ∧
    ∃ r, resolveItems (soldAt 2) (threeLines 5) = .ok r ∧ r.items = [⟨1, [], 2, 3⟩] ∧
      lineSum (threeLines 5) 1 = 2 ^ 64 + 3 :=
  ⟨by decide, by decide, _, rfl, rfl, rfl⟩

end OrderSystem.Saga
