/-
# What an order of the monolith costs

`CreateOrder` computes the subtotal of a line, price times quantity, and adds the subtotals up,
both in an `int64` and without a guard.  The quantity is bounded by the stock, and the stock and
the price by nothing but the width of their columns.

The tables refuse part of what goes wrong: a subtotal that has wrapped to zero or below
(`chk_order_items_subtotal_fen_positive`) and a total that has wrapped below zero
(`chk_orders_total_amount_fen_non_negative`) roll the transaction back, and so does everything
else that stands in the way of the order, the stock first of all.  `Makes` says what it takes to
make one.  What wraps to something positive is stored and returned:

* `totals_exact` -- the order that is made has exact subtotals and an exact total, if and only if
  none can be made in this state or each cost, and the sum of the costs, fits into an `int64`;
* `totals_wrap` -- four pieces at `2^62 + 1` each are sold for four.
-/
import Mathlib.Algebra.Order.BigOperators.Group.List
import OrderSystem.Monolith.Spec

namespace OrderSystem.Monolith

open OrderSystem.Kit

/-! ## 1. When an order is made -/

/-- What a line costs at the price of its product. -/
def cost (env : CreateContext) (i : ItemRequest) : Int :=
  match env.products i.productID with
  | none => 0
  | some product => product.priceFen * i.quantity

/-- The line is of a product that has a price and is on sale, and the table takes the subtotal
that is computed. -/
structure Offered (env : CreateContext) (i : ItemRequest) : Prop where
  product : ∃ product, env.products i.productID = some product ∧ product.onSale = true ∧
    0 < product.priceFen
  subtotal : 0 < wrap64 (cost env i)

/-- What is offered, and on stock, is sold. -/
theorem createItem_of_offered {env : CreateContext} {i : ItemRequest} {s : DB}
    (h : Offered env i) (hpos : 0 < i.quantity) (hstock : i.quantity ≤ s.stock i.productID) :
    ∃ (x : Int) (s' : DB), (createItem env i).exec s = .ok (x, s') := by
  obtain ⟨⟨product, hproduct, honSale, hprice⟩, hsubtotal⟩ := h
  rw [cost, hproduct] at hsubtotal
  cases hrow : s.inventory i.productID with
  | none =>
    simp only [DB.stock, hrow] at hstock
    exact absurd hstock (not_le.mpr hpos)
  | some row =>
    rw [DB.stock_of_inventory hrow] at hstock
    have hrange := row.stock_range
    have hmax : maxInt64 = 2 ^ 63 - 1 := rfl
    have hafter : wrap64 (row.stockQuantity - i.quantity) = row.stockQuantity - i.quantity :=
      wrap64_eq ⟨by omega, by omega⟩
    have hleft : 0 ≤ row.stockQuantity - i.quantity := by omega
    obtain ⟨row', hdeduct⟩ := exec_deductInventory hrow hpos hstock
    have hitem : OrderItem.checked i.productID product.name product.priceFen i.quantity
        (wrap64 (product.priceFen * i.quantity)) = some _ :=
      dif_pos ⟨hprice, hpos, hsubtotal⟩
    have hlog : StockLog.checked i.productID (-i.quantity) row.stockQuantity
        (row.stockQuantity - i.quantity) .orderDeduct (some env.orderID)
        (str "创建订单扣减库存：" ++ env.orderNo) = some _ :=
      dif_pos ⟨row.stock_nonneg, hleft, Int.sub_eq_add_neg⟩
    simp only [createItem, hproduct, honSale, not_true_eq_false, if_false,
      exec_getInventory_bind, hrow, hafter, if_neg (not_lt.mpr hleft),
      Txn.exec_bind_of_ok _ hdeduct, hitem, hlog]
    exact ⟨_, _, rfl⟩

/-- The loop goes through when each line is offered and on stock and no product is on two
lines. -/
theorem createItems_of_offered {env : CreateContext} : ∀ (lines : List ItemRequest) {total : Int}
    {s : DB}, (lines.map ItemRequest.productID).Nodup → (∀ i ∈ lines, 0 < i.quantity) →
    (∀ i ∈ lines, Offered env i) → (∀ i ∈ lines, i.quantity ≤ s.stock i.productID) →
    ∃ (total' : Int) (s' : DB), (createItems env total lines).exec s = .ok (total', s')
  | [], total, s, _, _, _, _ => ⟨total, s, rfl⟩
  | i :: lines, total, s, hnodup, hpos, hoffered, hstock => by
    obtain ⟨hi, hnodup⟩ := List.nodup_cons.mp hnodup
    obtain ⟨hpos, hpos'⟩ := List.forall_mem_cons.mp hpos
    obtain ⟨hoffered, hoffered'⟩ := List.forall_mem_cons.mp hoffered
    obtain ⟨hstock, hstock'⟩ := List.forall_mem_cons.mp hstock
    obtain ⟨x, t, hexec⟩ := createItem_of_offered hoffered hpos hstock
    obtain ⟨row', item, l, -, -, -, -, -, ht⟩ := createItem_ok hexec
    -- the other lines are of other products
    have hkept : ∀ j ∈ lines, j.quantity ≤ t.stock j.productID := by
      intro j hj
      have hne : j.productID ≠ i.productID := fun heq => hi (List.mem_map.mpr ⟨j, hj, heq⟩)
      rw [ht]
      simpa [hne] using hstock' j hj
    obtain ⟨total', s', hloop⟩ := createItems_of_offered lines hnodup hpos' hoffered' hkept
    exact ⟨total', s', by rw [createItems, Txn.exec_bind_of_ok _ hexec, hloop]⟩

theorem PricedAs.subtotal {env : CreateContext} {i : ItemRequest} {item : OrderItem}
    (h : PricedAs env i item) : item.subtotalFen = wrap64 (cost env i) := by
  obtain ⟨product, hproduct, -, -, -, hsubtotal⟩ := h
  rw [hsubtotal, cost, hproduct]

theorem PricedAs.offered {env : CreateContext} {i : ItemRequest} {item : OrderItem}
    (h : PricedAs env i item) : Offered env i := by
  have hsubtotal := h.subtotal
  obtain ⟨product, hproduct, honSale, -, hprice, -⟩ := h
  exact ⟨⟨product, hproduct, honSale, hprice ▸ item.price_pos⟩, hsubtotal ▸ item.subtotal_pos⟩

/-- The subtotals that the loop stores are the wrapped costs. -/
theorem subtotals_of_priced {env : CreateContext} {lines : List ItemRequest}
    {new : List OrderItem} (h : List.Forall₂ (PricedAs env) lines new) :
    new.map OrderItem.subtotalFen = lines.map fun i => wrap64 (cost env i) := by
  induction h with
  | nil => rfl
  | cons hitem _ ih => rw [List.map_cons, List.map_cons, ih, hitem.subtotal]

section

variable [Collation] [Digest]

/-- **What it takes to make an order.**  The user and the key pass the checks, no row is in the
way, each line is offered and on stock, and the table takes the total that is computed. -/
structure Makes (env : CreateContext) (u : Int) (req : CreateOrderRequest) (s : DB) : Prop where
  accepted : Accepted u req.idempotencyKey
  fresh_key : s.keyAt (u, Collation.weight req.idempotencyKey) = none
  fresh_id : s.order env.orderID = none
  fresh_outbox : s.outboxOf env.orderID = none
  id_pos : 0 < env.orderID
  nodup : (req.items.map ItemRequest.productID).Nodup
  offered : ∀ i ∈ req.items, Offered env i
  stock : ∀ i ∈ req.items, i.quantity ≤ s.stock i.productID
  total : 0 ≤ wrap64 (req.items.map fun i => wrap64 (cost env i)).sum

variable {env : CreateContext} {u : Int} {req : CreateOrderRequest} {s : DB}

/-- The transaction goes through after it has made the key. -/
theorem Makes.createNew (h : Makes env u req s) {t : DB}
    (ht : t = Store.set s (Key.idempotency u (Collation.weight req.idempotencyKey))
      (some ⟨buildCreateOrderRequestHash req.items, none, .orderBeingCreated⟩)) :
    ∃ s' : DB, (createNew env u req).exec t = .ok (.created env.orderID, s') := by
  have hnone : t.order env.orderID = none := by
    simp [ht, h.fresh_id]
  obtain ⟨s₁, hs₁, hinsert⟩ : ∃ s₁ : DB, s₁ = _ ∧ (insertOrder env.orderID
      ⟨u, env.orderNo, 0, .pending, Int.le_refl 0⟩).exec t = .ok ((), s₁) :=
    ⟨_, rfl, exec_insertOrder hnone h.id_pos⟩
  have hstock : DB.stock s₁ = s.stock := by
    simp [hs₁, ht]
  obtain ⟨total, s₂, hloop⟩ := @createItems_of_offered env req.items 0 s₁ h.nodup
    req.quantity_pos h.offered (hstock ▸ h.stock)
  obtain ⟨new, logs, hdeducted, hpriced⟩ := createItems_ok _ hloop
  have htotal : 0 ≤ total := by
    rw [(hpriced.total (by decide)).2, zero_add, subtotals_of_priced hpriced.items]
    exact h.total
  have hrow : DB.order s₂ env.orderID = some ⟨u, env.orderNo, 0, .pending, Int.le_refl 0⟩ := by
    rw [hdeducted.orders, hs₁]
    simp
  obtain ⟨s₃, hs₃, hpatch⟩ : ∃ s₃ : DB, s₃ = _ ∧
      (patchOrderTotalPriceFen env.orderID total u).exec s₂ = .ok ((), s₃) :=
    ⟨_, rfl, exec_patchOrderTotalPriceFen hrow rfl htotal⟩
  have hbeing : DB.keyAt s₃ (u, Collation.weight req.idempotencyKey) =
      some ⟨buildCreateOrderRequestHash req.items, none, .orderBeingCreated⟩ := by
    rw [hs₃, DB.set_keyAt_of_ne _ _ (by simp), hdeducted.keys, hs₁, ht]
    simp
  have hbox : DB.outboxOf s₃ env.orderID = none := by
    rw [hs₃, DB.set_outboxOf_of_ne _ _ (by simp), hdeducted.outboxes, hs₁, ht]
    simpa using h.fresh_outbox
  have hdup : hasDuplicateItems req.items = false := by
    simpa [hasDuplicateItems] using h.nodup
  unfold Monolith.createNew
  rw [Txn.exec_bind_of_ok _ hinsert, hdup, if_neg Bool.false_ne_true,
    Txn.exec_bind_of_ok _ hloop, Txn.exec_bind_of_ok _ hpatch,
    Txn.exec_bind_of_ok _ (exec_completeOrderIdempotencyKey hbeing), if_neg (by simp)]
  exact ⟨_, Txn.exec_bind_of_ok _ (exec_createOrderTimeoutOutbox (by simpa using hbox))⟩

/-- **`CreateOrder` makes an order if and only if all that it takes is there.** -/
theorem created_iff :
    (∃ (id : Int) (s' : DB), (createOrder env u req).exec s = .ok (.created id, s')) ↔
      Makes env u req s := by
  constructor
  · rintro ⟨id, s', hexec⟩
    obtain ⟨haccepted, ⟨-, row, new, logs, hp, hpriced⟩ | ⟨_, hother, -⟩⟩ := createOrder_ok hexec
    swap
    · cases hother
    have hoffered := (List.forall₂_and_left _ _).mp
      (hpriced.items.imp fun i item hitem => ⟨PricedAs.offered hitem, hitem⟩)
    refine ⟨haccepted, hp.fresh_key, hp.fresh_id, hp.fresh_outbox, hp.id_pos, hp.nodup,
      hoffered.1, ?_, ?_⟩
    · intro i hi
      have hstock := hp.moved.stock i.productID
      rw [hp.movements, moved_deduction, lineSum_of_mem hp.nodup hi] at hstock
      have hleft := DB.stock_nonneg s' i.productID
      omega
    · rw [← subtotals_of_priced hpriced.items, ← zero_add (List.sum _),
        ← (hpriced.total (by decide)).2]
      exact row.total_nonneg
  · intro h
    unfold createOrder
    rw [if_neg (not_le.mpr h.accepted.1), if_neg h.accepted.2,
      Txn.exec_bind_of_ok _ (exec_tryCreate_new h.fresh_key)]
    exact ⟨env.orderID, h.createNew rfl⟩

end

/-! ## 2. When the order is exact -/

/-- Each cost, and their sum, fits into an `int64`. -/
structure Fits (env : CreateContext) (lines : List ItemRequest) : Prop where
  subtotal : ∀ i ∈ lines, cost env i ≤ maxInt64
  total : (lines.map (cost env)).sum ≤ maxInt64

/-- An item whose subtotal is what the line costs. -/
structure ExactItem (env : CreateContext) (i : ItemRequest) (item : OrderItem) : Prop where
  product : item.productID = i.productID
  price : (env.products i.productID).map Product.priceFen = some item.productPriceFen
  quantity : item.quantity = i.quantity
  subtotal : item.subtotalFen = item.productPriceFen * item.quantity
  range : item.subtotalFen ≤ maxInt64

theorem ExactItem.cost_eq {env : CreateContext} {i : ItemRequest} {item : OrderItem}
    (h : ExactItem env i item) : cost env i = item.subtotalFen := by
  obtain ⟨product, hproduct, hprice⟩ := Option.map_eq_some_iff.mp h.price
  rw [h.subtotal, h.quantity, cost, hproduct, ← hprice]

/-- A stored item is exact if its cost fits. -/
theorem PricedAs.exact {env : CreateContext} {i : ItemRequest} {item : OrderItem}
    (h : PricedAs env i item) (hfits : cost env i ≤ maxInt64) : ExactItem env i item := by
  have hsubtotal := h.subtotal
  obtain ⟨product, hproduct, -, hline, hprice, -⟩ := h
  have hcost : cost env i = item.productPriceFen * item.quantity := by
    rw [cost, hproduct, hprice, ← hline]
    rfl
  have hpos : 0 < cost env i := by
    rw [hcost]
    exact Int.mul_pos item.price_pos item.quantity_pos
  have hmin : -(2 ^ 63 : Int) ≤ cost env i := by omega
  rw [wrap64_eq ⟨hmin, hfits⟩] at hsubtotal
  refine ⟨?_, ?_, ?_, hsubtotal.trans hcost, hsubtotal.trans_le hfits⟩
  · exact congrArg ItemRequest.productID hline
  · rw [hproduct, hprice]
    rfl
  · exact congrArg ItemRequest.quantity hline

variable {lines : List ItemRequest} {new : List OrderItem}

/-- Exact items have the costs as their subtotals. -/
theorem costs_of_exact {env : CreateContext} (h : List.Forall₂ (ExactItem env) lines new) :
    lines.map (cost env) = new.map OrderItem.subtotalFen := by
  induction h with
  | nil => rfl
  | cons hitem _ ih => rw [List.map_cons, List.map_cons, ih, hitem.cost_eq]

theorem exact_of_priced {env : CreateContext} (h : List.Forall₂ (PricedAs env) lines new)
    (hfits : ∀ i ∈ lines, cost env i ≤ maxInt64) :
    List.Forall₂ (ExactItem env) lines new :=
  ((List.forall₂_and_left _ _).mpr ⟨hfits, h⟩).imp fun _ _ hitem => hitem.2.exact hitem.1

/-- The items and the total of the loop are exact if and only if the costs and their sum fit. -/
theorem PricedItems.exact_iff {env : CreateContext} {total : Int}
    (h : PricedItems env lines new 0 total) :
    (List.Forall₂ (ExactItem env) lines new ∧ total = (new.map OrderItem.subtotalFen).sum ∧
      total ≤ 2 ^ 63 - 1) ↔ Fits env lines := by
  constructor
  · rintro ⟨hexact, htotal, hmax⟩
    refine ⟨?_, ?_⟩
    · exact ((List.forall₂_and_left _ _).mp (hexact.imp fun i item hitem =>
        ⟨hitem.cost_eq.trans_le hitem.range, hitem⟩)).1
    · rw [costs_of_exact hexact, ← htotal]
      exact hmax
  · intro hfits
    have hexact := exact_of_priced h.items hfits.subtotal
    have hcosts := costs_of_exact hexact
    have htotal := (h.total (by decide)).2
    have hpos : 0 ≤ (new.map OrderItem.subtotalFen).sum := by
      refine List.sum_nonneg fun x hx => ?_
      obtain ⟨item, -, rfl⟩ := List.mem_map.mp hx
      exact item.subtotal_pos.le
    have hfit : (new.map OrderItem.subtotalFen).sum ≤ maxInt64 := hcosts ▸ hfits.total
    have hmin : -(2 ^ 63 : Int) ≤ (new.map OrderItem.subtotalFen).sum := by omega
    rw [zero_add, wrap64_eq ⟨hmin, hfit⟩] at htotal
    exact ⟨hexact, htotal, htotal.trans_le hfit⟩

section

variable [Collation] [Digest]

/-- The order that is made is stored and returned as the loop has priced it. -/
theorem created_priced {env : CreateContext} {u id : Int} {req : CreateOrderRequest} {s s' : DB}
    (hexec : (createOrder env u req).exec s = .ok (.created id, s')) :
    ∃ row, s'.order id = some row ∧ Created.reply s' u (.created id) = .ok (id, row) ∧
      PricedItems env req.items (s'.itemsOf id) 0 row.totalAmountFen := by
  obtain ⟨-, ⟨hid, row, new, logs, hplaced, hpriced⟩ | ⟨_, hother, -⟩⟩ := createOrder_ok hexec
  swap
  · cases hother
  obtain rfl := Created.created.inj hid
  have hrow : s'.order env.orderID = some row := by
    rw [hplaced.orders, Function.update_self]
  have hitems : s'.itemsOf env.orderID = new := by
    rw [hplaced.items, Function.update_self]
  have hread : getOrderByID s' u env.orderID = some row := by
    simp [getOrderByID, hrow, hplaced.owner]
  refine ⟨row, hrow, ?_, hitems ▸ hpriced⟩
  simp [Created.reply, Created.orderID, hread]

/-- **Order totals are exact**, in a state and for a request at the prices of the products, if and
only if no order can be made or each cost, and the sum of the costs, fits into an `int64`.  Exact
means: the items are the requested lines, each with its price times its quantity as the subtotal,
and the total that is stored and returned is the sum of the subtotals, which fits into an
`int64`. -/
theorem totals_exact (env : CreateContext) (u : Int) (req : CreateOrderRequest) (s : DB) :
    (∀ (id : Int) (s' : DB), (createOrder env u req).exec s = .ok (.created id, s') →
      ∃ row, s'.order id = some row ∧ Created.reply s' u (.created id) = .ok (id, row) ∧
        List.Forall₂ (ExactItem env) req.items (s'.itemsOf id) ∧
        row.totalAmountFen = ((s'.itemsOf id).map OrderItem.subtotalFen).sum ∧
        row.totalAmountFen ≤ 2 ^ 63 - 1) ↔
      (Makes env u req s → Fits env req.items) := by
  constructor
  · intro h hmakes
    obtain ⟨id, s', hexec⟩ := created_iff.mpr hmakes
    obtain ⟨row, hrow, -, hpriced⟩ := created_priced hexec
    obtain ⟨row', hrow', -, hexact⟩ := h id s' hexec
    obtain rfl := Option.some.inj (hrow.symm.trans hrow')
    exact hpriced.exact_iff.mp hexact
  · intro h id s' hexec
    obtain ⟨row, hrow, hreply, hpriced⟩ := created_priced hexec
    have hfits := h (created_iff.mp ⟨id, s', hexec⟩)
    exact ⟨row, hrow, hreply, hpriced.exact_iff.mpr hfits⟩

end

/-- Every product has this price. -/
def atPrice (price : Int) : CreateContext :=
  ⟨fun _ => some ⟨[0x70], price, true⟩, 1, [0x6F], [0x65], 100⟩

/-- Ten of a product are put on stock. -/
def tenOnStock : Option DB :=
  (InitInventoryRequest.bind 1 10).bind fun req =>
    ((initInventory (some pen) req DB.empty).exec DB.empty).toOption.map Prod.snd

/-- The user 7 orders some of it: the transaction, and the total that is stored. -/
def ordering (price quantity : Int) : Option (Created × Option Int) :=
  letI := asciiCi
  letI := tallyDigest
  tenOnStock.bind fun s => (CreateOrderRequest.bind [0x6B] [⟨1, quantity⟩]).bind fun req =>
    ((createOrder (atPrice price) 7 req).exec s).toOption.map fun r =>
      (r.1, (DB.order r.2 1).map Order.totalAmountFen)

/-- Four pieces at `2^62 + 1` each: the product wraps to four, and the order is made. -/
theorem totals_wrap :
    0 < (2 ^ 62 + 1 : Int) ∧ 2 ^ 62 + 1 ≤ maxInt64 ∧
      ordering (2 ^ 62 + 1) 4 = some (.created 1, some 4) ∧
      cost (atPrice (2 ^ 62 + 1)) ⟨1, 4⟩ = 2 ^ 64 + 4 := by
  refine ⟨?_, ?_, ?_, ?_⟩ <;> decide

end OrderSystem.Monolith
