/-
# What a committed request of the monolith does

One description of each operation, run alone from a committed database: `Supplied` for
`InitInventory` and `AddInventory`, `Placed` for a `CreateOrder` that makes an order, `Cancelled`
for a cancellation that finds its order pending, and the rows that change for the rest.
`prog_effect` says that a request that commits does one of these or changes nothing.

All of them move stock in the same way: a stock row is overwritten and an entry of the log says
from what to what.  `Moved` is that, for a list of entries; the item loops of `CreateOrder` and of
`cancelPendingOrder` are followed by `createItems_ok` and `rollbackItems_ok`, which put the
`Moved`s of their iterations together.
-/
import OrderSystem.Monolith.Model
import OrderSystem.Kit.Ledger

namespace OrderSystem.Monolith

open OrderSystem.Kit

/-! ## 1. Reading and writing the database -/

namespace DB

/-- `stock_quantity` of a product; a product without a row has none. -/
def stock (s : DB) (p : Int) : Int := ((s.inventory p).map (·.stockQuantity)).getD 0

@[simp] theorem set_keyAt (s : DB) (u : Int) (w : GoString) (row : Option OrderIdempotencyKey) :
    DB.keyAt (Store.set s (.idempotency u w) row) = Function.update s.keyAt (u, w) row :=
  Function.update_comp_eq_of_injective' s.row
    (f := fun k : Int × GoString => Key.idempotency k.1 k.2)
    (fun _ _ h => Prod.ext (Key.idempotency.inj h).1 (Key.idempotency.inj h).2) (u, w) row

@[simp] theorem set_order (s : DB) (id : Int) (row : Option Order) :
    DB.order (Store.set s (.order id) row) = Function.update s.order id row :=
  Function.update_comp_eq_of_injective' s.row (fun _ _ h => Key.order.inj h) id row

@[simp] theorem set_itemsOf (s : DB) (id : Int) (items : List OrderItem) :
    DB.itemsOf (Store.set s (.items id) items) = Function.update s.itemsOf id items :=
  Function.update_comp_eq_of_injective' s.row (fun _ _ h => Key.items.inj h) id items

@[simp] theorem set_outboxOf (s : DB) (id : Int) (row : Option OrderTimeoutOutbox) :
    DB.outboxOf (Store.set s (.outbox id) row) = Function.update s.outboxOf id row :=
  Function.update_comp_eq_of_injective' s.row (fun _ _ h => Key.outbox.inj h) id row

@[simp] theorem set_inventory (s : DB) (p : Int) (row : Option Inventory) :
    DB.inventory (Store.set s (.inventory p) row) = Function.update s.inventory p row :=
  Function.update_comp_eq_of_injective' s.row (fun _ _ h => Key.inventory.inj h) p row

@[simp] theorem set_keyAt_of_ne (s : DB) {k : Key} (v : Row k)
    (h : ∀ u w, Key.idempotency u w ≠ k) : DB.keyAt (Store.set s k v) = s.keyAt :=
  funext fun key => Store.set_row_of_ne s v (h key.1 key.2)

@[simp] theorem set_order_of_ne (s : DB) {k : Key} (v : Row k) (h : ∀ id, Key.order id ≠ k) :
    DB.order (Store.set s k v) = s.order :=
  funext fun id => Store.set_row_of_ne s v (h id)

@[simp] theorem set_itemsOf_of_ne (s : DB) {k : Key} (v : Row k) (h : ∀ id, Key.items id ≠ k) :
    DB.itemsOf (Store.set s k v) = s.itemsOf :=
  funext fun id => Store.set_row_of_ne s v (h id)

@[simp] theorem set_outboxOf_of_ne (s : DB) {k : Key} (v : Row k)
    (h : ∀ id, Key.outbox id ≠ k) : DB.outboxOf (Store.set s k v) = s.outboxOf :=
  funext fun id => Store.set_row_of_ne s v (h id)

@[simp] theorem set_stock_of_ne (s : DB) {k : Key} (v : Row k)
    (h : ∀ p, Key.inventory p ≠ k) : DB.stock (Store.set s k v) = s.stock := by
  funext p
  rw [stock, inventory, Store.set_row_of_ne s v (h p)]
  rfl

@[simp] theorem set_stock (s : DB) (p : Int) (row : Inventory) :
    DB.stock (Store.set s (.inventory p) (some row)) =
      Function.update s.stock p row.stockQuantity := by
  funext p'
  by_cases hp : p' = p
  · subst hp
    simp [stock]
  · simp [stock, hp]

@[simp] theorem push_keyAt (s : DB) (l : StockLog) : DB.keyAt (Store.push s l) = s.keyAt := rfl

@[simp] theorem push_order (s : DB) (l : StockLog) : DB.order (Store.push s l) = s.order := rfl

@[simp] theorem push_itemsOf (s : DB) (l : StockLog) :
    DB.itemsOf (Store.push s l) = s.itemsOf := rfl

@[simp] theorem push_outboxOf (s : DB) (l : StockLog) :
    DB.outboxOf (Store.push s l) = s.outboxOf := rfl

@[simp] theorem push_stock (s : DB) (l : StockLog) : DB.stock (Store.push s l) = s.stock := rfl

theorem stock_of_inventory {s : DB} {p : Int} {row : Inventory} (h : s.inventory p = some row) :
    s.stock p = row.stockQuantity := by
  simp [stock, h]

theorem stock_nonneg (s : DB) (p : Int) : 0 ≤ s.stock p := by
  unfold stock
  cases s.inventory p with
  | none => simp
  | some row => simpa using row.stock_nonneg

end DB

/-! ## 2. Statements -/

variable {β : Type} {q p id : Int} {u : Unit} {w hash : GoString}

@[simp] theorem exec_getInventory_bind (p : Int) (f : Option Inventory → Tx β) (s : DB) :
    (getInventory p >>= f).exec s = (f (s.inventory p)).exec s :=
  Txn.exec_get_bind (V := Row) (Key.inventory p) f s

@[simp] theorem exec_setInventory (p : Int) (row : Inventory) (s : DB) :
    (setInventory p row).exec s = .ok ((), Store.set s (Key.inventory p) (some row)) := rfl

@[simp] theorem exec_setInventory_bind (p : Int) (row : Inventory) (f : Unit → Tx β) (s : DB) :
    (setInventory p row >>= f).exec s
      = (f ()).exec (Store.set s (Key.inventory p) (some row)) :=
  Txn.exec_set_bind (V := Row) (Key.inventory p) (some row) f s

@[simp] theorem exec_getOrder_bind (id : Int) (f : Option Order → Tx β) (s : DB) :
    (getOrder id >>= f).exec s = (f (s.order id)).exec s :=
  Txn.exec_get_bind (V := Row) (Key.order id) f s

@[simp] theorem exec_setOrder (id : Int) (row : Order) (s : DB) :
    (setOrder id row).exec s = .ok ((), Store.set s (Key.order id) (some row)) := rfl

@[simp] theorem exec_setOrder_bind (id : Int) (row : Order) (f : Unit → Tx β) (s : DB) :
    (setOrder id row >>= f).exec s
      = (f ()).exec (Store.set s (Key.order id) (some row)) :=
  Txn.exec_set_bind (V := Row) (Key.order id) (some row) f s

@[simp] theorem exec_getKey_bind (u : Int) (w : GoString) (f : Option OrderIdempotencyKey → Tx β)
    (s : DB) :
    (getKey u w >>= f).exec s = (f (s.keyAt (u, w))).exec s :=
  Txn.exec_get_bind (V := Row) (Key.idempotency u w) f s

@[simp] theorem exec_setKey_bind (u : Int) (w : GoString) (row : OrderIdempotencyKey)
    (f : Unit → Tx β) (s : DB) : (setKey u w row >>= f).exec s
      = (f ()).exec (Store.set s (Key.idempotency u w) (some row)) :=
  Txn.exec_set_bind (V := Row) (Key.idempotency u w) (some row) f s

theorem Inventory.checked_eq_some {row : Inventory} (h : Inventory.checked q = some row) :
    row.stockQuantity = q := by
  unfold Inventory.checked at h
  split at h
  · rw [← Option.some.inj h]
  · exact absurd h (by simp)

/-- An item as the line that asked for it. -/
def OrderItem.line (i : OrderItem) : ItemRequest := ⟨i.productID, i.quantity⟩

theorem OrderItem.checked_eq_some {price subtotal : Int} {name : GoString} {row : OrderItem}
    (h : OrderItem.checked p name price q subtotal = some row) :
    row.line = ⟨p, q⟩ ∧ row.productPriceFen = price ∧ row.subtotalFen = subtotal := by
  unfold OrderItem.checked at h
  split at h
  · rw [← Option.some.inj h]
    exact ⟨rfl, rfl, rfl⟩
  · exact absurd h (by simp)

/-- What an entry of the stock log says, its two quantities and its remark apart. -/
structure Movement where
  productID : Int
  changeQuantity : Int
  bizType : StockBiz
  bizID : Option Int
  deriving DecidableEq

def StockLog.movement (l : StockLog) : Movement :=
  ⟨l.productID, l.changeQuantity, l.bizType, l.bizID⟩

/-- The stock log as a ledger: an account for each product. -/
def stockBook : Book StockLog Int where
  account := StockLog.productID
  before := StockLog.beforeQuantity
  after := StockLog.afterQuantity

variable {s s' : DB}

theorem createStockLog_ok {change before after : Int} {biz : StockBiz} {bizID : Option Int}
    {remark : GoString} {err : Err}
    (h : (createStockLog (StockLog.checked p change before after biz bizID remark) err).exec s
      = .ok (u, s')) :
    ∃ l : StockLog, l.movement = ⟨p, change, biz, bizID⟩ ∧ l.beforeQuantity = before ∧
      l.afterQuantity = after ∧ after = before + change ∧ s' = Store.push s l := by
  unfold createStockLog StockLog.checked at h
  split at h
  · exact absurd h (by simp)
  · rename_i l hl
    split at hl
    · rename_i hcheck
      obtain rfl := Option.some.inj hl
      exact ⟨_, rfl, rfl, rfl, hcheck.2.2, (Prod.mk.inj (Except.ok.inj h)).2.symm⟩
    · exact absurd hl (by simp)

/-- **A conditional deduction**: no row changed, or the row had enough and was rewritten. -/
theorem deductInventory_ok {n : Nat} (h : (deductInventory p q).exec s = .ok (n, s')) :
    n = 0 ∨ ∃ row row' : Inventory, s.inventory p = some row ∧
      row'.stockQuantity = row.stockQuantity - q ∧
      s' = Store.set s (Key.inventory p) (some row') := by
  simp only [deductInventory, exec_getInventory_bind] at h
  split at h
  · exact Or.inl (Prod.mk.inj (Except.ok.inj h)).1.symm
  · rename_i row hrow
    split at h
    · split at h
      · exact absurd h (by simp)
      · rename_i row' hrow'
        simp only [exec_setInventory_bind, Txn.exec_pure, Except.ok.injEq, Prod.mk.injEq] at h
        exact Or.inr ⟨row, row', hrow, Inventory.checked_eq_some hrow', h.2.symm⟩
    · exact Or.inl (Prod.mk.inj (Except.ok.inj h)).1.symm

theorem updateInventoryStockQuantity_ok
    (h : (updateInventoryStockQuantity p q).exec s = .ok (u, s')) :
    ∃ row' : Inventory, row'.stockQuantity = q ∧
      s' = Store.set s (Key.inventory p) (some row') := by
  simp only [updateInventoryStockQuantity, exec_getInventory_bind] at h
  split at h
  · exact absurd h (by simp)
  · split at h
    · exact absurd h (by simp)
    · rename_i row' hrow'
      simp only [exec_setInventory, Except.ok.injEq, Prod.mk.injEq] at h
      exact ⟨row', Inventory.checked_eq_some hrow', h.2.symm⟩

theorem insertOrder_ok {row : Order} (h : (insertOrder id row).exec s = .ok (u, s')) :
    s.order id = none ∧ 0 < id ∧
      s' = Store.set (Store.set s (Key.order id) (some row)) (Key.items id) [] := by
  simp only [insertOrder, exec_getOrder_bind] at h
  split at h
  · exact absurd h (by simp)
  · rename_i hnone
    split at h
    · exact absurd h (by simp)
    · rename_i hid
      simp only [exec_setOrder_bind, Txn.exec_set, Except.ok.injEq, Prod.mk.injEq] at h
      exact ⟨hnone, not_le.mp hid, h.2.symm⟩

theorem createOrderItem_ok {item : Option OrderItem}
    (h : (createOrderItem id item).exec s = .ok (u, s')) :
    ∃ row, item = some row ∧ s' = Store.set s (Key.items id) (s.itemsOf id ++ [row]) := by
  unfold createOrderItem at h
  split at h
  · exact absurd h (by simp)
  · rename_i row
    simp only [Txn.exec_get_bind, Txn.exec_set, Except.ok.injEq, Prod.mk.injEq] at h
    exact ⟨row, rfl, h.2.symm⟩

theorem patchOrderTotalPriceFen_ok {total u : Int} {row : Order} {v : Unit}
    (hrow : s.order id = some row) (hu : row.userID = u)
    (h : (patchOrderTotalPriceFen id total u).exec s = .ok (v, s')) :
    ∃ hnonneg : 0 ≤ total, s' = Store.set s (Key.order id)
      (some { row with totalAmountFen := total, total_nonneg := hnonneg }) := by
  simp only [patchOrderTotalPriceFen, exec_getOrder_bind, hrow, if_pos hu] at h
  split at h
  · rename_i hnonneg
    simp only [exec_setOrder, Except.ok.injEq, Prod.mk.injEq] at h
    exact ⟨hnonneg, h.2.symm⟩
  · exact absurd h (by simp)

theorem patchOrderStatus_ok {u : Int} {st st' : OrderStatus} {n : Nat}
    (h : (patchOrderStatus u id st st').exec s = .ok (n, s')) :
    (n = 0 ∧ s' = s) ∨ (n = 1 ∧ ∃ row, s.order id = some row ∧ row.userID = u ∧ row.status = st ∧
      s' = Store.set s (Key.order id) (some { row with status := st' })) := by
  simp only [patchOrderStatus, exec_getOrder_bind] at h
  split at h
  · obtain ⟨hn, hs⟩ := Prod.mk.inj (Except.ok.inj h)
    exact Or.inl ⟨hn.symm, hs.symm⟩
  · rename_i row hrow
    split at h
    · rename_i hcond
      simp only [exec_setOrder_bind, Txn.exec_pure, Except.ok.injEq, Prod.mk.injEq] at h
      exact Or.inr ⟨h.1.symm, row, hrow, hcond.1, hcond.2, h.2.symm⟩
    · obtain ⟨hn, hs⟩ := Prod.mk.inj (Except.ok.inj h)
      exact Or.inl ⟨hn.symm, hs.symm⟩

theorem createOrderTimeoutOutbox_ok {row : OrderTimeoutOutbox}
    (h : (createOrderTimeoutOutbox id row).exec s = .ok (u, s')) :
    s.outboxOf id = none ∧ s' = Store.set s (Key.outbox id) (some row) := by
  simp only [createOrderTimeoutOutbox, Txn.exec_get_bind] at h
  split at h
  · exact absurd h (by simp)
  · rename_i hnone
    simp only [Txn.exec_set, Except.ok.injEq, Prod.mk.injEq] at h
    exact ⟨hnone, h.2.symm⟩

/-- The stock is deducted where there is enough of it. -/
theorem exec_deductInventory {row : Inventory} (hrow : s.inventory p = some row)
    (hpos : 0 < q) (hq : q ≤ row.stockQuantity) :
    ∃ row' : Inventory, (deductInventory p q).exec s
      = .ok (1, Store.set s (Key.inventory p) (some row')) := by
  have hrange := row.stock_range
  have hmax : maxInt64 = 2 ^ 63 - 1 := rfl
  have hrow' : Inventory.checked (row.stockQuantity - q) = some _ :=
    dif_pos ⟨by omega, by omega⟩
  simp only [deductInventory, exec_getInventory_bind, hrow, if_pos hq, hrow',
    exec_setInventory_bind, Txn.exec_pure]
  exact ⟨_, rfl⟩

theorem exec_insertOrder {row : Order} (h : s.order id = none) (hid : 0 < id) :
    (insertOrder id row).exec s
      = .ok ((), Store.set (Store.set s (Key.order id) (some row)) (Key.items id) []) := by
  simp only [insertOrder, exec_getOrder_bind, h, if_neg (not_le.mpr hid), exec_setOrder_bind,
    Txn.exec_set]

theorem exec_patchOrderTotalPriceFen {total u : Int} {row : Order}
    (hrow : s.order id = some row) (hu : row.userID = u) (htotal : 0 ≤ total) :
    (patchOrderTotalPriceFen id total u).exec s = .ok ((), Store.set s (Key.order id)
      (some { row with totalAmountFen := total, total_nonneg := htotal })) := by
  simp only [patchOrderTotalPriceFen, exec_getOrder_bind, hrow, if_pos hu, dif_pos htotal,
    exec_setOrder]

theorem exec_createOrderTimeoutOutbox {row : OrderTimeoutOutbox} (h : s.outboxOf id = none) :
    (createOrderTimeoutOutbox id row).exec s
      = .ok ((), Store.set s (Key.outbox id) (some row)) := by
  change Store.row s (Key.outbox id) = none at h
  simp only [createOrderTimeoutOutbox, Txn.exec_get_bind, h, Txn.exec_set]

theorem exec_tryCreate_found {u : Int} {row : OrderIdempotencyKey} (h : s.keyAt (u, w) = some row) :
    (tryCreateOrderIdempotencyKey u w hash).exec s = .ok (false, s) := by
  simp only [tryCreateOrderIdempotencyKey, exec_getKey_bind, h, Txn.exec_pure]

theorem exec_tryCreate_new {u : Int} (h : s.keyAt (u, w) = none) :
    (tryCreateOrderIdempotencyKey u w hash).exec s = .ok (true,
      Store.set s (Key.idempotency u w) (some ⟨hash, none, .orderBeingCreated⟩)) := by
  simp only [tryCreateOrderIdempotencyKey, exec_getKey_bind, h, exec_setKey_bind, Txn.exec_pure]

/-- A key that this transaction has made is there to be completed. -/
theorem exec_completeOrderIdempotencyKey {u : Int}
    (h : s.keyAt (u, w) = some ⟨hash, none, .orderBeingCreated⟩) :
    (completeOrderIdempotencyKey u w id).exec s = .ok (1,
      Store.set s (Key.idempotency u w) (some ⟨hash, some id, .orderAlreadyCreated⟩)) := by
  simp only [completeOrderIdempotencyKey, exec_getKey_bind, h, if_true, exec_setKey_bind,
    Txn.exec_pure]

/-! ## 3. Moving stock -/

/-- The entries of the log say how the stock has moved. -/
structure Moved (s s' : DB) (logs : List StockLog) : Prop where
  log : Store.log s' = Store.log s ++ logs
  posted : stockBook.Posted s.stock logs s'.stock

theorem moved_nil (hlog : Store.log s' = Store.log s) (hstock : s'.stock = s.stock) :
    Moved s s' [] :=
  ⟨by rw [hlog, List.append_nil], hstock⟩

variable {logs : List StockLog}

theorem Moved.trans {t : DB} {logs' : List StockLog} (h : Moved s t logs) (h' : Moved t s' logs') :
    Moved s s' (logs ++ logs') :=
  ⟨by rw [h'.log, h.log, List.append_assoc], Book.posted_append h.posted h'.posted⟩

/-- What has happened to other rows, before or after, does not matter. -/
theorem Moved.congr {t t' : DB} (h : Moved t t' logs) (hlog : Store.log t = Store.log s)
    (hstock : t.stock = s.stock) (hlog' : Store.log s' = Store.log t')
    (hstock' : s'.stock = t'.stock) : Moved s s' logs :=
  ⟨by rw [hlog', h.log, hlog], by rw [hstock', ← hstock]; exact h.posted⟩

/-- One product moves. -/
theorem moved_single {x : Int} {l : StockLog} (hp : l.productID = p)
    (hbefore : l.beforeQuantity = s.stock p) (hafter : l.afterQuantity = x)
    (hlog : Store.log s' = Store.log s ++ [l]) (hstock : s'.stock = Function.update s.stock p x) :
    Moved s s' [l] := by
  subst hp
  subst hafter
  exact ⟨hlog, Book.posted_single hbefore hstock⟩

/-- What the movements add up to for a product. -/
def moved (p : Int) (ms : List Movement) : Int :=
  (ms.map fun m => if m.productID = p then m.changeQuantity else 0).sum

theorem change_eq_moved (p : Int) (logs : List StockLog) :
    stockBook.change p logs = moved p (logs.map StockLog.movement) := by
  rw [Book.change, moved, List.map_map]
  refine congrArg List.sum (List.map_congr_left fun l _ => ?_)
  have hb := l.balance
  show (if l.productID = p then l.afterQuantity - l.beforeQuantity else 0) =
    if l.productID = p then l.changeQuantity else 0
  split
  · omega
  · rfl

/-- **The stock of a product has moved by its movements.** -/
theorem Moved.stock (h : Moved s s' logs) (p : Int) :
    s'.stock p = s.stock p + moved p (logs.map StockLog.movement) := by
  rw [Book.posted_change p h.posted, change_eq_moved]

@[simp] theorem moved_cons (p : Int) (m : Movement) (ms : List Movement) :
    moved p (m :: ms) = (if m.productID = p then m.changeQuantity else 0) + moved p ms := by
  simp [moved]

/-- The movements that the log has of one kind for an order. -/
def DB.movements (s : DB) (biz : StockBiz) (orderID : Int) : List Movement :=
  ((Store.log s).map StockLog.movement).filter fun m => m.bizType = biz ∧ m.bizID = some orderID

theorem Moved.movements (h : Moved s s' logs) (biz : StockBiz) (id : Int) :
    s'.movements biz id = s.movements biz id ++
      (logs.map StockLog.movement).filter fun m => m.bizType = biz ∧ m.bizID = some id := by
  rw [DB.movements, h.log, List.map_append, List.filter_append]
  rfl

/-- Movements that are all of one kind for one order. -/
theorem filter_movements {ι : Type} {f : ι → Movement} {biz₀ : StockBiz} {id₀ : Int}
    (hf : ∀ i, (f i).bizType = biz₀ ∧ (f i).bizID = some id₀) (l : List ι) (biz : StockBiz)
    (id : Int) :
    (l.map f).filter (fun m => m.bizType = biz ∧ m.bizID = some id) =
      if biz₀ = biz ∧ id₀ = id then l.map f else [] := by
  split
  · rename_i hkind
    rw [List.filter_eq_self]
    intro m hm
    obtain ⟨i, -, rfl⟩ := List.mem_map.mp hm
    simp [(hf i).1, (hf i).2, hkind.1, hkind.2]
  · rename_i hkind
    rw [List.filter_eq_nil_iff]
    intro m hm
    obtain ⟨i, -, rfl⟩ := List.mem_map.mp hm
    simp only [(hf i).1, (hf i).2, Option.some.injEq, decide_eq_true_eq]
    exact hkind

/-- `InitInventory` or `AddInventory` of the quantity `q` of the product `p`. -/
structure Supplied (s s' : DB) (p q : Int) (biz : StockBiz) (logs : List StockLog) : Prop where
  keys : s'.keyAt = s.keyAt
  orders : s'.order = s.order
  items : s'.itemsOf = s.itemsOf
  outboxes : s'.outboxOf = s.outboxOf
  moved : Moved s s' logs
  movements : logs.map StockLog.movement = [⟨p, q, biz, none⟩]

theorem initInventory_ok {product : Option Product} {req : InitInventoryRequest} {snapshot : DB}
    (h : (initInventory product req snapshot).exec s = .ok (u, s')) :
    ∃ logs, Supplied s s' req.productID req.stockQuantity .init logs := by
  unfold initInventory at h
  split at h
  · exact absurd h (by simp)
  · split at h
    · exact absurd h (by simp)
    · simp only [exec_getInventory_bind] at h
      split at h
      · exact absurd h (by simp)
      · rename_i hnone
        split at h
        · exact absurd h (by simp)
        · rename_i row hrow
          rw [exec_setInventory_bind] at h
          obtain ⟨l, hm, hbefore, hafter, -, rfl⟩ := createStockLog_ok h
          have hq := Inventory.checked_eq_some hrow
          refine ⟨[l], by simp, by simp, by simp, by simp, ?_, by rw [List.map_singleton, hm]⟩
          refine moved_single (congrArg Movement.productID hm) ?_ hafter rfl ?_
          · simp [hbefore, DB.stock, hnone]
          · rw [DB.push_stock, DB.set_stock, hq]

theorem addInventory_ok {product : Option Product} {req : AddInventoryRequest}
    (h : (addInventory product req).exec s = .ok (u, s')) :
    ∃ logs, Supplied s s' req.productID req.quantity .manualAdd logs := by
  simp only [addInventory, exec_getInventory_bind] at h
  split at h
  · exact absurd h (by simp)
  · rename_i row hrow
    split at h
    · exact absurd h (by simp)
    · obtain ⟨v, t, ht, h⟩ := Txn.exec_bind_ok h
      obtain ⟨row', hq, rfl⟩ := updateInventoryStockQuantity_ok ht
      obtain ⟨l, hm, hbefore, hafter, -, rfl⟩ := createStockLog_ok h
      refine ⟨[l], by simp, by simp, by simp, by simp, ?_, by rw [List.map_singleton, hm]⟩
      refine moved_single (congrArg Movement.productID hm) ?_ hafter rfl ?_
      · rw [hbefore, DB.stock_of_inventory hrow]
      · rw [DB.push_stock, DB.set_stock, hq]

/-! ## 4. Placing an order -/

/-- The entry for a line of an order. -/
def deduction (orderID : Int) (i : ItemRequest) : Movement :=
  ⟨i.productID, -i.quantity, .orderDeduct, some orderID⟩

theorem moved_deduction (p id : Int) (lines : List ItemRequest) :
    moved p (lines.map (deduction id)) = -lineSum lines p := by
  induction lines with
  | nil => rfl
  | cons i lines ih =>
    rw [List.map_cons, moved_cons, ih, lineSum_cons]
    by_cases hp : i.productID = p
    · simp only [deduction, if_pos hp]
      omega
    · simp only [deduction, if_neg hp]
      omega

/-- The item that a line becomes, at the price of its product, which is on sale. -/
def PricedAs (env : CreateContext) (i : ItemRequest) (item : OrderItem) : Prop :=
  ∃ product, env.products i.productID = some product ∧ product.onSale = true ∧ item.line = i ∧
    item.productPriceFen = product.priceFen ∧
    item.subtotalFen = wrap64 (product.priceFen * i.quantity)

/-- **The body of the item loop of `CreateOrder`**: the stock of the product goes down, the order
gets the item, and the move is logged. -/
theorem createItem_ok {env : CreateContext} {i : ItemRequest} {x : Int}
    (h : (createItem env i).exec s = .ok (x, s')) :
    ∃ (row' : Inventory) (item : OrderItem) (l : StockLog), PricedAs env i item ∧
      item.subtotalFen = x ∧ l.movement = deduction env.orderID i ∧
      l.beforeQuantity = s.stock i.productID ∧ l.afterQuantity = row'.stockQuantity ∧
      s' = Store.push (Store.set (Store.set s (Key.inventory i.productID) (some row'))
        (Key.items env.orderID) (s.itemsOf env.orderID ++ [item])) l := by
  unfold createItem at h
  split at h
  · exact absurd h (by simp)
  · rename_i product hproduct
    split at h
    · exact absurd h (by simp)
    · rename_i honSale
      simp only [exec_getInventory_bind] at h
      split at h
      · exact absurd h (by simp)
      · rename_i row hrow
        split at h
        · exact absurd h (by simp)
        · obtain ⟨n, t, hd, h⟩ := Txn.exec_bind_ok h
          split at h
          · exact absurd h (by simp)
          · rename_i hn
            rcases deductInventory_ok hd with h0 | ⟨row₀, row', hrow₀, hq, rfl⟩
            · exact absurd h0 hn
            · obtain rfl := Option.some.inj (hrow.symm.trans hrow₀)
              obtain ⟨u, t, hi, h⟩ := Txn.exec_bind_ok h
              obtain ⟨item, hitem, rfl⟩ := createOrderItem_ok hi
              obtain ⟨u, t, hl, h⟩ := Txn.exec_bind_ok h
              obtain ⟨l, hm, hbefore, hafter, hbalance, rfl⟩ := createStockLog_ok hl
              obtain ⟨hline, hprice, hsubtotal⟩ := OrderItem.checked_eq_some hitem
              obtain ⟨hx, hs'⟩ := Prod.mk.inj (Except.ok.inj h)
              refine ⟨row', item, l, ⟨product, hproduct, not_not.mp honSale, hline, hprice,
                hsubtotal⟩, hsubtotal.trans hx, hm, ?_, ?_, ?_⟩
              · rw [hbefore, DB.stock_of_inventory hrow]
              · rw [hafter, hbalance, hq]
                omega
              · rw [← hs', DB.set_itemsOf_of_ne _ _ (by simp)]

/-- What the item loop of `CreateOrder` does. -/
structure DeductedItems (env : CreateContext) (asked : List ItemRequest) (s s' : DB)
    (new : List OrderItem) (logs : List StockLog) : Prop where
  keys : s'.keyAt = s.keyAt
  orders : s'.order = s.order
  outboxes : s'.outboxOf = s.outboxOf
  items : s'.itemsOf = Function.update s.itemsOf env.orderID (s.itemsOf env.orderID ++ new)
  lines : new.map OrderItem.line = asked
  moved : Moved s s' logs
  movements : logs.map StockLog.movement = asked.map (deduction env.orderID)

/-- What the loop makes of the prices: an item for each line, and the total, which wraps. -/
structure PricedItems (env : CreateContext) (lines : List ItemRequest) (new : List OrderItem)
    (total total' : Int) : Prop where
  items : List.Forall₂ (PricedAs env) lines new
  total : InBigint total → InBigint total' ∧
    total' = wrap64 (total + (new.map OrderItem.subtotalFen).sum)

/-- **The item loop of `CreateOrder`.** -/
theorem createItems_ok {env : CreateContext} : ∀ (lines : List ItemRequest) {total total' : Int}
    {s s' : DB}, (createItems env total lines).exec s = .ok (total', s') →
    ∃ new logs, DeductedItems env lines s s' new logs ∧ PricedItems env lines new total total'
  | [], total, total', s, s', h => by
    obtain ⟨rfl, rfl⟩ := Prod.mk.inj (Except.ok.inj h)
    refine ⟨[], [], ⟨rfl, rfl, rfl, by simp, rfl, moved_nil rfl rfl, rfl⟩, .nil, fun hrange => ?_⟩
    simp [hrange, wrap64_eq hrange]
  | i :: lines, total, total', s, s', h => by
    rw [createItems] at h
    obtain ⟨x, t, hi, h⟩ := Txn.exec_bind_ok h
    obtain ⟨new, logs, hrest, hpriced⟩ := createItems_ok lines h
    obtain ⟨row', item, l, hitem, rfl, hm, hbefore, hafter, rfl⟩ := createItem_ok hi
    have hline : item.line = i := hitem.choose_spec.2.2.1
    have hone : Moved s (Store.push (Store.set (Store.set s (Key.inventory i.productID)
        (some row')) (Key.items env.orderID) (s.itemsOf env.orderID ++ [item])) l) [l] :=
      moved_single (p := i.productID) (congrArg Movement.productID hm) hbefore hafter rfl
        (by simp)
    refine ⟨item :: new, l :: logs, ⟨?_, ?_, ?_, ?_, ?_, hone.trans hrest.moved, ?_⟩,
      .cons hitem hpriced.items, fun _ => ?_⟩
    · rw [hrest.keys]
      simp
    · rw [hrest.orders]
      simp
    · rw [hrest.outboxes]
      simp
    · rw [hrest.items]
      simp
    · rw [List.map_cons, hline, hrest.lines]
    · rw [List.map_cons, hm, hrest.movements, List.map_cons]
    · obtain ⟨hrange, htotal⟩ := hpriced.total (wrap64_range _)
      refine ⟨hrange, htotal.trans ?_⟩
      rw [wrap64_wrap64_add, List.map_cons, List.sum_cons, add_assoc]

section

variable [Collation] [Digest]

/-- The transaction of a `CreateOrder` that makes an order. -/
structure Placed (env : CreateContext) (u : Int) (req : CreateOrderRequest) (s s' : DB)
    (row : Order) (new : List OrderItem) (logs : List StockLog) : Prop where
  fresh_key : s.keyAt (u, Collation.weight req.idempotencyKey) = none
  fresh_id : s.order env.orderID = none
  fresh_outbox : s.outboxOf env.orderID = none
  id_pos : 0 < env.orderID
  nodup : (req.items.map ItemRequest.productID).Nodup
  keys : s'.keyAt = Function.update s.keyAt (u, Collation.weight req.idempotencyKey)
    (some ⟨buildCreateOrderRequestHash req.items, some env.orderID, .orderAlreadyCreated⟩)
  orders : s'.order = Function.update s.order env.orderID (some row)
  owner : row.userID = u
  status : row.status = .pending
  items : s'.itemsOf = Function.update s.itemsOf env.orderID new
  lines : new.map OrderItem.line = req.items
  outboxes : s'.outboxOf =
    Function.update s.outboxOf env.orderID (some ⟨env.eventID, u, env.timeoutAt⟩)
  moved : Moved s s' logs
  movements : logs.map StockLog.movement = req.items.map (deduction env.orderID)

variable {u : Int} {req : CreateOrderRequest} {s s' : DB} {c : Created}

/-- The transaction after it has made the key. -/
theorem createNew_ok {env : CreateContext} {t : DB}
    (hkey : s.keyAt (u, Collation.weight req.idempotencyKey) = none)
    (ht : t = Store.set s (Key.idempotency u (Collation.weight req.idempotencyKey))
      (some ⟨buildCreateOrderRequestHash req.items, none, .orderBeingCreated⟩))
    (h : (createNew env u req).exec t = .ok (c, s')) :
    c = .created env.orderID ∧ ∃ row new logs, Placed env u req s s' row new logs ∧
      PricedItems env req.items new 0 row.totalAmountFen := by
  unfold createNew at h
  obtain ⟨v, s₁, h₁, h⟩ := Txn.exec_bind_ok h
  obtain ⟨hid, hpos, hs₁⟩ := insertOrder_ok h₁
  split at h
  · exact absurd h (by simp)
  · rename_i hnodup
    obtain ⟨total, s₂, h₂, h⟩ := Txn.exec_bind_ok h
    obtain ⟨new, logs, hloop, hpriced⟩ := createItems_ok _ h₂
    obtain ⟨v, s₃, h₃, h⟩ := Txn.exec_bind_ok h
    have horder : DB.order s₂ env.orderID = some ⟨u, env.orderNo, 0, .pending, Int.le_refl 0⟩ := by
      rw [hloop.orders, hs₁]
      simp
    obtain ⟨hnonneg, hs₃⟩ := patchOrderTotalPriceFen_ok horder rfl h₃
    obtain ⟨n, s₄, h₄, h⟩ := Txn.exec_bind_ok h
    have hbeing : DB.keyAt s₃ (u, Collation.weight req.idempotencyKey) =
        some ⟨buildCreateOrderRequestHash req.items, none, .orderBeingCreated⟩ := by
      rw [hs₃, DB.set_keyAt_of_ne _ _ (by simp), hloop.keys, hs₁, ht]
      simp
    rw [exec_completeOrderIdempotencyKey hbeing] at h₄
    obtain ⟨rfl, hs₄⟩ := Prod.mk.inj (Except.ok.inj h₄)
    simp only [ne_eq, not_true_eq_false, if_false] at h
    obtain ⟨v, s₅, h₅, h⟩ := Txn.exec_bind_ok h
    obtain ⟨hbox, hs₅⟩ := createOrderTimeoutOutbox_ok h₅
    obtain ⟨rfl, rfl⟩ := Prod.mk.inj (Except.ok.inj h)
    refine ⟨rfl, ⟨u, env.orderNo, total, .pending, hnonneg⟩, new, logs, ⟨hkey, ?_, ?_, hpos, ?_, ?_,
      ?_, rfl, rfl, ?_, hloop.lines, ?_, ?_, hloop.movements⟩, hpriced⟩
    · rw [ht] at hid
      simpa using hid
    · rw [← hs₄, hs₃, DB.set_outboxOf_of_ne _ _ (by simp), DB.set_outboxOf_of_ne _ _ (by simp),
        hloop.outboxes, hs₁, ht] at hbox
      simpa using hbox
    · simpa [hasDuplicateItems] using hnodup
    · rw [hs₅, ← hs₄, hs₃]
      simp [hloop.keys, hs₁, ht]
    · rw [hs₅, ← hs₄, hs₃]
      simp [hloop.orders, hs₁, ht]
    · rw [hs₅, ← hs₄, hs₃]
      simp [hloop.items, hs₁, ht]
    · rw [hs₅, ← hs₄, hs₃]
      simp [hloop.outboxes, hs₁, ht]
    · refine hloop.moved.congr ?_ ?_ ?_ ?_
      · rw [hs₁, ht]
        rfl
      · rw [hs₁, ht]
        simp
      · rw [hs₅, ← hs₄, hs₃]
        rfl
      · rw [hs₅, ← hs₄, hs₃]
        simp

/-- The transaction when the key is there. -/
theorem createAgain_ok (h : (createAgain u req).exec s = .ok (c, s')) :
    ∃ id, c = .existing id ∧ s' = s ∧ 0 < id ∧
      s.keyAt (u, Collation.weight req.idempotencyKey) =
        some ⟨buildCreateOrderRequestHash req.items, some id, .orderAlreadyCreated⟩ := by
  simp only [createAgain, exec_getKey_bind] at h
  split at h
  · exact absurd h (by simp)
  · rename_i record hrecord
    split at h
    · exact absurd h (by simp)
    · rename_i hhash
      split at h
      · rename_i hst
        split at h
        · exact absurd h (by simp)
        · rename_i id hid
          split at h
          · exact absurd h (by simp)
          · rename_i hpos
            obtain ⟨rfl, rfl⟩ := Prod.mk.inj (Except.ok.inj h)
            refine ⟨id, rfl, rfl, not_le.mp hpos, ?_⟩
            rw [hrecord, ← not_not.mp hhash, ← hid, ← hst]
      · exact absurd h (by simp)

/-- The user and the key of a call pass the checks that come before the transaction. -/
def Accepted (u : Int) (key : GoString) : Prop :=
  0 < u ∧ ¬ (trimSpace key = [] ∨ 128 < key.length)

/-- **`CreateOrder`** makes an order under a key that is new, or answers with the order of a key
that it finds, for the same request. -/
theorem createOrder_ok {env : CreateContext} (h : (createOrder env u req).exec s = .ok (c, s')) :
    Accepted u req.idempotencyKey ∧
      ((c = .created env.orderID ∧ ∃ row new logs, Placed env u req s s' row new logs ∧
        PricedItems env req.items new 0 row.totalAmountFen) ∨
      ∃ id, c = .existing id ∧ s' = s ∧ 0 < id ∧
        s.keyAt (u, Collation.weight req.idempotencyKey) =
          some ⟨buildCreateOrderRequestHash req.items, some id, .orderAlreadyCreated⟩) := by
  unfold createOrder at h
  split at h
  · exact absurd h (by simp)
  · rename_i hu
    split at h
    · exact absurd h (by simp)
    · rename_i hkey
      refine ⟨⟨not_le.mp hu, hkey⟩, ?_⟩
      cases hrow : s.keyAt (u, Collation.weight req.idempotencyKey) with
      | some row =>
        rw [Txn.exec_bind_of_ok _ (exec_tryCreate_found hrow)] at h
        rw [← hrow]
        exact Or.inr (createAgain_ok h)
      | none =>
        rw [Txn.exec_bind_of_ok _ (exec_tryCreate_new hrow)] at h
        exact Or.inl (createNew_ok hrow rfl h)

end

/-! ## 5. Cancelling an order -/

/-- The entry that returns an item. -/
def rollback (orderID : Int) (i : OrderItem) : Movement :=
  ⟨i.productID, i.quantity, .orderRollback, some orderID⟩

variable {id u : Int} {remark : GoString} {s s' snapshot : DB} {v : Unit}

/-- **The body of the item loop of `cancelPendingOrder`**: the stock goes up, and the move is
logged. -/
theorem rollbackItem_ok {i : OrderItem} {u : Unit}
    (h : (rollbackItem id remark i).exec s = .ok (u, s')) :
    ∃ (row' : Inventory) (l : StockLog), l.movement = rollback id i ∧
      l.beforeQuantity = s.stock i.productID ∧ l.afterQuantity = row'.stockQuantity ∧
      s' = Store.push (Store.set s (Key.inventory i.productID) (some row')) l := by
  simp only [rollbackItem, exec_getInventory_bind] at h
  split at h
  · exact absurd h (by simp)
  · rename_i row hrow
    obtain ⟨v, t, ht, h⟩ := Txn.exec_bind_ok h
    obtain ⟨row', hq, rfl⟩ := updateInventoryStockQuantity_ok ht
    obtain ⟨l, hm, hbefore, hafter, -, rfl⟩ := createStockLog_ok h
    exact ⟨row', l, hm, hbefore.trans (DB.stock_of_inventory hrow).symm, hafter.trans hq.symm, rfl⟩

/-- What the item loop of `cancelPendingOrder` does. -/
structure RolledBack (id : Int) (items : List OrderItem) (s s' : DB) (logs : List StockLog) :
    Prop where
  keys : s'.keyAt = s.keyAt
  orders : s'.order = s.order
  items_eq : s'.itemsOf = s.itemsOf
  outboxes : s'.outboxOf = s.outboxOf
  moved : Moved s s' logs
  movements : logs.map StockLog.movement = items.map (rollback id)

/-- **The item loop of `cancelPendingOrder`.** -/
theorem rollbackItems_ok : ∀ (items : List OrderItem) {s s' : DB}
    {u : Unit}, (rollbackItems id remark items).exec s = .ok (u, s') →
    ∃ logs, RolledBack id items s s' logs
  | [], s, s', u, h => by
    obtain ⟨-, rfl⟩ := Prod.mk.inj (Except.ok.inj h)
    exact ⟨[], rfl, rfl, rfl, rfl, moved_nil rfl rfl, rfl⟩
  | i :: items, s, s', u, h => by
    rw [rollbackItems] at h
    obtain ⟨v, t, hi, h⟩ := Txn.exec_bind_ok h
    obtain ⟨logs, hrest⟩ := rollbackItems_ok items h
    obtain ⟨row', l, hm, hbefore, hafter, rfl⟩ := rollbackItem_ok hi
    have hone : Moved s (Store.push (Store.set s (Key.inventory i.productID) (some row')) l) [l] :=
      moved_single (p := i.productID) (congrArg Movement.productID hm) hbefore hafter rfl (by simp)
    refine ⟨l :: logs, ?_, ?_, ?_, ?_, hone.trans hrest.moved, ?_⟩
    · rw [hrest.keys]
      simp
    · rw [hrest.orders]
      simp
    · rw [hrest.items_eq]
      simp
    · rw [hrest.outboxes]
      simp
    · rw [List.map_cons, hm, hrest.movements, List.map_cons]

/-- A cancellation that finds the order pending.  Its items are those of the snapshot. -/
structure Cancelled (snapshot s s' : DB) (id : Int) (row : Order) (logs : List StockLog) :
    Prop where
  seen : (snapshot.order id).isSome
  found : s.order id = some row
  pending : row.status = .pending
  keys : s'.keyAt = s.keyAt
  orders : s'.order = Function.update s.order id (some { row with status := .cancelled })
  items : s'.itemsOf = s.itemsOf
  outboxes : s'.outboxOf = s.outboxOf
  moved : Moved s s' logs
  movements : logs.map StockLog.movement = (snapshot.itemsOf id).map (rollback id)

theorem cancelPendingOrder_ok {order : Order} {b : Bool} (hseen : snapshot.order id = some order)
    (h : (cancelPendingOrder id order remark snapshot).exec s = .ok (b, s')) :
    s' = s ∨ ∃ row logs, Cancelled snapshot s s' id row logs := by
  unfold cancelPendingOrder at h
  obtain ⟨n, t, ht, hrest⟩ := Txn.exec_bind_ok h
  rcases patchOrderStatus_ok ht with ⟨rfl, rfl⟩ | ⟨rfl, row, hrow, -, hst, rfl⟩
  · exact Or.inl (Prod.mk.inj (Except.ok.inj hrest)).2.symm
  · simp only [Nat.one_ne_zero, if_false] at hrest
    obtain ⟨v, t, hloop, hend⟩ := Txn.exec_bind_ok hrest
    obtain ⟨logs, hr⟩ := rollbackItems_ok _ hloop
    obtain ⟨-, rfl⟩ := Prod.mk.inj (Except.ok.inj hend)
    refine Or.inr ⟨row, logs, by simp [hseen], hrow, hst, ?_, ?_, ?_, ?_, ?_, hr.movements⟩
    · rw [hr.keys]
      simp
    · rw [hr.orders]
      simp
    · rw [hr.items_eq]
      simp
    · rw [hr.outboxes]
      simp
    · exact hr.moved.congr rfl (by simp) rfl rfl

theorem getOrderByID_eq_some {row : Order} (h : getOrderByID s u id = some row) :
    s.order id = some row ∧ row.userID = u := by
  obtain ⟨hrow, hu⟩ := Option.filter_eq_some_iff.mp h
  exact ⟨hrow, by simpa using hu⟩

theorem cancelOrder_ok (h : (cancelOrder u id snapshot).exec s = .ok (v, s')) :
    s' = s ∨ ∃ row logs, Cancelled snapshot s s' id row logs := by
  unfold cancelOrder at h
  split at h
  · exact absurd h (by simp)
  · rename_i order horder
    split at h
    · exact Or.inl (Prod.mk.inj (Except.ok.inj h)).2.symm
    · exact absurd h (by simp)
    · exact absurd h (by simp)
    · obtain ⟨b, t, hc, h⟩ := Txn.exec_bind_ok h
      split at h
      · obtain ⟨-, rfl⟩ := Prod.mk.inj (Except.ok.inj h)
        exact cancelPendingOrder_ok (getOrderByID_eq_some horder).1 hc
      · exact absurd h (by simp)

theorem cancelExpiredOrder_ok [Collation] {eventID : GoString} {now : Int}
    (h : (cancelExpiredOrder eventID id now snapshot).exec s = .ok (v, s')) :
    s' = s ∨ ∃ row logs, Cancelled snapshot s s' id row logs := by
  unfold cancelExpiredOrder at h
  split at h
  · exact Or.inl (Prod.mk.inj (Except.ok.inj h)).2.symm
  · split at h
    · exact absurd h (by simp)
    · split at h
      · exact Or.inl (Prod.mk.inj (Except.ok.inj h)).2.symm
      · rename_i order horder
        split at h
        · exact Or.inl (Prod.mk.inj (Except.ok.inj h)).2.symm
        · obtain ⟨b, t, hc, h⟩ := Txn.exec_bind_ok h
          obtain ⟨-, rfl⟩ := Prod.mk.inj (Except.ok.inj h)
          exact cancelPendingOrder_ok horder hc

/-! ## 6. Paying and finishing -/

/-- The status of an order moves. -/
structure Patched (s s' : DB) (id : Int) (row : Order) (st : OrderStatus) : Prop where
  found : s.order id = some row
  live : row.status ≠ .cancelled
  kept : st ≠ .cancelled
  keys : s'.keyAt = s.keyAt
  orders : s'.order = Function.update s.order id (some { row with status := st })
  items : s'.itemsOf = s.itemsOf
  outboxes : s'.outboxOf = s.outboxOf
  moved : Moved s s' []

theorem patched_of_ok {st st' : OrderStatus} {err : Err} (hst : st ≠ .cancelled)
    (hst' : st' ≠ .cancelled)
    (h : (patchOrderStatus u id st st' >>= fun row =>
      if row = 0 then Txn.fail err else pure ()).exec s = .ok (v, s')) :
    ∃ row, Patched s s' id row st' := by
  obtain ⟨n, t, ht, h⟩ := Txn.exec_bind_ok h
  rcases patchOrderStatus_ok ht with ⟨rfl, -⟩ | ⟨rfl, row, hrow, -, hs, rfl⟩
  · exact absurd h (by simp)
  · obtain ⟨-, rfl⟩ := Prod.mk.inj (Except.ok.inj h)
    exact ⟨row, hrow, hs ▸ hst, hst', by simp, by simp, by simp, by simp, moved_nil rfl (by simp)⟩

theorem payOrder_ok (h : (payOrder u id snapshot).exec s = .ok (v, s')) :
    ∃ row, Patched s s' id row .paid := by
  unfold payOrder at h
  split at h
  · exact absurd h (by simp)
  · split at h
    · exact absurd h (by simp)
    · exact absurd h (by simp)
    · exact absurd h (by simp)
    · exact patched_of_ok (by simp) (by simp) h

theorem finishOrder_ok (h : (finishOrder u id snapshot).exec s = .ok (v, s')) :
    ∃ row, Patched s s' id row .finished := by
  unfold finishOrder at h
  split at h
  · exact absurd h (by simp)
  · split at h
    · exact absurd h (by simp)
    · exact absurd h (by simp)
    · exact absurd h (by simp)
    · exact patched_of_ok (by simp) (by simp) h

/-! ## 7. Every request -/

/-- What a request supplies of a product. -/
def Request.supply (p : Int) : Request → Int
  | .initInventory _ req => if p = req.productID then req.stockQuantity else 0
  | .addInventory _ req => if p = req.productID then req.quantity else 0
  | .createOrder _ _ _ => 0
  | .payOrder _ _ => 0
  | .finishOrder _ _ => 0
  | .cancelOrder _ _ => 0
  | .cancelExpiredOrder _ _ _ => 0

/-- A request for an order that is there. -/
def Request.settles : Request → Prop
  | .initInventory _ _ => False
  | .addInventory _ _ => False
  | .createOrder _ _ _ => False
  | .payOrder _ _ => True
  | .finishOrder _ _ => True
  | .cancelOrder _ _ => True
  | .cancelExpiredOrder _ _ _ => True

/-- An operation that is followed by its answer. -/
theorem exec_answer {α : Type} {p : Tx α} {f : α → Answer} {a : Answer}
    (h : (p >>= fun x => pure (f x)).exec s = .ok (a, s')) :
    ∃ x, p.exec s = .ok (x, s') ∧ a = f x := by
  obtain ⟨x, t, hp, h⟩ := Txn.exec_bind_ok h
  obtain ⟨rfl, rfl⟩ := Prod.mk.inj (Except.ok.inj h)
  exact ⟨x, hp, rfl⟩

section

variable [Collation] [Digest]

/-- What a request does that commits with an answer. -/
inductive Effect (snapshot s : DB) : Request → Answer → DB → Prop
  | supplied {req : Request} {p q : Int} {biz : StockBiz} {logs : List StockLog} {s' : DB}
      (hreq : ∀ p', req.supply p' = if p' = p then q else 0) (hs : Supplied s s' p q biz logs)
      (hbiz : biz = .init ∨ biz = .manualAdd) : Effect snapshot s req .done s'
  | placed {env : CreateContext} {u : Int} {req : CreateOrderRequest} {row : Order}
      {new : List OrderItem} {logs : List StockLog} {s' : DB}
      (hacc : Accepted u req.idempotencyKey) (hp : Placed env u req s s' row new logs) :
      Effect snapshot s (.createOrder env u req) (.order (.created env.orderID)) s'
  | existing {env : CreateContext} {u : Int} {req : CreateOrderRequest} {id : Int}
      (hpos : 0 < id) (hkey : s.keyAt (u, Collation.weight req.idempotencyKey) =
        some ⟨buildCreateOrderRequestHash req.items, some id, .orderAlreadyCreated⟩) :
      Effect snapshot s (.createOrder env u req) (.order (.existing id)) s
  | patched {req : Request} {id : Int} {row : Order} {st : OrderStatus} {s' : DB}
      (hreq : req.settles) (hp : Patched s s' id row st) : Effect snapshot s req .done s'
  | cancelled {req : Request} {id : Int} {row : Order} {logs : List StockLog} {s' : DB}
      (hreq : req.settles) (hc : Cancelled snapshot s s' id row logs) :
      Effect snapshot s req .done s'
  | kept {req : Request} (hreq : req.settles) : Effect snapshot s req .done s

theorem effect_of_cancel {snapshot s s' : DB} {req : Request} {id : Int} (hreq : req.settles)
    (h : s' = s ∨ ∃ row logs, Cancelled snapshot s s' id row logs) :
    Effect snapshot s req .done s' := by
  rcases h with rfl | ⟨row, logs, hc⟩
  · exact .kept hreq
  · exact .cancelled hreq hc

/-- **What a committed request does.** -/
theorem prog_effect {snapshot s s' : DB} {req : Request} {a : Answer}
    (h : (req.prog snapshot).exec s = .ok (a, s')) : Effect snapshot s req a s' := by
  cases req with
  | initInventory product req =>
    obtain ⟨v, hx, rfl⟩ := exec_answer h
    obtain ⟨logs, hs⟩ := initInventory_ok hx
    exact .supplied (fun p' => rfl) hs (Or.inl rfl)
  | addInventory product req =>
    obtain ⟨v, hx, rfl⟩ := exec_answer h
    obtain ⟨logs, hs⟩ := addInventory_ok hx
    exact .supplied (fun p' => rfl) hs (Or.inr rfl)
  | createOrder env u req =>
    obtain ⟨c, hx, rfl⟩ := exec_answer h
    obtain ⟨hacc, ⟨rfl, row, new, logs, hp, -⟩ | ⟨id, rfl, rfl, hpos, hkey⟩⟩ := createOrder_ok hx
    · exact .placed hacc hp
    · exact .existing hpos hkey
  | payOrder u id =>
    obtain ⟨v, hx, rfl⟩ := exec_answer h
    obtain ⟨row, hp⟩ := payOrder_ok hx
    exact .patched trivial hp
  | finishOrder u id =>
    obtain ⟨v, hx, rfl⟩ := exec_answer h
    obtain ⟨row, hp⟩ := finishOrder_ok hx
    exact .patched trivial hp
  | cancelOrder u id =>
    obtain ⟨v, hx, rfl⟩ := exec_answer h
    exact effect_of_cancel trivial (cancelOrder_ok hx)
  | cancelExpiredOrder eventID id now =>
    obtain ⟨v, hx, rfl⟩ := exec_answer h
    exact effect_of_cancel trivial (cancelExpiredOrder_ok hx)

end

end OrderSystem.Monolith
