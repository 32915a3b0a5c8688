/-
# Stock, orders and the stock log agree

Three tables of the monolith are tied together by every operation that moves stock, and stay so in
every interleaving:

* `Balanced` -- the stock of a product and what the orders that are not cancelled have of it make
  up all that was ever supplied;
* the stock log, read as a ledger, has posted the stock of every product from nothing
  (`Book.Posted`), so the entries of a product chain and end in its stock;
* `Returned` -- an order has one rollback entry for each item if it is cancelled, and none
  otherwise.

`CreateOrder` deducts with a conditional update and `cancelPendingOrder` writes an absolute value
that it has computed from a locked read; under row locks both are the `Moved` of `Spec.lean`.
Cancelling reads the order and its items without a lock, so what it puts back are the items of its
snapshot.  They are the order's items still, because an order keeps its items (`Keeps`).

The entries of a product are in lock order: a transaction keeps the row of a product that it has
moved until it commits, and the log has the entries in the order of the commits.
-/
import OrderSystem.Monolith.Spec

namespace OrderSystem.Monolith

open OrderSystem.Kit

/-! ## 1. What orders have -/

/-- What an order that is not cancelled has of a product. -/
def DB.ordered (s : DB) (p : Int) (id : Int) : Int :=
  match s.order id with
  | some row => if row.status = .cancelled then 0 else lineSum ((s.itemsOf id).map OrderItem.line) p
  | none => 0

/-- The rollback entries that an order should have. -/
def DB.returns (s : DB) (id : Int) : List Movement :=
  match s.order id with
  | some row => if row.status = .cancelled then (s.itemsOf id).map (rollback id) else []
  | none => []

/-- The initial quantity of a product and all quantities added, over the requests that have
committed. -/
def supplied (history : List (Request × Answer)) (p : Int) : Int :=
  (history.map fun e => e.1.supply p).sum

theorem supplied_snoc (H : List (Request × Answer)) (req : Request) (a : Answer) (p : Int) :
    supplied (H ++ [(req, a)]) p = supplied H p + req.supply p := by
  simp [supplied]

theorem supply_of_settles {req : Request} (h : req.settles) (p : Int) : req.supply p = 0 := by
  cases req with
  | initInventory product req => exact absurd h id
  | addInventory product req => exact absurd h id
  | createOrder env u req => exact absurd h id
  | payOrder u id => rfl
  | finishOrder u id => rfl
  | cancelOrder u id => rfl
  | cancelExpiredOrder eventID id now => rfl

theorem moved_rollback (p id : Int) (items : List OrderItem) :
    moved p (items.map (rollback id)) = lineSum (items.map OrderItem.line) p := by
  induction items with
  | nil => rfl
  | cons i items ih =>
    rw [List.map_cons, moved_cons, ih, List.map_cons, lineSum_cons]
    rfl

/-! ## 2. An order keeps its items -/

/-- The orders of the first state are in the second, with the same items. -/
def Keeps (s s' : DB) : Prop :=
  ∀ id, (s.order id).isSome → (s'.order id).isSome ∧ s'.itemsOf id = s.itemsOf id

theorem Keeps.trans {s t s' : DB} (h : Keeps s t) (h' : Keeps t s') : Keeps s s' := by
  intro id hid
  obtain ⟨ht, hitems⟩ := h id hid
  obtain ⟨hs, hitems'⟩ := h' id ht
  exact ⟨hs, hitems'.trans hitems⟩

/-- One order row is written and the items are left alone. -/
theorem keeps_update {s s' : DB} {id : Int} {row : Order}
    (ho : s'.order = Function.update s.order id (some row)) (hi : s'.itemsOf = s.itemsOf) :
    Keeps s s' := by
  intro id' hid
  refine ⟨?_, by rw [hi]⟩
  by_cases h : id' = id
  · subst h
    simp [ho]
  · simpa [ho, h] using hid

section

variable [Collation] [Digest]

theorem keeps_effect {snapshot s s' : DB} {req : Request} {a : Answer}
    (he : Effect snapshot s req a s') : Keeps s s' := by
  cases he with
  | supplied hreq hs hbiz => exact fun id hid => ⟨by rw [hs.orders]; exact hid, by rw [hs.items]⟩
  | @placed env u req row new logs s' hacc hp =>
    intro id hid
    -- the new order is another one
    have hne : id ≠ env.orderID := by
      rintro rfl
      rw [hp.fresh_id] at hid
      exact absurd hid (by simp)
    exact ⟨by simpa [hp.orders, hne] using hid, by simp [hp.items, hne]⟩
  | existing hpos hkey => exact fun id hid => ⟨hid, rfl⟩
  | patched hreq hp => exact keeps_update hp.orders hp.items
  | cancelled hreq hc => exact keeps_update hc.orders hc.items
  | kept hreq => exact fun id hid => ⟨hid, rfl⟩

end

/-! ## 3. The balance -/

/-- `os` is the set of the orders that exist. -/
def Lists (s : DB) (os : Finset Int) : Prop := ∀ id, id ∈ os ↔ (s.order id).isSome

/-- Every product is balanced. -/
def Balanced (history : List (Request × Answer)) (s : DB) : Prop :=
  ∃ os, Lists s os ∧ ∀ p, s.stock p + ∑ id ∈ os, s.ordered p id = supplied history p

theorem balanced_empty : Balanced [] DB.empty := by
  refine ⟨∅, fun id => by simp [DB.empty, DB.order], fun p => ?_⟩
  simp [DB.empty, DB.stock, DB.inventory, supplied]

variable {H : List (Request × Answer)} {s s' : DB} {req : Request} {a : Answer} {id : Int}
  {row : Order}

/-- Nothing happens to orders. -/
theorem Balanced.stock (h : Balanced H s) (ho : s'.order = s.order) (hi : s'.itemsOf = s.itemsOf)
    (hs : ∀ p, s'.stock p = s.stock p + req.supply p) : Balanced (H ++ [(req, a)]) s' := by
  obtain ⟨os, hl, hb⟩ := h
  refine ⟨os, fun id => by rw [ho]; exact hl id, fun p => ?_⟩
  have hord : s'.ordered p = s.ordered p := by
    funext id
    simp only [DB.ordered, ho, hi]
  have hbp := hb p
  rw [hord, hs p, supplied_snoc]
  omega

/-- One order is written, and the stock moves by what that changes. -/
theorem Balanced.order (h : Balanced H s) (hreq : ∀ p, req.supply p = 0)
    (ho : s'.order = Function.update s.order id (some row))
    (hi : ∀ id', id' ≠ id → s'.itemsOf id' = s.itemsOf id')
    (hs : ∀ p, s'.stock p + s'.ordered p id = s.stock p + s.ordered p id) :
    Balanced (H ++ [(req, a)]) s' := by
  obtain ⟨os, hl, hb⟩ := h
  refine ⟨insert id os, fun id' => ?_, fun p => ?_⟩
  · by_cases hid : id' = id
    · subst hid
      simp [ho]
    · simp [ho, hid, hl id']
  · have hother : ∀ id', id' ≠ id → s'.ordered p id' = s.ordered p id' := by
      intro id' hid
      simp only [DB.ordered, ho, Function.update_of_ne hid, hi id' hid]
    have hnew : id ∉ os → s.ordered p id = 0 := by
      intro hid
      rw [hl id, Option.not_isSome_iff_eq_none] at hid
      simp only [DB.ordered, hid]
    have hbp := hb p
    have hsp := hs p
    rw [sum_insert_eq hother hnew, supplied_snoc, hreq p]
    omega

theorem Balanced.patched {st : OrderStatus} (h : Balanced H s) (hreq : req.settles)
    (hp : Patched s s' id row st) : Balanced (H ++ [(req, a)]) s' := by
  refine h.order (supply_of_settles hreq) hp.orders (fun id' _ => by rw [hp.items]) fun p => ?_
  have hstock := hp.moved.stock p
  have hord : s'.ordered p id = s.ordered p id := by
    simp only [DB.ordered, hp.orders, Function.update_self, hp.found, hp.items, if_neg hp.live,
      if_neg hp.kept]
  rw [hord, hstock]
  simp [moved]

theorem Balanced.cancelled {snapshot : DB} {logs : List StockLog} (h : Balanced H s)
    (hreq : req.settles) (hkeeps : Keeps snapshot s) (hc : Cancelled snapshot s s' id row logs) :
    Balanced (H ++ [(req, a)]) s' := by
  refine h.order (supply_of_settles hreq) hc.orders (fun id' _ => by rw [hc.items]) fun p => ?_
  have hstock := hc.moved.stock p
  -- what goes back to stock is what the order had
  rw [hc.movements, ← (hkeeps id hc.seen).2, moved_rollback] at hstock
  have hbefore : s.ordered p id = lineSum ((s.itemsOf id).map OrderItem.line) p := by
    simp [DB.ordered, hc.found, hc.pending]
  have hafter : s'.ordered p id = 0 := by
    simp [DB.ordered, hc.orders]
  omega

section

variable [Collation] [Digest]

theorem Balanced.placed {H : List (Request × Answer)} {env : CreateContext} {u : Int}
    {req : CreateOrderRequest} {s s' : DB} {a : Answer} {row : Order} {new : List OrderItem}
    {logs : List StockLog} (h : Balanced H s) (hp : Placed env u req s s' row new logs) :
    Balanced (H ++ [(.createOrder env u req, a)]) s' := by
  refine h.order (fun p => rfl) hp.orders (fun id' hid => by simp [hp.items, hid]) fun p => ?_
  have hstock := hp.moved.stock p
  rw [hp.movements, moved_deduction] at hstock
  have hbefore : s.ordered p env.orderID = 0 := by
    simp [DB.ordered, hp.fresh_id]
  have hafter : s'.ordered p env.orderID = lineSum req.items p := by
    simp [DB.ordered, hp.orders, hp.items, hp.lines, hp.status]
  omega

/-- **A committed request keeps the balance.** -/
theorem Balanced.effect {H : List (Request × Answer)} {snapshot s s' : DB} {req : Request}
    {a : Answer} (h : Balanced H s) (hkeeps : Keeps snapshot s)
    (he : Effect snapshot s req a s') : Balanced (H ++ [(req, a)]) s' := by
  cases he with
  | supplied hreq hs hbiz =>
    refine h.stock hs.orders hs.items fun p => ?_
    rw [hs.moved.stock, hs.movements, hreq]
    simp [moved, eq_comm]
  | placed hacc hp => exact h.placed hp
  | existing hpos hkey => exact h.stock rfl rfl fun p => (Int.add_zero _).symm
  | patched hreq hp => exact h.patched hreq hp
  | cancelled hreq hc => exact h.cancelled hreq hkeeps hc
  | kept hreq => exact h.stock rfl rfl fun p => by rw [supply_of_settles hreq, Int.add_zero]

/-! ## 4. The log -/

/-- **A committed request moves the stock as its entries say.** -/
theorem Effect.moved {snapshot s s' : DB} {req : Request} {a : Answer}
    (he : Effect snapshot s req a s') : ∃ logs, Moved s s' logs := by
  cases he with
  | supplied hreq hs hbiz => exact ⟨_, hs.moved⟩
  | placed hacc hp => exact ⟨_, hp.moved⟩
  | existing hpos hkey => exact ⟨_, moved_nil rfl rfl⟩
  | patched hreq hp => exact ⟨_, hp.moved⟩
  | cancelled hreq hc => exact ⟨_, hc.moved⟩
  | kept hreq => exact ⟨_, moved_nil rfl rfl⟩

end

/-- The log has posted the stock. -/
def Recorded (s : DB) : Prop := stockBook.Posted (fun _ => 0) (Store.log s) s.stock

variable {s s' : DB} {logs : List StockLog}

theorem Recorded.moved (h : Recorded s) (hm : Moved s s' logs) :
    Recorded s' := by
  rw [Recorded, hm.log]
  exact Book.posted_append h hm.posted

/-- Every order has the rollback entries it should have. -/
def Returned (s : DB) : Prop := ∀ id, s.movements .orderRollback id = s.returns id

/-- No order changes and no rollback is logged. -/
theorem Returned.same (h : Returned s) (ho : s'.order = s.order) (hi : s'.itemsOf = s.itemsOf)
    (hm : Moved s s' logs) (hl : ∀ m ∈ logs.map StockLog.movement, m.bizType ≠ .orderRollback) :
    Returned s' := by
  intro id
  have hnone : (logs.map StockLog.movement).filter
      (fun m => m.bizType = .orderRollback ∧ m.bizID = some id) = [] := by
    rw [List.filter_eq_nil_iff]
    intro m hmem
    simp [hl m hmem]
  rw [hm.movements, hnone, List.append_nil, h id]
  simp only [DB.returns, ho, hi]

theorem Returned.patched {id : Int} {row : Order} {st : OrderStatus} (h : Returned s)
    (hp : Patched s s' id row st) : Returned s' := by
  intro id'
  rw [hp.moved.movements, List.map_nil, List.filter_nil, List.append_nil, h id']
  by_cases hid : id' = id
  · subst hid
    simp [DB.returns, hp.found, hp.orders, hp.live, hp.kept]
  · simp [DB.returns, hp.orders, hp.items, hid]

theorem Returned.cancelled {snapshot : DB} {id : Int} {row : Order} (h : Returned s)
    (hkeeps : Keeps snapshot s) (hc : Cancelled snapshot s s' id row logs) :
    Returned s' := by
  intro id'
  rw [hc.moved.movements, hc.movements, filter_movements (f := rollback id) (fun i => ⟨rfl, rfl⟩),
    h id', ← (hkeeps id hc.seen).2]
  by_cases hid : id' = id
  · subst hid
    simp [DB.returns, hc.found, hc.pending, hc.orders, hc.items]
  · simp [DB.returns, hc.orders, hc.items, hid, Ne.symm hid]

section

variable [Collation] [Digest]

theorem Returned.placed {env : CreateContext} {u : Int} {req : CreateOrderRequest} {s s' : DB}
    {row : Order} {new : List OrderItem} {logs : List StockLog} (h : Returned s)
    (hp : Placed env u req s s' row new logs) : Returned s' := by
  intro id
  rw [hp.moved.movements, hp.movements,
    filter_movements (f := deduction env.orderID) (fun i => ⟨rfl, rfl⟩), h id]
  by_cases hid : id = env.orderID
  · subst hid
    simp [DB.returns, hp.fresh_id, hp.orders, hp.status]
  · simp [DB.returns, hp.orders, hp.items, hid]

/-- **A committed request keeps the rollback entries.** -/
theorem Returned.effect {snapshot s s' : DB} {req : Request} {a : Answer} (h : Returned s)
    (hkeeps : Keeps snapshot s) (he : Effect snapshot s req a s') : Returned s' := by
  cases he with
  | supplied hreq hs hbiz =>
    refine h.same hs.orders hs.items hs.moved fun m hm => ?_
    rw [hs.movements, List.mem_singleton] at hm
    rw [hm]
    rcases hbiz with rfl | rfl
    · simp
    · simp
  | placed hacc hp => exact h.placed hp
  | existing hpos hkey => exact h
  | patched hreq hp => exact h.patched hp
  | cancelled hreq hc => exact h.cancelled hkeeps hc
  | kept hreq => exact h

/-! ## 5. Every run -/

/-- What every run of the monolith keeps of its stock. -/
structure Stocked (history : List (Request × Answer)) (s : DB) : Prop where
  balanced : Balanced history s
  recorded : Recorded s
  returned : Returned s

theorem stocked_run {es : List (LockEvent Request)} {s : System}
    (h : run step start es = some s) : Stocked s.history s.store := by
  refine (locking_invariant (I := Stocked) (R := Keeps)
    ⟨balanced_empty, rfl, fun _ => rfl⟩ (fun _ _ hid => ⟨hid, rfl⟩) ?_ h).holds
  intro H S req snap a S' hS hkeeps hexec
  have he := prog_effect hexec
  obtain ⟨logs, hm⟩ := he.moved
  exact ⟨⟨hS.balanced.effect hkeeps he, hS.recorded.moved hm, hS.returned.effect hkeeps he⟩,
    fun T hT => hT.trans (keeps_effect he)⟩

/-- **Stock, orders and the stock log agree.**  In every run of the monolith, over any interleaving
of the statements of its transactions, and for every product: its stock is not negative, and is
what was supplied less what the orders that are not cancelled have of it; its log entries, which
each go from `before` to `before + change`, chain from zero to the stock.  A cancelled order has
one rollback entry for each of its items, and any other order has none. -/
theorem stock_matches_orders (es : List (LockEvent Request)) (s : System)
    (h : run step start es = some s) :
    (∀ p, 0 ≤ DB.stock s.store p) ∧
    (∃ os : Finset Int, (∀ id, id ∈ os ↔ (DB.order s.store id).isSome) ∧
      ∀ p, DB.stock s.store p = supplied s.history p - ∑ id ∈ os, DB.ordered s.store p id) ∧
    (∀ l ∈ s.store.log, l.afterQuantity = l.beforeQuantity + l.changeQuantity) ∧
    (∀ p, stockBook.Chained 0 (stockBook.entries p s.store.log) (DB.stock s.store p)) ∧
    ∀ id row, DB.order s.store id = some row →
      (row.status = .cancelled → DB.movements s.store .orderRollback id =
        (DB.itemsOf s.store id).map (rollback id)) ∧
      (row.status ≠ .cancelled → DB.movements s.store .orderRollback id = []) := by
  have hS := stocked_run h
  refine ⟨DB.stock_nonneg s.store, ?_, fun l _ => l.balance,
    fun p => Book.chained_of_posted p hS.recorded,
    fun id row hrow => ⟨fun hst => ?_, fun hst => ?_⟩⟩
  · obtain ⟨os, hl, hb⟩ := hS.balanced
    refine ⟨os, hl, fun p => ?_⟩
    have hbp := hb p
    omega
  · rw [hS.returned id]
    simp [DB.returns, hrow, hst]
  · rw [hS.returned id]
    simp [DB.returns, hrow, hst]

end

/-- Three of ten pens are ordered, and the order is cancelled. -/
def cancelling : List (LockEvent Request) :=
  stocking ++ starts 1 (orderOf 9 0x6B [⟨1, 3⟩]) ++
  List.replicate 17 (.stmt 1) ++ [.commit 1, .start 2 (.cancelOrder 7 9)] ++
  List.replicate 6 (.stmt 2) ++ [.commit 2]

theorem stock_matches_orders_cancelling :
    letI := asciiCi
    letI := tallyDigest
    ∃ s : System, run step start cancelling = some s ∧ DB.stock s.store 1 = 10 ∧
      DB.movements s.store .orderRollback 9 = [⟨1, 3, .orderRollback, some 9⟩] ∧
      stockBook.Chained 0 (stockBook.entries 1 s.store.log) 10 := by
  let _ : Collation := asciiCi
  let _ : Digest := tallyDigest
  have h : (run step start cancelling).map (fun s =>
      (DB.stock s.store 1, DB.movements s.store .orderRollback 9)) =
      some (10, [⟨1, 3, .orderRollback, some 9⟩]) := by decide +kernel
  obtain ⟨s, hs, hv⟩ := Option.map_eq_some_iff.mp h
  obtain ⟨hstock, hrollback⟩ := Prod.mk.inj hv
  have hchain := (stock_matches_orders cancelling s hs).2.2.2.1 1
  rw [hstock] at hchain
  exact ⟨s, hs, hstock, hrollback, hchain⟩

end OrderSystem.Monolith
