/-
# When the monolith does not deadlock

A transaction of the monolith locks its idempotency key, its order and then the stock rows of its
items.  `CreateOrder` takes the stock rows in the order in which the client lists the items, and a
cancellation in the order in which they are stored, which is the same.  Nothing sorts them.  So two
requests that list two products in opposite orders can each hold the row that the other one waits
for (`opposite`), where the inventory service, which sorts, cannot
(`InventorySvc/LockOrder.lean`).

What is true is that the order of the items is the only reason.  If there is a ranking of the
products in which every request lists its items upwards, then every transaction takes all its rows
in one order (`Key.rank`): the key, the order, its items, the stock rows by the rank of the product,
and the outbox row.  For a cancellation this rests on the stored items, so it is a property of
the committed states (`Upward`) and not of the program alone.
-/
import OrderSystem.Monolith.Spec
import OrderSystem.InventorySvc.LockOrder

namespace OrderSystem.Monolith

open OrderSystem.Kit

/-! ## 1. The lock order -/

/-- **The lock order**, for a ranking of the products. -/
def Key.rank (rank : Int → Int) : Key → ℕ ×ₗ ℤ
  | .idempotency _ _ => toLex (0, 0)
  | .order _ => toLex (1, 0)
  | .items _ => toLex (2, 0)
  | .inventory productID => toLex (3, rank productID)
  | .outbox _ => toLex (4, 0)

/-- The kind of a row, which comes first in its rank. -/
def Key.level : Key → ℕ
  | .idempotency _ _ => 0
  | .order _ => 1
  | .items _ => 2
  | .inventory _ => 3
  | .outbox _ => 4

theorem rank_lt_of_level {rank : Int → Int} {k k' : Key} (h : k.level < k'.level) :
    k.rank rank < k'.rank rank := by
  cases k <;> cases k' <;> simp_all [Key.rank, Key.level, Prod.Lex.toLex_lt_toLex]

theorem rank_lt_of_product {rank : Int → Int} {p p' : Int} (h : rank p < rank p') :
    (Key.inventory p).rank rank < (Key.inventory p').rank rank := by
  simp [Key.rank, Prod.Lex.toLex_lt_toLex, h]

/-! ## 2. Statements on rows that are held -/

section

variable {rank : Int → Int}

variable {held : Set Key} {Q : Unit → Set Key → Prop} {id u : Int}

theorem locks_deductInventory {p q : Int} (hp : Key.inventory p ∈ held) {Q : Nat → Set Key → Prop}
    (hQ : ∀ n, Q n held) :
    Locks (Key.rank rank) (deductInventory p q) held Q := by
  simp only [deductInventory, getInventory, locks_bind, locks_get, Set.insert_eq_of_mem hp]
  refine ⟨Or.inl hp, fun row => ?_⟩
  split
  · exact hQ 0
  · split
    · split
      · trivial
      · simp only [setInventory, locks_bind, locks_set, Set.insert_eq_of_mem hp, locks_pure]
        exact ⟨Or.inl hp, hQ 1⟩
    · exact hQ 0

theorem locks_updateInventory {p q : Int} (hp : Key.inventory p ∈ held) (hQ : Q () held) :
    Locks (Key.rank rank) (updateInventoryStockQuantity p q) held Q := by
  simp only [updateInventoryStockQuantity, getInventory, locks_bind, locks_get,
    Set.insert_eq_of_mem hp]
  refine ⟨Or.inl hp, fun row => ?_⟩
  split
  · trivial
  · split
    · trivial
    · simp only [setInventory, locks_set, Set.insert_eq_of_mem hp]
      exact ⟨Or.inl hp, hQ⟩

theorem locks_createStockLog {log : Option StockLog} {err : Err} (hQ : Q () held) :
    Locks (Key.rank rank) (createStockLog log err) held Q := by
  unfold createStockLog
  split
  · trivial
  · exact hQ

theorem locks_createOrderItem {item : Option OrderItem} (hid : Key.items id ∈ held) (hQ : Q () held)
    :
    Locks (Key.rank rank) (createOrderItem id item) held Q := by
  unfold createOrderItem
  split
  · trivial
  · simp only [locks_bind, locks_get, locks_set, Set.insert_eq_of_mem hid]
    exact ⟨Or.inl hid, fun _ => ⟨Or.inl hid, hQ⟩⟩

theorem locks_patchOrderTotal {total : Int} (hid : Key.order id ∈ held) (hQ : Q () held) :
    Locks (Key.rank rank) (patchOrderTotalPriceFen id total u) held Q := by
  simp only [patchOrderTotalPriceFen, getOrder, locks_bind, locks_get, Set.insert_eq_of_mem hid]
  refine ⟨Or.inl hid, fun row => ?_⟩
  split
  · exact hQ
  · split
    · split
      · simp only [setOrder, locks_set, Set.insert_eq_of_mem hid]
        exact ⟨Or.inl hid, hQ⟩
      · trivial
    · exact hQ

theorem locks_completeKey {w : GoString} (hk : Key.idempotency u w ∈ held)
    {Q : Nat → Set Key → Prop} (hQ : ∀ n, Q n held) :
    Locks (Key.rank rank) (completeOrderIdempotencyKey u w id) held Q := by
  simp only [completeOrderIdempotencyKey, getKey, locks_bind, locks_get, Set.insert_eq_of_mem hk]
  refine ⟨Or.inl hk, fun row => ?_⟩
  split
  · exact hQ 0
  · split
    · simp only [setKey, locks_bind, locks_set, Set.insert_eq_of_mem hk, locks_pure]
      exact ⟨Or.inl hk, hQ 1⟩
    · exact hQ 0

/-! ## 3. Creating an order -/

/-- An iteration of the item loop of `CreateOrder` takes the row of its product. -/
theorem locks_createItem (env : CreateContext) (i : ItemRequest) (held : Set Key)
    (hitems : Key.items env.orderID ∈ held)
    (hbelow : ∀ k ∈ held, k.rank rank < (Key.inventory i.productID).rank rank) :
    Locks (Key.rank rank) (createItem env i) held fun _ h =>
      h = insert (Key.inventory i.productID) held := by
  have hstock : Key.inventory i.productID ∈ insert (Key.inventory i.productID) held :=
    Set.mem_insert _ _
  have hitems' : Key.items env.orderID ∈ insert (Key.inventory i.productID) held :=
    Set.mem_insert_of_mem _ hitems
  unfold createItem
  split
  · trivial
  · split
    · trivial
    · simp only [getInventory, locks_bind, locks_get]
      refine ⟨Or.inr hbelow, fun row => ?_⟩
      split
      · trivial
      · split
        · trivial
        · rw [locks_bind]
          refine locks_deductInventory hstock fun n => ?_
          split
          · trivial
          · simp only [locks_bind]
            exact locks_createOrderItem hitems' (locks_createStockLog rfl)

/-- The insert of an order takes its row and that of its items. -/
theorem locks_insertOrder {row : Order} {w : GoString} :
    Locks (Key.rank rank) (insertOrder id row) {Key.idempotency u w} fun _ held =>
      held = {Key.items id, Key.order id, Key.idempotency u w} := by
  have horder : Key.order id ∈ ({Key.order id, Key.idempotency u w} : Set Key) := by simp
  simp only [insertOrder, getOrder, locks_bind, locks_get]
  refine ⟨Or.inr ?_, fun row' => ?_⟩
  · rintro k rfl
    exact rank_lt_of_level (by simp [Key.level])
  · split
    · trivial
    · split
      · trivial
      · simp only [setOrder, locks_bind, locks_set, Set.insert_eq_of_mem horder]
        refine ⟨Or.inl horder, Or.inr ?_, trivial⟩
        rintro k (rfl | rfl)
        · exact rank_lt_of_level (by simp [Key.level])
        · exact rank_lt_of_level (by simp [Key.level])

/-- The request lists its items upwards; one with a product twice is refused before the loop. -/
def CreateOrderRequest.Upward (rank : Int → Int) (req : CreateOrderRequest) : Prop :=
  (req.items.map ItemRequest.productID).Nodup →
    req.items.Pairwise fun i j => rank i.productID < rank j.productID

section

variable [Collation] [Digest]

omit [Digest] in
theorem locks_createNew {env : CreateContext} {u : Int} {req : CreateOrderRequest}
    (hreq : req.Upward rank) :
    Locks (Key.rank rank) (createNew env u req)
      {Key.idempotency u (Collation.weight req.idempotencyKey)} fun _ _ => True := by
  unfold createNew
  simp only [locks_bind]
  refine locks_insertOrder.mono fun _ held heq => ?_
  split
  · trivial
  · rename_i hnodup
    have hsorted := hreq (by simpa [hasDuplicateItems] using hnodup)
    have hlevel : ∀ k ∈ held, k.level < 3 := by
      rw [heq]
      rintro k (rfl | rfl | rfl)
      · simp [Key.level]
      · simp [Key.level]
      · simp [Key.level]
    simp only [locks_bind]
    refine (locks_fold (fun i : ItemRequest => Key.inventory i.productID) held (createItems env)
      (fun total subtotal => wrap64 (total + subtotal)) id (fun _ => rfl) (fun _ _ _ => rfl)
      (fun i h hsub => locks_createItem env i h (hsub (by simp [heq]))) req.items 0 held ?_
      (Set.Subset.refl _) ?_).mono ?_
    · exact hsorted.imp rank_lt_of_product
    · exact fun i _ k hk => rank_lt_of_level (hlevel k hk)
    · rintro total held' ⟨hsub, hrows⟩
      refine locks_patchOrderTotal (hsub (by simp [heq])) ?_
      refine locks_completeKey (hsub (by simp [heq])) fun n => ?_
      split
      · trivial
      · -- the outbox row comes after everything that is held
        have hbelow : ∀ k ∈ held', k.rank rank < (Key.outbox env.orderID).rank rank := by
          intro k hk
          refine rank_lt_of_level ?_
          rcases hrows k hk with hk | ⟨i, -, rfl⟩
          · exact (hlevel k hk).trans (by simp [Key.level])
          · simp [Key.level]
        simp only [createOrderTimeoutOutbox, locks_bind, locks_get]
        refine ⟨Or.inr hbelow, fun row => ?_⟩
        split
        · trivial
        · simp only [locks_set, locks_pure, and_true]
          exact Or.inl (Set.mem_insert _ _)

theorem createOrder_ascends {env : CreateContext} {u : Int} {req : CreateOrderRequest}
    (hreq : req.Upward rank) : Ascends (Key.rank rank) (createOrder env u req) := by
  have hkey : Key.idempotency u (Collation.weight req.idempotencyKey) ∈
      ({Key.idempotency u (Collation.weight req.idempotencyKey)} : Set Key) := rfl
  unfold Ascends createOrder
  split
  · trivial
  · split
    · trivial
    · simp only [tryCreateOrderIdempotencyKey, getKey, locks_bind, locks_get, insert_empty_eq]
      refine ⟨Or.inr (by simp), fun row => ?_⟩
      split
      · -- the key is there, and is read again
        simp only [locks_pure, Bool.false_eq_true, if_false, createAgain, getKey, locks_bind,
          locks_get]
        refine ⟨Or.inl hkey, fun record => ?_⟩
        split
        · trivial
        · split
          · trivial
          · split
            · split
              · trivial
              · split
                · trivial
                · trivial
            · trivial
      · simp only [setKey, locks_bind, locks_set, locks_pure, if_true, Set.insert_eq_of_mem hkey]
        exact ⟨Or.inl hkey, locks_createNew hreq⟩

end

/-! ## 4. The other operations -/

theorem initInventory_ascends (product : Option Product) (req : InitInventoryRequest)
    (snapshot : DB) : Ascends (Key.rank rank) (initInventory product req snapshot) := by
  unfold Ascends initInventory
  split
  · trivial
  · split
    · trivial
    · simp only [getInventory, setInventory, locks_bind, locks_get]
      refine ⟨Or.inr (by simp), fun row => ?_⟩
      split
      · trivial
      · split
        · trivial
        · simp only [locks_bind, locks_set]
          exact ⟨Or.inl (Set.mem_insert _ _), locks_createStockLog trivial⟩

theorem addInventory_ascends (product : Option Product) (req : AddInventoryRequest) :
    Ascends (Key.rank rank) (addInventory product req) := by
  unfold Ascends addInventory
  simp only [getInventory, locks_bind, locks_get]
  refine ⟨Or.inr (by simp), fun row => ?_⟩
  split
  · trivial
  · split
    · trivial
    · simp only [locks_bind]
      exact locks_updateInventory (Set.mem_insert _ _) (locks_createStockLog trivial)

variable {u id : Int} {snapshot : DB}

/-- A change of status takes the row of the order. -/
theorem locks_patchOrderStatus {st st' : OrderStatus} :
    Locks (Key.rank rank) (patchOrderStatus u id st st') ∅ fun _ held => held = {Key.order id} := by
  have hid : Key.order id ∈ ({Key.order id} : Set Key) := rfl
  simp only [patchOrderStatus, getOrder, locks_bind, locks_get, insert_empty_eq]
  refine ⟨Or.inr (by simp), fun row => ?_⟩
  split
  · trivial
  · split
    · simp only [setOrder, locks_bind, locks_set, locks_pure, Set.insert_eq_of_mem hid, and_true]
      exact Or.inl hid
    · trivial

/-- An iteration of the item loop of `cancelPendingOrder` takes the row of its product. -/
theorem locks_rollbackItem (id : Int) (remark : GoString) (i : OrderItem) (held : Set Key)
    (hbelow : ∀ k ∈ held, k.rank rank < (Key.inventory i.productID).rank rank) :
    Locks (Key.rank rank) (rollbackItem id remark i) held fun _ h =>
      h = insert (Key.inventory i.productID) held := by
  unfold rollbackItem
  simp only [getInventory, locks_bind, locks_get]
  refine ⟨Or.inr hbelow, fun row => ?_⟩
  split
  · trivial
  · simp only [locks_bind]
    exact locks_updateInventory (Set.mem_insert _ _) (locks_createStockLog rfl)

/-- The items of every order are stored upwards. -/
def Upward (rank : Int → Int) (s : DB) : Prop :=
  ∀ id, (s.itemsOf id).Pairwise fun i j => rank i.productID < rank j.productID

theorem cancelPendingOrder_ascends {order : Order} {remark : GoString} (hup : Upward rank snapshot)
    :
    Ascends (Key.rank rank) (cancelPendingOrder id order remark snapshot) := by
  unfold Ascends cancelPendingOrder
  rw [locks_bind]
  refine locks_patchOrderStatus.mono fun rows held heq => ?_
  split
  · trivial
  · rw [locks_bind]
    refine (locks_loop (fun i : OrderItem => Key.inventory i.productID) ∅ rfl (fun _ _ => rfl)
      (fun i h _ => locks_rollbackItem id _ i h) _ held ?_ (Set.empty_subset _) ?_).mono
      fun _ _ _ => trivial
    · exact (hup id).imp rank_lt_of_product
    · intro i _ k hk
      rw [heq] at hk
      rw [Set.mem_singleton_iff.mp hk]
      exact rank_lt_of_level (by simp [Key.level])

theorem cancelOrder_ascends (hup : Upward rank snapshot) :
    Ascends (Key.rank rank) (cancelOrder u id snapshot) := by
  unfold Ascends cancelOrder
  split
  · trivial
  · split
    · trivial
    · trivial
    · trivial
    · rw [locks_bind]
      refine (cancelPendingOrder_ascends hup).mono fun cancelled _ _ => ?_
      split
      · trivial
      · trivial

theorem cancelExpiredOrder_ascends [Collation] {eventID : GoString} {now : Int}
    (hup : Upward rank snapshot) :
    Ascends (Key.rank rank) (cancelExpiredOrder eventID id now snapshot) := by
  unfold Ascends cancelExpiredOrder
  split
  · trivial
  · split
    · trivial
    · split
      · trivial
      · split
        · trivial
        · rw [locks_bind]
          exact (cancelPendingOrder_ascends hup).mono fun _ _ _ => trivial

/-- A plain read and a change of status. -/
theorem patch_ascends {st st' : OrderStatus} {err : Err} :
    Ascends (Key.rank rank) (patchOrderStatus u id st st' >>= fun row =>
      if row = 0 then Txn.fail err else pure ()) := by
  rw [Ascends, locks_bind]
  refine locks_patchOrderStatus.mono fun row _ _ => ?_
  split
  · trivial
  · trivial

theorem payOrder_ascends (u id : Int) (snapshot : DB) :
    Ascends (Key.rank rank) (payOrder u id snapshot) := by
  unfold payOrder
  split
  · trivial
  · split
    · trivial
    · trivial
    · trivial
    · exact patch_ascends

theorem finishOrder_ascends (u id : Int) (snapshot : DB) :
    Ascends (Key.rank rank) (finishOrder u id snapshot) := by
  unfold finishOrder
  split
  · trivial
  · split
    · trivial
    · trivial
    · trivial
    · exact patch_ascends

end

/-! ## 5. Every run -/

/-- A request that lists no items, or lists them upwards. -/
def Request.Upward (rank : Int → Int) : Request → Prop
  | .createOrder _ _ req => req.Upward rank
  | _ => True

section

variable [Collation] [Digest]

/-- **Every request takes its rows in order**, from a snapshot whose items are stored upwards. -/
theorem prog_ascends {rank : Int → Int} {req : Request} {snapshot : DB}
    (hreq : req.Upward rank) (hup : Upward rank snapshot) :
    Ascends (Key.rank rank) (req.prog snapshot) := by
  cases req with
  | initInventory product req =>
    exact (locks_bind ..).mpr ((initInventory_ascends product req snapshot).mono fun _ _ h => h)
  | addInventory product req =>
    exact (locks_bind ..).mpr ((addInventory_ascends product req).mono fun _ _ h => h)
  | createOrder env u req =>
    exact (locks_bind ..).mpr ((createOrder_ascends hreq).mono fun _ _ h => h)
  | payOrder u id =>
    exact (locks_bind ..).mpr ((payOrder_ascends u id snapshot).mono fun _ _ h => h)
  | finishOrder u id =>
    exact (locks_bind ..).mpr ((finishOrder_ascends u id snapshot).mono fun _ _ h => h)
  | cancelOrder u id =>
    exact (locks_bind ..).mpr ((cancelOrder_ascends hup).mono fun _ _ h => h)
  | cancelExpiredOrder eventID id now =>
    exact (locks_bind ..).mpr ((cancelExpiredOrder_ascends hup).mono fun _ _ h => h)

/-- A committed request stores items upwards if it lists them so. -/
theorem Upward.effect {rank : Int → Int} {snapshot s s' : DB} {req : Request} {a : Answer}
    (h : Upward rank s) (hreq : req.Upward rank) (he : Effect snapshot s req a s') :
    Upward rank s' := by
  cases he with
  | supplied hreq' hs hbiz => exact fun id => by rw [hs.items]; exact h id
  | @placed env u req row new logs s' hacc hp =>
    intro id
    by_cases hid : id = env.orderID
    · subst hid
      have hsorted := hreq hp.nodup
      rw [← hp.lines, List.pairwise_map] at hsorted
      rw [hp.items, Function.update_self]
      exact hsorted
    · rw [hp.items, Function.update_of_ne hid]
      exact h id
  | existing hpos hkey => exact h
  | patched hreq' hp => exact fun id => by rw [hp.items]; exact h id
  | cancelled hreq' hc => exact fun id => by rw [hc.items]; exact h id
  | kept hreq' => exact h

/-- What every run keeps, in which the requests list their items upwards. -/
structure Orderly (rank : Int → Int) (s : System) : Prop where
  tracked : Tracked Request.prog s
  tagged : Tagged (Request.Upward rank) s
  upward : Upward rank s.store
  inOrder : InOrder (Key.rank rank) s

theorem Orderly.step {rank : Int → Int} {s s' : System} {e : LockEvent Request}
    (h : Orderly rank s) (hstart : ∀ t req, e = .start t req → req.Upward rank)
    (hs : Monolith.step s e = some s') : Orderly rank s' := by
  refine ⟨tracked_step h.tracked hs, h.tagged.step h.tracked hstart hs, ?_,
    h.inOrder.step (fun t req heq => prog_ascends (hstart t req heq) h.upward) hs⟩
  rcases commit_exec h.tracked hs with ⟨hstore, -⟩ | ⟨t, a, r, ha, -, hexec⟩
  · rw [hstore]
    exact h.upward
  · exact h.upward.effect (h.tagged.running t a ha) (prog_effect hexec)

/-- The transaction `t` waits for a stock row that `t'` holds. -/
def WaitsForStock (s : System) (t t' : Nat) : Prop :=
  ∃ p, s.Wants t (.inventory p) ∧ s.owner (.inventory p) = some t' ∧ t' ≠ t

omit [Collation] [Digest] in
theorem WaitsForStock.waitsFor {s : System} {t t' : Nat} (h : WaitsForStock s t t') :
    s.WaitsFor t t' := by
  obtain ⟨p, hw, ho, hne⟩ := h
  exact ⟨.inventory p, hw, ho, hne⟩

/-- A request that starts lists its items upwards. -/
def ListsUpward (rank : Int → Int) (_ : System) : LockEvent Request → Prop
  | .start _ (.createOrder _ _ req) => req.Upward rank
  | _ => True

omit [Collation] [Digest] in
theorem ListsUpward.start {rank : Int → Int} {s : System} {e : LockEvent Request}
    (h : ListsUpward rank s e) : ∀ t req, e = .start t req → req.Upward rank := by
  rintro t req rfl
  cases req with
  | createOrder env u req => exact h
  | initInventory product req => trivial
  | addInventory product req => trivial
  | payOrder u id => trivial
  | finishOrder u id => trivial
  | cancelOrder u id => trivial
  | cancelExpiredOrder eventID id now => trivial

/-- **No deadlock over stock rows, where the items are listed upwards.**  If in some ranking of
the products every `CreateOrder` that starts lists its items upwards, then no state of the run has
a cycle of transactions that each wait for a stock row the next one holds. -/
theorem stock_no_deadlock (rank : Int → Int) (es : List (LockEvent Request)) (s : System)
    (h : run step start es = some s) (hlists : Meets (ListsUpward rank) step start es) (t : Nat) :
    ¬Relation.TransGen (WaitsForStock s) t t := by
  have hO : Orderly rank s := by
    refine run_invariant_of (I := Orderly rank) (fun s e s' hO hC hs => hO.step hC.start hs)
      ⟨tracked_init _ _, ⟨?_, ?_⟩, ?_, inOrder_init _ _⟩ hlists h
    · exact fun t a ha => absurd ha (by simp [Sys.init])
    · exact fun e he => absurd he (by simp [Sys.init])
    · exact fun id => List.Pairwise.nil
  intro hc
  exact hO.inOrder.no_cycle t (hc.lift (fun t => t) fun _ _ hw => WaitsForStock.waitsFor hw)

end

/-! ## 6. Two requests -/

instance (rank : Int → Int) (req : CreateOrderRequest) : Decidable (req.Upward rank) :=
  inferInstanceAs (Decidable (_ → _))

instance (rank : Int → Int) (s : System) (e : LockEvent Request) :
    Decidable (ListsUpward rank s e) :=
  match e with
  | .start _ (.createOrder _ _ req) => inferInstanceAs (Decidable (req.Upward rank))
  | .start _ (.initInventory _ _) => isTrue trivial
  | .start _ (.addInventory _ _) => isTrue trivial
  | .start _ (.payOrder _ _) => isTrue trivial
  | .start _ (.finishOrder _ _) => isTrue trivial
  | .start _ (.cancelOrder _ _) => isTrue trivial
  | .start _ (.cancelExpiredOrder _ _ _) => isTrue trivial
  | .stmt _ => isTrue trivial
  | .commit _ => isTrue trivial
  | .abort _ => isTrue trivial

/-- Both orders list the first product first: the second order waits for the first one. -/
def queueing : List (LockEvent Request) :=
  stocking ++ starts 1 (orderOf 8 0x61 [⟨1, 1⟩, ⟨2, 1⟩]) ++
    starts 2 (orderOf 9 0x62 [⟨1, 1⟩, ⟨2, 1⟩]) ++
  List.replicate 11 (.stmt 1) ++ List.replicate 5 (.stmt 2)

theorem stock_no_deadlock_queueing :
    letI := asciiCi
    letI := tallyDigest
    ∃ s : System, run step start queueing = some s ∧ WaitsForStock s 2 1 ∧
      ¬Relation.TransGen (WaitsForStock s) 2 2 := by
  let _ : Collation := asciiCi
  let _ : Digest := tallyDigest
  have h : (run step start queueing).bind (fun s => (s.txn 2).map fun a =>
      (a.rest.wants, s.owner (.inventory 1))) = some (some (.inventory 1), some 1) := by
    decide +kernel
  obtain ⟨s, hs, hv⟩ := Option.bind_eq_some_iff.mp h
  obtain ⟨a, ha, hv⟩ := Option.map_eq_some_iff.mp hv
  obtain ⟨hwants, howner⟩ := Prod.mk.inj hv
  exact ⟨s, hs, ⟨1, ⟨a, ha, hwants⟩, howner, by simp⟩,
    stock_no_deadlock (fun p => p) queueing s hs (by decide +kernel) 2⟩

/-- One order lists the first product first and the other the second. -/
def opposite : List (LockEvent Request) :=
  stocking ++ starts 1 (orderOf 8 0x61 [⟨1, 1⟩, ⟨2, 1⟩]) ++
    starts 2 (orderOf 9 0x62 [⟨2, 1⟩, ⟨1, 1⟩]) ++
  List.replicate 11 (.stmt 1) ++ List.replicate 11 (.stmt 2)

/-- **Opposite orders deadlock.**  Each of the two transactions holds the row of its first product
and waits for the row of its second, and neither has another step. -/
theorem stock_deadlock :
    letI := asciiCi
    letI := tallyDigest
    ∃ s : System, run step start opposite = some s ∧ Relation.TransGen (WaitsForStock s) 1 1 ∧
      step s (.stmt 1) = none ∧ step s (.stmt 2) = none := by
  let _ : Collation := asciiCi
  let _ : Digest := tallyDigest
  have h : (run step start opposite).bind (fun s => (s.txn 1).bind fun a => (s.txn 2).map fun b =>
      ((a.rest.wants, s.owner (.inventory 2)), (b.rest.wants, s.owner (.inventory 1)))) =
      some ((some (.inventory 2), some 2), (some (.inventory 1), some 1)) := by decide +kernel
  obtain ⟨s, hs, hv⟩ := Option.bind_eq_some_iff.mp h
  obtain ⟨a, ha, hv⟩ := Option.bind_eq_some_iff.mp hv
  obtain ⟨b, hb, hv⟩ := Option.map_eq_some_iff.mp hv
  obtain ⟨h1, h2⟩ := Prod.mk.inj hv
  obtain ⟨hwants1, howner1⟩ := Prod.mk.inj h1
  obtain ⟨hwants2, howner2⟩ := Prod.mk.inj h2
  have hw1 : WaitsForStock s 1 2 := ⟨2, ⟨a, ha, hwants1⟩, howner1, by simp⟩
  have hw2 : WaitsForStock s 2 1 := ⟨1, ⟨b, hb, hwants2⟩, howner2, by simp⟩
  exact ⟨s, hs, .tail (.single hw1) hw2, not_stmt_of_waitsFor hw1.waitsFor,
    not_stmt_of_waitsFor hw2.waitsFor⟩

end OrderSystem.Monolith
