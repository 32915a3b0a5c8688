/-
# Creating an order is idempotent

A `CreateOrder` call names an idempotency key.  The row under its user and key is inserted first,
in the transaction that makes the order, so of two racing calls with one key the second waits for
the first to commit or roll back, and then finds the key or does not.

* `Idempotent` -- the invariant: the commits that have made an order (`creations`) have distinct
  keys and distinct ids; each has left its order, its items, its deductions, its outbox row and its
  key (`Made`), and there are no others; and every call that has committed has answered with the
  order of its key, for a permutation of the items that made it.
* The key row that a transaction finds is complete, because only complete ones are committed.  So
  the two errors for a half-made order are never returned (`createOrder_error`), and a call with
  other items fails with the conflict error (`createOrder_conflict`).

Two keys are one key when their weights are equal: that is how the unique index compares them.
-/
import OrderSystem.Monolith.Spec

namespace OrderSystem.Monolith

open OrderSystem.Kit

/-! ## 1. Creations -/

/-- A commit that has made an order. -/
structure Creation where
  env : CreateContext
  userID : Int
  req : CreateOrderRequest

/-- The id of the order. -/
def Creation.orderID (c : Creation) : Int := c.env.orderID

/-- The creation that a commit is. -/
def creation : Request × Answer → Option Creation
  | (.createOrder env userID req, .order (.created _)) => some ⟨env, userID, req⟩
  | _ => none

def creations (history : List (Request × Answer)) : List Creation := history.filterMap creation

theorem creations_snoc (H : List (Request × Answer)) (e : Request × Answer) :
    creations (H ++ [e]) = creations H ++ (creation e).toList := by
  rw [creations, List.filterMap_append]
  cases h : creation e with
  | none => simp [h, creations]
  | some c => simp [h, creations]

/-- The user an order belongs to. -/
def DB.ownerOf (s : DB) (id : Int) : Option Int := (s.order id).map Order.userID

section

variable [Collation] [Digest]

/-- The user and the key of a creation, as the unique index has them. -/
def Creation.key (c : Creation) : Int × GoString :=
  (c.userID, Collation.weight c.req.idempotencyKey)

/-- What a creation has left. -/
structure Made (s : DB) (c : Creation) : Prop where
  accepted : Accepted c.userID c.req.idempotencyKey
  key : s.keyAt c.key =
    some ⟨buildCreateOrderRequestHash c.req.items, some c.orderID, .orderAlreadyCreated⟩
  id_pos : 0 < c.orderID
  owner : s.ownerOf c.orderID = some c.userID
  items : (s.itemsOf c.orderID).map OrderItem.line = c.req.items
  deductions : s.movements .orderDeduct c.orderID = c.req.items.map (deduction c.orderID)
  outbox : (s.outboxOf c.orderID).map OrderTimeoutOutbox.userID = some c.userID

/-- **The invariant.** -/
structure Idempotent (history : List (Request × Answer)) (s : DB) : Prop where
  keys : ((creations history).map Creation.key).Nodup
  ids : ((creations history).map Creation.orderID).Nodup
  made : ∀ c ∈ creations history, Made s c
  keyed : ∀ k, (s.keyAt k).isSome → ∃ c ∈ creations history, c.key = k
  owned : ∀ id, (s.order id).isSome ∨ (s.outboxOf id).isSome ∨ s.movements .orderDeduct id ≠ [] →
    ∃ c ∈ creations history, c.orderID = id
  answers : ∀ env u req a, (.createOrder env u req, .order a) ∈ history →
    ∃ c ∈ creations history, c.key = (u, Collation.weight req.idempotencyKey) ∧
      c.orderID = a.orderID ∧ req.items.Perm c.req.items

theorem idempotent_empty : Idempotent [] DB.empty where
  keys := List.nodup_nil
  ids := List.nodup_nil
  made c hc := absurd hc (by simp [creations])
  keyed k hk := absurd hk (by simp [DB.empty, DB.keyAt])
  owned id hid := by
    rcases hid with hid | hid | hid
    · exact absurd hid (by simp [DB.empty, DB.order])
    · exact absurd hid (by simp [DB.empty, DB.outboxOf])
    · exact absurd rfl hid
  answers env u req a h := absurd h (by simp)

/-! ## 2. Requests that make no order -/

omit [Collation] [Digest] in
/-- No order is made: what a creation leaves is as it was. -/
structure NoneMade (s s' : DB) : Prop where
  keys : s'.keyAt = s.keyAt
  owners : s'.ownerOf = s.ownerOf
  items : s'.itemsOf = s.itemsOf
  outboxes : s'.outboxOf = s.outboxOf
  deductions : ∀ id, s'.movements .orderDeduct id = s.movements .orderDeduct id

omit [Collation] [Digest] in
theorem noneMade_refl (s : DB) : NoneMade s s := ⟨rfl, rfl, rfl, rfl, fun _ => rfl⟩

variable {s s' snapshot : DB} {row : Order} {logs : List StockLog} {c : Creation}
  {H : List (Request × Answer)} {req : CreateOrderRequest} {env : CreateContext} {u : Int}
  {new : List OrderItem}

omit [Collation] [Digest] in
/-- A row that is written for its status keeps its owner. -/
theorem owners_update {id : Int} {st : OrderStatus} (hrow : s.order id = some row)
    (ho : s'.order = Function.update s.order id (some { row with status := st })) :
    s'.ownerOf = s.ownerOf := by
  funext id'
  by_cases h : id' = id
  · subst h
    simp [DB.ownerOf, ho, hrow]
  · simp [DB.ownerOf, ho, h]

omit [Collation] [Digest] in
/-- Entries of another kind are not deductions. -/
theorem deductions_same (hm : Moved s s' logs)
    (hl : ∀ m ∈ logs.map StockLog.movement, m.bizType ≠ .orderDeduct) (id : Int) :
    s'.movements .orderDeduct id = s.movements .orderDeduct id := by
  rw [hm.movements, List.filter_eq_nil_iff.mpr, List.append_nil]
  intro m hmem
  simp [hl m hmem]

theorem Effect.noneMade {req : Request} {a : Answer} (he : Effect snapshot s req a s')
    (hc : creation (req, a) = none) : NoneMade s s' := by
  cases he with
  | supplied hreq hs hbiz =>
    refine ⟨hs.keys, funext fun id => by rw [DB.ownerOf, hs.orders]; rfl, hs.items, hs.outboxes,
      deductions_same hs.moved fun m hm => ?_⟩
    rw [hs.movements, List.mem_singleton] at hm
    rw [hm]
    rcases hbiz with rfl | rfl
    · simp
    · simp
  | placed hacc hp => exact absurd hc (by simp [creation])
  | existing hpos hkey => exact noneMade_refl s
  | patched hreq hp =>
    exact ⟨hp.keys, owners_update hp.found hp.orders, hp.items, hp.outboxes,
      deductions_same hp.moved fun m hm => absurd hm (by simp)⟩
  | cancelled hreq hcancel =>
    refine ⟨hcancel.keys, owners_update hcancel.found hcancel.orders, hcancel.items,
      hcancel.outboxes, deductions_same hcancel.moved fun m hm => ?_⟩
    rw [hcancel.movements] at hm
    obtain ⟨i, -, rfl⟩ := List.mem_map.mp hm
    simp [rollback]
  | kept hreq => exact noneMade_refl s

theorem Made.noneMade (h : Made s c) (hn : NoneMade s s') :
    Made s' c where
  accepted := h.accepted
  key := by rw [hn.keys]; exact h.key
  id_pos := h.id_pos
  owner := by rw [hn.owners]; exact h.owner
  items := by rw [hn.items]; exact h.items
  deductions := by rw [hn.deductions]; exact h.deductions
  outbox := by rw [hn.outboxes]; exact h.outbox

omit [Collation] [Digest] in
theorem isSome_ownerOf (s : DB) (id : Int) : (s.ownerOf id).isSome = (s.order id).isSome :=
  Option.isSome_map

theorem Idempotent.noneMade {e : Request × Answer} (h : Idempotent H s) (hn : NoneMade s s')
    (hc : creation e = none)
    (he : ∀ env u req a, e = (.createOrder env u req, .order a) →
      ∃ c ∈ creations H, c.key = (u, Collation.weight req.idempotencyKey) ∧
        c.orderID = a.orderID ∧ req.items.Perm c.req.items) :
    Idempotent (H ++ [e]) s' := by
  have hH : creations (H ++ [e]) = creations H := by
    rw [creations_snoc, hc, Option.toList_none, List.append_nil]
  refine ⟨by rw [hH]; exact h.keys, by rw [hH]; exact h.ids, fun c hc => ?_, fun k hk => ?_,
    fun id hid => ?_, fun env u req a ha => ?_⟩
  · rw [hH] at hc
    exact (h.made c hc).noneMade hn
  · rw [hH]
    rw [hn.keys] at hk
    exact h.keyed k hk
  · rw [hH]
    rw [← isSome_ownerOf, hn.owners, isSome_ownerOf, hn.outboxes, hn.deductions] at hid
    exact h.owned id hid
  · rw [hH]
    rcases List.mem_append.mp ha with ha | ha
    · exact h.answers env u req a ha
    · exact he env u req a (List.mem_singleton.mp ha).symm

/-- A request that answers with no order. -/
theorem Idempotent.done {req : Request} (h : Idempotent H s) (he : Effect snapshot s req .done s') :
    Idempotent (H ++ [(req, .done)]) s' := by
  have hc : creation (req, .done) = none := by
    cases req with
    | createOrder env u req => rfl
    | initInventory product req => rfl
    | addInventory product req => rfl
    | payOrder u id => rfl
    | finishOrder u id => rfl
    | cancelOrder u id => rfl
    | cancelExpiredOrder eventID id now => rfl
  exact h.noneMade (he.noneMade hc) hc fun env u req' a heq => absurd heq (by simp)

/-! ## 3. Requests that answer with an order -/

omit [Collation] in
/-- Requests with one hash list the same items. -/
theorem perm_of_hash {items items' : List ItemRequest}
    (h : buildCreateOrderRequestHash items = buildCreateOrderRequestHash items') :
    items.Perm items' := by
  have hsorted := Digest.hash_injective h
  have hperm := List.perm_insertionSort LineLE items'
  rw [← hsorted] at hperm
  exact (List.perm_insertionSort LineLE items).symm.trans hperm

/-- A key that is found leads to the creation that has made it. -/
theorem Idempotent.found (h : Idempotent H s) {k : Int × GoString} {row : OrderIdempotencyKey}
    (hrow : s.keyAt k = some row) :
    ∃ c ∈ creations H, c.key = k ∧
      row = ⟨buildCreateOrderRequestHash c.req.items, some c.orderID, .orderAlreadyCreated⟩ := by
  obtain ⟨c, hc, rfl⟩ := h.keyed k (by simp [hrow])
  exact ⟨c, hc, rfl, Option.some.inj (hrow.symm.trans (h.made c hc).key)⟩

/-- A creation deducts for its own order. -/
theorem deductions_placed (hp : Placed env u req s s' row new logs) (id : Int) :
    s'.movements .orderDeduct id = s.movements .orderDeduct id ++
      if id = env.orderID then req.items.map (deduction env.orderID) else [] := by
  rw [hp.moved.movements, hp.movements, filter_movements (f := deduction env.orderID)
    (fun i => ⟨rfl, rfl⟩)]
  simp [eq_comm]

theorem Made.placed (h : Made s c) (hk : c.key ≠ (u, Collation.weight req.idempotencyKey))
    (hid : c.orderID ≠ env.orderID) (hp : Placed env u req s s' row new logs) : Made s' c where
  accepted := h.accepted
  key := by rw [hp.keys, Function.update_of_ne hk]; exact h.key
  id_pos := h.id_pos
  owner := by rw [DB.ownerOf, hp.orders, Function.update_of_ne hid]; exact h.owner
  items := by rw [hp.items, Function.update_of_ne hid]; exact h.items
  deductions := by
    rw [deductions_placed hp, if_neg hid, List.append_nil]
    exact h.deductions
  outbox := by rw [hp.outboxes, Function.update_of_ne hid]; exact h.outbox

/-- The new creation has left everything that a creation leaves. -/
theorem made_new (hacc : Accepted u req.idempotencyKey)
    (hnone : s.movements .orderDeduct env.orderID = []) (hp : Placed env u req s s' row new logs) :
    Made s' ⟨env, u, req⟩ where
  accepted := hacc
  key := by rw [hp.keys, Creation.key, Function.update_self]; rfl
  id_pos := hp.id_pos
  owner := by simp [DB.ownerOf, Creation.orderID, hp.orders, hp.owner]
  items := by simp [Creation.orderID, hp.items, hp.lines]
  deductions := by
    rw [Creation.orderID, deductions_placed hp, hnone, if_pos rfl, List.nil_append]
  outbox := by simp [Creation.orderID, hp.outboxes]

/-- The key and the id of a new order are new: no creation so far has either. -/
theorem Idempotent.fresh (h : Idempotent H s) (hp : Placed env u req s s' row new logs) :
    ∀ c ∈ creations H, c.key ≠ (u, Collation.weight req.idempotencyKey) ∧
      c.orderID ≠ env.orderID := by
  intro c hc
  constructor
  · intro heq
    have hmade := (h.made c hc).key
    rw [heq, hp.fresh_key] at hmade
    exact absurd hmade (by simp)
  · intro heq
    have hmade := (h.made c hc).owner
    rw [heq, DB.ownerOf, hp.fresh_id] at hmade
    exact absurd hmade (by simp)

omit [Collation] [Digest] in
theorem nodup_map_snoc {β : Type} {f : Creation → β} {cs : List Creation} (h : (cs.map f).Nodup)
    (hc : ∀ d ∈ cs, f d ≠ f c) : ((cs ++ [c]).map f).Nodup := by
  rw [List.map_append, List.map_singleton, ← List.concat_eq_append]
  refine h.concat fun hmem => ?_
  obtain ⟨d, hd, heq⟩ := List.mem_map.mp hmem
  exact hc d hd heq

theorem Idempotent.placed (h : Idempotent H s) (hacc : Accepted u req.idempotencyKey)
    (hp : Placed env u req s s' row new logs) :
    Idempotent (H ++ [(.createOrder env u req, .order (.created env.orderID))]) s' := by
  have hfresh := h.fresh hp
  have hnone : s.movements .orderDeduct env.orderID = [] := by
    by_contra hne
    obtain ⟨c, hc, heq⟩ := h.owned env.orderID (Or.inr (Or.inr hne))
    exact (hfresh c hc).2 heq
  have hH : creations (H ++ [(.createOrder env u req, .order (.created env.orderID))]) =
      creations H ++ [⟨env, u, req⟩] := creations_snoc _ _
  have hnew : (⟨env, u, req⟩ : Creation) ∈ creations H ++ [⟨env, u, req⟩] := by simp
  have hold : ∀ c ∈ creations H, c ∈ creations H ++ [⟨env, u, req⟩] :=
    fun c hc => List.mem_append_left _ hc
  refine ⟨?_, ?_, fun c hc => ?_, fun k hk => ?_, fun id hid => ?_, fun env' u' req' a ha => ?_⟩
  · rw [hH]
    exact nodup_map_snoc h.keys fun c hc => (hfresh c hc).1
  · rw [hH]
    exact nodup_map_snoc h.ids fun c hc => (hfresh c hc).2
  · rw [hH] at hc
    rcases List.mem_append.mp hc with hc | hc
    · exact (h.made c hc).placed (hfresh c hc).1 (hfresh c hc).2 hp
    · rw [List.mem_singleton.mp hc]
      exact made_new hacc hnone hp
  · rw [hH]
    by_cases hk' : k = (u, Collation.weight req.idempotencyKey)
    · exact ⟨_, hnew, hk'.symm⟩
    · rw [hp.keys, Function.update_of_ne hk'] at hk
      obtain ⟨c, hc, heq⟩ := h.keyed k hk
      exact ⟨c, hold c hc, heq⟩
  · rw [hH]
    by_cases heq : id = env.orderID
    · exact ⟨_, hnew, heq.symm⟩
    · rw [hp.orders, hp.outboxes, Function.update_of_ne heq, Function.update_of_ne heq,
        deductions_placed hp, if_neg heq, List.append_nil] at hid
      obtain ⟨c, hc, heq⟩ := h.owned id hid
      exact ⟨c, hold c hc, heq⟩
  · rw [hH]
    rcases List.mem_append.mp ha with ha | ha
    · obtain ⟨c, hc, hrest⟩ := h.answers env' u' req' a ha
      exact ⟨c, hold c hc, hrest⟩
    · obtain ⟨hreq, hans⟩ := Prod.mk.inj (List.mem_singleton.mp ha)
      obtain ⟨rfl, rfl, rfl⟩ := Request.createOrder.inj hreq
      obtain rfl := Answer.order.inj hans
      exact ⟨_, hnew, rfl, rfl, List.Perm.refl _⟩

/-- **A committed request keeps the invariant.** -/
theorem Idempotent.effect {req : Request} {a : Answer} (h : Idempotent H s)
    (he : Effect snapshot s req a s') :
    Idempotent (H ++ [(req, a)]) s' := by
  have hdone : a = .done → Idempotent (H ++ [(req, a)]) s' := by
    rintro rfl
    exact h.done he
  cases he with
  | supplied hreq hs hbiz => exact hdone rfl
  | placed hacc hp => exact h.placed hacc hp
  | @existing env u req id hpos hkey =>
    refine h.noneMade (noneMade_refl s) rfl fun env' u' req' a' heq => ?_
    obtain ⟨hreq, hans⟩ := Prod.mk.inj heq
    obtain ⟨rfl, rfl, rfl⟩ := Request.createOrder.inj hreq
    obtain rfl := Answer.order.inj hans
    obtain ⟨c, hc, hk, hrow⟩ := h.found hkey
    obtain ⟨hhash, hid, -⟩ := OrderIdempotencyKey.mk.inj hrow
    exact ⟨c, hc, hk, (Option.some.inj hid).symm, perm_of_hash hhash⟩
  | patched hreq hp => exact hdone rfl
  | cancelled hreq hc => exact hdone rfl
  | kept hreq => exact hdone rfl

end

/-! ## 4. Errors -/

/-- Not one of the two errors for a half-made order. -/
def Err.Settled (e : Err) : Prop := e ≠ .orderBeingCreated ∧ e ≠ .orderIdempotencyStateInvalid

instance : DecidablePred Err.Settled := fun _ => inferInstanceAs (Decidable (_ ∧ _))

theorem insertOrder_failsIn (id : Int) (row : Order) :
    (insertOrder id row).FailsIn Err.Settled := by
  simp only [insertOrder, getOrder, setOrder, Txn.failsIn_get_bind]
  intro v
  split
  · exact (by decide : Err.Settled .storage)
  · split
    · exact (by decide : Err.Settled .storage)
    · trivial

theorem deductInventory_failsIn (p q : Int) : (deductInventory p q).FailsIn Err.Settled := by
  simp only [deductInventory, getInventory, setInventory, Txn.failsIn_get_bind]
  intro v
  split
  · trivial
  · split
    · split
      · exact (by decide : Err.Settled .storage)
      · trivial
    · trivial

theorem createOrderItem_failsIn (id : Int) (item : Option OrderItem) :
    (createOrderItem id item).FailsIn Err.Settled := by
  unfold createOrderItem
  split
  · exact (by decide : Err.Settled .storage)
  · exact fun _ => trivial

theorem createStockLog_failsIn (log : Option StockLog) :
    (createStockLog log .createStockLogFailed).FailsIn Err.Settled := by
  unfold createStockLog
  split
  · exact (by decide : Err.Settled .createStockLogFailed)
  · trivial

theorem createItem_failsIn (env : CreateContext) (i : ItemRequest) :
    (createItem env i).FailsIn Err.Settled := by
  unfold createItem
  split
  · exact (by decide : Err.Settled .productNotFound)
  · split
    · exact (by decide : Err.Settled .productOffSale)
    · simp only [getInventory, Txn.failsIn_get_bind]
      intro v
      split
      · exact (by decide : Err.Settled .inventoryNotFound)
      · split
        · exact (by decide : Err.Settled .insufficientStock)
        · refine Txn.failsIn_bind (deductInventory_failsIn _ _) fun rows => ?_
          split
          · exact (by decide : Err.Settled .insufficientStock)
          · refine Txn.failsIn_bind (createOrderItem_failsIn _ _) fun _ => ?_
            exact Txn.failsIn_bind (createStockLog_failsIn _) fun _ => trivial

theorem createItems_failsIn (env : CreateContext) : ∀ (lines : List ItemRequest) (total : Int),
    (createItems env total lines).FailsIn Err.Settled
  | [], _ => trivial
  | i :: lines, _ =>
    Txn.failsIn_bind (createItem_failsIn env i) fun _ => createItems_failsIn env lines _

theorem patchOrderTotalPriceFen_failsIn (id total u : Int) :
    (patchOrderTotalPriceFen id total u).FailsIn Err.Settled := by
  simp only [patchOrderTotalPriceFen, getOrder, setOrder, Txn.failsIn_get_bind]
  intro v
  split
  · trivial
  · split
    · split
      · trivial
      · exact (by decide : Err.Settled .storage)
    · trivial

theorem createOrderTimeoutOutbox_failsIn (id : Int) (row : OrderTimeoutOutbox) :
    (createOrderTimeoutOutbox id row).FailsIn Err.Settled := by
  simp only [createOrderTimeoutOutbox, Txn.failsIn_get_bind]
  intro v
  split
  · exact (by decide : Err.Settled .storage)
  · trivial

section

variable [Collation] [Digest]

variable {env : CreateContext} {u : Int} {req : CreateOrderRequest} {s : DB} {e : Err}
  {H : List (Request × Answer)}

omit [Digest] in
/-- The transaction that has made the key finds it there when it completes it. -/
theorem createNew_error {hash : GoString}
    (hkey : s.keyAt (u, Collation.weight req.idempotencyKey) =
      some ⟨hash, none, .orderBeingCreated⟩) (h : (createNew env u req).exec s = .error e) :
    e.Settled := by
  unfold createNew at h
  rcases Txn.exec_bind_error h with h | ⟨v, s₁, h₁, h⟩
  · exact (insertOrder_failsIn _ _).of_exec h
  · obtain ⟨-, -, hs₁⟩ := insertOrder_ok h₁
    split at h
    · exact Except.error.inj h ▸ (by decide : Err.Settled .duplicateOrderItem)
    · rcases Txn.exec_bind_error h with h | ⟨_, s₂, h₂, h⟩
      · exact (createItems_failsIn _ _ _).of_exec h
      · obtain ⟨new, logs, hloop, -⟩ := createItems_ok _ h₂
        have horder : DB.order s₂ env.orderID =
            some ⟨u, env.orderNo, 0, .pending, Int.le_refl 0⟩ := by
          rw [hloop.orders, hs₁]
          simp
        rcases Txn.exec_bind_error h with h | ⟨v, s₃, h₃, h⟩
        · exact (patchOrderTotalPriceFen_failsIn _ _ _).of_exec h
        · obtain ⟨hnonneg, hs₃⟩ := patchOrderTotalPriceFen_ok horder rfl h₃
          have hbeing : DB.keyAt s₃ (u, Collation.weight req.idempotencyKey) =
              some ⟨hash, none, .orderBeingCreated⟩ := by
            rw [hs₃, DB.set_keyAt_of_ne _ _ (by simp), hloop.keys, hs₁]
            simpa using hkey
          rw [Txn.exec_bind_of_ok _ (exec_completeOrderIdempotencyKey hbeing)] at h
          simp only [ne_eq, not_true_eq_false, if_false] at h
          rcases Txn.exec_bind_error h with h | ⟨v, s₅, -, h⟩
          · exact (createOrderTimeoutOutbox_failsIn _ _).of_exec h
          · exact absurd h (by simp)

/-- **The errors for a half-made order are not returned**, when the keys that are found are
complete. -/
theorem createOrder_error (hI : Idempotent H s) (h : (createOrder env u req).exec s = .error e) :
    e.Settled := by
  unfold createOrder at h
  split at h
  · exact Except.error.inj h ▸ (by decide : Err.Settled .invalidUserID)
  · split at h
    · exact Except.error.inj h ▸ (by decide : Err.Settled .invalidIdempotencyKey)
    · cases hrow : s.keyAt (u, Collation.weight req.idempotencyKey) with
      | none =>
        rw [Txn.exec_bind_of_ok _ (exec_tryCreate_new hrow)] at h
        exact createNew_error (by rw [DB.set_keyAt, Function.update_self]) h
      | some row =>
        obtain ⟨c, hc, -, rfl⟩ := hI.found hrow
        rw [Txn.exec_bind_of_ok _ (exec_tryCreate_found hrow)] at h
        simp only [Bool.false_eq_true, if_false, createAgain, exec_getKey_bind, hrow] at h
        split at h
        · exact Except.error.inj h ▸ (by decide : Err.Settled .orderIdempotencyConflict)
        · rw [if_neg (not_le.mpr (hI.made c hc).id_pos)] at h
          exact absurd h (by simp)

/-- **Other items under a key that is committed are a conflict.** -/
theorem createOrder_conflict (hI : Idempotent H s) {c : Creation} (hc : c ∈ creations H)
    (hkey : c.key = (u, Collation.weight req.idempotencyKey)) (hacc : Accepted u req.idempotencyKey)
    (hperm : ¬req.items.Perm c.req.items) :
    (createOrder env u req).exec s = .error .orderIdempotencyConflict := by
  have hrow := (hI.made c hc).key
  rw [hkey] at hrow
  have hhash : buildCreateOrderRequestHash c.req.items ≠ buildCreateOrderRequestHash req.items :=
    fun heq => hperm (perm_of_hash heq).symm
  rw [createOrder, if_neg (not_le.mpr hacc.1), if_neg hacc.2,
    Txn.exec_bind_of_ok _ (exec_tryCreate_found hrow)]
  simp only [Bool.false_eq_true, if_false, createAgain, exec_getKey_bind, hrow]
  rw [if_pos hhash, Txn.exec_fail]

/-! ## 5. Every run -/

theorem idempotent_run {es : List (LockEvent Request)} {s : System}
    (h : run step start es = some s) : Tracked Request.prog s ∧ Idempotent s.history s.store := by
  have hC := locking_invariant (I := Idempotent) (R := fun _ _ => True) idempotent_empty
    (fun _ => trivial) (fun H S req snap a S' hI _ hexec =>
      ⟨hI.effect (prog_effect hexec), fun _ _ => trivial⟩) h
  exact ⟨hC.tracked, hC.holds⟩

/-- An operation that fails before its answer. -/
theorem exec_createOrder_error {snapshot : DB} :
    ((Request.createOrder env u req).prog snapshot).exec s = .error e ↔
      (createOrder env u req).exec s = .error e := by
  constructor
  · intro h
    rcases Txn.exec_bind_error h with h | ⟨c, t, -, h⟩
    · exact h
    · exact absurd h (by simp)
  · intro h
    show (createOrder env u req >>= _).exec s = .error e
    rw [Txn.exec_bind, h]
    rfl

theorem Idempotent.reply (h : Idempotent H s) {c : Creation} (hc : c ∈ creations H) {a : Created}
    (ha : c.orderID = a.orderID) :
    ∃ row, a.reply s c.userID = .ok (c.orderID, row) := by
  obtain ⟨row, hrow, hu⟩ := Option.map_eq_some_iff.mp (h.made c hc).owner
  have hget : getOrderByID s c.userID a.orderID = some row := by
    rw [← ha]
    exact Option.filter_eq_some_iff.mpr ⟨hrow, by simpa using hu⟩
  refine ⟨row, ?_⟩
  rw [Created.reply, hget, ← ha]

/-- **Creating an order is idempotent per user and key, and bound to the items.**  In every state
of every run:

* the commits that have made an order have distinct keys and distinct ids; each has left one
  order of its user, one deduction for each line of its request and one outbox row; and every
  order, deduction and outbox row is that of such a commit;
* a call that has committed returns without error, with the order of its key, and its items are a
  permutation of those that made the order;
* a call under a committed key with other items ends in the conflict error, unless it spells the
  key in a way that the checks before the transaction refuse;
* a call that fails has no step left but to roll back, and until a call commits it has changed
  nothing that is committed;
* no call is about to return `ErrOrderBeingCreated` or `ErrOrderIdempotencyStateInvalid`. -/
theorem creation_idempotent (es : List (LockEvent Request)) (s : System)
    (h : run step start es = some s) :
    ((creations s.history).map Creation.key).Nodup ∧
    ((creations s.history).map Creation.orderID).Nodup ∧
    (∀ c ∈ creations s.history, DB.ownerOf s.store c.orderID = some c.userID ∧
      DB.movements s.store .orderDeduct c.orderID = c.req.items.map (deduction c.orderID) ∧
      (DB.outboxOf s.store c.orderID).isSome) ∧
    (∀ id, (DB.order s.store id).isSome ∨ (DB.outboxOf s.store id).isSome ∨
      DB.movements s.store .orderDeduct id ≠ [] →
        ∃ c ∈ creations s.history, c.orderID = id) ∧
    (∀ env u req a, (.createOrder env u req, .order a) ∈ s.history →
      ∃ c ∈ creations s.history, c.key = (u, Collation.weight req.idempotencyKey) ∧
        (∃ row, a.reply s.store u = .ok (c.orderID, row)) ∧ req.items.Perm c.req.items) ∧
    (∀ c ∈ creations s.history, ∀ t a env u req, s.txn t = some a →
      a.tag = .createOrder env u req → c.key = (u, Collation.weight req.idempotencyKey) →
      req.idempotencyKey = c.req.idempotencyKey ∨ Accepted u req.idempotencyKey →
      ¬req.items.Perm c.req.items →
        a.rest.exec (a.view s.store) = .error .orderIdempotencyConflict) ∧
    (∀ t a e, s.txn t = some a → a.rest = .fail e →
      step s (.stmt t) = none ∧ step s (.commit t) = none) ∧
    (∀ ev s', step s ev = some s' → (∀ t, ev ≠ .commit t) →
      s'.store = s.store ∧ s'.history = s.history) ∧
    ∀ t a env u req, s.txn t = some a → a.tag = .createOrder env u req →
      a.rest ≠ .fail .orderBeingCreated ∧ a.rest ≠ .fail .orderIdempotencyStateInvalid := by
  obtain ⟨hT, hI⟩ := idempotent_run h
  refine ⟨hI.keys, hI.ids, fun c hc => ?_, hI.owned, fun env u req a ha => ?_,
    fun c hc t a env u req ha htag hkey hspelled hperm => ?_, fun t a e ha hr => step_of_fail ha hr,
    fun ev s' hs hev => store_of_step hs hev, fun t a env u req ha htag => ?_⟩
  · have hmade := hI.made c hc
    refine ⟨hmade.owner, hmade.deductions, ?_⟩
    rw [← Option.isSome_map, hmade.outbox]
    rfl
  · obtain ⟨c, hc, hkey, hid, hperm⟩ := hI.answers env u req a ha
    obtain ⟨row, hrow⟩ := hI.reply hc hid
    obtain rfl : c.userID = u := congrArg Prod.fst hkey
    exact ⟨c, hc, hkey, ⟨row, hrow⟩, hperm⟩
  · have hacc : Accepted u req.idempotencyKey := by
      rcases hspelled with heq | hacc
      · obtain rfl : c.userID = u := congrArg Prod.fst hkey
        rw [heq]
        exact (hI.made c hc).accepted
      · exact hacc
    rw [← hT.tracks t a ha s.store fun _ _ => rfl, htag, exec_createOrder_error]
    exact createOrder_conflict hI hc hkey hacc hperm
  · have hsettled : ∀ e, a.rest = .fail e → e.Settled := by
      intro e hr
      have hfail := hT.exec_fail ha hr
      rw [htag, exec_createOrder_error] at hfail
      exact createOrder_error hI hfail
    exact ⟨fun hr => (hsettled _ hr).1 rfl, fun hr => (hsettled _ hr).2 rfl⟩

end

/-- An order is made, and asked for again in another order and with the key in capitals. -/
def asking : List (LockEvent Request) :=
  stocking ++ starts 1 (orderOf 9 0x6B [⟨1, 3⟩, ⟨2, 1⟩]) ++
    starts 2 (orderOf 9 0x4B [⟨2, 1⟩, ⟨1, 3⟩]) ++
  List.replicate 23 (.stmt 1) ++ [.commit 1, .stmt 2, .stmt 2, .commit 2]

theorem creation_idempotent_asking :
    letI := asciiCi
    letI := tallyDigest
    ∃ s : System, run step start asking = some s ∧
      s.history.map Prod.snd =
        [.done, .done, .order (.created 9), .order (.existing 9)] ∧
      ((creations s.history).map Creation.key).Nodup := by
  let _ : Collation := asciiCi
  let _ : Digest := tallyDigest
  have h : (run step start asking).map (fun s => s.history.map Prod.snd) =
      some [.done, .done, .order (.created 9), .order (.existing 9)] := by decide +kernel
  obtain ⟨s, hs, hv⟩ := Option.map_eq_some_iff.mp h
  exact ⟨s, hs, hv, (creation_idempotent asking s hs).1⟩

end OrderSystem.Monolith
