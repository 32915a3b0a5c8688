/-
# The life of an order

`PayOrder`, `FinishOrder`, `CancelOrder` and `CancelExpiredOrder` decide from a plain read and act
with a conditional update, so any number of them may have read the same status of an order.  What
the conditional updates make of this is a small automaton that each order goes through alone:

    placed ──▸ pending ──▸ paid ──▸ finished
                  └──────▸ cancelled

`Turn` says what a committed request does to the statuses, for every request and every snapshot,
and `Leads` is the automaton.  `order_lifecycle` is the agreement of the two over whole runs: the
creations, payments and completions of an order that have committed are, in this order, the ones
on the way to its present status.  So each of them has succeeded at most once, none out of order,
and no order was both paid and cancelled, whichever of the requests raced.
-/
import OrderSystem.Monolith.Idempotency

namespace OrderSystem.Monolith

open OrderSystem.Kit

/-! ## 1. The automaton -/

/-- The status of an order. -/
def DB.status (s : DB) (id : Int) : Option OrderStatus := (s.order id).map Order.status

/-- What a client is told of the life of an order. -/
inductive Milestone where
  | placed
  | paid
  | finished
  deriving DecidableEq

/-- The milestones on the way to a status. -/
def path : Option OrderStatus → List Milestone
  | none => []
  | some .pending => [.placed]
  | some .cancelled => [.placed]
  | some .paid => [.placed, .paid]
  | some .finished => [.placed, .paid, .finished]

/-- One status may follow another. -/
inductive Leads : Option OrderStatus → Option OrderStatus → Prop
  | refl (st : Option OrderStatus) : Leads st st
  | placed (st : OrderStatus) : Leads none (some st)
  | pending (st : OrderStatus) : Leads (some .pending) (some st)
  | paid : Leads (some .paid) (some .finished)

theorem Leads.trans {a b c : Option OrderStatus} (h : Leads a b) (h' : Leads b c) : Leads a c := by
  cases h with
  | refl => exact h'
  | placed st =>
    cases h' with
    | refl => exact .placed _
    | pending st' => exact .placed _
    | paid => exact .placed _
  | pending st =>
    cases h' with
    | refl => exact .pending _
    | pending st' => exact .pending _
    | paid => exact .pending _
  | paid =>
    cases h' with
    | refl => exact .paid

/-- Nothing follows a cancellation. -/
theorem Leads.cancelled {st : Option OrderStatus} (h : Leads (some .cancelled) st) :
    st = some .cancelled := by
  cases h with
  | refl => rfl

/-- An order that has left `pending` does not come back to it. -/
theorem Leads.not_pending {st st' : Option OrderStatus} (h : Leads st st') (hne : st ≠ none)
    (hst : st ≠ some .pending) : st' ≠ some .pending := by
  cases h with
  | refl => exact hst
  | placed => exact absurd rfl hne
  | pending => exact absurd rfl hst
  | paid => simp

/-! ## 2. What a committed request does to the statuses -/

section

variable {snapshot s s' : DB} {u id : Int} {st st' : OrderStatus} {row : Order} {v : Unit}
  {req : Request} {a : Answer}

/-- The order of a user goes from one status to another, and nothing else happens to orders. -/
structure Turned (s s' : DB) (id u : Int) (st st' : OrderStatus) : Prop where
  before : s.status id = some st
  owner : s.ownerOf id = some u
  status : s'.status = Function.update s.status id (some st')
  owners : s'.ownerOf = s.ownerOf

/-- Nothing happens to the statuses and owners of orders. -/
structure Still (s s' : DB) : Prop where
  status : s'.status = s.status
  owners : s'.ownerOf = s.ownerOf

theorem still_of_orders (h : s'.order = s.order) : Still s s' :=
  ⟨by funext id; rw [DB.status, DB.status, h], by funext id; rw [DB.ownerOf, DB.ownerOf, h]⟩

theorem status_update (h : s'.order = Function.update s.order id (some row)) :
    s'.status = Function.update s.status id (some row.status) := by
  funext id'
  simp only [DB.status, h, Function.update_apply]
  split
  · rfl
  · rfl

theorem ownerOf_update (h : s'.order = Function.update s.order id (some row)) :
    s'.ownerOf = Function.update s.ownerOf id (some row.userID) := by
  funext id'
  simp only [DB.ownerOf, h, Function.update_apply]
  split
  · rfl
  · rfl

/-- The conditional update hit its row. -/
theorem turned_of_patch (hrow : s.order id = some row) (hu : row.userID = u) (hst : row.status = st)
    (ho : s'.order = Function.update s.order id (some { row with status := st' })) :
    Turned s s' id u st st' := by
  have howner : s.ownerOf id = some u := by rw [DB.ownerOf, hrow, Option.map_some, hu]
  refine ⟨by rw [DB.status, hrow, Option.map_some, hst], howner, status_update ho, ?_⟩
  rw [ownerOf_update ho, ← Function.update_eq_self id s.ownerOf, howner]
  simp [hu]

/-- `PatchOrderStatus`, seen from the statuses. -/
theorem patchOrderStatus_turn {n : Nat} (h : (patchOrderStatus u id st st').exec s = .ok (n, s')) :
    (n = 0 ∧ s' = s ∧ ¬(s.status id = some st ∧ s.ownerOf id = some u)) ∨
      (n = 1 ∧ Turned s s' id u st st') := by
  rcases patchOrderStatus_ok h with ⟨rfl, rfl⟩ | ⟨rfl, row, hrow, hu, hst, rfl⟩
  · refine Or.inl ⟨rfl, rfl, ?_⟩
    rintro ⟨hst, hu⟩
    obtain ⟨row, hrow, hst⟩ := Option.map_eq_some_iff.mp hst
    rw [DB.ownerOf, hrow, Option.map_some, Option.some.injEq] at hu
    -- the row was there as asked for, so the update would have hit it
    simp only [patchOrderStatus, exec_getOrder_bind, hrow, hu, hst, and_self, if_true] at h
    exact absurd (Prod.mk.inj (Except.ok.inj h)).1 (by decide)
  · exact Or.inr ⟨rfl, turned_of_patch hrow hu hst (by simp)⟩

/-- A conditional update whose caller fails when it hits nothing. -/
theorem turned_of_ok {err : Err}
    (h : (patchOrderStatus u id st st' >>= fun row =>
      if row = 0 then Txn.fail err else pure ()).exec s = .ok (v, s')) :
    Turned s s' id u st st' := by
  obtain ⟨n, t, ht, h⟩ := Txn.exec_bind_ok h
  rcases patchOrderStatus_turn ht with ⟨rfl, -, -⟩ | ⟨rfl, hturn⟩
  · exact absurd h (by simp)
  · obtain ⟨-, rfl⟩ := Prod.mk.inj (Except.ok.inj h)
    exact hturn

theorem payOrder_turn (h : (payOrder u id snapshot).exec s = .ok (v, s')) :
    Turned s s' id u .pending .paid := by
  unfold payOrder at h
  split at h
  · exact absurd h (by simp)
  · split at h
    · exact absurd h (by simp)
    · exact absurd h (by simp)
    · exact absurd h (by simp)
    · exact turned_of_ok h

theorem finishOrder_turn (h : (finishOrder u id snapshot).exec s = .ok (v, s')) :
    Turned s s' id u .paid .finished := by
  unfold finishOrder at h
  split at h
  · exact absurd h (by simp)
  · split at h
    · exact absurd h (by simp)
    · exact absurd h (by simp)
    · exact absurd h (by simp)
    · exact turned_of_ok h

theorem cancelPendingOrder_turn {order : Order} {remark : GoString} {b : Bool}
    (h : (cancelPendingOrder id order remark snapshot).exec s = .ok (b, s')) :
    (b = false ∧ s' = s ∧ ¬(s.status id = some .pending ∧ s.ownerOf id = some order.userID)) ∨
      (b = true ∧ Turned s s' id order.userID .pending .cancelled) := by
  obtain ⟨n, t, ht, hrest⟩ := Txn.exec_bind_ok h
  rcases patchOrderStatus_turn ht with ⟨rfl, rfl, hnot⟩ | ⟨rfl, hturn⟩
  · obtain ⟨rfl, rfl⟩ := Prod.mk.inj (Except.ok.inj hrest)
    exact Or.inl ⟨rfl, rfl, hnot⟩
  · rw [if_neg (by decide)] at hrest
    obtain ⟨_, t', ht', hrest⟩ := Txn.exec_bind_ok hrest
    obtain ⟨rfl, rfl⟩ := Prod.mk.inj (Except.ok.inj hrest)
    obtain ⟨logs, hback⟩ := rollbackItems_ok _ ht'
    have hstill := still_of_orders hback.orders
    exact Or.inr ⟨rfl, hturn.before, hturn.owner, hstill.status.trans hturn.status,
      hstill.owners.trans hturn.owners⟩

theorem cancelOrder_turn (h : (cancelOrder u id snapshot).exec s = .ok (v, s')) :
    (s' = s ∧ snapshot.status id = some .cancelled ∧ snapshot.ownerOf id = some u) ∨
      Turned s s' id u .pending .cancelled := by
  unfold cancelOrder at h
  split at h
  · exact absurd h (by simp)
  · rename_i order horder
    obtain ⟨hrow, hu⟩ := getOrderByID_eq_some horder
    split at h
    · rename_i hst
      obtain ⟨-, rfl⟩ := Prod.mk.inj (Except.ok.inj h)
      exact Or.inl ⟨rfl, by rw [DB.status, hrow, Option.map_some, hst],
        by rw [DB.ownerOf, hrow, Option.map_some, hu]⟩
    · exact absurd h (by simp)
    · exact absurd h (by simp)
    · obtain ⟨b, t, hc, h⟩ := Txn.exec_bind_ok h
      rcases cancelPendingOrder_turn hc with ⟨rfl, -, -⟩ | ⟨rfl, hturn⟩
      · exact absurd h (by simp)
      · obtain ⟨-, rfl⟩ := Prod.mk.inj (Except.ok.inj h)
        exact Or.inr (hu ▸ hturn)

section

variable [Collation]

/-- The timeout row of an order, when it is the row of this event. -/
def DB.timeoutOf (s : DB) (eventID : GoString) (orderID : Int) : Option OrderTimeoutOutbox :=
  (s.outboxOf orderID).filter fun row => Collation.weight row.eventID = Collation.weight eventID

/-- `CancelExpiredOrder` cancels a pending order whose deadline has passed, or it has found the
order gone from `pending`, or it has found no order for the event. -/
theorem cancelExpiredOrder_turn {eventID : GoString} {id now : Int}
    (h : (cancelExpiredOrder eventID id now snapshot).exec s = .ok (v, s')) :
    (s' = s ∧ (snapshot.timeoutOf eventID id = none ∨ snapshot.status id ≠ some .pending ∨
        ¬(s.status id = some .pending ∧ s.ownerOf id = snapshot.ownerOf id))) ∨
      ∃ outbox u, snapshot.timeoutOf eventID id = some outbox ∧ outbox.timeoutAt ≤ now ∧
        Turned s s' id u .pending .cancelled := by
  unfold cancelExpiredOrder at h
  split at h
  · rename_i hnone
    exact Or.inl ⟨(Prod.mk.inj (Except.ok.inj h)).2.symm, Or.inl hnone⟩
  · rename_i outbox houtbox
    split at h
    · exact absurd h (by simp)
    · rename_i hdue
      split at h
      · rename_i hnone
        refine Or.inl ⟨(Prod.mk.inj (Except.ok.inj h)).2.symm, Or.inr (Or.inl ?_)⟩
        simp [DB.status, hnone]
      · rename_i order horder
        split at h
        · rename_i hst
          refine Or.inl ⟨(Prod.mk.inj (Except.ok.inj h)).2.symm, Or.inr (Or.inl ?_)⟩
          simpa [DB.status, horder] using hst
        · obtain ⟨b, t, hc, h⟩ := Txn.exec_bind_ok h
          obtain ⟨-, rfl⟩ := Prod.mk.inj (Except.ok.inj h)
          rcases cancelPendingOrder_turn hc with ⟨-, rfl, hnot⟩ | ⟨-, hturn⟩
          · refine Or.inl ⟨rfl, Or.inr (Or.inr ?_)⟩
            rwa [DB.ownerOf, DB.ownerOf, horder, Option.map_some]
          · exact Or.inr ⟨outbox, order.userID, houtbox, Int.not_lt.mp hdue, hturn⟩

end

/-- What a committed request does to the statuses. -/
inductive Turn (snapshot s : DB) : Request → Answer → DB → Prop
  | placed {env : CreateContext} {u : Int} {req : CreateOrderRequest} {s' : DB}
      (hfresh : s.status env.orderID = none)
      (hstatus : s'.status = Function.update s.status env.orderID (some .pending))
      (howners : s'.ownerOf = Function.update s.ownerOf env.orderID (some u)) :
      Turn snapshot s (.createOrder env u req) (.order (.created env.orderID)) s'
  | paid {u id : Int} {s' : DB} (h : Turned s s' id u .pending .paid) :
      Turn snapshot s (.payOrder u id) .done s'
  | finished {u id : Int} {s' : DB} (h : Turned s s' id u .paid .finished) :
      Turn snapshot s (.finishOrder u id) .done s'
  | cancelled {u id : Int} {s' : DB} (h : Turned s s' id u .pending .cancelled) :
      Turn snapshot s (.cancelOrder u id) .done s'
  /-- the order was cancelled when the request began -/
  | again {u id : Int} (hst : snapshot.status id = some .cancelled)
      (hu : snapshot.ownerOf id = some u) : Turn snapshot s (.cancelOrder u id) .done s
  | expired {eventID : GoString} {u id now : Int} {s' : DB}
      (h : Turned s s' id u .pending .cancelled) :
      Turn snapshot s (.cancelExpiredOrder eventID id now) .done s'
  | ignored {eventID : GoString} {id now : Int} :
      Turn snapshot s (.cancelExpiredOrder eventID id now) .done s
  | existing {env : CreateContext} {u : Int} {req : CreateOrderRequest} {id : Int} :
      Turn snapshot s (.createOrder env u req) (.order (.existing id)) s
  | initialised {product : Option Product} {req : InitInventoryRequest} {s' : DB}
      (h : Still s s') : Turn snapshot s (.initInventory product req) .done s'
  | added {product : Option Product} {req : AddInventoryRequest} {s' : DB}
      (h : Still s s') : Turn snapshot s (.addInventory product req) .done s'

theorem prog_turn [Collation] [Digest] (h : (req.prog snapshot).exec s = .ok (a, s')) :
    Turn snapshot s req a s' := by
  cases req with
  | initInventory product req =>
    obtain ⟨v, hx, rfl⟩ := exec_answer h
    obtain ⟨logs, hs⟩ := initInventory_ok hx
    exact .initialised (still_of_orders hs.orders)
  | addInventory product req =>
    obtain ⟨v, hx, rfl⟩ := exec_answer h
    obtain ⟨logs, hs⟩ := addInventory_ok hx
    exact .added (still_of_orders hs.orders)
  | createOrder env u req =>
    obtain ⟨c, hx, rfl⟩ := exec_answer h
    obtain ⟨-, ⟨rfl, row, new, logs, hp, -⟩ | ⟨id, rfl, rfl, -, -⟩⟩ := createOrder_ok hx
    · refine .placed (by rw [DB.status, hp.fresh_id, Option.map_none]) ?_ ?_
      · rw [status_update hp.orders, hp.status]
      · rw [ownerOf_update hp.orders, hp.owner]
    · exact .existing
  | payOrder u id =>
    obtain ⟨v, hx, rfl⟩ := exec_answer h
    exact .paid (payOrder_turn hx)
  | finishOrder u id =>
    obtain ⟨v, hx, rfl⟩ := exec_answer h
    exact .finished (finishOrder_turn hx)
  | cancelOrder u id =>
    obtain ⟨v, hx, rfl⟩ := exec_answer h
    rcases cancelOrder_turn hx with ⟨rfl, hst, hu⟩ | hturn
    · exact .again hst hu
    · exact .cancelled hturn
  | cancelExpiredOrder eventID id now =>
    obtain ⟨v, hx, rfl⟩ := exec_answer h
    rcases cancelExpiredOrder_turn hx with ⟨rfl, -⟩ | ⟨-, u, -, -, hturn⟩
    · exact .ignored
    · exact .expired hturn

/-- The one step at which an order is cancelled. -/
theorem cancelled_of_turn (h : Turn snapshot s req a s') (hbefore : s.status id ≠ some .cancelled)
    (hafter : s'.status id = some .cancelled) :
    (∃ u, req = .cancelOrder u id ∧ s.ownerOf id = some u) ∨
      ∃ eventID now, req = .cancelExpiredOrder eventID id now := by
  -- an update of another order, or to another status, does not do it
  have hturned : ∀ {id' u : Int} {st st' : OrderStatus}, Turned s s' id' u st st' →
      id' = id ∧ st' = .cancelled ∧ s.ownerOf id = some u := by
    intro id' u st st' ht
    rw [ht.status, Function.update_apply] at hafter
    split at hafter
    · rename_i hid
      exact ⟨hid.symm, Option.some.inj hafter, hid ▸ ht.owner⟩
    · exact absurd hafter hbefore
  cases h with
  | placed hfresh hstatus howners =>
    rw [hstatus, Function.update_apply] at hafter
    split at hafter
    · cases hafter
    · exact absurd hafter hbefore
  | paid ht => cases (hturned ht).2.1
  | finished ht => cases (hturned ht).2.1
  | cancelled ht =>
    obtain ⟨rfl, -, hu⟩ := hturned ht
    exact Or.inl ⟨_, rfl, hu⟩
  | expired ht =>
    obtain ⟨rfl, -, -⟩ := hturned ht
    exact Or.inr ⟨_, _, rfl⟩
  | again | ignored | existing => exact absurd hafter hbefore
  | initialised ht | added ht => exact absurd (ht.status ▸ hafter) hbefore

/-! ## 3. Orders go forward -/

/-- Every order of the first state has the same owner in the second, and a status that its status
leads to. -/
structure Forward (s s' : DB) : Prop where
  leads : ∀ id, Leads (s.status id) (s'.status id)
  owners : ∀ id u, s.ownerOf id = some u → s'.ownerOf id = some u

theorem Forward.refl (s : DB) : Forward s s := ⟨fun _ => .refl _, fun _ _ h => h⟩

theorem Forward.trans {s t s' : DB} (h : Forward s t) (h' : Forward t s') : Forward s s' :=
  ⟨fun id => (h.leads id).trans (h'.leads id), fun id u hu => h'.owners id u (h.owners id u hu)⟩

theorem Still.forward (h : Still s s') : Forward s s' :=
  ⟨fun id => by rw [h.status]; exact .refl _, fun id u hu => by rw [h.owners]; exact hu⟩

theorem Turned.forward (h : Turned s s' id u st st') (hst : Leads (some st) (some st')) :
    Forward s s' := by
  refine ⟨fun id' => ?_, fun id' u' hu => by rw [h.owners]; exact hu⟩
  rw [h.status, Function.update_apply]
  split
  · rename_i hid
    rw [hid, h.before]
    exact hst
  · exact .refl _

theorem Turn.forward (h : Turn snapshot s req a s') : Forward s s' := by
  cases h with
  | @placed env u req s' hfresh hstatus howners =>
    constructor
    · intro id
      rw [hstatus, Function.update_apply]
      split
      · rename_i hid
        rw [hid, hfresh]
        exact .placed _
      · exact .refl _
    · intro id u' hu
      have hne : id ≠ env.orderID := by
        rintro rfl
        obtain ⟨row, hrow, -⟩ := Option.map_eq_some_iff.mp hu
        rw [DB.status, hrow] at hfresh
        exact absurd hfresh (by simp)
      rw [howners, Function.update_of_ne hne]
      exact hu
  | paid h => exact h.forward (.pending _)
  | finished h => exact h.forward .paid
  | cancelled h => exact h.forward (.pending _)
  | again hst hu => exact .refl _
  | expired h => exact h.forward (.pending _)
  | ignored => exact .refl _
  | existing => exact .refl _
  | initialised h | added h => exact h.forward

end

/-! ## 4. The history of an order -/

/-- The milestone of an order that a committed request is. -/
def milestone (id : Int) : Request × Answer → Option Milestone
  | (.createOrder _ _ _, .order (.created orderID)) => if orderID = id then some .placed else none
  | (.payOrder _ orderID, _) => if orderID = id then some .paid else none
  | (.finishOrder _ orderID, _) => if orderID = id then some .finished else none
  | _ => none

/-- The milestones of an order, in the order of the commits. -/
def milestones (id : Int) (history : List (Request × Answer)) : List Milestone :=
  history.filterMap (milestone id)

theorem milestones_snoc (id : Int) (H : List (Request × Answer)) (e : Request × Answer) :
    milestones id (H ++ [e]) = milestones id H ++ (milestone id e).toList := by
  rw [milestones, List.filterMap_append]
  cases h : milestone id e with
  | none => simp [milestones, h]
  | some m => simp [milestones, h]

/-- The user on whose behalf a request moves an order. -/
def mover (id : Int) : Request → Option Int
  | .payOrder u orderID => if orderID = id then some u else none
  | .finishOrder u orderID => if orderID = id then some u else none
  | .cancelOrder u orderID => if orderID = id then some u else none
  | _ => none

/-- **What the committed requests say about an order.** -/
structure Lived (history : List (Request × Answer)) (s : DB) (id : Int) : Prop where
  milestones : milestones id history = path (s.status id)
  owner : ∀ e ∈ history, ∀ u, mover id e.1 = some u → s.ownerOf id = some u
  cancelled : ∀ u a, (.cancelOrder u id, a) ∈ history → s.status id = some .cancelled

theorem lived_empty (id : Int) : Lived [] DB.empty id :=
  ⟨rfl, fun e he => absurd he (by simp), fun u a he => absurd he (by simp)⟩

variable {H : List (Request × Answer)}

/-- One more request, which is no cancellation of the order by its owner. -/
theorem Lived.snoc {s s' : DB} {id : Int} {e : Request × Answer} (h : Lived H s id)
    (hf : Forward s s')
    (hpath : path (s'.status id) = path (s.status id) ++ (milestone id e).toList)
    (howner : ∀ u, mover id e.1 = some u → s'.ownerOf id = some u)
    (hcancel : ∀ u a, e = (.cancelOrder u id, a) → s'.status id = some .cancelled) :
    Lived (H ++ [e]) s' id := by
  refine ⟨by rw [milestones_snoc, h.milestones, hpath], fun x hx u hu => ?_, fun u a hx => ?_⟩
  · rcases List.mem_append.mp hx with hx | hx
    · exact hf.owners id u (h.owner x hx u hu)
    · rw [List.mem_singleton.mp hx] at hu
      exact howner u hu
  · rcases List.mem_append.mp hx with hx | hx
    · have hleads := hf.leads id
      rw [h.cancelled u a hx] at hleads
      exact hleads.cancelled
    · exact hcancel u a (List.mem_singleton.mp hx).symm

/-- One more request that leaves the order where it is. -/
theorem Lived.same {s s' : DB} {id : Int} {e : Request × Answer} (h : Lived H s id)
    (hf : Forward s s') (hst : s'.status id = s.status id) (hm : milestone id e = none)
    (howner : mover id e.1 = none) (hcancel : ∀ u a, e ≠ (.cancelOrder u id, a)) :
    Lived (H ++ [e]) s' id := by
  refine h.snoc hf (by rw [hst, hm, Option.toList_none, List.append_nil]) (fun u hu => ?_)
    fun u a he => absurd he (hcancel u a)
  rw [howner] at hu
  cases hu

/-- One more request, which moves an order of its user. -/
theorem Lived.turned {s s' : DB} {id id' u : Int} {st st' : OrderStatus} {req : Request}
    (h : Lived H s id) (ht : Turned s s' id' u st st') (hleads : Leads (some st) (some st'))
    (hpath : path (some st') = path (some st) ++ (milestone id' (req, .done)).toList)
    (hother : id ≠ id' → milestone id (req, .done) = none ∧ mover id req = none)
    (hu : ∀ v, mover id' req = some v → v = u)
    (hcancel : ∀ v, req = .cancelOrder v id' → st' = .cancelled) :
    Lived (H ++ [(req, .done)]) s' id := by
  have hf := ht.forward hleads
  by_cases hid : id = id'
  · subst hid
    refine h.snoc hf ?_ (fun v hv => ?_) fun v a he => ?_
    · rw [ht.status, Function.update_self, ht.before, hpath]
    · rw [ht.owners, ht.owner, hu v hv]
    · rw [ht.status, Function.update_self, hcancel v (Prod.mk.inj he).1]
  · obtain ⟨hm, howner⟩ := hother hid
    refine h.same hf (by rw [ht.status, Function.update_of_ne hid]) hm howner fun v a he => ?_
    rw [(Prod.mk.inj he).1, mover, if_pos rfl] at howner
    cases howner

/-- **A committed request takes every order one step on its way, or leaves it.** -/
theorem Lived.turn {snapshot s s' : DB} {req : Request} {a : Answer} {id : Int} (h : Lived H s id)
    (hsnap : Forward snapshot s) (ht : Turn snapshot s req a s') :
    Lived (H ++ [(req, a)]) s' id := by
  have hf := ht.forward
  cases ht with
  | @placed env u req s' hfresh hstatus howners =>
    by_cases hid : id = env.orderID
    · subst hid
      refine h.snoc hf ?_ (fun v hv => ?_) fun v a he => ?_
      · rw [hstatus, Function.update_self, hfresh, milestone, if_pos rfl]
        rfl
      · cases hv
      · cases he
    · refine h.same hf (by rw [hstatus, Function.update_of_ne hid]) ?_ rfl fun v a he => ?_
      · rw [milestone, if_neg (Ne.symm hid)]
      · cases he
  | @paid u id' s' hturn =>
    refine h.turned hturn (.pending _) ?_ (fun hid => ?_) (fun v hv => ?_) fun v he => ?_
    · rw [milestone, if_pos rfl]
      rfl
    · rw [milestone, mover, if_neg (Ne.symm hid), if_neg (Ne.symm hid)]
      exact ⟨rfl, rfl⟩
    · rw [mover, if_pos rfl] at hv
      exact (Option.some.inj hv).symm
    · cases he
  | @finished u id' s' hturn =>
    refine h.turned hturn .paid ?_ (fun hid => ?_) (fun v hv => ?_) fun v he => ?_
    · rw [milestone, if_pos rfl]
      rfl
    · rw [milestone, mover, if_neg (Ne.symm hid), if_neg (Ne.symm hid)]
      exact ⟨rfl, rfl⟩
    · rw [mover, if_pos rfl] at hv
      exact (Option.some.inj hv).symm
    · cases he
  | @cancelled u id' s' hturn =>
    refine h.turned hturn (.pending _) rfl (fun hid => ?_) (fun v hv => ?_) fun _ _ => rfl
    · rw [mover, if_neg (Ne.symm hid)]
      exact ⟨rfl, rfl⟩
    · rw [mover, if_pos rfl] at hv
      exact (Option.some.inj hv).symm
  | @again u id' hst hu =>
    refine h.snoc hf (List.append_nil _).symm (fun v hv => ?_) fun v a he => ?_
    · simp only [mover] at hv
      split at hv
      · rename_i hid
        rw [← Option.some.inj hv, ← hid]
        exact hsnap.owners id' u hu
      · cases hv
    · have hid := (Request.cancelOrder.inj (Prod.mk.inj he).1).2
      have hleads := hsnap.leads id'
      rw [hst] at hleads
      rw [← hid]
      exact hleads.cancelled
  | @expired eventID u id' now s' hturn =>
    refine h.turned hturn (.pending _) rfl (fun _ => ⟨rfl, rfl⟩) (fun v hv => ?_) fun v he => ?_
    · cases hv
    · cases he
  | ignored | existing => exact h.same hf rfl rfl rfl fun v a he => by cases he
  | initialised hstill | added hstill =>
    exact h.same hf (by rw [hstill.status]) rfl rfl fun v a he => by cases he

/-! ## 5. Every run -/

section

variable [Collation] [Digest]

theorem lived_run {es : List (LockEvent Request)} {s : System} (h : run step start es = some s) :
    Carried Request.prog (fun H S => ∀ id, Lived H S id) Forward s := by
  refine locking_invariant (fun id => lived_empty id) Forward.refl ?_ h
  intro H S req snap a S' hS hsnap hexec
  have hturn := prog_turn hexec
  exact ⟨fun id => (hS id).turn hsnap hturn, fun T hT => hT.trans hturn.forward⟩

/-- A step takes the orders forward. -/
theorem forward_step {s s' : System} {e : LockEvent Request} (hT : Tracked Request.prog s)
    (h : step s e = some s') : Forward s.store s'.store := by
  rcases commit_exec hT h with ⟨hst, -⟩ | ⟨t, a, r, -, -, hexec⟩
  · rw [hst]
    exact .refl _
  · exact (prog_turn hexec).forward

theorem forward_run {s s' : System} {es : List (LockEvent Request)} (hT : Tracked Request.prog s)
    (h : run step s es = some s') : Forward s.store s'.store := by
  refine run_relation_of (C := fun _ _ => True) (I := Tracked Request.prog)
    (R := fun s s' : System => Forward s.store s'.store) (fun s e s' hT _ hs => tracked_step hT hs)
    (fun s => .refl _) ?_ hT (meets_true _ _) h
  intro s₀ s e s' hT _ hs hR
  exact hR.trans (forward_step hT hs)

/-- **An order goes through its life once.**  In every run of the monolith, over any interleaving
of its transactions: the requests that have committed and that created, paid or finished an order
are, in the order of the commits, the milestones on the way to the status it has; whoever paid,
finished or cancelled it is its owner; if its owner's cancellation succeeded it is cancelled.  And
whatever happens next, its status only goes forward. -/
theorem order_lifecycle (es es' : List (LockEvent Request)) (s s' : System)
    (h : run step start es = some s) (h' : run step s es' = some s') (id : Int) :
    milestones id s.history = path (DB.status s.store id) ∧
    (∀ e ∈ s.history, ∀ u, mover id e.1 = some u → DB.ownerOf s.store id = some u) ∧
    (∀ u a, (.cancelOrder u id, a) ∈ s.history → DB.status s.store id = some .cancelled) ∧
    Leads (DB.status s.store id) (DB.status s'.store id) := by
  have hC := lived_run h
  exact ⟨(hC.holds id).milestones, (hC.holds id).owner, (hC.holds id).cancelled,
    (forward_run hC.tracked h').leads id⟩

end

/-- An order of one pen, and its owner pays it. -/
def paying : List (LockEvent Request) :=
  stocking ++ starts 1 (orderOf 9 0x6B [⟨1, 1⟩]) ++ List.replicate 17 (.stmt 1) ++
  [.commit 1, .start 2 (.payOrder 7 9), .start 3 (.cancelOrder 7 9), .stmt 2, .stmt 2, .commit 2]

/-- A cancellation that began while the order was pending comes too late and fails. -/
theorem order_lifecycle_paying :
    letI := asciiCi
    letI := tallyDigest
    ∃ s s' : System, run step start paying = some s ∧
      run step s [.stmt 3, .abort 3] = some s' ∧ milestones 9 s.history = [.placed, .paid] ∧
      Leads (DB.status s.store 9) (DB.status s'.store 9) := by
  let _ : Collation := asciiCi
  let _ : Digest := tallyDigest
  have h : ((run step start paying).bind fun s =>
      (run step s [.stmt 3, .abort 3]).map fun s' => milestones 9 s.history) =
      some [.placed, .paid] := by decide +kernel
  obtain ⟨s, hs, h⟩ := Option.bind_eq_some_iff.mp h
  obtain ⟨s', hs', hm⟩ := Option.map_eq_some_iff.mp h
  exact ⟨s, s', hs, hs', hm, (order_lifecycle paying _ s s' hs hs' 9).2.2.2⟩

end OrderSystem.Monolith
