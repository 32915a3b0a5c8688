/-
# The order service

`Create`, `Cancel`, `TimeoutCancel`, `Pay` and `Finish` of `internal/ordersvc/order.go`, each
as the states its call goes through.  A state is named after the statement or the remote call
the code is about to make there and carries the values the code still needs.  Four functions
say how a call moves:

* `stmt` -- the statement a call is about to run (`Schema.lean`);
* `after` -- where it goes with what the statement returned;
* `request` -- the inventory request it waits on;
* `resume` -- where it goes with the answer.

`cancel` and `Pay` have one shape: load the order, claim it with a transient status, call the
inventory service, then finalise, revert or ask for reconciliation.  They are one definition
with the two statuses and the request as parameters (`SettleKind`).  `Get` and `List` only read
(`Reader`).
-/
import OrderSystem.OrderSvc.Schema
import OrderSystem.InventorySvc.Model

namespace OrderSystem.OrderSvc

open OrderSystem.Kit
open OrderSystem.InventorySvc (Reservation ReserveRequest Settlement)

/-! ## 1. The clients -/

/-- `CatalogProduct`, as far as the service reads it. -/
structure CatalogProduct where
  id : Int
  name : GoString
  priceFen : Int
  status : Int
  deriving DecidableEq

/-- A request of the inventory client. -/
inductive InventoryOp where
  | reserve (req : ReserveRequest)
  | settle (target : Settlement) (reservationID : GoString)
  deriving DecidableEq

/-- The answer the inventory client returns. -/
abbrev Reply := Except Err Reservation

/-- `InventoryClient.Reserve`; `none` is `errInvalidReservationIdentity`. -/
def reserveRequest (orderID : Nat) (reservationID : GoString) (items : List ItemRequest) :
    Option InventoryOp :=
  if orderID = 0 ∨ trimSpace reservationID = [] then none
  else some (.reserve ⟨orderID, trimSpace reservationID, items⟩)

/-- `InventoryClient.transition`. -/
def settleRequest (target : Settlement) (reservationID : GoString) : Option InventoryOp :=
  if trimSpace reservationID = [] then none
  else some (.settle target (trimSpace reservationID))

/-! ## 2. Create -/

/-- The running state of the item loop of `resolveItems`. -/
structure Resolved where
  items : List OrderItem
  reserveItems : List ItemRequest
  total : Int
  deriving DecidableEq

/-- The body of the item loop of `resolveItems`, for one aggregated line. -/
def resolveItem (acc : Resolved) (line : ItemRequest) (product : CatalogProduct) :
    Except Err Resolved :=
  if product.status ≠ 1 ∨ product.priceFen ≤ 0 then .error (.productUnavailable line.productID)
  else if line.quantity = 0 then .error .panic
  else
    let amount := wrap64 (product.priceFen * line.quantity)
    if product.priceFen > maxInt64.tdiv line.quantity ∨ acc.total > wrap64 (maxInt64 - amount) then
      .error .invalidOrderRequest
    else .ok
      { items := acc.items ++ [⟨product.id, product.name, product.priceFen, line.quantity⟩]
        reserveItems := acc.reserveItems ++ [⟨product.id, line.quantity⟩]
        total := wrap64 (acc.total + amount) }

/-- The item loop of `resolveItems`. -/
def resolveLoop (catalog : Int → Except GoString CatalogProduct) :
    Resolved → List ItemRequest → Except Err Resolved
  | acc, [] => .ok acc
  | acc, line :: lines =>
    match catalog line.productID with
    | .error message => .error (.catalog message)
    | .ok product =>
      match resolveItem acc line product with
      | .error e => .error e
      | .ok acc' => resolveLoop catalog acc' lines

/-- `Service.resolveItems`. -/
def resolveItems (catalog : Int → Except GoString CatalogProduct) (requested : List ItemRequest) :
    Except Err Resolved :=
  if requested.length = 0 ∨ 100 < requested.length then .error .invalidOrderRequest
  else
    match aggregate [] requested with
    | none => .error .invalidOrderRequest
    | some quantities => resolveLoop catalog ⟨[], [], 0⟩ quantities.sorted

/-- A call of `Service.Create`. -/
structure CreateCall where
  timeoutDelay : Int
  userID : Int
  idempotencyKey : GoString
  items : List ItemRequest

/-- The key the call uses. -/
def CreateCall.key (c : CreateCall) : GoString := trimSpace c.idempotencyKey

/-- The result of a call that returns an order. -/
abbrev OrderResult := Except Err (Nat × Order)

/-- Where a call of `Create` is. -/
inductive CreatePc where
  /-- the first `findByIdempotency` -/
  | lookup
  /-- `resolveItems` and `uuid.NewString()` -/
  | resolve
  /-- the inserting transaction -/
  | insert (draft : OrderDraft) (items : List ItemRequest)
  /-- the second `findByIdempotency` -/
  | relookup (cause : Err)
  /-- `inventory.Reserve` -/
  | reserve (orderID : Nat) (reservationID : GoString) (items : List ItemRequest)
  /-- the write of `failed` after `Reserve` returned an error -/
  | fail (orderID : Nat) (cause : Err)
  /-- the transaction to `pending` -/
  | finalize (orderID : Nat) (reservationID : GoString)
  /-- `releaseWithTimeout` -/
  | release (orderID : Nat) (reservationID : GoString) (cause : Err)
  /-- the compensation write -/
  | compensate (orderID : Nat) (status : OrderStatus) (reason : GoString) (result : Err)
  /-- the final `Get` -/
  | get (orderID : Nat)
  | returned (result : OrderResult)

/-- The first state of a call: the checks before any statement. -/
def CreateCall.start (c : CreateCall) : CreatePc :=
  if c.userID ≤ 0 then .returned (.error .invalidOrderRequest)
  else if c.key = [] ∨ 64 < c.key.length then .returned (.error .invalidOrderRequest)
  else .lookup

namespace CreatePc

def stmt (c : CreateCall) : CreatePc → Option Stmt
  | lookup => some (.findByIdempotency c.userID c.key)
  | insert draft _ => some (.insertOrder draft)
  | relookup _ => some (.findByIdempotency c.userID c.key)
  | fail orderID cause => some (.writeStatus orderID .failed (truncate cause.text 500))
  | finalize orderID reservationID =>
    some (.finalizeCreate orderID reservationID c.timeoutDelay)
  | compensate orderID status reason _ =>
    some (.writeStatus orderID status (truncate reason 500))
  | get orderID => some (.get (some c.userID) orderID)
  | resolve | reserve _ _ _ | release _ _ _ | returned _ => none

def after : CreatePc → Except Err Res → CreatePc
  | lookup, .ok (.order id o) => returned (.ok (id, o))
  | lookup, .error .orderNotFound => resolve
  | lookup, .error e => returned (.error e)
  | insert draft items, .ok (.inserted id) => reserve id draft.reservationID items
  | insert _ _, .error e => relookup e
  | relookup _, .ok (.order id o) => returned (.ok (id, o))
  | relookup cause, _ => returned (.error cause)
  -- the error of this write is ignored
  | fail _ cause, _ => returned (.error (.reservationFailed cause.text))
  | finalize orderID _, .ok _ => get orderID
  | finalize orderID reservationID, .error e => release orderID reservationID e
  -- ...and of this one
  | compensate _ _ _ result, _ => returned (.error result)
  | get _, .ok (.order id o) => returned (.ok (id, o))
  | get _, .error e => returned (.error e)
  | pc, _ => pc

/-- `resolveItems`, and the order `Create` builds from it. -/
def resolved (c : CreateCall) (catalog : Int → Except GoString CatalogProduct)
    (uuid : GoString) : CreatePc :=
  match resolveItems catalog c.items with
  | .error e => returned (.error e)
  | .ok r => insert ⟨c.userID, r.total, uuid, c.key, r.items⟩ r.reserveItems

/-- The inventory request a call waits on: `some none` when the client refuses to send it. -/
def request : CreatePc → Option (Option InventoryOp)
  | reserve orderID reservationID items => some (reserveRequest orderID reservationID items)
  | release _ reservationID _ => some (settleRequest .release reservationID)
  | _ => none

def resume : CreatePc → Reply → CreatePc
  | reserve orderID _ _, .ok r => finalize orderID r.id
  | reserve orderID _ _, .error e => fail orderID e
  | release orderID _ cause, .ok _ => compensate orderID .failed cause.text cause
  | release orderID _ cause, .error e => compensate orderID .reconciliationRequired
      (cause.text ++ str "; release compensation failed: " ++ e.text) .compensationRequired
  | pc, _ => pc

end CreatePc

/-! ## 3. Cancel and Pay -/

/-- The two operations that settle an order. -/
inductive SettleKind where
  | cancel
  | pay
  deriving DecidableEq, Repr

namespace SettleKind

/-- The status that claims the order. -/
def transient : SettleKind → OrderStatus
  | cancel => .cancelling
  | pay => .paying

/-- The status the operation is for. -/
def final : SettleKind → OrderStatus
  | cancel => .cancelled
  | pay => .paid

/-- What it asks of the inventory service. -/
def target : SettleKind → Settlement
  | cancel => .release
  | pay => .confirm

end SettleKind

/-- A call of `Service.cancel` or `Service.Pay`.  `system` is `TimeoutCancel`, which looks at no
user; `origin` is the delivery the timeout worker made the call for. -/
structure SettleCall where
  kind : SettleKind
  system : Bool
  userID : Int
  orderID : Nat
  origin : Option Nat

/-- The user filter of its statements. -/
def SettleCall.user (c : SettleCall) : Option Int := if c.system then none else some c.userID

/-- Where such a call is. -/
inductive SettlePc where
  /-- `loadForTransition` -/
  | load
  /-- the update that claims the order -/
  | claim (order : Order)
  /-- `inventory.Release` or `inventory.Confirm` -/
  | call (order : Order)
  /-- back to `pending` -/
  | revert (cause : Err)
  /-- the finalising transaction -/
  | finalize
  /-- the write of `reconciliation_required` -/
  | compensate (cause : Err)
  /-- the final load -/
  | reload
  | returned (result : OrderResult)

namespace SettlePc

def stmt (c : SettleCall) : SettlePc → Option Stmt
  | load => some (.get c.user c.orderID)
  | claim _ => some (.claim c.user c.orderID c.kind.transient)
  | revert cause => some (.revert c.orderID c.kind.transient (truncate cause.text 500))
  | finalize => some (.finalizeSettle c.orderID c.kind.transient c.kind.final)
  | compensate cause =>
    some (.writeStatus c.orderID .reconciliationRequired (truncate cause.text 500))
  | reload => some (.get c.user c.orderID)
  | call _ | returned _ => none

def after (c : SettleCall) : SettlePc → Except Err Res → SettlePc
  | load, .ok (.order id o) =>
    if o.status = c.kind.final then returned (.ok (id, o))
    else if o.status ≠ .pending then returned (.error .invalidOrderState)
    else claim o
  | load, .error e => returned (.error e)
  | claim o, .ok _ => call o
  | claim _, .error e => returned (.error e)
  | revert cause, _ => returned (.error cause)
  | finalize, .ok _ => reload
  | finalize, .error e => compensate e
  | compensate _, _ => returned (.error .compensationRequired)
  | reload, .ok (.order id o) => returned (.ok (id, o))
  | reload, .error e => returned (.error e)
  | pc, _ => pc

def request (c : SettleCall) : SettlePc → Option (Option InventoryOp)
  | call o => some (settleRequest c.kind.target o.reservationID)
  | _ => none

def resume : SettlePc → Reply → SettlePc
  | call _, .ok _ => finalize
  | call _, .error e => revert e
  | pc, _ => pc

end SettlePc

/-- `TimeoutCancel` reports an order that is gone or not pending as done. -/
def timeoutResult : OrderResult → Option Err
  | .ok _ => none
  | .error .invalidOrderState => none
  | .error .orderNotFound => none
  | .error e => some e

/-! ## 4. Finish -/

/-- A call of `Service.Finish`. -/
structure FinishCall where
  userID : Int
  orderID : Nat

/-- Where it is. -/
inductive FinishPc where
  | update
  | get
  | returned (result : OrderResult)

namespace FinishPc

def stmt (c : FinishCall) : FinishPc → Option Stmt
  | update => some (.finish c.userID c.orderID)
  | get => some (.get (some c.userID) c.orderID)
  | returned _ => none

def after : FinishPc → Except Err Res → FinishPc
  | update, .ok _ => get
  | update, .error e => returned (.error e)
  | get, .ok (.order id o) => returned (.ok (id, o))
  | get, .error e => returned (.error e)
  | pc, _ => pc

end FinishPc

/-! ## 5. Get and List -/

/-- The query of `Service.Get`. -/
def getOrder (db : DB) (userID : Int) (orderID : Nat) : OrderResult :=
  match (db.orders.row orderID).filter fun o => decide (o.userID = userID) with
  | none => .error .orderNotFound
  | some o => .ok (orderID, o)

/-- The orders of a user, oldest first. -/
def ordersOf (db : DB) (userID : Int) : List (Nat × Order) :=
  db.orders.select fun o => decide (o.userID = userID)

/-- The page `List` reads; the offset is computed in machine arithmetic, and one that is not
positive is left out of the query. -/
def listOrders (db : DB) (userID page pageSize : Int) : List (Nat × Order) :=
  let offset := wrap64 ((page - 1) * pageSize)
  ((ordersOf db userID).reverse.drop offset.toNat).take pageSize.toNat

/-- Where a call of `Get` or `List` is. -/
inductive Reader where
  | get (userID : Int) (orderID : Nat)
  | got (userID : Int) (result : OrderResult)
  /-- `List` counts the orders of the user -/
  | count (userID page pageSize : Int)
  /-- ...and reads one page of them -/
  | find (userID page pageSize : Int) (total : Nat)
  | listed (userID : Int) (result : Except Err (List (Nat × Order) × Nat))

namespace Reader

/-- `Service.List`, which gives the two arguments their defaults. -/
def list (userID page pageSize : Int) : Reader :=
  .count userID (if page ≤ 0 then 1 else page)
    (if pageSize ≤ 0 ∨ 100 < pageSize then 20 else pageSize)

/-- The user who asks. -/
def userID : Reader → Int
  | get u _ => u
  | got u _ => u
  | count u _ _ => u
  | find u _ _ _ => u
  | listed u _ => u

/-- The orders a call has returned. -/
def orders : Reader → List (Nat × Order)
  | got _ (.ok order) => [order]
  | listed _ (.ok (orders, _)) => orders
  | _ => []

/-- The query of a call is answered. -/
def read (db : DB) : Reader → Option Reader
  | get u orderID => some (got u (getOrder db u orderID))
  | count u page pageSize => some (find u page pageSize (ordersOf db u).length)
  | find u page pageSize total => some (listed u (.ok (listOrders db u page pageSize, total)))
  | got _ _ | listed _ _ => none

/-- The query of a call fails. -/
def fail (message : GoString) : Reader → Option Reader
  | get u _ => some (got u (.error (.storage message)))
  | count u _ _ => some (listed u (.error (.storage message)))
  | find u _ _ _ => some (listed u (.error (.storage message)))
  | got _ _ | listed _ _ => none

/-- The orders a call of `Get` or `List` returns are its user's. -/
theorem read_own {db : DB} {r r' : Reader} (h : r.read db = some r') :
    ∀ x ∈ r'.orders, x.2.userID = r'.userID := by
  cases r with
  | get u orderID =>
    obtain rfl := Option.some.inj h
    intro x hx
    unfold getOrder at hx
    split at hx
    · exact absurd hx (by simp [orders])
    · rename_i o hrow
      obtain rfl := List.mem_singleton.mp hx
      exact of_decide_eq_true (Option.filter_eq_some_iff.mp hrow).2
  | count u page pageSize =>
    obtain rfl := Option.some.inj h
    intro x hx
    exact absurd hx (by simp [orders])
  | find u page pageSize total =>
    obtain rfl := Option.some.inj h
    rintro ⟨i, o⟩ hx
    have hmem := List.mem_reverse.mp (List.mem_of_mem_drop (List.mem_of_mem_take hx))
    exact of_decide_eq_true (Table.mem_select.mp hmem).2
  | got u result => exact absurd h (by simp [read])
  | listed u result => exact absurd h (by simp [read])

theorem fail_orders {message : GoString} {r r' : Reader} (h : r.fail message = some r') :
    r'.orders = [] := by
  cases r with
  | got u result => exact absurd h (by simp [fail])
  | listed u result => exact absurd h (by simp [fail])
  | _ => exact Option.some.inj h ▸ rfl

end Reader

end OrderSystem.OrderSvc
