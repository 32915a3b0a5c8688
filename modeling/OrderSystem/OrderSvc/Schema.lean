/-
# The ordering database

The tables of `migrations/ordering` and every statement or transaction that
`internal/ordersvc` runs on them.  Each of those is atomic; it is named here as a value of
`Stmt` with the parameters the caller binds, and `Stmt.exec` is what it does.  So what a
process is about to ask of the database can be read off its state, and a property of the
database is proved once per statement instead of once per caller.

`CHECK` constraints are fields of the row's structure.  The ids of a table are its
`AUTO_INCREMENT` values (`Kit/Table.lean`).  `updateOrder` carries the trigger
`trg_orders_v2_create_reconciliation_task`, which runs with every update of an order.

Left out: `created_at` and `updated_at`, which no statement reads, and the generated ids of
order items.  Instants are integers.
-/
import OrderSystem.Platform
import OrderSystem.Kit.Table

namespace OrderSystem.OrderSvc

open OrderSystem.Kit

/-! ## 1. Rows -/

/-- `OrderStatusReserving`, … -/
inductive OrderStatus where
  | reserving
  | pending
  | paying
  | paid
  | cancelling
  | cancelled
  | finished
  | failed
  | reconciliationRequired
  deriving DecidableEq, Repr

/-- The text of a status column. -/
def OrderStatus.text : OrderStatus → GoString
  | .reserving => str "reserving"
  | .pending => str "pending"
  | .paying => str "paying"
  | .paid => str "paid"
  | .cancelling => str "cancelling"
  | .cancelled => str "cancelled"
  | .finished => str "finished"
  | .failed => str "failed"
  | .reconciliationRequired => str "reconciliation_required"

/-- `OrderItem`. -/
structure OrderItem where
  productID : Int
  productName : GoString
  priceFen : Int
  quantity : Int
  deriving DecidableEq

/-- What `order_items_v2` accepts: its two `CHECK`s and the width of `product_name`. -/
def OrderItem.Accepted (i : OrderItem) : Prop :=
  0 < i.priceFen ∧ 0 < i.quantity ∧ charCount i.productName ≤ 100

instance (i : OrderItem) : Decidable i.Accepted := inferInstanceAs (Decidable (_ ∧ _))

/-- A row of `orders_v2` with its items. -/
structure Order where
  userID : Int
  status : OrderStatus
  totalFen : Int
  reservationID : GoString
  idempotencyKey : GoString
  failureReason : GoString
  items : List OrderItem
  total_nonneg : totalFen ≥ 0
  items_accepted : ∀ i ∈ items, i.Accepted
  deriving DecidableEq

/-- The order with another status and `failure_reason`. -/
def Order.withStatus (o : Order) (status : OrderStatus) (reason : GoString) : Order :=
  { o with status := status, failureReason := reason }

/-- The order with another reservation id. -/
def Order.withReservation (o : Order) (reservationID : GoString) : Order :=
  { o with reservationID := reservationID }

/-- The order `Service.Create` is about to insert. -/
structure OrderDraft where
  userID : Int
  totalFen : Int
  reservationID : GoString
  idempotencyKey : GoString
  items : List OrderItem
  deriving DecidableEq

/-- What `chk_orders_v2_total` and the items' table accept. -/
def OrderDraft.Accepted (draft : OrderDraft) : Prop :=
  0 ≤ draft.totalFen ∧ ∀ i ∈ draft.items, i.Accepted

instance (draft : OrderDraft) : Decidable draft.Accepted := inferInstanceAs (Decidable (_ ∧ _))

/-- The row `Create` inserts. -/
def OrderDraft.row (draft : OrderDraft) (h : draft.Accepted) : Order where
  userID := draft.userID
  status := .reserving
  totalFen := draft.totalFen
  reservationID := draft.reservationID
  idempotencyKey := draft.idempotencyKey
  failureReason := []
  items := draft.items
  total_nonneg := h.1
  items_accepted := h.2

/-- `OutboxPending`, … -/
inductive OutboxStatus where
  | pending
  | published
  | completed
  | failed
  deriving DecidableEq, Repr

/-- A row of `order_timeout_outbox_v2`, leasing columns included. -/
structure TimeoutOutbox where
  orderID : Nat
  dueAt : Int
  status : OutboxStatus
  attempts : Nat
  lastError : GoString
  leaseOwner : GoString
  leaseUntil : Option Int
  nextAttemptAt : Int
  deriving DecidableEq

/-- The actions of a reconciliation task; the trigger writes the last one for a status it has no
action for. -/
inductive Action where
  | releaseInventoryAndFail
  | finalizeCancel
  | finalizePayment
  | unsupportedFrom (status : OrderStatus)
  deriving DecidableEq, Repr

/-- The text of the `action` column. -/
def Action.text : Action → GoString
  | .releaseInventoryAndFail => str "release_inventory_and_fail"
  | .finalizeCancel => str "finalize_cancel"
  | .finalizePayment => str "finalize_payment"
  | .unsupportedFrom status => str "unsupported_from_" ++ status.text

/-- `ReconciliationTaskPending`, … -/
inductive TaskStatus where
  | pending
  | failed
  | completed
  | unresolved
  deriving DecidableEq, Repr

/-- A row of `order_reconciliation_tasks`. -/
structure ReconciliationTask where
  orderID : Nat
  action : Action
  status : TaskStatus
  attempts : Nat
  nextAttemptAt : Int
  leaseOwner : GoString
  leaseUntil : Option Int
  lastError : GoString
  deriving DecidableEq

/-- The ordering database. -/
structure DB where
  orders : Table Order
  outbox : Table TimeoutOutbox
  tasks : Table ReconciliationTask

/-- The database before the first call. -/
def DB.empty : DB := ⟨Table.empty, Table.empty, Table.empty⟩

/-! ## 2. Errors -/

/-- The errors of `ordersvc`. -/
inductive Err where
  /-- `ErrOrderNotFound` -/
  | orderNotFound
  /-- `ErrInvalidOrderRequest` -/
  | invalidOrderRequest
  /-- `ErrInvalidOrderState` -/
  | invalidOrderState
  /-- `ErrProductUnavailable: product %d` -/
  | productUnavailable (productID : Int)
  /-- `ErrReservationFailed: %w` -/
  | reservationFailed (cause : GoString)
  /-- `ErrCompensationRequired` -/
  | compensationRequired
  /-- `errInvalidReservationIdentity` -/
  | invalidReservationIdentity
  /-- `ErrReconciliationStateMismatch: …` -/
  | stateMismatch (detail : GoString)
  /-- a task or outbox row whose lease is no longer the worker's -/
  | leaseLost (message : GoString)
  /-- an error of the catalog client -/
  | catalog (message : GoString)
  /-- `RemoteError`: the inventory service answered with an error -/
  | remote (status : Nat) (body : GoString)
  /-- `call inventory-service: …`: no answer -/
  | call (message : GoString)
  /-- `decode inventory-service response: …`: an answer that is not one -/
  | decode (message : GoString)
  /-- a called service's error, with the caller's prefix -/
  | wrapped (message : GoString)
  /-- an error of the database or of its connection; the text the database gives a violated
  constraint is not part of the repository and left empty -/
  | storage (message : GoString)
  /-- a run-time panic: the call ends without a result of its own -/
  | panic
  deriving DecidableEq

/-- A decimal number in a message. -/
def decimal (n : Int) : GoString := str (toString n)

/-- `err.Error()`. -/
def Err.text : Err → GoString
  | .orderNotFound => str "order not found"
  | .invalidOrderRequest => str "invalid order request"
  | .invalidOrderState => str "invalid order state"
  | .productUnavailable productID => str "product unavailable: product " ++ decimal productID
  | .reservationFailed cause => str "inventory reservation failed: " ++ cause
  | .compensationRequired => str "manual reconciliation required"
  | .invalidReservationIdentity => str "inventory reservation identity is required"
  | .stateMismatch detail =>
    str "order state does not match reconciliation action: " ++ detail
  | .leaseLost message => message
  | .catalog message => message
  | .remote status body =>
    str "inventory-service returned " ++ decimal status ++ str ": " ++ body
  | .call message => str "call inventory-service: " ++ message
  | .decode message => str "decode inventory-service response: " ++ message
  | .wrapped message => message
  | .storage message => message
  | .panic => str "panic"

/-! ## 3. Updates -/

/-- The action and the status of the task that the trigger inserts for an order that was in this
status. -/
def taskFor : OrderStatus → Action × TaskStatus
  | .reserving => (.releaseInventoryAndFail, .pending)
  | .cancelling => (.finalizeCancel, .pending)
  | .paying => (.finalizePayment, .pending)
  | status => (.unsupportedFrom status, .unresolved)

/-- The error text the trigger puts on a task nobody will run. -/
def taskError (old : OrderStatus) : GoString :=
  match (taskFor old).2 with
  | .unresolved => str "unsupported reconciliation transition from " ++ old.text
  | _ => []

/-- `trg_orders_v2_create_reconciliation_task`, for an update of the order from `old` to `new`.
`ON DUPLICATE KEY UPDATE` touches only `updated_at`. -/
def trigger (tasks : Table ReconciliationTask) (now : Int) (orderID : Nat)
    (old new : OrderStatus) : Table ReconciliationTask :=
  if new = .reconciliationRequired ∧ old ≠ new then
    match tasks.search fun t => t.orderID = orderID ∧ t.action = (taskFor old).1 with
    | some _ => tasks
    | none => tasks.insert
        ⟨orderID, (taskFor old).1, (taskFor old).2, 0, now, [], none, taskError old⟩
  else tasks

/-- `UPDATE orders_v2 SET … WHERE id = ? AND cond`, with `RowsAffected`. -/
def DB.updateOrder (db : DB) (now : Int) (orderID : Nat) (cond : Order → Bool)
    (set : Order → Order) : DB × Nat :=
  match db.orders.row orderID with
  | none => (db, 0)
  | some o =>
    if cond o then
      ({ db with
          orders := db.orders.modify orderID fun _ => set o
          tasks := trigger db.tasks now orderID o.status (set o).status }, 1)
    else (db, 0)

/-- `UPDATE order_timeout_outbox_v2 SET … WHERE order_id = ? AND cond`. -/
def DB.updateOutboxOf (db : DB) (orderID : Nat) (cond : TimeoutOutbox → Bool)
    (set : TimeoutOutbox → TimeoutOutbox) : DB :=
  { db with outbox := db.outbox.mapRows fun _ row =>
      if row.orderID = orderID ∧ cond row then set row else row }

/-- Complete the outbox row of an order whose status is one of `pending`, `published` and
`failed`. -/
def DB.closeOutbox (db : DB) (orderID : Nat) : DB :=
  db.updateOutboxOf orderID (fun row => row.status ≠ .completed)
    fun row => { row with status := .completed }

section

variable [Collation]

/-- `lease_owner = ?`, in the collation of the column. -/
def owns (owner leaseOwner : GoString) : Bool :=
  Collation.weight leaseOwner = Collation.weight owner

/-- `UPDATE order_timeout_outbox_v2 SET … WHERE id = ? AND lease_owner = ?`; the error is the
caller's when no row matches. -/
def DB.updateLeased (db : DB) (id : Nat) (owner : GoString)
    (set : TimeoutOutbox → TimeoutOutbox) (lost : GoString) : Except Err DB :=
  match db.outbox.row id with
  | none => .error (.leaseLost lost)
  | some row =>
    if owns owner row.leaseOwner then
      .ok { db with outbox := db.outbox.modify id set }
    else .error (.leaseLost lost)

/-- `UPDATE order_reconciliation_tasks SET … WHERE id = ? AND lease_owner = ?`. -/
def DB.updateTask (db : DB) (id : Nat) (owner : GoString)
    (set : ReconciliationTask → ReconciliationTask) (lost : GoString) : Except Err DB :=
  match db.tasks.row id with
  | none => .error (.leaseLost lost)
  | some task =>
    if owns owner task.leaseOwner then
      .ok { db with tasks := db.tasks.modify id set }
    else .error (.leaseLost lost)

end

/-- A lease that does not keep another worker off a row at the instant `now`. -/
def leaseOpen (leaseUntil : Option Int) (now : Int) : Bool :=
  match leaseUntil with
  | none => true
  | some t => t < now

/-! ## 4. Statements -/

/-- A statement or transaction of the service and its workers. -/
inductive Stmt where
  /-- `findByIdempotency` -/
  | findByIdempotency (userID : Int) (key : GoString)
  /-- `Get`, `loadForTransition` and the worker's load: by id, and by user unless `none` -/
  | get (userID : Option Int) (orderID : Nat)
  /-- `Create`: the order and its items -/
  | insertOrder (draft : OrderDraft)
  /-- an update of status and `failure_reason` by id alone -/
  | writeStatus (orderID : Nat) (status : OrderStatus) (reason : GoString)
  /-- `Create`: `reserving` to `pending`, and the timeout row -/
  | finalizeCreate (orderID : Nat) (reservationID : GoString) (timeoutDelay : Int)
  /-- `cancel` and `Pay`: from `pending` -/
  | claim (userID : Option Int) (orderID : Nat) (transient : OrderStatus)
  /-- `cancel` and `Pay`: back to `pending` -/
  | revert (orderID : Nat) (transient : OrderStatus) (reason : GoString)
  /-- `cancel` and `Pay`: to the final status, and the timeout row completed -/
  | finalizeSettle (orderID : Nat) (transient final : OrderStatus)
  /-- `Finish` -/
  | finish (userID : Int) (orderID : Nat)
  /-- `ReconciliationWorker.claim` -/
  | claimTasks (workerID : GoString) (leaseDuration : Int) (batchSize : Nat)
  /-- `completeTask` -/
  | completeTask (taskID : Nat) (workerID : GoString) (orderID : Nat) (target : OrderStatus)
      (closes : Bool)
  /-- `markFailed` and `markUnresolved` -/
  | markTask (taskID : Nat) (workerID : GoString) (status : TaskStatus) (lastError : GoString)
      (delay : Int) (lost : GoString)
  /-- `claimPending` -/
  | claimPending (workerID : GoString) (leaseDuration : Int) (batchSize : Nat)
  /-- `releaseClaimedLeases` -/
  | releaseClaimedLeases (ids : List Nat) (workerID : GoString)
  /-- `markOutboxPublished` -/
  | markOutboxPublished (eventID : Nat) (workerID : GoString)
  /-- `markOutboxFailure` -/
  | markOutboxFailure (eventID : Nat) (workerID : GoString) (lastError : GoString)
      (retryDelay : Int)
  /-- `handleDelivery`, when the cancellation failed -/
  | recordFailure (orderID : Nat) (lastError : GoString)
  /-- `handleDelivery`, when it succeeded -/
  | completeOutbox (orderID : Nat)

/-- What a statement returns to the program. -/
inductive Res where
  | done
  | inserted (orderID : Nat)
  | order (orderID : Nat) (order : Order)
  | tasks (tasks : List (Nat × ReconciliationTask))
  | events (events : List (Nat × TimeoutOutbox))

/-- A found order, or `ErrOrderNotFound`. -/
def found : Option (Nat × Order) → DB → Except Err (Res × DB)
  | none, _ => .error .orderNotFound
  | some (id, o), db => .ok (.order id o, db)

/-- A conditional update of one order, with the error of the caller when no row was affected. -/
def affected (missing : Err) (u : DB × Nat) : Except Err (Res × DB) :=
  if u.2 = 1 then .ok (.done, u.1) else .error missing

/-- The status CAS that most statements are: from one status to another. -/
def DB.moveStatus (db : DB) (now : Int) (orderID : Nat) (userID : Option Int)
    (old new : OrderStatus) (reason : Option GoString) : DB × Nat :=
  db.updateOrder now orderID
    (fun o => decide (o.status = old ∧ ∀ u ∈ userID, o.userID = u)) fun o =>
      o.withStatus new (reason.getD o.failureReason)

section

variable [Collation]

/-- The insert of `Create`: `uk_order_user_idempotency` and the `CHECK`s of both tables. -/
def DB.insertOrder (db : DB) (draft : OrderDraft) : Except Err (Res × DB) :=
  match db.orders.search fun o => o.userID = draft.userID ∧
      Collation.weight o.idempotencyKey = Collation.weight draft.idempotencyKey with
  | some _ => .error (.storage [])
  | none =>
    if h : draft.Accepted then
      .ok (.inserted db.orders.next, { db with orders := db.orders.insert (draft.row h) })
    else .error (.storage [])

/-- The finalising transaction of `Create`. -/
def DB.finalizeCreate (db : DB) (now : Int) (orderID : Nat) (reservationID : GoString)
    (timeoutDelay : Int) : Except Err (Res × DB) :=
  let u := db.updateOrder now orderID (fun o => decide (o.status = .reserving)) fun o =>
    (o.withStatus .pending []).withReservation reservationID
  if u.2 ≠ 1 then .error .invalidOrderState
  else
    -- `uk_order_timeout_outbox_order`
    match u.1.outbox.search fun row => row.orderID = orderID with
    | some _ => .error (.storage [])
    | none =>
      let row := ⟨orderID, now + timeoutDelay, .pending, 0, [], [], none, now⟩
      .ok (.done, { u.1 with outbox := u.1.outbox.insert row })

/-- The transaction of `completeTask`. -/
def DB.completeTask (db : DB) (now : Int) (taskID : Nat) (workerID : GoString) (orderID : Nat)
    (target : OrderStatus) (closes : Bool) : Except Err (Res × DB) :=
  let u := db.moveStatus now orderID none .reconciliationRequired target none
  if u.2 = 0 ∧ (u.1.orders.row orderID).all (fun o => o.status ≠ target) then
    .error (.stateMismatch (str "target=" ++ target.text))
  else
    ((if closes then u.1.closeOutbox orderID else u.1).updateTask taskID workerID
      (fun task => { task with
        status := .completed, leaseOwner := [], leaseUntil := none, lastError := []
        nextAttemptAt := now })
      (str "complete reconciliation task " ++ decimal taskID ++
        str ": lease ownership lost")).map fun db' => (.done, db')

/-- `ReconciliationWorker.claim`.  `SKIP LOCKED` leaves out the rows another transaction has
locked. -/
def DB.claimTasks (db : DB) (now : Int) (locked : List Nat) (workerID : GoString)
    (leaseDuration : Int) (batchSize : Nat) : Res × DB :=
  let due := (db.tasks.select fun t => (t.status = .pending ∨ t.status = .failed) ∧
    t.nextAttemptAt ≤ now ∧ leaseOpen t.leaseUntil now).filter (·.1 ∉ locked)
  let batch := due.take batchSize
  let lease (t : ReconciliationTask) : ReconciliationTask := { t with
    attempts := t.attempts + 1, leaseOwner := workerID, leaseUntil := some (now + leaseDuration) }
  (.tasks (batch.map fun e => (e.1, lease e.2)),
    { db with
      tasks := db.tasks.mapRows fun id t => if id ∈ batch.map Prod.fst then lease t else t })

/-- `Worker.claimPending`. -/
def DB.claimPending (db : DB) (now : Int) (locked : List Nat) (workerID : GoString)
    (leaseDuration : Int) (batchSize : Nat) : Res × DB :=
  let due := (db.outbox.select fun row => (row.status = .pending ∨ row.status = .failed) ∧
    row.nextAttemptAt ≤ now ∧ leaseOpen row.leaseUntil now).filter (·.1 ∉ locked)
  let batch := due.take batchSize
  (.events batch,
    { db with outbox := db.outbox.mapRows fun id row => if id ∈ batch.map Prod.fst then { row with
        leaseOwner := workerID, leaseUntil := some (now + leaseDuration) } else row })

/-- What each statement does at the instant `now`, when other transactions have the rows
`locked` locked. -/
def Stmt.exec (now : Int) (locked : List Nat) (db : DB) : Stmt → Except Err (Res × DB)
  | .findByIdempotency userID key =>
    found (db.orders.search fun o => o.userID = userID ∧
      Collation.weight o.idempotencyKey = Collation.weight key) db
  | .get userID orderID =>
    found (((db.orders.row orderID).filter fun o => decide (∀ u ∈ userID, o.userID = u)).map
      fun o => (orderID, o)) db
  | .insertOrder draft => db.insertOrder draft
  | .writeStatus orderID status reason =>
    .ok (.done, (db.updateOrder now orderID (fun _ => true) fun o => o.withStatus status reason).1)
  | .finalizeCreate orderID reservationID timeoutDelay =>
    db.finalizeCreate now orderID reservationID timeoutDelay
  | .claim userID orderID transient =>
    affected .invalidOrderState (db.moveStatus now orderID userID .pending transient none)
  | .revert orderID transient reason =>
    .ok (.done, (db.moveStatus now orderID none transient .pending (some reason)).1)
  | .finalizeSettle orderID transient final =>
    (affected .compensationRequired
      (db.moveStatus now orderID none transient final (some []))).map fun r =>
        (r.1, r.2.closeOutbox orderID)
  | .finish userID orderID =>
    affected .invalidOrderState (db.moveStatus now orderID (some userID) .paid .finished none)
  | .claimTasks workerID leaseDuration batchSize =>
    .ok (db.claimTasks now locked workerID leaseDuration batchSize)
  | .completeTask taskID workerID orderID target closes =>
    db.completeTask now taskID workerID orderID target closes
  | .markTask taskID workerID status lastError delay lost =>
    (db.updateTask taskID workerID (fun task => { task with
        status := status, leaseOwner := [], leaseUntil := none, lastError := lastError
        nextAttemptAt := now + delay }) lost).map fun db' => (.done, db')
  | .claimPending workerID leaseDuration batchSize =>
    .ok (db.claimPending now locked workerID leaseDuration batchSize)
  | .releaseClaimedLeases ids workerID =>
    .ok (.done, { db with
      outbox := db.outbox.mapRows fun id row =>
        if id ∈ ids ∧ owns workerID row.leaseOwner then
          { row with leaseOwner := [], leaseUntil := none }
        else row })
  | .markOutboxPublished eventID workerID =>
    (db.updateLeased eventID workerID (fun row => { row with
        status := .published, attempts := row.attempts + 1, lastError := [], leaseOwner := []
        leaseUntil := none, nextAttemptAt := now })
      (str "timeout outbox lease was lost before publish completion")).map fun db' => (.done, db')
  | .markOutboxFailure eventID workerID lastError retryDelay =>
    (db.updateLeased eventID workerID (fun row => { row with
        status := .failed, attempts := row.attempts + 1, lastError := lastError, leaseOwner := []
        leaseUntil := none, nextAttemptAt := now + retryDelay })
      (str "timeout outbox lease was lost before failure update")).map fun db' => (.done, db')
  | .recordFailure orderID lastError =>
    .ok (.done, db.updateOutboxOf orderID (fun _ => true) fun row =>
      { row with attempts := row.attempts + 1, lastError := lastError })
  | .completeOutbox orderID =>
    .ok (.done, db.updateOutboxOf orderID (fun _ => true) fun row =>
      { row with status := .completed, lastError := [], leaseOwner := [], leaseUntil := none })

/-! ## 5. What the caller sees -/

/-- How a statement can end for its caller: as it should; rejected without effect (a lost
connection, an expired context); or committed, with the acknowledgement lost. -/
inductive SqlOutcome where
  | ok
  | failed (message : GoString)
  | lostAck (message : GoString)
  deriving DecidableEq

/-- Run a statement: what the caller gets, and the database afterwards. -/
def runSql (o : SqlOutcome) (now : Int) (locked : List Nat) (stmt : Stmt) (db : DB) :
    Except Err Res × DB :=
  match o, stmt.exec now locked db with
  | .failed message, _ => (.error (.storage message), db)
  | _, .error e => (.error e, db)
  | .ok, .ok (r, db') => (.ok r, db')
  | .lostAck message, .ok (_, db') => (.error (.storage message), db')

end

end OrderSystem.OrderSvc
