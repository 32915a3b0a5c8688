/-
# The workers

The three background programs of `internal/ordersvc`, in the form of `Service.lean`:

* the reconciliation worker (`reconciliation_worker.go`): claim a batch of tasks, and for each
  load the order, call the inventory service and complete the task;
* the publisher of the timeout worker (`worker.go`, `publishPending`): claim a batch of outbox
  rows, publish each and record the outcome;
* the consumer of the timeout worker (`handleDelivery`): ask the order service to cancel, then
  complete the outbox row and acknowledge, or record the failure and requeue.
-/
import OrderSystem.OrderSvc.Service

namespace OrderSystem.OrderSvc

open OrderSystem.Kit
open OrderSystem.InventorySvc (Settlement)

/-! ## 1. Reconciliation -/

/-- What `normalized` and `NewWorker` leave as the id of a worker: the configured one without
the white space around it, or a generated one if that is empty. -/
def IsWorkerID (id : GoString) : Prop := id ≠ [] ∧ trimSpace id = id

instance (id : GoString) : Decidable (IsWorkerID id) := inferInstanceAs (Decidable (_ ∧ _))

/-- `ReconciliationWorkerConfig`, normalised. -/
structure ReconciliationWorkerConfig where
  workerID : GoString
  retryDelay : Int
  maxRetryDelay : Int
  leaseDuration : Int
  batchSize : Nat

/-- The doubling loop of `retryDelay`, with the iterations that are left. -/
def retryDelayLoop (maxRetryDelay : Int) : Nat → Int → Int
  | 0, delay => if delay > maxRetryDelay then maxRetryDelay else delay
  | n + 1, delay =>
    if delay ≥ maxRetryDelay.tdiv 2 then maxRetryDelay
    else retryDelayLoop maxRetryDelay n (wrap64 (delay * 2))

/-- `ReconciliationWorker.retryDelay`. -/
def ReconciliationWorkerConfig.retryDelayFor (cfg : ReconciliationWorkerConfig) (attempt : Nat) :
    Int :=
  retryDelayLoop cfg.maxRetryDelay (attempt - 1) cfg.retryDelay

/-- What an action does: the status it is for, whether it completes the timeout row, and its
inventory request.  An action the worker does not know has none. -/
def Action.plan : Action → Option (OrderStatus × Bool × Settlement)
  | .releaseInventoryAndFail => some (.failed, false, .release)
  | .finalizeCancel => some (.cancelled, true, .release)
  | .finalizePayment => some (.paid, true, .confirm)
  | .unsupportedFrom _ => none

/-- The prefix an action puts before the error of its inventory call. -/
def Action.callError : Action → GoString
  | .releaseInventoryAndFail => str "release inventory reservation: "
  | .finalizeCancel => str "confirm released inventory reservation: "
  | .finalizePayment => str "confirm inventory reservation: "
  | .unsupportedFrom _ => []

/-- A claimed task with its id. -/
abbrev ClaimedTask := Nat × ReconciliationTask

/-- Where the worker is; `rest` is what is left of its batch. -/
inductive ReconPc where
  /-- waiting for the ticker -/
  | idle
  | claim
  /-- `processTask` loads the order -/
  | load (task : ClaimedTask) (rest : List ClaimedTask)
  /-- the inventory call of the task's action -/
  | call (task : ClaimedTask) (order : Order) (rest : List ClaimedTask)
  | complete (task : ClaimedTask) (target : OrderStatus) (closes : Bool)
      (rest : List ClaimedTask)
  | markFailed (task : ClaimedTask) (cause : Err) (rest : List ClaimedTask)
  | markUnresolved (task : ClaimedTask) (reason : GoString) (rest : List ClaimedTask)

namespace ReconPc

/-- The next task of the batch. -/
def next : List ClaimedTask → ReconPc
  | [] => idle
  | task :: rest => load task rest

def stmt (cfg : ReconciliationWorkerConfig) : ReconPc → Option Stmt
  | claim => some (.claimTasks cfg.workerID cfg.leaseDuration cfg.batchSize)
  | load task _ => some (.get none task.2.orderID)
  | complete task target closes _ =>
    some (.completeTask task.1 cfg.workerID task.2.orderID target closes)
  | markFailed task cause _ =>
    some (.markTask task.1 cfg.workerID .failed (truncate cause.text 500)
      (cfg.retryDelayFor task.2.attempts)
      (str "fail reconciliation task " ++ decimal task.1 ++ str ": lease ownership lost"))
  | markUnresolved task reason _ =>
    some (.markTask task.1 cfg.workerID .unresolved (truncate reason 500) 0
      (str "mark reconciliation task " ++ decimal task.1 ++
        str " unresolved: lease ownership lost"))
  | idle | call _ _ _ => none

/-- `ErrReconciliationStateMismatch: action=%s status=%s`. -/
def mismatch (action : Action) (status : OrderStatus) : GoString :=
  (Err.stateMismatch (str "action=" ++ action.text ++ str " status=" ++ status.text)).text

/-- The switch of `processTask` and the first two checks of the three actions. -/
def dispatch (task : ClaimedTask) (order : Order) (rest : List ClaimedTask) : ReconPc :=
  match task.2.action.plan with
  | none => markUnresolved task
      (str "unsupported reconciliation action: " ++ task.2.action.text) rest
  | some (target, closes, _) =>
    if order.status = target then complete task target closes rest
    else if order.status ≠ .reconciliationRequired then
      markUnresolved task (mismatch task.2.action order.status) rest
    else call task order rest

def after : ReconPc → Except Err Res → ReconPc
  | claim, .ok (.tasks tasks) => next tasks
  | claim, .error _ => idle
  | load task rest, .ok (.order _ o) => dispatch task o rest
  | load task rest, .error .orderNotFound => markUnresolved task (str "order not found") rest
  | load task rest, .error e => markFailed task e rest
  | complete _ _ _ rest, .ok _ => next rest
  | complete task _ _ rest, .error (.stateMismatch detail) =>
    markUnresolved task (Err.stateMismatch detail).text rest
  | complete task _ _ rest, .error e => markFailed task e rest
  -- the batch goes on whatever became of this task
  | markFailed _ _ rest, _ => next rest
  | markUnresolved _ _ rest, _ => next rest
  | pc, _ => pc

def request : ReconPc → Option (Option InventoryOp)
  | call task order _ =>
    task.2.action.plan.map fun plan => settleRequest plan.2.2 order.reservationID
  | _ => none

def resume : ReconPc → Reply → ReconPc
  | call task order rest, .ok _ =>
    match task.2.action.plan with
    | some (target, closes, _) => complete task target closes rest
    | none => call task order rest
  | call task _ rest, .error e =>
    markFailed task (.wrapped (task.2.action.callError ++ e.text)) rest
  | pc, _ => pc

end ReconPc

/-! ## 2. Publishing timeouts -/

/-- `WorkerConfig`, as far as `publishPending` uses it. -/
structure WorkerConfig where
  workerID : GoString
  leaseDuration : Int
  retryDelay : Int
  batchSize : Nat

/-- A claimed outbox row with its id. -/
abbrev ClaimedEvent := Nat × TimeoutOutbox

/-- Where the publisher is. -/
inductive PublishPc where
  | idle
  | claim
  | publish (event : ClaimedEvent) (rest : List ClaimedEvent)
  | markPublished (event : ClaimedEvent) (rest : List ClaimedEvent)
  | markFailure (event : ClaimedEvent) (cause : GoString) (rest : List ClaimedEvent)
  | releaseLeases (rest : List ClaimedEvent)

/-- What became of a published message: whether the broker has it, and what the publisher was
told. -/
structure PublishOutcome where
  stored : Bool
  error : Option GoString

namespace PublishPc

def next : List ClaimedEvent → PublishPc
  | [] => idle
  | event :: rest => publish event rest

def stmt (cfg : WorkerConfig) : PublishPc → Option Stmt
  | claim => some (.claimPending cfg.workerID cfg.leaseDuration cfg.batchSize)
  | markPublished event _ => some (.markOutboxPublished event.1 cfg.workerID)
  | markFailure event cause _ =>
    some (.markOutboxFailure event.1 cfg.workerID (truncate cause 500) cfg.retryDelay)
  | releaseLeases rest => some (.releaseClaimedLeases (rest.map Prod.fst) cfg.workerID)
  | idle | publish _ _ => none

/-- An error ends the batch; the leases of what is left are given back after a failed publish
only. -/
def after : PublishPc → Except Err Res → PublishPc
  | claim, .ok (.events events) => next events
  | claim, .error _ => idle
  | markPublished _ rest, .ok _ => next rest
  | markPublished _ _, .error _ => idle
  | markFailure _ _ rest, .ok _ => if rest = [] then idle else releaseLeases rest
  | markFailure _ _ _, .error _ => idle
  | releaseLeases _, _ => idle
  | pc, _ => pc

/-- The outcome of `publisher.Publish`. -/
def published (event : ClaimedEvent) (rest : List ClaimedEvent) (o : PublishOutcome) :
    PublishPc :=
  match o.error with
  | none => markPublished event rest
  | some cause => markFailure event cause rest

end PublishPc

/-! ## 3. Consuming timeouts -/

/-- A message taken from the cancel queue; `tag` identifies the delivery. -/
structure Delivery where
  tag : Nat
  orderID : Nat

/-- Where `handleDelivery` is. -/
inductive DeliveryPc where
  /-- `orderClient.TimeoutCancel` -/
  | call
  | recordFailure (cause : Err)
  | complete
  | ack
  /-- acknowledged, or back in the queue -/
  | settled

namespace DeliveryPc

def stmt (d : Delivery) : DeliveryPc → Option Stmt
  | recordFailure cause => some (.recordFailure d.orderID (truncate cause.text 500))
  | complete => some (.completeOutbox d.orderID)
  | call | ack | settled => none

def after : DeliveryPc → Except Err Res → DeliveryPc
  | recordFailure _, _ => settled
  | complete, .ok _ => ack
  | complete, .error _ => settled
  | pc, _ => pc

end DeliveryPc

end OrderSystem.OrderSvc
