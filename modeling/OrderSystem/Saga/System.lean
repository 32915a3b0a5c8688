/-
# The saga: order service, workers and inventory service together

Any number of calls of the order service, of reconciliation workers and of timeout workers run
over one ordering database and call the inventory service over HTTP.  This file puts their
programs (`OrderSvc/Service.lean`, `OrderSvc/Workers.lean`) and the inventory service
(`InventorySvc/Model.lean`) into the component of `Kit/Rpc.lean`:

* a local step is one SQL statement or transaction, with any of the outcomes a caller can see
  (`SqlOutcome`), or a step that touches no database;
* the server handles one request as one transaction, may abort it, and may fail to report that
  it committed (`Fault`);
* requests and answers are lost, delayed and duplicated, and processes crash, as the network of
  the component does.

The broker keeps a published message in the delay queue until it expires into the cancel
queue, and there until it is acknowledged.  A `TimeoutCancel` call started for a delivery puts
its answer into `answers`, where the delivery may find it.
-/
import OrderSystem.Kit.Rpc
import OrderSystem.OrderSvc.Workers

namespace OrderSystem.Saga

open OrderSystem.Kit
open OrderSystem.OrderSvc
open OrderSystem.InventorySvc (Reservation)

/-! ## 1. Processes -/

/-- A call or a worker. -/
inductive Proc where
  | create (c : CreateCall) (pc : CreatePc)
  | settle (c : SettleCall) (pc : SettlePc)
  | finish (c : FinishCall) (pc : FinishPc)
  | recon (cfg : ReconciliationWorkerConfig) (pc : ReconPc)
  | publisher (cfg : WorkerConfig) (pc : PublishPc)
  | delivery (d : Delivery) (pc : DeliveryPc)

namespace Proc

def stmt : Proc → Option Stmt
  | create c pc => pc.stmt c
  | settle c pc => pc.stmt c
  | finish c pc => pc.stmt c
  | recon cfg pc => pc.stmt cfg
  | publisher cfg pc => pc.stmt cfg
  | delivery d pc => pc.stmt d

def after : Proc → Except Err Res → Proc
  | create c pc, r => create c (pc.after r)
  | settle c pc, r => settle c (pc.after c r)
  | finish c pc, r => finish c (pc.after r)
  | recon cfg pc, r => recon cfg (pc.after r)
  | publisher cfg pc, r => publisher cfg (pc.after r)
  | delivery d pc, r => delivery d (pc.after r)

def request : Proc → Option (Option InventoryOp)
  | create _ pc => pc.request
  | settle c pc => pc.request c
  | recon _ pc => pc.request
  | finish _ _ | publisher _ _ | delivery _ _ => none

def resume : Proc → Reply → Proc
  | create c pc, a => create c (pc.resume a)
  | settle c pc, a => settle c (pc.resume a)
  | recon cfg pc, a => recon cfg (pc.resume a)
  | q, _ => q

end Proc

/-! ## 2. Local steps -/

/-- What the processes share: the ordering database, the clock, the broker and the answers of
`TimeoutCancel` on their way to the deliveries that asked. -/
structure Local where
  db : DB
  now : Int
  delayQueue : List Nat
  cancelQueue : List Nat
  answers : List (Nat × Nat × Option Err)

/-- What a local step leaves open. -/
inductive Choice where
  /-- the outcome of a statement, and the rows other transactions have locked -/
  | sql (o : SqlOutcome) (locked : List Nat)
  /-- the answers of the catalog and the new UUID -/
  | resolve (catalog : Int → Except GoString CatalogProduct) (uuid : GoString)
  /-- the inventory client refuses a blank reservation id -/
  | refuse
  /-- the ticker of a worker -/
  | poll
  | publish (o : PublishOutcome)
  /-- `TimeoutCancel` answers its delivery -/
  | respond
  /-- a delivery finds the answer at this position -/
  | answered (i : Nat)
  /-- a delivery gets no answer -/
  | timeout (message : GoString)
  | ack (lost : Bool)

def hexDigit (n : UInt8) : UInt8 := if n < 10 then 0x30 + n else 0x57 + n

/-- What `encoding/json` writes for a byte of a text in UTF-8, U+2028 and U+2029
apart. -/
def jsonByte (b : UInt8) : GoString :=
  if b = 0x22 ∨ b = 0x5C then [0x5C, b]
  else if b = 0x08 then str "\\b"
  else if b = 0x09 then str "\\t"
  else if b = 0x0A then str "\\n"
  else if b = 0x0C then str "\\f"
  else if b = 0x0D then str "\\r"
  else if b < 0x20 ∨ b = 0x26 ∨ b = 0x3C ∨ b = 0x3E then
    str "\\u00" ++ [hexDigit (b / 16), hexDigit (b % 16)]
  else [b]

/-- What `doJSON` keeps of an error answer, `gin.H{"error": …}`: 4096 bytes, trimmed. -/
def errorBody (message : GoString) : GoString :=
  trimSpace ((str "\x7b\"error\":\"" ++ message.flatMap jsonByte ++ str "\"\x7d").take 4096)

/-- A 500 answer of the order service. -/
def timeoutError (e : Err) : Err :=
  .wrapped (str "order-service returned 500: " ++ errorBody e.text)

/-- A message leaves the cancel queue. -/
def Local.acked (st : Local) (orderID : Nat) : Local :=
  { st with cancelQueue := st.cancelQueue.erase orderID }

/-- A message enters the delay queue, if the broker got it. -/
def Local.publishedTo (st : Local) (o : PublishOutcome) (orderID : Nat) : Local :=
  if o.stored then { st with delayQueue := st.delayQueue ++ [orderID] } else st

/-- `uuid.NewString()` gives some nonempty text without white space around it. -/
def IsUUID (uuid : GoString) : Prop := uuid ≠ [] ∧ trimSpace uuid = uuid

instance (uuid : GoString) : Decidable (IsUUID uuid) := inferInstanceAs (Decidable (_ ∧ _))

section

variable [Collation]

/-- One local step. -/
def act (st : Local) (q : Proc) : Choice → Option (Local × Proc)
  | .sql o locked =>
    match q.stmt with
    | none => none
    | some stmt =>
      some ({ st with db := (runSql o st.now locked stmt st.db).2 },
        q.after (runSql o st.now locked stmt st.db).1)
  | .resolve catalog uuid =>
    match q with
    | .create c .resolve =>
      if IsUUID uuid then some (st, .create c (.resolved c catalog uuid)) else none
    | _ => none
  | .refuse =>
    match q.request with
    | some none => some (st, q.resume (.error .invalidReservationIdentity))
    | _ => none
  | .poll =>
    match q with
    | .recon cfg .idle => some (st, .recon cfg .claim)
    | .publisher cfg .idle => some (st, .publisher cfg .claim)
    | _ => none
  | .publish o =>
    match q with
    | .publisher cfg (.publish event rest) =>
      some (st.publishedTo o event.2.orderID, .publisher cfg (.published event rest o))
    | _ => none
  | .respond =>
    match q with
    | .settle c (.returned r) =>
      match c.origin with
      | none => none
      | some tag =>
        some ({ st with answers := st.answers ++ [(tag, c.orderID, timeoutResult r)] },
          .settle c (.returned r))
    | _ => none
  | .answered i =>
    match q with
    | .delivery d .call =>
      match st.answers[i]? with
      | none => none
      | some (tag, orderID, r) =>
        if tag = d.tag ∧ orderID = d.orderID then
          match r with
          | none => some (st, .delivery d .complete)
          | some e => some (st, .delivery d (.recordFailure (timeoutError e)))
        else none
    | _ => none
  | .timeout message =>
    match q with
    | .delivery d .call => some (st, .delivery d (.recordFailure (.wrapped message)))
    | _ => none
  | .ack lost =>
    match q with
    | .delivery d .ack =>
      some (if lost then st else st.acked d.orderID, .delivery d .settled)
    | _ => none

/-! ## 3. The inventory service as the server -/

/-- How a transaction of the inventory service can end for its client. -/
inductive Fault where
  | none
  | abort
  | lostAck
  deriving DecidableEq

/-- What the server leaves open: the fault, the id it would generate, and the text of a database
error. -/
structure Serving where
  fault : Fault
  generated : GoString
  message : GoString

/-- The message of an inventory error. -/
def inventoryMessage (message : GoString) : InventorySvc.Err → GoString
  | .inventoryNotFound none => str "inventory not found"
  | .inventoryNotFound (some p) => str "inventory not found: product " ++ decimal p
  | .insufficientInventory p => str "insufficient inventory: product " ++ decimal p
  | .reservationNotFound => str "reservation not found"
  | .reservationTransition => str "invalid reservation transition"
  | .invalidInventoryAmount => str "invalid inventory amount"
  | .storage => message

/-- The HTTP status the handlers give an error. -/
def inventoryStatus : InventoryOp → InventorySvc.Err → Nat
  | .reserve _, .insufficientInventory _ => 409
  | .reserve _, .inventoryNotFound _ => 409
  | .reserve _, .invalidInventoryAmount => 409
  | .settle _ _, .reservationNotFound => 404
  | .settle _ _, .reservationTransition => 409
  | _, _ => 500

/-- An error answer of the inventory service. -/
def remoteError (op : InventoryOp) (message : GoString) (e : InventorySvc.Err) : Err :=
  .remote (inventoryStatus op e) (errorBody (inventoryMessage message e))

/-- The transaction a request runs. -/
def opTx (generated : GoString) (inv : InventorySvc.DB) :
    InventoryOp → InventorySvc.Tx Reservation
  | .reserve req => InventorySvc.reserve generated req inv
  | .settle target id => InventorySvc.transition id target

/-- The inventory service handles one request. -/
def serve (inv : InventorySvc.DB) (op : InventoryOp) (f : Serving) :
    InventorySvc.DB × Reply :=
  match f.fault, (opTx f.generated inv op).exec inv with
  | .abort, _ => (inv, .error (remoteError op f.message .storage))
  | _, .error e => (inv, .error (remoteError op f.message e))
  | .none, .ok (r, inv') => (inv', .ok r)
  | .lostAck, .ok (_, inv') => (inv', .error (remoteError op f.message .storage))

/-- What happens outside: time passes, a message expires into the cancel queue, stock is
supplied. -/
inductive Outside where
  | tick (n : Nat)
  | expire (i : Nat)
  | init (productID quantity : Int)
  | add (productID quantity : Int)

/-- One step of the outside. -/
def outside (st : Local) (inv : InventorySvc.DB) : Outside → Option (Local × InventorySvc.DB)
  | .tick n => some ({ st with now := st.now + n }, inv)
  | .expire i =>
    match st.delayQueue[i]? with
    | none => none
    | some orderID => some ({ st with
        delayQueue := st.delayQueue.eraseIdx i, cancelQueue := st.cancelQueue ++ [orderID] }, inv)
  | .init productID quantity =>
    match (InventorySvc.init productID quantity).exec inv with
    | .error _ => none
    | .ok (_, inv') => some (st, inv')
  | .add productID quantity =>
    match (InventorySvc.add productID quantity).exec inv with
    | .error _ => none
    | .ok (_, inv') => some (st, inv')

/-! ## 4. The system -/

/-- A call that `Service.Create` does not turn away at once. -/
def CreatePc.isLookup : CreatePc → Bool
  | .lookup => true
  | _ => false

/-- `TimeoutCancel` is a cancellation; the worker calls it for a delivery of that order. -/
def mayStartSettle (procs : Table Proc) (c : SettleCall) : Bool :=
  (c.system → c.kind = .cancel) &&
    match c.origin with
    | none => true
    | some tag => c.system && match procs.row tag with
      | some (.delivery d _) => d.orderID = c.orderID && d.tag = tag
      | _ => false

/-- The processes that can start. -/
def mayStart (st : Local) (procs : Table Proc) : Proc → Bool
  | .create c .lookup => CreatePc.isLookup c.start
  | .create c (.returned (.error .invalidOrderRequest)) => !CreatePc.isLookup c.start
  | .settle c .load => mayStartSettle procs c
  | .finish _ .update => true
  | .recon cfg .idle => IsWorkerID cfg.workerID
  | .publisher cfg .idle => IsWorkerID cfg.workerID
  | .delivery d .call => d.tag = procs.next && d.orderID ∈ st.cancelQueue
  | _ => false

/-- Answers the inventory client makes up when it got none that it can use. -/
def gaveUp : Reply → Bool
  | .error (.call _) => true
  | .error (.decode _) => true
  | _ => false

/-- The system as a component. -/
def component : Component Local InventorySvc.DB Proc InventoryOp Reply Choice Serving Outside where
  mayStart := mayStart
  act := act
  call q := q.request.join
  resume := Proc.resume
  gaveUp := gaveUp
  serve := serve
  env := outside

/-- The state of the system. -/
abbrev State := World Local InventorySvc.DB Proc InventoryOp Reply

/-- What can happen in it. -/
abbrev Event := RpcEvent Proc Reply Choice Serving Outside

/-- One step of the system. -/
abbrev step : State → Event → Option State := rpcStep component

/-- The system before anything has happened. -/
def start : State := World.init ⟨DB.empty, 0, [], [], []⟩ InventorySvc.DB.empty

end

end OrderSystem.Saga
