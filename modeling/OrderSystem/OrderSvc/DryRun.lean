/-
# The dry run of the reconciliation worker

`ReconciliationWorker.DryRun` (`reconciliation_dry_run.go`) reports what the worker would do
with the tasks that are due.  The source writes that logic twice.  The dry run selects with a
join of its own and classifies with `planReconciliation`; the worker selects with `claim` and
decides in `processTask`, its three actions and `completeTask`.  `dryRun_predicts` says that
the two agree on every database.

`Schema.lean` has the statuses and actions the service itself writes.  The columns can hold any
text, and an order a task names may be missing, so the tables here are those of the columns.
Go compares the texts it has loaded byte by byte and the database compares by weight.  The two
meet in `completeTask`, whose update asks the database for a status that Go has just read.

* §1  the tables, and the statements on them
* §2  `claim`, `processTask` and what it calls
* §3  `DryRun` and `planReconciliation`
* §4  the same selection
* §5  the same decision
* §6  the worker of `Workers.lean` is this one, on the rows the service writes

Left out: a statement that the database refuses, such as one with a value too wide for its
column.  `RowsAffected` is the number of rows a statement matches, since each of them is
changed: a claim adds to `attempts`, and the end of a task takes its lease away.
-/
import OrderSystem.OrderSvc.Workers

namespace OrderSystem.OrderSvc

open OrderSystem.Kit
open OrderSystem.InventorySvc (Settlement)

/-- The text of the `status` column of a task. -/
def TaskStatus.text : TaskStatus → GoString
  | .pending => str "pending"
  | .failed => str "failed"
  | .completed => str "completed"
  | .unresolved => str "unresolved"

/-- The text of the `status` column of a timeout row. -/
def OutboxStatus.text : OutboxStatus → GoString
  | .pending => str "pending"
  | .published => str "published"
  | .completed => str "completed"
  | .failed => str "failed"

namespace DryRun

/-! ## 1. The tables -/

/-- A row of `order_reconciliation_tasks`. -/
structure TaskRow where
  orderID : Int
  action : GoString
  status : GoString
  attempts : Int
  nextAttemptAt : Int
  leaseOwner : GoString
  leaseUntil : Option Int
  lastError : GoString
  deriving DecidableEq

/-- What the worker reads of a row of `orders_v2`. -/
structure OrderRow where
  status : GoString
  reservationID : GoString
  deriving DecidableEq

/-- What the worker reads of a row of `order_timeout_outbox_v2`. -/
structure OutboxRow where
  orderID : Int
  status : GoString
  deriving DecidableEq

/-- The three tables.  A task names its order by an `int64`, and nothing says that there is
one. -/
structure Tables where
  orders : Int → Option OrderRow
  outbox : Table OutboxRow
  tasks : Table TaskRow

/-- The status of an order, if there is one. -/
def Tables.orderStatus (db : Tables) (orderID : Int) : Option GoString :=
  (db.orders orderID).map OrderRow.status

/-- The status of a task, if there is one. -/
def Tables.taskStatus (db : Tables) (taskID : Nat) : Option GoString :=
  (db.tasks.row taskID).map TaskRow.status

theorem orderStatus_of_orders {db db' : Tables} (h : db'.orders = db.orders) (orderID : Int) :
    db'.orderStatus orderID = db.orderStatus orderID := by
  rw [Tables.orderStatus, Tables.orderStatus, h]

section

variable [Collation]

/-- Two texts the database takes for equal. -/
def same (a b : GoString) : Bool := Collation.weight a = Collation.weight b

@[simp] theorem same_refl (a : GoString) : same a a = true := decide_eq_true rfl

/-- `CASE OLD.status` of the trigger: the action, the status and the error of the new task. -/
def taskFrom (old : GoString) : GoString × GoString × GoString :=
  if same old (OrderStatus.text .reserving) then
    (Action.text .releaseInventoryAndFail, TaskStatus.text .pending, [])
  else if same old (OrderStatus.text .cancelling) then
    (Action.text .finalizeCancel, TaskStatus.text .pending, [])
  else if same old (OrderStatus.text .paying) then
    (Action.text .finalizePayment, TaskStatus.text .pending, [])
  else
    (str "unsupported_from_" ++ old, TaskStatus.text .unresolved,
      str "unsupported reconciliation transition from " ++ old)

/-- `trg_orders_v2_create_reconciliation_task`. -/
def trigger (tasks : Table TaskRow) (now orderID : Int) (old new : GoString) : Table TaskRow :=
  if same new (OrderStatus.text .reconciliationRequired) ∧ ¬ same old new then
    match tasks.search fun t => t.orderID = orderID ∧ same t.action (taskFrom old).1 with
    | some _ => tasks
    | none => tasks.insert
        ⟨orderID, (taskFrom old).1, (taskFrom old).2.1, 0, now, [], none, (taskFrom old).2.2⟩
  else tasks

/-- `UPDATE orders_v2 SET status = target WHERE id = ? AND status = current`, with
`RowsAffected`. -/
def Tables.moveStatus (db : Tables) (now orderID : Int) (current target : GoString) :
    Tables × Nat :=
  match db.orders orderID with
  | none => (db, 0)
  | some o =>
    if same o.status current then
      ({ db with
          orders := Function.update db.orders orderID (some { o with status := target })
          tasks := trigger db.tasks now orderID o.status target }, 1)
    else (db, 0)

/-- `SELECT COUNT(*) FROM orders_v2 WHERE id = ? AND status = ?`. -/
def Tables.countStatus (db : Tables) (orderID : Int) (status : GoString) : Nat :=
  match db.orders orderID with
  | none => 0
  | some o => if same o.status status then 1 else 0

/-- Complete the timeout rows of an order whose status is one of `pending`, `published` and
`failed`. -/
def Tables.closeOutbox (db : Tables) (orderID : Int) : Tables :=
  { db with outbox := db.outbox.mapRows fun _ row =>
      if row.orderID = orderID ∧ (same row.status (OutboxStatus.text .pending) ∨
          same row.status (OutboxStatus.text .published) ∨
          same row.status (OutboxStatus.text .failed)) then
        { row with status := OutboxStatus.text .completed }
      else row }

/-- `UPDATE order_reconciliation_tasks SET … WHERE id = ? AND lease_owner = ?`; the error is the
caller's when no row matches. -/
def Tables.updateTask (db : Tables) (id : Nat) (owner : GoString) (set : TaskRow → TaskRow)
    (lost : GoString) : Except Err Tables :=
  match db.tasks.row id with
  | none => .error (.leaseLost lost)
  | some task =>
    if owns owner task.leaseOwner then .ok { db with tasks := db.tasks.modify id set }
    else .error (.leaseLost lost)

/-! ## 2. The worker -/

/-- What `NewReconciliationWorker` is given, as far as the functions below use it. -/
structure Settings where
  workerID : GoString
  retryDelay : Int
  maxRetryDelay : Int
  leaseDuration : Int
  batchSize : Int

/-- `ReconciliationWorkerConfig.normalized`, with the reading of the clock that a generated id
is made of. -/
def Settings.normalized (given : Settings) (unixNano : Int) : ReconciliationWorkerConfig :=
  let workerID := trimSpace given.workerID
  let retryDelay := if given.retryDelay ≤ 0 then 5000000000 else given.retryDelay
  let maxRetryDelay := if given.maxRetryDelay ≤ 0 then 300000000000 else given.maxRetryDelay
  let batchSize := if given.batchSize ≤ 0 then 10 else given.batchSize
  { workerID := if workerID = [] then str "reconciliation-worker-" ++ decimal unixNano else workerID
    retryDelay := retryDelay
    maxRetryDelay := if maxRetryDelay < retryDelay then retryDelay else maxRetryDelay
    leaseDuration := if given.leaseDuration ≤ 0 then 30000000000 else given.leaseDuration
    batchSize := (if batchSize > 100 then 100 else batchSize).toNat }

/-- The `WHERE` of both `SELECT`s. -/
def eligible (now : Int) (t : TaskRow) : Bool :=
  (same t.status (TaskStatus.text .pending) ∨ same t.status (TaskStatus.text .failed)) ∧
    t.nextAttemptAt ≤ now ∧ leaseOpen t.leaseUntil now

variable (cfg : ReconciliationWorkerConfig)

/-- What `claim` writes to a task. -/
def lease (now : Int) (t : TaskRow) : TaskRow := { t with
  attempts := t.attempts + 1, leaseOwner := cfg.workerID
  leaseUntil := some (now + cfg.leaseDuration) }

/-- The loop of `claim`: one update for each selected task. -/
def leaseAll (now : Int) : List (Nat × TaskRow) → Table TaskRow → Except Err (Table TaskRow)
  | [], tasks => .ok tasks
  | e :: rest, tasks =>
    match tasks.row e.1 with
    | none => .error (.leaseLost
        (str "claim reconciliation task " ++ decimal e.1 ++ str ": no row updated"))
    | some _ => leaseAll now rest (tasks.modify e.1 (lease cfg now))

/-- The tasks that `claim` selects. -/
def batch (now : Int) (db : Tables) : List (Nat × TaskRow) :=
  (db.tasks.select (eligible now)).take cfg.batchSize

/-- `ReconciliationWorker.claim`. -/
def claim (now : Int) (db : Tables) : Except Err (Tables × List (Nat × TaskRow)) :=
  (leaseAll cfg now (batch cfg now db) db.tasks).map fun tasks =>
    ({ db with tasks := tasks }, (batch cfg now db).map fun e => (e.1, lease cfg now e.2))

/-- A call of `reconciliationInventory`. -/
structure InventoryCall where
  settlement : Settlement
  reservationID : GoString
  deriving DecidableEq

/-- What the inventory client answers to a call. -/
abbrev Inventory := InventoryCall → Except Err Unit

/-- What a function of the worker leaves behind: the tables, its inventory calls, and the error
it returns. -/
structure Outcome where
  tables : Tables
  calls : List InventoryCall
  err : Option Err

/-- The outcome of a transaction: one that fails has written nothing. -/
def Outcome.of (db : Tables) (calls : List InventoryCall) : Except Err Tables → Outcome
  | .ok db' => ⟨db', calls, none⟩
  | .error e => ⟨db, calls, some e⟩

/-- The transaction of `completeTask`. -/
def completeTask (now : Int) (task : Nat × TaskRow) (target : GoString) (closes : Bool)
    (db : Tables) : Except Err Tables :=
  let u := db.moveStatus now task.2.orderID (OrderStatus.text .reconciliationRequired) target
  if u.2 = 0 ∧ u.1.countStatus task.2.orderID target ≠ 1 then
    .error (.stateMismatch (str "target=" ++ target))
  else
    (if closes then u.1.closeOutbox task.2.orderID else u.1).updateTask task.1 cfg.workerID
      (fun row => { row with
        status := TaskStatus.text .completed, leaseOwner := [], leaseUntil := none
        lastError := [], nextAttemptAt := now })
      (str "complete reconciliation task " ++ decimal task.1 ++ str ": lease ownership lost")

/-- `markFailed`.  The error it returns is the cause, joined with its own when the lease is
gone. -/
def markFailed (now : Int) (task : Nat × TaskRow) (cause : Err) (calls : List InventoryCall)
    (db : Tables) : Outcome :=
  match db.updateTask task.1 cfg.workerID
    (fun row => { row with
      status := TaskStatus.text .failed, leaseOwner := [], leaseUntil := none
      lastError := truncate cause.text 500
      nextAttemptAt := now + cfg.retryDelayFor task.2.attempts.toNat })
    (str "fail reconciliation task " ++ decimal task.1 ++ str ": lease ownership lost") with
  | .ok db' => ⟨db', calls, some cause⟩
  | .error e => ⟨db, calls, some (.wrapped (cause.text ++ [0x0A] ++ e.text))⟩

/-- `markUnresolved`. -/
def markUnresolved (now : Int) (task : Nat × TaskRow) (reason : GoString)
    (calls : List InventoryCall) (db : Tables) : Outcome :=
  .of db calls (db.updateTask task.1 cfg.workerID
    (fun row => { row with
      status := TaskStatus.text .unresolved, leaseOwner := [], leaseUntil := none
      lastError := truncate reason 500, nextAttemptAt := now })
    (str "mark reconciliation task " ++ decimal task.1 ++
      str " unresolved: lease ownership lost"))

variable (inventory : Inventory)

/-- What the three actions have in common: the status they are for, whether they complete the
timeout row, the inventory call and the words before its error. -/
def settle (target : GoString) (closes : Bool) (settlement : Settlement) (words : GoString)
    (now : Int) (task : Nat × TaskRow) (order : OrderRow) (db : Tables) : Outcome :=
  if order.status = target then .of db [] (completeTask cfg now task target closes db)
  else if order.status ≠ OrderStatus.text .reconciliationRequired then
    ⟨db, [], some (.stateMismatch
      (str "action=" ++ task.2.action ++ str " status=" ++ order.status))⟩
  else
    let call : InventoryCall := ⟨settlement, order.reservationID⟩
    match inventory call with
    | .error e => ⟨db, [call], some (.wrapped (words ++ e.text))⟩
    | .ok () => .of db [call] (completeTask cfg now task target closes db)

/-- `ReconciliationWorker.releaseInventoryAndFail`. -/
def releaseInventoryAndFail : Int → Nat × TaskRow → OrderRow → Tables → Outcome :=
  settle cfg inventory (OrderStatus.text .failed) false .release
    (str "release inventory reservation: ")

/-- `ReconciliationWorker.finalizeCancel`. -/
def finalizeCancel : Int → Nat × TaskRow → OrderRow → Tables → Outcome :=
  settle cfg inventory (OrderStatus.text .cancelled) true .release
    (str "confirm released inventory reservation: ")

/-- `ReconciliationWorker.finalizePayment`. -/
def finalizePayment : Int → Nat × TaskRow → OrderRow → Tables → Outcome :=
  settle cfg inventory (OrderStatus.text .paid) true .confirm
    (str "confirm inventory reservation: ")

/-- The end of `processTask`: what becomes of a task whose action returned. -/
def conclude (now : Int) (task : Nat × TaskRow) (acted : Outcome) : Outcome :=
  match acted.err with
  | none => acted
  | some (.stateMismatch detail) =>
    markUnresolved cfg now task (Err.stateMismatch detail).text acted.calls acted.tables
  | some e => markFailed cfg now task e acted.calls acted.tables

/-- `ReconciliationWorker.processTask`; `done` and `marked` are what the clock reads when the
task is completed and when it is marked. -/
def processTask (done marked : Int) (task : Nat × TaskRow) (db : Tables) : Outcome :=
  match db.orders task.2.orderID with
  | none => markUnresolved cfg marked task (str "order not found") [] db
  | some order =>
    if task.2.action = Action.text .releaseInventoryAndFail then
      conclude cfg marked task (releaseInventoryAndFail cfg inventory done task order db)
    else if task.2.action = Action.text .finalizeCancel then
      conclude cfg marked task (finalizeCancel cfg inventory done task order db)
    else if task.2.action = Action.text .finalizePayment then
      conclude cfg marked task (finalizePayment cfg inventory done task order db)
    else
      markUnresolved cfg marked task
        (str "unsupported reconciliation action: " ++ task.2.action) [] db

end

/-! ## 3. The dry run -/

/-- `ReconciliationPlanReady`, … -/
inductive Classification where
  | ready
  | alreadyFinal
  | unsupportedAction
  | stateMismatch
  | orderMissing
  deriving DecidableEq, Repr

/-- `ReconciliationDryRunItem`.  A field the source leaves empty is the empty text. -/
structure Item where
  taskID : Nat
  orderID : Int
  action : GoString
  taskStatus : GoString
  currentOrderStatus : GoString
  intendedTargetState : GoString
  classification : Classification
  reason : GoString
  deriving DecidableEq

/-- `ReconciliationDryRunReport`. -/
structure Report where
  generatedAt : Int
  eligibleCount : Nat
  items : List Item
  deriving DecidableEq

/-- `reconciliationDryRunRow`. -/
structure Row where
  taskID : Nat
  orderID : Int
  action : GoString
  taskStatus : GoString
  orderStatus : Option GoString

/-- `reconciliationTargetState`. -/
def reconciliationTargetState (action : GoString) : Option GoString :=
  if action = Action.text .releaseInventoryAndFail then some (OrderStatus.text .failed)
  else if action = Action.text .finalizeCancel then some (OrderStatus.text .cancelled)
  else if action = Action.text .finalizePayment then some (OrderStatus.text .paid)
  else none

def planReconciliation (row : Row) : Item :=
  let item : Item := ⟨row.taskID, row.orderID, row.action, row.taskStatus, [], [], .ready, []⟩
  match reconciliationTargetState row.action with
  | none =>
    { item with
      classification := .unsupportedAction
      reason := str "unsupported reconciliation action"
      currentOrderStatus := row.orderStatus.getD [] }
  | some target =>
    let item := { item with intendedTargetState := target }
    match row.orderStatus with
    | none => { item with classification := .orderMissing, reason := str "order not found" }
    | some status =>
      let item := { item with currentOrderStatus := status }
      if status = OrderStatus.text .reconciliationRequired then item
      else if status = target then
        { item with
          classification := .alreadyFinal
          reason := str "order already has the intended target state" }
      else
        { item with
          classification := .stateMismatch
          reason := str "order state does not match reconciliation action" }

/-- Every item names the task it is about. -/
theorem planReconciliation_taskID (row : Row) :
    (planReconciliation row).taskID = row.taskID := by
  rw [planReconciliation]
  split
  · rfl
  · split
    · rfl
    · dsimp only
      split_ifs <;> rfl

/-- A task with its order, if there is one. -/
def Tables.joinRow (db : Tables) (e : Nat × TaskRow) : Row :=
  ⟨e.1, e.2.orderID, e.2.action, e.2.status, db.orderStatus e.2.orderID⟩

/-- `order_reconciliation_tasks AS t LEFT JOIN orders_v2 AS o ON o.id = t.order_id`, by
`t.id`. -/
def Tables.joined (db : Tables) : List ((Nat × TaskRow) × Row) :=
  (db.tasks.select fun _ => true).map fun e => (e, db.joinRow e)

section

variable [Collation] (cfg : ReconciliationWorkerConfig)

/-- `ReconciliationWorker.DryRun`: the tables it leaves, and its report. -/
def dryRun (now : Int) (db : Tables) : Tables × Report :=
  let rows := ((db.joined.filter fun r => eligible now r.1.2).take cfg.batchSize).map Prod.snd
  let items := rows.map planReconciliation
  (db, ⟨now, items.length, items⟩)

/-! ## 4. The same selection -/

theorem batch_nodup (now : Int) (db : Tables) : ((batch cfg now db).map Prod.fst).Nodup := by
  rw [batch, List.map_take]
  exact (db.tasks.select_nodup _).take

variable {db : Tables} {task : Nat × TaskRow} {order : OrderRow}

theorem batch_row {cfg : ReconciliationWorkerConfig} {now : Int} {e : Nat × TaskRow}
    (he : e ∈ batch cfg now db) : db.tasks.row e.1 = some e.2 :=
  (Table.mem_select.mp (List.mem_of_mem_take he)).1

/-- The join and the filter on it select the tasks that `claim` selects. -/
theorem dryRun_items (now : Int) (db : Tables) :
    (dryRun cfg now db).2.items =
      (batch cfg now db).map fun e => planReconciliation (db.joinRow e) := by
  have hfilter : (db.joined.filter fun r => eligible now r.1.2) =
      (db.tasks.select (eligible now)).map fun e => (e, db.joinRow e) := by
    rw [Tables.joined, List.filter_map]
    exact congrArg _ (db.tasks.select_filter (fun _ => true) (eligible now))
  simp only [dryRun, batch, hfilter, ← List.map_take, List.map_map, Function.comp_def]

omit [Collation] in
/-- The loop of `claim` finds every row it is to update, and leases each of them once. -/
theorem leaseAll_ok (now : Int) (es : List (Nat × TaskRow)) :
    ∀ tasks : Table TaskRow, (es.map Prod.fst).Nodup → (∀ e ∈ es, tasks.row e.1 = some e.2) →
      ∃ leased, leaseAll cfg now es tasks = .ok leased ∧
        (∀ e ∈ es, leased.row e.1 = some (lease cfg now e.2)) ∧
        ∀ i ∉ es.map Prod.fst, leased.row i = tasks.row i := by
  induction es with
  | nil =>
    intro tasks _ _
    exact ⟨tasks, rfl, nofun, fun _ _ => rfl⟩
  | cons e rest ih =>
    intro tasks hnd hrows
    obtain ⟨hfirst, hnd⟩ := List.nodup_cons.mp hnd
    have hrow := hrows e List.mem_cons_self
    -- the update of this task leaves the rows of the others to the rest of the loop
    have hrest : ∀ e' ∈ rest, (tasks.modify e.1 (lease cfg now)).row e'.1 = some e'.2 := by
      intro e' he'
      have hne : e'.1 ≠ e.1 := fun h => hfirst (h ▸ List.mem_map_of_mem he')
      rw [Table.modify_row, if_neg hne, hrows e' (List.mem_cons_of_mem _ he')]
    obtain ⟨leased, hrun, hleased, hother⟩ := ih _ hnd hrest
    refine ⟨leased, ?_, ?_, ?_⟩
    · rw [leaseAll, hrow]
      exact hrun
    · intro e' he'
      rcases List.mem_cons.mp he' with rfl | he'
      · rw [hother _ hfirst, Table.modify_row_self, hrow]
        rfl
      · exact hleased e' he'
    · intro i hi
      rw [List.map_cons, List.mem_cons, not_or] at hi
      rw [hother i hi.2, Table.modify_row, if_neg hi.1]

/-- `claim` returns, and what it returns is what is then in the table. -/
theorem claim_ok (now : Int) (db : Tables) :
    ∃ leased : Table TaskRow,
      claim cfg now db = .ok ({ db with tasks := leased },
        (batch cfg now db).map fun e => (e.1, lease cfg now e.2)) ∧
      ∀ e ∈ batch cfg now db, leased.row e.1 = some (lease cfg now e.2) := by
  obtain ⟨leased, hrun, hleased, -⟩ :=
    leaseAll_ok cfg now (batch cfg now db) db.tasks (batch_nodup cfg now db) fun _ => batch_row
  refine ⟨leased, ?_, hleased⟩
  rw [claim, hrun]
  rfl

/-! ## 5. The same decision -/

/-- What the item of a report says about `processTask`, run on tables whose orders are those of
`before`. -/
def Foretold (inventory : Inventory) (before : Tables) (item : Item) (ended : Outcome) : Prop :=
  match item.classification with
  | .ready =>
    ∃ call, ended.calls = [call] ∧ (inventory call = .ok () →
      ended.tables.orderStatus item.orderID = some item.intendedTargetState ∧
        ended.tables.taskStatus item.taskID = some (TaskStatus.text .completed))
  | .alreadyFinal =>
    ended.calls = [] ∧
      ended.tables.orderStatus item.orderID = before.orderStatus item.orderID ∧
      ended.tables.taskStatus item.taskID = some (TaskStatus.text .completed)
  | .unsupportedAction | .stateMismatch | .orderMissing =>
    ended.calls = [] ∧ ended.tables.orders = before.orders ∧
      ended.tables.taskStatus item.taskID = some (TaskStatus.text .unresolved)

variable {cfg}

theorem updateTask_owned (hrow : db.tasks.row task.1 = some task.2)
    (howner : task.2.leaseOwner = cfg.workerID) (set : TaskRow → TaskRow) (lost : GoString) :
    db.updateTask task.1 cfg.workerID set lost =
      .ok { db with tasks := db.tasks.modify task.1 set } := by
  have howns : owns cfg.workerID task.2.leaseOwner = true := by
    rw [howner]
    exact decide_eq_true rfl
  rw [Tables.updateTask, hrow]
  exact if_pos howns

omit [Collation] in
theorem taskStatus_modify (hrow : db.tasks.row task.1 = some task.2) (set : TaskRow → TaskRow) :
    Tables.taskStatus { db with tasks := db.tasks.modify task.1 set } task.1 =
      some (set task.2).status := by
  rw [Tables.taskStatus, Table.modify_row_self, hrow]
  rfl

/-- The update of `completeTask` starts from `reconciliation_required`, so the trigger has
nothing to do. -/
theorem trigger_silent (tasks : Table TaskRow) (now orderID : Int) {old : GoString}
    (new : GoString) (hold : same old (OrderStatus.text .reconciliationRequired) = true) :
    trigger tasks now orderID old new = tasks := by
  refine if_neg ?_
  rintro ⟨hnew, hne⟩
  refine hne (decide_eq_true ?_)
  exact (of_decide_eq_true hold).trans (of_decide_eq_true hnew).symm

theorem moveStatus_tasks (db : Tables) (now orderID : Int) (target : GoString) :
    (db.moveStatus now orderID (OrderStatus.text .reconciliationRequired) target).1.tasks =
      db.tasks := by
  rw [Tables.moveStatus]
  split
  · rfl
  · split
    next h => exact trigger_silent _ _ _ _ h
    next => rfl

/-- An order that has its target already keeps it: the update either does not match it or writes
what is there. -/
theorem moveStatus_orders_of_target {orderID : Int} (horder : db.orders orderID = some order)
    (now : Int) (current : GoString) :
    (db.moveStatus now orderID current order.status).1.orders = db.orders := by
  rw [Tables.moveStatus, horder]
  dsimp only
  split
  · exact Function.update_eq_self_iff.mpr horder.symm
  · rfl

theorem moveStatus_orders_of_current {orderID : Int} (horder : db.orders orderID = some order)
    (now : Int) (target : GoString) :
    (db.moveStatus now orderID order.status target).1.orderStatus orderID = some target := by
  rw [Tables.moveStatus, horder]
  simp [Tables.orderStatus]

/-- `completeTask` goes through for an order that waits for reconciliation or has its target,
and what it does to the orders is its first update. -/
theorem completeTask_ok (hrow : db.tasks.row task.1 = some task.2)
    (howner : task.2.leaseOwner = cfg.workerID) (horder : db.orders task.2.orderID = some order)
    {target : GoString}
    (hstatus : order.status = OrderStatus.text .reconciliationRequired ∨ order.status = target)
    (now : Int) (closes : Bool) :
    ∃ db', completeTask cfg now task target closes db = .ok db' ∧
      db'.orders = (db.moveStatus now task.2.orderID
        (OrderStatus.text .reconciliationRequired) target).1.orders ∧
      db'.taskStatus task.1 = some (TaskStatus.text .completed) := by
  have htasks := moveStatus_tasks db now task.2.orderID target
  have hfound : ¬ ((db.moveStatus now task.2.orderID
      (OrderStatus.text .reconciliationRequired) target).2 = 0 ∧
      (db.moveStatus now task.2.orderID (OrderStatus.text .reconciliationRequired)
        target).1.countStatus task.2.orderID target ≠ 1) := by
    rintro ⟨hnone, hcount⟩
    rw [Tables.moveStatus, horder] at hnone hcount
    dsimp only at hnone hcount
    split at hnone
    · exact absurd hnone Nat.one_ne_zero
    next hne =>
      -- the update has not matched, so the order has the target, and the count finds it
      rcases hstatus with h | h
      · exact hne (h ▸ same_refl _)
      · rw [if_neg hne] at hcount
        simp [Tables.countStatus, horder, h] at hcount
  rw [completeTask, if_neg hfound]
  generalize db.moveStatus now task.2.orderID _ target = u at htasks
  have hrow' : (if closes then u.1.closeOutbox task.2.orderID else u.1).tasks.row task.1 =
      some task.2 := by
    rw [← hrow, ← htasks]
    cases closes <;> rfl
  refine ⟨_, updateTask_owned hrow' howner _ _, ?_, taskStatus_modify hrow' _⟩
  cases closes <;> rfl

/-- A task that is marked unresolved is so, and no order changes. -/
theorem markUnresolved_spec (hrow : db.tasks.row task.1 = some task.2)
    (howner : task.2.leaseOwner = cfg.workerID) (now : Int) (reason : GoString)
    (calls : List InventoryCall) :
    (markUnresolved cfg now task reason calls db).calls = calls ∧
      (markUnresolved cfg now task reason calls db).tables.orders = db.orders ∧
      (markUnresolved cfg now task reason calls db).tables.taskStatus task.1 =
        some (TaskStatus.text .unresolved) := by
  rw [markUnresolved, updateTask_owned hrow howner]
  exact ⟨rfl, rfl, taskStatus_modify hrow _⟩

theorem markFailed_calls (now : Int) (task : Nat × TaskRow) (cause : Err)
    (calls : List InventoryCall) (db : Tables) :
    (markFailed cfg now task cause calls db).calls = calls := by
  rw [markFailed]
  split <;> rfl

/-- One of the three actions, on a task that asks for it. -/
theorem settle_foretold (hrow : db.tasks.row task.1 = some task.2)
    (howner : task.2.leaseOwner = cfg.workerID) (horder : db.orders task.2.orderID = some order)
    {target : GoString} (htarget : reconciliationTargetState task.2.action = some target)
    (hne : target ≠ OrderStatus.text .reconciliationRequired) (inventory : Inventory)
    (closes : Bool) (settlement : Settlement) (words : GoString) (done marked : Int) :
    Foretold inventory db (planReconciliation (db.joinRow task)) (conclude cfg marked task
      (settle cfg inventory target closes settlement words done task order db)) := by
  have hcurrent : db.orderStatus task.2.orderID = some order.status := by
    rw [Tables.orderStatus, horder]
    rfl
  simp only [planReconciliation, Tables.joinRow, htarget, hcurrent]
  by_cases hready : order.status = OrderStatus.text .reconciliationRequired
  · have hopen : order.status ≠ target := fun h => hne (h.symm.trans hready)
    rw [if_pos hready, settle, if_neg hopen, if_neg (not_not_intro hready)]
    refine ⟨⟨settlement, order.reservationID⟩, ?_⟩
    dsimp only
    cases hreply : inventory ⟨settlement, order.reservationID⟩ with
    | error e => exact ⟨markFailed_calls _ _ _ _ _, nofun⟩
    | ok _ =>
      have hmay : order.status = _ ∨ order.status = target := .inl hready
      obtain ⟨db', hdone, horders, hstatus⟩ :=
        completeTask_ok hrow howner horder hmay done closes
      rw [hdone]
      refine ⟨rfl, fun _ => ⟨?_, hstatus⟩⟩
      rw [← moveStatus_orders_of_current horder done target, hready]
      exact orderStatus_of_orders horders _
  · rw [if_neg hready, settle]
    by_cases hfinal : order.status = target
    · obtain ⟨db', hdone, horders, hstatus⟩ :=
        completeTask_ok hrow howner horder (.inr hfinal) done closes
      subst hfinal
      rw [if_pos rfl, if_pos rfl, hdone]
      refine ⟨rfl, ?_, hstatus⟩
      rw [moveStatus_orders_of_target horder] at horders
      exact orderStatus_of_orders horders _
    · rw [if_neg hfinal, if_neg hfinal, if_pos hready]
      exact markUnresolved_spec hrow howner marked _ []

/-- `processTask` does with a leased task what the dry run says of it. -/
theorem processTask_foretold (db : Tables) (task : Nat × TaskRow)
    (hrow : db.tasks.row task.1 = some task.2) (howner : task.2.leaseOwner = cfg.workerID)
    (inventory : Inventory) (done marked : Int) :
    Foretold inventory db (planReconciliation (db.joinRow task))
      (processTask cfg inventory done marked task db) := by
  rw [processTask]
  cases horder : db.orders task.2.orderID with
  | none =>
    have hspec := markUnresolved_spec hrow howner marked (str "order not found") []
    have hcurrent : db.orderStatus task.2.orderID = none := by
      rw [Tables.orderStatus, horder]
      rfl
    -- with an action the worker does not know, the dry run names that instead
    cases htarget : reconciliationTargetState task.2.action with
    | none =>
      simp only [planReconciliation, Tables.joinRow, htarget]
      exact hspec
    | some target =>
      simp only [planReconciliation, Tables.joinRow, htarget, hcurrent]
      exact hspec
  | some order =>
    dsimp only
    split
    next h =>
      exact settle_foretold hrow howner horder (if_pos h) (by decide +kernel) _ _ _ _ _ _
    next h₁ =>
      split
      next h =>
        refine settle_foretold hrow howner horder ?_ (by decide +kernel) _ _ _ _ _ _
        rw [reconciliationTargetState, if_neg h₁, if_pos h]
      next h₂ =>
        split
        next h =>
          refine settle_foretold hrow howner horder ?_ (by decide +kernel) _ _ _ _ _ _
          rw [reconciliationTargetState, if_neg h₁, if_neg h₂, if_pos h]
        next h₃ =>
          have htarget : reconciliationTargetState task.2.action = none := by
            rw [reconciliationTargetState, if_neg h₁, if_neg h₂, if_neg h₃]
          simp only [planReconciliation, Tables.joinRow, htarget]
          exact markUnresolved_spec hrow howner marked _ []

/-- **The dry run predicts the worker.**  It writes nothing.  At the same instant `claim` takes
the tasks it lists, in their order.  And `processTask`, run on one of them right after, does
what the item says, whatever the inventory service answers. -/
theorem dryRun_predicts (given : Settings) (unixNano now : Int) (db : Tables) :
    (dryRun (given.normalized unixNano) now db).1 = db ∧
      ∃ claimed tasks, claim (given.normalized unixNano) now db = .ok (claimed, tasks) ∧
        List.Forall₂ (fun item task => item.taskID = task.1 ∧
            ∀ (inventory : Inventory) (done marked : Int), Foretold inventory db item
              (processTask (given.normalized unixNano) inventory done marked task claimed))
          (dryRun (given.normalized unixNano) now db).2.items tasks := by
  obtain ⟨leased, hclaim, hleased⟩ := claim_ok (given.normalized unixNano) now db
  refine ⟨rfl, _, _, hclaim, ?_⟩
  rw [dryRun_items, List.forall₂_map_left_iff, List.forall₂_map_right_iff, List.forall₂_same]
  intro e he
  constructor
  · exact planReconciliation_taskID _
  · intro inventory done marked
    -- the item is the same for the leased task: `claim` writes nothing the plan reads
    exact processTask_foretold { db with tasks := leased } (e.1, lease _ now e.2)
      (hleased e he) rfl inventory done marked

end

-- one task of each class; the status of the second is written in capitals, which the database
-- takes for `failed`, and the last lacks its order and asks for an unknown action
example :
    letI := asciiCi
    let cfg := Settings.normalized ⟨str "w", 0, 0, 0, 0⟩ 7
    let due (orderID : Int) (action status : GoString) : TaskRow :=
      ⟨orderID, action, status, 0, 0, [], none, []⟩
    let db : Tables :=
      ⟨fun id => if id = 1 then some ⟨str "reconciliation_required", str "r"⟩
        else if id = 2 then some ⟨str "paid", str "r"⟩ else none, Table.empty,
       ((((Table.empty.insert (due 1 (str "finalize_cancel") (str "pending"))).insert
        (due 2 (str "finalize_payment") (str "FAILED"))).insert
        (due 2 (str "finalize_cancel") (str "failed"))).insert
        (due 3 (str "finalize_cancel") (str "pending"))).insert
        (due 3 (str "finalize") (str "pending"))⟩
    (dryRun cfg 9 db).2.items.map Item.classification =
      [.ready, .alreadyFinal, .stateMismatch, .orderMissing, .unsupportedAction] := by
  decide +kernel

/-! ## 6. The worker among the other programs

On the rows that the service writes, the selection and the decision above are those of the
reconciliation worker of `Workers.lean`, which the whole system is made of. -/

/-- The columns of a task the service has written. -/
def TaskRow.of (t : ReconciliationTask) : TaskRow :=
  ⟨t.orderID, t.action.text, t.status.text, t.attempts, t.nextAttemptAt, t.leaseOwner,
    t.leaseUntil, t.lastError⟩

/-- The columns of an order the service has written. -/
def OrderRow.of (o : Order) : OrderRow := ⟨o.status.text, o.reservationID⟩

/-- The columns of a timeout row the service has written. -/
def OutboxRow.of (row : TimeoutOutbox) : OutboxRow := ⟨row.orderID, row.status.text⟩

/-- The tables of the ordering database.  No order has an id below one. -/
def Tables.of (db : DB) : Tables where
  orders id := (db.orders.row id.toNat).map OrderRow.of
  outbox := db.outbox.map OutboxRow.of
  tasks := db.tasks.map TaskRow.of

theorem orderStatus_text_injective : Function.Injective OrderStatus.text := by
  have hnodup : ([.reserving, .pending, .paying, .paid, .cancelling, .cancelled, .finished,
      .failed, .reconciliationRequired].map OrderStatus.text).Nodup := by decide +kernel
  intro a b
  refine List.inj_on_of_nodup_map hnodup ?_ ?_
  · cases a <;> decide
  · cases b <;> decide

theorem reconciliationTargetState_text (action : Action) :
    reconciliationTargetState action.text = action.plan.map fun plan => plan.1.text := by
  cases action with
  | unsupportedFrom status => cases status <;> decide +kernel
  | _ => decide +kernel

theorem plan_target_ne {action : Action} {target : OrderStatus} {closes : Bool}
    {settlement : Settlement} (h : action.plan = some (target, closes, settlement)) :
    target ≠ .reconciliationRequired := by
  rintro rfl
  cases action <;> simp [Action.plan] at h

/-- What an item says about the program point that the worker goes to after it has loaded the
order. -/
def Dispatched (item : Item) (task : ClaimedTask) (order : Order) (rest : List ClaimedTask) :
    Prop :=
  match item.classification with
  | .ready => ReconPc.dispatch task order rest = .call task order rest
  | .alreadyFinal =>
    ∃ target closes, ReconPc.dispatch task order rest = .complete task target closes rest
  | .unsupportedAction | .stateMismatch =>
    ∃ reason, ReconPc.dispatch task order rest = .markUnresolved task reason rest
  | .orderMissing => False

theorem planReconciliation_dispatched {db : DB} (task : ClaimedTask) {order : Order}
    (horder : db.orders.row task.2.orderID = some order) (rest : List ClaimedTask) :
    Dispatched (planReconciliation ((Tables.of db).joinRow (task.1, .of task.2))) task order
      rest := by
  have hcurrent : (Tables.of db).orderStatus (TaskRow.of task.2).orderID =
      some order.status.text := by
    simp [Tables.orderStatus, Tables.of, TaskRow.of, OrderRow.of, horder]
  have htarget := reconciliationTargetState_text task.2.action
  cases hplan : task.2.action.plan with
  | none =>
    rw [hplan, Option.map_none] at htarget
    simp only [planReconciliation, Tables.joinRow, TaskRow.of, htarget]
    exact ⟨_, by rw [ReconPc.dispatch, hplan]⟩
  | some plan =>
    obtain ⟨target, closes, settlement⟩ := plan
    rw [hplan, Option.map_some] at htarget
    have hne : target ≠ .reconciliationRequired := plan_target_ne hplan
    simp only [planReconciliation, Tables.joinRow, hcurrent]
    rw [show (TaskRow.of task.2).action = task.2.action.text from rfl, htarget]
    simp only [orderStatus_text_injective.eq_iff]
    by_cases hready : order.status = .reconciliationRequired
    · rw [if_pos hready]
      simp [Dispatched, ReconPc.dispatch, hplan, hready, hne.symm]
    · rw [if_neg hready]
      by_cases hfinal : order.status = target
      · rw [if_pos hfinal]
        refine ⟨target, closes, ?_⟩
        simp [ReconPc.dispatch, hplan, hfinal]
      · rw [if_neg hfinal]
        refine ⟨ReconPc.mismatch task.2.action order.status, ?_⟩
        simp only [ReconPc.dispatch, hplan, if_neg hfinal, if_pos hready]

section

variable [Collation] (cfg : ReconciliationWorkerConfig)

/-- The collation tells the statuses of a task apart. -/
def TellsApart : Prop := ∀ a b : TaskStatus, same a.text b.text = true → a = b

example : @TellsApart asciiCi := by
  intro a b
  cases a <;> cases b <;> decide +kernel

theorem eligible_of (hsep : TellsApart) (now : Int) (t : ReconciliationTask) :
    eligible now (TaskRow.of t) = decide ((t.status = .pending ∨ t.status = .failed) ∧
      t.nextAttemptAt ≤ now ∧ leaseOpen t.leaseUntil now) := by
  have hiff : ∀ s : TaskStatus, same t.status.text s.text = true ↔ t.status = s := by
    intro s
    constructor
    · exact hsep _ _
    · rintro rfl
      exact same_refl _
  simp only [eligible, TaskRow.of, hiff]

/-- **The dry run and the worker of the whole system.**  The items of a dry run are, one by one,
the tasks that the statement `claimTasks` returns, and where the worker goes from the order it
then loads is what the item says. -/
theorem dryRun_dispatched (hsep : TellsApart) (now : Int) (db : DB) :
    ∃ tasks, (db.claimTasks now [] cfg.workerID cfg.leaseDuration cfg.batchSize).1 =
        .tasks tasks ∧
      List.Forall₂ (fun item task => item.taskID = task.1 ∧ ∀ order rest,
          db.orders.row task.2.orderID = some order → Dispatched item task order rest)
        (dryRun cfg now (Tables.of db)).2.items tasks := by
  have hbatch : batch cfg now (Tables.of db) = ((db.tasks.select fun t =>
      (t.status = .pending ∨ t.status = .failed) ∧ t.nextAttemptAt ≤ now ∧
        leaseOpen t.leaseUntil now).take cfg.batchSize).map fun e => (e.1, TaskRow.of e.2) := by
    simp only [batch, Tables.of, Table.select_map, eligible_of hsep, List.map_take]
  refine ⟨_, rfl, ?_⟩
  rw [dryRun_items, hbatch, List.map_map, List.forall₂_map_left_iff,
    List.forall₂_map_right_iff]
  simp only [List.not_mem_nil, not_false_eq_true, decide_true, List.filter_true,
    List.forall₂_same]
  intro e _
  constructor
  · exact planReconciliation_taskID _
  · intro order rest horder
    -- the plan reads nothing of a task that `claimTasks` writes
    exact planReconciliation_dispatched (e.1, { e.2 with
      attempts := e.2.attempts + 1, leaseOwner := cfg.workerID
      leaseUntil := some (now + cfg.leaseDuration) }) horder rest

end

end DryRun

end OrderSystem.OrderSvc
