/-
# What a statement does to a row

Timeout rows and reconciliation tasks are never deleted, so all a committed statement can do is
change the rows there are and add one.

* `exec_timeouts` -- the eight things that can happen to a timeout row (`OutboxChange`); a new
  one comes only from the finalising transaction of `Create`.
* `exec_repairs` -- the four things that can happen to a task (`TaskChange`); a new one comes
  only from the trigger, for an order the statement moves to `reconciliation_required`.

What most proofs need is less, and follows: `exec_outbox` keeps the order of a row and says who
completes it, `exec_tasks` keeps the order and the action of a task.
-/
import OrderSystem.OrderSvc.Spec

namespace OrderSystem.OrderSvc

open OrderSystem.Kit

section

variable [Collation]

/-! ## 1. The timeout rows -/

/-- What a committed statement did to the timeout row under `i`. -/
inductive OutboxChange (now : Int) (stmt : Stmt) (r : Res) (i : Nat) (row : TimeoutOutbox) :
    TimeoutOutbox → Prop
  | same : OutboxChange now stmt r i row row
  | leased (workerID : GoString) (leaseDuration : Int) (batchSize : Nat)
      (events : List (Nat × TimeoutOutbox))
      (hstmt : stmt = .claimPending workerID leaseDuration batchSize) (hr : r = .events events)
      (hmem : (i, row) ∈ events) (hst : row.status = .pending ∨ row.status = .failed)
      (hopen : leaseOpen row.leaseUntil now = true) :
      OutboxChange now stmt r i row
        { row with leaseOwner := workerID, leaseUntil := some (now + leaseDuration) }
  | published (workerID : GoString) (hstmt : stmt = .markOutboxPublished i workerID)
      (howns : owns workerID row.leaseOwner = true) :
      OutboxChange now stmt r i row { row with
        status := .published, attempts := row.attempts + 1, lastError := [], leaseOwner := []
        leaseUntil := none, nextAttemptAt := now }
  | failed (workerID lastError : GoString) (retryDelay : Int)
      (hstmt : stmt = .markOutboxFailure i workerID lastError retryDelay)
      (howns : owns workerID row.leaseOwner = true) :
      OutboxChange now stmt r i row { row with
        status := .failed, attempts := row.attempts + 1, lastError := lastError, leaseOwner := []
        leaseUntil := none, nextAttemptAt := now + retryDelay }
  | released (ids : List Nat) (workerID : GoString)
      (hstmt : stmt = .releaseClaimedLeases ids workerID) (hmem : i ∈ ids)
      (howns : owns workerID row.leaseOwner = true) :
      OutboxChange now stmt r i row { row with leaseOwner := [], leaseUntil := none }
  /-- a delivery that failed -/
  | noted (lastError : GoString) (hstmt : stmt = .recordFailure row.orderID lastError) :
      OutboxChange now stmt r i row
        { row with attempts := row.attempts + 1, lastError := lastError }
  /-- a delivery that succeeded -/
  | consumed (hstmt : stmt = .completeOutbox row.orderID) :
      OutboxChange now stmt r i row
        { row with status := .completed, lastError := [], leaseOwner := [], leaseUntil := none }
  /-- by `cancel`, `Pay` or `completeTask`, which leave the lease as it is -/
  | closed (hstmt : (∃ transient final, stmt = .finalizeSettle row.orderID transient final) ∨
        ∃ taskID workerID target, stmt = .completeTask taskID workerID row.orderID target true)
      (hst : row.status ≠ .completed) :
      OutboxChange now stmt r i row { row with status := .completed }

variable {now : Int} {stmt : Stmt} {r : Res} {db : DB}

theorem OutboxChange.orderID {i : Nat} {row row' : TimeoutOutbox}
    (h : OutboxChange now stmt r i row row') :
    row'.orderID = row.orderID := by
  cases h <;> rfl

/-- The new timeout row of an order. -/
def newTimeout (now : Int) (orderID : Nat) (timeoutDelay : Int) : TimeoutOutbox :=
  ⟨orderID, now + timeoutDelay, .pending, 0, [], [], none, now⟩

/-- What a committed statement did to the timeout rows. -/
structure TimeoutEffect (now : Int) (stmt : Stmt) (r : Res) (t t' : Table TimeoutOutbox) :
    Prop where
  keeps : ∀ i row, t.row i = some row →
    ∃ row', t'.row i = some row' ∧ OutboxChange now stmt r i row row'
  adds : ∀ i row', t'.row i = some row' → t.row i = none →
    (∃ rid delay, stmt = .finalizeCreate row'.orderID rid delay ∧
      row' = newTimeout now row'.orderID delay) ∧
    i = t.next ∧ ∀ j row, t.row j = some row → row.orderID ≠ row'.orderID

/-- A change of every row, with nothing added. -/
theorem TimeoutEffect.of_map {t : Table TimeoutOutbox} {f : Nat → TimeoutOutbox → TimeoutOutbox}
    (hf : ∀ i row, t.row i = some row → OutboxChange now stmt r i row (f i row)) :
    TimeoutEffect now stmt r t (t.mapRows f) where
  keeps i row h := ⟨f i row, by rw [Table.mapRows_row, h]; rfl, hf i row h⟩
  adds i row' h hnone := by
    rw [Table.mapRows_row, hnone] at h
    exact absurd h (by simp)

theorem TimeoutEffect.refl (now : Int) (stmt : Stmt) (r : Res) (t : Table TimeoutOutbox) :
    TimeoutEffect now stmt r t t where
  keeps _ row h := ⟨row, h, .same⟩
  adds _ _ h hnone := absurd (hnone.symm.trans h) (by simp)

/-- A change of one row. -/
theorem TimeoutEffect.of_modify {t : Table TimeoutOutbox} {id : Nat}
    {f : TimeoutOutbox → TimeoutOutbox}
    (hf : ∀ row, t.row id = some row → OutboxChange now stmt r id row (f row)) :
    TimeoutEffect now stmt r t (t.modify id f) where
  keeps i row h := by
    rw [Table.modify_row, h]
    split
    · rename_i hi
      subst hi
      exact ⟨f row, rfl, hf row h⟩
    · exact ⟨row, rfl, .same⟩
  adds i row' h hnone := by
    rw [Table.modify_row, hnone] at h
    split at h <;> exact absurd h (by simp)

/-- A change of the rows of one order. -/
theorem TimeoutEffect.of_update {orderID : Nat} {cond : TimeoutOutbox → Bool}
    {set : TimeoutOutbox → TimeoutOutbox}
    (hf : ∀ i row, row.orderID = orderID → cond row = true →
      OutboxChange now stmt r i row (set row)) :
    TimeoutEffect now stmt r db.outbox (db.updateOutboxOf orderID cond set).outbox := by
  refine .of_map fun i row _ => ?_
  split
  · rename_i hcond
    exact hf i row hcond.1 hcond.2
  · exact .same

theorem TimeoutEffect.of_close {orderID : Nat}
    (hstmt : (∃ transient final, stmt = .finalizeSettle orderID transient final) ∨
      ∃ taskID workerID target, stmt = .completeTask taskID workerID orderID target true) :
    TimeoutEffect now stmt r db.outbox (db.closeOutbox orderID).outbox :=
  .of_update fun _ _ hid hst => .closed (hid ▸ hstmt) (of_decide_eq_true hst)

/-- What a publisher claims: rows that are due and open, which it leases. -/
theorem claimPending_ok {locked : List Nat} {db' : DB} {workerID : GoString} {leaseDuration : Int}
    {batchSize : Nat}
    (h : (Stmt.claimPending workerID leaseDuration batchSize).exec now locked db = .ok (r, db')) :
    ∃ events, r = .events events ∧
      (∀ e ∈ events, db.outbox.row e.1 = some e.2 ∧
        (e.2.status = .pending ∨ e.2.status = .failed) ∧ leaseOpen e.2.leaseUntil now = true) ∧
      (events.map Prod.fst).Nodup ∧
      db' = { db with
        outbox := db.outbox.mapRows fun id row =>
          if id ∈ events.map Prod.fst then
            { row with leaseOwner := workerID, leaseUntil := some (now + leaseDuration) }
          else row } := by
  obtain ⟨rfl, rfl⟩ := Prod.mk.inj (Except.ok.inj h)
  refine ⟨_, rfl, fun e he => ?_, ?_, rfl⟩
  · obtain ⟨hrow, hcond⟩ := Table.mem_select.mp (List.mem_filter.mp (List.mem_of_mem_take he)).1
    obtain ⟨hst, -, hopen⟩ := of_decide_eq_true hcond
    exact ⟨hrow, hst, hopen⟩
  · exact (Table.select_nodup _ _).sublist
      (((List.take_sublist _ _).trans List.filter_sublist).map Prod.fst)

/-- **What a statement does to the timeout rows.** -/
theorem exec_timeouts {locked : List Nat} {db' : DB} (h : stmt.exec now locked db = .ok (r, db')) :
    TimeoutEffect now stmt r db.outbox db'.outbox := by
  cases stmt with
  | findByIdempotency userID key | get userID orderID =>
    obtain ⟨rfl, -⟩ := found_ok h
    exact .refl _ _ _ _
  | insertOrder draft =>
    obtain ⟨⟨hacc, rfl⟩, -, -⟩ := insertOrder_ok h
    exact .refl _ _ _ _
  | writeStatus orderID status reason =>
    obtain ⟨-, rfl⟩ := Prod.mk.inj (Except.ok.inj h)
    rw [updateOrder_outbox db now orderID (fun _ => true) (fun o => o.withStatus status reason)
      fun o => ⟨rfl, rfl, rfl, rfl⟩]
    exact .refl _ _ _ _
  | finalizeCreate orderID reservationID timeoutDelay =>
    obtain ⟨-, -, ⟨row, hrow, hx⟩, hfresh⟩ := finalizeCreate_ok h
    rw [hx]
    refine ⟨fun i row' hr => ⟨row', Table.insert_row_of_some hr, .same⟩, fun i row' hr hnone => ?_⟩
    rw [Table.insert_row] at hr
    split at hr
    · rename_i hi
      obtain rfl := Option.some.inj hr
      subst hrow
      exact ⟨⟨reservationID, timeoutDelay, rfl, rfl⟩, hi, hfresh⟩
    · exact absurd (hnone.symm.trans hr) (by simp)
  | claim userID orderID transient | finish userID orderID =>
    obtain ⟨-, hn, rfl⟩ := affected_ok h
    rw [moveStatus_outbox]
    exact .refl _ _ _ _
  | revert orderID transient reason =>
    obtain ⟨-, rfl⟩ := Prod.mk.inj (Except.ok.inj h)
    rw [moveStatus_outbox]
    exact .refl _ _ _ _
  | finalizeSettle orderID transient final =>
    obtain ⟨⟨r', db₁⟩, haff, hdb⟩ := map_ok h
    obtain ⟨-, rfl⟩ := Prod.mk.inj hdb
    obtain ⟨-, hn, rfl⟩ := affected_ok haff
    rw [← moveStatus_outbox db now orderID none transient final (some [])]
    exact .of_close (Or.inl ⟨transient, final, rfl⟩)
  | claimTasks workerID leaseDuration batchSize =>
    obtain ⟨-, rfl⟩ := Prod.mk.inj (Except.ok.inj h)
    exact .refl _ _ _ _
  | completeTask taskID workerID orderID target closes =>
    obtain ⟨-, db₁, task, hch, -, hx, -⟩ := completeTask_ok h
    have hx₁ : db₁.outbox = db.outbox := by
      rcases hch with ⟨rfl, -⟩ | ⟨h2, -⟩
      · rfl
      · exact h2
    rw [hx, ← hx₁]
    cases closes with
    | true => exact .of_close (Or.inr ⟨taskID, workerID, target, rfl⟩)
    | false => exact .refl _ _ _ _
  | markTask taskID workerID status lastError delay lost =>
    obtain ⟨db₁, hup, hdb⟩ := map_ok h
    obtain ⟨-, rfl⟩ := Prod.mk.inj hdb
    obtain ⟨task, -, -, rfl⟩ := updateTask_ok hup
    exact .refl _ _ _ _
  | claimPending workerID leaseDuration batchSize =>
    obtain ⟨events, rfl, hevents, -, rfl⟩ := claimPending_ok h
    refine .of_map fun i row hrow => ?_
    split
    · rename_i hi
      obtain ⟨⟨i', row₀⟩, he, rfl⟩ := List.mem_map.mp hi
      obtain ⟨hrow₀, hst, hopen⟩ := hevents _ he
      obtain rfl := Option.some.inj (hrow₀.symm.trans hrow)
      exact .leased workerID leaseDuration batchSize events rfl rfl he hst hopen
    · exact .same
  | releaseClaimedLeases ids workerID =>
    obtain ⟨-, rfl⟩ := Prod.mk.inj (Except.ok.inj h)
    refine .of_map fun i row _ => ?_
    split
    · rename_i hi
      exact .released ids workerID rfl hi.1 hi.2
    · exact .same
  | markOutboxPublished eventID workerID =>
    obtain ⟨db₁, hup, hdb⟩ := map_ok h
    obtain ⟨-, rfl⟩ := Prod.mk.inj hdb
    obtain ⟨row₀, hrow₀, howns, rfl⟩ := updateLeased_ok hup
    refine .of_modify fun row hrow => ?_
    obtain rfl := Option.some.inj (hrow₀.symm.trans hrow)
    exact .published workerID rfl howns
  | markOutboxFailure eventID workerID lastError retryDelay =>
    obtain ⟨db₁, hup, hdb⟩ := map_ok h
    obtain ⟨-, rfl⟩ := Prod.mk.inj hdb
    obtain ⟨row₀, hrow₀, howns, rfl⟩ := updateLeased_ok hup
    refine .of_modify fun row hrow => ?_
    obtain rfl := Option.some.inj (hrow₀.symm.trans hrow)
    exact .failed workerID lastError retryDelay rfl howns
  | recordFailure orderID lastError =>
    obtain ⟨-, rfl⟩ := Prod.mk.inj (Except.ok.inj h)
    exact .of_update fun _ _ hid _ => .noted lastError (by rw [hid])
  | completeOutbox orderID =>
    obtain ⟨-, rfl⟩ := Prod.mk.inj (Except.ok.inj h)
    exact .of_update fun _ _ hid _ => .consumed (by rw [hid])

end

/-- The order whose timeout row a statement may complete. -/
def Stmt.closes : Stmt → Option Nat
  | .finalizeSettle orderID _ _ => some orderID
  | .completeTask _ _ orderID _ true => some orderID
  | .completeOutbox orderID => some orderID
  | _ => none

/-- What most proofs need to know about the timeout rows. -/
structure OutboxEffect (stmt : Stmt) (t t' : Table TimeoutOutbox) : Prop where
  keeps : ∀ i row, t.row i = some row → ∃ row', t'.row i = some row' ∧
    row'.orderID = row.orderID ∧
    (row'.status = .completed → row.status = .completed ∨ stmt.closes = some row.orderID)
  adds : ∀ i row', t'.row i = some row' →
    (∃ row, t.row i = some row ∧ row.orderID = row'.orderID) ∨
      (row'.status = .pending ∧ (∃ rid delay, stmt = .finalizeCreate row'.orderID rid delay) ∧
        i = t.next ∧ ∀ j row, t.row j = some row → row.orderID ≠ row'.orderID)

section

variable [Collation]

variable {now : Int} {stmt : Stmt} {r : Res} {i orderID : Nat} {row' : TimeoutOutbox}
  {locked : List Nat} {db db' : DB} {t : ReconciliationTask} {new : OrderStatus}

/-- Who completes a timeout row. -/
theorem OutboxChange.completed {row : TimeoutOutbox} (h : OutboxChange now stmt r i row row')
    (hst : row'.status = .completed) :
    row.status = .completed ∨ stmt.closes = some row.orderID := by
  cases h with
  | published workerID hstmt howns => exact absurd hst (by simp)
  | failed workerID lastError retryDelay hstmt howns => exact absurd hst (by simp)
  | consumed hstmt => exact Or.inr (by rw [hstmt]; rfl)
  | closed hstmt hne =>
    rcases hstmt with ⟨transient, final, rfl⟩ | ⟨taskID, workerID, target, rfl⟩
    · exact Or.inr rfl
    · exact Or.inr rfl
  | _ => exact Or.inl hst

/-- Who publishes a timeout row. -/
theorem OutboxChange.status_published {row : TimeoutOutbox} (h : OutboxChange now stmt r i row row')
    (hst : row'.status = .published) :
    row.status = .published ∨ ∃ workerID, stmt = .markOutboxPublished i workerID := by
  cases h with
  | published workerID hstmt howns => exact Or.inr ⟨workerID, hstmt⟩
  | failed workerID lastError retryDelay hstmt howns => exact absurd hst (by simp)
  | consumed hstmt => exact absurd hst (by simp)
  | closed hstmt hne => exact absurd hst (by simp)
  | _ => exact Or.inl hst

/-- A delivery that succeeded leaves the rows of its order completed and free. -/
theorem completeOutbox_ok (h : (Stmt.completeOutbox orderID).exec now locked db = .ok (r, db'))
    {k : Nat} (hrow' : db'.outbox.row k = some row') (hid : row'.orderID = orderID) :
    row'.status = .completed ∧ row'.leaseOwner = [] := by
  obtain ⟨-, rfl⟩ := Prod.mk.inj (Except.ok.inj h)
  obtain ⟨row, -, hset⟩ := Option.map_eq_some_iff.mp hrow'
  dsimp only at hset
  split at hset
  · rw [← hset]
    exact ⟨rfl, rfl⟩
  · rename_i hne
    rw [hset] at hne
    exact absurd ⟨hid, rfl⟩ hne

theorem exec_outbox (h : stmt.exec now locked db = .ok (r, db')) :
    OutboxEffect stmt db.outbox db'.outbox where
  keeps i row hrow := by
    obtain ⟨row', hrow', hch⟩ := (exec_timeouts h).keeps i row hrow
    exact ⟨row', hrow', hch.orderID, hch.completed⟩
  adds i row' hrow' := by
    cases hrow : db.outbox.row i with
    | some row =>
      obtain ⟨row₁, hrow₁, hch⟩ := (exec_timeouts h).keeps i row hrow
      obtain rfl := Option.some.inj (hrow₁.symm.trans hrow')
      exact Or.inl ⟨row, rfl, hch.orderID.symm⟩
    | none =>
      obtain ⟨⟨rid, delay, hstmt, hnew⟩, hi, hfresh⟩ := (exec_timeouts h).adds i row' hrow' hrow
      exact Or.inr ⟨by rw [hnew]; rfl, ⟨rid, delay, hstmt⟩, hi, hfresh⟩

/-! ## 2. The reconciliation tasks -/

/-- What a committed statement did to the task under `i`. -/
inductive TaskChange (now : Int) (stmt : Stmt) (r : Res) (i : Nat) (t : ReconciliationTask) :
    ReconciliationTask → Prop
  | same : TaskChange now stmt r i t t
  | leased (workerID : GoString) (leaseDuration : Int) (batchSize : Nat)
      (tasks : List (Nat × ReconciliationTask))
      (hstmt : stmt = .claimTasks workerID leaseDuration batchSize) (hr : r = .tasks tasks)
      (hmem : (i, { t with
        attempts := t.attempts + 1, leaseOwner := workerID
        leaseUntil := some (now + leaseDuration) }) ∈ tasks)
      (hst : t.status = .pending ∨ t.status = .failed)
      (hopen : leaseOpen t.leaseUntil now = true) :
      TaskChange now stmt r i t { t with
        attempts := t.attempts + 1, leaseOwner := workerID
        leaseUntil := some (now + leaseDuration) }
  | marked (workerID : GoString) (status : TaskStatus) (lastError : GoString) (delay : Int)
      (lost : GoString) (hstmt : stmt = .markTask i workerID status lastError delay lost)
      (howns : owns workerID t.leaseOwner = true) :
      TaskChange now stmt r i t { t with
        status := status, leaseOwner := [], leaseUntil := none, lastError := lastError
        nextAttemptAt := now + delay }
  | completed (workerID : GoString) (orderID : Nat) (target : OrderStatus) (closes : Bool)
      (hstmt : stmt = .completeTask i workerID orderID target closes)
      (howns : owns workerID t.leaseOwner = true) :
      TaskChange now stmt r i t (t.completedAt now)

theorem TaskChange.same_job {t' : ReconciliationTask} (h : TaskChange now stmt r i t t') :
    t'.orderID = t.orderID ∧ t'.action = t.action := by
  cases h <;> exact ⟨rfl, rfl⟩

/-- The task the trigger makes for an order that was in this status. -/
def newTask (now : Int) (orderID : Nat) (old : OrderStatus) : ReconciliationTask :=
  ⟨orderID, (taskFor old).1, (taskFor old).2, 0, now, [], none, taskError old⟩

/-- What a committed statement did to the tasks. -/
structure RepairEffect (now : Int) (db : DB) (stmt : Stmt) (r : Res)
    (t' : Table ReconciliationTask) : Prop where
  keeps : ∀ i t, db.tasks.row i = some t →
    ∃ t₁, t'.row i = some t₁ ∧ TaskChange now stmt r i t t₁
  adds : ∀ i t₁, t'.row i = some t₁ → db.tasks.row i = none → ∃ x old,
    db.orders.row t₁.orderID = some x ∧ x.status ≠ .reconciliationRequired ∧
    stmt.change = some (t₁.orderID, old, .reconciliationRequired) ∧
    t₁ = newTask now t₁.orderID x.status ∧ i = db.tasks.next

theorem RepairEffect.refl (now : Int) (db : DB) (stmt : Stmt) (r : Res) :
    RepairEffect now db stmt r db.tasks where
  keeps _ t h := ⟨t, h, .same⟩
  adds _ _ h hnone := absurd (hnone.symm.trans h) (by simp)

/-- A change of one task. -/
theorem RepairEffect.of_modify {id : Nat} {f : ReconciliationTask → ReconciliationTask}
    (hf : ∀ t, db.tasks.row id = some t → TaskChange now stmt r id t (f t)) :
    RepairEffect now db stmt r (db.tasks.modify id f) where
  keeps i t h := by
    rw [Table.modify_row, h]
    split
    · rename_i hi
      subst hi
      exact ⟨f t, rfl, hf t h⟩
    · exact ⟨t, rfl, .same⟩
  adds i t₁ h hnone := by
    rw [Table.modify_row, hnone] at h
    split at h <;> exact absurd h (by simp)

omit [Collation] in
/-- The trigger keeps the tasks there are. -/
theorem trigger_keeps {tasks : Table ReconciliationTask} (h : tasks.row i = some t) (now : Int)
    (orderID : Nat) (old new : OrderStatus) :
    (trigger tasks now orderID old new).row i = some t := by
  unfold trigger
  split
  · split
    · exact h
    · exact Table.insert_row_of_some h
  · exact h

omit [Collation] in
/-- ...and makes one for an order that comes into reconciliation. -/
theorem trigger_adds {tasks : Table ReconciliationTask} {old : OrderStatus}
    (h : (trigger tasks now orderID old new).row i = some t) (hnone : tasks.row i = none) :
    new = .reconciliationRequired ∧ old ≠ .reconciliationRequired ∧
      t = newTask now orderID old ∧ i = tasks.next := by
  unfold trigger at h
  split at h
  · rename_i hnew
    obtain ⟨rfl, hold⟩ := hnew
    split at h
    · exact absurd (hnone.symm.trans h) (by simp)
    · rw [Table.insert_row] at h
      split at h
      · rename_i hi
        exact ⟨rfl, hold, (Option.some.inj h).symm, hi⟩
      · exact absurd (hnone.symm.trans h) (by simp)
  · exact absurd (hnone.symm.trans h) (by simp)

/-- An update of an order, with its trigger. -/
theorem RepairEffect.of_update {cond : Order → Bool} {set : Order → Order}
    {old : Option OrderStatus} (hset : ∀ o, (set o).status = new)
    (hstmt : stmt.change = some (orderID, old, new)) :
    RepairEffect now db stmt r (db.updateOrder now orderID cond set).1.tasks := by
  unfold DB.updateOrder
  split
  · exact .refl _ _ _ _
  · rename_i o ho
    split
    · refine ⟨fun i t ht => ⟨t, trigger_keeps ht .., .same⟩, fun i t₁ h hnone => ?_⟩
      obtain ⟨hnew, hold, rfl, hi⟩ := trigger_adds h hnone
      rw [hset] at hnew
      subst hnew
      exact ⟨o, old, ho, hold, hstmt, rfl, hi⟩
    · exact .refl _ _ _ _

theorem RepairEffect.of_status {userID : Option Int} {old : OrderStatus} {reason : Option GoString}
    (hstmt : stmt.change = some (orderID, some old, new)) :
    RepairEffect now db stmt r (db.moveStatus now orderID userID old new reason).1.tasks :=
  .of_update (fun _ => rfl) hstmt

/-- What a worker claims: tasks that are due and open, which it leases. -/
theorem claimTasks_ok {workerID : GoString} {leaseDuration : Int} {batchSize : Nat}
    (h : (Stmt.claimTasks workerID leaseDuration batchSize).exec now locked db = .ok (r, db')) :
    ∃ tasks, r = .tasks tasks ∧
      (∀ e ∈ tasks, ∃ task, db.tasks.row e.1 = some task ∧
        (task.status = .pending ∨ task.status = .failed) ∧
        leaseOpen task.leaseUntil now = true ∧ e.2 = { task with
          attempts := task.attempts + 1, leaseOwner := workerID
          leaseUntil := some (now + leaseDuration) }) ∧
      (tasks.map Prod.fst).Nodup ∧
      db' = { db with
        tasks := db.tasks.mapRows fun id t =>
          if id ∈ tasks.map Prod.fst then { t with
            attempts := t.attempts + 1, leaseOwner := workerID
            leaseUntil := some (now + leaseDuration) }
          else t } := by
  obtain ⟨rfl, rfl⟩ := Prod.mk.inj (Except.ok.inj h)
  refine ⟨_, rfl, fun e he => ?_, ?_, ?_⟩
  · obtain ⟨e₀, he₀, rfl⟩ := List.mem_map.mp he
    obtain ⟨hrow, hcond⟩ := Table.mem_select.mp (List.mem_filter.mp (List.mem_of_mem_take he₀)).1
    obtain ⟨hst, -, hopen⟩ := of_decide_eq_true hcond
    exact ⟨e₀.2, hrow, hst, hopen, rfl⟩
  · rw [List.map_map]
    exact (Table.select_nodup _ _).sublist
      (((List.take_sublist _ _).trans List.filter_sublist).map Prod.fst)
  · simp only [List.map_map, Function.comp_def]

/-- **What a statement does to the reconciliation tasks.** -/
theorem exec_repairs (h : stmt.exec now locked db = .ok (r, db')) :
    RepairEffect now db stmt r db'.tasks := by
  cases stmt with
  | findByIdempotency userID key | get userID orderID =>
    obtain ⟨rfl, -⟩ := found_ok h
    exact .refl _ _ _ _
  | insertOrder draft =>
    obtain ⟨⟨hacc, rfl⟩, -, -⟩ := insertOrder_ok h
    exact .refl _ _ _ _
  | writeStatus orderID status reason =>
    obtain ⟨-, rfl⟩ := Prod.mk.inj (Except.ok.inj h)
    exact .of_update (fun _ => rfl) rfl
  | finalizeCreate orderID reservationID timeoutDelay =>
    simp only [Stmt.exec, DB.finalizeCreate] at h
    split at h
    · exact absurd h (by simp)
    · split at h
      · exact absurd h (by simp)
      · obtain ⟨-, rfl⟩ := Prod.mk.inj (Except.ok.inj h)
        exact .of_update (fun _ => rfl) rfl
  | claim userID orderID transient | finish userID orderID =>
    obtain ⟨-, -, rfl⟩ := affected_ok h
    exact .of_status rfl
  | revert orderID transient reason =>
    obtain ⟨-, rfl⟩ := Prod.mk.inj (Except.ok.inj h)
    exact .of_status rfl
  | finalizeSettle orderID transient final =>
    obtain ⟨⟨r', db₁⟩, haff, hdb⟩ := map_ok h
    obtain ⟨-, rfl⟩ := Prod.mk.inj hdb
    obtain ⟨-, -, rfl⟩ := affected_ok haff
    exact .of_status rfl
  | claimTasks workerID leaseDuration batchSize =>
    obtain ⟨tasks, rfl, htasks, -, rfl⟩ := claimTasks_ok h
    refine ⟨fun i t ht => ?_, fun i t₁ h hnone => ?_⟩
    · rw [Table.mapRows_row, ht]
      refine ⟨_, rfl, ?_⟩
      split
      · rename_i hi
        obtain ⟨⟨i', t₀⟩, he, rfl⟩ := List.mem_map.mp hi
        obtain ⟨task, hrow, hst, hopen, rfl⟩ := htasks _ he
        obtain rfl := Option.some.inj (hrow.symm.trans ht)
        exact .leased workerID leaseDuration batchSize tasks rfl rfl he hst hopen
      · exact .same
    · rw [Table.mapRows_row, hnone] at h
      exact absurd h (by simp)
  | completeTask taskID workerID orderID target closes =>
    obtain ⟨-, db₁, task, -, -, -, htask, howns, htasks⟩ := completeTask_ok h
    rw [htasks]
    refine .of_modify fun t ht => ?_
    obtain rfl := Option.some.inj (htask.symm.trans ht)
    exact .completed workerID orderID target closes rfl howns
  | markTask taskID workerID status lastError delay lost =>
    obtain ⟨db₁, hup, hdb⟩ := map_ok h
    obtain ⟨-, rfl⟩ := Prod.mk.inj hdb
    obtain ⟨task, htask, howns, rfl⟩ := updateTask_ok hup
    refine .of_modify fun t ht => ?_
    obtain rfl := Option.some.inj (htask.symm.trans ht)
    exact .marked workerID status lastError delay lost rfl howns
  | claimPending workerID leaseDuration batchSize | releaseClaimedLeases ids workerID
  | recordFailure orderID lastError | completeOutbox orderID =>
    obtain ⟨-, rfl⟩ := Prod.mk.inj (Except.ok.inj h)
    exact .refl _ _ _ _
  | markOutboxPublished eventID workerID
  | markOutboxFailure eventID workerID lastError retryDelay =>
    obtain ⟨db₁, hup, hdb⟩ := map_ok h
    obtain ⟨-, rfl⟩ := Prod.mk.inj hdb
    obtain ⟨row, -, -, rfl⟩ := updateLeased_ok hup
    exact .refl _ _ _ _

/-- Every task is one that was there, for the same order and action, or the trigger made it for
an order the statement moved to `reconciliation_required`. -/
theorem exec_tasks (h : stmt.exec now locked db = .ok (r, db')) {task' : ReconciliationTask}
    (hrow' : db'.tasks.row i = some task') :
    (∃ task, db.tasks.row i = some task ∧ task.orderID = task'.orderID ∧
        task.action = task'.action) ∨
      ∃ x old, db.orders.row task'.orderID = some x ∧ x.status ≠ .reconciliationRequired ∧
        stmt.change = some (task'.orderID, old, .reconciliationRequired) ∧
        task'.action = (taskFor x.status).1 := by
  cases hrow : db.tasks.row i with
  | some task =>
    obtain ⟨task₁, hrow₁, hch⟩ := (exec_repairs h).keeps i task hrow
    obtain rfl := Option.some.inj (hrow₁.symm.trans hrow')
    exact Or.inl ⟨task, rfl, hch.same_job.1.symm, hch.same_job.2.symm⟩
  | none =>
    obtain ⟨x, old, hx, hne, hch, hnew, -⟩ := (exec_repairs h).adds i task' hrow' hrow
    exact Or.inr ⟨x, old, hx, hne, hch, by rw [hnew]; rfl⟩

end

end OrderSystem.OrderSvc
