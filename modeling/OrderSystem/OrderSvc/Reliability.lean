/-
# The reliability indicators

`internal/ordersvc/reliability_indicators.go`: what `/internal/v1/operations/reliability` and the
metrics report about the outbox and the orders, by one aggregate query on each table.  `SUM` of a
condition counts the rows for which it holds; `MIN` and `MAX` of no rows are `NULL`.

Two columns that only these queries read, `created_at` of the timeout rows and `updated_at` of the
orders, are kept beside the rows (`Stamps`; `Saga/Monitor.lean` maintains them).  Instants are in
milliseconds.  How long the queries took is left out.

`stuck_transient` reads `updated_at`, which every `UPDATE` of an order sets.  What the statements of
the service and the workers do to the status of an order they set it for is `status_of_exec`.
-/
import OrderSystem.OrderSvc.Rows

namespace OrderSystem.OrderSvc

open OrderSystem.Kit

/-! ## 1. The queries -/

/-- Columns of the two tables that nothing else reads. -/
structure Stamps where
  /-- `created_at` of a timeout row -/
  createdAt : Nat → Int
  /-- `updated_at` of an order -/
  updatedAt : Nat → Int

structure OutboxStatusIndicators where
  pending : Nat
  failed : Nat
  published : Nat
  completed : Nat
  deriving DecidableEq

structure OutboxIndicators where
  byStatus : OutboxStatusIndicators
  leased : Nat
  retryReady : Nat
  overdue : Nat
  oldestActionableAgeSeconds : Int
  maximumAttempts : Nat
  totalFailedAttempts : Nat
  deriving DecidableEq

structure OrderStatusIndicators where
  reserving : Nat
  pending : Nat
  paying : Nat
  paid : Nat
  cancelling : Nat
  cancelled : Nat
  finished : Nat
  failed : Nat
  reconciliationRequired : Nat
  deriving DecidableEq

structure OrderSagaIndicators where
  byStatus : OrderStatusIndicators
  reconciliationRequired : Nat
  oldestReconciliationAgeSeconds : Int
  stuckTransient : Nat
  transientStuckThresholdSeconds : Int
  deriving DecidableEq

structure ReliabilitySnapshot where
  collectedAt : Int
  outbox : OutboxIndicators
  orders : OrderSagaIndicators
  deriving DecidableEq

/-- `NewReliabilityReporter`: a threshold that is not positive is five minutes. -/
def stuckThresholdOf (configured : Int) : Int :=
  if configured ≤ 0 then 5 * 60 * 1000 else configured

def ageSeconds (now : Int) : Option Int → Int
  | none => 0
  | some value => if now < value then 0 else (now - value) / 1000

/-- `status IN (pending, failed)`. -/
def TimeoutOutbox.actionable (row : TimeoutOutbox) : Bool :=
  decide (row.status = .pending ∨ row.status = .failed)

/-- The condition of `retry_ready`. -/
def TimeoutOutbox.retryReady (row : TimeoutOutbox) (now : Int) : Bool :=
  decide ((row.status = .pending ∨ row.status = .failed) ∧ row.nextAttemptAt ≤ now ∧
    leaseOpen row.leaseUntil now)

/-- The condition of `leased`. -/
def TimeoutOutbox.leased [Collation] (row : TimeoutOutbox) (now : Int) : Bool :=
  !owns [] row.leaseOwner && row.leaseUntil.any fun t => now < t

/-- The condition of `overdue`. -/
def TimeoutOutbox.overdue (row : TimeoutOutbox) (now : Int) : Bool :=
  decide (row.dueAt < now ∧ row.status ≠ .completed)

/-- `status IN (reserving, paying, cancelling)`. -/
def OrderStatus.transient (status : OrderStatus) : Bool :=
  decide (status = .reserving ∨ status = .paying ∨ status = .cancelling)

/-- The number of timeout rows that match. -/
def DB.countOutbox (db : DB) (p : TimeoutOutbox → Bool) : Nat :=
  (db.outbox.ids fun _ row => p row).length

/-- The number of orders that match. -/
def DB.countOrders (db : DB) (p : Nat → Order → Bool) : Nat := (db.orders.ids p).length

/-- The attempts of the rows that match. -/
def DB.attempts (db : DB) (p : TimeoutOutbox → Bool) : List Nat :=
  (db.outbox.select p).map fun e => e.2.attempts

/-- The first query. -/
def DB.outboxIndicators [Collation] (db : DB) (stamps : Stamps) (now : Int) :
    OutboxIndicators where
  byStatus :=
    { pending := db.countOutbox fun row => row.status = .pending
      failed := db.countOutbox fun row => row.status = .failed
      published := db.countOutbox fun row => row.status = .published
      completed := db.countOutbox fun row => row.status = .completed }
  leased := db.countOutbox fun row => row.leased now
  retryReady := db.countOutbox fun row => row.retryReady now
  overdue := db.countOutbox fun row => row.overdue now
  oldestActionableAgeSeconds := ageSeconds now
    ((db.outbox.ids fun _ row => row.actionable).map stamps.createdAt).min?
  maximumAttempts := ((db.attempts fun _ => true).max?).getD 0
  totalFailedAttempts := (db.attempts fun row => row.status = .failed).sum

/-- The second query. -/
def DB.orderIndicators (db : DB) (stamps : Stamps) (now stuckThreshold : Int) :
    OrderSagaIndicators where
  byStatus :=
    { reserving := db.countOrders fun _ o => o.status = .reserving
      pending := db.countOrders fun _ o => o.status = .pending
      paying := db.countOrders fun _ o => o.status = .paying
      paid := db.countOrders fun _ o => o.status = .paid
      cancelling := db.countOrders fun _ o => o.status = .cancelling
      cancelled := db.countOrders fun _ o => o.status = .cancelled
      finished := db.countOrders fun _ o => o.status = .finished
      failed := db.countOrders fun _ o => o.status = .failed
      reconciliationRequired := db.countOrders fun _ o => o.status = .reconciliationRequired }
  reconciliationRequired := db.countOrders fun _ o => o.status = .reconciliationRequired
  oldestReconciliationAgeSeconds := ageSeconds now
    ((db.orders.ids fun _ o => o.status = .reconciliationRequired).map stamps.updatedAt).min?
  stuckTransient := db.countOrders fun i o =>
    o.status.transient && decide (stamps.updatedAt i < now - stuckThreshold)
  transientStuckThresholdSeconds := stuckThreshold / 1000

/-- `Snapshot`, when both queries succeed. -/
def DB.snapshot [Collation] (db : DB) (stamps : Stamps) (collectedAt configured : Int) :
    ReliabilitySnapshot where
  collectedAt := collectedAt
  outbox := db.outboxIndicators stamps collectedAt
  orders := db.orderIndicators stamps collectedAt (stuckThresholdOf configured)

/-! ## 2. What sets `updated_at` -/

section

variable [Collation] {now : Int} {locked : List Nat} {db db' : DB} {stmt : Stmt} {r : Res}

/-- The order that the `UPDATE` of a statement matches. -/
def Stmt.matched (db : DB) (stmt : Stmt) : Option Nat :=
  match stmt.change with
  | none => none
  | some (orderID, old, _) =>
    if (db.orders.row orderID).any fun o => decide (∀ st ∈ old, o.status = st) then some orderID
    else none

omit [Collation] in
theorem matched_eq_some {i : Nat} : stmt.matched db = some i ↔
    ∃ old new o, stmt.change = some (i, old, new) ∧ db.orders.row i = some o ∧
      ∀ st ∈ old, o.status = st := by
  unfold Stmt.matched
  cases hch : stmt.change with
  | none => simp
  | some change =>
    obtain ⟨orderID, old, new⟩ := change
    simp only [Option.any_eq_true, decide_eq_true_eq, Option.ite_none_right_eq_some,
      Option.some.injEq, Prod.mk.injEq]
    constructor
    · rintro ⟨⟨o, ho, hold⟩, rfl⟩
      exact ⟨old, new, o, ⟨rfl, rfl, rfl⟩, ho, hold⟩
    · rintro ⟨_, _, o, ⟨rfl, rfl, rfl⟩, ho, hold⟩
      exact ⟨⟨o, ho, hold⟩, rfl⟩

/-- The order whose `updated_at` a statement sets when it commits: one it inserts, or one that its
`UPDATE` matches. -/
def Stmt.touches (now : Int) (locked : List Nat) (db : DB) (stmt : Stmt) : Option Nat :=
  match stmt.exec now locked db with
  | .error _ => none
  | .ok (.inserted orderID, _) => some orderID
  | .ok _ => stmt.matched db

/-- An update that matches an order leaves it with the status that the statement announces. -/
theorem status_of_exec (h : stmt.exec now locked db = .ok (r, db')) {i : Nat}
    {old : Option OrderStatus} {new : OrderStatus} (hch : stmt.change = some (i, old, new))
    {o : Order} (ho : db.orders.row i = some o) (hold : ∀ st ∈ old, o.status = st) :
    ∃ o', db'.orders.row i = some o' ∧ o'.status = new := by
  cases stmt with
  | writeStatus orderID status reason =>
    simp only [Stmt.change, Option.some.injEq, Prod.mk.injEq] at hch
    obtain ⟨rfl, -, rfl⟩ := hch
    obtain ⟨-, rfl⟩ := Prod.mk.inj (Except.ok.inj h)
    rcases updateOrder_cases db now orderID (fun _ => true) (fun o => o.withStatus status reason)
      (fun o => ⟨rfl, rfl, rfl, rfl⟩) with ⟨-, -, hno⟩ | ⟨-, -, o₁, -, hchg⟩
    · exact absurd (hno o ho) (by simp)
    · exact ⟨_, hchg.row, rfl⟩
  | finalizeCreate orderID reservationID timeoutDelay =>
    simp only [Stmt.change, Option.some.injEq, Prod.mk.injEq] at hch
    obtain ⟨rfl, -, rfl⟩ := hch
    obtain ⟨-, ⟨_, o', -, hst, -, hchg⟩, -⟩ := finalizeCreate_ok h
    exact ⟨o', hchg.row, hst⟩
  | claim userID orderID transient =>
    simp only [Stmt.change, Option.some.injEq, Prod.mk.injEq] at hch
    obtain ⟨rfl, -, rfl⟩ := hch
    obtain ⟨-, hone, rfl⟩ := affected_ok h
    rcases moveStatus_cases db now orderID userID .pending transient none with
      ⟨hzero, -⟩ | ⟨-, -, _, o', -, hst, -, hchg⟩
    · exact absurd (hzero.symm.trans hone) (by simp)
    · exact ⟨o', hchg.row, hst⟩
  | revert orderID transient reason =>
    simp only [Stmt.change, Option.some.injEq, Prod.mk.injEq] at hch
    obtain ⟨rfl, rfl, rfl⟩ := hch
    obtain ⟨-, rfl⟩ := Prod.mk.inj (Except.ok.inj h)
    obtain rfl := hold _ rfl
    obtain ⟨-, o', hst, -, hrow⟩ :=
      moveStatus_of_row ho (by simp : ∀ u ∈ none, o.userID = u) now .pending (some reason)
    exact ⟨o', hrow, hst⟩
  | finalizeSettle orderID transient final =>
    simp only [Stmt.change, Option.some.injEq, Prod.mk.injEq] at hch
    obtain ⟨rfl, -, rfl⟩ := hch
    obtain ⟨_, o', -, hst, hchg⟩ := finalizeSettle_ok h
    exact ⟨o', hchg.row, hst⟩
  | finish userID orderID =>
    simp only [Stmt.change, Option.some.injEq, Prod.mk.injEq] at hch
    obtain ⟨rfl, -, rfl⟩ := hch
    obtain ⟨-, hone, rfl⟩ := affected_ok h
    rcases moveStatus_cases db now orderID (some userID) .paid .finished none with
      ⟨hzero, -⟩ | ⟨-, -, _, o', -, hst, -, hchg⟩
    · exact absurd (hzero.symm.trans hone) (by simp)
    · exact ⟨o', hchg.row, hst⟩
  | completeTask taskID workerID orderID target closes =>
    simp only [Stmt.change, Option.some.injEq, Prod.mk.injEq] at hch
    obtain ⟨rfl, -, rfl⟩ := hch
    obtain ⟨-, db₁, _, hrow, hdb, -⟩ := completeTask_ok h
    rcases hrow with ⟨rfl, o₁, ho₁, hst⟩ | ⟨-, _, o', -, hst, -, hchg⟩
    · exact ⟨o₁, hdb ▸ ho₁, hst⟩
    · exact ⟨o', hdb ▸ hchg.row, hst⟩
  | _ => cases hch

/-- An order that a statement does not touch stays as it is. -/
theorem row_of_not_touches (h : stmt.exec now locked db = .ok (r, db')) {i : Nat}
    (hi : stmt.touches now locked db ≠ some i) : db'.orders.row i = db.orders.row i := by
  simp only [Stmt.touches, h] at hi
  generalize horders : db'.orders = orders at *
  cases horders ▸ exec_orders h with
  | same r hr => rfl
  | inserted draft hacc hstmt =>
    simp only [ne_eq, Option.some.injEq] at hi
    rw [Table.insert_row, if_neg (Ne.symm hi)]
  | changed orderID old o o' t' hch hold hid hchg =>
    have hmatched := matched_eq_some.mpr ⟨old, o'.status, o, hch, hchg.before, hold⟩
    have hne : i ≠ orderID := by
      rintro rfl
      exact hi hmatched
    rw [hchg.rows, if_neg hne]

/-- An order that a statement touches is new, or matches and gets the status that the statement
announces. -/
theorem row_of_touches (h : stmt.exec now locked db = .ok (r, db')) {i : Nat}
    (hi : stmt.touches now locked db = some i) :
    db.orders.row i = none ∨ ∃ old new o o', stmt.change = some (i, old, new) ∧
      db.orders.row i = some o ∧ (∀ st ∈ old, o.status = st) ∧
      db'.orders.row i = some o' ∧ o'.status = new := by
  simp only [Stmt.touches, h] at hi
  cases r with
  | inserted orderID =>
    obtain rfl := Option.some.inj hi
    refine Or.inl ?_
    generalize horders : db'.orders = orders at *
    cases horders ▸ exec_orders h with
    | same r hr => exact absurd rfl (hr orderID)
    | inserted draft hacc hstmt => exact db.orders.fresh _ (Nat.le_refl _)
  | _ =>
    obtain ⟨old, new, o, hch, ho, hold⟩ := matched_eq_some.mp hi
    obtain ⟨o', ho', hst⟩ := status_of_exec h hch ho hold
    exact Or.inr ⟨old, new, o, o', hch, ho, hold, ho', hst⟩

end

end OrderSystem.OrderSvc
