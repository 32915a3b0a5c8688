/-
# What a statement does

Everything a statement of `Schema.lean` can do to the orders, for the statements that commit.
The other two tables are the subject of `Rows.lean`.

* `exec_orders` -- a statement leaves the orders alone, inserts one, or changes one; and
  changes it only in the way `Stmt.change` announces.
* `exec_get`, `exec_findByIdempotency` -- a lookup returns a row of the table.

`runSql_cases` says what the caller can learn: the statement had no effect and failed, or it
committed, and then the caller was told so or not.
-/
import OrderSystem.OrderSvc.Schema

namespace OrderSystem.OrderSvc

open OrderSystem.Kit

/-! ## 1. Changing an order -/

/-- The parts of an order that no statement changes. -/
structure SameOrder (o o' : Order) : Prop where
  userID : o'.userID = o.userID
  idempotencyKey : o'.idempotencyKey = o.idempotencyKey
  items : o'.items = o.items
  totalFen : o'.totalFen = o.totalFen

theorem SameOrder.refl (o : Order) : SameOrder o o := ⟨rfl, rfl, rfl, rfl⟩

variable {o : Order} {t t' : Table Order} {orderID : Nat} {db db' : DB} {now : Int}
  {old new : OrderStatus} {reason : Option GoString} {userID : Option Int} {r : Res}

theorem SameOrder.trans {o' o'' : Order} (h : SameOrder o o') (h' : SameOrder o' o'') :
    SameOrder o o'' :=
  ⟨h'.userID.trans h.userID, h'.idempotencyKey.trans h.idempotencyKey, h'.items.trans h.items,
    h'.totalFen.trans h.totalFen⟩

/-- The order a statement may change, the status it must have (`none`: any), and the status it
gets. -/
def Stmt.change : Stmt → Option (Nat × Option OrderStatus × OrderStatus)
  | .writeStatus orderID status _ => some (orderID, none, status)
  | .finalizeCreate orderID _ _ => some (orderID, some .reserving, .pending)
  | .claim _ orderID transient => some (orderID, some .pending, transient)
  | .revert orderID transient _ => some (orderID, some transient, .pending)
  | .finalizeSettle orderID transient final => some (orderID, some transient, final)
  | .finish _ orderID => some (orderID, some .paid, .finished)
  | .completeTask _ _ orderID target _ => some (orderID, some .reconciliationRequired, target)
  | _ => none

/-- The reservation id an order has after a statement. -/
def Stmt.reservationID (o : Order) : Stmt → GoString
  | .finalizeCreate _ reservationID _ => reservationID
  | _ => o.reservationID

/-- The order `o` under `orderID` became `o'`, and nothing else changed. -/
structure Changed (t t' : Table Order) (orderID : Nat) (o o' : Order) : Prop where
  before : t.row orderID = some o
  same : SameOrder o o'
  next : t'.next = t.next
  rows : ∀ i, t'.row i = if i = orderID then some o' else t.row i

theorem Changed.row {o' : Order} (h : Changed t t' orderID o o') : t'.row orderID = some o' := by
  rw [h.rows, if_pos rfl]

/-- An update matches no row, or changes the one it matches. -/
theorem updateOrder_cases (db : DB) (now : Int) (orderID : Nat) (cond : Order → Bool)
    (set : Order → Order) (hset : ∀ o, SameOrder o (set o)) :
    ((db.updateOrder now orderID cond set).2 = 0 ∧
        (db.updateOrder now orderID cond set).1 = db ∧
        ∀ o, db.orders.row orderID = some o → cond o = false) ∨
      ((db.updateOrder now orderID cond set).2 = 1 ∧
        (db.updateOrder now orderID cond set).1.outbox = db.outbox ∧
        ∃ o, cond o = true ∧
          Changed db.orders (db.updateOrder now orderID cond set).1.orders orderID o (set o)) := by
  unfold DB.updateOrder
  split
  · rename_i hnone
    exact Or.inl ⟨rfl, rfl, fun o ho => absurd (hnone.symm.trans ho) (by simp)⟩
  · rename_i o ho
    split
    · rename_i hc
      refine Or.inr ⟨rfl, rfl, o, hc, ho, hset o, rfl, fun i => ?_⟩
      rw [Table.modify_row]
      split
      · rename_i hi
        rw [hi, ho]
        rfl
      · rfl
    · rename_i hc
      refine Or.inl ⟨rfl, rfl, fun o' ho' => ?_⟩
      rw [← Option.some.inj (ho.symm.trans ho')]
      exact Bool.eq_false_iff.mpr hc

/-- A status move, by the status it starts from. -/
theorem moveStatus_cases (db : DB) (now : Int) (orderID : Nat) (userID : Option Int)
    (old new : OrderStatus) (reason : Option GoString) :
    ((db.moveStatus now orderID userID old new reason).2 = 0 ∧
        (db.moveStatus now orderID userID old new reason).1 = db ∧
        ∀ o, db.orders.row orderID = some o → ¬(o.status = old ∧ ∀ u ∈ userID, o.userID = u)) ∨
      ((db.moveStatus now orderID userID old new reason).2 = 1 ∧
        (db.moveStatus now orderID userID old new reason).1.outbox = db.outbox ∧
        ∃ o o', o.status = old ∧ o'.status = new ∧ o'.reservationID = o.reservationID ∧
          Changed db.orders (db.moveStatus now orderID userID old new reason).1.orders
            orderID o o') := by
  rcases updateOrder_cases db now orderID
      (fun o => decide (o.status = old ∧ ∀ u ∈ userID, o.userID = u))
      (fun o => o.withStatus new (reason.getD o.failureReason))
      (fun o => ⟨rfl, rfl, rfl, rfl⟩) with ⟨h1, h2, h3⟩ | ⟨h1, h2, o, h3, h4⟩
  · exact Or.inl ⟨h1, h2, fun o ho => of_decide_eq_false (h3 o ho)⟩
  · exact Or.inr ⟨h1, h2, o, o.withStatus new (reason.getD o.failureReason),
      (of_decide_eq_true h3).1, rfl, rfl, h4⟩

/-- A status move that names a user moves an order of that user. -/
theorem moveStatus_user {userID : Int}
    (h : (db.moveStatus now orderID (some userID) old new reason).2 = 1) :
    ∃ o, db.orders.row orderID = some o ∧ o.userID = userID := by
  rcases updateOrder_cases db now orderID
      (fun o => decide (o.status = old ∧ ∀ u ∈ some userID, o.userID = u))
      (fun o => o.withStatus new (reason.getD o.failureReason))
      (fun o => ⟨rfl, rfl, rfl, rfl⟩) with ⟨h1, -, -⟩ | ⟨-, -, o, hcond, hch⟩
  · exact absurd (h1.symm.trans h) (by simp)
  · exact ⟨o, hch.before, (of_decide_eq_true hcond).2 userID rfl⟩

theorem updateOrder_outbox (db : DB) (now : Int) (orderID : Nat) (cond : Order → Bool)
    (set : Order → Order) (hset : ∀ o, SameOrder o (set o)) :
    (db.updateOrder now orderID cond set).1.outbox = db.outbox := by
  rcases updateOrder_cases db now orderID cond set hset with ⟨-, h2, -⟩ | ⟨-, h2, -⟩
  · rw [h2]
  · exact h2

theorem moveStatus_outbox (db : DB) (now : Int) (orderID : Nat) (userID : Option Int)
    (old new : OrderStatus) (reason : Option GoString) :
    (db.moveStatus now orderID userID old new reason).1.outbox = db.outbox := by
  rcases moveStatus_cases db now orderID userID old new reason with ⟨-, h2, -⟩ | ⟨-, h2, -⟩
  · rw [h2]
  · exact h2

/-- A status move from the status the order has. -/
theorem moveStatus_of_row (ho : db.orders.row orderID = some o) (hu : ∀ u ∈ userID, o.userID = u)
    (now : Int) (new : OrderStatus) (reason : Option GoString) :
    (db.moveStatus now orderID userID o.status new reason).2 = 1 ∧
      ∃ o', o'.status = new ∧ o'.userID = o.userID ∧
        (db.moveStatus now orderID userID o.status new reason).1.orders.row orderID = some o' := by
  rcases moveStatus_cases db now orderID userID o.status new reason with
    ⟨-, -, h3⟩ | ⟨h1, -, o₁, o', -, h4, -, h6⟩
  · exact absurd ⟨rfl, hu⟩ (h3 o ho)
  · obtain rfl := Option.some.inj (ho.symm.trans h6.before)
    exact ⟨h1, o', h4, h6.same.userID, h6.row⟩

@[simp] theorem closeOutbox_orders (db : DB) (orderID : Nat) :
    (db.closeOutbox orderID).orders = db.orders := rfl

/-- An update under a lease found the row and its owner. -/
theorem updateTask_ok [Collation] {id : Nat} {owner lost : GoString}
    {set : ReconciliationTask → ReconciliationTask} (h : db.updateTask id owner set lost = .ok db')
    :
    ∃ task, db.tasks.row id = some task ∧ owns owner task.leaseOwner = true ∧
      db' = { db with tasks := db.tasks.modify id set } := by
  unfold DB.updateTask at h
  split at h
  · exact absurd h (by simp)
  · rename_i task htask
    split at h
    · rename_i howns
      exact ⟨task, htask, howns, (Except.ok.inj h).symm⟩
    · exact absurd h (by simp)

theorem updateLeased_ok [Collation] {id : Nat} {owner lost : GoString}
    {set : TimeoutOutbox → TimeoutOutbox} (h : db.updateLeased id owner set lost = .ok db') :
    ∃ row, db.outbox.row id = some row ∧ owns owner row.leaseOwner = true ∧
      db' = { db with outbox := db.outbox.modify id set } := by
  unfold DB.updateLeased at h
  split at h
  · exact absurd h (by simp)
  · rename_i row hrow
    split at h
    · rename_i howns
      exact ⟨row, hrow, howns, (Except.ok.inj h).symm⟩
    · exact absurd h (by simp)

theorem map_ok {ε α β : Type} {x : Except ε α} {f : α → β} {b : β} (h : x.map f = .ok b) :
    ∃ a, x = .ok a ∧ f a = b := by
  cases x with
  | error e => exact absurd h (by simp [Except.map])
  | ok a => exact ⟨a, rfl, Except.ok.inj h⟩

theorem affected_ok {missing : Err} {u : DB × Nat} (h : affected missing u = .ok (r, db')) :
    r = .done ∧ u.2 = 1 ∧ db' = u.1 := by
  unfold affected at h
  split at h
  · rename_i hn
    obtain ⟨rfl, rfl⟩ := Prod.mk.inj (Except.ok.inj h)
    exact ⟨rfl, hn, rfl⟩
  · exact absurd h (by simp)

/-! ## 2. The orders -/

/-- What a committed statement did to the orders. -/
inductive OrderEffect (t : Table Order) (stmt : Stmt) : Res → Table Order → Prop
  | same (r : Res) (hr : ∀ id, r ≠ .inserted id) : OrderEffect t stmt r t
  | inserted (draft : OrderDraft) (h : draft.Accepted) (hstmt : stmt = .insertOrder draft) :
      OrderEffect t stmt (.inserted t.next) (t.insert (draft.row h))
  | changed (orderID : Nat) (old : Option OrderStatus) (o o' : Order) (t' : Table Order)
      (hstmt : stmt.change = some (orderID, old, o'.status)) (hold : ∀ st ∈ old, o.status = st)
      (hid : o'.reservationID = stmt.reservationID o) (h : Changed t t' orderID o o') :
      OrderEffect t stmt .done t'

/-- The row `x` under `i` became `x'` in the way the statement announces. -/
structure ChangedTo (stmt : Stmt) (i : Nat) (x x' : Order) (old : Option OrderStatus) : Prop where
  same : SameOrder x x'
  change : stmt.change = some (i, old, x'.status)
  was : ∀ st ∈ old, x.status = st
  reservationID : x'.reservationID = stmt.reservationID x

variable {stmt : Stmt}

/-- An order, seen from before the statement. -/
theorem OrderEffect.forward (h : OrderEffect t stmt r t') {i : Nat} {x : Order}
    (hx : t.row i = some x) :
    t'.row i = some x ∨ ∃ x' old, t'.row i = some x' ∧ ChangedTo stmt i x x' old := by
  cases h with
  | same r hr => exact Or.inl hx
  | inserted draft hacc hs => exact Or.inl (Table.insert_row_of_some hx)
  | changed orderID old o o' t' hch hold hid hchg =>
    by_cases hi : i = orderID
    · subst hi
      obtain rfl := Option.some.inj (hx.symm.trans hchg.before)
      exact Or.inr ⟨o', old, hchg.row, hchg.same, hch, hold, hid⟩
    · exact Or.inl (by rw [hchg.rows, if_neg hi, hx])

/-- ...and from after it. -/
theorem OrderEffect.backward (h : OrderEffect t stmt r t') {i : Nat} {x' : Order}
    (hx : t'.row i = some x') :
    t.row i = some x' ∨
      (∃ draft hacc, stmt = .insertOrder draft ∧ i = t.next ∧ x' = draft.row hacc) ∨
      ∃ x old, t.row i = some x ∧ ChangedTo stmt i x x' old := by
  cases h with
  | same r hr => exact Or.inl hx
  | inserted draft hacc hs =>
    rw [Table.insert_row] at hx
    split at hx
    · rename_i hi
      exact Or.inr (Or.inl ⟨draft, hacc, hs, hi, (Option.some.inj hx).symm⟩)
    · exact Or.inl hx
  | changed orderID old o o' t' hch hold hid hchg =>
    rw [hchg.rows] at hx
    split at hx
    · rename_i hi
      subst hi
      obtain rfl := Option.some.inj hx
      exact Or.inr (Or.inr ⟨o, old, hchg.before, hchg.same, hch, hold, hid⟩)
    · exact Or.inl hx

/-- The finalising transaction of `Create`: a `reserving` order becomes `pending` and gets its
timeout row, which it did not have. -/
theorem finalizeCreate_ok {reservationID : GoString} {timeoutDelay : Int}
    (h : db.finalizeCreate now orderID reservationID timeoutDelay = .ok (r, db')) :
    r = .done ∧ (∃ o o', o.status = .reserving ∧ o'.status = .pending ∧
        o'.reservationID = reservationID ∧ Changed db.orders db'.orders orderID o o') ∧
      (∃ row, row = ⟨orderID, now + timeoutDelay, .pending, 0, [], [], none, now⟩ ∧
        db'.outbox = db.outbox.insert row) ∧
      ∀ i row, db.outbox.row i = some row → row.orderID ≠ orderID := by
  unfold DB.finalizeCreate at h
  rcases updateOrder_cases db now orderID (fun o => decide (o.status = .reserving))
      (fun o => (o.withStatus .pending []).withReservation reservationID)
      (fun o => ⟨rfl, rfl, rfl, rfl⟩) with ⟨h1, -, -⟩ | ⟨h1, h2, o, h3, h4⟩
  · simp [h1] at h
  · simp only [h1, ne_eq, not_true_eq_false, if_false] at h
    split at h
    · exact absurd h (by simp)
    · rename_i hnone
      obtain ⟨rfl, rfl⟩ := Prod.mk.inj (Except.ok.inj h)
      refine ⟨rfl, ⟨o, (o.withStatus .pending []).withReservation reservationID,
        of_decide_eq_true h3, rfl, rfl, h4⟩,
        ⟨_, rfl, ?_⟩,
        fun i row hrow => ?_⟩
      · simp only [h2]
      · rw [h2] at hnone
        have := Table.search_eq_none hnone hrow
        simpa using this

/-- The trigger has nothing to do for an order that is in reconciliation already. -/
theorem trigger_of_reconciliation (tasks : Table ReconciliationTask) (now : Int) (orderID : Nat)
    (new : OrderStatus) : trigger tasks now orderID .reconciliationRequired new = tasks := by
  unfold trigger
  split
  · rename_i h
    exact absurd h.1.symm h.2
  · rfl

theorem moveStatus_tasks (db : DB) (now : Int) (orderID : Nat) (userID : Option Int)
    (new : OrderStatus) (reason : Option GoString) :
    (db.moveStatus now orderID userID .reconciliationRequired new reason).1.tasks = db.tasks := by
  unfold DB.moveStatus DB.updateOrder
  split
  · rfl
  · split
    · rename_i hcond
      rw [(of_decide_eq_true hcond).1]
      exact trigger_of_reconciliation db.tasks now orderID new
    · rfl

/-- The task after `completeTask`. -/
def ReconciliationTask.completedAt (task : ReconciliationTask) (now : Int) :
    ReconciliationTask :=
  { task with
    status := .completed, leaseOwner := [], leaseUntil := none, lastError := []
    nextAttemptAt := now }

/-- `completeTask`: an order in reconciliation gets the target status, or it has it already, and
the task is completed under the worker's lease. -/
theorem completeTask_ok [Collation] {taskID : Nat} {workerID : GoString} {target : OrderStatus}
    {closes : Bool} (h : db.completeTask now taskID workerID orderID target closes = .ok (r, db')) :
    r = .done ∧ ∃ (db₁ : DB) (task : ReconciliationTask),
      ((db₁ = db ∧ ∃ o, db.orders.row orderID = some o ∧ o.status = target) ∨
        (db₁.outbox = db.outbox ∧ ∃ o o', o.status = .reconciliationRequired ∧
          o'.status = target ∧ o'.reservationID = o.reservationID ∧
          Changed db.orders db₁.orders orderID o o')) ∧
      db'.orders = db₁.orders ∧
      db'.outbox = (if closes then db₁.closeOutbox orderID else db₁).outbox ∧
      db.tasks.row taskID = some task ∧ owns workerID task.leaseOwner = true ∧
      db'.tasks = db.tasks.modify taskID (·.completedAt now) := by
  unfold DB.completeTask at h
  simp only at h
  split at h
  · exact absurd h (by simp)
  · rename_i hcond
    obtain ⟨db₃, hup, hdb⟩ := map_ok h
    obtain ⟨rfl, rfl⟩ := Prod.mk.inj hdb
    obtain ⟨task, htask, howns, rfl⟩ := updateTask_ok hup
    have htasks : (if closes then
        (db.moveStatus now orderID none .reconciliationRequired target none).1.closeOutbox orderID
        else (db.moveStatus now orderID none .reconciliationRequired target none).1).tasks =
        db.tasks := by
      split <;> exact moveStatus_tasks ..
    rw [htasks] at htask
    refine ⟨rfl, (db.moveStatus now orderID none .reconciliationRequired target none).1, task,
      ?_, ?_, rfl, htask, howns, ?_⟩
    · rcases moveStatus_cases db now orderID none .reconciliationRequired target none with
        ⟨h1, h2, -⟩ | ⟨-, h2, o, o', h3, h4, h5, h6⟩
      · refine Or.inl ⟨h2, ?_⟩
        rw [h1, h2] at hcond
        cases hrow : db.orders.row orderID with
        | none => simp [hrow] at hcond
        | some o => exact ⟨o, rfl, by simpa [hrow] using hcond⟩
      · exact Or.inr ⟨h2, o, o', h3, h4, h5, h6⟩
    · split
      · rfl
      · rfl
    · rw [← htasks]
      rfl

theorem found_ok {x : Option (Nat × Order)} (h : found x db = .ok (r, db')) :
    db' = db ∧ ∃ id o, x = some (id, o) ∧ r = .order id o := by
  unfold found at h
  split at h
  · exact absurd h (by simp)
  · obtain ⟨rfl, rfl⟩ := Prod.mk.inj (Except.ok.inj h)
    exact ⟨rfl, _, _, rfl, rfl⟩

/-- A committed status move changed an order. -/
theorem OrderEffect.of_move (hn : (db.moveStatus now orderID userID old new reason).2 = 1)
    (hstmt : stmt.change = some (orderID, some old, new))
    (hid : ∀ o, stmt.reservationID o = o.reservationID) :
    OrderEffect db.orders stmt .done
      (db.moveStatus now orderID userID old new reason).1.orders := by
  rcases moveStatus_cases db now orderID userID old new reason with
    ⟨h1, -, -⟩ | ⟨-, -, o, o', h3, h4, h5, h6⟩
  · rw [h1] at hn
    exact absurd hn (by simp)
  · refine .changed orderID (some old) o o' _ (by rw [hstmt, h4]) (fun st hst => ?_)
      (by rw [h5, hid]) h6
    rw [h3]
    exact (Option.mem_some.mp hst)

/-- ...and one that does not look at `RowsAffected` changed one or none. -/
theorem OrderEffect.of_try (hstmt : stmt.change = some (orderID, some old, new))
    (hid : ∀ o, stmt.reservationID o = o.reservationID) :
    OrderEffect db.orders stmt .done
      (db.moveStatus now orderID userID old new reason).1.orders := by
  rcases moveStatus_cases db now orderID userID old new reason with ⟨-, h2, -⟩ | ⟨h1, -⟩
  · rw [h2]
    exact .same _ (by simp)
  · exact .of_move h1 hstmt hid

section

variable [Collation]

variable {db db' : DB} {r : Res} {now : Int} {locked : List Nat} {userID : Option Int}
  {orderID : Nat} {transient : OrderStatus} {o : Order}

theorem insertOrder_ok {draft : OrderDraft} (h : db.insertOrder draft = .ok (r, db')) :
    (∃ hacc : draft.Accepted, db' = { db with orders := db.orders.insert (draft.row hacc) }) ∧
      r = .inserted db.orders.next ∧
      ∀ i o, db.orders.row i = some o → o.userID = draft.userID →
        Collation.weight o.idempotencyKey ≠ Collation.weight draft.idempotencyKey := by
  unfold DB.insertOrder at h
  split at h
  · exact absurd h (by simp)
  · rename_i hnone
    split at h
    · rename_i hacc
      obtain ⟨rfl, rfl⟩ := Prod.mk.inj (Except.ok.inj h)
      refine ⟨⟨hacc, rfl⟩, rfl, fun i o ho hu hk => ?_⟩
      have := Table.search_eq_none hnone ho
      simp [hu, hk] at this
    · exact absurd h (by simp)

/-- A claim that commits takes a pending order. -/
theorem claim_ok (h : (Stmt.claim userID orderID transient).exec now locked db = .ok (r, db')) :
    ∃ o o', o.status = .pending ∧ o'.status = transient ∧
      Changed db.orders db'.orders orderID o o' := by
  obtain ⟨-, hn, rfl⟩ := affected_ok h
  rcases moveStatus_cases db now orderID userID .pending transient none with
    ⟨h1, -, -⟩ | ⟨-, -, o, o', h3, h4, -, h6⟩
  · rw [h1] at hn
    exact absurd hn (by simp)
  · exact ⟨o, o', h3, h4, h6⟩

/-- ...and one that fails found the order not pending, or not the user's. -/
theorem claim_error {err : Err}
    (h : (Stmt.claim userID orderID transient).exec now locked db = .error err)
    (ho : db.orders.row orderID = some o) :
    ¬(o.status = .pending ∧ ∀ u ∈ userID, o.userID = u) := by
  rcases moveStatus_cases db now orderID userID .pending transient none with
    ⟨-, -, h3⟩ | ⟨h1, -⟩
  · exact h3 o ho
  · exact absurd h (by simp [Stmt.exec, affected, h1])

/-- A pending order can be claimed. -/
theorem exec_claim (ho : db.orders.row orderID = some o) (hst : o.status = .pending)
    (hu : ∀ u ∈ userID, o.userID = u) (now : Int) (locked : List Nat) (transient : OrderStatus) :
    ∃ db' o', (Stmt.claim userID orderID transient).exec now locked db = .ok (.done, db') ∧
      db'.orders.row orderID = some o' ∧ o'.status = transient ∧ o'.userID = o.userID := by
  obtain ⟨hn, o', hst', hu', hrow⟩ := moveStatus_of_row ho hu now transient none
  rw [hst] at hn hrow
  exact ⟨_, o', by simp [Stmt.exec, affected, hn], hrow, hst', hu'⟩

/-- An order that was claimed can be finalised. -/
theorem exec_finalizeSettle (ho : db.orders.row orderID = some o) (now : Int) (locked : List Nat)
    (final : OrderStatus) :
    ∃ db' o', (Stmt.finalizeSettle orderID o.status final).exec now locked db =
        .ok (.done, db') ∧
      db'.orders.row orderID = some o' ∧ o'.status = final ∧ o'.userID = o.userID := by
  obtain ⟨hn, o', hst', hu', hrow⟩ :=
    moveStatus_of_row ho (fun u (hu : u ∈ none) => absurd hu (by simp)) now final (some [])
  refine ⟨(db.moveStatus now orderID none o.status final (some [])).1.closeOutbox orderID, o', ?_,
    hrow, hst', hu'⟩
  simp [Stmt.exec, affected, hn, Except.map]

/-- The finalising transaction of `cancel` and `Pay`. -/
theorem finalizeSettle_ok {final : OrderStatus}
    (h : (Stmt.finalizeSettle orderID transient final).exec now locked db = .ok (r, db')) :
    ∃ o o', o.status = transient ∧ o'.status = final ∧
      Changed db.orders db'.orders orderID o o' := by
  obtain ⟨⟨r', db₁⟩, haff, hdb⟩ := map_ok h
  obtain ⟨-, rfl⟩ := Prod.mk.inj hdb
  obtain ⟨-, hn, rfl⟩ := affected_ok haff
  rcases moveStatus_cases db now orderID none transient final (some []) with
    ⟨h1, -, -⟩ | ⟨-, -, o, o', h3, h4, -, h6⟩
  · rw [h1] at hn
    exact absurd hn (by simp)
  · exact ⟨o, o', h3, h4, h6⟩

/-- **What a statement does to the orders.** -/
theorem exec_orders {stmt : Stmt} (h : stmt.exec now locked db = .ok (r, db')) :
    OrderEffect db.orders stmt r db'.orders := by
  cases stmt with
  | findByIdempotency userID key | get userID orderID =>
    obtain ⟨rfl, id, o, -, rfl⟩ := found_ok h
    exact .same _ (by simp)
  | insertOrder draft =>
    obtain ⟨⟨hacc, rfl⟩, rfl, -⟩ := insertOrder_ok h
    exact .inserted draft hacc rfl
  | writeStatus orderID status reason =>
    obtain ⟨rfl, rfl⟩ := Prod.mk.inj (Except.ok.inj h)
    rcases updateOrder_cases db now orderID (fun _ => true)
        (fun o => o.withStatus status reason)
        (fun o => ⟨rfl, rfl, rfl, rfl⟩) with ⟨-, h2, -⟩ | ⟨-, -, o, -, h4⟩
    · rw [h2]
      exact .same _ (by simp)
    · exact .changed orderID none o (o.withStatus status reason) _ rfl (by simp) rfl h4
  | finalizeCreate orderID reservationID timeoutDelay =>
    obtain ⟨rfl, ⟨o, o', h1, h2, h3, h4⟩, -, -⟩ := finalizeCreate_ok h
    exact .changed orderID (some .reserving) o o' _ (by rw [h2]; rfl)
      (fun st hst => by rw [h1]; exact Option.mem_some.mp hst) h3 h4
  | claim userID orderID transient | finish userID orderID =>
    obtain ⟨rfl, hn, rfl⟩ := affected_ok h
    exact .of_move hn rfl fun _ => rfl
  | revert orderID transient reason =>
    obtain ⟨rfl, rfl⟩ := Prod.mk.inj (Except.ok.inj h)
    exact .of_try rfl fun _ => rfl
  | finalizeSettle orderID transient final =>
    obtain ⟨⟨r', db₁⟩, haff, hdb⟩ := map_ok h
    obtain ⟨rfl, rfl⟩ := Prod.mk.inj hdb
    obtain ⟨rfl, hn, rfl⟩ := affected_ok haff
    exact .of_move hn rfl fun _ => rfl
  | claimTasks workerID leaseDuration batchSize | claimPending workerID leaseDuration batchSize
  | releaseClaimedLeases ids workerID | recordFailure orderID lastError | completeOutbox orderID =>
    obtain ⟨rfl, rfl⟩ := Prod.mk.inj (Except.ok.inj h)
    exact .same _ (by simp)
  | completeTask taskID workerID orderID target closes =>
    obtain ⟨rfl, db₁, task, hch, ho, -⟩ := completeTask_ok h
    rw [ho]
    rcases hch with ⟨rfl, -⟩ | ⟨-, o, o', h1, h2, h3, h4⟩
    · exact .same _ (by simp)
    · exact .changed orderID (some .reconciliationRequired) o o' _ (by rw [h2]; rfl)
        (fun st hst => by rw [h1]; exact Option.mem_some.mp hst) h3 h4
  | markTask taskID workerID status lastError delay lost =>
    obtain ⟨db₁, hup, hdb⟩ := map_ok h
    obtain ⟨rfl, rfl⟩ := Prod.mk.inj hdb
    obtain ⟨task, -, -, rfl⟩ := updateTask_ok hup
    exact .same _ (by simp)
  | markOutboxPublished eventID workerID
  | markOutboxFailure eventID workerID lastError retryDelay =>
    obtain ⟨db₁, hup, hdb⟩ := map_ok h
    obtain ⟨rfl, rfl⟩ := Prod.mk.inj hdb
    obtain ⟨row, -, -, rfl⟩ := updateLeased_ok hup
    exact .same _ (by simp)

/-! ## 3. Lookups -/

theorem exec_findByIdempotency {userID : Int} {key : GoString}
    (h : (Stmt.findByIdempotency userID key).exec now locked db = .ok (r, db')) :
    ∃ id o, r = .order id o ∧ db.orders.row id = some o ∧ o.userID = userID ∧
      Collation.weight o.idempotencyKey = Collation.weight key := by
  obtain ⟨-, id, o, hsearch, rfl⟩ := found_ok h
  obtain ⟨hrow, hp⟩ := Table.search_eq_some hsearch
  exact ⟨id, o, rfl, hrow, of_decide_eq_true hp⟩

theorem exec_get (h : (Stmt.get userID orderID).exec now locked db = .ok (r, db')) :
    ∃ o, r = .order orderID o ∧ db.orders.row orderID = some o ∧ ∀ u ∈ userID, o.userID = u := by
  obtain ⟨-, id, o, hfind, rfl⟩ := found_ok h
  obtain ⟨o', ho', heq⟩ := Option.map_eq_some_iff.mp hfind
  obtain ⟨rfl, rfl⟩ := Prod.mk.inj heq
  obtain ⟨hrow, hp⟩ := Option.filter_eq_some_iff.mp ho'
  exact ⟨o', rfl, hrow, of_decide_eq_true hp⟩

/-- An order can be loaded by its user. -/
theorem exec_get_of_row (ho : db.orders.row orderID = some o) (hu : ∀ u ∈ userID, o.userID = u)
    (now : Int) (locked : List Nat) :
    (Stmt.get userID orderID).exec now locked db = .ok (.order orderID o, db) := by
  have hfilter : (some o).filter (fun o => decide (∀ u ∈ userID, o.userID = u)) = some o :=
    Option.filter_eq_some_iff.mpr ⟨rfl, decide_eq_true hu⟩
  simp only [Stmt.exec, ho, hfilter, Option.map_some, found]

/-- A load that fails found no order of that id and user. -/
theorem get_error {err : Err} (h : (Stmt.get userID orderID).exec now locked db = .error err)
    (ho : db.orders.row orderID = some o) : ¬∀ u ∈ userID, o.userID = u := by
  intro hu
  rw [exec_get_of_row ho hu] at h
  exact absurd h (by simp)

/-! ## 4. What the caller sees -/

/-- **A statement, as its caller sees it.** -/
theorem runSql_cases (o : SqlOutcome) (now : Int) (locked : List Nat) (stmt : Stmt) (db : DB) :
    (∃ e, (runSql o now locked stmt db).1 = .error e ∧ (runSql o now locked stmt db).2 = db ∧
        (stmt.exec now locked db = .error e ∨ ∃ m, o = .failed m ∧ e = .storage m)) ∨
      ∃ r, stmt.exec now locked db = .ok (r, (runSql o now locked stmt db).2) ∧
        ((o = .ok ∧ (runSql o now locked stmt db).1 = .ok r) ∨
          ∃ m, o = .lostAck m ∧ (runSql o now locked stmt db).1 = .error (.storage m)) := by
  cases hx : stmt.exec now locked db with
  | error e =>
    left
    cases o with
    | ok => exact ⟨e, by simp [runSql, hx], by simp [runSql, hx], Or.inl rfl⟩
    | failed m => exact ⟨_, rfl, rfl, Or.inr ⟨m, rfl, rfl⟩⟩
    | lostAck m => exact ⟨e, by simp [runSql, hx], by simp [runSql, hx], Or.inl rfl⟩
  | ok v =>
    obtain ⟨r, db'⟩ := v
    cases o with
    | ok => exact Or.inr ⟨r, by simp [runSql, hx], Or.inl ⟨rfl, by simp [runSql, hx]⟩⟩
    | failed m => exact Or.inl ⟨_, rfl, rfl, Or.inr ⟨m, rfl, rfl⟩⟩
    | lostAck m => exact Or.inr ⟨r, by simp [runSql, hx], Or.inr ⟨m, rfl, by simp [runSql, hx]⟩⟩

end

end OrderSystem.OrderSvc
