/-
# Orders that wait for reconciliation

An order comes to `reconciliation_required` from one of the three transient statuses, when the
call that moved it there gives up, and the trigger of the table makes a task for it.  From there
it leaves through `completeTask` only.  So tasks and orders in reconciliation go together, and
this file says how exactly.

* `enters_of_writer`, `leaves_of_writer` -- the way into reconciliation and the way out of it.
* `repair_tasks` -- in every run whose finalising transactions are acknowledged: an order is
  `reconciliation_required` iff it has a task that is not completed; there is only that one; its
  action is the one for the status the order left; and completing it moves the order to the
  target of the action, in the same transaction.

An order can come into reconciliation only once, because a final status is never left
(`final_step`).  That is why the trigger, which does not touch a task that is there already,
never finds one.
-/
import OrderSystem.Saga.Control
import OrderSystem.Saga.TaskLeases

namespace OrderSystem.Saga

open OrderSystem.Kit
open OrderSystem.OrderSvc

/-! ## 1. Into reconciliation and out of it -/

/-- A status an order has while a call is at work on it. -/
def Transient (st : OrderStatus) : Prop := st = .reserving ∨ st = .cancelling ∨ st = .paying

theorem transient_of_kind (k : SettleKind) : Transient k.transient := by
  cases k with
  | cancel => exact Or.inr (Or.inl rfl)
  | pay => exact Or.inr (Or.inr rfl)

variable {st : OrderStatus}

theorem Transient.ne_recon (h : Transient st) :
    st ≠ .reconciliationRequired := by
  rcases h with rfl | rfl | rfl <;> decide

theorem Transient.not_final (h : Transient st) : ¬Final st := by
  rcases h with rfl | rfl | rfl <;> simp [Final]

/-- The task for a transient status is one the workers run. -/
theorem Transient.pending (h : Transient st) : (taskFor st).2 = .pending := by
  rcases h with rfl | rfl | rfl <;> rfl

theorem final_of_plan {action : Action} {target : OrderStatus} {closes : Bool}
    {t : InventorySvc.Settlement} (h : action.plan = some (target, closes, t)) :
    Final target := by
  cases action with
  | unsupportedFrom st => exact absurd h (by simp [Action.plan])
  | releaseInventoryAndFail =>
    simp only [Action.plan, Option.some.injEq, Prod.mk.injEq] at h
    exact h.1 ▸ Or.inr (Or.inr (Or.inr rfl))
  | finalizeCancel =>
    simp only [Action.plan, Option.some.injEq, Prod.mk.injEq] at h
    exact h.1 ▸ Or.inr (Or.inr (Or.inl rfl))
  | finalizePayment =>
    simp only [Action.plan, Option.some.injEq, Prod.mk.injEq] at h
    exact h.1 ▸ Or.inl rfl

theorem Final.ne_recon (h : Final st) : st ≠ .reconciliationRequired := by
  rcases h with rfl | rfl | rfl | rfl <;> decide

/-- The status under which a process controls an order is transient. -/
theorem transient_of_control {q : Proc} {k : Nat} {v : Option OrderStatus}
    (h : control q = some (k, v)) : ∃ st, v = some st ∧ Transient st := by
  unfold control at h
  split at h
  case h_10 => exact absurd h (by simp)
  case h_6 => exact ⟨_, (Prod.mk.inj (Option.some.inj h)).2.symm, transient_of_kind _⟩
  case h_7 => exact ⟨_, (Prod.mk.inj (Option.some.inj h)).2.symm, transient_of_kind _⟩
  case h_8 => exact ⟨_, (Prod.mk.inj (Option.some.inj h)).2.symm, transient_of_kind _⟩
  case h_9 => exact ⟨_, (Prod.mk.inj (Option.some.inj h)).2.symm, transient_of_kind _⟩
  all_goals exact ⟨_, (Prod.mk.inj (Option.some.inj h)).2.symm, Or.inl rfl⟩

/-- The two places that write `reconciliation_required`, with the status the order has there. -/
inductive Enters : Proc → Nat → OrderStatus → Prop
  | create (c : CreateCall) (orderID : Nat) (reason : GoString) (result : Err) :
      Enters (.create c (.compensate orderID .reconciliationRequired reason result)) orderID
        .reserving
  | settle (c : SettleCall) (cause : Err) :
      Enters (.settle c (.compensate cause)) c.orderID c.kind.transient

theorem Enters.transient {q : Proc} {i : Nat} (h : Enters q i st) :
    Transient st := by
  cases h with
  | create c reason result => exact Or.inl rfl
  | settle c cause => exact transient_of_kind c.kind

section

variable [Collation]

variable {s s' : State} {p i k : Nat} {q : Proc} {x : Order} {es : List Event}
  {t t' : ReconciliationTask} {e : Event}

omit [Collation] in
/-- An order that a process controls has the status it left there. -/
theorem status_of_held (hE : Exclusive control statusOf s) (hq : s.At p q) {st : OrderStatus}
    (hc : control q = some (i, some st)) (hx : s.store.db.orders.row i = some x) :
    x.status = st := by
  have hheld := hE.held p q i _ hq hc
  rw [statusOf, hx, Option.map_some, Option.some.injEq] at hheld
  exact hheld

omit [Collation] in
/-- An order that a process controls has a transient status. -/
theorem transient_of_held {s : State} (hE : Exclusive control statusOf s) {p : Nat} {q : Proc}
    (hq : s.At p q) {i : Nat} {v : Option OrderStatus} (hc : control q = some (i, v)) {x : Order}
    (hx : s.store.db.orders.row i = some x) : Transient x.status := by
  obtain ⟨st, rfl, htr⟩ := transient_of_control hc
  rw [status_of_held hE hq hc hx]
  exact htr

/-- **Into reconciliation** an order comes by a write of a call that controls it. -/
theorem enters_of_writer (hk : Known s) (hE : Exclusive control statusOf s) (hq : s.At p q)
    {stmt : Stmt} (hw : Writer q stmt) {old : Option OrderStatus}
    (hch : stmt.change = some (i, old, .reconciliationRequired))
    (hx : s.store.db.orders.row i = some x) :
    Enters q i x.status ∧ ∃ reason, stmt = .writeStatus i .reconciliationRequired reason := by
  have hknow := hk.procs p q hq
  cases hw with
  | createFail c orderID cause => exact absurd hch (by simp [Stmt.change])
  | createFinalize c orderID id => exact absurd hch (by simp [Stmt.change])
  | createCompensate c orderID status reason result =>
    simp only [Stmt.change, Option.some.injEq, Prod.mk.injEq] at hch
    obtain ⟨rfl, -, rfl⟩ := hch
    rw [status_of_held hE hq rfl hx]
    exact ⟨.create c orderID reason result, _, rfl⟩
  | settleClaim c o =>
    simp only [Stmt.change, Option.some.injEq, Prod.mk.injEq] at hch
    exact absurd hch.2.2 (transient_of_kind c.kind).ne_recon
  | settleRevert c cause => exact absurd hch (by simp [Stmt.change])
  | settleFinalize c =>
    simp only [Stmt.change, Option.some.injEq, Prod.mk.injEq] at hch
    exact absurd hch.2.2 (by cases c.kind <;> decide)
  | settleCompensate c cause =>
    simp only [Stmt.change, Option.some.injEq, Prod.mk.injEq] at hch
    obtain ⟨rfl, -⟩ := hch
    rw [status_of_held hE hq rfl hx]
    exact ⟨.settle c cause, _, rfl⟩
  | finish c => exact absurd hch (by simp [Stmt.change])
  | complete cfg task target closes rest =>
    simp only [Stmt.change, Option.some.injEq, Prod.mk.injEq] at hch
    obtain ⟨t, hplan, -⟩ := hknow
    exact absurd hch.2.2 (final_of_plan hplan).ne_recon

omit [Collation] in
/-- **Out of reconciliation** an order gets by the completion of a task. -/
theorem leaves_of_writer (hE : Exclusive control statusOf s) (hq : s.At p q) {stmt : Stmt}
    (hw : Writer q stmt) {x' : Order} {old : Option OrderStatus}
    (hx : s.store.db.orders.row i = some x) (hch : ChangedTo stmt i x x' old)
    (hst : x.status = .reconciliationRequired) :
    ∃ cfg task target closes rest, q = .recon cfg (.complete task target closes rest) ∧
      stmt = .completeTask task.1 cfg.workerID task.2.orderID target closes ∧
      task.2.orderID = i := by
  have hchange := hch.change
  have hfree : ∀ v, control q ≠ some (i, v) := fun v hc =>
    (transient_of_held hE hq hc hx).ne_recon hst
  cases hw with
  | complete cfg task target closes rest =>
    simp only [Stmt.change, Option.some.injEq, Prod.mk.injEq] at hchange
    exact ⟨cfg, task, target, closes, rest, rfl, rfl, hchange.1⟩
  | settleClaim c o =>
    simp only [Stmt.change, Option.some.injEq, Prod.mk.injEq] at hchange
    exact absurd ((hch.was .pending hchange.2.1.symm).symm.trans hst) (by simp)
  | finish c =>
    simp only [Stmt.change, Option.some.injEq, Prod.mk.injEq] at hchange
    exact absurd ((hch.was .paid hchange.2.1.symm).symm.trans hst) (by simp)
  | createFail c orderID cause | createFinalize c orderID id
  | createCompensate c orderID status reason result | settleRevert c cause | settleFinalize c
  | settleCompensate c cause =>
    simp only [Stmt.change, Option.some.injEq, Prod.mk.injEq] at hchange
    exact absurd rfl (hchange.1 ▸ hfree _)

/-! ## 2. The trigger -/

omit [Collation] in
/-- After the trigger has run for an order that comes into reconciliation there is a task for
the order. -/
theorem trigger_has (tasks : Table ReconciliationTask) (now : Int) (orderID : Nat)
    {old : OrderStatus} (hold : old ≠ .reconciliationRequired) :
    ∃ k t, (trigger tasks now orderID old .reconciliationRequired).row k = some t ∧
      t.orderID = orderID := by
  unfold trigger
  rw [if_pos ⟨rfl, hold⟩]
  split
  · rename_i found hfound
    obtain ⟨hrow, hcond⟩ := Table.search_eq_some hfound
    exact ⟨found.1, found.2, hrow, (of_decide_eq_true hcond).1⟩
  · exact ⟨tasks.next, _, Table.insert_row_next .., rfl⟩

/-- What a write of `reconciliation_required` does. -/
theorem writeStatus_recon {db db' : DB} {now : Int} {locked : List Nat} {reason : GoString}
    {r : Res}
    (h : (Stmt.writeStatus i .reconciliationRequired reason).exec now locked db = .ok (r, db'))
    (hx : db.orders.row i = some x) (hst : x.status ≠ .reconciliationRequired) :
    (∃ x', db'.orders.row i = some x' ∧ x'.status = .reconciliationRequired) ∧
      ∃ k t, db'.tasks.row k = some t ∧ t.orderID = i := by
  obtain ⟨-, rfl⟩ := Prod.mk.inj (Except.ok.inj h)
  simp only [DB.updateOrder, hx, if_true]
  refine ⟨⟨x.withStatus .reconciliationRequired reason, ?_, rfl⟩, trigger_has db.tasks now i hst⟩
  rw [Table.modify_row, if_pos rfl, hx]
  rfl

omit [Collation] in
/-- The workers mark a task `failed` or `unresolved`. -/
theorem mark_ne_completed {id : GoString} {status : TaskStatus} {lastError : GoString} {delay : Int}
    {lost : GoString} (h : q.stmt = some (.markTask k id status lastError delay lost)) :
    status ≠ .completed := by
  obtain ⟨cfg, pc, rfl, -⟩ := worker_of_reconciler h rfl
  cases pc with
  | markFailed task cause rest | markUnresolved task reason rest =>
    simp only [Proc.stmt, ReconPc.stmt, Option.some.injEq, Stmt.markTask.injEq] at h
    obtain ⟨-, -, rfl, -⟩ := h
    decide
  | _ => exact absurd h (by simp [Proc.stmt, ReconPc.stmt])

omit [Collation] in
theorem complete_of_stmt {orderID : Nat} {id : GoString} {target : OrderStatus} {closes : Bool}
    (h : q.stmt = some (.completeTask k id orderID target closes)) :
    ∃ cfg t rest, q = .recon cfg (.complete (k, t) target closes rest) ∧ cfg.workerID = id ∧
      t.orderID = orderID := by
  obtain ⟨cfg, pc, rfl, rfl⟩ := worker_of_reconciler h rfl
  cases pc with
  | complete task target' closes' rest =>
    simp only [Proc.stmt, ReconPc.stmt, Option.some.injEq, Stmt.completeTask.injEq] at h
    obtain ⟨rfl, -, rfl, rfl, rfl⟩ := h
    exact ⟨cfg, task.2, rest, rfl, rfl, rfl⟩
  | _ => exact absurd h (by simp [Proc.stmt, ReconPc.stmt])

/-! ## 3. Tasks and orders -/

/-- The order of the task left a transient status for `reconciliation_required` at some point of
the run, and the task has the action for that status. -/
def LeftFrom (es : List Event) (t : ReconciliationTask) : Prop :=
  ∃ es₁ e es₂ u u' o o', es = es₁ ++ e :: es₂ ∧ run step start es₁ = some u ∧
    step u e = some u' ∧ u.store.db.orders.row t.orderID = some o ∧ Transient o.status ∧
    u'.store.db.orders.row t.orderID = some o' ∧ o'.status = .reconciliationRequired ∧
    t.action = (taskFor o.status).1

theorem LeftFrom.snoc (h : LeftFrom es t) (hid : t'.orderID = t.orderID)
    (hact : t'.action = t.action) (e : Event) :
    LeftFrom (es ++ [e]) t' := by
  obtain ⟨es₁, e₁, es₂, u, u', o, o', rfl, hrun, hs, ho, htr, ho', hst, ha⟩ := h
  exact ⟨es₁, e₁, es₂ ++ [e], u, u', o, o', by simp, hrun, hs, hid ▸ ho, htr, hid ▸ ho', hst,
    hact.trans ha⟩

/-- What holds of tasks and orders after the events `es`. -/
structure Repairs (es : List Event) (s : State) : Prop where
  leased : Leased s
  /-- an order in reconciliation has a task -/
  opened : ∀ i o, s.store.db.orders.row i = some o → o.status = .reconciliationRequired →
    ∃ k t, s.store.db.tasks.row k = some t ∧ t.orderID = i
  /-- a task says where its order is -/
  order : ∀ k t, s.store.db.tasks.row k = some t →
    ∃ o, s.store.db.orders.row t.orderID = some o ∧
      (t.status = .completed → Final o.status) ∧
      (t.status ≠ .completed → o.status = .reconciliationRequired)
  one : ∀ k k' t t', s.store.db.tasks.row k = some t → s.store.db.tasks.row k' = some t' →
    t.orderID = t'.orderID → k = k'
  left : ∀ k t, s.store.db.tasks.row k = some t → LeftFrom es t
  /-- a task in hand is one of the table -/
  hand : ∀ p cfg pc k t, s.At p (.recon cfg pc) → (k, t) ∈ reconTasks pc →
    ∃ t', s.store.db.tasks.row k = some t' ∧ t'.orderID = t.orderID ∧ t'.action = t.action

/-- An order with a transient status has no task. -/
theorem Repairs.no_task (h : Repairs es s) (ht : s.store.db.tasks.row k = some t)
    (hx : s.store.db.orders.row t.orderID = some x) (hst : Transient x.status) : False := by
  obtain ⟨o, ho, hfin, hrec⟩ := h.order k t ht
  obtain rfl := Option.some.inj (hx.symm.trans ho)
  by_cases hc : t.status = .completed
  · exact hst.not_final (hfin hc)
  · exact hst.ne_recon (hrec hc)

/-- **Completing a task** moves its order from reconciliation to the target of the action. -/
theorem Repairs.completes (h : Repairs es s) (hk : Known s) {cfg : ReconciliationWorkerConfig}
    {t₀ : ReconciliationTask} {target : OrderStatus} {closes : Bool} {rest : List ClaimedTask}
    (hq : s.At p (.recon cfg (.complete (k, t₀) target closes rest))) {now : Int}
    {locked : List Nat} {r : Res}
    (hexec : (Stmt.completeTask k cfg.workerID t₀.orderID target closes).exec now locked
      s.store.db = .ok (r, s'.store.db)) :
    ∃ t o o' op, s.store.db.tasks.row k = some t ∧ t.orderID = t₀.orderID ∧
      t.action.plan = some (target, closes, op) ∧ t.status ≠ .completed ∧
      s'.store.db.tasks.row k = some (t.completedAt now) ∧
      s.store.db.orders.row t.orderID = some o ∧ o.status = .reconciliationRequired ∧
      s'.store.db.orders.row t.orderID = some o' ∧ o'.status = target := by
  obtain ⟨-, db₁, t, hmove, horders, -, ht, howns, htasks⟩ := completeTask_ok hexec
  obtain ⟨t', ht', hid, hact⟩ := h.hand p cfg _ k t₀ hq List.mem_cons_self
  obtain rfl := Option.some.inj (ht.symm.trans ht')
  obtain ⟨op, hplan, -⟩ := hk.procs p _ hq
  -- the worker owns the task, so the task is not completed
  have hopen : t.status ≠ .completed := by
    intro hc
    rw [h.leased.unowned ht (Or.inl hc), not_owns_nil (h.leased.staffed p _ _ hq rfl)] at howns
    exact absurd howns (by simp)
  obtain ⟨o, ho, -, hrec⟩ := h.order k t ht
  have hst := hrec hopen
  refine ⟨t, o, ?_⟩
  have htask' : s'.store.db.tasks.row k = some (t.completedAt now) := by
    rw [htasks, Table.modify_row, if_pos rfl, ht]
    rfl
  rcases hmove with ⟨-, o₁, ho₁, hst₁⟩ | ⟨-, o₁, o₂, -, hst₂, -, hchg⟩
  · rw [← hid] at ho₁
    obtain rfl := Option.some.inj (ho.symm.trans ho₁)
    exact absurd (hst₁.symm.trans hst) (final_of_plan hplan).ne_recon
  · refine ⟨o₂, op, ht, hid, hact ▸ hplan, hopen, htask', ho, hst, ?_, hst₂⟩
    rw [horders, hid]
    exact hchg.row

/-- A task that is completed in a step is completed by `completeTask`. -/
theorem Repairs.completed_by (h : Repairs es s) (hk : Known s) (hs : step s e = some s')
    (ht : s.store.db.tasks.row k = some t) (hst : t.status ≠ .completed)
    (ht' : s'.store.db.tasks.row k = some t') (hst' : t'.status = .completed) :
    ∃ o o' target closes op, t.action.plan = some (target, closes, op) ∧
      s.store.db.orders.row t.orderID = some o ∧ o.status = .reconciliationRequired ∧
      s'.store.db.orders.row t.orderID = some o' ∧ o'.status = target := by
  obtain ⟨t₁, ht₁, hch⟩ := task_step hs ht
  obtain rfl := Option.some.inj (ht₁.symm.trans ht')
  cases hch with
  | kept => exact absurd hst' hst
  | leased p cfg hq htakes hdue hopen => exact absurd hst' hst
  | marked p oc locked cfg pc status lastError delay lost he hq hstmt howns =>
    exact absurd hst' (mark_ne_completed hstmt)
  | completed p oc locked cfg pc orderID target closes r he hq hstmt hexec howns =>
    obtain ⟨cfg', t₀, rest, heq, -, rfl⟩ := complete_of_stmt hstmt
    obtain ⟨rfl, rfl⟩ := Proc.recon.inj heq
    obtain ⟨t₁, x, x', op, ht₁, -, hplan, -, -, hx, hrec, hx', htarget⟩ :=
      h.completes hk hq hexec
    obtain rfl := Option.some.inj (ht.symm.trans ht₁)
    exact ⟨x, x', target, closes, op, hplan, hx, hrec, hx', htarget⟩

/-- Where the order of a task is after a step. -/
theorem Repairs.order_moved (h : Repairs es s) (hk : Known s) (hE : Exclusive control statusOf s)
    (hs : step s e = some s') (ht : s.store.db.tasks.row k = some t)
    (ht' : s'.store.db.tasks.row k = some t') (hid : t'.orderID = t.orderID) :
    ∃ o, s'.store.db.orders.row t'.orderID = some o ∧ (t'.status = .completed → Final o.status) ∧
      (t'.status ≠ .completed → o.status = .reconciliationRequired) := by
  rw [hid]
  obtain ⟨o, ho, hfin, hrec⟩ := h.order k t ht
  by_cases hst : t.status = .completed
  · obtain ⟨t₁, ht₁, hst₁⟩ := closed_task_step h.leased hs ht (Or.inl hst)
    obtain rfl := Option.some.inj (ht₁.symm.trans ht')
    obtain ⟨o', ho', habs⟩ := final_step hE hs ho (hfin hst)
    exact ⟨o', ho', fun _ => habs.final (hfin hst), fun hne => absurd (hst₁.trans hst) hne⟩
  · have hrec := hrec hst
    by_cases hst' : t'.status = .completed
    · obtain ⟨-, o', target, closes, op, hplan, -, -, ho', htarget⟩ :=
        h.completed_by hk hs ht hst ht' hst'
      exact ⟨o', ho', fun _ => htarget ▸ final_of_plan hplan, fun hne => absurd hst' hne⟩
    · -- the order is still there: only the completion of this very task moves it
      obtain ⟨o', ho', hstep⟩ := order_step hs ho
      refine ⟨o', ho', fun hc => absurd hc hst', fun _ => ?_⟩
      cases hstep with
      | kept => exact hrec
      | written p oc locked q stmt r _ old he hq hstmt hw hexec hch =>
        obtain ⟨cfg, ⟨k₁, t₀⟩, target, closes, rest, rfl, rfl, hid₀⟩ :=
          leaves_of_writer hE hq hw ho hch hrec
        obtain ⟨t₁, -, -, -, ht₁, hid₁, -, -, hdone, -⟩ := h.completes hk hq hexec
        obtain rfl := h.one k₁ k t₁ t ht₁ ht (hid₁.trans hid₀)
        obtain rfl := Option.some.inj (hdone.symm.trans ht')
        exact absurd rfl hst'

/-- A task after a step: it was there before, or the step brought its order into
reconciliation. -/
theorem task_origin (hk : Known s) (hE : Exclusive control statusOf s) (hs : step s e = some s')
    (ht' : s'.store.db.tasks.row k = some t') :
    (∃ t, s.store.db.tasks.row k = some t ∧ t'.orderID = t.orderID ∧ t'.action = t.action) ∨
      (s.store.db.tasks.row k = none ∧ k = s.store.db.tasks.next ∧ t'.status = .pending ∧
        ∃ p q o o', s.At p q ∧ s.store.db.orders.row t'.orderID = some o ∧
          Enters q t'.orderID o.status ∧ s'.store.db.orders.row t'.orderID = some o' ∧
          o'.status = .reconciliationRequired ∧ t'.action = (taskFor o.status).1) := by
  cases db_step hs with
  | none hdb => exact Or.inl ⟨t', hdb ▸ ht', rfl, rfl⟩
  | sql p _ locked q stmt r he hq hstmt hexec =>
    cases ht : s.store.db.tasks.row k with
    | some t =>
      obtain ⟨t₁, ht₁, hch⟩ := (exec_repairs hexec).keeps k t ht
      obtain rfl := Option.some.inj (ht₁.symm.trans ht')
      exact Or.inl ⟨t, rfl, hch.same_job.1, hch.same_job.2⟩
    | none =>
      obtain ⟨x, old, hx, hne, hch, hnew, hnext⟩ := (exec_repairs hexec).adds k t' ht' ht
      obtain ⟨hent, reason, rfl⟩ :=
        enters_of_writer hk hE hq (writer_of_change hstmt hch) hch hx
      obtain ⟨⟨x', hx', hst'⟩, -⟩ := writeStatus_recon hexec hx hne
      refine Or.inr ⟨rfl, hnext, ?_, p, q, x, x', hq, hx, hent, hx', hst', ?_⟩
      · rw [hnew]
        exact hent.transient.pending
      · rw [hnew]
        rfl

/-- An order in reconciliation has a task after a step. -/
theorem Repairs.opened_step (h : Repairs es s) (hk : Known s) (hE : Exclusive control statusOf s)
    (hs : step s e = some s') {o : Order} (ho : s'.store.db.orders.row i = some o)
    (hst : o.status = .reconciliationRequired) :
    ∃ k t, s'.store.db.tasks.row k = some t ∧ t.orderID = i := by
  rcases order_origin hs ho with ⟨x, hx, hstep⟩ | ⟨p, c, draft, items, hacc, -, rfl⟩
  · by_cases hx' : x.status = .reconciliationRequired
    · obtain ⟨k, t, ht, hid⟩ := h.opened i x hx hx'
      obtain ⟨t', ht', hid', -⟩ := task_kept hs ht
      exact ⟨k, t', ht', hid'.trans hid⟩
    · cases hstep with
      | kept => exact absurd hst hx'
      | written p oc locked q stmt r _ old he hq hstmt hw hexec hch =>
        have hchange := hch.change
        rw [hst] at hchange
        obtain ⟨-, reason, rfl⟩ := enters_of_writer hk hE hq hw hchange hx
        exact (writeStatus_recon hexec hx hx').2
  · exact absurd hst (by simp [OrderDraft.row])

theorem Repairs.step (hrun : run step start es = some s) (h : Repairs es s) (hk : Known s)
    (hE : Exclusive control statusOf s) (hs : step s e = some s') : Repairs (es ++ [e]) s' where
  leased := h.leased.step hs
  opened i o ho hst := h.opened_step hk hE hs ho hst
  order k t' ht' := by
    rcases task_origin hk hE hs ht' with
      ⟨t, ht, hid, -⟩ | ⟨-, -, hpend, _, _, _, o', -, -, -, ho', hst', -⟩
    · exact h.order_moved hk hE hs ht ht' hid
    · exact ⟨o', ho', fun hc => absurd (hpend.symm.trans hc) (by simp), fun _ => hst'⟩
  one k k' t t' ht ht' hid := by
    rcases task_origin hk hE hs ht with
      ⟨t₁, ht₁, hid₁, -⟩ | ⟨-, hnext, -, _, _, o, _, -, ho, hent, -⟩
    · rcases task_origin hk hE hs ht' with
        ⟨t₂, ht₂, hid₂, -⟩ | ⟨-, -, -, _, _, o, _, -, ho, hent, -⟩
      · exact h.one k k' t₁ t₂ ht₁ ht₂ (by rw [← hid₁, ← hid₂, hid])
      · exact (h.no_task ht₁ (by rw [← hid₁, hid]; exact ho) hent.transient).elim
    · rcases task_origin hk hE hs ht' with ⟨t₂, ht₂, hid₂, -⟩ | ⟨-, hnext', -⟩
      · exact (h.no_task ht₂ (by rw [← hid₂, ← hid]; exact ho) hent.transient).elim
      · exact hnext.trans hnext'.symm
  left k t' ht' := by
    rcases task_origin hk hE hs ht' with
      ⟨t, ht, hid, hact⟩ | ⟨-, -, -, _, _, o, o', -, ho, hent, ho', hst', hact⟩
    · exact (h.left k t ht).snoc hid hact e
    · exact ⟨es, e, [], s, s', o, o', rfl, hrun, hs, ho, hent.transient, ho', hst', hact⟩
  hand p cfg pc k t hq hmem := by
    rcases recon_tasks hs hq hmem with ⟨pc₀, hq₀, hmem₀⟩ | ⟨tasks, hmem₀, -, hok⟩
    · obtain ⟨t₁, ht₁, hid, hact⟩ := h.hand p cfg pc₀ k t hq₀ hmem₀
      obtain ⟨t', ht', hid', hact'⟩ := task_kept hs ht₁
      exact ⟨t', ht', hid'.trans hid, hact'.trans hact⟩
    · obtain ⟨t₁, ht₁, rfl⟩ := hok.tasks.2 _ hmem₀
      obtain ⟨t', ht', hid', hact'⟩ := task_kept hs ht₁
      exact ⟨t', ht', hid', hact'⟩

theorem repairs_start : Repairs [] start where
  leased := leased_start
  opened i o ho := absurd ho (by simp [start, World.init, DB.empty])
  order k t ht := absurd ht (by simp [start, World.init, DB.empty])
  one k k' t t' ht := absurd ht (by simp [start, World.init, DB.empty])
  left k t ht := absurd ht (by simp [start, World.init, DB.empty])
  hand p cfg pc k t hq := absurd hq (by simp [start, World.At, World.init])

end

end OrderSystem.Saga
