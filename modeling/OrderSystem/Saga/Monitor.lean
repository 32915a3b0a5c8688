/-
# What the indicators say about a run

`DB.snapshot` (`OrderSvc/Reliability.lean`) sees one state of the database.  An operator reads more
into it: that an order counted as stuck has been stuck, and that nothing is overdue if `overdue` is
zero.  Both are statements about runs.

* `stuck_counted` -- `stuck_transient` counts exactly the orders that have been in one transient
  status without a break since before the threshold.  A transient status is only ever entered from
  another one, so nothing resets `updated_at` while an order is stuck.
* `overdue_counted` -- every open order whose timeout is due is counted by `overdue`, in the runs in
  which a pending order keeps its timeout (`TimeoutsSeeSettled`, see `Saga/Timeout.lean`).
* `overdue_blind` -- in the others `overdue` can be zero while a pending order is past its time.

`Monitored` is the saga with the two columns that only the indicators read.  Every `UPDATE` of an
order that matches sets `updated_at`, whether it changes the row or not.
-/
import OrderSystem.OrderSvc.Reliability
import OrderSystem.Saga.Timeout

namespace OrderSystem.Saga

open OrderSystem.Kit
open OrderSystem.OrderSvc

/-! ## 1. The columns of the indicators -/

/-- The saga, with the columns that only the indicators read. -/
structure Monitored where
  saga : State
  stamps : Stamps

section

variable [Collation]

/-- The order whose `updated_at` a step sets. -/
def touched (s : State) : Event → Option Nat
  | .act p (.sql outcome locked) =>
    match outcome with
    | .failed _ => none
    | _ => ((s.procs.row p).bind Proc.stmt).bind fun stmt =>
      stmt.touches s.store.now locked s.store.db
  | _ => none

/-- The columns after a step. -/
def Stamps.after (stamps : Stamps) (s : State) (e : Event) (s' : State) : Stamps where
  createdAt i :=
    if s.store.db.outbox.row i = none ∧ (s'.store.db.outbox.row i).isSome then s.store.now
    else stamps.createdAt i
  updatedAt i := if touched s e = some i then s.store.now else stamps.updatedAt i

def Monitored.step (w : Monitored) (e : Event) : Option Monitored :=
  (Saga.step w.saga e).map fun s' => ⟨s', Stamps.after w.stamps w.saga e s'⟩

/-- Before anything has happened. -/
def Monitored.start : Monitored := ⟨Saga.start, ⟨fun _ => 0, fun _ => 0⟩⟩

/-- `Snapshot` at this moment. -/
def Monitored.snapshot (w : Monitored) (configured : Int) : ReliabilitySnapshot :=
  w.saga.store.db.snapshot w.stamps w.saga.store.now configured

/-- The status of an order. -/
def Monitored.status (w : Monitored) (i : Nat) : Option OrderStatus :=
  (w.saga.store.db.orders.row i).map (·.status)

variable {w w' : Monitored} {e : Event}

theorem monitored_step (h : w.step e = some w') :
    Saga.step w.saga e = some w'.saga ∧ w'.stamps = Stamps.after w.stamps w.saga e w'.saga := by
  obtain ⟨s', hs, rfl⟩ := Option.map_eq_some_iff.mp h
  exact ⟨hs, rfl⟩

variable {es : List Event} {st : OrderStatus}

/-- A run of the monitored saga is one of the saga. -/
theorem saga_run (h : run Monitored.step w es = some w') :
    run Saga.step w.saga es = some w'.saga := by
  induction es generalizing w with
  | nil =>
    simp only [run, Option.some.injEq] at h ⊢
    rw [h]
  | cons e es ih =>
    obtain ⟨u, hu, hr⟩ := run_cons.mp h
    exact run_cons.mpr ⟨u.saga, (monitored_step hu).1, ih hr⟩

/-- A condition on the states of the saga. -/
theorem saga_meets {C : State → Event → Prop}
    (h : Meets (fun w e => C w.saga e) Monitored.step w es) : Meets C Saga.step w.saga es := by
  induction es generalizing w with
  | nil => trivial
  | cons e es ih =>
    refine ⟨h.1, fun s' hs' => ?_⟩
    have hstep : w.step e = some ⟨s', Stamps.after w.stamps w.saga e s'⟩ := by
      rw [Monitored.step, hs', Option.map_some]
    exact ih (h.2 _ hstep)

/-! ## 2. What a step touches -/

variable {s s' : State} {i : Nat}

/-- A statement that touches an order has committed. -/
theorem exec_of_touched (hs : Saga.step s e = some s') (hi : touched s e = some i) :
    ∃ p q stmt locked r, s.At p q ∧ q.stmt = some stmt ∧ s'.store.now = s.store.now ∧
      stmt.exec s.store.now locked s.store.db = .ok (r, s'.store.db) ∧
      stmt.touches s.store.now locked s.store.db = some i := by
  unfold touched at hi
  split at hi
  · rename_i p outcome locked
    split at hi
    · cases hi
    · rename_i hne
      obtain ⟨stmt, hstmt, htouches⟩ := Option.bind_eq_some_iff.mp hi
      obtain ⟨q, hq, hstmt⟩ := Option.bind_eq_some_iff.mp hstmt
      obtain ⟨hstore, -⟩ := sql_step hs hq hstmt
      have hexec : ∃ r, stmt.exec s.store.now locked s.store.db = .ok (r, s'.store.db) := by
        rw [hstore]
        cases hx : stmt.exec s.store.now locked s.store.db with
        | error err => simp [Stmt.touches, hx] at htouches
        | ok x =>
          obtain ⟨r, db'⟩ := x
          refine ⟨r, ?_⟩
          cases outcome with
          | ok => simp [runSql, hx]
          | failed message => exact absurd rfl (hne message)
          | lostAck message => simp [runSql, hx]
      obtain ⟨r, hexec⟩ := hexec
      exact ⟨p, q, stmt, locked, r, hq, hstmt, by rw [hstore], hexec, htouches⟩
  · cases hi

/-- An order that a step does not touch stays as it is. -/
theorem row_of_not_touched (hs : Saga.step s e = some s') (hi : touched s e ≠ some i) :
    s'.store.db.orders.row i = s.store.db.orders.row i := by
  cases db_step hs with
  | none hdb => rw [hdb]
  | sql p outcome locked q stmt r he hq hstmt hexec =>
    subst he
    have hrow : s.procs.row p = some q := hq
    cases outcome with
    | failed message =>
      obtain ⟨hstore, -⟩ := sql_step hs hq hstmt
      rw [hstore]
      rfl
    | ok | lostAck message =>
      simp only [touched, hrow, Option.bind_some, hstmt] at hi
      exact row_of_not_touches hexec hi

/-- A statement of the saga that leaves an order in a transient status found it pending. -/
theorem pending_of_writer (hk : Known s) {p : Nat} {q : Proc} (hq : s.At p q) {stmt : Stmt}
    (hw : Writer q stmt) {old : Option OrderStatus} {new : OrderStatus}
    (hch : stmt.change = some (i, old, new)) (hnew : new.transient = true) :
    old = some .pending := by
  have hknow := hk.procs p q hq
  cases hw with
  | createFail c orderID cause | settleCompensate c cause | finish c | createFinalize c orderID id
  | settleRevert c cause =>
    simp only [Stmt.change, Option.some.injEq, Prod.mk.injEq] at hch
    obtain ⟨-, -, rfl⟩ := hch
    exact absurd hnew (by decide)
  | createCompensate c orderID status reason result =>
    simp only [Stmt.change, Option.some.injEq, Prod.mk.injEq] at hch
    obtain ⟨-, -, rfl⟩ := hch
    rcases hknow.2.2 with ⟨rfl, -⟩ | rfl
    · exact absurd hnew (by decide)
    · exact absurd hnew (by decide)
  | settleClaim c o =>
    simp only [Stmt.change, Option.some.injEq, Prod.mk.injEq] at hch
    exact hch.2.1.symm
  | settleFinalize c =>
    simp only [Stmt.change, Option.some.injEq, Prod.mk.injEq] at hch
    obtain ⟨-, -, rfl⟩ := hch
    exact absurd hnew (by cases c.kind <;> decide)
  | complete cfg task target closes rest =>
    simp only [Stmt.change, Option.some.injEq, Prod.mk.injEq] at hch
    obtain ⟨-, -, rfl⟩ := hch
    obtain ⟨t, hplan, -⟩ := hknow
    exact absurd hnew (by
      cases haction : task.2.action with
      | unsupportedFrom st => simp [haction, Action.plan] at hplan
      | _ =>
        simp only [haction, Action.plan, Option.some.injEq, Prod.mk.injEq] at hplan
        rw [← hplan.1]
        decide)

/-- **A transient status is entered from another one.** -/
theorem status_ne_of_touched (hk : Known s) (hs : Saga.step s e = some s')
    (hi : touched s e = some i) {o o' : Order} (ho : s.store.db.orders.row i = some o)
    (ho' : s'.store.db.orders.row i = some o') (htransient : o'.status.transient = true) :
    o.status ≠ o'.status := by
  intro hsame
  obtain ⟨p, q, stmt, locked, r, hq, hstmt, -, hexec, htouches⟩ := exec_of_touched hs hi
  rcases row_of_touches hexec htouches with hnone | ⟨old, new, x, x', hch, hx, hold, hx', hst⟩
  · rw [ho] at hnone
    cases hnone
  · obtain rfl := Option.some.inj (ho.symm.trans hx)
    obtain rfl := Option.some.inj (ho'.symm.trans hx')
    have hpending := pending_of_writer hk hq (writer_of_change hstmt hch) hch (hst ▸ htransient)
    have hstatus := hold .pending (by rw [hpending]; rfl)
    rw [← hsame, hstatus] at htransient
    cases htransient

/-! ## 3. Orders that are stuck -/

/-- The order has had one status without a break since before the given instant. -/
def StuckSince (es : List Event) (w : Monitored) (i : Nat) (st : OrderStatus) (instant : Int) :
    Prop :=
  ∃ before after u, es = before ++ after ∧ run Monitored.step .start before = some u ∧
    u.saga.store.now < instant ∧ Meets (fun v _ => v.status i = some st) Monitored.step u after ∧
    w.status i = some st

omit [Collation] in
theorem status_eq_some :
    w.status i = some st ↔ ∃ o, w.saga.store.db.orders.row i = some o ∧ o.status = st :=
  Option.map_eq_some_iff

/-- `updated_at` is not ahead of the clock. -/
theorem updatedAt_le (h : run Monitored.step .start es = some w) (i : Nat) :
    w.stamps.updatedAt i ≤ w.saga.store.now := by
  refine run_invariant (I := fun w => w.stamps.updatedAt i ≤ w.saga.store.now) ?_ (Int.le_refl 0) h
  intro w e w' hle he
  obtain ⟨hs, hstamps⟩ := monitored_step he
  have hclock := clock_step hs
  rw [hstamps, Stamps.after]
  dsimp only
  split
  · exact hclock
  · exact hle.trans hclock

/-- An order has had its status without a break since its `updated_at`. -/
theorem entered_run (h : run Monitored.step .start es = some w) (hst : w.status i = some st) :
    ∃ before after u, es = before ++ after ∧ run Monitored.step .start before = some u ∧
      u.saga.store.now = w.stamps.updatedAt i ∧
      Meets (fun v _ => v.status i = some st) Monitored.step u after := by
  refine run_history_of (C := fun _ _ => True)
    (I := fun es w => w.status i = some st → ∃ before after u, es = before ++ after ∧
      run Monitored.step .start before = some u ∧ u.saga.store.now = w.stamps.updatedAt i ∧
      Meets (fun v _ => v.status i = some st) Monitored.step u after) ?_ ?_ (meets_true _ es) h hst
  · intro es w e w' hw ih _ he hst
    obtain ⟨hs, hstamps⟩ := monitored_step he
    by_cases hi : touched w.saga e = some i
    · obtain ⟨-, -, -, -, -, -, -, hnow, -⟩ := exec_of_touched hs hi
      refine ⟨es ++ [e], [], w', by simp, run_snoc.mpr ⟨w, hw, he⟩, ?_, trivial⟩
      rw [hnow, hstamps, Stamps.after]
      exact (if_pos hi).symm
    · have hst₀ : w.status i = some st := by
        rw [Monitored.status, ← row_of_not_touched hs hi]
        exact hst
      obtain ⟨before, after, u, rfl, hu, hnow, hmeets⟩ := ih hst₀
      obtain ⟨u', hu', hr⟩ := run_append.mp hw
      obtain rfl := Option.some.inj (hu.symm.trans hu')
      refine ⟨before, after ++ [e], u, by simp, hu, ?_, ?_⟩
      · rw [hnow, hstamps, Stamps.after]
        exact (if_neg hi).symm
      · exact (meets_append hr).mpr ⟨hmeets, hst₀, fun _ _ => trivial⟩
  · intro hst
    simp [Monitored.status, Monitored.start, Saga.start, World.init, DB.empty] at hst

/-- While an order stays in a transient status, nothing sets its `updated_at`. -/
theorem updatedAt_of_stuck {u : Monitored} {before after : List Event}
    (hu : run Monitored.step .start before = some u) (h : run Monitored.step u after = some w)
    (htransient : st.transient = true)
    (hmeets : Meets (fun v _ => v.status i = some st) Monitored.step u after)
    (hst : w.status i = some st) : w.stamps.updatedAt i ≤ u.saga.store.now := by
  have hknown : Known u.saga := wired_run (saga_run hu)
  refine (run_invariant_of (I := fun v => Known v.saga ∧
    (v.status i = some st → v.stamps.updatedAt i ≤ u.saga.store.now)) ?_
    ⟨hknown, fun _ => updatedAt_le hu i⟩ hmeets h).2 hst
  rintro v e v' ⟨hk, hle⟩ hst he
  obtain ⟨hs, hstamps⟩ := monitored_step he
  refine ⟨hk.step hs, fun hst' => ?_⟩
  have hi : touched v.saga e ≠ some i := by
    intro hi
    obtain ⟨o, ho, rfl⟩ := status_eq_some.mp hst
    obtain ⟨o', ho', hsame⟩ := status_eq_some.mp hst'
    exact status_ne_of_touched hk hs hi ho ho' (hsame ▸ htransient) hsame.symm
  rw [hstamps, Stamps.after]
  dsimp only
  rw [if_neg hi]
  exact hle hst

/-- **`stuck_transient` counts the orders that are stuck**: those that have been in one of the
statuses `reserving`, `paying` and `cancelling`, without a break, for longer than the threshold. -/
theorem stuck_counted (es : List Event) (w : Monitored)
    (hrun : run Monitored.step .start es = some w) (configured : Int) :
    ∃ ids : List Nat, ids.Nodup ∧
      (w.snapshot configured).orders.stuckTransient = ids.length ∧
      ∀ i, i ∈ ids ↔ ∃ st, st.transient = true ∧
        StuckSince es w i st (w.saga.store.now - stuckThresholdOf configured) := by
  refine ⟨_, Table.ids_nodup _ _, rfl, fun i => ?_⟩
  rw [Table.mem_ids]
  constructor
  · rintro ⟨o, ho, hcond⟩
    obtain ⟨htransient, hold⟩ := (Bool.and_eq_true _ _).mp hcond
    have hst : w.status i = some o.status := status_eq_some.mpr ⟨o, ho, rfl⟩
    obtain ⟨before, after, u, hes, hu, hnow, hmeets⟩ := entered_run hrun hst
    exact ⟨o.status, htransient, before, after, u, hes, hu, hnow ▸ of_decide_eq_true hold, hmeets,
      hst⟩
  · rintro ⟨st, htransient, before, after, u, rfl, hu, hlt, hmeets, hst⟩
    obtain ⟨u', hu', hr⟩ := run_append.mp hrun
    obtain rfl := Option.some.inj (hu.symm.trans hu')
    have hle := updatedAt_of_stuck hu hr htransient hmeets hst
    obtain ⟨o, ho, rfl⟩ := status_eq_some.mp hst
    exact ⟨o, ho, (Bool.and_eq_true _ _).mpr ⟨htransient, decide_eq_true (by omega)⟩⟩

/-- `Pay` claims the order, and the service dies. -/
def claiming : List Event :=
  [.spawn (.settle ⟨.pay, false, 1, 1, none⟩ .load), .act 2 (.sql .ok []), .act 2 (.sql .ok []),
    .env (.tick 400000)]

omit [Collation] in
theorem stuck_counted_claiming :
    letI := asciiCi
    ∃ w i st, run Monitored.step .start (ordering ++ claiming) = some w ∧
      (w.snapshot 0).orders.stuckTransient = 1 ∧
      StuckSince (ordering ++ claiming) w i st (w.saga.store.now - stuckThresholdOf 0) := by
  let _ : Collation := asciiCi
  have h : (run Monitored.step .start (ordering ++ claiming)).map
      (fun w => (w.snapshot 0).orders.stuckTransient) = some 1 := by decide +kernel
  obtain ⟨w, hw, hone⟩ := Option.map_eq_some_iff.mp h
  obtain ⟨ids, -, hlength, hstuck⟩ := stuck_counted _ w hw 0
  obtain ⟨i, rfl⟩ := List.length_eq_one_iff.mp (hlength.symm.trans hone)
  obtain ⟨st, -, hsince⟩ := (hstuck i).mp (List.mem_singleton_self i)
  exact ⟨w, i, st, hw, hone, hsince⟩

/-! ## 4. Timeouts that are overdue -/

/-- **`overdue` misses no open order.**  If no `TimeoutCancel` for a delivery looks at an order
while it is `paying` or `cancelling`, then at least as many rows are overdue as there are orders
that are still open when their timeout is due. -/
theorem overdue_counted (es : List Event) (w : Monitored)
    (hrun : run Monitored.step .start es = some w)
    (hsees : Meets (fun v e => TimeoutsSeeSettled v.saga e) Monitored.step .start es)
    (configured : Int) (ids : List Nat) (hnodup : ids.Nodup)
    (hids : ∀ i ∈ ids, ∃ o k row, w.saga.store.db.orders.row i = some o ∧ IsOpen o.status ∧
      w.saga.store.db.outbox.row k = some row ∧ row.orderID = i ∧
      row.dueAt < w.saga.store.now) :
    ids.length ≤ (w.snapshot configured).outbox.overdue := by
  have hI := run_invariant_of (C := TimeoutsSeeSettled) (I := fun t => Known t ∧ Live t)
    (fun _ _ _ ⟨hk, hl⟩ hc hs => ⟨hk.step hs, hl.step hk hc hs⟩) ⟨known_start, live_start⟩
    (saga_meets hsees) (saga_run hrun)
  have hrows : ids ⊆ (w.saga.store.db.outbox.ids fun _ row => row.overdue w.saga.store.now).map
      fun k => ((w.saga.store.db.outbox.row k).map (·.orderID)).getD 0 := by
    intro i hi
    obtain ⟨o, k, row, ho, hopen, hrow, hid, hdue⟩ := hids i hi
    obtain ⟨k', row', hrow', hid', hlive⟩ := hI.2.orders i o ho hopen
    obtain rfl := hI.1.wired.timeouts k' k row' row hrow' hrow (hid'.trans hid.symm)
    obtain rfl := Option.some.inj (hrow.symm.trans hrow')
    refine List.mem_map.mpr ⟨k', Table.mem_ids.mpr ⟨row, hrow, ?_⟩, by simp [hrow, hid]⟩
    exact decide_eq_true ⟨hdue, hlive⟩
  calc ids.length ≤ _ := (hnodup.subperm hrows).length_le
    _ = (w.snapshot configured).outbox.overdue := List.length_map _

/-- Time passes without a worker. -/
def waiting : List Event := [.env (.tick 4000000)]

omit [Collation] in
theorem overdue_counted_waiting :
    letI := asciiCi
    ∃ w, run Monitored.step .start (ordering ++ waiting) = some w ∧
      1 ≤ (w.snapshot 0).outbox.overdue := by
  let _ : Collation := asciiCi
  have h : (run Monitored.step .start (ordering ++ waiting)).bind (fun w =>
      (w.saga.store.db.orders.row 1).bind fun o => (w.saga.store.db.outbox.row 1).map fun row =>
        decide (IsOpen o.status ∧ row.orderID = 1 ∧ row.dueAt < w.saga.store.now)) =
      some true := by decide +kernel
  obtain ⟨w, hw, hv⟩ := Option.bind_eq_some_iff.mp h
  obtain ⟨o, ho, hv⟩ := Option.bind_eq_some_iff.mp hv
  obtain ⟨row, hrow, hv⟩ := Option.map_eq_some_iff.mp hv
  obtain ⟨hopen, hid, hdue⟩ := of_decide_eq_true hv
  refine ⟨w, hw, overdue_counted _ w hw (by decide +kernel) 0 [1] (by decide) ?_⟩
  intro i hi
  obtain rfl := List.mem_singleton.mp hi
  exact ⟨o, 1, row, ho, hopen, hrow, hid, hdue⟩

omit [Collation] in
/-- A pending order that has lost its timeout is not counted when its time has passed. -/
theorem overdue_blind :
    letI := asciiCi
    ∃ w o row, run Monitored.step .start (ordering ++ expiring ++ timeoutIgnored ++ waiting) =
        some w ∧
      w.saga.store.db.orders.row 1 = some o ∧ o.status = .pending ∧
      w.saga.store.db.outbox.row 1 = some row ∧ row.orderID = 1 ∧
      row.dueAt < w.saga.store.now ∧ (w.snapshot 0).outbox.overdue = 0 := by
  let _ : Collation := asciiCi
  have h : (run Monitored.step .start (ordering ++ expiring ++ timeoutIgnored ++ waiting)).bind
      (fun w => (w.saga.store.db.orders.row 1).bind fun o =>
        (w.saga.store.db.outbox.row 1).map fun row =>
          decide (o.status = .pending ∧ row.orderID = 1 ∧ row.dueAt < w.saga.store.now ∧
            (w.snapshot 0).outbox.overdue = 0)) = some true := by decide +kernel
  obtain ⟨w, hw, hv⟩ := Option.bind_eq_some_iff.mp h
  obtain ⟨o, ho, hv⟩ := Option.bind_eq_some_iff.mp hv
  obtain ⟨row, hrow, hv⟩ := Option.map_eq_some_iff.mp hv
  obtain ⟨hpending, hid, hdue, hzero⟩ := of_decide_eq_true hv
  exact ⟨w, o, row, hw, ho, hpending, hrow, hid, hdue, hzero⟩

end

end OrderSystem.Saga
