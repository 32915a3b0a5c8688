/-
# A pending order can still be paid and cancelled

`Pay` and `cancel` put an order back to `pending` after any error of `Confirm` or `Release`, as
if an error meant that the reservation was not touched; but the request may have committed with
its answer lost, or may still be on its way.

* `pending_settleable` -- if `Pay` and `cancel` take an error only while the reservation is
  unsettled and no `Confirm` or `Release` of it is in flight, and finalising transactions are
  acknowledged, then a `pending` order has a `pending` reservation.  A fresh `Pay` or
  `TimeoutCancel` against healthy services then ends with the order `paid` or `cancelled`.
* `pending_but_confirmed` -- otherwise a pending order can have a confirmed reservation with
  nothing left running, and `TimeoutCancel` puts it back to `pending` every time.

The invariant (`Calm`) is that the reservation of a pending order is untouched and that nobody
is about to touch it: whoever settles a reservation controls the order (`Control.lean`), or the
order is resolved and never pending again.
-/
import OrderSystem.InventorySvc.Progress
import OrderSystem.Saga.Failure
import OrderSystem.Saga.Timeout

namespace OrderSystem.Saga

open OrderSystem.Kit
open OrderSystem.OrderSvc
open OrderSystem.InventorySvc (Reservation Settlement Room)

/-! ## 1. Unsettled orders -/

section

variable [Collation]

/-- The request settles the reservation of the order. -/
def settlesFor (inv : InventorySvc.DB) (orderID : Nat) : InventoryOp → Bool
  | .settle _ id => (inv.reservation (trimSpace id)).any fun r => r.orderID = (orderID : Int)
  | .reserve _ => false

/-- The order's reservation, if there is one, is pending, and no `Confirm` or `Release` of it is
in flight. -/
def Unsettled (s : State) (orderID : Nat) : Prop :=
  (∀ r ∈ s.remote.reservationOf orderID, r.status = .pending) ∧
    ∀ m ∈ s.requests, settlesFor s.remote orderID m.2 = false

instance (s : State) (orderID : Nat) : Decidable (Unsettled s orderID) :=
  inferInstanceAs (Decidable ((∀ r ∈ s.remote.reservationOf orderID, _) ∧ ∀ m ∈ s.requests, _))

theorem settlesFor_named {db : DB} {inv : InventorySvc.DB} (hw : Wired db inv) {orderID : Nat}
    {id : GoString} (hn : Named db orderID id) (hres : Reserved inv orderID) (t : Settlement)
    (i : Nat) : settlesFor inv i (.settle t id) = true ↔ orderID = i := by
  obtain ⟨r, hr, ho⟩ := hw.reservation_named hn hres
  simp [settlesFor, hr, ho]

variable {s s' : State} {e : Event} {i p : Nat} {q : Proc} {o : Order} {c : SettleCall}

/-- **An unsettled order stays unsettled** unless somebody asks to settle it. -/
theorem Unsettled.step (h : Unsettled s i) (hk : Known s) (hs : step s e = some s')
    (hsend : ∀ p q, e = .send p → s.At p q → settling q ≠ some i) : Unsettled s' i := by
  have hk' := hk.step hs
  have hev := evolves_step hk (change_of_step hs)
  refine ⟨fun r' hr' => ?_, fun m hm => ?_⟩
  · by_contra hst
    obtain ⟨w, hw, ho⟩ := hk'.wired.indexed.reservationOf.mp hr'
    rcases settled_origin hs hw hst with hw₀ | ⟨p, t, id, hreq, rfl, -⟩
    · exact hst (h.1 r' (hk.wired.indexed.reservationOf.mpr ⟨w, hw₀, ho⟩))
    · obtain ⟨j, hn, hres⟩ := hk.requests p _ hreq
      obtain ⟨r, hr, hj⟩ := hk.wired.reservation_named hn hres
      obtain ⟨r₁, hr₁, -, hord, -⟩ := hev.inventory.reservations _ r hr
      obtain rfl := Option.some.inj (hw.symm.trans hr₁)
      obtain rfl : j = i := Int.ofNat.inj (hj.symm.trans (hord.symm.trans ho))
      have hsettles := (settlesFor_named hk.wired hn hres t j).mpr rfl
      rw [h.2 _ hreq] at hsettles
      exact absurd hsettles (by simp)
  · obtain ⟨p, op⟩ := m
    cases op with
    | reserve req => rfl
    | settle t id =>
      refine Bool.eq_false_iff.mpr fun hsettles => ?_
      rcases origin_of_request hs hm with hm | ⟨q, he, hq, hcall⟩
      · obtain ⟨j, hn, hres⟩ := hk.requests p _ hm
        obtain rfl := (settlesFor_named hk'.wired (hn.mono hev) (hres.persists hev.inventory)
          t i).mp hsettles
        have hold := (settlesFor_named hk.wired hn hres t j).mpr rfl
        rw [h.2 _ hm] at hold
        exact absurd hold (by simp)
      · obtain ⟨j, hj, hn, hres⟩ := settling_of_request hk.wired (hk.procs p q hq) hcall
        obtain rfl := (settlesFor_named hk'.wired (hn.mono hev) (hres.persists hev.inventory)
          t i).mp hsettles
        exact hsend p q he hq hj

/-- A new order is unsettled. -/
theorem unsettled_next (hk : Known s) : Unsettled s s.store.db.orders.next := by
  have hnamed : ∀ {id}, ¬Named s.store.db s.store.db.orders.next id := fun ⟨o, ho, _⟩ =>
    Table.ne_next ho rfl
  refine ⟨fun r hr => absurd (hk.wired.resv_named hr).1 hnamed, fun m hm => ?_⟩
  obtain ⟨p, op⟩ := m
  cases op with
  | reserve req => rfl
  | settle t id =>
    obtain ⟨j, hn, hres⟩ := hk.requests p _ hm
    refine Bool.eq_false_iff.mpr fun hsettles => ?_
    obtain rfl := (settlesFor_named hk.wired hn hres t _).mp hsettles
    exact hnamed hn

/-! ## 2. Who settles a reservation -/

/-- The order whose call of `Pay` or `cancel` takes an error from the inventory service in a
step. -/
def settleError (s : State) : Event → Option Nat
  | .receive p i =>
    match s.replies[i]?, s.procs.row p with
    | some (_, _, .error _), some (.settle c (.call _)) => some c.orderID
    | _, _ => none
  | .giveUp p _ =>
    match s.procs.row p with
    | some (.settle c (.call _)) => some c.orderID
    | _ => none
  | _ => none

/-- `Pay` and `cancel` take an error from `Confirm` or `Release` only while the reservation was
not and will not be settled. -/
def DefiniteSettle (s : State) (e : Event) : Prop :=
  ∀ orderID ∈ settleError s e, Unsettled s orderID

instance (s : State) (e : Event) : Decidable (DefiniteSettle s e) :=
  inferInstanceAs (Decidable (∀ orderID ∈ settleError s e, _))

/-- What a process knows about the reservation of its order. -/
def calmOk (s : State) : Proc → Prop
  | .create _ (.reserve orderID _ _) => Unsettled s orderID
  | .create _ (.finalize orderID _) => Unsettled s orderID
  | .settle c (.revert _) => Unsettled s c.orderID
  | .recon _ (.call task _ _) => Resolved s.store.db task.2.orderID
  | _ => True

/-- Pending orders are unsettled. -/
structure Calm (s : State) : Prop where
  orders : ∀ i o, s.store.db.orders.row i = some o → o.status = .pending → Unsettled s i
  procs : ∀ p q, s.At p q → calmOk s q

omit [Collation] in
/-- Whoever settles a reservation controls the order, or is a worker. -/
theorem control_of_settling (h : settling q = some i) :
    (∃ v, control q = some (i, v)) ∨
      ∃ cfg task o rest, q = .recon cfg (.call task o rest) ∧ task.2.orderID = i := by
  unfold settling at h
  split at h
  · exact Or.inl ⟨_, by rw [← Option.some.inj h]; rfl⟩
  · exact Or.inl ⟨_, by rw [← Option.some.inj h]; rfl⟩
  · exact Or.inr ⟨_, _, _, _, rfl, Option.some.inj h⟩
  · exact absurd h (by simp)

/-- An order that no other process controls, and that is not resolved, is settled by nobody. -/
theorem no_settling (hc : Calm s) (ho : s.store.db.orders.row i = some o)
    (hres : ¬IsResolved o.status)
    (hctl : ∀ p q v, s.At p q → control q = some (i, v) → settling q ≠ some i) (p : Nat) (q : Proc)
    (hq : s.At p q) : settling q ≠ some i := by
  intro hset
  rcases control_of_settling hset with ⟨v, hv⟩ | ⟨cfg, task, o', rest, rfl, rfl⟩
  · exact hctl p q v hq hv hset
  · obtain ⟨o₁, ho₁, hres₁⟩ := hc.procs p _ hq
    obtain rfl := Option.some.inj (ho.symm.trans ho₁)
    exact hres hres₁

/-- Nobody settles the reservation of a pending order. -/
theorem no_settling_pending (hc : Calm s) (hE : Exclusive control statusOf s)
    (ho : s.store.db.orders.row i = some o) (hst : o.status = .pending) (p : Nat) (q : Proc)
    (hq : s.At p q) : settling q ≠ some i := by
  refine no_settling hc ho (by rw [hst]; decide) (fun p' q' v hq' hv => ?_) p q hq
  have hval := hE.held p' q' i v hq' hv
  rw [statusOf, ho, Option.map_some, hst] at hval
  exact absurd (by decide) (hval ▸ not_free_of_control hv)

/-- Nobody else settles the reservation of an order that a process controls. -/
theorem no_settling_controlled (hc : Calm s) (hE : Exclusive control statusOf s) {p₀ : Nat}
    {q₀ : Proc} {v₀ : OrderStatus} (hq₀ : s.At p₀ q₀) (hctl : control q₀ = some (i, some v₀))
    (hne : settling q₀ ≠ some i) (p : Nat) (q : Proc) (hq : s.At p q) : settling q ≠ some i := by
  have hval := hE.held p₀ q₀ i _ hq₀ hctl
  obtain ⟨o, ho, hst⟩ := Option.map_eq_some_iff.mp hval
  have hnf := not_free_of_control hctl
  have hres : ¬IsResolved o.status := by
    rw [hst]
    rintro ⟨h1, h2⟩
    exact hnf ⟨by simpa using h1, fun h => h2 (Or.inr (Or.inl (Option.some.inj h))),
      fun h => h2 (Or.inr (Or.inr (Option.some.inj h)))⟩
  refine no_settling hc ho hres (fun p' q' v hq' hv => ?_) p q hq
  obtain rfl := hE.unique p' p₀ q' q₀ i v _ hq' hq₀ hv hctl
  obtain rfl := Option.some.inj (hq'.symm.trans hq₀)
  exact hne

/-! ## 3. Pending orders stay unsettled -/

/-- What a process knows about the reservation of its order stays true while it waits. -/
theorem calmOk_mono (hc : Calm s) (hk : Known s) (hE : Exclusive control statusOf s)
    (hs : step s e = some s') (hq : s.At p q) : calmOk s' q := by
  have h := hc.procs p q hq
  cases q with
  | create c pc =>
    cases pc with
    | reserve orderID id items | finalize orderID id =>
      exact Unsettled.step h hk hs fun p' q' _ hq' =>
        no_settling_controlled hc hE hq rfl (by simp [settling]) p' q' hq'
    | _ => trivial
  | settle c pc =>
    cases pc with
    | revert cause =>
      exact Unsettled.step h hk hs fun p' q' _ hq' =>
        no_settling_controlled hc hE hq rfl (by simp [settling]) p' q' hq'
    | _ => trivial
  | recon cfg pc =>
    cases pc with
    | call task o rest => exact Resolved.step h hk hs
    | _ => trivial
  | _ => trivial

/-- The client never refuses the `Confirm` or `Release` of an order. -/
theorem settleRequest_ne_none (hk : Known s) (hq : s.At p (.settle c (.call o))) :
    settleRequest c.kind.target o.reservationID ≠ none := by
  obtain ⟨hn, -⟩ := hk.procs p _ hq
  obtain ⟨htrim, hne⟩ := hk.wired.named_trim hn
  rw [settleRequest, if_neg (by rw [htrim]; exact hne)]
  simp

/-- `Pay` and `cancel` know after a definite error that the reservation is untouched. -/
theorem unsettled_of_error (hk : Known s) (hC : DefiniteSettle s e) (hs : step s e = some s')
    {op : Option InventoryOp} {err : Err} (hq : s.At p (.settle c (.call o)))
    (hop : settleRequest c.kind.target o.reservationID = op) (he : TakesError s e p op err) :
    Unsettled s' c.orderID := by
  have hrow : s.procs.row p = some (.settle c (.call o)) := hq
  cases he with
  | refused he => exact absurd hop (settleRequest_ne_none hk hq)
  | answered op err ha =>
    obtain ⟨i, rfl, ha⟩ := ha
    exact Unsettled.step (hC _ (by rw [settleError, ha, hrow]; rfl)) hk hs (by simp)
  | gaveUp op err he =>
    subst he
    exact Unsettled.step (hC _ (by rw [settleError, hrow]; rfl)) hk hs (by simp)

/-- What a process knows about the reservation of its order after a step. -/
theorem calmOk_step (hc : Calm s) (hk : Known s) (hE : Exclusive control statusOf s)
    (hC : DefiniteSettle s e) (hs : step s e = some s') (hat : s'.At p q) : calmOk s' q := by
  cases q with
  | create c pc =>
    cases create_arrives hs hat with
    | kept pc hq => exact calmOk_mono hc hk hE hs hq
    | inserted draft items i hq hok =>
      obtain ⟨locked, rfl, hexec⟩ := hok.event
      obtain ⟨-, hins, -⟩ := insertOrder_ok hexec
      obtain rfl := Res.inserted.inj hins
      exact (unsettled_next hk).step hk hs (by simp)
    | reserved orderID id items op r hq hop ha hstill =>
      obtain ⟨i, rfl, -⟩ := ha
      exact Unsettled.step (hc.procs p _ hq) hk hs (by simp)
    | _ => trivial
  | settle c pc =>
    cases settle_arrives hs hat with
    | kept pc hq => exact calmOk_mono hc hk hE hs hq
    | unsettled o op err hq hop herr hstill => exact unsettled_of_error hk hC hs hq hop herr
    | _ => trivial
  | recon cfg pc =>
    cases recon_arrives hs hat with
    | kept pc hq => exact calmOk_mono hc hk hE hs hq
    | calling task o rest hq hok hst =>
      obtain ⟨hrow, -⟩ := hok.loaded
      exact Resolved.step ⟨o, hrow, by rw [hst]; decide⟩ hk hs
    | _ => trivial
  | _ => trivial

/-- What makes an order pending knows that its reservation is untouched. -/
theorem calm_of_writer (hc : Calm s) (hk : Known s) (hq : s.At p q) {stmt : Stmt}
    (hw : Writer q stmt) {old : Option OrderStatus} (hch : stmt.change = some (i, old, .pending)) :
    Unsettled s i := by
  have hok := hc.procs p q hq
  have hknow := hk.procs p q hq
  cases hw with
  | createFinalize c orderID id | settleRevert c cause =>
    simp only [Stmt.change, Option.some.injEq, Prod.mk.injEq] at hch
    exact hch.1 ▸ hok
  | createCompensate c orderID status reason result =>
    simp only [Stmt.change, Option.some.injEq, Prod.mk.injEq] at hch
    rcases hknow.2.2 with ⟨hf, -⟩ | hf
    · exact absurd (hch.2.2.symm.trans hf) (by simp)
    · exact absurd (hch.2.2.symm.trans hf) (by simp)
  | settleClaim c o =>
    simp only [Stmt.change, Option.some.injEq, Prod.mk.injEq] at hch
    exact absurd hch.2.2 (by cases c.kind <;> simp [SettleKind.transient])
  | settleFinalize c =>
    simp only [Stmt.change, Option.some.injEq, Prod.mk.injEq] at hch
    exact absurd hch.2.2 (by cases c.kind <;> simp [SettleKind.final])
  | complete cfg task target closes rest =>
    simp only [Stmt.change, Option.some.injEq, Prod.mk.injEq] at hch
    obtain ⟨t, hplan, -⟩ := hknow
    exact absurd (Or.inl hch.2.2) (isResolved_of_plan hplan).2
  | _ => exact absurd hch (by simp [Stmt.change])

theorem Calm.step (hc : Calm s) (hk : Known s) (hE : Exclusive control statusOf s)
    (hC : DefiniteSettle s e) (hs : step s e = some s') :
    Calm s' := by
  refine ⟨fun i o ho hst => ?_, fun p q hat => calmOk_step hc hk hE hC hs hat⟩
  rcases order_origin hs ho with ⟨x, hx, hstep⟩ | ⟨p, c, draft, items, hacc, -, rfl⟩
  · cases hstep with
    | kept =>
      exact (hc.orders i o hx hst).step hk hs fun p q _ hq =>
        no_settling_pending hc hE hx hst p q hq
    | written p oc locked q stmt r _ old he hq hstmt hw hexec hch =>
      have hchange := hch.change
      rw [hst] at hchange
      subst he
      exact (calm_of_writer hc hk hq hw hchange).step hk hs (by simp)
  · exact absurd hst (by simp [OrderDraft.row])

theorem calm_start : Calm start where
  orders i o h := absurd h (by simp [start, World.init, DB.empty])
  procs p q h := absurd h (by simp [World.At, World.init, start])

/-! ## 4. A call against healthy services -/

/-- A call of `Pay` or `cancel` from start to end, with every statement and the inventory request
answered at once. -/
def healthy (s : State) (c : SettleCall) : List Event :=
  [.spawn (.settle c .load), .act s.procs.next (.sql .ok []), .act s.procs.next (.sql .ok [])] ++
    ([.send s.procs.next, .serve s.requests.length ⟨.none, [], []⟩,
        .receive s.procs.next s.replies.length] ++
      [.act s.procs.next (.sql .ok []), .act s.procs.next (.sql .ok [])])

/-- The server and the network are as before. -/
structure SameRemote (s s' : State) : Prop where
  remote : s'.remote = s.remote
  requests : s'.requests = s.requests
  replies : s'.replies = s.replies

omit [Collation] in
theorem SameRemote.trans {s'' : State} (h : SameRemote s s') (h' : SameRemote s' s'') :
    SameRemote s s'' :=
  ⟨h'.remote.trans h.remote, h'.requests.trans h.requests, h'.replies.trans h.replies⟩

/-- A process runs its statement. -/
theorem step_sql {stmt : Stmt} {r : Res} {db' : DB} (hq : s.At p q) (hstmt : q.stmt = some stmt)
    (hexec : stmt.exec s.store.now [] s.store.db = .ok (r, db')) :
    ∃ s', step s (.act p (.sql .ok [])) = some s' ∧ s'.At p (q.after (.ok r)) ∧
      s'.store.db = db' ∧ SameRemote s s' := by
  have hact : act s.store q (.sql .ok []) =
      some ({ s.store with db := db' }, q.after (.ok r)) := by
    simp [act, hstmt, runSql, hexec]
  exact ⟨_, rpcStep_act hq hact, World.at_put_self hq _, rfl, rfl, rfl, rfl⟩

/-- The call up to its inventory request. -/
theorem run_claim (hadm : mayStartSettle s.procs c = true)
    (ho : s.store.db.orders.row c.orderID = some o) (hst : o.status = .pending)
    (hu : ∀ u ∈ c.user, o.userID = u) :
    ∃ s' o', run step s [.spawn (.settle c .load), .act s.procs.next (.sql .ok []),
        .act s.procs.next (.sql .ok [])] = some s' ∧
      s'.At s.procs.next (.settle c (.call o)) ∧
      s'.store.db.orders.row c.orderID = some o' ∧ o'.status = c.kind.transient ∧
      o'.userID = o.userID ∧ SameRemote s s' := by
  have h1 : step s (.spawn (.settle c .load)) =
      some { s with procs := s.procs.insert (.settle c .load) } := rpcStep_spawn hadm
  have hq1 : World.At { s with procs := s.procs.insert (.settle c .load) } s.procs.next
      (.settle c .load) := Table.insert_row_next ..
  obtain ⟨s₂, h2, hq2, hdb2, hsame2⟩ := step_sql hq1 rfl (exec_get_of_row ho hu _ _)
  have hload : Proc.after (.settle c .load) (.ok (.order c.orderID o)) = .settle c (.claim o) := by
    have hne : OrderStatus.pending ≠ c.kind.final := by
      cases c.kind <;> simp [SettleKind.final]
    simp [Proc.after, SettlePc.after, hst, hne]
  rw [hload] at hq2
  rw [← hdb2] at ho
  obtain ⟨db', o', hclaim, hrow, hst', hu'⟩ :=
    exec_claim ho hst hu s₂.store.now [] c.kind.transient
  obtain ⟨s₃, h3, hq3, hdb3, hsame3⟩ := step_sql hq2 rfl hclaim
  exact ⟨s₃, o', by simp [run, h1, h2, h3], hq3, hdb3 ▸ hrow, hst', hu',
    SameRemote.trans ⟨hsame2.remote, hsame2.requests, hsame2.replies⟩ hsame3⟩

/-- The call after its inventory request. -/
theorem run_finalize (hq : s.At p (.settle c .finalize))
    (ho : s.store.db.orders.row c.orderID = some o) (hst : o.status = c.kind.transient)
    (hu : ∀ u ∈ c.user, o.userID = u) :
    ∃ s' o', run step s [.act p (.sql .ok []), .act p (.sql .ok [])] = some s' ∧
      s'.At p (.settle c (.returned (.ok (c.orderID, o')))) ∧
      s'.store.db.orders.row c.orderID = some o' ∧ o'.status = c.kind.final := by
  obtain ⟨db', o', hfin, hrow, hst', hu'⟩ := exec_finalizeSettle ho s.store.now [] c.kind.final
  rw [hst] at hfin
  obtain ⟨s₁, h1, hq1, hdb1, -⟩ := step_sql hq rfl hfin
  rw [← hdb1] at hrow
  obtain ⟨s₂, h2, hq2, hdb2, -⟩ := step_sql hq1 rfl
    (exec_get_of_row hrow (fun u hm => hu'.trans (hu u hm)) _ _)
  exact ⟨s₂, o', by simp [run, h1, h2], hq2, hdb2 ▸ hrow, hst'⟩

/-- **A healthy call settles the order**, if the inventory service can settle its
reservation. -/
theorem run_healthy (hadm : mayStartSettle s.procs c = true)
    (ho : s.store.db.orders.row c.orderID = some o) (hst : o.status = .pending)
    (hu : ∀ u ∈ c.user, o.userID = u) (hid : trimSpace o.reservationID ≠ []) {r : Reservation}
    {inv' : InventorySvc.DB}
    (hserve : (InventorySvc.transition (trimSpace o.reservationID) c.kind.target).exec s.remote =
      .ok (r, inv')) :
    ∃ s' o', run step s (healthy s c) = some s' ∧
      s'.At s.procs.next (.settle c (.returned (.ok (c.orderID, o')))) ∧
      s'.store.db.orders.row c.orderID = some o' ∧ o'.status = c.kind.final := by
  obtain ⟨s₁, o₁, hrun₁, hq₁, ho₁, hst₁, hu₁, hsame⟩ := run_claim hadm ho hst hu
  have hcall : component.call (.settle c (.call o)) =
      some (.settle c.kind.target (trimSpace o.reservationID)) := by
    simp [component, Proc.request, SettlePc.request, settleRequest, hid]
  have hanswer : component.serve s₁.remote (.settle c.kind.target (trimSpace o.reservationID))
      ⟨.none, [], []⟩ = (inv', .ok r) := by
    simp [component, serve, opTx, hsame.remote, hserve]
  obtain ⟨s₂, hrun₂, hq₂, hst₂⟩ := run_call hq₁ hcall hanswer
  rw [hsame.requests, hsame.replies] at hrun₂
  rw [← hst₂] at ho₁
  obtain ⟨s', o', hrun₃, hq', ho', hst'⟩ :=
    run_finalize hq₂ ho₁ hst₁ fun u hm => hu₁.trans (hu u hm)
  exact ⟨s', o', run_append.mpr ⟨s₁, hrun₁, run_append.mpr ⟨s₂, hrun₂, hrun₃⟩⟩, hq', ho', hst'⟩

/-- A fresh call against healthy services returns the order, with this status. -/
def EndsAs (s : State) (c : SettleCall) (st : OrderStatus) : Prop :=
  ∃ s' o, run step s (healthy s c) = some s' ∧
    s'.At s.procs.next (.settle c (.returned (.ok (c.orderID, o)))) ∧
    s'.store.db.orders.row c.orderID = some o ∧ o.status = st

/-- `Pay`. -/
def payCall (userID : Int) (orderID : Nat) : SettleCall := ⟨.pay, false, userID, orderID, none⟩

/-- `TimeoutCancel`. -/
def timeoutCall (orderID : Nat) : SettleCall := ⟨.cancel, true, 0, orderID, none⟩

/-- A pending order with a pending reservation, in columns with room, can be settled. -/
theorem Known.endsAs (hk : Known s) (hadm : mayStartSettle s.procs c = true)
    (ho : s.store.db.orders.row c.orderID = some o) (hst : o.status = .pending)
    (hu : ∀ u ∈ c.user, o.userID = u) {r : Reservation}
    (hr : s.remote.reservationOf c.orderID = some r) (hpend : r.status = .pending)
    (hroom : Room s.remote r) : EndsAs s c c.kind.final := by
  have hn : Named s.store.db c.orderID o.reservationID := ⟨o, ho, rfl⟩
  obtain ⟨htrim, hne⟩ := hk.wired.named_trim hn
  obtain ⟨history, hb⟩ := hk.wired.balanced
  have hfound : s.remote.reservation (trimSpace (trimSpace o.reservationID)) = some r := by
    rw [htrim, htrim, ← hk.wired.resv_of_id hn ⟨r, hr⟩]
    exact hr
  obtain ⟨inv', hserve⟩ := InventorySvc.transition_of_pending hb
    (by rw [htrim, htrim]; exact hne) hfound hpend hroom c.kind.target
  exact run_healthy hadm ho hst hu (by rw [htrim]; exact hne) hserve

/-! ## 5. Pending orders -/

/-- **A pending order can still be paid and cancelled**, in every run in which finalising
transactions are acknowledged, and in which `Pay` and `cancel` take an error from `Confirm` or
`Release` only while the order's reservation is unsettled and no `Confirm` or `Release` of it is
in flight.  Its reservation is `pending`; and if there is room for its stock in the columns of
the inventory tables, a fresh `Pay` by its user ends with the order `paid`, and a fresh
`TimeoutCancel` with the order `cancelled`. -/
theorem pending_settleable {es : List Event} {s : State} (h : run step start es = some s)
    (hC : Meets (fun s e => Acknowledged s e ∧ DefiniteSettle s e) step start es) {i : Nat}
    {o : Order} (ho : s.store.db.orders.row i = some o) (hst : o.status = .pending) :
    ∃ r, s.remote.reservationOf i = some r ∧ r.status = .pending ∧
      (Room s.remote r →
        EndsAs s (payCall o.userID i) .paid ∧ EndsAs s (timeoutCall i) .cancelled) := by
  have hI := run_invariant_of (C := fun s e => Acknowledged s e ∧ DefiniteSettle s e)
    (I := fun t => Known t ∧ Exclusive control statusOf t ∧ Calm t)
    (fun _ _ _ ⟨hk, hE, hc⟩ ⟨hack, hdef⟩ hs =>
      ⟨hk.step hs, exclusive_step hE hack hs, hc.step hk hE hdef hs⟩)
    ⟨known_start, exclusive_init _ _ _ _, calm_start⟩ hC h
  obtain ⟨hk, -, hc⟩ := hI
  have hback := hk.wired.backed i o ho
  rw [hst] at hback
  obtain ⟨r, hr⟩ := hback
  have hpend := (hc.orders i o ho hst).1 r hr
  exact ⟨r, hr, hpend, fun hroom =>
    ⟨hk.endsAs (c := payCall o.userID i) rfl ho hst (by simp [payCall, SettleCall.user]) hr hpend
        hroom,
      hk.endsAs (c := timeoutCall i) rfl ho hst (by simp [timeoutCall, SettleCall.user]) hr hpend
        hroom⟩⟩

end

/-- The call of `Confirm` fails before it reaches the inventory service. -/
def payFailing : List Event :=
  [.spawn (.settle (payCall 1 1) .load), .act 2 (.sql .ok []), .act 2 (.sql .ok []),
    .giveUp 2 (.error (.call [])), .act 2 (.sql .ok [])]

theorem pending_settleable_failing :
    letI := asciiCi
    ∃ s o r, run step start (ordering ++ payFailing) = some s ∧
      s.store.db.orders.row 1 = some o ∧ o.status = .pending ∧
      s.remote.reservationOf 1 = some r ∧ r.status = .pending ∧
      EndsAs s (payCall o.userID 1) .paid ∧ EndsAs s (timeoutCall 1) .cancelled := by
  let _ : Collation := asciiCi
  have h : (run step start (ordering ++ payFailing)).bind (fun s =>
      (s.store.db.orders.row 1).bind fun o => (s.remote.reservationOf 1).map fun r =>
        (o.status, decide (Room s.remote r))) = some (.pending, true) := by decide
  obtain ⟨s, hs, hv⟩ := Option.bind_eq_some_iff.mp h
  obtain ⟨o, ho, hv⟩ := Option.bind_eq_some_iff.mp hv
  obtain ⟨r, hr, hv⟩ := Option.map_eq_some_iff.mp hv
  obtain ⟨hst, hroom⟩ := Prod.mk.inj hv
  obtain ⟨r', hr', hpend, hends⟩ := pending_settleable hs (by decide) ho hst
  obtain rfl := Option.some.inj (hr.symm.trans hr')
  obtain ⟨hpay, hcancel⟩ := hends (of_decide_eq_true hroom)
  exact ⟨s, o, r, hs, ho, hst, hr, hpend, hpay, hcancel⟩

/-- `Confirm` commits, and its answer is lost. -/
def payUnanswered : List Event :=
  [.spawn (.settle (payCall 1 1) .load), .act 2 (.sql .ok []), .act 2 (.sql .ok []), .send 2,
    .serve 1 ⟨.none, [], []⟩, .dropRequest 1, .dropRequest 0, .dropReply 1, .dropReply 0,
    .giveUp 2 (.error (.call [])), .act 2 (.sql .ok [])]

/-- **A pending order can have a confirmed reservation**, with nothing left running.  A fresh
`TimeoutCancel` against healthy services is refused by `Release`, and it ends with the order
`pending` again. -/
theorem pending_but_confirmed :
    letI := asciiCi
    ∃ s o r, run step start (ordering ++ payUnanswered) = some s ∧ AtRest s ∧
      s.store.db.orders.row 1 = some o ∧ o.status = .pending ∧
      s.remote.reservationOf 1 = some r ∧ r.status = .confirmed ∧
      ∃ s' q' o', run step s ((healthy s (timeoutCall 1)).take 7) = some s' ∧
        s'.At s.procs.next q' ∧ isOver q' = true ∧
        s'.store.db.orders.row 1 = some o' ∧ o'.status = .pending := by
  let _ : Collation := asciiCi
  have h : (run step start (ordering ++ payUnanswered)).bind (fun s =>
      (s.store.db.orders.row 1).bind fun o => (s.remote.reservationOf 1).bind fun r =>
        (run step s ((healthy s (timeoutCall 1)).take 7)).bind fun s' =>
          (s'.procs.row s.procs.next).bind fun q' => (s'.store.db.orders.row 1).map fun o' =>
            (((s.procs.search fun q => !isOver q).isNone && s.requests.isEmpty &&
                s.replies.isEmpty),
              o.status, r.status, isOver q', o'.status)) =
      some (true, .pending, .confirmed, true, .pending) := by decide
  obtain ⟨s, hs, hv⟩ := Option.bind_eq_some_iff.mp h
  obtain ⟨o, ho, hv⟩ := Option.bind_eq_some_iff.mp hv
  obtain ⟨r, hr, hv⟩ := Option.bind_eq_some_iff.mp hv
  obtain ⟨s', hs', hv⟩ := Option.bind_eq_some_iff.mp hv
  obtain ⟨q', hq', hv⟩ := Option.bind_eq_some_iff.mp hv
  obtain ⟨o', ho', hv⟩ := Option.map_eq_some_iff.mp hv
  simp only [Prod.mk.injEq] at hv
  obtain ⟨hrest, hpending, hconfirmed, hover, hagain⟩ := hv
  exact ⟨s, o, r, hs, atRest_of_search hrest, ho, hpending, hr, hconfirmed, s', q', o', hs', hq',
    hover, ho', hagain⟩

end OrderSystem.Saga
