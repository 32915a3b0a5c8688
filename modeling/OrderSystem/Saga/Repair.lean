/-
# Reconciliation does not fight the reservation

The trigger picks the action of a task from the status the order had, and the worker asks the
inventory service for what the action says.  Whether that can be done depends on the reservation,
about which the trigger knows nothing.  It can be done, because of where the two writes of
`reconciliation_required` are:

* `cancel` and `Pay` write it after their `Release` or `Confirm` has succeeded, so the
  reservation is already what `finalize_cancel` or `finalize_payment` asks for;
* `Create` writes it before the order was ever `pending`, so nobody has asked to confirm its
  reservation, and nobody will: `Confirm` is asked for placed orders only (`Offered`).

`repair_accepted` is the result: from the moment a worker is at the inventory call of a task, the
reservation it asks for exists, is the order's, and is pending or already what is asked for,
whenever the request is handled.
-/
import OrderSystem.Saga.Creation
import OrderSystem.Saga.Reconciliation

namespace OrderSystem.Saga

open OrderSystem.Kit
open OrderSystem.OrderSvc
open OrderSystem.InventorySvc (Reservation ReservationStatus Settlement)

/-- Only one action confirms. -/
theorem payment_of_plan {action : Action} {target : OrderStatus} {closes : Bool}
    (h : action.plan = some (target, closes, .confirm)) : action = .finalizePayment := by
  cases action with
  | finalizePayment => rfl
  | _ => exact absurd h (by simp [Action.plan])

section

variable [Collation]

/-! ## 1. Confirm is for placed orders -/

/-- The order a call of `cancel` or `Pay` has found pending. -/
def claimedOrder : Proc → Option Nat
  | .settle c (.claim _) => some c.orderID
  | .settle c (.call _) => some c.orderID
  | _ => none

/-- Only orders that have been `pending` are confirmed. -/
structure Offered (s : State) : Prop where
  calls : ∀ p q i, s.At p q → claimedOrder q = some i → Outboxed s.store.db i
  requests : ∀ p id, (p, .settle .confirm id) ∈ s.requests →
    ∃ i, Named s.store.db i id ∧ Reserved s.remote i ∧ Outboxed s.store.db i
  confirmed : ∀ i, SettledAs s.remote i .confirm → Outboxed s.store.db i

variable {s s' : State} {e : Event} {p i : Nat} {q : Proc} {es : List Event}

/-- A call has found a placed order. -/
theorem Offered.calls_step (h : Offered s) (hk : Known s) (ht : Timed s) (hs : step s e = some s')
    (hq : s'.At p q) (hi : claimedOrder q = some i) : Outboxed s'.store.db i := by
  have hev := evolves_step hk (change_of_step hs)
  cases q with
  | settle c pc =>
    cases settle_arrives hs hq with
    | kept pc hq₀ => exact (h.calls p _ i hq₀ hi).mono hev
    | loaded o hq₀ hok hst =>
      obtain ⟨hrow, -⟩ := hok.loaded
      obtain rfl := Option.some.inj hi
      exact (ht.orders _ o hrow (by rw [hst]; decide)).mono hev
    | claimed o r hq₀ hok => exact (h.calls p _ i hq₀ hi).mono hev
    | _ => exact absurd hi (by simp [claimedOrder])
  | _ => exact absurd hi (by simp [claimedOrder])

/-- A process asks to confirm the reservation of a placed order. -/
theorem Offered.request_sent (h : Offered s) (hk : Known s) (ht : Timed s) (hq : s.At p q)
    {id : GoString} (hcall : q.request.join = some (.settle .confirm id)) :
    ∃ i, Named s.store.db i id ∧ Reserved s.remote i ∧ Outboxed s.store.db i := by
  obtain ⟨i, hset, hn, hres⟩ := settling_of_request hk.wired (hk.procs p q hq) hcall
  refine ⟨i, hn, hres, ?_⟩
  have hreq : q.request = some (some (.settle .confirm id)) := Option.join_eq_some_iff.mp hcall
  cases q with
  | create c pc =>
    cases pc with
    | release orderID id' cause =>
      exact absurd (settleRequest_some (Option.some.inj hreq)) (by simp)
    | _ => exact absurd hset (by simp [settling])
  | settle c pc =>
    cases pc with
    | call o => exact h.calls p _ i hq hset
    | _ => exact absurd hset (by simp [settling])
  | recon cfg pc =>
    cases pc with
    | call task o rest =>
      obtain rfl := Option.some.inj hset
      simp only [Proc.request, ReconPc.request] at hreq
      obtain ⟨⟨target, closes, op⟩, hplan, hset⟩ := Option.map_eq_some_iff.mp hreq
      obtain ⟨hop, -⟩ := InventoryOp.settle.inj (settleRequest_some hset)
      obtain rfl : op = .confirm := hop.symm
      exact ht.procs p _ hq task List.mem_cons_self (Or.inr (payment_of_plan hplan))
    | _ => exact absurd hset (by simp [settling])
  | _ => exact absurd hset (by simp [settling])

theorem Offered.step (h : Offered s) (hk : Known s) (ht : Timed s) (hs : step s e = some s') :
    Offered s' := by
  have hev := evolves_step hk (change_of_step hs)
  refine ⟨fun p q i hq hi => h.calls_step hk ht hs hq hi, fun p id hm => ?_, fun i hset => ?_⟩
  · have hold : ∃ i, Named s.store.db i id ∧ Reserved s.remote i ∧ Outboxed s.store.db i := by
      rcases origin_of_request hs hm with hm | ⟨q, -, hq, hcall⟩
      · exact h.requests p id hm
      · exact h.request_sent hk ht hq hcall
    obtain ⟨i, hn, hres, hout⟩ := hold
    exact ⟨i, hn.mono hev, hres.persists hev.inventory, hout.mono hev⟩
  · obtain ⟨r', hr', hst⟩ := hset
    obtain ⟨w, hw, ho⟩ := (hk.step hs).wired.indexed.reservationOf.mp hr'
    rcases settled_origin hs hw (by rw [hst]; exact Settlement.status_ne_pending _) with
      hw₀ | ⟨p, t, id, hreq, rfl, ht'⟩
    · exact (h.confirmed i ⟨r', hk.wired.indexed.reservationOf.mpr ⟨w, hw₀, ho⟩, hst⟩).mono hev
    · -- a request that was in flight has confirmed it, and that request was for this order
      have hconf : t = .confirm := by
        cases t with
        | confirm => rfl
        | release => exact absurd (ht'.symm.trans hst) (by decide)
      subst hconf
      obtain ⟨j, hn, hres, hout⟩ := h.requests p id hreq
      obtain ⟨r, hr, hj⟩ := hk.wired.reservation_named hn hres
      obtain ⟨r₁, hr₁, -, hord, -⟩ := hev.inventory.reservations _ r hr
      obtain rfl := Option.some.inj (hw.symm.trans hr₁)
      obtain rfl : j = i := Int.ofNat.inj (hj.symm.trans (hord.symm.trans ho))
      exact hout.mono hev

theorem offered_start : Offered start where
  calls p q i hq := absurd hq (by simp [start, World.At, World.init])
  requests p id hm := absurd hm (by simp [start, World.init])
  confirmed i hset := by
    obtain ⟨r, hr, -⟩ := hset
    have hnone : resv start.remote i = none := rfl
    exact absurd (hr.symm.trans hnone) (by simp)

/-! ## 2. What a task can rely on -/

/-- What the action of a task promises about the reservation of its order. -/
def Promised (s : State) (orderID : Nat) : Action → Prop
  | .finalizeCancel => SettledAs s.remote orderID .release
  | .finalizePayment => SettledAs s.remote orderID .confirm
  | .releaseInventoryAndFail => Reserved s.remote orderID ∧ ¬Outboxed s.store.db orderID
  | .unsupportedFrom _ => True

/-- Every task can rely on its promise, and a call that is about to make one has done what it
promises. -/
structure Promises (s : State) : Prop where
  tasks : ∀ k t, s.store.db.tasks.row k = some t → Promised s t.orderID t.action
  settled : ∀ p c cause, s.At p (.settle c (.compensate cause)) →
    SettledAs s.remote c.orderID c.kind.target

/-- A timeout row comes with a step only if the step moves the order from `reserving` to
`pending`. -/
theorem outboxed_origin (hs : step s e = some s') (h : Outboxed s'.store.db i) :
    Outboxed s.store.db i ∨
      ∃ o o', s.store.db.orders.row i = some o ∧ o.status = .reserving ∧
        s'.store.db.orders.row i = some o' ∧ o'.status = .pending := by
  obtain ⟨k, row, hrow, rfl⟩ := h
  cases db_step hs with
  | none hdb => exact Or.inl ⟨k, row, hdb ▸ hrow, rfl⟩
  | sql p _ locked q stmt r he hq hstmt hexec =>
    rcases (exec_outbox hexec).adds k row hrow with ⟨row₀, hrow₀, hid⟩ | ⟨-, ⟨id, delay, rfl⟩, -⟩
    · exact Or.inl ⟨k, row₀, hrow₀, hid⟩
    · obtain ⟨-, ⟨x, x', hst, hst', -, hchg⟩, -⟩ := finalizeCreate_ok hexec
      exact Or.inr ⟨x, x', hchg.before, hst, hchg.row, hst'⟩

/-- What a new task promises is so. -/
theorem promised_of_enters (h : Promises s) (hk : Known s) (hq : s.At p q) {o : Order}
    (ho : s.store.db.orders.row i = some o) (hent : Enters q i o.status) :
    Promised s i (taskFor o.status).1 := by
  generalize hst : o.status = st at hent
  cases hent with
  | create c orderID reason result =>
    refine ⟨(hk.procs p _ hq).2.1, fun hout => ?_⟩
    obtain ⟨o', ho', hne⟩ := hk.wired.timed i hout
    obtain rfl := Option.some.inj (ho.symm.trans ho')
    exact hne hst
  | settle c cause =>
    have hset := h.settled p c cause hq
    cases hkind : c.kind with
    | cancel | pay =>
      rw [hkind] at hset
      exact hset

/-- A promise is kept if the order does not get its timeout row. -/
theorem Promised.mono {action : Action} (h : Promised s i action)
    (hev : Evolves s.store.db s'.store.db s.remote s'.remote)
    (hout : Outboxed s'.store.db i → Outboxed s.store.db i) : Promised s' i action := by
  cases action with
  | finalizeCancel => exact SettledAs.persists h hev.inventory
  | finalizePayment => exact SettledAs.persists h hev.inventory
  | releaseInventoryAndFail => exact ⟨h.1.persists hev.inventory, fun ho => h.2 (hout ho)⟩
  | unsupportedFrom st => trivial

theorem Promises.step (h : Promises s) (hr : Repairs es s) (hk : Known s)
    (hE : Exclusive control statusOf s) (hs : step s e = some s') : Promises s' := by
  have hev := evolves_step hk (change_of_step hs)
  refine ⟨fun k t' ht' => ?_, fun p c cause hq => ?_⟩
  · rcases task_origin hk hE hs ht' with
      ⟨t, ht, hid, hact⟩ | ⟨-, -, -, p, q, o, o', hq, ho, hent, ho', hst', hact⟩
    · rw [hid, hact]
      refine (h.tasks k t ht).mono hev fun hout => ?_
      rcases outboxed_origin hs hout with hout | ⟨o, o', ho, hst, -, -⟩
      · exact hout
      · exact (hr.no_task ht ho (Or.inl hst)).elim
    · rw [hact]
      refine (promised_of_enters h hk hq ho hent).mono hev fun hout => ?_
      rcases outboxed_origin hs hout with hout | ⟨o₁, o₂, -, -, ho₂, hst₂⟩
      · exact hout
      · obtain rfl := Option.some.inj (ho'.symm.trans ho₂)
        exact absurd (hst'.symm.trans hst₂) (by simp)
  · cases settle_arrives hs hq with
    | kept pc hq₀ => exact (h.settled p c cause hq₀).persists hev.inventory
    | unfinalized err hq₀ herr => exact SettledAs.persists (hk.procs p _ hq₀) hev.inventory

theorem promises_start : Promises start where
  tasks k t ht := absurd ht (by simp [start, World.init, DB.empty])
  settled p c cause hq := absurd hq (by simp [start, World.At, World.init])

/-! ## 3. The request of a worker -/

theorem task_kept_run (h : run step s es = some s') {k : Nat} {t : ReconciliationTask}
    (ht : s.store.db.tasks.row k = some t) :
    ∃ t', s'.store.db.tasks.row k = some t' ∧ t'.orderID = t.orderID ∧ t'.action = t.action := by
  refine run_invariant (I := fun u => ∃ t', u.store.db.tasks.row k = some t' ∧
    t'.orderID = t.orderID ∧ t'.action = t.action) ?_ ⟨t, ht, rfl, rfl⟩ h
  rintro u e u' ⟨t₁, ht₁, hid, hact⟩ hs
  obtain ⟨t', ht', hid', hact'⟩ := task_kept hs ht₁
  exact ⟨t', ht', hid'.trans hid, hact'.trans hact⟩

/-- Every task has an action that the workers know. -/
theorem LeftFrom.plan {t : ReconciliationTask} (h : LeftFrom es t) :
    ∃ plan, t.action.plan = some plan := by
  obtain ⟨-, -, -, -, -, o, -, -, -, -, -, htr, -, -, hact⟩ := h
  rw [hact]
  rcases htr with hst | hst | hst
  · rw [hst]
    exact ⟨_, rfl⟩
  · rw [hst]
    exact ⟨_, rfl⟩
  · rw [hst]
    exact ⟨_, rfl⟩

/-- All of it, in every run whose finalising transactions are acknowledged. -/
theorem promises_run (h : run step start es = some s) (hC : Meets Acknowledged step start es) :
    Known s ∧ Repairs es s ∧ Offered s ∧ Promises s := by
  have hI := run_history_of (C := Acknowledged)
    (I := fun es s => Known s ∧ Exclusive control statusOf s ∧ Repairs es s ∧ Timed s ∧
      Offered s ∧ Promises s)
    (by
      rintro es u e u' hrun ⟨hk, hE, hr, ht, ho, hp⟩ hc hs
      exact ⟨hk.step hs, exclusive_step hE hc hs, hr.step hrun hk hE hs, ht.step hk hs,
        ho.step hk ht hs, hp.step hr hk hE hs⟩)
    ⟨known_start, exclusive_init _ _ _ _, repairs_start, timed_start, offered_start,
      promises_start⟩ hC h
  exact ⟨hI.1, hI.2.2.1, hI.2.2.2.2.1, hI.2.2.2.2.2⟩

/-- A promise means that the reservation can be settled as the action says. -/
theorem Promised.settleable (ho : Offered s) {action : Action} (h : Promised s i action)
    {target : OrderStatus} {closes : Bool} {t : Settlement}
    (hplan : action.plan = some (target, closes, t)) :
    ∃ r, resv s.remote i = some r ∧ (r.status = .pending ∨ r.status = t.status) := by
  cases action with
  | finalizeCancel | finalizePayment =>
    obtain ⟨r, hr, hst⟩ := h
    simp only [Action.plan, Option.some.injEq, Prod.mk.injEq] at hplan
    exact ⟨r, hr, Or.inr (hplan.2.2 ▸ hst)⟩
  | releaseInventoryAndFail =>
    obtain ⟨⟨r, hr⟩, hout⟩ := h
    simp only [Action.plan, Option.some.injEq, Prod.mk.injEq] at hplan
    refine ⟨r, hr, ?_⟩
    -- it is not confirmed, because the order was never placed
    cases hst : r.status with
    | pending => exact Or.inl rfl
    | confirmed => exact absurd (ho.confirmed i ⟨r, hr, hst⟩) hout
    | released => exact Or.inr (by rw [← hplan.2.2]; rfl)
  | unsupportedFrom st => exact absurd hplan (by simp [Action.plan])

/-- **Reconciliation does not fight the reservation.**  When a worker is at the inventory call of
a task, then at every later point the reservation it asks to settle exists, is the reservation of
the task's order, and is pending or already settled as the action asks; so the inventory service
does not refuse the request as an invalid transition, nor as one of an unknown reservation. -/
theorem repair_accepted {es es' : List Event} {s s' : State} (h : run step start es = some s)
    (hC : Meets Acknowledged step start es) (h' : run step s es' = some s')
    (hC' : Meets Acknowledged step s es') {p : Nat} {cfg : ReconciliationWorkerConfig} {k : Nat}
    {t : ReconciliationTask} {o : Order} {rest : List ClaimedTask}
    (hq : s.At p (.recon cfg (.call (k, t) o rest))) :
    ∃ target closes op, t.action.plan = some (target, closes, op) ∧
      (Proc.recon cfg (.call (k, t) o rest)).request =
        some (some (.settle op o.reservationID)) ∧
      (∃ r, s'.remote.reservation o.reservationID = some r ∧ r.orderID = t.orderID ∧
        (r.status = .pending ∨ r.status = op.status)) ∧
      ∀ generated err, (opTx generated s'.remote (.settle op o.reservationID)).exec s'.remote =
        .error err → err ≠ .reservationTransition ∧ err ≠ .reservationNotFound := by
  obtain ⟨hk, hr, -, -⟩ := promises_run h hC
  obtain ⟨hk', -, ho', hp'⟩ :=
    promises_run (run_append.mpr ⟨s, h, h'⟩) ((meets_append h).mpr ⟨hC, hC'⟩)
  obtain ⟨t₁, ht₁, hid₁, hact₁⟩ := hr.hand p cfg _ k t hq List.mem_cons_self
  obtain ⟨⟨target, closes, op⟩, hplan⟩ := (hr.left k t₁ ht₁).plan
  rw [hact₁] at hplan
  -- the promise of the task, at the later point
  obtain ⟨t₂, ht₂, hid₂, hact₂⟩ := task_kept_run h' ht₁
  have hprom : Promised s' t.orderID t.action := by
    rw [← hid₁, ← hid₂, ← hact₁, ← hact₂]
    exact hp'.tasks k t₂ ht₂
  obtain ⟨r, hres, hst⟩ := hprom.settleable ho' hplan
  have hnamed : Named s'.store.db t.orderID o.reservationID :=
    (hk.procs p _ hq).1.mono (evolves_run hk h')
  obtain ⟨htrim, hne⟩ := hk'.wired.named_trim hnamed
  have hr : s'.remote.reservation o.reservationID = some r := by
    rw [← hk'.wired.resv_of_id hnamed ⟨r, hres⟩, hres]
  obtain ⟨-, -, hord⟩ := hk'.wired.indexed.reservationOf.mp hres
  refine ⟨target, closes, op, hplan, ?_, ⟨r, hr, hord, hst⟩, fun generated err herr => ?_⟩
  · simp only [Proc.request, ReconPc.request, hplan, Option.map_some, settleRequest, htrim,
      if_neg hne]
  · obtain ⟨H, hb⟩ := hk'.wired.balanced
    cases InventorySvc.transition_refused hb herr with
    | storage => exact ⟨by simp, by simp⟩
    | unknown hnone =>
      rw [htrim, hr] at hnone
      exact absurd hnone (by simp [hne])
    | settled r' hr' hpend hother =>
      rw [htrim, hr] at hr'
      obtain rfl := Option.some.inj hr'
      exact absurd hst (by simp [hpend, hother])

end

/-- A worker takes the task of the payment and loads the order. -/
def repairLoaded : List Event :=
  [.spawn (.recon ⟨[0x77], 5, 50, 60, 10⟩ .idle), .act 3 .poll, .act 3 (.sql .ok []),
    .act 3 (.sql .ok [])]

/-- It sends its request, and does not wait for the answer. -/
def repairSent : List Event := [.send 3, .giveUp 3 (.error (.call []))]

/-- The process is at the inventory call of a task. -/
def isRepairCall : Proc → Bool
  | .recon _ (.call _ _ _) => true
  | _ => false

theorem recon_of_isRepairCall {q : Proc} (h : isRepairCall q = true) :
    ∃ cfg k t o rest, q = .recon cfg (.call (k, t) o rest) := by
  unfold isRepairCall at h
  split at h
  · exact ⟨_, _, _, _, _, rfl⟩
  · exact absurd h (by simp)

theorem repair_accepted_sent :
    letI := asciiCi
    ∃ s s' cfg k t o rest, run step start (ordering ++ payReconciled ++ repairLoaded) = some s ∧
      run step s repairSent = some s' ∧ s.At 3 (.recon cfg (.call (k, t) o rest)) ∧
      ∃ r, s'.remote.reservation o.reservationID = some r ∧ r.orderID = t.orderID := by
  let _ : Collation := asciiCi
  have h : (run step start (ordering ++ payReconciled ++ repairLoaded)).bind (fun s =>
      (s.procs.row 3).bind fun q => (run step s repairSent).map fun _ => isRepairCall q) =
      some true := by decide
  obtain ⟨s, hs, hv⟩ := Option.bind_eq_some_iff.mp h
  obtain ⟨q, hq, hv⟩ := Option.bind_eq_some_iff.mp hv
  obtain ⟨s', hs', hcall⟩ := Option.map_eq_some_iff.mp hv
  obtain ⟨cfg, k, t, o, rest, rfl⟩ := recon_of_isRepairCall hcall
  have hC : Meets Acknowledged step start
      (ordering ++ payReconciled ++ repairLoaded ++ repairSent) := by decide
  obtain ⟨hC₁, hC₂⟩ := (meets_append hs).mp hC
  obtain ⟨-, -, -, -, -, ⟨r, hr, hord, -⟩, -⟩ := repair_accepted hs hC₁ hs' hC₂ hq
  exact ⟨s, s', cfg, k, t, o, rest, hs, hs', hq, r, hr, hord⟩

end OrderSystem.Saga
