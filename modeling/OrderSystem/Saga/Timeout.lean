/-
# Pending orders and their timeouts

An order gets its timeout row when it becomes `pending`, and the row is completed by whatever
settles the order: the finalising transactions of `Pay` and `cancel`, the reconciliation worker,
and a delivery of the timeout whose `TimeoutCancel` answered without error.  The last one is the
weak point: `TimeoutCancel` answers without error for every order that is not `pending`, and
`paying` and `cancelling` orders can become `pending` again.

* `pending_timeout_live` -- if no `TimeoutCancel` called for a delivery looks at its order while
  the order is `paying` or `cancelling`, then a `pending` order has a timeout row that is not
  `completed`.
* `timeout_lost` -- without that, a pending order is left with a completed row.

The invariant (`Live`) follows the timeout through the system: a message, a delivery and a call
are always for an order with a timeout row, and an answer without error is always about an order
that is resolved, which no step undoes (`Resolved.step`).
-/
import OrderSystem.Saga.Agreement
import OrderSystem.Saga.Broker

namespace OrderSystem.Saga

open OrderSystem.Kit
open OrderSystem.OrderSvc

/-! ## 1. Resolved orders -/

/-- The order is waiting for payment, or a call that can put it back is working on it. -/
def IsOpen (st : OrderStatus) : Prop := st = .pending ∨ st = .paying ∨ st = .cancelling

instance (st : OrderStatus) : Decidable (IsOpen st) := inferInstanceAs (Decidable (_ ∨ _))

/-- The order has left `reserving` and will not be `pending` again. -/
def IsResolved (st : OrderStatus) : Prop := st ≠ .reserving ∧ ¬IsOpen st

instance (st : OrderStatus) : Decidable (IsResolved st) := inferInstanceAs (Decidable (_ ∧ _))

/-- The order is resolved. -/
def Resolved (db : DB) (orderID : Nat) : Prop :=
  ∃ o, db.orders.row orderID = some o ∧ IsResolved o.status

theorem isResolved_of_plan {action : Action} {target : OrderStatus} {closes : Bool}
    {t : InventorySvc.Settlement} (h : action.plan = some (target, closes, t)) :
    IsResolved target := by
  cases action with
  | unsupportedFrom st => exact absurd h (by simp [Action.plan])
  | _ =>
    simp only [Action.plan, Option.some.injEq, Prod.mk.injEq] at h
    rw [← h.1]
    decide

theorem isOpen_transient (k : SettleKind) : IsOpen k.transient := by cases k <;> decide

theorem isResolved_final (k : SettleKind) : IsResolved k.final := by cases k <;> decide

section

variable [Collation]

variable {s s' : State} {p i orderID tag : Nat} {q : Proc} {e : Event} {c : SettleCall} {err : Err}
  {pc : SettlePc} {o : Order}

/-- A writer moves an order that was open, or was being reserved, or it resolves the order. -/
theorem writer_resolves (hk : Known s) (hq : s.At p q) {stmt : Stmt} (hw : Writer q stmt)
    {old : Option OrderStatus} {new : OrderStatus} (hch : stmt.change = some (i, old, new)) :
    (∃ id delay, stmt = .finalizeCreate i id delay ∧ old = some .reserving) ∨
      (∃ st, old = some st ∧ IsOpen st) ∨ IsResolved new := by
  have hknow := hk.procs p q hq
  cases hw with
  | createFail c orderID cause | settleCompensate c cause | finish c =>
    simp only [Stmt.change, Option.some.injEq, Prod.mk.injEq] at hch
    exact Or.inr (Or.inr (by rw [← hch.2.2]; decide))
  | createFinalize c orderID id =>
    simp only [Stmt.change, Option.some.injEq, Prod.mk.injEq] at hch
    exact Or.inl ⟨id, _, by rw [hch.1], hch.2.1.symm⟩
  | createCompensate c orderID status reason result =>
    simp only [Stmt.change, Option.some.injEq, Prod.mk.injEq] at hch
    rw [← hch.2.2]
    rcases hknow.2.2 with ⟨rfl, -⟩ | rfl
    · exact Or.inr (Or.inr (by decide))
    · exact Or.inr (Or.inr (by decide))
  | settleClaim c o =>
    simp only [Stmt.change, Option.some.injEq, Prod.mk.injEq] at hch
    exact Or.inr (Or.inl ⟨_, hch.2.1.symm, by decide⟩)
  | settleRevert c cause | settleFinalize c =>
    simp only [Stmt.change, Option.some.injEq, Prod.mk.injEq] at hch
    exact Or.inr (Or.inl ⟨_, hch.2.1.symm, isOpen_transient _⟩)
  | complete cfg task target closes rest =>
    simp only [Stmt.change, Option.some.injEq, Prod.mk.injEq] at hch
    obtain ⟨t, hplan, -⟩ := hknow
    exact Or.inr (Or.inr (hch.2.2 ▸ isResolved_of_plan hplan))

/-- **A resolved order stays resolved.** -/
theorem Resolved.step (h : Resolved s.store.db orderID) (hk : Known s) (hs : step s e = some s') :
    Resolved s'.store.db orderID := by
  obtain ⟨o, ho, hst⟩ := h
  obtain ⟨o', ho', hstep⟩ := order_step hs ho
  refine ⟨o', ho', ?_⟩
  cases hstep with
  | kept => exact hst
  | written p oc locked q stmt r _ old he hq hstmt hw hexec hch =>
    rcases writer_resolves hk hq hw hch.change with
      ⟨-, -, -, rfl⟩ | ⟨st, rfl, hopen⟩ | hres
    · exact absurd (hch.was _ rfl) hst.1
    · exact absurd (hch.was _ rfl ▸ hopen) hst.2
    · exact hres

/-! ## 2. Following a timeout -/

/-- A call of `TimeoutCancel`, for an order with a timeout row. -/
structure IsTimeout (db : DB) (c : SettleCall) : Prop where
  system : c.system = true
  outboxed : Outboxed db c.orderID

/-- What such a call knows. -/
def timeoutPc (db : DB) (orderID : Nat) : SettlePc → Prop
  | .reload => Resolved db orderID
  | .returned r => timeoutResult r = none → Resolved db orderID
  -- what the inventory client reports is no status error
  | .revert cause => timeoutResult (.error cause) ≠ none
  | _ => True

/-- What a process knows about the timeouts of orders. -/
def timeoutOk (db : DB) : Proc → Prop
  | .settle c pc => ∀ tag, c.origin = some tag → IsTimeout db c ∧ timeoutPc db c.orderID pc
  | .publisher _ pc => ∀ event ∈ publishEvents pc, Outboxed db event.2.orderID
  | .delivery d pc => Outboxed db d.orderID ∧ (pc = .complete → Resolved db d.orderID)
  | _ => True

/-- The order has a timeout row that is not completed. -/
def HasTimeout (db : DB) (orderID : Nat) : Prop :=
  ∃ k row, db.outbox.row k = some row ∧ row.orderID = orderID ∧ row.status ≠ .completed

/-- Open orders have a live timeout, and every timeout is for an order that was placed. -/
structure Live (s : State) : Prop where
  orders : ∀ i o, s.store.db.orders.row i = some o → IsOpen o.status → HasTimeout s.store.db i
  procs : ∀ p q, s.At p q → timeoutOk s.store.db q
  errors : ∀ p op err, (p, op, .error err) ∈ s.replies → ∃ message e, err = remoteError op message e
  delayed : ∀ i ∈ s.store.delayQueue, Outboxed s.store.db i
  expired : ∀ i ∈ s.store.cancelQueue, Outboxed s.store.db i
  answered : ∀ tag i, (tag, i, none) ∈ s.store.answers → Resolved s.store.db i

/-- The status that a `TimeoutCancel` for a delivery looks at in a step. -/
def timeoutSees (s : State) : Event → Option OrderStatus
  | .act p (.sql _ _) =>
    match s.procs.row p with
    | some (.settle c .load) =>
      if c.origin.isSome then (s.store.db.orders.row c.orderID).map (·.status) else none
    | some (.settle c (.claim _)) =>
      if c.origin.isSome then (s.store.db.orders.row c.orderID).map (·.status) else none
    | _ => none
  | _ => none

/-- No `TimeoutCancel` for a delivery looks at an order while a call works on it. -/
def TimeoutsSeeSettled (s : State) (e : Event) : Prop :=
  ∀ st ∈ timeoutSees s e, st ≠ .paying ∧ st ≠ .cancelling

instance (s : State) (e : Event) : Decidable (TimeoutsSeeSettled s e) :=
  inferInstanceAs (Decidable (∀ st ∈ timeoutSees s e, _))

theorem timeoutOk_mono (hk : Known s) (hs : step s e = some s') (h : timeoutOk s.store.db q) :
    timeoutOk s'.store.db q := by
  have hev := evolves_step hk (change_of_step hs)
  cases q with
  | settle c pc =>
    intro tag htag
    obtain ⟨hcall, hpc⟩ := h tag htag
    refine ⟨⟨hcall.system, hcall.outboxed.mono hev⟩, ?_⟩
    cases pc with
    | reload => exact Resolved.step hpc hk hs
    | returned r => exact fun hr => (hpc hr).step hk hs
    | revert cause => exact hpc
    | _ => trivial
  | publisher cfg pc => exact fun event hmem => (h event hmem).mono hev
  | delivery d pc => exact ⟨h.1.mono hev, fun hpc => (h.2 hpc).step hk hs⟩
  | _ => trivial

/-! ## 3. What TimeoutCancel answers -/

omit [Collation] in
theorem started_origin {procs : Table Proc} (h : mayStartSettle procs c = true)
    (htag : c.origin = some tag) : c.system = true ∧
      ∃ d pc, procs.row tag = some (.delivery d pc) ∧ d.orderID = c.orderID := by
  simp only [mayStartSettle, htag, Bool.and_eq_true, decide_eq_true_eq] at h
  obtain ⟨-, hsys, hd⟩ := h
  refine ⟨hsys, ?_⟩
  split at hd
  · rename_i d pc hrow
    simp only [Bool.and_eq_true, decide_eq_true_eq] at hd
    exact ⟨d, pc, hrow, hd.1⟩
  · exact absurd hd (by simp)

/-- An order with a timeout row that `TimeoutCancel` finds not pending is resolved. -/
theorem resolved_of_seen (hk : Known s) (hC : TimeoutsSeeSettled s e)
    (hout : Outboxed s.store.db orderID)
    (hsee : ∀ o, s.store.db.orders.row orderID = some o → timeoutSees s e = some o.status ∧
      o.status ≠ .pending) : Resolved s.store.db orderID := by
  obtain ⟨o, ho, hres⟩ := hk.wired.timed orderID hout
  obtain ⟨hseen, hne⟩ := hsee o ho
  obtain ⟨hp, hc⟩ := hC _ hseen
  refine ⟨o, ho, hres, ?_⟩
  rintro (h | h | h)
  · exact hne h
  · exact hp h
  · exact hc h

omit [Collation] in
/-- The error an inventory call ends with is not one `TimeoutCancel` reports as done. -/
theorem timeoutResult_of_error (h : Live s) {op : Option InventoryOp} (he : TakesError s e p op err)
    :
    timeoutResult (.error err) ≠ none := by
  cases he with
  | refused he => simp [timeoutResult]
  | gaveUp op err he hgave => cases err <;> simp_all [timeoutResult, gaveUp]
  | answered op err ha =>
    obtain ⟨message, e', rfl⟩ := h.errors p op err ha.mem
    simp [timeoutResult, remoteError]

omit [Collation] in
/-- What `TimeoutCancel` looks at in its first two statements. -/
theorem timeoutSees_of_at (hq : s.At p (.settle c pc)) (hpc : pc = .load ∨ ∃ o, pc = .claim o)
    (htag : c.origin = some tag) (ho : s.store.db.orders.row c.orderID = some o) (oc : SqlOutcome)
    (locked : List Nat) :
    timeoutSees s (.act p (.sql oc locked)) = some o.status := by
  have hrow : s.procs.row p = some (.settle c pc) := hq
  rcases hpc with rfl | ⟨o', rfl⟩
  · simp [timeoutSees, hrow, htag, ho]
  · simp [timeoutSees, hrow, htag, ho]

/-- A load of `TimeoutCancel` that finds the order not pending found it resolved. -/
theorem resolved_of_unfit (hk : Known s) (hC : TimeoutsSeeSettled s e)
    (hq : s.At p (.settle c .load)) (htag : c.origin = some tag) (hcall : IsTimeout s.store.db c)
    (hok : Committed s e s' p (.get c.user c.orderID) (.order c.orderID o))
    (hst : o.status ≠ .pending) : Resolved s.store.db c.orderID := by
  obtain ⟨ho, -⟩ := hok.loaded
  obtain ⟨locked, rfl, -⟩ := hok.event
  refine resolved_of_seen hk hC hcall.outboxed fun o₁ ho₁ => ?_
  obtain rfl := Option.some.inj (ho.symm.trans ho₁)
  exact ⟨timeoutSees_of_at hq (Or.inl rfl) htag ho .ok locked, hst⟩

/-- A claim of `TimeoutCancel` that ends with a status error found a resolved order. -/
theorem resolved_of_unclaimed (hk : Known s) (hC : TimeoutsSeeSettled s e)
    (hq : s.At p (.settle c (.claim o))) (htag : c.origin = some tag)
    (hcall : IsTimeout s.store.db c)
    (herr : Failed s e s' p (.claim c.user c.orderID c.kind.transient) err)
    (hr : timeoutResult (.error err) = none) : Resolved s.store.db c.orderID := by
  cases herr with
  | lost locked message r he hexec hinv => exact absurd hr (by simp [timeoutResult])
  | noEffect oc locked err he hx hstill =>
    rcases hx with hx | ⟨m, rfl⟩
    · subst he
      refine resolved_of_seen hk hC hcall.outboxed fun o' ho' => ⟨?_, fun hp => ?_⟩
      · exact timeoutSees_of_at hq (Or.inr ⟨o, rfl⟩) htag ho' oc locked
      · exact claim_error hx ho' ⟨hp, by simp [SettleCall.user, hcall.system]⟩
    · exact absurd hr (by simp [timeoutResult])

/-- A load of `TimeoutCancel` does not miss the order. -/
theorem timeoutResult_of_unloaded (hk : Known s) (hcall : IsTimeout s.store.db c)
    (herr : Failed s e s' p (.get c.user c.orderID) err) : timeoutResult (.error err) ≠ none := by
  cases herr with
  | lost locked message r he hexec hinv => simp [timeoutResult]
  | noEffect oc locked err he hx hstill =>
    rcases hx with hx | ⟨m, rfl⟩
    · obtain ⟨o, ho, -⟩ := hk.wired.timed _ hcall.outboxed
      exact absurd (by simp [SettleCall.user, hcall.system]) (get_error hx ho)
    · simp [timeoutResult]

/-- A call of `TimeoutCancel` is for an order with a timeout row. -/
theorem isTimeout_step (h : Live s) (hk : Known s) (hs : step s e = some s')
    (hat : s'.At p (.settle c pc)) (htag : c.origin = some tag) :
    IsTimeout s'.store.db c := by
  have hev := evolves_step hk (change_of_step hs)
  rcases settle_origin hs hat with ⟨pc₀, hq⟩ | hadm
  · obtain ⟨hcall, -⟩ := h.procs p _ hq tag htag
    exact ⟨hcall.system, hcall.outboxed.mono hev⟩
  · obtain ⟨hsys, d, pc, hd, hid⟩ := started_origin hadm htag
    exact ⟨hsys, hid ▸ (h.procs tag _ hd).1.mono hev⟩

/-- What a call of `TimeoutCancel` knows after a step. -/
theorem timeoutPc_step (h : Live s) (hk : Known s) (hC : TimeoutsSeeSettled s e)
    (hs : step s e = some s') (hat : s'.At p (.settle c pc)) (htag : c.origin = some tag) :
    timeoutPc s'.store.db c.orderID pc := by
  cases settle_arrives hs hat with
  | kept pc hq => exact (timeoutOk_mono hk hs (h.procs p _ hq) tag htag).2
  | settledBefore o hq hok hst =>
    obtain ⟨ho', -⟩ := hok.loaded
    have hres : Resolved s.store.db c.orderID := ⟨o, ho', hst ▸ isResolved_final _⟩
    exact fun _ => hres.step hk hs
  | unfit o hq hok hst =>
    obtain ⟨hcall, -⟩ := h.procs p _ hq tag htag
    exact fun _ => (resolved_of_unfit hk hC hq htag hcall hok hst).step hk hs
  | unclaimed o err hq herr =>
    obtain ⟨hcall, -⟩ := h.procs p _ hq tag htag
    exact fun hr => (resolved_of_unclaimed hk hC hq htag hcall herr hr).step hk hs
  | unsettled o op err hq hop herr hstill => exact timeoutResult_of_error h herr
  | reverted cause hq => exact fun hr => absurd hr (h.procs p _ hq tag htag).2
  | finalized r hq hok =>
    obtain ⟨locked, -, hexec⟩ := hok.event
    obtain ⟨o, o', -, hst, hchg⟩ := finalizeSettle_ok hexec
    exact ⟨o', hchg.row, hst ▸ isResolved_final _⟩
  | compensated cause hq => exact fun hr => absurd hr (by simp [timeoutResult])
  | reloaded o hq hok => exact fun _ => Resolved.step (h.procs p _ hq tag htag).2 hk hs
  | unloaded pc err hpc hq herr =>
    obtain ⟨hcall, -⟩ := h.procs p _ hq tag htag
    exact fun hr => absurd hr (timeoutResult_of_unloaded hk hcall herr)
  | _ => trivial

/-- What a process knows about timeouts after a step. -/
theorem timeoutOk_step (h : Live s) (hk : Known s) (hC : TimeoutsSeeSettled s e)
    (hs : step s e = some s') (hat : s'.At p q) : timeoutOk s'.store.db q := by
  have hev := evolves_step hk (change_of_step hs)
  cases q with
  | settle c pc =>
    exact fun tag htag => ⟨isTimeout_step h hk hs hat htag, timeoutPc_step h hk hC hs hat htag⟩
  | publisher cfg pc =>
    intro event hmem
    rcases publisher_events hs hat hmem with ⟨pc₀, hq, hmem₀⟩ | ⟨events, hmem, -, hok⟩
    · exact (h.procs p _ hq event hmem₀).mono hev
    · exact Outboxed.mono ⟨event.1, event.2, hok.events.2 event hmem, rfl⟩ hev
  | delivery d pc =>
    cases delivery_arrives hs hat with
    | kept pc hq => exact timeoutOk_mono hk hs (h.procs p _ hq)
    | started hmem => exact ⟨(h.expired _ hmem).mono hev, fun hpc => absurd hpc (by simp)⟩
    | resolved hq hmem =>
      exact ⟨(h.procs p _ hq).1.mono hev, fun _ => (h.answered _ _ hmem).step hk hs⟩
    | moved pc₀ pc hq hpc => exact ⟨(h.procs p _ hq).1.mono hev, fun hc => absurd hc hpc⟩
  | _ => trivial

/-! ## 4. Completed rows -/

omit [Collation] in
theorem delivery_of_stmt (h : q.stmt = some (.completeOutbox orderID)) :
    ∃ d, q = .delivery d .complete ∧ d.orderID = orderID := by
  cases q with
  | delivery d pc =>
    cases pc with
    | complete =>
      simp only [Proc.stmt, DeliveryPc.stmt, Option.some.injEq, Stmt.completeOutbox.injEq] at h
      exact ⟨d, rfl, h⟩
    | _ => exact absurd h (by simp [Proc.stmt, DeliveryPc.stmt])
  | create c pc => cases pc <;> exact absurd h (by simp [Proc.stmt, CreatePc.stmt])
  | settle c pc => cases pc <;> exact absurd h (by simp [Proc.stmt, SettlePc.stmt])
  | finish c pc => cases pc <;> exact absurd h (by simp [Proc.stmt, FinishPc.stmt])
  | recon cfg pc => cases pc <;> exact absurd h (by simp [Proc.stmt, ReconPc.stmt])
  | publisher cfg pc => cases pc <;> exact absurd h (by simp [Proc.stmt, PublishPc.stmt])

/-- **A timeout row is completed for a resolved order only.** -/
theorem resolved_of_closes (h : Live s) (hk : Known s) (hs : step s e = some s') (hq : s.At p q)
    {stmt : Stmt} (hstmt : q.stmt = some stmt) {locked : List Nat} {r : Res}
    (hexec : stmt.exec s.store.now locked s.store.db = .ok (r, s'.store.db))
    (hcl : stmt.closes = some orderID) : Resolved s'.store.db orderID := by
  unfold Stmt.closes at hcl
  split at hcl
  · obtain rfl := Option.some.inj hcl
    obtain ⟨o, o', -, hst, hchg⟩ := finalizeSettle_ok hexec
    cases writer_of_change hstmt rfl with
    | settleFinalize c => exact ⟨o', hchg.row, hst ▸ isResolved_final _⟩
  · obtain rfl := Option.some.inj hcl
    cases writer_of_change hstmt rfl with
    | complete cfg task target closes rest =>
      obtain ⟨t, hplan, -⟩ := hk.procs p _ hq
      obtain ⟨-, db₁, _, hrow, hdb, -⟩ := completeTask_ok hexec
      rcases hrow with ⟨rfl, o, ho, hst⟩ | ⟨-, o, o', -, hst, -, hchg⟩
      · exact ⟨o, hdb ▸ ho, hst ▸ isResolved_of_plan hplan⟩
      · exact ⟨o', hdb ▸ hchg.row, hst ▸ isResolved_of_plan hplan⟩
  · obtain rfl := Option.some.inj hcl
    obtain ⟨d, rfl, rfl⟩ := delivery_of_stmt hstmt
    exact ((h.procs p _ hq).2 rfl).step hk hs
  · exact absurd hcl (by simp)

/-- A live timeout stays live while its order is open. -/
theorem HasTimeout.step (h : Live s) (hk : Known s) (hs : step s e = some s')
    (ho : s'.store.db.orders.row i = some o) (hopen : IsOpen o.status)
    (ht : HasTimeout s.store.db i) : HasTimeout s'.store.db i := by
  cases db_step hs with
  | none hdb => exact hdb ▸ ht
  | sql p oc locked q stmt r he hq hstmt hexec =>
    obtain ⟨k, row, hrow, hid, hlive⟩ := ht
    obtain ⟨row', hrow', hid', hst⟩ := (exec_outbox hexec).keeps k row hrow
    refine ⟨k, row', hrow', hid'.trans hid, fun hc => ?_⟩
    rcases hst hc with hc₀ | hcl
    · exact hlive hc₀
    · obtain ⟨o', ho', hres⟩ := resolved_of_closes h hk hs hq hstmt hexec hcl
      rw [hid] at ho'
      obtain rfl := Option.some.inj (ho.symm.trans ho')
      exact hres.2 hopen

/-- An open order has a live timeout after a step. -/
theorem hasTimeout_step (h : Live s) (hk : Known s) (hs : step s e = some s')
    (ho : s'.store.db.orders.row i = some o) (hopen : IsOpen o.status) :
    HasTimeout s'.store.db i := by
  rcases order_origin hs ho with ⟨x, hx, hstep⟩ | ⟨p, c, draft, items, hacc, -, rfl⟩
  · cases hstep with
    | kept => exact (h.orders i o hx hopen).step h hk hs ho hopen
    | written p oc locked q stmt r _ old he hq hstmt hw hexec hch =>
      rcases writer_resolves hk hq hw hch.change with
        ⟨id, delay, rfl, -⟩ | ⟨st, rfl, hold⟩ | hres
      · -- the order has just been placed, with a new row
        obtain ⟨-, -, ⟨row, hrow, hout⟩, -⟩ := finalizeCreate_ok hexec
        exact ⟨_, row, by rw [hout]; exact Table.insert_row_next .., by rw [hrow],
          by simp [hrow]⟩
      · exact (h.orders i x hx (hch.was st rfl ▸ hold)).step h hk hs ho hopen
      · exact absurd hopen hres.2
  · exact absurd hopen (by simp [OrderDraft.row, IsOpen])

theorem Live.step (h : Live s) (hk : Known s) (hC : TimeoutsSeeSettled s e)
    (hs : step s e = some s') : Live s' := by
  have hev := evolves_step hk (change_of_step hs)
  have hb := brokered_step hs
  refine ⟨fun i o ho hopen => hasTimeout_step h hk hs ho hopen,
    fun p q hat => timeoutOk_step h hk hC hs hat, fun p op err ha => ?_, fun i hi => ?_,
    fun i hi => ?_, fun tag i ha => ?_⟩
  · rcases reply_origin hs ha with ha | ⟨-, -, ⟨m, err', herr⟩ | ⟨r, generated, herr, -⟩⟩
    · exact h.errors p op err ha
    · exact ⟨m, err', Except.error.inj herr⟩
    · exact absurd herr (by simp)
  · rcases hb.delayed i hi with hi | ⟨p, cfg, event, rest, hq, rfl⟩
    · exact (h.delayed i hi).mono hev
    · exact (h.procs p _ hq event List.mem_cons_self).mono hev
  · rcases hb.expired i hi with hi | hi
    · exact (h.expired i hi).mono hev
    · exact (h.delayed i hi).mono hev
  · rcases hb.answers _ ha with ha | ⟨p, c, tag', r, hq, htag, heq⟩
    · exact (h.answered tag i ha).step hk hs
    · obtain ⟨-, hid, hr⟩ := by simpa using heq
      obtain ⟨-, hres⟩ := h.procs p _ hq tag' htag
      exact hid ▸ (hres hr.symm).step hk hs

omit [Collation] in
theorem live_start : Live start where
  orders i o h := absurd h (by simp [start, World.init, DB.empty])
  procs p q h := absurd h (by simp [World.At, World.init, start])
  errors p op err h := absurd h (by simp [World.init, start])
  delayed i h := absurd h (by simp [World.init, start])
  expired i h := absurd h (by simp [World.init, start])
  answered tag i h := absurd h (by simp [World.init, start])

/-! ## 5. Pending orders -/

/-- **A pending order has a live timeout**: one timeout row, which is not `completed`, in every
run in which no `TimeoutCancel` for a delivery runs its load or its claim while the order is
`paying` or `cancelling`. -/
theorem pending_timeout_live {es : List Event} {s : State} (h : run step start es = some s)
    (hC : Meets TimeoutsSeeSettled step start es) {i : Nat} {o : Order}
    (ho : s.store.db.orders.row i = some o) (hst : o.status = .pending) :
    ∃ k row, s.store.db.outbox.row k = some row ∧ row.orderID = i ∧ row.status ≠ .completed ∧
      ∀ k' row', s.store.db.outbox.row k' = some row' → row'.orderID = i → k' = k := by
  have hI := run_invariant_of (C := TimeoutsSeeSettled) (I := fun t => Known t ∧ Live t)
    (fun _ _ _ ⟨hk, hl⟩ hc hs => ⟨hk.step hs, hl.step hk hc hs⟩) ⟨known_start, live_start⟩ hC h
  obtain ⟨k, row, hrow, hid, hlive⟩ := hI.2.orders i o ho (Or.inl hst)
  exact ⟨k, row, hrow, hid, hlive, fun k' row' hrow' hid' =>
    hI.1.wired.timeouts k' k row' row hrow' hrow (hid'.trans hid.symm)⟩

end

/-- The timeout of the order is published and expires. -/
def expiring : List Event :=
  [.spawn (.publisher ⟨[0x77], 60, 5, 10⟩ .idle), .act 2 .poll, .act 2 (.sql .ok []),
    .act 2 (.publish ⟨true, none⟩), .act 2 (.sql .ok []), .env (.expire 0)]

/-- The delivery of the timeout is answered with an error of `Release`. -/
def timeoutFailing : List Event :=
  [.spawn (.delivery ⟨3, 1⟩ .call), .spawn (.settle ⟨.cancel, true, 0, 1, some 3⟩ .load),
    .act 4 (.sql .ok []), .act 4 (.sql .ok []), .giveUp 4 (.error (.call [])),
    .act 4 (.sql .ok []), .act 4 .respond, .act 3 (.answered 0), .act 3 (.sql .ok [])]

theorem pending_timeout_live_failing :
    letI := asciiCi
    ∃ s o k row, run step start (ordering ++ expiring ++ timeoutFailing) = some s ∧
      s.store.db.orders.row 1 = some o ∧ o.status = .pending ∧
      s.store.db.outbox.row k = some row ∧ row.orderID = 1 ∧ row.status ≠ .completed := by
  let _ : Collation := asciiCi
  have h : (run step start (ordering ++ expiring ++ timeoutFailing)).bind
      (fun s => (s.store.db.orders.row 1).map (·.status)) = some .pending := by decide
  obtain ⟨s, hs, hv⟩ := Option.bind_eq_some_iff.mp h
  obtain ⟨o, ho, hst⟩ := Option.map_eq_some_iff.mp hv
  obtain ⟨k, row, hrow, hid, hlive, -⟩ := pending_timeout_live hs (by decide) ho hst
  exact ⟨s, o, k, row, hs, ho, hst, hrow, hid, hlive⟩

/-- While `Pay` has claimed the order, the delivery of its timeout is answered without error.
Then the call of `Confirm` fails. -/
def timeoutIgnored : List Event :=
  [.spawn (.settle ⟨.pay, false, 1, 1, none⟩ .load), .act 3 (.sql .ok []), .act 3 (.sql .ok []),
    .spawn (.delivery ⟨4, 1⟩ .call), .spawn (.settle ⟨.cancel, true, 0, 1, some 4⟩ .load),
    .act 5 (.sql .ok []), .act 5 .respond, .act 4 (.answered 0), .act 4 (.sql .ok []),
    .act 4 (.ack false), .giveUp 3 (.error (.call [])), .act 3 (.sql .ok [])]

/-- **A pending order can lose its timeout**: the order is `pending`, its row is `completed`, and
there is no message left. -/
theorem timeout_lost :
    letI := asciiCi
    ∃ s o row, run step start (ordering ++ expiring ++ timeoutIgnored) = some s ∧
      s.store.db.orders.row 1 = some o ∧ o.status = .pending ∧
      s.store.db.outbox.row 1 = some row ∧ row.orderID = 1 ∧ row.status = .completed ∧
      s.store.delayQueue = [] ∧ s.store.cancelQueue = [] := by
  let _ : Collation := asciiCi
  have h : (run step start (ordering ++ expiring ++ timeoutIgnored)).bind
      (fun s => (s.store.db.orders.row 1).bind fun o => (s.store.db.outbox.row 1).map fun row =>
        (o.status, row.orderID, row.status, s.store.delayQueue, s.store.cancelQueue)) =
      some (.pending, 1, .completed, [], []) := by decide
  obtain ⟨s, hs, hv⟩ := Option.bind_eq_some_iff.mp h
  obtain ⟨o, ho, hv⟩ := Option.bind_eq_some_iff.mp hv
  obtain ⟨row, hrow, hv⟩ := Option.map_eq_some_iff.mp hv
  simp only [Prod.mk.injEq] at hv
  obtain ⟨hpending, hid, hcompleted, hdelay, hcancel⟩ := hv
  exact ⟨s, o, row, hs, ho, hpending, hrow, hid, hcompleted, hdelay, hcancel⟩

end OrderSystem.Saga
