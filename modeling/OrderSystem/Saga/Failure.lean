/-
# A failed order holds no stock

`Create` writes `failed` in two places.  After a failed finalising transaction it first releases
the reservation, and writes `failed` only if that succeeded.  After an error from `Reserve` it
writes `failed` at once, as if an error meant that nothing was reserved; but the request may have
committed with its answer lost, or may still be on its way.

* `failed_holds_nothing` -- if `Create` takes an error from `Reserve` only when nothing is
  reserved for the order and no `Reserve` for it is in flight, then a failed order never has a
  pending reservation.  The order is then `Dead`: no call is left that would ask for stock on its
  behalf.
* `failed_keeps_stock` -- otherwise it can, with nothing left running that would release it.
-/
import OrderSystem.Saga.Control

namespace OrderSystem.Saga

open OrderSystem.Kit
open OrderSystem.OrderSvc
open OrderSystem.InventorySvc (Reservation Settlement)

/-! ## 1. Who asks for stock -/

section

variable [Collation]

variable {s s' : State} {e : Event} {p orderID : Nat} {c : CreateCall} {id : GoString}
  {items : List ItemRequest} {q : Proc}

/-- **Where a call that reserves stock comes from**: it was there, or it has just inserted its
order. -/
theorem reserve_origin (hs : step s e = some s')
    (h : s'.At p (.create c (.reserve orderID id items))) :
    s.At p (.create c (.reserve orderID id items)) ∨
      ((∃ ch, e = .act p ch) ∧ orderID = s.store.db.orders.next) := by
  cases create_arrives hs h with
  | kept pc hq => exact Or.inl hq
  | inserted draft items i hq hok =>
    obtain ⟨locked, he, hexec⟩ := hok.event
    obtain ⟨-, hins, -⟩ := insertOrder_ok hexec
    exact Or.inr ⟨⟨_, he⟩, Res.inserted.inj hins⟩

/-- The call that reserves stock for an order is the only one. -/
structure Owned (s : State) : Prop where
  unique : ∀ p p' c c' orderID id id' items items',
    s.At p (.create c (.reserve orderID id items)) →
    s.At p' (.create c' (.reserve orderID id' items')) → p = p'

theorem Owned.step (h : Owned s) (hk : Known s) (hs : step s e = some s') : Owned s' := by
  refine ⟨fun p p' c c' orderID id id' items items' hp hp' => ?_⟩
  have hfresh : ∀ p c id items, s.At p (.create c (.reserve orderID id items)) →
      orderID ≠ s.store.db.orders.next := by
    intro p c id items hq
    obtain ⟨o, ho, -⟩ := hk.procs p _ hq
    exact Table.ne_next ho
  rcases reserve_origin hs hp with hp | ⟨⟨ch, he⟩, hn⟩
  · rcases reserve_origin hs hp' with hp' | ⟨-, hn⟩
    · exact h.unique p p' c c' orderID id id' items items' hp hp'
    · exact absurd hn (hfresh p c id items hp)
  · rcases reserve_origin hs hp' with hp' | ⟨⟨ch', he'⟩, -⟩
    · exact absurd hn (hfresh p' c' id' items' hp')
    · rw [he] at he'
      exact (RpcEvent.act.inj he').1

/-! ## 2. Dead orders -/

/-- Nothing is reserved for the order, and nobody will ask for it. -/
structure Dead (s : State) (orderID : Nat) : Prop where
  stored : ∃ o, s.store.db.orders.row orderID = some o
  unreserved : resv s.remote orderID = none
  requests : ∀ p req, (p, .reserve req) ∈ s.requests → req.orderID ≠ (orderID : Int)
  procs : ∀ p c id items, ¬s.At p (.create c (.reserve orderID id items))

/-- An order without a reservation stays without one while no `Reserve` for it is served. -/
theorem resv_none_of_effect {inv inv' : InventorySvc.DB} (hi : InventorySvc.Indexed inv)
    (hi' : InventorySvc.Indexed inv') {req : InventorySvc.Request} {a : InventorySvc.Answer}
    (he : InventorySvc.Effect inv inv req a inv') (h : resv inv orderID = none)
    (hreq : ∀ generated q, req = .reserve generated q → q.orderID ≠ orderID) :
    resv inv' orderID = none := by
  by_contra hc
  obtain ⟨r', hr'⟩ := Option.ne_none_iff_exists'.mp hc
  obtain ⟨w, hw, ho⟩ := hi'.reservationOf.mp hr'
  rcases he.backward hw with ⟨r, hr, -, hord, -⟩ | ⟨generated, q, hq, hord, -⟩
  · have hsome : resv inv orderID = some r := hi.reservationOf.mpr ⟨w, hr, hord ▸ ho⟩
    exact absurd (h.symm.trans hsome) (by simp)
  · exact hreq generated q hq (hord.symm.trans ho)

/-- **A dead order stays dead.** -/
theorem Dead.step (h : Dead s orderID) (hk : Known s) (hs : step s e = some s') :
    Dead s' orderID := by
  have hk' := hk.step hs
  have hc := change_of_step hs
  refine ⟨?_, ?_, fun p req hreq => ?_, fun p c id items hq => ?_⟩
  · obtain ⟨o, ho⟩ := h.stored
    obtain ⟨o', ho', -⟩ := (evolves_step hk hc).orders orderID o ho
    exact ⟨o', ho'⟩
  · cases hc with
    | none _ hinv => rw [hinv]; exact h.unreserved
    | sql _ _ _ _ _ _ _ _ _ _ hinv => rw [hinv]; exact h.unreserved
    | supplied p q hsup _ =>
      rw [resv, InventorySvc.DB.reservationOf, hsup.orders]
      simp only [InventorySvc.DB.reservation, hsup.reservations]
      exact h.unreserved
    | served p generated op r hop hexec _ =>
      refine resv_none_of_effect hk.wired.indexed hk'.wired.indexed (op_effect hexec)
        h.unreserved fun g q hq => ?_
      cases op with
      | settle t id => cases t <;> exact absurd hq (by simp [InventoryOp.toRequest])
      | reserve req =>
        simp only [InventoryOp.toRequest, InventorySvc.Request.reserve.injEq] at hq
        exact hq.2 ▸ h.requests p req hop
  · rcases origin_of_request hs hreq with hreq | ⟨q, -, hq, hcall⟩
    · exact h.requests p req hreq
    · obtain ⟨c, orderID', id, items, rfl, ho, -⟩ := reserve_of_request hcall
      rintro heq
      obtain rfl : orderID' = orderID := Int.ofNat.inj (ho.symm.trans heq)
      exact h.procs p c id items hq
  · rcases reserve_origin hs hq with hq | ⟨-, hn⟩
    · exact h.procs p c id items hq
    · obtain ⟨o, ho⟩ := h.stored
      exact Table.ne_next ho hn

/-- Nothing is reserved for the order and nothing will be, or what was reserved is released. -/
def Harmless (s : State) (orderID : Nat) : Prop :=
  Dead s orderID ∨ SettledAs s.remote orderID .release

theorem Harmless.step (h : Harmless s orderID) (hk : Known s) (hs : step s e = some s') :
    Harmless s' orderID :=
  h.imp (fun hd => hd.step hk hs)
    fun hset => hset.persists (evolves_step hk (change_of_step hs)).inventory

/-! ## 3. Definite errors -/

/-- The order a request reserves stock for. -/
def reservesFor : InventoryOp → Option Int
  | .reserve req => some req.orderID
  | .settle _ _ => none

/-- The order whose call of `Create` takes an error from `Reserve` in a step. -/
def reserveError (s : State) : Event → Option Nat
  | .receive p i =>
    match s.replies[i]?, s.procs.row p with
    | some (_, _, .error _), some (.create _ (.reserve orderID _ _)) => some orderID
    | _, _ => none
  | .giveUp p _ =>
    match s.procs.row p with
    | some (.create _ (.reserve orderID _ _)) => some orderID
    | _ => none
  | _ => none

/-- Nothing is reserved for the order, and no `Reserve` for it is in flight. -/
def NothingReserved (s : State) (orderID : Nat) : Prop :=
  s.remote.reservationOf orderID = none ∧
    ∀ m ∈ s.requests, reservesFor m.2 ≠ some (orderID : Int)

instance (s : State) (orderID : Nat) : Decidable (NothingReserved s orderID) :=
  inferInstanceAs (Decidable (_ ∧ ∀ m ∈ s.requests, _))

/-- `Create` takes an error from `Reserve` only when nothing was or will be reserved. -/
def DefiniteReserve (s : State) (e : Event) : Prop :=
  ∀ orderID ∈ reserveError s e, NothingReserved s orderID

instance (s : State) (e : Event) : Decidable (DefiniteReserve s e) :=
  inferInstanceAs (Decidable (∀ orderID ∈ reserveError s e, _))

/-- What a process knows about the order it is about to fail. -/
def failOk (s : State) : Proc → Prop
  | .create _ (.fail orderID _) => Dead s orderID
  | .recon _ (.complete task target _ _) => target = .failed → Harmless s task.2.orderID
  | _ => True

/-- Failed orders hold nothing. -/
structure Failing (s : State) : Prop where
  orders : ∀ i o, s.store.db.orders.row i = some o → o.status = .failed → Harmless s i
  procs : ∀ p q, s.At p q → failOk s q

theorem failOk_mono (hk : Known s) (hs : step s e = some s') (h : failOk s q) : failOk s' q := by
  cases q with
  | create c pc =>
    cases pc with
    | fail orderID cause => exact Dead.step h hk hs
    | _ => trivial
  | recon cfg pc =>
    cases pc with
    | complete task target closes rest => exact fun ht => (h ht).step hk hs
    | _ => trivial
  | _ => trivial

/-- The client never refuses the `Reserve` of an order. -/
theorem reserveRequest_ne_none (hk : Known s) (hq : s.At p (.create c (.reserve orderID id items)))
    :
    reserveRequest orderID id items ≠ none := by
  obtain ⟨o, ho, -, -, rfl⟩ := hk.procs p _ hq
  obtain ⟨hne, htrim⟩ := hk.wired.ids orderID o ho
  have hpos := Table.pos_of_row ho
  rw [reserveRequest, if_neg]
  · simp
  · rw [htrim]
    rintro (h0 | h0)
    · omega
    · exact hne h0

omit [Collation] in
theorem release_of_plan {action : Action} {target : OrderStatus} {closes : Bool} {t : Settlement}
    (h : action.plan = some (target, closes, t)) (ht : target = .failed) : t = .release := by
  subst ht
  cases action <;> simp_all [Action.plan]

/-- `Create` knows after a definite error that its order is dead. -/
theorem dead_of_error (hk : Known s) (ho : Owned s) (hC : DefiniteReserve s e)
    (hs : step s e = some s') {op : Option InventoryOp} {err : Err}
    (hq : s.At p (.create c (.reserve orderID id items)))
    (hop : reserveRequest orderID id items = op) (he : TakesError s e p op err)
    (hstill : Still s s') (hq' : s'.At p (.create c (.fail orderID err))) : Dead s' orderID := by
  have hrow : s.procs.row p = some (.create c (.reserve orderID id items)) := hq
  have herr : reserveError s e = some orderID ∧ (∀ ch p', e ≠ .act p' ch) ∧
      ∀ p', e ≠ .send p' := by
    cases he with
    | refused he => exact absurd hop (reserveRequest_ne_none hk hq)
    | answered op err ha =>
      obtain ⟨i, rfl, ha⟩ := ha
      exact ⟨by rw [reserveError, ha, hrow], by simp, by simp⟩
    | gaveUp op err he =>
      subst he
      exact ⟨by rw [reserveError, hrow], by simp, by simp⟩
  obtain ⟨herr, hact, hsend⟩ := herr
  obtain ⟨hnone, hreqs⟩ := hC orderID herr
  refine ⟨?_, ?_, fun p' req hreq => ?_, fun p' c' id' items' hq₁ => ?_⟩
  · obtain ⟨o, ho, -⟩ := hk.procs p _ hq
    exact ⟨o, by rw [hstill.db]; exact ho⟩
  · rw [hstill.remote]
    exact hnone
  · rcases origin_of_request hs hreq with hreq | ⟨q, he, -⟩
    · intro heq
      exact hreqs _ hreq (congrArg some heq)
    · exact absurd he (hsend p')
  · rcases reserve_origin hs hq₁ with hq₀ | ⟨⟨ch, he⟩, -⟩
    · obtain rfl := ho.unique p p' c c' orderID id id' items items' hq hq₀
      exact absurd (Option.some.inj (hq'.symm.trans hq₁)) (by simp)
    · exact hact ch p' he

/-- A process knows after a step what it should about the order it is about to fail. -/
theorem failOk_step (h : Failing s) (hk : Known s) (ho : Owned s) (hC : DefiniteReserve s e)
    (hs : step s e = some s') (hat : s'.At p q) : failOk s' q := by
  cases q with
  | create c pc =>
    cases create_arrives hs hat with
    | kept pc hq => exact failOk_mono hk hs (h.procs p _ hq)
    | unreserved orderID id items op err hq hop herr hstill =>
      exact dead_of_error hk ho hC hs hq hop herr hstill hat
    | _ => trivial
  | recon cfg pc =>
    cases recon_arrives hs hat with
    | kept pc hq => exact failOk_mono hk hs (h.procs p _ hq)
    | reached task o target closes t rest hq hok hplan hst =>
      obtain ⟨hrow, -⟩ := hok.loaded
      exact fun ht => (h.orders _ o hrow (hst.trans ht)).step hk hs
    | settled task o target closes t rest op r hq hplan hop ha hstill =>
      intro ht
      obtain ⟨hn, hres⟩ := hk.procs p _ hq
      have hset := hk.wired.settledAs hn hres hop (hk.replies p op _ ha.mem)
      obtain rfl := release_of_plan hplan ht
      exact Harmless.step (Or.inr hset) hk hs
    | _ => trivial
  | _ => trivial

/-- What writes `failed` knows that the order holds nothing. -/
theorem harmless_of_writer (h : Failing s) (hk : Known s) (hs : step s e = some s') (hq : s.At p q)
    {stmt : Stmt} (hw : Writer q stmt) {i : Nat} {old : Option OrderStatus}
    (hch : stmt.change = some (i, old, .failed)) : Harmless s' i := by
  have hok := h.procs p q hq
  have hknow := hk.procs p q hq
  cases hw with
  | createFail c orderID cause =>
    simp only [Stmt.change, Option.some.injEq, Prod.mk.injEq] at hch
    exact Harmless.step (Or.inl (hch.1 ▸ hok)) hk hs
  | createCompensate c orderID status reason result =>
    simp only [Stmt.change, Option.some.injEq, Prod.mk.injEq] at hch
    rcases hknow.2.2 with ⟨-, hset⟩ | hrec
    · exact Harmless.step (Or.inr (hch.1 ▸ hset)) hk hs
    · exact absurd (hch.2.2.symm.trans hrec) (by simp)
  | complete cfg task target closes rest =>
    simp only [Stmt.change, Option.some.injEq, Prod.mk.injEq] at hch
    exact (hch.1 ▸ hok hch.2.2).step hk hs
  | settleClaim c o =>
    simp only [Stmt.change, Option.some.injEq, Prod.mk.injEq] at hch
    exact absurd hch.2.2 (by cases c.kind <;> simp [SettleKind.transient])
  | settleFinalize c =>
    simp only [Stmt.change, Option.some.injEq, Prod.mk.injEq] at hch
    exact absurd hch.2.2 (by cases c.kind <;> simp [SettleKind.final])
  | _ => exact absurd hch (by simp [Stmt.change])

theorem Failing.step (h : Failing s) (hk : Known s) (ho : Owned s) (hC : DefiniteReserve s e)
    (hs : step s e = some s') : Failing s' := by
  refine ⟨fun i o hrow hst => ?_, fun p q hat => failOk_step h hk ho hC hs hat⟩
  rcases order_origin hs hrow with ⟨x, hx, hstep⟩ | ⟨p, c, draft, items, hacc, -, rfl⟩
  · cases hstep with
    | kept => exact (h.orders i o hx hst).step hk hs
    | written p oc locked q stmt r _ old he hq hstmt hw hexec hch =>
      have hchange := hch.change
      rw [hst] at hchange
      exact harmless_of_writer h hk hs hq hw hchange
  · exact absurd hst (by simp [OrderDraft.row])

/-! ## 4. Failed orders -/

/-- **A failed order holds no stock**, in every run in which `Create` takes an error from
`Reserve` only when nothing is reserved for the order and no `Reserve` for it is in flight. -/
theorem failed_holds_nothing {es : List Event} {s : State} (h : run step start es = some s)
    (hC : Meets DefiniteReserve step start es) {i : Nat} {o : Order}
    (ho : s.store.db.orders.row i = some o) (hst : o.status = .failed) {r : Reservation}
    (hr : s.remote.reservationOf i = some r) : r.status ≠ .pending := by
  have howned : Owned start := ⟨fun p p' c c' orderID id id' items items' hp =>
    absurd hp (by simp [World.At, World.init, start])⟩
  have hfailing : Failing start := ⟨fun i o ho => absurd ho (by simp [start, World.init, DB.empty]),
    fun p q hq => absurd hq (by simp [World.At, World.init, start])⟩
  have hI := run_invariant_of (C := DefiniteReserve)
    (I := fun t => Known t ∧ Owned t ∧ Failing t)
    (by
      rintro _ _ _ ⟨hk, ho, hf⟩ hc hs
      exact ⟨hk.step hs, ho.step hk hs, hf.step hk ho hc hs⟩)
    ⟨known_start, howned, hfailing⟩ hC h
  rcases hI.2.2.orders i o ho hst with hdead | ⟨r', hr', hst'⟩
  · exact absurd (hdead.unreserved.symm.trans hr) (by simp)
  · obtain rfl := Option.some.inj (hr'.symm.trans hr)
    rw [hst']
    decide

end

/-- `Create` asks for stock that is not there, and its request is gone when it reads the
answer. -/
def outOfStock : List Event :=
  [.spawn (.create ⟨30, 1, [0x6b], [⟨1, 3⟩]⟩ .lookup), .act 1 (.sql .ok []),
    .act 1 (.resolve shelf [0x75]), .act 1 (.sql .ok []), .send 1, .serve 0 ⟨.none, [], []⟩,
    .dropRequest 0, .receive 1 0, .act 1 (.sql .ok [])]

theorem failed_holds_nothing_out_of_stock :
    letI := asciiCi
    ∃ s o, run step start outOfStock = some s ∧ s.store.db.orders.row 1 = some o ∧
      o.status = .failed ∧ ∀ r, s.remote.reservationOf 1 = some r → r.status ≠ .pending := by
  let _ : Collation := asciiCi
  have h : (run step start outOfStock).bind (fun s => (s.store.db.orders.row 1).map (·.status)) =
      some .failed := by decide
  obtain ⟨s, hs, hv⟩ := Option.bind_eq_some_iff.mp h
  obtain ⟨o, ho, hst⟩ := Option.map_eq_some_iff.mp hv
  exact ⟨s, o, hs, ho, hst, fun r hr => failed_holds_nothing hs (by decide) ho hst hr⟩

/-- The call is over, or the worker has nothing in hand. -/
def isOver : Proc → Bool
  | .create _ (.returned _) => true
  | .settle _ (.returned _) => true
  | .finish _ (.returned _) => true
  | .recon _ .idle => true
  | .publisher _ .idle => true
  | .delivery _ .settled => true
  | _ => false

/-- No call is in progress and nothing is in flight. -/
structure AtRest (s : State) : Prop where
  procs : ∀ p q, s.At p q → isOver q = true
  requests : s.requests = []
  replies : s.replies = []

theorem atRest_of_search {s : State}
    (h : (s.procs.search fun q => !isOver q).isNone && s.requests.isEmpty && s.replies.isEmpty) :
    AtRest s := by
  simp only [Bool.and_eq_true, Option.isNone_iff_eq_none, List.isEmpty_iff] at h
  obtain ⟨⟨hprocs, hreq⟩, hrep⟩ := h
  refine ⟨fun p q hq => ?_, hreq, hrep⟩
  have hover := Table.search_eq_none hprocs hq
  simpa using hover

/-- The answer to the `Reserve` of `Create` is lost.  `Create` gives up and fails the order. -/
def unanswered : List Event :=
  [.env (.init 1 10), .spawn (.create ⟨30, 1, [0x6b], [⟨1, 3⟩]⟩ .lookup), .act 1 (.sql .ok []),
    .act 1 (.resolve shelf [0x75]), .act 1 (.sql .ok []), .send 1, .serve 0 ⟨.none, [], []⟩,
    .dropRequest 0, .dropReply 0, .giveUp 1 (.error (.call [])), .act 1 (.sql .ok [])]

/-- **A failed order can hold stock for good**: the order is `failed`, its reservation is
`pending`, and there is nothing left that would release it. -/
theorem failed_keeps_stock :
    letI := asciiCi
    ∃ s o r, run step start unanswered = some s ∧ AtRest s ∧
      s.store.db.orders.row 1 = some o ∧ o.status = .failed ∧
      s.remote.reservationOf 1 = some r ∧ r.status = .pending := by
  let _ : Collation := asciiCi
  have h : (run step start unanswered).bind (fun s => (s.store.db.orders.row 1).bind fun o =>
      (s.remote.reservationOf 1).map fun r => (((s.procs.search fun q => !isOver q).isNone &&
        s.requests.isEmpty && s.replies.isEmpty), o.status, r.status)) =
      some (true, .failed, .pending) := by decide
  obtain ⟨s, hs, hv⟩ := Option.bind_eq_some_iff.mp h
  obtain ⟨o, ho, hv⟩ := Option.bind_eq_some_iff.mp hv
  obtain ⟨r, hr, hv⟩ := Option.map_eq_some_iff.mp hv
  obtain ⟨hrest, hst⟩ := Prod.mk.inj hv
  obtain ⟨hfailed, hpending⟩ := Prod.mk.inj hst
  exact ⟨s, o, r, hs, atRest_of_search hrest, ho, hfailed, hr, hpending⟩

end OrderSystem.Saga
