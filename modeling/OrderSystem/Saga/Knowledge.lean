/-
# What a step teaches

The assertions of `Wiring.lean` are stable; this module proves that every step establishes the
assertion of the state or message it makes, so that they hold throughout.

A committed statement teaches its caller what it returned, and a successful answer of the
inventory service that the work is done, because settled reservations stay settled
(`Wired.reserved`, `Wired.settledAs`).  An error of either teaches nothing.

`wired_run` is the result: in every reachable state the databases are wired and everybody is
right about what they know.
-/
import OrderSystem.Saga.Wiring
import OrderSystem.Saga.Programs

namespace OrderSystem.Saga

open OrderSystem.Kit
open OrderSystem.OrderSvc
open OrderSystem.InventorySvc (Reservation ReservationStatus Settlement Indexed Balanced Persists
  Effect)

section

variable [Collation]

/-! ## 1. Create -/

variable {db : DB} {c : CreateCall} {orderID p : Nat} {id : GoString} {t : Settlement}
  {op : InventoryOp} {inv : InventorySvc.DB} {r : Reservation} {s s' : State} {e : Event} {q : Proc}

theorem Mine.answers (h : Mine db c orderID id) : Answers db c orderID := by
  obtain ⟨o, ho, hu, hk, -⟩ := h
  exact ⟨o, ho, hu, by rw [hk]⟩

omit [Collation] in
theorem Mine.named (h : Mine db c orderID id) : Named db orderID id := by
  obtain ⟨o, ho, -, -, hid⟩ := h
  exact ⟨o, ho, hid⟩

omit [Collation] in
theorem settleRequest_some (h : settleRequest t id = some op) : op = .settle t (trimSpace id) := by
  unfold settleRequest at h
  split at h
  · exact absurd h (by simp)
  · exact (Option.some.inj h).symm

omit [Collation] in
theorem reserveRequest_some {items : List ItemRequest}
    (h : reserveRequest orderID id items = some op) :
    op = .reserve ⟨orderID, trimSpace id, items⟩ := by
  unfold reserveRequest at h
  split at h
  · exact absurd h (by simp)
  · exact (Option.some.inj h).symm

/-- A successful settlement by the id an order names has settled its reservation. -/
theorem Wired.settledAs (hw : Wired db inv) (hn : Named db orderID id) (hres : Reserved inv orderID)
    (hop : settleRequest t id = some op) (ha : replyOk inv op (.ok r)) :
    SettledAs inv orderID t := by
  obtain rfl := settleRequest_some hop
  obtain ⟨r', hr', hst⟩ := ha
  rw [(hw.named_trim hn).1, (hw.named_trim hn).1] at hr'
  exact ⟨r', (hw.resv_of_id hn hres).trans hr', hst⟩

/-- A successful `Reserve` has made the reservation the order names. -/
theorem Wired.reserved (hw : Wired db inv) (hm : Mine db c orderID id) {items : List ItemRequest}
    (hop : reserveRequest orderID id items = some op) (ha : replyOk inv op (.ok r)) :
    Mine db c orderID r.id ∧ Reserved inv orderID := by
  obtain rfl := reserveRequest_some hop
  obtain ⟨orderID', ho, r', hr', hid⟩ := ha
  obtain rfl : orderID = orderID' := Int.ofNat.inj ho
  refine ⟨?_, r', hr'⟩
  rw [← hid, ← hm.named.unique (hw.resv_named hr').1]
  exact hm

/-- What a call of `Create` knows after a step. -/
theorem createOk_step (hk : Known s) (hs : step s e = some s')
    (hev : Evolves s.store.db s'.store.db s.remote s'.remote) {pc : CreatePc}
    (h : s'.At p (.create c pc)) : createOk s'.store.db s'.remote c pc := by
  cases create_arrives hs h with
  | kept pc hq => exact createOk_mono hev (hk.procs p _ hq)
  | started he => trivial
  | rejected he => trivial
  | found pc i o hpc hq hok =>
    obtain ⟨hrow, hu, hkey⟩ := hok.found
    exact Answers.mono ⟨o, hrow, hu, hkey⟩ hev
  | missing hq herr => trivial
  | drafted catalog uuid r he hq hu hr hstill => exact ⟨rfl, rfl, hu⟩
  | inserted draft items i hq hok =>
    obtain ⟨locked, -, hexec⟩ := hok.event
    obtain ⟨⟨hacc, hdb⟩, hi, -⟩ := insertOrder_ok hexec
    obtain rfl := Res.inserted.inj hi
    obtain ⟨hu, hkey, -⟩ := hk.procs p _ hq
    exact ⟨draft.row hacc, by rw [hdb]; exact Table.insert_row_next .., hu, hkey, rfl⟩
  | raced draft items err hq herr => trivial
  | reserved orderID id items op r hq hop ha hstill =>
    obtain ⟨hm, hres⟩ := hk.wired.reserved (hk.procs p _ hq) hop (hk.replies p op _ ha.mem)
    exact ⟨hm.mono hev, hres.persists hev.inventory⟩
  | unreserved orderID id items op err hq hop herr hstill =>
    have hm : Mine s.store.db c orderID id := hk.procs p _ hq
    exact ⟨id, hm.mono hev⟩
  | finalized orderID id r hq hok =>
    obtain ⟨hm, -⟩ := hk.procs p _ hq
    exact ⟨id, hm.mono hev⟩
  | unfinalized orderID id err hq herr =>
    obtain ⟨hm, hres⟩ := hk.procs p _ hq
    exact ⟨hm.mono hev, hres.persists hev.inventory⟩
  | released orderID id cause op r hq hop ha hstill =>
    obtain ⟨hm, hres⟩ := hk.procs p _ hq
    have hset := hk.wired.settledAs hm.named hres hop (hk.replies p op _ ha.mem)
    exact ⟨⟨id, hm.mono hev⟩, hres.persists hev.inventory,
      Or.inl ⟨rfl, hset.persists hev.inventory⟩⟩
  | unreleased orderID id cause op err hq hstill =>
    obtain ⟨hm, hres⟩ := hk.procs p _ hq
    exact ⟨⟨id, hm.mono hev⟩, hres.persists hev.inventory, Or.inr rfl⟩
  | gotten orderID o hq hok =>
    obtain ⟨id, hm⟩ := hk.procs p _ hq
    exact hm.answers.mono hev
  | errored pc err hq => trivial

/-! ## 2. The other programs -/

/-- What a call of `cancel` or `Pay` knows after a step. -/
theorem settleOk_step (hk : Known s) (hs : step s e = some s')
    (hev : Evolves s.store.db s'.store.db s.remote s'.remote) {c : SettleCall} {pc : SettlePc}
    (h : s'.At p (.settle c pc)) : settleOk s'.store.db s'.remote c pc := by
  cases settle_arrives hs h with
  | kept pc hq => exact settleOk_mono hev (hk.procs p _ hq)
  | started he hadm => trivial
  | loaded o hq hok hst =>
    obtain ⟨hrow, -⟩ := hok.loaded
    have hback := hk.wired.backed _ o hrow
    rw [hst] at hback
    exact ⟨Named.mono ⟨o, hrow, rfl⟩ hev, Reserved.persists hback hev.inventory⟩
  | claimed o r hq hok =>
    obtain ⟨hn, hres⟩ := hk.procs p _ hq
    exact ⟨hn.mono hev, hres.persists hev.inventory⟩
  | settled o op r hq hop ha hstill =>
    obtain ⟨hn, hres⟩ := hk.procs p _ hq
    exact (hk.wired.settledAs hn hres hop (hk.replies p op _ ha.mem)).persists hev.inventory
  | unsettled o op err hq hop herr hstill =>
    obtain ⟨-, hres⟩ := hk.procs p _ hq
    exact hres.persists hev.inventory
  | unfinalized err hq herr =>
    have hset : SettledAs s.remote c.orderID c.kind.target := hk.procs p _ hq
    exact hset.reserved.persists hev.inventory
  | _ => trivial

/-- A loaded order that has the target status of an action has a reservation settled for it. -/
theorem Wired.reached (hw : Wired db inv) {o : Order} (ho : db.orders.row orderID = some o)
    {action : Action} {closes : Bool} (hplan : action.plan = some (o.status, closes, t))
    (hne : o.status ≠ .failed) : SettledAs inv orderID t := by
  have hback := hw.backed orderID o ho
  cases action with
  | releaseInventoryAndFail =>
    simp only [Action.plan, Option.some.injEq, Prod.mk.injEq] at hplan
    exact absurd hplan.1.symm hne
  | finalizeCancel | finalizePayment =>
    simp only [Action.plan, Option.some.injEq, Prod.mk.injEq] at hplan
    rw [← hplan.1] at hback
    rw [← hplan.2.2]
    exact hback
  | unsupportedFrom st => exact absurd hplan (by simp [Action.plan])

/-- What a reconciliation worker knows after a step. -/
theorem reconOk_step (hk : Known s) (hs : step s e = some s')
    (hev : Evolves s.store.db s'.store.db s.remote s'.remote) {cfg : ReconciliationWorkerConfig}
    {pc : ReconPc} (h : s'.At p (.recon cfg pc)) :
    reconOk s'.store.db s'.remote pc := by
  cases recon_arrives hs h with
  | kept pc hq => exact reconOk_mono hev (hk.procs p _ hq)
  | calling task o rest hq hok hst =>
    obtain ⟨hrow, -⟩ := hok.loaded
    have hback := hk.wired.backed _ o hrow
    rw [hst] at hback
    exact ⟨Named.mono ⟨o, hrow, rfl⟩ hev, Reserved.persists hback hev.inventory⟩
  | reached task o target closes t rest hq hok hplan hst =>
    obtain ⟨hrow, -⟩ := hok.loaded
    subst hst
    exact ⟨t, hplan, fun hne => (hk.wired.reached hrow hplan hne).persists hev.inventory⟩
  | settled task o target closes t rest op r hq hplan hop ha hstill =>
    obtain ⟨hn, hres⟩ := hk.procs p _ hq
    have hset := hk.wired.settledAs hn hres hop (hk.replies p op _ ha.mem)
    exact ⟨t, hplan, fun _ => hset.persists hev.inventory⟩
  | _ => trivial

/-! ## 3. Messages -/

omit [Collation] in
/-- Only `Create` asks for stock. -/
theorem reserve_of_request {req : InventorySvc.ReserveRequest}
    (h : q.request.join = some (.reserve req)) : ∃ c orderID id items,
      q = .create c (.reserve orderID id items) ∧ req.orderID = orderID ∧
      req.reservationID = trimSpace id ∧ req.items = items := by
  cases q with
  | create c pc =>
    cases pc with
    | reserve orderID id items =>
      simp only [Proc.request, CreatePc.request, Option.join_some, reserveRequest] at h
      split at h
      · exact absurd h (by simp)
      · obtain rfl := InventoryOp.reserve.inj (Option.some.inj h)
        exact ⟨c, orderID, id, items, rfl, rfl, rfl, rfl⟩
    | release orderID id cause => exact absurd (settleRequest_some h) (by simp)
    | _ => exact absurd h (by simp [Proc.request, CreatePc.request])
  | settle c pc =>
    cases pc with
    | call o => exact absurd (settleRequest_some h) (by simp)
    | _ => exact absurd h (by simp [Proc.request, SettlePc.request])
  | recon cfg pc =>
    cases pc with
    | call task o rest =>
      simp only [Proc.request, ReconPc.request] at h
      cases hplan : task.2.action.plan with
      | none => exact absurd h (by simp [hplan])
      | some plan =>
        rw [hplan] at h
        exact absurd (settleRequest_some h) (by simp)
    | _ => exact absurd h (by simp [Proc.request, ReconPc.request])
  | finish c pc => exact absurd h (by simp [Proc.request])
  | publisher cfg pc => exact absurd h (by simp [Proc.request])
  | delivery d pc => exact absurd h (by simp [Proc.request])

/-- The order whose reservation a process is about to settle. -/
def settling : Proc → Option Nat
  | .create _ (.release orderID _ _) => some orderID
  | .settle c (.call _) => some c.orderID
  | .recon _ (.call task _ _) => some task.2.orderID
  | _ => none

/-- **Who settles reservations**, and by which id. -/
theorem settling_of_request (hw : Wired db inv) (h : procOk db inv q)
    (hop : q.request.join = some (.settle t id)) :
    ∃ orderID, settling q = some orderID ∧ Named db orderID id ∧ Reserved inv orderID := by
  have hreq : q.request = some (some (.settle t id)) := Option.join_eq_some_iff.mp hop
  have htrim : ∀ {orderID t' id'}, Named db orderID id' →
      settleRequest t' id' = some (.settle t id) → Named db orderID id := by
    intro orderID t' id' hn hset
    obtain ⟨-, rfl⟩ := InventoryOp.settle.inj (settleRequest_some hset)
    rw [(hw.named_trim hn).1]
    exact hn
  cases q with
  | create c pc =>
    cases pc with
    | release orderID id' cause =>
      exact ⟨orderID, rfl, htrim h.1.named (Option.some.inj hreq), h.2⟩
    | reserve orderID id' items =>
      exact absurd (reserveRequest_some (Option.some.inj hreq)) (by simp)
    | _ => exact absurd hreq (by simp [Proc.request, CreatePc.request])
  | settle c pc =>
    cases pc with
    | call o => exact ⟨c.orderID, rfl, htrim h.1 (Option.some.inj hreq), h.2⟩
    | _ => exact absurd hreq (by simp [Proc.request, SettlePc.request])
  | recon cfg pc =>
    cases pc with
    | call task o rest =>
      simp only [Proc.request, ReconPc.request] at hreq
      obtain ⟨plan, -, hset⟩ := Option.map_eq_some_iff.mp hreq
      exact ⟨task.2.orderID, rfl, htrim h.1 hset, h.2⟩
    | _ => exact absurd hreq (by simp [Proc.request, ReconPc.request])
  | finish c pc => exact absurd hreq (by simp [Proc.request])
  | publisher cfg pc => exact absurd hreq (by simp [Proc.request])
  | delivery d pc => exact absurd hreq (by simp [Proc.request])

/-- What a process sends is right. -/
theorem requestOk_of_request (hw : Wired db inv) (h : procOk db inv q)
    (hop : q.request.join = some op) :
    requestOk db inv op := by
  cases op with
  | settle t id =>
    obtain ⟨orderID, -, hn, hres⟩ := settling_of_request hw h hop
    exact ⟨orderID, hn, hres⟩
  | reserve req =>
    obtain ⟨c, orderID, id, items, rfl, ho, hid, -⟩ := reserve_of_request hop
    have hn : Named db orderID id := h.imp fun _ hm => ⟨hm.1, hm.2.2.2⟩
    refine ⟨orderID, ho, ?_⟩
    rw [hid, (hw.named_trim hn).1]
    exact hn

/-- A request that committed has done its work. -/
theorem replyOk_of_exec {inv' : InventorySvc.DB} {generated : GoString} (hop : requestOk db inv op)
    (hi : Indexed inv') (hexec : (opTx generated inv op).exec inv = .ok (r, inv')) :
    replyOk inv' op (.ok r) := by
  cases op with
  | reserve req =>
    obtain ⟨orderID, ho, -⟩ := hop
    refine ⟨orderID, ho, r, ?_, rfl⟩
    obtain ⟨-, -, ⟨hr, rfl⟩ | ⟨-, hp, -, -, hord, -⟩⟩ := InventorySvc.reserve_ok hexec
    · rw [resv, ← ho]
      exact hr
    · refine hi.reservationOf.mpr ⟨Collation.weight r.id, ?_, hord.trans ho⟩
      rw [hp.reservations, Function.update_self]
  | settle t id =>
    obtain ⟨-, hst, ⟨hr, rfl⟩ | ⟨r₀, rfl, hs⟩⟩ := InventorySvc.transition_ok hexec
    · exact ⟨r, hr, hst⟩
    · exact ⟨_, hs.row, rfl⟩

/-! ## 4. Every run -/

/-- A process knows after a step what it should. -/
theorem procOk_step (hk : Known s) (hs : step s e = some s')
    (hev : Evolves s.store.db s'.store.db s.remote s'.remote) (h : s'.At p q) :
    procOk s'.store.db s'.remote q := by
  cases q with
  | create c pc => exact createOk_step hk hs hev h
  | settle c pc => exact settleOk_step hk hs hev h
  | recon cfg pc => exact reconOk_step hk hs hev h
  | finish c pc => trivial
  | publisher cfg pc => trivial
  | delivery d pc => trivial

theorem replyOk_error (inv : InventorySvc.DB) (op : InventoryOp) (err : Err) :
    replyOk inv op (.error err) := by
  cases op <;> trivial

/-- **A step keeps what is known.** -/
theorem Known.step (hk : Known s) (hs : step s e = some s') :
    Known s' := by
  have hc := change_of_step hs
  have hev := evolves_step hk hc
  have hw' := wired_step hk hc
  refine ⟨hw', fun p q hq => procOk_step hk hs hev hq, fun p op hop => ?_, fun p op a ha => ?_⟩
  · rcases origin_of_request hs hop with hop | ⟨q, -, hq, hcall⟩
    · exact requestOk_mono hev (hk.requests p op hop)
    · exact requestOk_mono hev (requestOk_of_request hk.wired (hk.procs p q hq) hcall)
  · rcases reply_origin hs ha with ha | ⟨hreq, -, ⟨m, err, rfl⟩ | ⟨r, generated, rfl, hexec⟩⟩
    · exact replyOk_mono hev.inventory (hk.replies p op a ha)
    · exact replyOk_error _ op _
    · exact replyOk_of_exec (hk.requests p op hreq) hw'.indexed hexec

theorem wired_empty : Wired DB.empty InventorySvc.DB.empty where
  indexed := InventorySvc.indexed_empty
  balanced := ⟨[], InventorySvc.balanced_empty⟩
  keys i j o o' h := absurd h (by simp [DB.empty])
  ids i o h := absurd h (by simp [DB.empty])
  timeouts i j row row' h := absurd h (by simp [DB.empty])
  timed orderID := fun ⟨i, row, h, _⟩ => absurd h (by simp [DB.empty])
  reservations w r h := absurd h (by simp [InventorySvc.DB.reservationAt, InventorySvc.DB.empty])
  backed i o h := absurd h (by simp [DB.empty])

theorem known_start : Known start where
  wired := wired_empty
  procs p q h := absurd h (by simp [World.At, World.init, start])
  requests p op h := absurd h (by simp [World.init, start])
  replies p op a h := absurd h (by simp [World.init, start])

/-- **In every reachable state the databases are wired**, and everybody is right about what
they know. -/
theorem wired_run {es : List Event} (h : run step start es = some s) : Known s :=
  run_invariant (fun _ _ _ hk hs => hk.step hs) known_start h

/-- Between two states of a run nothing is lost. -/
theorem evolves_run (hk : Known s) {es : List Event} (h : run step s es = some s') :
    Evolves s.store.db s'.store.db s.remote s'.remote :=
  run_relation_of (C := fun _ _ => True) (I := Known)
    (R := fun t t' => Evolves t.store.db t'.store.db t.remote t'.remote)
    (fun _ _ _ hk _ hs => hk.step hs) (fun _ => .of_same (.refl _))
    (fun _ _ _ _ hk _ hs hev => hev.trans (evolves_step hk (change_of_step hs)))
    hk (meets_true s es) h

end

end OrderSystem.Saga
