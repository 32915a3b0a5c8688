/-
# How the programs move

For each program of the saga, every way in which one of its processes can come to be in a state:
it was there before the step, or it was in another state and something happened to it.  These are
the transitions of `OrderSvc/Service.lean` and `OrderSvc/Workers.lean` read backwards, with what
the statement or the answer was.  Proofs about processes are case distinctions on them, and only
this file looks into the transition functions.
-/
import OrderSystem.Saga.Steps

namespace OrderSystem.Saga

open OrderSystem.Kit
open OrderSystem.OrderSvc
open OrderSystem.InventorySvc (Reservation)

/-! ## 1. Create -/

/-- One of the two lookups by key. -/
def LooksUp (pc : CreatePc) : Prop := pc = .lookup ∨ ∃ cause, pc = .relookup cause

section

variable [Collation]

/-- How a call of `Create` came to be in a state. -/
inductive CreateArrives (s : State) (e : Event) (s' : State) (p : Nat) (c : CreateCall) :
    CreatePc → Prop
  | kept (pc : CreatePc) (hq : s.At p (.create c pc)) : CreateArrives s e s' p c pc
  | started (he : e = .spawn (.create c .lookup)) : CreateArrives s e s' p c .lookup
  /-- the checks before the first statement -/
  | rejected (he : e = .spawn (.create c (.returned (.error .invalidOrderRequest)))) :
      CreateArrives s e s' p c (.returned (.error .invalidOrderRequest))
  | found (pc : CreatePc) (i : Nat) (o : Order) (hpc : LooksUp pc) (hq : s.At p (.create c pc))
      (h : Committed s e s' p (.findByIdempotency c.userID c.key) (.order i o)) :
      CreateArrives s e s' p c (.returned (.ok (i, o)))
  | missing (hq : s.At p (.create c .lookup))
      (h : Failed s e s' p (.findByIdempotency c.userID c.key) .orderNotFound) :
      CreateArrives s e s' p c .resolve
  | drafted (catalog : Int → Except GoString CatalogProduct) (uuid : GoString) (r : Resolved)
      (he : e = .act p (.resolve catalog uuid)) (hq : s.At p (.create c .resolve))
      (hu : IsUUID uuid) (hr : resolveItems catalog c.items = .ok r) (hstill : Still s s') :
      CreateArrives s e s' p c
        (.insert ⟨c.userID, r.total, uuid, c.key, r.items⟩ r.reserveItems)
  | inserted (draft : OrderDraft) (items : List ItemRequest) (i : Nat)
      (hq : s.At p (.create c (.insert draft items)))
      (h : Committed s e s' p (.insertOrder draft) (.inserted i)) :
      CreateArrives s e s' p c (.reserve i draft.reservationID items)
  /-- the insert failed, perhaps because another call was faster -/
  | raced (draft : OrderDraft) (items : List ItemRequest) (err : Err)
      (hq : s.At p (.create c (.insert draft items)))
      (h : Failed s e s' p (.insertOrder draft) err) : CreateArrives s e s' p c (.relookup err)
  | reserved (orderID : Nat) (id : GoString) (items : List ItemRequest) (op : InventoryOp)
      (r : Reservation) (hq : s.At p (.create c (.reserve orderID id items)))
      (hop : reserveRequest orderID id items = some op) (ha : Answered s e p op (.ok r))
      (hstill : Still s s') : CreateArrives s e s' p c (.finalize orderID r.id)
  | unreserved (orderID : Nat) (id : GoString) (items : List ItemRequest)
      (op : Option InventoryOp) (err : Err)
      (hq : s.At p (.create c (.reserve orderID id items)))
      (hop : reserveRequest orderID id items = op) (herr : TakesError s e p op err)
      (hstill : Still s s') : CreateArrives s e s' p c (.fail orderID err)
  | finalized (orderID : Nat) (id : GoString) (r : Res)
      (hq : s.At p (.create c (.finalize orderID id)))
      (h : Committed s e s' p (.finalizeCreate orderID id c.timeoutDelay) r) :
      CreateArrives s e s' p c (.get orderID)
  | unfinalized (orderID : Nat) (id : GoString) (err : Err)
      (hq : s.At p (.create c (.finalize orderID id)))
      (h : Failed s e s' p (.finalizeCreate orderID id c.timeoutDelay) err) :
      CreateArrives s e s' p c (.release orderID id err)
  | released (orderID : Nat) (id : GoString) (cause : Err) (op : InventoryOp) (r : Reservation)
      (hq : s.At p (.create c (.release orderID id cause)))
      (hop : settleRequest .release id = some op) (ha : Answered s e p op (.ok r))
      (hstill : Still s s') :
      CreateArrives s e s' p c (.compensate orderID .failed cause.text cause)
  | unreleased (orderID : Nat) (id : GoString) (cause : Err) (op : Option InventoryOp) (err : Err)
      (hq : s.At p (.create c (.release orderID id cause))) (hstill : Still s s') :
      CreateArrives s e s' p c (.compensate orderID .reconciliationRequired
        (cause.text ++ str "; release compensation failed: " ++ err.text) .compensationRequired)
  | gotten (orderID : Nat) (o : Order) (hq : s.At p (.create c (.get orderID)))
      (h : Committed s e s' p (.get (some c.userID) orderID) (.order orderID o)) :
      CreateArrives s e s' p c (.returned (.ok (orderID, o)))
  | errored (pc : CreatePc) (err : Err) (hq : s.At p (.create c pc)) :
      CreateArrives s e s' p c (.returned (.error err))

variable {st st' : Local} {procs : Table Proc} {c : CreateCall} {q q' : Proc} {r : Except Err Res}
  {a : Reply} {s s' : State} {e : Event} {p : Nat} {stmt : Stmt} {err : Err} {ch : Choice}
  {pc : ReconPc} {cfg : ReconciliationWorkerConfig}

omit [Collation] in
theorem mayStart_create {pc : CreatePc} (h : mayStart st procs (.create c pc) = true) :
    pc = .lookup ∨ pc = .returned (.error .invalidOrderRequest) := by
  unfold mayStart at h
  split at h
  · rename_i heq
    exact Or.inl (Proc.create.inj heq).2
  · rename_i heq
    exact Or.inr (Proc.create.inj heq).2
  all_goals simp_all

omit [Collation] in
theorem create_of_after {pc : CreatePc} (h : Proc.create c pc = q.after r) :
    ∃ pc₀, q = .create c pc₀ ∧ pc = pc₀.after r := by
  cases q with
  | create c' pc₀ =>
    obtain ⟨rfl, rfl⟩ := Proc.create.inj h
    exact ⟨pc₀, rfl, rfl⟩
  | _ => exact absurd h (by simp [Proc.after])

omit [Collation] in
theorem create_of_resume {pc : CreatePc} (h : Proc.create c pc = q.resume a) :
    ∃ pc₀, q = .create c pc₀ ∧ pc = pc₀.resume a := by
  cases q with
  | create c' pc₀ =>
    obtain ⟨rfl, rfl⟩ := Proc.create.inj h
    exact ⟨pc₀, rfl, rfl⟩
  | _ => exact absurd h (by simp [Proc.resume])

theorem create_committed {pc : CreatePc} {r : Res} (hq : s.At p (.create c pc))
    (hstmt : pc.stmt c = some stmt) (h : Committed s e s' p stmt r) :
    CreateArrives s e s' p c (pc.after (.ok r)) := by
  obtain ⟨locked, -, hexec⟩ := h.event
  cases pc with
  | lookup =>
    obtain rfl := Option.some.inj hstmt
    obtain ⟨i, o, rfl, -⟩ := exec_findByIdempotency hexec
    exact .found _ i o (Or.inl rfl) hq h
  | relookup cause =>
    obtain rfl := Option.some.inj hstmt
    obtain ⟨i, o, rfl, -⟩ := exec_findByIdempotency hexec
    exact .found _ i o (Or.inr ⟨cause, rfl⟩) hq h
  | insert draft items =>
    obtain rfl := Option.some.inj hstmt
    obtain ⟨-, rfl, -⟩ := insertOrder_ok hexec
    exact .inserted draft items _ hq h
  | fail orderID cause => exact .errored _ _ hq
  | finalize orderID id =>
    obtain rfl := Option.some.inj hstmt
    exact .finalized orderID id r hq h
  | compensate orderID status reason result => exact .errored _ _ hq
  | get orderID =>
    obtain rfl := Option.some.inj hstmt
    obtain ⟨o, rfl, -⟩ := exec_get hexec
    exact .gotten orderID o hq h
  | _ => exact absurd hstmt (by simp [CreatePc.stmt])

theorem create_failed {pc : CreatePc} (hq : s.At p (.create c pc)) (hstmt : pc.stmt c = some stmt)
    (h : Failed s e s' p stmt err) : CreateArrives s e s' p c (pc.after (.error err)) := by
  cases pc with
  | lookup =>
    obtain rfl := Option.some.inj hstmt
    cases err with
    | orderNotFound => exact .missing hq h
    | _ => exact .errored _ _ hq
  | insert draft items =>
    obtain rfl := Option.some.inj hstmt
    exact .raced draft items err hq h
  | relookup cause => exact .errored _ _ hq
  | fail orderID cause => exact .errored _ _ hq
  | finalize orderID id =>
    obtain rfl := Option.some.inj hstmt
    exact .unfinalized orderID id err hq h
  | compensate orderID status reason result => exact .errored _ _ hq
  | get orderID => exact .errored _ _ hq
  | _ => exact absurd hstmt (by simp [CreatePc.stmt])

omit [Collation] in
theorem quiet_create (h : Quiet st ch q st' q') {pc : CreatePc} (hq' : q' = .create c pc) :
    ∃ catalog uuid, ch = .resolve catalog uuid ∧ IsUUID uuid ∧ q = .create c .resolve ∧
      pc = .resolved c catalog uuid := by
  cases h with
  | resolve c' catalog uuid hu =>
    obtain ⟨rfl, rfl⟩ := Proc.create.inj hq'
    exact ⟨catalog, uuid, rfl, hu, rfl, rfl⟩
  | _ => exact absurd hq' (by simp)

/-- **How `Create` moves.** -/
theorem create_arrives (hs : step s e = some s') {pc : CreatePc} (h : s'.At p (.create c pc)) :
    CreateArrives s e s' p c pc := by
  generalize hq' : Proc.create c pc = q' at h
  cases arrives hs h with
  | kept q hq => exact .kept pc (hq' ▸ hq)
  | spawned q he hp hadm =>
    subst hq'
    rcases mayStart_create hadm with rfl | rfl
    · exact .started he
    · exact .rejected he
  | committed q stmt r hq hstmt hok =>
    obtain ⟨pc₀, rfl, rfl⟩ := create_of_after hq'
    exact create_committed hq hstmt hok
  | failed q stmt err hq hstmt herr =>
    obtain ⟨pc₀, rfl, rfl⟩ := create_of_after hq'
    exact create_failed hq hstmt herr
  | quiet q q' ch he hq hquiet hstill =>
    obtain ⟨catalog, uuid, rfl, hu, rfl, rfl⟩ := quiet_create hquiet hq'.symm
    unfold CreatePc.resolved
    split
    · exact .errored _ _ hq
    · rename_i r hr
      exact .drafted catalog uuid r he hq hu hr hstill
  | answered q op r hq hop ha hstill =>
    obtain ⟨pc₀, rfl, rfl⟩ := create_of_resume hq'
    cases pc₀ with
    | reserve orderID id items =>
      exact .reserved orderID id items op r hq (Option.some.inj hop) ha hstill
    | release orderID id cause =>
      exact .released orderID id cause op r hq (Option.some.inj hop) ha hstill
    | _ => exact absurd hop (by simp [Proc.request, CreatePc.request])
  | refused q op err hq hop herr hstill =>
    obtain ⟨pc₀, rfl, rfl⟩ := create_of_resume hq'
    cases pc₀ with
    | reserve orderID id items =>
      exact .unreserved orderID id items op err hq (Option.some.inj hop) herr hstill
    | release orderID id cause => exact .unreleased orderID id cause op err hq hstill
    | _ => exact absurd hop (by simp [Proc.request, CreatePc.request])

/-- A call keeps its parameters. -/
theorem call_origin (hs : step s e = some s') {pc : CreatePc} (h : s'.At p (.create c pc)) :
    (∃ pc₀, s.At p (.create c pc₀)) ∨ e = .spawn (.create c pc) := by
  cases create_arrives hs h with
  | started he => exact Or.inr he
  | rejected he => exact Or.inr he
  | _ => exact Or.inl ⟨_, by assumption⟩

/-! ## 2. Cancel and Pay -/

/-- How a call of `cancel` or `Pay` came to be in a state. -/
inductive SettleArrives (s : State) (e : Event) (s' : State) (p : Nat) (c : SettleCall) :
    SettlePc → Prop
  | kept (pc : SettlePc) (hq : s.At p (.settle c pc)) : SettleArrives s e s' p c pc
  | started (he : e = .spawn (.settle c .load)) (h : mayStartSettle s.procs c = true) :
      SettleArrives s e s' p c .load
  | loaded (o : Order) (hq : s.At p (.settle c .load))
      (h : Committed s e s' p (.get c.user c.orderID) (.order c.orderID o))
      (hst : o.status = .pending) : SettleArrives s e s' p c (.claim o)
  /-- the order has the final status already -/
  | settledBefore (o : Order) (hq : s.At p (.settle c .load))
      (h : Committed s e s' p (.get c.user c.orderID) (.order c.orderID o))
      (hst : o.status = c.kind.final) : SettleArrives s e s' p c (.returned (.ok (c.orderID, o)))
  | unfit (o : Order) (hq : s.At p (.settle c .load))
      (h : Committed s e s' p (.get c.user c.orderID) (.order c.orderID o))
      (hst : o.status ≠ .pending) :
      SettleArrives s e s' p c (.returned (.error .invalidOrderState))
  | claimed (o : Order) (r : Res) (hq : s.At p (.settle c (.claim o)))
      (h : Committed s e s' p (.claim c.user c.orderID c.kind.transient) r) :
      SettleArrives s e s' p c (.call o)
  | unclaimed (o : Order) (err : Err) (hq : s.At p (.settle c (.claim o)))
      (h : Failed s e s' p (.claim c.user c.orderID c.kind.transient) err) :
      SettleArrives s e s' p c (.returned (.error err))
  | settled (o : Order) (op : InventoryOp) (r : Reservation) (hq : s.At p (.settle c (.call o)))
      (hop : settleRequest c.kind.target o.reservationID = some op)
      (ha : Answered s e p op (.ok r)) (hstill : Still s s') : SettleArrives s e s' p c .finalize
  | unsettled (o : Order) (op : Option InventoryOp) (err : Err)
      (hq : s.At p (.settle c (.call o)))
      (hop : settleRequest c.kind.target o.reservationID = op)
      (herr : TakesError s e p op err) (hstill : Still s s') :
      SettleArrives s e s' p c (.revert err)
  | reverted (cause : Err) (hq : s.At p (.settle c (.revert cause))) :
      SettleArrives s e s' p c (.returned (.error cause))
  | finalized (r : Res) (hq : s.At p (.settle c .finalize))
      (h : Committed s e s' p (.finalizeSettle c.orderID c.kind.transient c.kind.final) r) :
      SettleArrives s e s' p c .reload
  | unfinalized (err : Err) (hq : s.At p (.settle c .finalize))
      (h : Failed s e s' p (.finalizeSettle c.orderID c.kind.transient c.kind.final) err) :
      SettleArrives s e s' p c (.compensate err)
  | compensated (cause : Err) (hq : s.At p (.settle c (.compensate cause))) :
      SettleArrives s e s' p c (.returned (.error .compensationRequired))
  | reloaded (o : Order) (hq : s.At p (.settle c .reload))
      (h : Committed s e s' p (.get c.user c.orderID) (.order c.orderID o)) :
      SettleArrives s e s' p c (.returned (.ok (c.orderID, o)))
  | unloaded (pc : SettlePc) (err : Err) (hpc : pc = .load ∨ pc = .reload)
      (hq : s.At p (.settle c pc)) (h : Failed s e s' p (.get c.user c.orderID) err) :
      SettleArrives s e s' p c (.returned (.error err))

omit [Collation] in
theorem mayStart_settle {c : SettleCall} {pc : SettlePc}
    (h : mayStart st procs (.settle c pc) = true) : pc = .load ∧ mayStartSettle procs c = true := by
  cases pc with
  | load => exact ⟨rfl, h⟩
  | _ => exact absurd h (by simp [mayStart])

omit [Collation] in
theorem settle_of_after {c : SettleCall} {pc : SettlePc} (h : Proc.settle c pc = q.after r) :
    ∃ pc₀, q = .settle c pc₀ ∧ pc = pc₀.after c r := by
  cases q with
  | settle c' pc₀ =>
    obtain ⟨rfl, rfl⟩ := Proc.settle.inj h
    exact ⟨pc₀, rfl, rfl⟩
  | _ => exact absurd h (by simp [Proc.after])

omit [Collation] in
theorem settle_of_resume {c : SettleCall} {pc : SettlePc} (h : Proc.settle c pc = q.resume a) :
    ∃ pc₀, q = .settle c pc₀ ∧ pc = pc₀.resume a := by
  cases q with
  | settle c' pc₀ =>
    obtain ⟨rfl, rfl⟩ := Proc.settle.inj h
    exact ⟨pc₀, rfl, rfl⟩
  | _ => exact absurd h (by simp [Proc.resume])

omit [Collation] in
theorem quiet_settle (h : Quiet st ch q st' q') {c : SettleCall} {pc : SettlePc}
    (hq' : q' = .settle c pc) : q = .settle c pc := by
  cases h with
  | respond c' tag r hc => exact hq'
  | _ => exact absurd hq' (by simp)

theorem settle_committed {c : SettleCall} {pc : SettlePc} {r : Res} (hq : s.At p (.settle c pc))
    (hstmt : pc.stmt c = some stmt) (h : Committed s e s' p stmt r) :
    SettleArrives s e s' p c (pc.after c (.ok r)) := by
  obtain ⟨locked, -, hexec⟩ := h.event
  cases pc with
  | load =>
    obtain rfl := Option.some.inj hstmt
    obtain ⟨o, rfl, -⟩ := exec_get hexec
    simp only [SettlePc.after]
    split
    · rename_i hst
      exact .settledBefore o hq h hst
    · split
      · rename_i hst
        exact .unfit o hq h hst
      · rename_i hst
        exact .loaded o hq h (not_not.mp hst)
  | claim o =>
    obtain rfl := Option.some.inj hstmt
    exact .claimed o r hq h
  | revert cause => exact .reverted cause hq
  | finalize =>
    obtain rfl := Option.some.inj hstmt
    exact .finalized r hq h
  | compensate cause => exact .compensated cause hq
  | reload =>
    obtain rfl := Option.some.inj hstmt
    obtain ⟨o, rfl, -⟩ := exec_get hexec
    exact .reloaded o hq h
  | _ => exact absurd hstmt (by simp [SettlePc.stmt])

theorem settle_failed {c : SettleCall} {pc : SettlePc} (hq : s.At p (.settle c pc))
    (hstmt : pc.stmt c = some stmt) (h : Failed s e s' p stmt err) :
    SettleArrives s e s' p c (pc.after c (.error err)) := by
  cases pc with
  | load =>
    obtain rfl := Option.some.inj hstmt
    exact .unloaded _ err (Or.inl rfl) hq h
  | claim o =>
    obtain rfl := Option.some.inj hstmt
    exact .unclaimed o err hq h
  | revert cause => exact .reverted cause hq
  | finalize =>
    obtain rfl := Option.some.inj hstmt
    exact .unfinalized err hq h
  | compensate cause => exact .compensated cause hq
  | reload =>
    obtain rfl := Option.some.inj hstmt
    exact .unloaded _ err (Or.inr rfl) hq h
  | _ => exact absurd hstmt (by simp [SettlePc.stmt])

/-- **How `cancel` and `Pay` move.** -/
theorem settle_arrives (hs : step s e = some s') {c : SettleCall} {pc : SettlePc}
    (h : s'.At p (.settle c pc)) :
    SettleArrives s e s' p c pc := by
  generalize hq' : Proc.settle c pc = q' at h
  cases arrives hs h with
  | kept q hq => exact .kept pc (hq' ▸ hq)
  | spawned q he hp hadm =>
    subst hq'
    obtain ⟨rfl, hadm⟩ := mayStart_settle hadm
    exact .started he hadm
  | committed q stmt r hq hstmt hok =>
    obtain ⟨pc₀, rfl, rfl⟩ := settle_of_after hq'
    exact settle_committed hq hstmt hok
  | failed q stmt err hq hstmt herr =>
    obtain ⟨pc₀, rfl, rfl⟩ := settle_of_after hq'
    exact settle_failed hq hstmt herr
  | quiet q q' ch he hq hquiet hstill =>
    obtain rfl := quiet_settle hquiet hq'.symm
    exact .kept pc hq
  | answered q op r hq hop ha hstill =>
    obtain ⟨pc₀, rfl, rfl⟩ := settle_of_resume hq'
    cases pc₀ with
    | call o => exact .settled o op r hq (Option.some.inj hop) ha hstill
    | _ => exact absurd hop (by simp [Proc.request, SettlePc.request])
  | refused q op err hq hop herr hstill =>
    obtain ⟨pc₀, rfl, rfl⟩ := settle_of_resume hq'
    cases pc₀ with
    | call o => exact .unsettled o op err hq (Option.some.inj hop) herr hstill
    | _ => exact absurd hop (by simp [Proc.request, SettlePc.request])

/-- A call keeps its parameters. -/
theorem settle_origin (hs : step s e = some s') {c : SettleCall} {pc : SettlePc}
    (h : s'.At p (.settle c pc)) :
    (∃ pc₀, s.At p (.settle c pc₀)) ∨ mayStartSettle s.procs c = true := by
  cases settle_arrives hs h with
  | started he hadm => exact Or.inr hadm
  | _ => exact Or.inl ⟨_, by assumption⟩

/-! ## 3. Finish -/

/-- How a call of `Finish` came to be in a state. -/
inductive FinishArrives (s : State) (e : Event) (s' : State) (p : Nat) (c : FinishCall) :
    FinishPc → Prop
  | kept (pc : FinishPc) (hq : s.At p (.finish c pc)) : FinishArrives s e s' p c pc
  | started (he : e = .spawn (.finish c .update)) : FinishArrives s e s' p c .update
  | updated (r : Res) (hq : s.At p (.finish c .update))
      (h : Committed s e s' p (.finish c.userID c.orderID) r) : FinishArrives s e s' p c .get
  | gotten (o : Order) (hq : s.At p (.finish c .get))
      (h : Committed s e s' p (.get (some c.userID) c.orderID) (.order c.orderID o)) :
      FinishArrives s e s' p c (.returned (.ok (c.orderID, o)))
  | errored (pc : FinishPc) (err : Err) (hq : s.At p (.finish c pc)) :
      FinishArrives s e s' p c (.returned (.error err))

omit [Collation] in
theorem finish_of_after {c : FinishCall} {pc : FinishPc} (h : Proc.finish c pc = q.after r) :
    ∃ pc₀, q = .finish c pc₀ ∧ pc = pc₀.after r := by
  cases q with
  | finish c' pc₀ =>
    obtain ⟨rfl, rfl⟩ := Proc.finish.inj h
    exact ⟨pc₀, rfl, rfl⟩
  | _ => exact absurd h (by simp [Proc.after])

omit [Collation] in
/-- `Finish` waits for nobody. -/
theorem finish_of_resume {c : FinishCall} {pc : FinishPc} (h : Proc.finish c pc = q.resume a) :
    q.request = none := by
  cases q with
  | finish c' pc₀ => rfl
  | publisher cfg pc₀ => rfl
  | delivery d pc₀ => rfl
  | _ => exact absurd h (by simp [Proc.resume])

omit [Collation] in
theorem mayStart_finish {c : FinishCall} {pc : FinishPc}
    (h : mayStart st procs (.finish c pc) = true) : pc = .update := by
  cases pc with
  | update => rfl
  | _ => exact absurd h (by simp [mayStart])

omit [Collation] in
theorem not_quiet_finish (h : Quiet st ch q st' q') {c : FinishCall} {pc : FinishPc} :
    q' ≠ .finish c pc := by
  cases h with
  | _ => simp

/-- **How `Finish` moves.** -/
theorem finish_arrives (hs : step s e = some s') {c : FinishCall} {pc : FinishPc}
    (h : s'.At p (.finish c pc)) :
    FinishArrives s e s' p c pc := by
  generalize hq' : Proc.finish c pc = q' at h
  cases arrives hs h with
  | kept q hq => exact .kept pc (hq' ▸ hq)
  | spawned q he hp hadm =>
    subst hq'
    obtain rfl := mayStart_finish hadm
    exact .started he
  | committed q stmt r hq hstmt hok =>
    obtain ⟨pc₀, rfl, rfl⟩ := finish_of_after hq'
    cases pc₀ with
    | update =>
      obtain rfl := Option.some.inj hstmt
      exact .updated r hq hok
    | get =>
      obtain rfl := Option.some.inj hstmt
      obtain ⟨locked, -, hexec⟩ := hok.event
      obtain ⟨o, rfl, -⟩ := exec_get hexec
      exact .gotten o hq hok
    | returned result => exact absurd hstmt (by simp [Proc.stmt, FinishPc.stmt])
  | failed q stmt err hq hstmt herr =>
    obtain ⟨pc₀, rfl, rfl⟩ := finish_of_after hq'
    cases pc₀ with
    | update => exact .errored _ err hq
    | get => exact .errored _ err hq
    | returned result => exact absurd hstmt (by simp [Proc.stmt, FinishPc.stmt])
  | quiet q q' ch he hq hquiet hstill => exact absurd hq'.symm (not_quiet_finish hquiet)
  | answered q op r hq hop ha hstill =>
    exact absurd (hop.symm.trans (finish_of_resume hq')) (by simp)
  | refused q op err hq hop herr hstill =>
    exact absurd (hop.symm.trans (finish_of_resume hq')) (by simp)

/-! ## 4. Reconciliation -/

/-- The tasks a reconciliation worker still has in hand. -/
def reconTasks : ReconPc → List ClaimedTask
  | .idle => []
  | .claim => []
  | .load task rest => task :: rest
  | .call task _ rest => task :: rest
  | .complete task _ _ rest => task :: rest
  | .markFailed task _ rest => task :: rest
  | .markUnresolved task _ rest => task :: rest

omit [Collation] in
theorem reconTasks_next (rest : List ClaimedTask) : reconTasks (ReconPc.next rest) = rest := by
  cases rest <;> rfl

/-- How a reconciliation worker came to be in a state. -/
inductive ReconArrives (s : State) (e : Event) (s' : State) (p : Nat)
    (cfg : ReconciliationWorkerConfig) : ReconPc → Prop
  | kept (pc : ReconPc) (hq : s.At p (.recon cfg pc)) : ReconArrives s e s' p cfg pc
  | idle : ReconArrives s e s' p cfg .idle
  | polled : ReconArrives s e s' p cfg .claim
  | claimed (task : ClaimedTask) (rest : List ClaimedTask) (hq : s.At p (.recon cfg .claim))
      (h : Committed s e s' p (.claimTasks cfg.workerID cfg.leaseDuration cfg.batchSize)
        (.tasks (task :: rest))) : ReconArrives s e s' p cfg (.load task rest)
  /-- done with a task, on to the next -/
  | advanced (pc : ReconPc) (done task : ClaimedTask) (rest : List ClaimedTask)
      (hq : s.At p (.recon cfg pc)) (htasks : reconTasks pc = done :: task :: rest) :
      ReconArrives s e s' p cfg (.load task rest)
  | calling (task : ClaimedTask) (o : Order) (rest : List ClaimedTask)
      (hq : s.At p (.recon cfg (.load task rest)))
      (h : Committed s e s' p (.get none task.2.orderID) (.order task.2.orderID o))
      (hst : o.status = .reconciliationRequired) : ReconArrives s e s' p cfg (.call task o rest)
  /-- the order has the target status already -/
  | reached (task : ClaimedTask) (o : Order) (target : OrderStatus) (closes : Bool)
      (t : InventorySvc.Settlement) (rest : List ClaimedTask)
      (hq : s.At p (.recon cfg (.load task rest)))
      (h : Committed s e s' p (.get none task.2.orderID) (.order task.2.orderID o))
      (hplan : task.2.action.plan = some (target, closes, t)) (hst : o.status = target) :
      ReconArrives s e s' p cfg (.complete task target closes rest)
  | settled (task : ClaimedTask) (o : Order) (target : OrderStatus) (closes : Bool)
      (t : InventorySvc.Settlement) (rest : List ClaimedTask) (op : InventoryOp) (r : Reservation)
      (hq : s.At p (.recon cfg (.call task o rest)))
      (hplan : task.2.action.plan = some (target, closes, t))
      (hop : settleRequest t o.reservationID = some op) (ha : Answered s e p op (.ok r))
      (hstill : Still s s') : ReconArrives s e s' p cfg (.complete task target closes rest)
  | failed (pc : ReconPc) (task : ClaimedTask) (cause : Err) (rest : List ClaimedTask)
      (hq : s.At p (.recon cfg pc)) (htasks : reconTasks pc = task :: rest) :
      ReconArrives s e s' p cfg (.markFailed task cause rest)
  | unresolved (pc : ReconPc) (task : ClaimedTask) (reason : GoString) (rest : List ClaimedTask)
      (hq : s.At p (.recon cfg pc)) (htasks : reconTasks pc = task :: rest) :
      ReconArrives s e s' p cfg (.markUnresolved task reason rest)

omit [Collation] in
theorem recon_of_after (h : Proc.recon cfg pc = q.after r) :
    ∃ pc₀, q = .recon cfg pc₀ ∧ pc = pc₀.after r := by
  cases q with
  | recon cfg' pc₀ =>
    obtain ⟨rfl, rfl⟩ := Proc.recon.inj h
    exact ⟨pc₀, rfl, rfl⟩
  | _ => exact absurd h (by simp [Proc.after])

omit [Collation] in
theorem recon_of_resume (h : Proc.recon cfg pc = q.resume a) :
    ∃ pc₀, q = .recon cfg pc₀ ∧ pc = pc₀.resume a := by
  cases q with
  | recon cfg' pc₀ =>
    obtain ⟨rfl, rfl⟩ := Proc.recon.inj h
    exact ⟨pc₀, rfl, rfl⟩
  | _ => exact absurd h (by simp [Proc.resume])

omit [Collation] in
theorem quiet_recon (h : Quiet st ch q st' q') (hq' : q' = .recon cfg pc) :
    pc = .claim := by
  cases h with
  | pollRecon cfg' => exact (Proc.recon.inj hq').2.symm
  | _ => exact absurd hq' (by simp)

theorem recon_next {done : ClaimedTask} {rest : List ClaimedTask} (hq : s.At p (.recon cfg pc))
    (htasks : reconTasks pc = done :: rest) : ReconArrives s e s' p cfg (ReconPc.next rest) := by
  cases rest with
  | nil => exact .idle
  | cons task rest => exact .advanced pc done task rest hq htasks

theorem recon_committed {r : Res} (hq : s.At p (.recon cfg pc)) (hstmt : pc.stmt cfg = some stmt)
    (h : Committed s e s' p stmt r) :
    ReconArrives s e s' p cfg (pc.after (.ok r)) := by
  obtain ⟨locked, -, hexec⟩ := h.event
  cases pc with
  | claim =>
    obtain rfl := Option.some.inj hstmt
    obtain ⟨tasks, rfl, -⟩ := claimTasks_ok hexec
    cases tasks with
    | nil => exact .idle
    | cons task rest => exact .claimed task rest hq h
  | load task rest =>
    obtain rfl := Option.some.inj hstmt
    obtain ⟨o, rfl, -⟩ := exec_get hexec
    simp only [ReconPc.after, ReconPc.dispatch]
    split
    · exact .unresolved _ task _ rest hq rfl
    · rename_i target closes t hplan
      split
      · rename_i hst
        exact .reached task o target closes t rest hq h hplan hst
      · split
        · exact .unresolved _ task _ rest hq rfl
        · rename_i hst
          exact .calling task o rest hq h (not_not.mp hst)
  | complete task target closes rest => exact recon_next hq rfl
  | markFailed task cause rest => exact recon_next hq rfl
  | markUnresolved task reason rest => exact recon_next hq rfl
  | _ => exact absurd hstmt (by simp [ReconPc.stmt])

theorem recon_failed (hq : s.At p (.recon cfg pc)) (hstmt : pc.stmt cfg = some stmt) :
    ReconArrives s e s' p cfg (pc.after (.error err)) := by
  cases pc with
  | claim => exact .idle
  | load task rest =>
    cases err with
    | orderNotFound => exact .unresolved _ task _ rest hq rfl
    | _ => exact .failed _ task _ rest hq rfl
  | complete task target closes rest =>
    cases err with
    | stateMismatch detail => exact .unresolved _ task _ rest hq rfl
    | _ => exact .failed _ task _ rest hq rfl
  | markFailed task cause rest => exact recon_next hq rfl
  | markUnresolved task reason rest => exact recon_next hq rfl
  | _ => exact absurd hstmt (by simp [ReconPc.stmt])

/-- **How the reconciliation worker moves.** -/
theorem recon_arrives (hs : step s e = some s') (h : s'.At p (.recon cfg pc)) :
    ReconArrives s e s' p cfg pc := by
  generalize hq' : Proc.recon cfg pc = q' at h
  cases arrives hs h with
  | kept q hq => exact .kept pc (hq' ▸ hq)
  | spawned q he hp hadm =>
    subst hq'
    cases pc with
    | idle => exact .idle
    | _ => exact absurd hadm (by simp [mayStart])
  | committed q stmt r hq hstmt hok =>
    obtain ⟨pc₀, rfl, rfl⟩ := recon_of_after hq'
    exact recon_committed hq hstmt hok
  | failed q stmt err hq hstmt herr =>
    obtain ⟨pc₀, rfl, rfl⟩ := recon_of_after hq'
    exact recon_failed hq hstmt
  | quiet q q' ch he hq hquiet hstill =>
    obtain rfl := quiet_recon hquiet hq'.symm
    exact .polled
  | answered q op r hq hop ha hstill =>
    obtain ⟨pc₀, rfl, rfl⟩ := recon_of_resume hq'
    cases pc₀ with
    | call task o rest =>
      simp only [Proc.request, ReconPc.request] at hop
      obtain ⟨⟨target, closes, t⟩, hplan, hreq⟩ := Option.map_eq_some_iff.mp hop
      simp only [ReconPc.resume, hplan]
      exact .settled task o target closes t rest op r hq hplan hreq ha hstill
    | _ => exact absurd hop (by simp [Proc.request, ReconPc.request])
  | refused q op err hq hop herr hstill =>
    obtain ⟨pc₀, rfl, rfl⟩ := recon_of_resume hq'
    cases pc₀ with
    | call task o rest => exact .failed _ task _ rest hq rfl
    | _ => exact absurd hop (by simp [Proc.request, ReconPc.request])

/-- A batch is what is left of the batch before, or has just been claimed. -/
theorem recon_batch (hs : step s e = some s') (h : s'.At p (.recon cfg pc)) :
    reconTasks pc = [] ∨ (∃ pc₀, s.At p (.recon cfg pc₀) ∧ reconTasks pc <:+ reconTasks pc₀) ∨
      (s.At p (.recon cfg .claim) ∧ Committed s e s' p
        (.claimTasks cfg.workerID cfg.leaseDuration cfg.batchSize) (.tasks (reconTasks pc))) := by
  cases recon_arrives hs h with
  | kept pc hq => exact Or.inr (Or.inl ⟨pc, hq, List.suffix_rfl⟩)
  | idle => exact Or.inl rfl
  | polled => exact Or.inl rfl
  | claimed task rest hq hok => exact Or.inr (Or.inr ⟨hq, hok⟩)
  | advanced pc done task rest hq htasks =>
    exact Or.inr (Or.inl ⟨pc, hq, htasks ▸ List.suffix_cons done _⟩)
  | calling task o rest hq => exact Or.inr (Or.inl ⟨_, hq, List.suffix_rfl⟩)
  | reached task o target closes t rest hq => exact Or.inr (Or.inl ⟨_, hq, List.suffix_rfl⟩)
  | settled task o target closes t rest op r hq =>
    exact Or.inr (Or.inl ⟨_, hq, List.suffix_rfl⟩)
  | failed pc task cause rest hq htasks =>
    exact Or.inr (Or.inl ⟨pc, hq, htasks ▸ List.suffix_rfl⟩)
  | unresolved pc task reason rest hq htasks =>
    exact Or.inr (Or.inl ⟨pc, hq, htasks ▸ List.suffix_rfl⟩)

/-- A worker has a task in hand because it had it before, or because it has just claimed it. -/
theorem recon_tasks (hs : step s e = some s') (h : s'.At p (.recon cfg pc)) {task : ClaimedTask}
    (ht : task ∈ reconTasks pc) :
    (∃ pc₀, s.At p (.recon cfg pc₀) ∧ task ∈ reconTasks pc₀) ∨
      ∃ tasks, task ∈ tasks ∧ s.At p (.recon cfg .claim) ∧ Committed s e s' p
        (.claimTasks cfg.workerID cfg.leaseDuration cfg.batchSize) (.tasks tasks) := by
  rcases recon_batch hs h with hnil | ⟨pc₀, hq, hsuf⟩ | ⟨hq, hok⟩
  · rw [hnil] at ht
    exact absurd ht (by simp)
  · exact Or.inl ⟨pc₀, hq, hsuf.mem ht⟩
  · exact Or.inr ⟨_, ht, hq, hok⟩

end

end OrderSystem.Saga
