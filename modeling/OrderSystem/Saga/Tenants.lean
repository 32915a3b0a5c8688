/-
# Tenants

Only the first statements of `Cancel`, `Pay` and `Finish` look at the user; the writes after them
go by the id of the order alone, and so do the requests to the inventory service.  This module
shows that the first statements are enough: no call made as one user returns, changes or settles
an order of another.

* `Proc.worksOn` is the order a call goes on with after those statements, and `Isolated`
  says that it belongs to the user of the call.  An order keeps its user (`Evolves`), so what
  the user filter found once stays true however the calls interleave.
* `owner_of_change` is the consequence for writes and `asks_owner` the one for requests.
* `Get` and `List` run beside the saga.  They change nothing, so `Tenants` adds them to it as
  readers of its database.
-/
import OrderSystem.Saga.Knowledge
import OrderSystem.Saga.Agreement

namespace OrderSystem.Saga

open OrderSystem.Kit
open OrderSystem.OrderSvc

/-! ## 1. The calls of a user -/

/-- The user a call is made as.  The workers, and `TimeoutCancel`, act for nobody. -/
def Proc.madeAs : Proc → Option Int
  | .create c _ => some c.userID
  | .settle c _ => c.user
  | .finish c _ => some c.userID
  | .recon _ _ | .publisher _ _ | .delivery _ _ => none

/-- The order a call has returned. -/
def Proc.returned : Proc → Option (Nat × Order)
  | .create _ (.returned (.ok r)) => some r
  | .settle _ (.returned (.ok r)) => some r
  | .finish _ (.returned (.ok r)) => some r
  | _ => none

/-- The order a call works on by its id alone. -/
def Proc.worksOn : Proc → Option Nat
  | .create _ (.reserve orderID _ _) => some orderID
  | .create _ (.fail orderID _) => some orderID
  | .create _ (.finalize orderID _) => some orderID
  | .create _ (.release orderID _ _) => some orderID
  | .create _ (.compensate orderID _ _ _) => some orderID
  | .settle c (.call _) => some c.orderID
  | .settle c (.revert _) => some c.orderID
  | .settle c .finalize => some c.orderID
  | .settle c (.compensate _) => some c.orderID
  | _ => none

/-- The order belongs to the user. -/
def Owns (db : DB) (userID : Int) (orderID : Nat) : Prop :=
  ∃ o, db.orders.row orderID = some o ∧ o.userID = userID

theorem Owns.unique {db : DB} {u v : Int} {orderID : Nat} (h : Owns db u orderID)
    (h' : Owns db v orderID) : u = v := by
  obtain ⟨o, ho, rfl⟩ := h
  obtain ⟨o', ho', rfl⟩ := h'
  rw [Option.some.inj (ho.symm.trans ho')]

theorem Owns.mono {db db' : DB} {inv inv' : InventorySvc.DB} {u : Int} {orderID : Nat}
    (h : Owns db u orderID) (hev : Evolves db db' inv inv') : Owns db' u orderID := by
  obtain ⟨o, ho, hu⟩ := h
  obtain ⟨o', ho', hsame, -⟩ := hev.orders orderID o ho
  exact ⟨o', ho', hsame.userID.trans hu⟩

theorem Mine.owns {db : DB} {c : CreateCall} {orderID : Nat} {id : GoString}
    (h : Mine db c orderID id) : Owns db c.userID orderID := by
  obtain ⟨o, ho, hu, -⟩ := h
  exact ⟨o, ho, hu⟩

/-- A call that works on an order by its id works on an order of its user, and returns only
orders of its user. -/
structure Isolated (s : State) : Prop where
  works : ∀ p q u i, s.At p q → q.madeAs = some u → q.worksOn = some i → Owns s.store.db u i
  returns : ∀ p q u r, s.At p q → q.madeAs = some u → q.returned = some r → r.2.userID = u

/-! ## 2. One step -/

section

variable [Collation]

variable {s : State} {p i : Nat} {o : Order} {u now v : Int} {q : Proc} {stmt : Stmt}
  {locked : List Nat} {db' : DB}

/-- `Create` works on the order it inserted. -/
theorem create_works (hk : Known s) {c : CreateCall} {pc : CreatePc} (hq : s.At p (.create c pc))
    (hi : (Proc.create c pc).worksOn = some i) :
    Owns s.store.db c.userID i := by
  have hok : createOk s.store.db s.remote c pc := hk.procs p _ hq
  cases pc with
  | reserve orderID id items => exact Option.some.inj hi ▸ Mine.owns hok
  | fail orderID cause =>
    obtain ⟨id, hm⟩ := hok
    exact Option.some.inj hi ▸ hm.owns
  | finalize orderID id => exact Option.some.inj hi ▸ hok.1.owns
  | release orderID id cause => exact Option.some.inj hi ▸ hok.1.owns
  | compensate orderID status reason result =>
    obtain ⟨⟨id, hm⟩, -⟩ := hok
    exact Option.some.inj hi ▸ hm.owns
  | _ => exact absurd hi (by simp [Proc.worksOn])

/-- `Create` finds and loads orders of its user. -/
theorem create_returns {s' : State} {e : Event} (hI : Isolated s) (hs : step s e = some s')
    {c : CreateCall} (hq : s'.At p (.create c (.returned (.ok (i, o))))) : o.userID = c.userID := by
  cases create_arrives hs hq with
  | kept pc hq₀ => exact hI.returns p _ _ _ hq₀ rfl rfl
  | found pc i o hpc hq₀ hok => exact hok.found.2.1
  | gotten orderID o hq₀ hok => exact hok.loaded.2 c.userID rfl

/-- `cancel` and `Pay` work on the order they claimed, which the claim found to be the user's. -/
theorem settle_works {s s' : State} {e : Event} (hI : Isolated s) (hs : step s e = some s')
    (hev : Evolves s.store.db s'.store.db s.remote s'.remote) {p : Nat} {c : SettleCall}
    {pc : SettlePc} (hq : s'.At p (.settle c pc)) {u : Int} (hu : c.user = some u) {i : Nat}
    (hi : (Proc.settle c pc).worksOn = some i) : Owns s'.store.db u i := by
  cases settle_arrives hs hq with
  | kept pc hq₀ => exact (hI.works p _ u i hq₀ hu hi).mono hev
  | claimed o r hq₀ hok =>
    obtain ⟨locked, -, hexec⟩ := hok.event
    rw [hu] at hexec
    obtain ⟨-, hn, -⟩ := affected_ok hexec
    have howns : Owns s.store.db u c.orderID := moveStatus_user hn
    exact Option.some.inj hi ▸ howns.mono hev
  | settled o op r hq₀ hop ha hstill => exact (hI.works p _ u i hq₀ hu hi).mono hev
  | unsettled o op err hq₀ hop herr hstill => exact (hI.works p _ u i hq₀ hu hi).mono hev
  | unfinalized err hq₀ herr => exact (hI.works p _ u i hq₀ hu hi).mono hev
  | _ => exact absurd hi (by simp [Proc.worksOn])

/-- ...and return the order they loaded. -/
theorem settle_returns {s' : State} {e : Event} (hI : Isolated s) (hs : step s e = some s')
    {c : SettleCall} (hq : s'.At p (.settle c (.returned (.ok (i, o))))) (hu : c.user = some u) :
    o.userID = u := by
  cases settle_arrives hs hq with
  | kept pc hq₀ => exact hI.returns p _ _ _ hq₀ hu rfl
  | settledBefore o hq₀ hok hst => exact hok.loaded.2 u hu
  | reloaded o hq₀ hok => exact hok.loaded.2 u hu

/-- `Finish` returns the order it loads after its update. -/
theorem finish_returns {s' : State} {e : Event} (hI : Isolated s) (hs : step s e = some s')
    {c : FinishCall} (hq : s'.At p (.finish c (.returned (.ok (i, o))))) : o.userID = c.userID := by
  cases finish_arrives hs hq with
  | kept pc hq₀ => exact hI.returns p _ _ _ hq₀ rfl rfl
  | gotten o hq₀ hok => exact hok.loaded.2 c.userID rfl

omit [Collation] in
/-- The calls that return an order. -/
theorem returned_cases {r : Nat × Order} (h : q.returned = some r) :
    (∃ c, q = .create c (.returned (.ok r))) ∨ (∃ c, q = .settle c (.returned (.ok r))) ∨
      ∃ c, q = .finish c (.returned (.ok r)) := by
  unfold Proc.returned at h
  split at h
  · obtain rfl := Option.some.inj h
    exact Or.inl ⟨_, rfl⟩
  · obtain rfl := Option.some.inj h
    exact Or.inr (Or.inl ⟨_, rfl⟩)
  · obtain rfl := Option.some.inj h
    exact Or.inr (Or.inr ⟨_, rfl⟩)
  · exact absurd h (by simp)

/-- **A step keeps the calls apart.** -/
theorem Isolated.step {s' : State} {e : Event} (hI : Isolated s) (hk : Known s)
    (hs : step s e = some s') : Isolated s' := by
  have hk' : Known s' := hk.step hs
  have hev := evolves_step hk (change_of_step hs)
  constructor
  · intro p q u i hq hu hi
    cases q with
    | create c pc => exact Option.some.inj hu ▸ create_works hk' hq hi
    | settle c pc => exact settle_works hI hs hev hq hu hi
    | _ => exact absurd hi (by simp [Proc.worksOn])
  · rintro p q u ⟨i, o⟩ hq hu hr
    rcases returned_cases hr with ⟨c, rfl⟩ | ⟨c, rfl⟩ | ⟨c, rfl⟩
    · exact Option.some.inj hu ▸ create_returns hI hs hq
    · exact settle_returns hI hs hq hu
    · exact Option.some.inj hu ▸ finish_returns hI hs hq

omit [Collation] in
theorem isolated_start : Isolated start where
  works p q u i h := absurd h (by simp [World.At, World.init, start])
  returns p q u r h := absurd h (by simp [World.At, World.init, start])

/-! ## 3. Writes and requests -/

/-- A statement of a user's call writes only orders of that user. -/
theorem owner_of_change (hI : Isolated s) (hq : s.At p q) (hu : q.madeAs = some u)
    (hstmt : q.stmt = some stmt) {r : Res} (hexec : stmt.exec now locked s.store.db = .ok (r, db'))
    {old : Option OrderStatus} {new : OrderStatus} (hch : stmt.change = some (i, old, new)) :
    Owns s.store.db u i := by
  have hworks : ∀ {j}, q.worksOn = some j → j = i → Owns s.store.db u i := fun hj hji =>
    hI.works p q u i hq hu (hji ▸ hj)
  cases writer_of_change hstmt hch with
  | createFail c orderID cause => exact hworks rfl (Prod.mk.inj (Option.some.inj hch)).1
  | createFinalize c orderID id => exact hworks rfl (Prod.mk.inj (Option.some.inj hch)).1
  | createCompensate c orderID status reason result =>
    exact hworks rfl (Prod.mk.inj (Option.some.inj hch)).1
  | settleRevert c cause => exact hworks rfl (Prod.mk.inj (Option.some.inj hch)).1
  | settleFinalize c => exact hworks rfl (Prod.mk.inj (Option.some.inj hch)).1
  | settleCompensate c cause => exact hworks rfl (Prod.mk.inj (Option.some.inj hch)).1
  | settleClaim c o =>
    -- the update names the user
    rw [show c.user = some u from hu] at hexec
    obtain ⟨-, hn, -⟩ := affected_ok hexec
    exact (Prod.mk.inj (Option.some.inj hch)).1 ▸ moveStatus_user hn
  | finish c =>
    obtain ⟨-, hn, -⟩ := affected_ok hexec
    obtain rfl := Option.some.inj hu
    exact (Prod.mk.inj (Option.some.inj hch)).1 ▸ moveStatus_user hn
  | complete cfg task target closes rest => exact absurd hu (by simp [Proc.madeAs])

/-- The orders of the user, their items and their timeout rows are the same in the two
databases. -/
structure Untouched (v : Int) (db db' : DB) : Prop where
  orders : ∀ i o, o.userID = v → (db'.orders.row i = some o ↔ db.orders.row i = some o)
  outbox : ∀ k row, Owns db v row.orderID →
    (db'.outbox.row k = some row ↔ db.outbox.row k = some row)

omit [Collation] in
theorem Untouched.refl (v : Int) (db : DB) : Untouched v db db :=
  ⟨fun _ _ _ => Iff.rfl, fun _ _ _ => Iff.rfl⟩

/-- The statements of the workers and of the timeout deliveries. -/
def ofWorker : Stmt → Bool
  | .claimTasks _ _ _ | .completeTask _ _ _ _ _ | .markTask _ _ _ _ _ _ => true
  | .claimPending _ _ _ | .releaseClaimedLeases _ _ | .markOutboxPublished _ _ => true
  | .markOutboxFailure _ _ _ _ | .recordFailure _ _ | .completeOutbox _ => true
  | _ => false

omit [Collation] in
theorem not_ofWorker (hu : q.madeAs = some u) (hstmt : q.stmt = some stmt) :
    ofWorker stmt = false := by
  cases q with
  | create c pc =>
    cases pc <;> first
      | exact Option.some.inj hstmt ▸ rfl
      | exact absurd hstmt (by simp [Proc.stmt, CreatePc.stmt])
  | settle c pc =>
    cases pc <;> first
      | exact Option.some.inj hstmt ▸ rfl
      | exact absurd hstmt (by simp [Proc.stmt, SettlePc.stmt])
  | finish c pc =>
    cases pc <;> first
      | exact Option.some.inj hstmt ▸ rfl
      | exact absurd hstmt (by simp [Proc.stmt, FinishPc.stmt])
  | _ => exact absurd hu (by simp [Proc.madeAs])

/-- What a statement of a user's call does to a timeout row: nothing, or it closes one of an
order of the user. -/
theorem timeout_change (hI : Isolated s) (hq : s.At p q) (hu : q.madeAs = some u)
    (hstmt : q.stmt = some stmt) {r : Res} (hexec : stmt.exec now locked s.store.db = .ok (r, db'))
    {k : Nat} {row row' : TimeoutOutbox} (h : OutboxChange now stmt r k row row') :
    row' = row ∨ Owns s.store.db u row.orderID := by
  have huser : ofWorker stmt = false := not_ofWorker hu hstmt
  cases h with
  | same => exact Or.inl rfl
  | closed hclose hst =>
    rcases hclose with ⟨transient, final, rfl⟩ | ⟨taskID, workerID, target, rfl⟩
    · exact Or.inr (owner_of_change hI hq hu hstmt hexec rfl)
    · exact absurd huser (by simp [ofWorker])
  | leased workerID leaseDuration batchSize events heq hr hmem hst hopen =>
    exact absurd huser (by simp [heq, ofWorker])
  | published workerID heq howns => exact absurd huser (by simp [heq, ofWorker])
  | failed workerID lastError retryDelay heq howns => exact absurd huser (by simp [heq, ofWorker])
  | released ids workerID heq hmem howns => exact absurd huser (by simp [heq, ofWorker])
  | noted lastError heq => exact absurd huser (by simp [heq, ofWorker])
  | consumed heq => exact absurd huser (by simp [heq, ofWorker])

/-- **A statement of a user's call leaves the others' rows alone.** -/
theorem untouched_exec (hk : Known s) (hI : Isolated s) (huv : u ≠ v) (hq : s.At p q)
    (hu : q.madeAs = some u) (hstmt : q.stmt = some stmt) {r : Res}
    (hexec : stmt.exec now locked s.store.db = .ok (r, db')) : Untouched v s.store.db db' := by
  have hother : ∀ {i old new}, stmt.change = some (i, old, new) → ¬Owns s.store.db v i :=
    fun hch howns => huv ((owner_of_change hI hq hu hstmt hexec hch).unique howns)
  refine ⟨fun i o ho => ⟨fun h => ?_, fun h => ?_⟩, fun k row hown => ⟨fun h => ?_, fun h => ?_⟩⟩
  · rcases (exec_orders hexec).backward h with h | ⟨draft, hacc, rfl, -, rfl⟩ | ⟨x, old, hx, hch⟩
    · exact h
    · -- a new order belongs to the caller
      obtain ⟨c, items, rfl⟩ := insert_of_stmt hstmt
      obtain ⟨hdraft, -⟩ := hk.procs p _ hq
      exact absurd ((Option.some.inj hu).symm.trans (hdraft.symm.trans ho)) huv
    · exact absurd ⟨x, hx, hch.same.userID.symm.trans ho⟩ (hother hch.change)
  · rcases (exec_orders hexec).forward h with h' | ⟨x, old, -, hch⟩
    · exact h'
    · exact absurd ⟨o, h, ho⟩ (hother hch.change)
  · cases hrow : s.store.db.outbox.row k with
    | some row₀ =>
      obtain ⟨row₁, hrow₁, hch⟩ := (exec_timeouts hexec).keeps k row₀ hrow
      obtain rfl := Option.some.inj (hrow₁.symm.trans h)
      rcases timeout_change hI hq hu hstmt hexec hch with rfl | howns
      · rfl
      · exact absurd (howns.unique (hch.orderID ▸ hown)) huv
    | none =>
      obtain ⟨⟨rid, delay, rfl, -⟩, -⟩ := (exec_timeouts hexec).adds k row h hrow
      exact absurd hown (hother rfl)
  · obtain ⟨row', hrow', hch⟩ := (exec_timeouts hexec).keeps k row h
    rcases timeout_change hI hq hu hstmt hexec hch with rfl | howns
    · exact hrow'
    · exact absurd (howns.unique hown) huv

/-- The request is for a reservation of an order of the user: `Reserve` names the order, and
`Confirm` and `Release` name the reservation. -/
def AsksFor (s : State) (u : Int) : InventoryOp → Prop
  | .reserve req => ∃ orderID : Nat, req.orderID = orderID ∧ Owns s.store.db u orderID
  | .settle _ id => ∃ r, s.remote.reservation (trimSpace id) = some r ∧
      ∃ orderID : Nat, r.orderID = orderID ∧ Owns s.store.db u orderID

/-- A request is for the order of one user. -/
theorem AsksFor.unique {op : InventoryOp} (h : AsksFor s u op) (h' : AsksFor s v op) : u = v := by
  cases op with
  | reserve req =>
    obtain ⟨i, hi, hu⟩ := h
    obtain ⟨j, hj, hv⟩ := h'
    obtain rfl : i = j := Int.ofNat.inj (hi.symm.trans hj)
    exact hu.unique hv
  | settle t id =>
    obtain ⟨r, hr, i, hi, hu⟩ := h
    obtain ⟨r', hr', j, hj, hv⟩ := h'
    obtain rfl := Option.some.inj (hr.symm.trans hr')
    obtain rfl : i = j := Int.ofNat.inj (hi.symm.trans hj)
    exact hu.unique hv

omit [Collation] in
/-- A user's call settles the reservation of the order it works on. -/
theorem worksOn_of_settling (hu : q.madeAs = some u) (h : settling q = some i) :
    q.worksOn = some i := by
  cases q with
  | create c pc =>
    cases pc with
    | release orderID id cause => exact h
    | _ => exact absurd h (by simp [settling])
  | settle c pc =>
    cases pc with
    | call o => exact h
    | _ => exact absurd h (by simp [settling])
  | recon cfg pc => exact absurd hu (by simp [Proc.madeAs])
  | _ => exact absurd h (by simp [settling])

/-- **A call asks only for its user.** -/
theorem asks_owner (hk : Known s) (hI : Isolated s) (hq : s.At p q) (hu : q.madeAs = some u)
    {op : InventoryOp} (hop : q.request.join = some op) : AsksFor s u op := by
  cases op with
  | reserve req =>
    obtain ⟨c, orderID, id, items, rfl, ho, -, -⟩ := reserve_of_request hop
    exact ⟨orderID, ho, hI.works p _ u orderID hq hu rfl⟩
  | settle t id =>
    obtain ⟨orderID, hset, hn, hres⟩ := settling_of_request hk.wired (hk.procs p q hq) hop
    obtain ⟨r, hr, ho⟩ := hk.wired.reservation_named hn hres
    exact ⟨r, hr, orderID, ho, hI.works p q u orderID hq hu (worksOn_of_settling hu hset)⟩

/-! ## 4. The service with its readers -/

/-- The saga, and the calls of `Get` and `List` that read its database. -/
structure Tenants where
  saga : State
  readers : Table Reader

/-- What can happen: a step of the saga, or a call of `Get` or `List` starts, has its query
answered or sees it fail. -/
inductive TenantEvent where
  | saga (e : Event)
  | get (userID : Int) (orderID : Nat)
  | list (userID page pageSize : Int)
  | read (i : Nat)
  | fail (i : Nat) (message : GoString)

/-- A reader goes on. -/
def Tenants.put (s : Tenants) (i : Nat) (r : Reader) : Tenants :=
  { s with readers := s.readers.modify i fun _ => r }

def tenantStep (s : Tenants) : TenantEvent → Option Tenants
  | .saga e => (step s.saga e).map fun s' => { s with saga := s' }
  | .get u orderID => some { s with readers := s.readers.insert (.get u orderID) }
  | .list u page pageSize => some { s with readers := s.readers.insert (.list u page pageSize) }
  | .read i => ((s.readers.row i).bind (Reader.read s.saga.store.db)).map (s.put i)
  | .fail i message => ((s.readers.row i).bind (Reader.fail message)).map (s.put i)

def tenantStart : Tenants := ⟨start, Table.empty⟩

/-- **What holds of the users in every state.** -/
structure Tenants.Apart (s : Tenants) : Prop where
  known : Known s.saga
  isolated : Isolated s.saga
  reads : ∀ i r, s.readers.row i = some r → ∀ x ∈ r.orders, x.2.userID = r.userID

omit [Collation] in
theorem reads_insert {t : Table Reader}
    (h : ∀ i r, t.row i = some r → ∀ x ∈ r.orders, x.2.userID = r.userID) {r₀ : Reader}
    (h₀ : r₀.orders = []) :
    ∀ i r, (t.insert r₀).row i = some r → ∀ x ∈ r.orders, x.2.userID = r.userID := by
  intro i r hr x hx
  rw [Table.insert_row] at hr
  split at hr
  · obtain rfl := Option.some.inj hr
    exact absurd (h₀ ▸ hx) (by simp)
  · exact h i r hr x hx

theorem Tenants.Apart.put {s : Tenants} (h : s.Apart) {r' : Reader}
    (hr' : ∀ x ∈ r'.orders, x.2.userID = r'.userID) : (s.put i r').Apart := by
  refine ⟨h.known, h.isolated, fun j r hr => ?_⟩
  rw [Tenants.put, Table.modify_row] at hr
  split at hr
  · obtain ⟨r₀, -, rfl⟩ := Option.map_eq_some_iff.mp hr
    exact hr'
  · exact h.reads j r hr

variable {s' : Tenants} {e : TenantEvent}

theorem Tenants.Apart.step {s : Tenants} (h : s.Apart) (hs : tenantStep s e = some s') :
    s'.Apart := by
  cases e with
  | saga e =>
    obtain ⟨t, ht, rfl⟩ := Option.map_eq_some_iff.mp hs
    exact ⟨h.known.step ht, h.isolated.step h.known ht, h.reads⟩
  | get u orderID | list u page pageSize =>
    obtain rfl := Option.some.inj hs
    exact ⟨h.known, h.isolated, reads_insert h.reads rfl⟩
  | read i =>
    obtain ⟨r', hr', rfl⟩ := Option.map_eq_some_iff.mp hs
    obtain ⟨r, -, hread⟩ := Option.bind_eq_some_iff.mp hr'
    exact h.put (Reader.read_own hread)
  | fail i message =>
    obtain ⟨r', hr', rfl⟩ := Option.map_eq_some_iff.mp hs
    obtain ⟨r, -, hfail⟩ := Option.bind_eq_some_iff.mp hr'
    refine h.put fun x hx => ?_
    rw [Reader.fail_orders hfail] at hx
    exact absurd hx (by simp)

theorem apart_run {es : List TenantEvent} {s : Tenants}
    (h : run tenantStep tenantStart es = some s) : s.Apart :=
  run_invariant (fun _ _ _ hI hs => hI.step hs)
    ⟨known_start, isolated_start, fun _ _ h => absurd h (by simp [tenantStart])⟩ h

/-! ## 5. Every run -/

/-- The event is a step of a call made as the user. -/
def MadeAs (s : Tenants) (u : Int) : TenantEvent → Prop
  | .saga e => (∃ q, e = .spawn q ∧ q.madeAs = some u) ∨
      ∃ p q, (e = .send p ∨ e.subject = some p) ∧ s.saga.At p q ∧ q.madeAs = some u
  | .get u' _ => u' = u
  | .list u' _ _ => u' = u
  | .read i => ∃ r, s.readers.row i = some r ∧ r.userID = u
  | .fail i _ => ∃ r, s.readers.row i = some r ∧ r.userID = u

/-- A call made as the user has returned the order. -/
def ReturnedTo (s : Tenants) (u : Int) (r : Nat × Order) : Prop :=
  (∃ p q, s.saga.At p q ∧ q.madeAs = some u ∧ q.returned = some r) ∨
    ∃ i reader, s.readers.row i = some reader ∧ reader.userID = u ∧ r ∈ reader.orders

/-- A step of the saga, or one that only moves a reader. -/
theorem saga_of_step {s : Tenants} (hs : tenantStep s e = some s') :
    (∃ e', e = .saga e' ∧ step s.saga e' = some s'.saga) ∨ s'.saga = s.saga := by
  cases e with
  | saga e =>
    obtain ⟨t, ht, rfl⟩ := Option.map_eq_some_iff.mp hs
    exact Or.inl ⟨e, rfl, ht⟩
  | get u orderID => exact Or.inr (Option.some.inj hs ▸ rfl)
  | list u page pageSize => exact Or.inr (Option.some.inj hs ▸ rfl)
  | read i | fail i message =>
    obtain ⟨r, -, rfl⟩ := Option.map_eq_some_iff.mp hs
    exact Or.inr rfl

/-- A step of a user's call leaves the others' rows alone. -/
theorem untouched_step {s : Tenants} (h : s.Apart) (huv : u ≠ v) (hmade : MadeAs s u e)
    (hs : tenantStep s e = some s') :
    Untouched v s.saga.store.db s'.saga.store.db := by
  rcases saga_of_step hs with ⟨e, rfl, ht⟩ | hsame
  · cases db_step ht with
    | none hdb => exact hdb ▸ .refl v _
    | sql p o locked q stmt r he hq hstmt hexec =>
      subst he
      rcases hmade with ⟨q₀, he, -⟩ | ⟨p₀, q₀, he | he, hq₀, hu⟩
      · exact absurd he (by simp)
      · exact absurd he (by simp)
      · obtain rfl : p = p₀ := Option.some.inj he
        obtain rfl := Option.some.inj (hq.symm.trans hq₀)
        exact untouched_exec h.known h.isolated huv hq hu hstmt hexec
  · exact hsame ▸ .refl v _

/-- What a step of a user's call sends is for that user. -/
theorem sent_step {s : Tenants} (h : s.Apart) (hmade : MadeAs s u e) (hs : tenantStep s e = some s')
    :
    ∃ sent, s'.saga.requests = s.saga.requests ++ sent ∧ ∀ x ∈ sent, AsksFor s.saga u x.2 := by
  have hnone : s'.saga.requests = s.saga.requests →
      ∃ sent, s'.saga.requests = s.saga.requests ++ sent ∧ ∀ x ∈ sent, AsksFor s.saga u x.2 :=
    fun heq => ⟨[], by rw [heq, List.append_nil], by simp⟩
  rcases saga_of_step hs with ⟨e, rfl, ht⟩ | hsame
  · generalize s'.saga = t at ht hnone ⊢
    cases rpcMove_of_step ht with
    | send p q op hq hop =>
      rcases hmade with ⟨q₀, he, -⟩ | ⟨p₀, q₀, he | he, hq₀, hu⟩
      · exact absurd he (by simp)
      · obtain rfl : p = p₀ := RpcEvent.send.inj he
        obtain rfl := Option.some.inj (hq.symm.trans hq₀)
        refine ⟨[(p, op)], rfl, fun x hx => ?_⟩
        rw [List.mem_singleton.mp hx]
        exact asks_owner h.known h.isolated hq hu hop
      · exact absurd he (by simp [RpcEvent.subject])
    | dropRequest i =>
      rcases hmade with ⟨q₀, he, -⟩ | ⟨p₀, q₀, he | he, -, -⟩
      · exact absurd he (by simp)
      · exact absurd he (by simp)
      · exact absurd he (by simp [RpcEvent.subject])
    | _ => exact hnone rfl
  · exact hnone (by rw [hsame])

/-- **Tenants are isolated.**  For two users and in every run, no call made as the one has
returned an order of the other; and whatever step such a call takes next, with whatever order
id or key it was given, it leaves the other's orders, items and timeout rows as they are and
sends no request for a reservation of the other's. -/
theorem tenants_isolated {es : List TenantEvent} {s : Tenants}
    (h : run tenantStep tenantStart es = some s) {u v : Int} (huv : u ≠ v) :
    (∀ i o, ReturnedTo s u (i, o) → o.userID ≠ v) ∧
      ∀ e s', MadeAs s u e → tenantStep s e = some s' →
        Untouched v s.saga.store.db s'.saga.store.db ∧
        ∃ sent, s'.saga.requests = s.saga.requests ++ sent ∧
          ∀ x ∈ sent, ¬AsksFor s.saga v x.2 := by
  have hA : s.Apart := apart_run h
  constructor
  · rintro i o (⟨p, q, hq, hu, hr⟩ | ⟨k, reader, hk, hu, hr⟩) hv
    · exact huv ((hA.isolated.returns p q u _ hq hu hr).symm.trans hv)
    · exact huv (hu.symm.trans ((hA.reads k reader hk _ hr).symm.trans hv))
  · intro e s' hmade hs
    obtain ⟨sent, hsent, hasks⟩ := sent_step hA hmade hs
    exact ⟨untouched_step hA huv hmade hs, sent, hsent,
      fun x hx hv => huv ((hasks x hx).unique hv)⟩

end

/-- User 1 has an order.  User 2 asks for it with `Get`, lists orders, tries to pay it, and
places an order with the same key, up to the request to the inventory service. -/
def prying : List TenantEvent :=
  ordering.map .saga ++
    [.get 2 1, .read 1, .list 2 0 0, .read 2, .read 2,
      .saga (.spawn (.settle ⟨.pay, false, 2, 1, none⟩ .load)), .saga (.act 2 (.sql .ok [])),
      .saga (.spawn (.create ⟨30, 2, [0x6b], [⟨1, 3⟩]⟩ .lookup)), .saga (.act 3 (.sql .ok [])),
      .saga (.act 3 (.resolve shelf [0x77])), .saga (.act 3 (.sql .ok []))]

theorem tenants_isolated_prying :
    letI := asciiCi
    ∃ s s' : Tenants, run tenantStep tenantStart prying = some s ∧
      Owns s.saga.store.db 1 1 ∧ tenantStep s (.saga (.send 3)) = some s' ∧
      Untouched 1 s.saga.store.db s'.saga.store.db ∧
      ∃ sent, sent ≠ [] ∧ s'.saga.requests = s.saga.requests ++ sent ∧
        ∀ x ∈ sent, ¬AsksFor s.saga 1 x.2 := by
  let _ : Collation := asciiCi
  have hrun : (run tenantStep tenantStart prying).bind (fun s =>
      (tenantStep s (.saga (.send 3))).map fun s' =>
        ((s.saga.store.db.orders.row 1).map (·.userID), (s.saga.procs.row 3).map (·.madeAs),
          s.saga.requests.length, s'.saga.requests.length)) =
      some (some 1, some (some 2), 1, 2) := by decide
  obtain ⟨s, hs, hv⟩ := Option.bind_eq_some_iff.mp hrun
  obtain ⟨s', hs', hv⟩ := Option.map_eq_some_iff.mp hv
  simp only [Prod.mk.injEq] at hv
  obtain ⟨hrow, hproc, hlen, hlen'⟩ := hv
  obtain ⟨o, ho, hu⟩ := Option.map_eq_some_iff.mp hrow
  obtain ⟨q, hq, hmade⟩ := Option.map_eq_some_iff.mp hproc
  obtain ⟨huntouched, sent, hsent, hasks⟩ := (tenants_isolated hs (by decide : (2 : Int) ≠ 1)).2
    (.saga (.send 3)) s' (Or.inr ⟨3, q, Or.inl rfl, hq, hmade⟩) hs'
  refine ⟨s, s', hs, ⟨o, ho, hu⟩, hs', huntouched, sent, ?_, hsent, hasks⟩
  rintro rfl
  rw [hsent, List.append_nil, hlen] at hlen'
  exact absurd hlen' (by decide)

end OrderSystem.Saga
