/-
# What a step of the saga can do

Every proof about the saga needs to know the same things about a step, and they are said here
once.

* `change_of_step` -- what happened to the two databases: nothing; or a process committed the
  statement it was at; or the inventory service committed a request in flight; or stock was
  supplied.
* `arrives`, `reply_origin` -- how a process came to be in a state, and where an answer comes
  from.
* `Writer` -- which process states write an order, with the statement each of them is at.
* `order_step`, `order_origin` -- what a step does to an order, and where an order comes from.
-/
import OrderSystem.Saga.System
import OrderSystem.OrderSvc.Rows
import OrderSystem.InventorySvc.Settlement

namespace OrderSystem.Saga

open OrderSystem.Kit
open OrderSystem.OrderSvc
open OrderSystem.InventorySvc (Reservation Effect Supplied)

/-! ## 1. Local steps -/

/-- A local step without a statement or a request. -/
inductive Quiet (st : Local) : Choice → Proc → Local → Proc → Prop
  | resolve (c : CreateCall) (catalog : Int → Except GoString CatalogProduct) (uuid : GoString)
      (h : IsUUID uuid) :
      Quiet st (.resolve catalog uuid) (.create c .resolve) st
        (.create c (.resolved c catalog uuid))
  | pollRecon (cfg : ReconciliationWorkerConfig) :
      Quiet st .poll (.recon cfg .idle) st (.recon cfg .claim)
  | pollPublisher (cfg : WorkerConfig) :
      Quiet st .poll (.publisher cfg .idle) st (.publisher cfg .claim)
  | publish (cfg : WorkerConfig) (event : ClaimedEvent) (rest : List ClaimedEvent)
      (o : PublishOutcome) :
      Quiet st (.publish o) (.publisher cfg (.publish event rest))
        (st.publishedTo o event.2.orderID) (.publisher cfg (.published event rest o))
  | respond (c : SettleCall) (tag : Nat) (r : OrderResult) (h : c.origin = some tag) :
      Quiet st .respond (.settle c (.returned r))
        { st with answers := st.answers ++ [(tag, c.orderID, timeoutResult r)] }
        (.settle c (.returned r))
  | answered (i : Nat) (d : Delivery) (r : Option Err) (h : (d.tag, d.orderID, r) ∈ st.answers) :
      Quiet st (.answered i) (.delivery d .call) st
        (.delivery d (match r with
          | none => .complete
          | some e => .recordFailure (timeoutError e)))
  | timeout (d : Delivery) (message : GoString) :
      Quiet st (.timeout message) (.delivery d .call) st
        (.delivery d (.recordFailure (.wrapped message)))
  | ack (d : Delivery) (lost : Bool) :
      Quiet st (.ack lost) (.delivery d .ack) (if lost then st else st.acked d.orderID)
        (.delivery d .settled)

theorem Quiet.db {st st' : Local} {ch : Choice} {q q' : Proc} (h : Quiet st ch q st' q') :
    st'.db = st.db := by
  cases h with
  | publish cfg event rest o =>
    unfold Local.publishedTo
    split <;> rfl
  | ack d lost => split <;> rfl
  | resolve c catalog uuid hu => rfl
  | pollRecon cfg => rfl
  | pollPublisher cfg => rfl
  | respond c tag r hc => rfl
  | answered i d r hr => rfl
  | timeout d message => rfl

theorem Quiet.now {st st' : Local} {ch : Choice} {q q' : Proc} (h : Quiet st ch q st' q') :
    st'.now = st.now := by
  cases h with
  | publish cfg event rest o =>
    unfold Local.publishedTo
    split <;> rfl
  | ack d lost => split <;> rfl
  | _ => rfl

/-- A step of the outside: time, the broker, or new stock. -/
theorem outside_cases {st st' : Local} {inv inv' : InventorySvc.DB} {x : Outside}
    (h : outside st inv x = some (st', inv')) :
    st'.db = st.db ∧ (inv' = inv ∨ ∃ p q, Supplied inv inv' p q) := by
  cases x with
  | tick n =>
    obtain ⟨rfl, rfl⟩ := Prod.mk.inj (Option.some.inj h)
    exact ⟨rfl, Or.inl rfl⟩
  | expire i =>
    simp only [outside] at h
    split at h
    · exact absurd h (by simp)
    · obtain ⟨rfl, rfl⟩ := Prod.mk.inj (Option.some.inj h)
      exact ⟨rfl, Or.inl rfl⟩
  | init productID quantity =>
    simp only [outside] at h
    split at h
    · exact absurd h (by simp)
    · rename_i hx
      obtain ⟨rfl, rfl⟩ := Prod.mk.inj (Option.some.inj h)
      exact ⟨rfl, Or.inr ⟨_, _, InventorySvc.init_ok hx⟩⟩
  | add productID quantity =>
    simp only [outside] at h
    split at h
    · exact absurd h (by simp)
    · rename_i hx
      obtain ⟨rfl, rfl⟩ := Prod.mk.inj (Option.some.inj h)
      exact ⟨rfl, Or.inr ⟨_, _, InventorySvc.add_ok hx⟩⟩

section

variable [Collation]

variable {q : Proc} {s s' : State} {p : Nat} {e : Event}

/-- **A local step** runs the statement the process is at, or the client refuses its request, or
the step is a quiet one. -/
theorem act_cases {st st' : Local} {q' : Proc} {ch : Choice} (h : act st q ch = some (st', q')) :
    (∃ o locked stmt, ch = .sql o locked ∧ q.stmt = some stmt ∧
        st' = { st with db := (runSql o st.now locked stmt st.db).2 } ∧
        q' = q.after (runSql o st.now locked stmt st.db).1) ∨
      (ch = .refuse ∧ q.request = some none ∧ st' = st ∧
        q' = q.resume (.error .invalidReservationIdentity)) ∨
      Quiet st ch q st' q' := by
  cases ch with
  | sql o locked =>
    simp only [act] at h
    split at h
    · exact absurd h (by simp)
    · rename_i stmt hstmt
      obtain ⟨rfl, rfl⟩ := Prod.mk.inj (Option.some.inj h)
      exact Or.inl ⟨o, locked, stmt, rfl, hstmt, rfl, rfl⟩
  | resolve catalog uuid =>
    simp only [act] at h
    split at h
    · split at h
      · rename_i hu
        obtain ⟨rfl, rfl⟩ := Prod.mk.inj (Option.some.inj h)
        exact Or.inr (Or.inr (.resolve _ catalog uuid hu))
      · exact absurd h (by simp)
    · exact absurd h (by simp)
  | refuse =>
    simp only [act] at h
    split at h
    · rename_i hr
      obtain ⟨rfl, rfl⟩ := Prod.mk.inj (Option.some.inj h)
      exact Or.inr (Or.inl ⟨rfl, hr, rfl, rfl⟩)
    · exact absurd h (by simp)
  | poll =>
    simp only [act] at h
    split at h
    · obtain ⟨rfl, rfl⟩ := Prod.mk.inj (Option.some.inj h)
      exact Or.inr (Or.inr (.pollRecon _))
    · obtain ⟨rfl, rfl⟩ := Prod.mk.inj (Option.some.inj h)
      exact Or.inr (Or.inr (.pollPublisher _))
    · exact absurd h (by simp)
  | publish o =>
    simp only [act] at h
    split at h
    · obtain ⟨rfl, rfl⟩ := Prod.mk.inj (Option.some.inj h)
      exact Or.inr (Or.inr (.publish _ _ _ o))
    · exact absurd h (by simp)
  | respond =>
    simp only [act] at h
    split at h
    · split at h
      · exact absurd h (by simp)
      · rename_i tag htag
        obtain ⟨rfl, rfl⟩ := Prod.mk.inj (Option.some.inj h)
        exact Or.inr (Or.inr (.respond _ tag _ htag))
    · exact absurd h (by simp)
  | answered i =>
    simp only [act] at h
    split at h
    · rename_i d
      split at h
      · exact absurd h (by simp)
      · rename_i tag orderID r hr
        split at h
        · rename_i hid
          obtain ⟨rfl, rfl⟩ := hid
          have hmem := List.mem_of_getElem? hr
          cases r with
          | none =>
            obtain ⟨rfl, rfl⟩ := Prod.mk.inj (Option.some.inj h)
            exact Or.inr (Or.inr (.answered i d none hmem))
          | some e =>
            obtain ⟨rfl, rfl⟩ := Prod.mk.inj (Option.some.inj h)
            exact Or.inr (Or.inr (.answered i d (some e) hmem))
        · exact absurd h (by simp)
    · exact absurd h (by simp)
  | timeout message =>
    simp only [act] at h
    split at h
    · obtain ⟨rfl, rfl⟩ := Prod.mk.inj (Option.some.inj h)
      exact Or.inr (Or.inr (.timeout _ message))
    · exact absurd h (by simp)
  | ack lost =>
    simp only [act] at h
    split at h
    · obtain ⟨rfl, rfl⟩ := Prod.mk.inj (Option.some.inj h)
      exact Or.inr (Or.inr (.ack _ lost))
    · exact absurd h (by simp)

/-- A step that runs a statement. -/
theorem sql_step {o : SqlOutcome} {locked : List Nat} {stmt : Stmt}
    (hs : step s (.act p (.sql o locked)) = some s') (hq : s.At p q) (hstmt : q.stmt = some stmt) :
    s'.store = { s.store with db := (runSql o s.store.now locked stmt s.store.db).2 } ∧
      s'.At p (q.after (runSql o s.store.now locked stmt s.store.db).1) := by
  cases rpcMove_of_step hs with
  | act p ch q₀ q' st' hq₀ hact =>
    obtain rfl := Option.some.inj (hq₀.symm.trans hq)
    have hact' : act s.store q₀ (.sql o locked) = some (st', q') := hact
    simp only [act, hstmt] at hact'
    obtain ⟨rfl, rfl⟩ := Prod.mk.inj (Option.some.inj hact')
    exact ⟨rfl, World.at_put_self hq _⟩

/-- **Time does not run backwards.** -/
theorem clock_step (hs : step s e = some s') :
    s.store.now ≤ s'.store.now := by
  cases rpcMove_of_step hs with
  | act p ch q q' st' hq hact =>
    rcases act_cases hact with ⟨o, locked, stmt, rfl, hstmt, rfl, -⟩ | ⟨-, -, rfl, -⟩ | hquiet
    · exact Int.le_refl _
    · exact Int.le_refl _
    · exact Int.le_of_eq hquiet.now.symm
  | env x st' inv' hx =>
    have hx' : outside s.store s.remote x = some (st', inv') := hx
    cases x with
    | tick n =>
      obtain ⟨rfl, -⟩ := Prod.mk.inj (Option.some.inj hx')
      exact Int.le_add_of_nonneg_right (Int.natCast_nonneg n)
    | expire i | init productID quantity | add productID quantity =>
      simp only [outside] at hx'
      split at hx'
      · exact absurd hx' (by simp)
      · obtain ⟨rfl, -⟩ := Prod.mk.inj (Option.some.inj hx')
        exact Int.le_refl _
  | _ => exact Int.le_refl _

/-! ## 2. The inventory service -/

/-- The request of the inventory service behind an operation of its client. -/
def InventoryOp.toRequest (generated : GoString) : InventoryOp → InventorySvc.Request
  | .reserve req => .reserve generated req
  | .settle .confirm id => .confirm id
  | .settle .release id => .release id

variable {op : InventoryOp}

/-- An operation that commits has the effect of its request. -/
theorem op_effect {generated : GoString} {inv inv' : InventorySvc.DB} {r : Reservation}
    (h : (opTx generated inv op).exec inv = .ok (r, inv')) :
    Effect inv inv (InventoryOp.toRequest generated op) (.reservation r) inv' := by
  refine InventorySvc.prog_effect ?_
  cases op with
  | reserve req => exact (Txn.exec_bind_of_ok _ h).trans rfl
  | settle target id =>
    cases target with
    | confirm => exact (Txn.exec_bind_of_ok _ h).trans rfl
    | release => exact (Txn.exec_bind_of_ok _ h).trans rfl

/-- What the server did with a request: nothing, or it committed it. -/
theorem serve_cases (inv : InventorySvc.DB) (op : InventoryOp) (f : Serving) :
    ((serve inv op f).1 = inv ∧ ∃ e, (serve inv op f).2 = .error (remoteError op f.message e)) ∨
      ∃ r, (opTx f.generated inv op).exec inv = .ok (r, (serve inv op f).1) ∧
        ((serve inv op f).2 = .ok r ∨
          ∃ e, (serve inv op f).2 = .error (remoteError op f.message e)) := by
  unfold serve
  split
  · exact Or.inl ⟨rfl, _, rfl⟩
  · exact Or.inl ⟨rfl, _, rfl⟩
  · rename_i r inv' _ hx
    exact Or.inr ⟨r, hx, Or.inl rfl⟩
  · rename_i r inv' _ hx
    exact Or.inr ⟨r, hx, Or.inr ⟨_, rfl⟩⟩

/-! ## 3. The two databases -/

/-- What a step did to the two databases. -/
inductive Change (s : State) (e : Event) (s' : State) : Prop
  | none (hdb : s'.store.db = s.store.db) (hinv : s'.remote = s.remote)
  | sql (p : Nat) (o : SqlOutcome) (locked : List Nat) (q : Proc) (stmt : Stmt) (r : Res)
      (he : e = .act p (.sql o locked)) (hq : s.At p q) (hstmt : q.stmt = some stmt)
      (hexec : stmt.exec s.store.now locked s.store.db = .ok (r, s'.store.db))
      (hinv : s'.remote = s.remote)
  | served (p : Nat) (generated : GoString) (op : InventoryOp) (r : Reservation)
      (hop : (p, op) ∈ s.requests)
      (hexec : (opTx generated s.remote op).exec s.remote = .ok (r, s'.remote))
      (hdb : s'.store.db = s.store.db)
  | supplied (p q : Int) (h : Supplied s.remote s'.remote p q)
      (hdb : s'.store.db = s.store.db)

/-- **What a step does to the two databases.** -/
theorem change_of_step (h : step s e = some s') : Change s e s' := by
  cases rpcMove_of_step h with
  | spawn q hadm => exact .none rfl rfl
  | send p q w hq hw => exact .none rfl rfl
  | receive p i q w a hq hw ha => exact .none rfl rfl
  | giveUp p a q w hq hw ha => exact .none rfl rfl
  | crash p q hq => exact .none rfl rfl
  | dropRequest i => exact .none rfl rfl
  | dropReply i => exact .none rfl rfl
  | act p ch q q' st' hq hact =>
    rcases act_cases hact with ⟨o, locked, stmt, rfl, hstmt, rfl, -⟩ | ⟨-, -, rfl, -⟩ | hquiet
    · rcases runSql_cases o s.store.now locked stmt s.store.db with
        ⟨e, -, hdb, -⟩ | ⟨r, hexec, -⟩
      · exact .none hdb rfl
      · exact .sql p o locked q stmt r rfl hq hstmt hexec rfl
    · exact .none rfl rfl
    · exact .none hquiet.db rfl
  | serve i f p w hw =>
    rcases serve_cases s.remote w f with ⟨hinv, -⟩ | ⟨r, hexec, -⟩
    · exact .none rfl hinv
    · exact .served p f.generated w r hw hexec rfl
  | env x st' inv' hx =>
    obtain ⟨hdb, rfl | ⟨p, q, hsup⟩⟩ := outside_cases hx
    · exact .none hdb rfl
    · exact .supplied p q hsup hdb

/-- What a step does to the ordering database: nothing, or one statement ran. -/
inductive DbChange (s : State) (e : Event) (s' : State) : Prop
  | none (hdb : s'.store.db = s.store.db)
  | sql (p : Nat) (o : SqlOutcome) (locked : List Nat) (q : Proc) (stmt : Stmt) (r : Res)
      (he : e = .act p (.sql o locked)) (hq : s.At p q) (hstmt : q.stmt = some stmt)
      (hexec : stmt.exec s.store.now locked s.store.db = .ok (r, s'.store.db))

theorem db_step (h : step s e = some s') : DbChange s e s' := by
  cases change_of_step h with
  | none hdb _ => exact .none hdb
  | sql p o locked q stmt r he hq hstmt hexec _ => exact .sql p o locked q stmt r he hq hstmt hexec
  | served _ _ _ _ _ _ hdb => exact .none hdb
  | supplied _ _ _ hdb => exact .none hdb

/-- A timeout row stays, with its order. -/
theorem timeout_kept (h : step s e = some s') {k : Nat} {row : TimeoutOutbox}
    (hrow : s.store.db.outbox.row k = some row) :
    ∃ row', s'.store.db.outbox.row k = some row' ∧ row'.orderID = row.orderID := by
  cases db_step h with
  | none hdb => exact ⟨row, hdb ▸ hrow, rfl⟩
  | sql p o locked q stmt r he hq hstmt hexec =>
    obtain ⟨row', hrow', hid, -⟩ := (exec_outbox hexec).keeps k row hrow
    exact ⟨row', hrow', hid⟩

/-- A task stays, with its order and its action. -/
theorem task_kept (h : step s e = some s') {k : Nat} {t : ReconciliationTask}
    (ht : s.store.db.tasks.row k = some t) :
    ∃ t', s'.store.db.tasks.row k = some t' ∧ t'.orderID = t.orderID ∧ t'.action = t.action := by
  cases db_step h with
  | none hdb => exact ⟨t, hdb ▸ ht, rfl, rfl⟩
  | sql p o locked q stmt r he hq hstmt hexec =>
    obtain ⟨t', ht', hch⟩ := (exec_repairs hexec).keeps k t ht
    exact ⟨t', ht', hch.same_job⟩

/-- A settled reservation of the next state was settled before, or a request in flight did it. -/
theorem settled_origin (hs : step s e = some s') {w : GoString} {r' : Reservation}
    (hr' : s'.remote.reservationAt w = some r') (hst : r'.status ≠ .pending) :
    s.remote.reservationAt w = some r' ∨
      ∃ p t id, (p, .settle t id) ∈ s.requests ∧ w = Collation.weight (trimSpace id) ∧
        r'.status = t.status := by
  cases change_of_step hs with
  | none _ hinv => exact Or.inl (hinv ▸ hr')
  | sql _ _ _ _ _ _ _ _ _ _ hinv => exact Or.inl (hinv ▸ hr')
  | supplied p q hsup _ => exact Or.inl (hsup.reservations ▸ hr')
  | served p generated op r hop hexec _ =>
    rcases (op_effect hexec).settled_by hr' hst with h | ⟨id, t, hreq, hw, hst'⟩
    · exact Or.inl h
    · refine Or.inr ⟨p, t, id, ?_, hw, hst'⟩
      cases op with
      | reserve req =>
        exact absurd hreq (by simp [InventoryOp.toRequest, InventorySvc.Request.settles])
      | settle t' id' =>
        cases t' with
        | confirm | release =>
          simp only [InventoryOp.toRequest, InventorySvc.Request.settles, Option.some.injEq,
            Prod.mk.injEq] at hreq
          exact hreq.1 ▸ hreq.2 ▸ hop

/-! ## 4. Processes and messages -/

/-- The databases did not change. -/
structure Still (s s' : State) : Prop where
  db : s'.store.db = s.store.db
  remote : s'.remote = s.remote

/-- The statement of a process committed, and the process got its result. -/
structure Committed (s : State) (e : Event) (s' : State) (p : Nat) (stmt : Stmt) (r : Res) :
    Prop where
  event : ∃ locked, e = .act p (.sql .ok locked) ∧
    stmt.exec s.store.now locked s.store.db = .ok (r, s'.store.db)
  remote : s'.remote = s.remote

/-- A load has returned the order with that id, and of that user if it names one. -/
theorem Committed.loaded {userID : Option Int} {orderID i : Nat} {o : Order}
    (h : Committed s e s' p (.get userID orderID) (.order i o)) :
    s.store.db.orders.row orderID = some o ∧ ∀ u ∈ userID, o.userID = u := by
  obtain ⟨locked, -, hexec⟩ := h.event
  obtain ⟨o', horder, hrow, huser⟩ := exec_get hexec
  obtain ⟨-, rfl⟩ := Res.order.inj horder
  exact ⟨hrow, huser⟩

/-- A lookup has returned an order of that user and key. -/
theorem Committed.found {userID : Int} {key : GoString} {i : Nat} {o : Order}
    (h : Committed s e s' p (.findByIdempotency userID key) (.order i o)) :
    s.store.db.orders.row i = some o ∧ o.userID = userID ∧
      Collation.weight o.idempotencyKey = Collation.weight key := by
  obtain ⟨locked, -, hexec⟩ := h.event
  obtain ⟨i', o', horder, hrow, hkey⟩ := exec_findByIdempotency hexec
  obtain ⟨rfl, rfl⟩ := Res.order.inj horder
  exact ⟨hrow, hkey⟩

/-- A claim of tasks has leased rows of the table, no row twice. -/
theorem Committed.tasks {workerID : GoString} {leaseDuration : Int} {batchSize : Nat}
    {tasks : List ClaimedTask}
    (h : Committed s e s' p (.claimTasks workerID leaseDuration batchSize) (.tasks tasks)) :
    (tasks.map Prod.fst).Nodup ∧ ∀ t ∈ tasks, ∃ task, s.store.db.tasks.row t.1 = some task ∧
      t.2 = { task with
        attempts := task.attempts + 1, leaseOwner := workerID
        leaseUntil := some (s.store.now + leaseDuration) } := by
  obtain ⟨locked, -, hexec⟩ := h.event
  obtain ⟨tasks', htasks, hrows, hnodup, -⟩ := claimTasks_ok hexec
  obtain rfl := Res.tasks.inj htasks
  refine ⟨hnodup, fun t ht => ?_⟩
  obtain ⟨task, htask, -, -, hleased⟩ := hrows t ht
  exact ⟨task, htask, hleased⟩

/-- A claim of timeouts has returned rows of the outbox, no row twice. -/
theorem Committed.events {workerID : GoString} {leaseDuration : Int} {batchSize : Nat}
    {events : List ClaimedEvent}
    (h : Committed s e s' p (.claimPending workerID leaseDuration batchSize) (.events events)) :
    (events.map Prod.fst).Nodup ∧ ∀ x ∈ events, s.store.db.outbox.row x.1 = some x.2 := by
  obtain ⟨locked, -, hexec⟩ := h.event
  obtain ⟨events', hevents, hrows, hnodup, -⟩ := claimPending_ok hexec
  obtain rfl := Res.events.inj hevents
  exact ⟨hnodup, fun x hx => (hrows x hx).1⟩

/-- The statement of a process returned an error: it had no effect, or it committed and the
acknowledgement was lost. -/
inductive Failed (s : State) (e : Event) (s' : State) (p : Nat) (stmt : Stmt) : Err → Prop
  | noEffect (o : SqlOutcome) (locked : List Nat) (err : Err) (he : e = .act p (.sql o locked))
      (herr : stmt.exec s.store.now locked s.store.db = .error err ∨ ∃ m, err = .storage m)
      (hstill : Still s s') : Failed s e s' p stmt err
  | lost (locked : List Nat) (message : GoString) (r : Res)
      (he : e = .act p (.sql (.lostAck message) locked))
      (hexec : stmt.exec s.store.now locked s.store.db = .ok (r, s'.store.db))
      (hinv : s'.remote = s.remote) : Failed s e s' p stmt (.storage message)

/-- A waiting process got an answer. -/
def Answered (s : State) (e : Event) (p : Nat) (op : InventoryOp) (a : Reply) : Prop :=
  ∃ i, e = .receive p i ∧ s.replies[i]? = some (p, op, a)

omit [Collation] in
theorem Answered.mem {a : Reply} (h : Answered s e p op a) : (p, op, a) ∈ s.replies := by
  obtain ⟨i, -, ha⟩ := h
  exact List.mem_of_getElem? ha

/-- A waiting process takes an error: its client refused the request, the server answered with
an error, or no usable answer came. -/
inductive TakesError (s : State) (e : Event) (p : Nat) : Option InventoryOp → Err → Prop
  | refused (he : e = .act p .refuse) : TakesError s e p none .invalidReservationIdentity
  | answered (op : InventoryOp) (err : Err) (ha : Answered s e p op (.error err)) :
      TakesError s e p (some op) err
  | gaveUp (op : InventoryOp) (err : Err) (he : e = .giveUp p (.error err))
      (h : gaveUp (.error err) = true) : TakesError s e p (some op) err

/-- How a process came to be in a state. -/
inductive Arrives (s : State) (e : Event) (s' : State) (p : Nat) : Proc → Prop
  /-- it was there before -/
  | kept (q : Proc) (hq : s.At p q) : Arrives s e s' p q
  | spawned (q : Proc) (he : e = .spawn q) (hp : p = s.procs.next)
      (h : mayStart s.store s.procs q = true) : Arrives s e s' p q
  | committed (q : Proc) (stmt : Stmt) (r : Res) (hq : s.At p q) (hstmt : q.stmt = some stmt)
      (h : Committed s e s' p stmt r) : Arrives s e s' p (q.after (.ok r))
  | failed (q : Proc) (stmt : Stmt) (err : Err) (hq : s.At p q) (hstmt : q.stmt = some stmt)
      (h : Failed s e s' p stmt err) : Arrives s e s' p (q.after (.error err))
  | quiet (q q' : Proc) (ch : Choice) (he : e = .act p ch) (hq : s.At p q)
      (h : Quiet s.store ch q s'.store q') (hstill : Still s s') : Arrives s e s' p q'
  | answered (q : Proc) (op : InventoryOp) (r : Reservation) (hq : s.At p q)
      (hop : q.request = some (some op)) (ha : Answered s e p op (.ok r))
      (hstill : Still s s') : Arrives s e s' p (q.resume (.ok r))
  | refused (q : Proc) (op : Option InventoryOp) (err : Err) (hq : s.At p q)
      (hop : q.request = some op) (herr : TakesError s e p op err) (hstill : Still s s') :
      Arrives s e s' p (q.resume (.error err))

/-- **Where a process state comes from.** -/
theorem arrives (hs : step s e = some s') (h : s'.At p q) : Arrives s e s' p q := by
  cases origin_of_at hs h with
  | kept q hq => exact .kept q hq
  | spawned q he hp hadm => exact .spawned q he hp hadm
  | acted ch q₀ q he hq hact hinv =>
    rcases act_cases hact with
      ⟨o, locked, stmt, rfl, hstmt, hst, rfl⟩ | ⟨rfl, hreq, hst, rfl⟩ | hquiet
    · have hdb : s'.store.db = (runSql o s.store.now locked stmt s.store.db).2 := by rw [hst]
      rcases runSql_cases o s.store.now locked stmt s.store.db with
        ⟨err, h1, h2, h3⟩ | ⟨r, hexec, ⟨rfl, h1⟩ | ⟨m, rfl, h1⟩⟩
      · rw [h1]
        exact .failed q₀ stmt err hq hstmt (.noEffect o locked err he
          (h3.imp_right fun ⟨m, _, hm⟩ => ⟨m, hm⟩) ⟨hdb.trans h2, hinv⟩)
      · rw [h1]
        exact .committed q₀ stmt r hq hstmt ⟨⟨locked, he, hdb ▸ hexec⟩, hinv⟩
      · rw [h1]
        exact .failed q₀ stmt _ hq hstmt (.lost locked m r he (hdb ▸ hexec) hinv)
    · exact .refused q₀ none _ hq hreq (.refused he) ⟨by rw [hst], hinv⟩
    · exact .quiet q₀ q ch he hq hquiet ⟨hquiet.db, hinv⟩
  | received i q w a he hq hw ha hst hinv =>
    have hreq : q.request = some (some w) := Option.join_eq_some_iff.mp hw
    cases a with
    | ok r => exact .answered q w r hq hreq ⟨i, he, ha⟩ ⟨by rw [hst], hinv⟩
    | error err => exact .refused q _ err hq hreq (.answered w err ⟨i, he, ha⟩) ⟨by rw [hst], hinv⟩
  | gaveUp q w a he hq hw ha hst hinv =>
    have hreq : q.request = some (some w) := Option.join_eq_some_iff.mp hw
    cases a with
    | ok r => exact absurd ha (by simp [component, Saga.gaveUp])
    | error err => exact .refused q _ err hq hreq (.gaveUp w err he ha) ⟨by rw [hst], hinv⟩

/-- **Where an answer comes from**: an error answers anything, a reservation answers a request
that committed. -/
theorem reply_origin (hs : step s e = some s') {a : Reply} (h : (p, op, a) ∈ s'.replies) :
    (p, op, a) ∈ s.replies ∨ ((p, op) ∈ s.requests ∧ s'.store = s.store ∧
      ((∃ message err, a = .error (remoteError op message err)) ∨ ∃ r generated, a = .ok r ∧
        (opTx generated s.remote op).exec s.remote = .ok (r, s'.remote))) := by
  rcases origin_of_reply hs h with h | ⟨i, f, -, hreq, hst, hserve⟩
  · exact Or.inl h
  · refine Or.inr ⟨hreq, hst, ?_⟩
    have h1 : (serve s.remote op f).1 = s'.remote := congrArg Prod.fst hserve
    have h2 : (serve s.remote op f).2 = a := congrArg Prod.snd hserve
    rcases serve_cases s.remote op f with ⟨-, err, h3⟩ | ⟨r, hexec, h3 | ⟨err, h3⟩⟩
    · exact Or.inl ⟨f.message, err, h2.symm.trans h3⟩
    · exact Or.inr ⟨r, f.generated, h2.symm.trans h3, h1 ▸ hexec⟩
    · exact Or.inl ⟨f.message, err, h2.symm.trans h3⟩

end

/-! ## 5. Who writes an order -/

/-- The process states that are about to write an order, each with its statement. -/
inductive Writer : Proc → Stmt → Prop
  | createFail (c : CreateCall) (orderID : Nat) (cause : Err) :
      Writer (.create c (.fail orderID cause))
        (.writeStatus orderID .failed (truncate cause.text 500))
  | createFinalize (c : CreateCall) (orderID : Nat) (reservationID : GoString) :
      Writer (.create c (.finalize orderID reservationID))
        (.finalizeCreate orderID reservationID c.timeoutDelay)
  | createCompensate (c : CreateCall) (orderID : Nat) (status : OrderStatus) (reason : GoString)
      (result : Err) :
      Writer (.create c (.compensate orderID status reason result))
        (.writeStatus orderID status (truncate reason 500))
  | settleClaim (c : SettleCall) (o : Order) :
      Writer (.settle c (.claim o)) (.claim c.user c.orderID c.kind.transient)
  | settleRevert (c : SettleCall) (cause : Err) :
      Writer (.settle c (.revert cause))
        (.revert c.orderID c.kind.transient (truncate cause.text 500))
  | settleFinalize (c : SettleCall) :
      Writer (.settle c .finalize) (.finalizeSettle c.orderID c.kind.transient c.kind.final)
  | settleCompensate (c : SettleCall) (cause : Err) :
      Writer (.settle c (.compensate cause))
        (.writeStatus c.orderID .reconciliationRequired (truncate cause.text 500))
  | finish (c : FinishCall) : Writer (.finish c .update) (.finish c.userID c.orderID)
  | complete (cfg : ReconciliationWorkerConfig) (task : ClaimedTask) (target : OrderStatus)
      (closes : Bool) (rest : List ClaimedTask) :
      Writer (.recon cfg (.complete task target closes rest))
        (.completeTask task.1 cfg.workerID task.2.orderID target closes)

/-- **Nobody else writes an order.** -/
theorem writer_of_change {q : Proc} {stmt : Stmt} (h : q.stmt = some stmt)
    {x : Nat × Option OrderStatus × OrderStatus} (hx : stmt.change = some x) : Writer q stmt := by
  cases q with
  | create c pc =>
    cases pc with
    | fail orderID cause => exact Option.some.inj h ▸ .createFail c orderID cause
    | finalize orderID reservationID =>
      exact Option.some.inj h ▸ .createFinalize c orderID reservationID
    | compensate orderID status reason result =>
      exact Option.some.inj h ▸ .createCompensate c orderID status reason result
    | lookup => exact absurd hx (by simp [← Option.some.inj h, Stmt.change])
    | insert draft items => exact absurd hx (by simp [← Option.some.inj h, Stmt.change])
    | relookup cause => exact absurd hx (by simp [← Option.some.inj h, Stmt.change])
    | get orderID => exact absurd hx (by simp [← Option.some.inj h, Stmt.change])
    | resolve => exact absurd h (by simp [Proc.stmt, CreatePc.stmt])
    | reserve orderID reservationID items => exact absurd h (by simp [Proc.stmt, CreatePc.stmt])
    | release orderID reservationID cause => exact absurd h (by simp [Proc.stmt, CreatePc.stmt])
    | returned result => exact absurd h (by simp [Proc.stmt, CreatePc.stmt])
  | settle c pc =>
    cases pc with
    | claim o => exact Option.some.inj h ▸ .settleClaim c o
    | revert cause => exact Option.some.inj h ▸ .settleRevert c cause
    | finalize => exact Option.some.inj h ▸ .settleFinalize c
    | compensate cause => exact Option.some.inj h ▸ .settleCompensate c cause
    | load => exact absurd hx (by simp [← Option.some.inj h, Stmt.change])
    | reload => exact absurd hx (by simp [← Option.some.inj h, Stmt.change])
    | call o => exact absurd h (by simp [Proc.stmt, SettlePc.stmt])
    | returned result => exact absurd h (by simp [Proc.stmt, SettlePc.stmt])
  | finish c pc =>
    cases pc with
    | update => exact Option.some.inj h ▸ .finish c
    | get => exact absurd hx (by simp [← Option.some.inj h, Stmt.change])
    | returned result => exact absurd h (by simp [Proc.stmt, FinishPc.stmt])
  | recon cfg pc =>
    cases pc with
    | complete task target closes rest =>
      exact Option.some.inj h ▸ .complete cfg task target closes rest
    | claim => exact absurd hx (by simp [← Option.some.inj h, Stmt.change])
    | load task rest => exact absurd hx (by simp [← Option.some.inj h, Stmt.change])
    | markFailed task cause rest => exact absurd hx (by simp [← Option.some.inj h, Stmt.change])
    | markUnresolved task reason rest =>
      exact absurd hx (by simp [← Option.some.inj h, Stmt.change])
    | idle => exact absurd h (by simp [Proc.stmt, ReconPc.stmt])
    | call task o rest => exact absurd h (by simp [Proc.stmt, ReconPc.stmt])
  | publisher cfg pc =>
    cases pc with
    | claim => exact absurd hx (by simp [← Option.some.inj h, Stmt.change])
    | markPublished event rest => exact absurd hx (by simp [← Option.some.inj h, Stmt.change])
    | markFailure event cause rest =>
      exact absurd hx (by simp [← Option.some.inj h, Stmt.change])
    | releaseLeases rest => exact absurd hx (by simp [← Option.some.inj h, Stmt.change])
    | idle => exact absurd h (by simp [Proc.stmt, PublishPc.stmt])
    | publish event rest => exact absurd h (by simp [Proc.stmt, PublishPc.stmt])
  | delivery d pc =>
    cases pc with
    | recordFailure cause => exact absurd hx (by simp [← Option.some.inj h, Stmt.change])
    | complete => exact absurd hx (by simp [← Option.some.inj h, Stmt.change])
    | call => exact absurd h (by simp [Proc.stmt, DeliveryPc.stmt])
    | ack => exact absurd h (by simp [Proc.stmt, DeliveryPc.stmt])
    | settled => exact absurd h (by simp [Proc.stmt, DeliveryPc.stmt])

/-- The only state that inserts an order. -/
theorem insert_of_stmt {q : Proc} {draft : OrderDraft} (h : q.stmt = some (.insertOrder draft)) :
    ∃ c items, q = .create c (.insert draft items) := by
  cases q with
  | create c pc =>
    cases pc with
    | insert draft' items =>
      simp only [Proc.stmt, CreatePc.stmt, Option.some.injEq, Stmt.insertOrder.injEq] at h
      exact ⟨c, items, by rw [h]⟩
    | _ => exact absurd h (by simp [Proc.stmt, CreatePc.stmt])
  | settle c pc => cases pc <;> exact absurd h (by simp [Proc.stmt, SettlePc.stmt])
  | finish c pc => cases pc <;> exact absurd h (by simp [Proc.stmt, FinishPc.stmt])
  | recon cfg pc => cases pc <;> exact absurd h (by simp [Proc.stmt, ReconPc.stmt])
  | publisher cfg pc => cases pc <;> exact absurd h (by simp [Proc.stmt, PublishPc.stmt])
  | delivery d pc => cases pc <;> exact absurd h (by simp [Proc.stmt, DeliveryPc.stmt])

section

variable [Collation]

/-- What a step does to an order: nothing, or a process writes it with the statement it is at. -/
inductive OrderStep (s : State) (e : Event) (s' : State) (i : Nat) (x : Order) : Order → Prop
  | kept : OrderStep s e s' i x x
  | written (p : Nat) (oc : SqlOutcome) (locked : List Nat) (q : Proc) (stmt : Stmt) (r : Res)
      (o : Order) (old : Option OrderStatus) (he : e = .act p (.sql oc locked)) (hq : s.At p q)
      (hstmt : q.stmt = some stmt) (hw : Writer q stmt)
      (hexec : stmt.exec s.store.now locked s.store.db = .ok (r, s'.store.db))
      (hch : ChangedTo stmt i x o old) : OrderStep s e s' i x o

/-- **What a step does to an order.** -/
theorem order_step {s s' : State} {e : Event} (hs : step s e = some s') {i : Nat} {x : Order}
    (hx : s.store.db.orders.row i = some x) :
    ∃ o, s'.store.db.orders.row i = some o ∧ OrderStep s e s' i x o := by
  cases db_step hs with
  | none hdb => exact ⟨x, hdb ▸ hx, .kept⟩
  | sql p oc locked q stmt r he hq hstmt hexec =>
    rcases (exec_orders hexec).forward hx with hsame | ⟨o, old, ho, hch⟩
    · exact ⟨x, hsame, .kept⟩
    · exact ⟨o, ho, .written p oc locked q stmt r o old he hq hstmt
        (writer_of_change hstmt hch.change) hexec hch⟩

/-- **Where an order comes from**: it was there before the step, or `Create` has just inserted
it. -/
theorem order_origin {s s' : State} {e : Event} (hs : step s e = some s') {i : Nat} {o : Order}
    (ho : s'.store.db.orders.row i = some o) :
    (∃ x, s.store.db.orders.row i = some x ∧ OrderStep s e s' i x o) ∨
      ∃ p c draft items hacc, s.At p (.create c (.insert draft items)) ∧
        o = OrderDraft.row draft hacc := by
  cases db_step hs with
  | none hdb => exact Or.inl ⟨o, hdb ▸ ho, .kept⟩
  | sql p oc locked q stmt r he hq hstmt hexec =>
    rcases (exec_orders hexec).backward ho with hx | ⟨draft, hacc, rfl, -, rfl⟩ | ⟨x, old, hx, hch⟩
    · exact Or.inl ⟨o, hx, .kept⟩
    · obtain ⟨c, items, rfl⟩ := insert_of_stmt hstmt
      exact Or.inr ⟨p, c, draft, items, hacc, hq, rfl⟩
    · exact Or.inl ⟨x, hx, .written p oc locked q stmt r o old he hq hstmt
        (writer_of_change hstmt hch.change) hexec hch⟩

end

end OrderSystem.Saga
