/-
# Publishing with confirms

The saga takes the outcome of `Publish` as given.  Here it comes about: a publisher sends its
message on a channel of its session, the broker stores it and answers, and the publisher reads
the answer (`publisher_confirm.go`).  The channels and the answers are those of
`Kit/Confirms.lean`.

* A worker publishes in a session.  The session has one channel, and it ends when `Publish`
  returns an error, when a statement of `publishPending` fails, when the channel closes, and when
  the worker crashes (`runSession`).
* `Publish` returns an error when the message could not be sent, when it is refused, when no
  answer came in time and when the channel closes; in the last three cases the broker may have
  stored the message all the same, or store it later.
* The broker keeps what it has confirmed until it is acknowledged.  It may lose what it has not
  confirmed.  A message that was delivered and not acknowledged counts as in the cancel queue.

`published_kept` says that a row that is `published` has a confirmed message, and a message in
one of the queues.  The second part is an account: of every order there are at least as many
messages in the queues as the broker has stored and not lost (`Backed`).  It stops when the
first of them is acknowledged, but then the row of the order is completed and free, and it stays
so (`Freed.step`).
-/
import OrderSystem.Kit.Confirms
import OrderSystem.Saga.OutboxLeases

namespace OrderSystem.Saga

open OrderSystem.Kit
open OrderSystem.OrderSvc

/-! ## 1. The system with channels -/

/-- What is published: the id of the row, and the order it is for. -/
structure Message where
  eventID : Nat
  orderID : Nat
  deriving DecidableEq

/-- The message `Publish` sends for a row. -/
def message (event : ClaimedEvent) : Message := ⟨event.1, event.2.orderID⟩

/-- Channels and answers. -/
abbrev Channels := Confirms Message

/-- What can happen: a step of the saga other than `Publish`, or a part of `Publish`. -/
inductive PublishEvent where
  | sys (e : Event)
  /-- a worker opens a session -/
  | connect (p : Nat)
  | send (p : Nat)
  | accept (c j : Nat)
  | confirm (c j : Nat) (ack : Bool)
  /-- the broker loses a message from the cancel queue or the delay queue -/
  | lose (m : Message) (expired : Bool)
  /-- `Publish` reads the answer and returns -/
  | take (p : Nat) (cause : GoString)
  /-- `Publish` returns an error without an answer -/
  | fail (p : Nat) (cause : GoString)
  /-- the session ends between two messages -/
  | close (p : Nat)

/-- A message gets into the delay queue. -/
def Local.accepted (st : Local) (orderID : Nat) : Local :=
  { st with delayQueue := st.delayQueue ++ [orderID] }

/-- A message gets lost. -/
def Local.lost (st : Local) (orderID : Nat) (expired : Bool) : Option Local :=
  if expired then
    if orderID ∈ st.cancelQueue then some (st.acked orderID) else none
  else if orderID ∈ st.delayQueue then
    some { st with delayQueue := st.delayQueue.erase orderID }
  else none

section

variable [Collation]

/-- The worker whose session a step ends. -/
def sessionEnds (s : State) : Event → Option Nat
  | .crash p => some p
  | .act p (.sql o locked) =>
    match s.procs.row p with
    | some (.publisher cfg pc) =>
      (pc.stmt cfg).bind fun stmt =>
        match (runSql o s.store.now locked stmt s.store.db).1 with
        | .ok _ => none
        | .error _ => some p
    | _ => none
  | _ => none

/-- The channels of the sessions as notes on the saga: `publishPending` runs in a session, and
`Publish` is not a step of its own. -/
def sessions : Overlay State Event Channels Empty where
  allows s x
    | .act _ (.publish _) => false
    | .act p .poll =>
      match s.procs.row p with
      | some (.publisher _ _) => (x.current p).isSome
      | _ => true
    | _ => true
  note s e x :=
    match sessionEnds s e with
    | none => x
    | some p => x.drop p
  own x _ := x

/-- One step of the saga with channels. -/
def publishStep : State × Channels → PublishEvent → Option (State × Channels)
  | (s, x), .sys e => overlayStep sessions step (s, x) (.sys e)
  | (s, x), .connect p =>
    match s.procs.row p with
    | some (.publisher _ .idle) => (x.connect p).map fun x' => (s, x')
    | _ => none
  | (s, x), .send p =>
    match s.procs.row p with
    | some (.publisher _ (.publish event _)) => (x.send p (message event)).map fun x' => (s, x')
    | _ => none
  | (s, x), .accept c j =>
    (x.accept c j).map fun (m, x') => ({ s with store := s.store.accepted m.orderID }, x')
  | (s, x), .confirm c j ack => (x.confirm c j ack).map fun x' => (s, x')
  | (s, x), .lose m expired =>
    (x.lose m).bind fun x' => (s.store.lost m.orderID expired).map fun st =>
      ({ s with store := st }, x')
  | (s, x), .take p cause =>
    (x.take p).bind fun (ok, x') =>
      (step s (.act p (.publish ⟨false, if ok then none else some cause⟩))).map fun s' => (s', x')
  | (s, x), .fail p cause =>
    (step s (.act p (.publish ⟨false, some cause⟩))).map fun s' => (s', x.drop p)
  | (s, x), .close p =>
    match x.waiting p with
    | none => some (s, x.drop p)
    | some _ => none

/-- Before anything has happened. -/
def publishStart : State × Channels := (start, Confirms.empty)

/-! ## 2. Orders whose timeout is over -/

variable {s s' : State} {e : Event} {p : Nat} {x x' : Channels} {m : Message} {st' : Local}

/-- An order keeps its timeout row. -/
theorem Outboxed.step {i : Nat} (h : Outboxed s.store.db i) (hs : step s e = some s') :
    Outboxed s'.store.db i := by
  obtain ⟨k, row, hrow, hid⟩ := h
  obtain ⟨row', hrow', hid'⟩ := timeout_kept hs hrow
  exact ⟨k, row', hrow', hid'.trans hid⟩

/-- The timeout of the order is over: its row is completed and nobody has a lease on it. -/
structure Freed (db : DB) (orderID : Nat) : Prop where
  outboxed : Outboxed db orderID
  rows : ∀ k row, db.outbox.row k = some row → row.orderID = orderID →
    row.status = .completed ∧ row.leaseOwner = []

/-- A delivery that completes the row of its order ends the timeout. -/
theorem freed_of_committed (hs : step s e = some s') {orderID : Nat} {r : Res}
    (h : Outboxed s.store.db orderID) (hok : Committed s e s' p (.completeOutbox orderID) r) :
    Freed s'.store.db orderID := by
  obtain ⟨locked, -, hexec⟩ := hok.event
  exact ⟨h.step hs, fun k row hrow hid => completeOutbox_ok hexec hrow hid⟩

/-- **A timeout that is over stays over.** -/
theorem Freed.step {s s' : State} {e : Event} {i : Nat} (h : Freed s.store.db i)
    (hstaff : Staffed s) (hs : step s e = some s') : Freed s'.store.db i := by
  refine ⟨h.outboxed.step hs, fun k row' hrow' hid => ?_⟩
  cases hrow : s.store.db.outbox.row k with
  | some row =>
    obtain ⟨row₁, hrow₁, hid₁⟩ := timeout_kept hs hrow
    obtain rfl := Option.some.inj (hrow₁.symm.trans hrow')
    obtain ⟨hst, hnil⟩ := h.rows k row hrow (hid₁.symm.trans hid)
    obtain ⟨row₂, hrow₂, hfree⟩ := freed_step hstaff hs hrow hst hnil
    obtain rfl := Option.some.inj (hrow₂.symm.trans hrow')
    exact hfree
  | none =>
    -- no second row for an order that has one
    cases db_step hs with
    | none hdb => exact absurd (hdb ▸ hrow') (by simp [hrow])
    | sql p o locked q stmt r he hq hstmt hexec =>
      obtain ⟨j, row, hj, hjd⟩ := h.outboxed
      obtain ⟨-, -, hfresh⟩ := (exec_timeouts hexec).adds k row' hrow' hrow
      exact absurd (hjd.trans hid.symm) (hfresh j row hj)

/-! ## 3. The account of an order -/

/-- The messages of an order in the queues. -/
def queued (st : Local) (orderID : Nat) : Nat :=
  st.delayQueue.count orderID + st.cancelQueue.count orderID

/-- The messages of an order that the broker has stored and not lost. -/
def owed (x : Channels) (orderID : Nat) : Nat :=
  x.stored.countP fun m => m.orderID = orderID

/-- **The account of an order**: the queues have what the broker has stored and not lost, unless
the timeout is over. -/
def Backed (s : State) (x : Channels) (orderID : Nat) : Prop :=
  Freed s.store.db orderID ∨ owed x orderID ≤ queued s.store orderID

omit [Collation] in
theorem owed_perm (h : x'.stored.Perm x.stored) (i : Nat) :
    owed x' i = owed x i := h.countP_eq _

omit [Collation] in
theorem owed_cons (h : x'.stored.Perm (m :: x.stored)) (i : Nat) :
    owed x' i = owed x i + if m.orderID = i then 1 else 0 := by
  unfold owed
  rw [h.countP_eq, List.countP_cons]
  simp

omit [Collation] in
theorem queued_accepted (st : Local) (orderID i : Nat) :
    queued (st.accepted orderID) i = queued st i + if orderID = i then 1 else 0 := by
  unfold queued Local.accepted
  rw [List.count_append, List.count_singleton]
  simp only [beq_iff_eq]
  omega

omit [Collation] in
theorem count_erase_add {l : List Nat} {a : Nat} (h : a ∈ l) (i : Nat) :
    (l.erase a).count i + (if a = i then 1 else 0) = l.count i := by
  rw [(List.perm_cons_erase h).count_eq, List.count_cons]
  simp

omit [Collation] in
/-- One message less in one of the queues. -/
theorem lost_eq_some {st : Local} {orderID : Nat} {expired : Bool}
    (h : st.lost orderID expired = some st') : st'.db = st.db ∧
      (∀ i ∈ st'.delayQueue, i ∈ st.delayQueue) ∧ (∀ i ∈ st'.cancelQueue, i ∈ st.cancelQueue) ∧
      ∀ i, queued st' i + (if orderID = i then 1 else 0) = queued st i := by
  unfold Local.lost at h
  split at h
  · split at h
    · rename_i hmem
      obtain rfl := Option.some.inj h
      refine ⟨rfl, fun _ hi => hi, fun _ hi => List.mem_of_mem_erase hi, fun i => ?_⟩
      have hcount := count_erase_add hmem i
      simp only [queued, Local.acked]
      omega
    · exact absurd h (by simp)
  · split at h
    · rename_i hmem
      obtain rfl := Option.some.inj h
      refine ⟨rfl, fun _ hi => List.mem_of_mem_erase hi, fun _ hi => hi, fun i => ?_⟩
      have hcount := count_erase_add hmem i
      simp only [queued]
      omega
    · exact absurd h (by simp)

/-- A step of the saga takes a message of an order out of the queues only to acknowledge it. -/
theorem queued_step (hs : step s e = some s') (i : Nat) :
    queued s.store i ≤ queued s'.store i ∨ ∃ p d, s.At p (.delivery d .ack) ∧ d.orderID = i := by
  unfold queued
  cases queue_step hs with
  | same hd hc =>
    rw [hd, hc]
    exact Or.inl (Nat.le_refl _)
  | stored p cfg event rest o he ho hq hd hc =>
    rw [hd, hc, List.count_append]
    exact Or.inl (by omega)
  | expired j orderID hj hd hc =>
    obtain ⟨hlt, rfl⟩ := List.getElem?_eq_some_iff.mp hj
    have hperm := (List.getElem_cons_eraseIdx_perm hlt).count_eq i
    rw [List.count_cons] at hperm
    rw [hd, hc, List.count_append, List.count_singleton]
    exact Or.inl (by omega)
  | acked p d hq hd hc =>
    by_cases hi : d.orderID = i
    · exact Or.inr ⟨p, d, hq, hi⟩
    · rw [hd, hc, List.count_erase_of_ne (Ne.symm hi)]
      exact Or.inl (Nat.le_refl _)

/-! ## 4. The invariant -/

/-- What holds of the rows, the publishers, the deliveries and the messages. -/
structure Custody (s : State) (x : Channels) : Prop where
  staffed : Staffed s
  tidy : x.Tidy
  /-- a row in hand is a row of the same order -/
  hands : ∀ p cfg pc, s.At p (.publisher cfg pc) → ∀ event ∈ publishEvents pc,
    ∃ row, s.store.db.outbox.row event.1 = some row ∧ row.orderID = event.2.orderID
  /-- a publisher waits for the message of the row it publishes -/
  waits : ∀ p m, x.waiting p = some m → ∃ cfg event rest,
    s.At p (.publisher cfg (.publish event rest)) ∧ m = message event
  sent : ∀ m, x.Mentions m → Outboxed s.store.db m.orderID
  delayed : ∀ i ∈ s.store.delayQueue, Outboxed s.store.db i
  expired : ∀ i ∈ s.store.cancelQueue, Outboxed s.store.db i
  deliveries : ∀ p d pc, s.At p (.delivery d pc) → Outboxed s.store.db d.orderID
  acks : ∀ p d, s.At p (.delivery d .ack) → Freed s.store.db d.orderID
  marks : ∀ p cfg event rest, s.At p (.publisher cfg (.markPublished event rest)) →
    message event ∈ x.confirmed
  rows : ∀ k row, s.store.db.outbox.row k = some row → row.status = .published →
    ⟨k, row.orderID⟩ ∈ x.confirmed
  backed : ∀ i, Backed s x i

omit [Collation] in
theorem custody_start : Custody start Confirms.empty where
  staffed := staffed_start
  tidy := Confirms.tidy_empty
  hands p cfg pc hq := absurd hq (by simp [start, World.At, World.init])
  waits p m hm := absurd hm (by simp [Confirms.empty])
  sent m hm := by
    obtain ⟨c, e, he, -⟩ := hm
    exact absurd he (by simp [Confirms.empty])
  delayed i hi := absurd hi (by simp [start, World.init])
  expired i hi := absurd hi (by simp [start, World.init])
  deliveries p d pc hq := absurd hq (by simp [start, World.At, World.init])
  acks p d hq := absurd hq (by simp [start, World.At, World.init])
  marks p cfg event rest hq := absurd hq (by simp [start, World.At, World.init])
  rows k row hrow := absurd hrow (by simp [start, World.init, DB.empty])
  backed _ := Or.inr (Nat.zero_le _)

theorem hands_step (h : Custody s x) (hs : step s e = some s') {cfg : WorkerConfig} {pc : PublishPc}
    (hq : s'.At p (.publisher cfg pc)) {event : ClaimedEvent} (hev : event ∈ publishEvents pc) :
    ∃ row, s'.store.db.outbox.row event.1 = some row ∧ row.orderID = event.2.orderID := by
  have hold : ∃ row, s.store.db.outbox.row event.1 = some row ∧
      row.orderID = event.2.orderID := by
    rcases publisher_events hs hq hev with ⟨pc₀, hq₀, hmem⟩ | ⟨events, hmem, -, hok⟩
    · exact h.hands p cfg pc₀ hq₀ event hmem
    · exact ⟨event.2, hok.events.2 event hmem, rfl⟩
  obtain ⟨row, hrow, hid⟩ := hold
  obtain ⟨row', hrow', hid'⟩ := timeout_kept hs hrow
  exact ⟨row', hrow', hid'.trans hid⟩

theorem deliveries_step (h : Custody s x) (hs : step s e = some s') {d : Delivery} {pc : DeliveryPc}
    (hq : s'.At p (.delivery d pc)) : Outboxed s'.store.db d.orderID := by
  cases delivery_arrives hs hq with
  | kept pc hq₀ => exact (h.deliveries p d _ hq₀).step hs
  | started hmem => exact (h.expired _ hmem).step hs
  | resolved hq₀ hans => exact (h.deliveries p d _ hq₀).step hs
  | moved pc₀ pc hq₀ hpc => exact (h.deliveries p d _ hq₀).step hs

theorem acks_step (h : Custody s x) (hs : step s e = some s') {d : Delivery}
    (hq : s'.At p (.delivery d .ack)) :
    Freed s'.store.db d.orderID := by
  rcases ack_arrives hs hq with hq₀ | ⟨r, hq₀, hok⟩
  · exact (h.acks p d hq₀).step h.staffed hs
  · exact freed_of_committed hs (h.deliveries p d _ hq₀) hok

omit [Collation] in
/-- Only a publisher after a publish without error marks a row as published. -/
theorem marking_of_stmt {q : Proc} {k : Nat} {workerID : GoString}
    (h : q.stmt = some (.markOutboxPublished k workerID)) :
    ∃ cfg event rest, q = .publisher cfg (.markPublished event rest) ∧ event.1 = k := by
  obtain ⟨cfg, pc, rfl, rfl⟩ := worker_of_publisher h rfl
  cases pc with
  | markPublished event rest =>
    simp only [Proc.stmt, PublishPc.stmt, Option.some.injEq, Stmt.markOutboxPublished.injEq] at h
    exact ⟨cfg, event, rest, rfl, h.1⟩
  | _ => exact absurd h (by simp [Proc.stmt, PublishPc.stmt])

/-- A row is `published` only after its own message was confirmed. -/
theorem rows_step (h : Custody s x) (hs : step s e = some s') {k : Nat} {row' : TimeoutOutbox}
    (hrow' : s'.store.db.outbox.row k = some row') (hst : row'.status = .published) :
    ⟨k, row'.orderID⟩ ∈ x.confirmed := by
  cases db_step hs with
  | none hdb => exact h.rows k row' (hdb ▸ hrow') hst
  | sql p o locked q stmt r he hq hstmt hexec =>
    cases hrow : s.store.db.outbox.row k with
    | none =>
      obtain ⟨⟨rid, delay, -, hnew⟩, -⟩ := (exec_timeouts hexec).adds k row' hrow' hrow
      rw [hnew] at hst
      exact absurd hst (by simp [newTimeout])
    | some row =>
      obtain ⟨row₁, hrow₁, hch⟩ := (exec_timeouts hexec).keeps k row hrow
      obtain rfl := Option.some.inj (hrow₁.symm.trans hrow')
      rw [hch.orderID]
      rcases hch.status_published hst with hold | ⟨workerID, rfl⟩
      · exact h.rows k row hrow hold
      · obtain ⟨cfg, event, rest, rfl, rfl⟩ := marking_of_stmt hstmt
        obtain ⟨row₂, hrow₂, hid⟩ := h.hands p cfg _ hq event List.mem_cons_self
        obtain rfl := Option.some.inj (hrow₂.symm.trans hrow)
        rw [hid]
        exact h.marks p cfg event rest hq

theorem backed_step (h : Custody s x) (hs : step s e = some s') (i : Nat) : Backed s' x i := by
  rcases h.backed i with hfree | hle
  · exact Or.inl (hfree.step h.staffed hs)
  · rcases queued_step hs i with hq | ⟨p, d, hq, rfl⟩
    · exact Or.inr (Nat.le_trans hle hq)
    · exact Or.inl ((h.acks p d hq).step h.staffed hs)

/-- **A step of the saga.**  The channels may lose waiting publishers with it (`hkeeps`).  Nobody
waits who crashes or has the outcome of `Publish` (`hstays`), and an outcome without error is
that of a publisher whose message was confirmed (`hpub`). -/
theorem Custody.advance (h : Custody s x) (hs : step s e = some s') (hkeeps : x.Keeps x')
    (htidy : x'.Tidy) (hstored : x'.stored = x.stored)
    (hstays : ∀ p m, x'.waiting p = some m → e ≠ .crash p ∧ ∀ o, e ≠ .act p (.publish o))
    (hpub : ∀ p o, e = .act p (.publish o) → o.error = none →
      ∃ m, x.waiting p = some m ∧ m ∈ x.confirmed) : Custody s' x' := by
  refine ⟨h.staffed.step hs, htidy, fun p cfg pc hq event hev => hands_step h hs hq hev,
    fun p m hm => ?_, fun m hm => (h.sent m (hkeeps.mentions m hm)).step hs, fun i hi => ?_,
    fun i hi => ?_, fun p d pc hq => deliveries_step h hs hq, fun p d hq => acks_step h hs hq,
    fun p cfg event rest hq => ?_, fun k row hrow hst => ?_, fun i => ?_⟩
  · obtain ⟨cfg, event, rest, hq, hmsg⟩ := h.waits p m (hkeeps.waiting p m hm)
    obtain ⟨hcrash, hno⟩ := hstays p m hm
    exact ⟨cfg, event, rest, publishing_kept hs hq hcrash hno, hmsg⟩
  · rcases (brokered_step hs).delayed i hi with hi | ⟨p, cfg, event, rest, hq, rfl⟩
    · exact (h.delayed i hi).step hs
    · obtain ⟨row, hrow, hid⟩ := h.hands p cfg _ hq event List.mem_cons_self
      exact Outboxed.step ⟨event.1, row, hrow, hid⟩ hs
  · rcases (brokered_step hs).expired i hi with hi | hi
    · exact (h.expired i hi).step hs
    · exact (h.delayed i hi).step hs
  · rcases marking_arrives hs hq with hq₀ | ⟨o, he, ho, hq₀⟩
    · exact hkeeps.confirmed _ (h.marks p cfg event rest hq₀)
    · -- what the publisher waited for is the message of the row it publishes
      obtain ⟨m, hm, hconf⟩ := hpub p o he ho
      obtain ⟨cfg', event', rest', hq', rfl⟩ := h.waits p m hm
      obtain ⟨-, hpc⟩ := Proc.publisher.inj (Option.some.inj (hq₀.symm.trans hq'))
      obtain ⟨rfl, -⟩ := PublishPc.publish.inj hpc
      exact hkeeps.confirmed _ hconf
  · exact hkeeps.confirmed _ (rows_step h hs hrow hst)
  · rcases backed_step h hs i with hfree | hle
    · exact Or.inl hfree
    · exact Or.inr (by rwa [owed, hstored])

omit [Collation] in
/-- A step of the channels alone, or with the queues. -/
theorem Custody.channels (h : Custody s x) (hdb : st'.db = s.store.db) (hkeeps : x.Keeps x')
    (htidy : x'.Tidy) (hdelay : ∀ i ∈ st'.delayQueue, Outboxed s.store.db i)
    (hcancel : ∀ i ∈ st'.cancelQueue, Outboxed s.store.db i)
    (hbacked : ∀ i, owed x i ≤ queued s.store i → owed x' i ≤ queued st' i) :
    Custody { s with store := st' } x' where
  staffed := h.staffed
  tidy := htidy
  hands p cfg pc hq event hev := by
    rw [hdb]
    exact h.hands p cfg pc hq event hev
  waits p m hm := h.waits p m (hkeeps.waiting p m hm)
  sent m hm := by
    rw [hdb]
    exact h.sent m (hkeeps.mentions m hm)
  delayed i hi := by
    rw [hdb]
    exact hdelay i hi
  expired i hi := by
    rw [hdb]
    exact hcancel i hi
  deliveries p d pc hq := by
    rw [hdb]
    exact h.deliveries p d pc hq
  acks p d hq := by
    rw [hdb]
    exact h.acks p d hq
  marks p cfg event rest hq := hkeeps.confirmed _ (h.marks p cfg event rest hq)
  rows k row hrow hst := hkeeps.confirmed _ (h.rows k row (hdb ▸ hrow) hst)
  backed i := by
    rcases h.backed i with hfree | hle
    · exact Or.inl (by rw [hdb]; exact hfree)
    · exact Or.inr (hbacked i hle)

omit [Collation] in
/-- The saga stays as it is. -/
theorem Custody.quiet (h : Custody s x) (hkeeps : x.Keeps x') (htidy : x'.Tidy)
    (hstored : x'.stored.Perm x.stored) : Custody s x' :=
  h.channels rfl hkeeps htidy h.delayed h.expired fun i hle => by rwa [owed_perm hstored]

omit [Collation] in
/-- A publisher sends the message of its row. -/
theorem Custody.send (h : Custody s x) {cfg : WorkerConfig} {event : ClaimedEvent}
    {rest : List ClaimedEvent} (hq : s.At p (.publisher cfg (.publish event rest)))
    (hx : x.send p (message event) = some x') : Custody s x' := by
  obtain ⟨hstored, hconf⟩ := Confirms.stored_send hx
  refine { h with tidy := h.tidy.send hx, waits := fun p' m hm => ?_, sent := fun m hm => ?_
                  marks := by rw [hconf]; exact h.marks
                  rows := by rw [hconf]; exact h.rows
                  backed := fun i => ?_ }
  · rcases Confirms.waiting_send hx hm with hm | ⟨rfl, rfl⟩
    · exact h.waits p' m hm
    · exact ⟨cfg, event, rest, hq, rfl⟩
  · rcases Confirms.mentions_send hx hm with hm | rfl
    · exact h.sent m hm
    · obtain ⟨row, hrow, hid⟩ := h.hands p cfg _ hq event List.mem_cons_self
      exact ⟨event.1, row, hrow, hid⟩
  · rw [Backed, owed, hstored]
    exact h.backed i

omit [Collation] in
/-- The broker stores a message. -/
theorem Custody.accept (h : Custody s x) {c j : Nat} (hx : x.accept c j = some (m, x')) :
    Custody { s with store := s.store.accepted m.orderID } x' := by
  refine h.channels rfl (Confirms.keeps_accept hx) (h.tidy.accept hx) (fun i hi => ?_) h.expired
    fun i hle => ?_
  · rcases List.mem_append.mp hi with hi | hi
    · exact h.delayed i hi
    · rw [List.mem_singleton.mp hi]
      exact h.sent m (Confirms.mentions_accept hx)
  · rw [owed_cons (Confirms.stored_accept hx), queued_accepted]
    omega

omit [Collation] in
/-- The broker loses a message. -/
theorem Custody.lose (h : Custody s x) {expired : Bool} (hx : x.lose m = some x')
    (hst : s.store.lost m.orderID expired = some st') : Custody { s with store := st' } x' := by
  obtain ⟨hdb, hdelay, hcancel, hqueued⟩ := lost_eq_some hst
  refine h.channels hdb (Confirms.keeps_lose hx) (h.tidy.lose hx)
    (fun i hi => h.delayed i (hdelay i hi)) (fun i hi => h.expired i (hcancel i hi))
    fun i hle => ?_
  have howed := owed_cons (Confirms.stored_lose hx) i
  have hleft := hqueued i
  omega

/-! ## 5. Runs -/

/-- `Publish` is not a step of its own. -/
theorem not_publish_of_allows (h : sessions.allows s x e = true) (p : Nat) (o : PublishOutcome) :
    e ≠ .act p (.publish o) := by
  rintro rfl
  exact absurd h (by simp [sessions])

/-- A session that ends drops its channel. -/
theorem note_cases (s : State) (e : Event) (x : Channels) :
    (sessions.note s e x = x ∧ ∀ p, e ≠ .crash p) ∨
      ∃ p, sessions.note s e x = x.drop p ∧ ∀ p', e = .crash p' → p' = p := by
  cases hend : sessionEnds s e with
  | none =>
    refine Or.inl ⟨by simp [sessions, hend], fun p hp => ?_⟩
    subst hp
    exact absurd hend (by simp [sessionEnds])
  | some p =>
    refine Or.inr ⟨p, by simp [sessions, hend], fun p' hp => ?_⟩
    subst hp
    exact Option.some.inj hend

theorem Custody.sys (h : Custody s x) (ha : sessions.allows s x e = true) (hs : step s e = some s')
    :
    Custody s' (sessions.note s e x) := by
  have hno := not_publish_of_allows ha
  rcases note_cases s e x with ⟨hnote, hcrash⟩ | ⟨p, hnote, hcrash⟩
  · rw [hnote]
    exact h.advance hs (.refl x) h.tidy rfl (fun p m _ => ⟨hcrash p, hno p⟩)
      fun p o he => absurd he (hno p o)
  · rw [hnote]
    refine h.advance hs (x.keeps_drop p) (h.tidy.drop p) rfl (fun p' m hm => ⟨?_, hno p'⟩)
      fun p o he => absurd he (hno p o)
    intro he
    obtain rfl := hcrash p' he
    exact absurd hm (by simp [Confirms.drop])

/-- `Publish` returns. -/
theorem Custody.returned (h : Custody s x) {o : PublishOutcome}
    (hs : step s (.act p (.publish o)) = some s') (hkeeps : x.Keeps x') (htidy : x'.Tidy)
    (hstored : x'.stored = x.stored) (hwait : x'.waiting p = none)
    (hpub : o.error = none → ∃ m, x.waiting p = some m ∧ m ∈ x.confirmed) : Custody s' x' := by
  refine h.advance hs hkeeps htidy hstored (fun p' m hm => ⟨by simp, fun o' he => ?_⟩)
    fun p' o' he ho => ?_
  · obtain ⟨rfl, -⟩ := RpcEvent.act.inj he
    exact absurd (hwait.symm.trans hm) (by simp)
  · obtain ⟨rfl, ho'⟩ := RpcEvent.act.inj he
    obtain rfl := Choice.publish.inj ho'
    exact hpub ho

theorem Custody.step (h : Custody s x) {e : PublishEvent}
    (hs : publishStep (s, x) e = some (s', x')) : Custody s' x' := by
  cases e with
  | sys e =>
    obtain ⟨ha, hstep, rfl⟩ := overlayStep_sys hs
    exact h.sys ha hstep
  | connect p =>
    simp only [publishStep] at hs
    split at hs
    · obtain ⟨x₁, hx, heq⟩ := Option.map_eq_some_iff.mp hs
      obtain ⟨rfl, rfl⟩ := Prod.mk.inj heq
      exact h.quiet (Confirms.keeps_connect hx) (h.tidy.connect hx)
        (.of_eq (Confirms.stored_connect hx))
    · exact absurd hs (by simp)
  | send p =>
    simp only [publishStep] at hs
    split at hs
    · rename_i cfg event rest hrow
      obtain ⟨x₁, hx, heq⟩ := Option.map_eq_some_iff.mp hs
      obtain ⟨rfl, rfl⟩ := Prod.mk.inj heq
      exact h.send hrow hx
    · exact absurd hs (by simp)
  | accept c j =>
    obtain ⟨⟨m, x₁⟩, hx, heq⟩ := Option.map_eq_some_iff.mp hs
    obtain ⟨rfl, rfl⟩ := Prod.mk.inj heq
    exact h.accept hx
  | confirm c j ack =>
    obtain ⟨x₁, hx, heq⟩ := Option.map_eq_some_iff.mp hs
    obtain ⟨rfl, rfl⟩ := Prod.mk.inj heq
    exact h.quiet (Confirms.keeps_confirm hx) (h.tidy.confirm hx) (Confirms.stored_confirm hx)
  | lose m expired =>
    obtain ⟨x₁, hx, hs⟩ := Option.bind_eq_some_iff.mp hs
    obtain ⟨st', hst, heq⟩ := Option.map_eq_some_iff.mp hs
    obtain ⟨rfl, rfl⟩ := Prod.mk.inj heq
    exact h.lose hx hst
  | take p cause =>
    obtain ⟨⟨ok, x₁⟩, hx, hs⟩ := Option.bind_eq_some_iff.mp hs
    obtain ⟨s₁, hstep, heq⟩ := Option.map_eq_some_iff.mp hs
    obtain ⟨rfl, rfl⟩ := Prod.mk.inj heq
    refine h.returned hstep (Confirms.keeps_take hx) (h.tidy.take hx) (Confirms.stored_take hx).1
      (by simp [Confirms.waiting_take hx]) fun ho => ?_
    cases ok with
    | true => exact h.tidy.confirmed_take hx
    | false => exact absurd ho (by simp)
  | fail p cause =>
    obtain ⟨s₁, hstep, heq⟩ := Option.map_eq_some_iff.mp hs
    obtain ⟨rfl, rfl⟩ := Prod.mk.inj heq
    exact h.returned hstep (x.keeps_drop p) (h.tidy.drop p) rfl (by simp [Confirms.drop])
      fun ho => absurd ho (by simp)
  | close p =>
    simp only [publishStep] at hs
    split at hs
    · obtain ⟨rfl, rfl⟩ := Prod.mk.inj (Option.some.inj hs)
      exact h.quiet (x.keeps_drop p) (h.tidy.drop p) (List.Perm.refl _)
    · exact absurd hs (by simp)

theorem custody_run {es : List PublishEvent} (h : run publishStep publishStart es = some (s, x)) :
    Custody s x :=
  run_invariant (I := fun t => Custody t.1 t.2) (fun _ _ _ hI hs => Custody.step hI hs)
    custody_start h

/-- **No timeout is lost by the outbox.**  In every state, a row that is `published` has a
message that the broker confirmed, of that very row and its order, and a message of that order is
in the delay queue or in the cancel queue.  The answer that has arrived for a publisher is never
that to another message than the one it is publishing. -/
theorem published_kept {es : List PublishEvent} {s : State} {x : Channels}
    (h : run publishStep publishStart es = some (s, x)) :
    (∀ k row, s.store.db.outbox.row k = some row → row.status = .published →
      ⟨k, row.orderID⟩ ∈ x.confirmed ∧
        (row.orderID ∈ s.store.delayQueue ∨ row.orderID ∈ s.store.cancelQueue)) ∧
    ∀ p cfg event rest answer, s.At p (.publisher cfg (.publish event rest)) →
      x.inbox p = some answer → answer.msg = message event := by
  have hcust := custody_run h
  refine ⟨fun k row hrow hst => ?_, fun p cfg event rest answer hq hin => ?_⟩
  · have hconf := hcust.rows k row hrow hst
    refine ⟨hconf, ?_⟩
    rcases hcust.backed row.orderID with hfree | hle
    · exact absurd (hst.symm.trans (hfree.rows k row hrow rfl).1) (by simp)
    · have hpos : 0 < owed x row.orderID :=
        List.countP_pos_iff.mpr ⟨_, List.mem_append_right _ hconf, by simp⟩
      rcases Nat.eq_zero_or_pos (s.store.delayQueue.count row.orderID) with hzero | hpos'
      · exact Or.inr (List.count_pos_iff.mp (by unfold queued at hle; omega))
      · exact Or.inl (List.count_pos_iff.mp hpos')
  · obtain ⟨cfg', event', rest', hq', hmsg⟩ := hcust.waits p _ (hcust.tidy.inbox hin)
    obtain ⟨-, hpc⟩ := Proc.publisher.inj (Option.some.inj (hq.symm.trans hq'))
    obtain ⟨rfl, -⟩ := PublishPc.publish.inj hpc
    exact hmsg

end

/-- An order is placed and a publisher claims its timeout.  No confirmation comes in time, so
the publisher records a failure, and when the row is due again it opens a new channel.  On the
old one the broker confirms the message now.  The publisher sends another, which is confirmed on
the new channel. -/
def confirmedLate : List PublishEvent :=
  ordering.map .sys ++
    [.sys (.spawn (.publisher ⟨[0x77], 60, 5, 10⟩ .idle)), .connect 2, .sys (.act 2 .poll),
      .sys (.act 2 (.sql .ok [])), .send 2, .fail 2 [], .sys (.act 2 (.sql .ok [])),
      .sys (.env (.tick 5)), .connect 2, .sys (.act 2 .poll), .sys (.act 2 (.sql .ok [])),
      .accept 0 0, .confirm 0 0 true, .send 2, .accept 1 0, .confirm 1 0 true, .take 2 [],
      .sys (.act 2 (.sql .ok []))]

theorem published_kept_confirmedLate :
    letI := asciiCi
    ∃ s x row, run publishStep publishStart confirmedLate = some (s, x) ∧
      s.store.db.outbox.row 1 = some row ∧ row.status = .published ∧ row.orderID = 1 ∧
      ⟨1, 1⟩ ∈ x.confirmed ∧ (1 ∈ s.store.delayQueue ∨ 1 ∈ s.store.cancelQueue) := by
  let _ : Collation := asciiCi
  have h : (run publishStep publishStart confirmedLate).bind (fun t =>
      (t.1.store.db.outbox.row 1).map fun row =>
        decide (row.status = .published ∧ row.orderID = 1)) = some true := by decide
  obtain ⟨⟨s, x⟩, hs, hv⟩ := Option.bind_eq_some_iff.mp h
  obtain ⟨row, hrow, hv⟩ := Option.map_eq_some_iff.mp hv
  obtain ⟨hst, hid⟩ := of_decide_eq_true hv
  have hkept := (published_kept hs).1 1 row hrow hst
  rw [hid] at hkept
  exact ⟨s, x, row, hs, hrow, hst, hid, hkept.1, hkept.2⟩

end OrderSystem.Saga
