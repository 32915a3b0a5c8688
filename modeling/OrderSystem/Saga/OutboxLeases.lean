/-
# The leases of the publishers

Publishers take batches of timeout rows under leases (`Kit/Lease.lean`), publish them one after
the other and record what became of each.  Other programs write the same rows without a lease:
`cancel`, `Pay` and `completeTask` complete the row of an order that is settled, and a delivery
completes the row it was for.  Only the delivery clears the lease columns with it.

* `completed_stays` -- if `cancel`, `Pay` and `completeTask` complete a row only while no
  publisher has it in hand under the lease in the row, a completed row stays completed, and no
  claim takes it again.
* `completed_reopened` -- without that, the publisher writes its own outcome over `completed`,
  and the row is claimed and published again.
* `outbox_leases` -- if no two publishers at work have ids that compare equal in the column, at
  most one has a row in its batch in time, and one that has lost a row does not change it.
* `stale_publisher_writes` -- different ids are not enough: the column compares them without
  regard to case.

A publisher does not remember until when it has its batch, so the deadlines are notes on the
saga (`Kit/Overlay.lean`).
-/
import OrderSystem.Kit.Lease
import OrderSystem.Kit.Overlay
import OrderSystem.Saga.Workers
import OrderSystem.Saga.Timeout

namespace OrderSystem.Saga

open OrderSystem.Kit
open OrderSystem.OrderSvc

/-! ## 1. Statements of a publisher -/

/-- The rows a statement of a publisher is about, other than a claim. -/
def Stmt.marks : Stmt → List Nat
  | .markOutboxPublished eventID _ => [eventID]
  | .markOutboxFailure eventID _ _ _ => [eventID]
  | .releaseClaimedLeases ids _ => ids
  | _ => []

/-- The order whose timeout row a process is about to complete without regard to its lease. -/
def closing : Proc → Option Nat
  | .settle c .finalize => some c.orderID
  | .recon _ (.complete task _ true _) => some task.2.orderID
  | _ => none

theorem closing_of_finalizeSettle {q : Proc} {orderID : Nat} {transient final : OrderStatus}
    (h : q.stmt = some (.finalizeSettle orderID transient final)) : closing q = some orderID := by
  cases q with
  | settle c pc =>
    cases pc with
    | finalize =>
      simp only [Proc.stmt, SettlePc.stmt, Option.some.injEq, Stmt.finalizeSettle.injEq] at h
      rw [closing, h.1]
    | _ => exact absurd h (by simp [Proc.stmt, SettlePc.stmt])
  | create c pc => cases pc <;> exact absurd h (by simp [Proc.stmt, CreatePc.stmt])
  | finish c pc => cases pc <;> exact absurd h (by simp [Proc.stmt, FinishPc.stmt])
  | recon cfg pc => cases pc <;> exact absurd h (by simp [Proc.stmt, ReconPc.stmt])
  | publisher cfg pc => cases pc <;> exact absurd h (by simp [Proc.stmt, PublishPc.stmt])
  | delivery d pc => cases pc <;> exact absurd h (by simp [Proc.stmt, DeliveryPc.stmt])

theorem closing_of_completeTask {q : Proc} {taskID orderID : Nat} {workerID : GoString}
    {target : OrderStatus} (h : q.stmt = some (.completeTask taskID workerID orderID target true)) :
    closing q = some orderID := by
  obtain ⟨cfg, pc, rfl, rfl⟩ := worker_of_reconciler h rfl
  cases pc with
  | complete task target' closes rest =>
    simp only [Proc.stmt, ReconPc.stmt, Option.some.injEq, Stmt.completeTask.injEq] at h
    obtain ⟨-, -, rfl, -, rfl⟩ := h
    rfl
  | _ => exact absurd h (by simp [Proc.stmt, ReconPc.stmt])

variable {cfg : WorkerConfig} {pc : PublishPc} {stmt : Stmt}

/-- A publisher runs its own statements only. -/
theorem publisher_stmt (h : (Proc.publisher cfg pc).stmt = some stmt) :
    Stmt.publisher stmt = some cfg.workerID := by
  cases pc with
  | idle => exact absurd h (by simp [Proc.stmt, PublishPc.stmt])
  | publish event rest => exact absurd h (by simp [Proc.stmt, PublishPc.stmt])
  | _ =>
    obtain rfl := Option.some.inj h
    rfl

/-- A publisher writes rows it has in hand. -/
theorem hand_of_marks (h : (Proc.publisher cfg pc).stmt = some stmt) {k : Nat}
    (hk : k ∈ Stmt.marks stmt) :
    k ∈ (publishEvents pc).map Prod.fst := by
  cases pc with
  | markPublished event rest | markFailure event cause rest =>
    obtain rfl := Option.some.inj h
    obtain rfl := List.mem_singleton.mp hk
    exact List.mem_cons_self
  | releaseLeases rest =>
    obtain rfl := Option.some.inj h
    exact hk
  | claim =>
    obtain rfl := Option.some.inj h
    exact absurd hk (by simp [Stmt.marks])
  | _ => exact absurd h (by simp [Proc.stmt, PublishPc.stmt])

/-- ...and when the statement is over, whatever it returned, does not have them in hand any
more. -/
theorem not_hand_of_marks (h : (Proc.publisher cfg pc).stmt = some stmt)
    (hnodup : ((publishEvents pc).map Prod.fst).Nodup) {k : Nat} (hk : k ∈ Stmt.marks stmt)
    (r : Except Err Res) : k ∉ (publishEvents (pc.after r)).map Prod.fst := by
  cases pc with
  | markPublished event rest =>
    obtain rfl := Option.some.inj h
    obtain rfl := List.mem_singleton.mp hk
    cases r with
    | ok r =>
      rw [PublishPc.after, publishEvents_next]
      exact (List.nodup_cons.mp hnodup).1
    | error err => exact List.not_mem_nil
  | markFailure event cause rest =>
    obtain rfl := Option.some.inj h
    obtain rfl := List.mem_singleton.mp hk
    cases r with
    | ok r =>
      rw [PublishPc.after]
      split
      · exact List.not_mem_nil
      · exact (List.nodup_cons.mp hnodup).1
    | error err => exact List.not_mem_nil
  | releaseLeases rest => exact List.not_mem_nil
  | claim =>
    obtain rfl := Option.some.inj h
    exact absurd hk (by simp [Stmt.marks])
  | _ => exact absurd h (by simp [Proc.stmt, PublishPc.stmt])

/-- A row that can be claimed is not completed. -/
theorem ne_completed_of_due {st : OutboxStatus} (h : st = .pending ∨ st = .failed) :
    st ≠ .completed := by
  rcases h with rfl | rfl
  · simp
  · simp

section

variable [Collation]

/-- What a step does to a timeout row, by who does it. -/
inductive RowStep (s : State) (e : Event) (s' : State) (k : Nat) (row : TimeoutOutbox) :
    TimeoutOutbox → Prop
  | kept (row' : TimeoutOutbox) (howner : row'.leaseOwner = row.leaseOwner)
      (huntil : row'.leaseUntil = row.leaseUntil) (hst : row'.status = row.status) :
      RowStep s e s' k row row'
  /-- `cancel`, `Pay` or `completeTask` complete it and leave the lease as it is -/
  | closed (p : Nat) (o : SqlOutcome) (locked : List Nat) (q : Proc)
      (he : e = .act p (.sql o locked)) (hq : s.At p q) (hc : closing q = some row.orderID) :
      RowStep s e s' k row { row with status := .completed }
  /-- the delivery completes it -/
  | consumed (row' : TimeoutOutbox) (hst : row'.status = .completed)
      (howner : row'.leaseOwner = []) (huntil : row'.leaseUntil = none) :
      RowStep s e s' k row row'
  /-- a publisher claims it -/
  | leased (p : Nat) (o : SqlOutcome) (locked : List Nat) (cfg : WorkerConfig)
      (events : List ClaimedEvent) (he : e = .act p (.sql o locked))
      (hq : s.At p (.publisher cfg .claim))
      (hexec : (Stmt.claimPending cfg.workerID cfg.leaseDuration cfg.batchSize).exec s.store.now
        locked s.store.db = .ok (.events events, s'.store.db))
      (hmem : (k, row) ∈ events) (hst : row.status = .pending ∨ row.status = .failed)
      (hopen : leaseOpen row.leaseUntil s.store.now = true) :
      RowStep s e s' k row { row with
        leaseOwner := cfg.workerID, leaseUntil := some (s.store.now + cfg.leaseDuration) }
  /-- a publisher that owns it marks it or gives it back -/
  | marked (p : Nat) (o : SqlOutcome) (locked : List Nat) (cfg : WorkerConfig) (pc : PublishPc)
      (stmt : Stmt) (row' : TimeoutOutbox) (he : e = .act p (.sql o locked))
      (hq : s.At p (.publisher cfg pc)) (hstmt : (Proc.publisher cfg pc).stmt = some stmt)
      (hk : k ∈ Stmt.marks stmt) (howns : owns cfg.workerID row.leaseOwner = true)
      (howner : row'.leaseOwner = []) (huntil : row'.leaseUntil = none) :
      RowStep s e s' k row row'

omit [Collation] in
/-- Only a publisher that polls claims timeout rows. -/
theorem claim_of_claimPending {q : Proc} {workerID : GoString} {leaseDuration : Int}
    {batchSize : Nat} (h : q.stmt = some (.claimPending workerID leaseDuration batchSize)) :
    ∃ cfg, q = .publisher cfg .claim ∧ cfg.workerID = workerID ∧
      cfg.leaseDuration = leaseDuration ∧ cfg.batchSize = batchSize := by
  obtain ⟨cfg, pc, rfl, rfl⟩ := worker_of_publisher h rfl
  cases pc with
  | claim =>
    simp only [Proc.stmt, PublishPc.stmt, Option.some.injEq, Stmt.claimPending.injEq] at h
    exact ⟨cfg, rfl, rfl, h.2.1, h.2.2⟩
  | _ => exact absurd h (by simp [Proc.stmt, PublishPc.stmt])

variable {s s' : State} {e : Event} {k : Nat}

/-- **What a step does to a timeout row.** -/
theorem row_step (hs : step s e = some s') {row : TimeoutOutbox}
    (hrow : s.store.db.outbox.row k = some row) :
    ∃ row', s'.store.db.outbox.row k = some row' ∧ RowStep s e s' k row row' := by
  cases db_step hs with
  | none hdb => exact ⟨row, hdb ▸ hrow, .kept row rfl rfl rfl⟩
  | sql p o locked q stmt r he hq hstmt hexec =>
    obtain ⟨row', hrow', hch⟩ := (exec_timeouts hexec).keeps k row hrow
    refine ⟨row', hrow', ?_⟩
    cases hch with
    | same => exact .kept _ rfl rfl rfl
    | noted lastError hst => exact .kept _ rfl rfl rfl
    | consumed hst => exact .consumed _ rfl rfl rfl
    | closed hst hne =>
      rcases hst with ⟨transient, final, rfl⟩ | ⟨taskID, workerID, target, rfl⟩
      · exact .closed p o locked q he hq (closing_of_finalizeSettle hstmt)
      · exact .closed p o locked q he hq (closing_of_completeTask hstmt)
    | leased workerID leaseDuration batchSize events hst hr hmem hdue hopen =>
      subst hst hr
      obtain ⟨cfg, rfl, rfl, rfl, rfl⟩ := claim_of_claimPending hstmt
      exact .leased p o locked cfg events he hq hexec hmem hdue hopen
    | published workerID hst howns | failed workerID lastError retryDelay hst howns =>
      subst hst
      obtain ⟨cfg, pc, rfl, rfl⟩ := worker_of_publisher hstmt rfl
      exact .marked p o locked cfg pc _ _ he hq hstmt (by simp [Stmt.marks]) howns rfl rfl
    | released ids workerID hst hmem howns =>
      subst hst
      obtain ⟨cfg, pc, rfl, rfl⟩ := worker_of_publisher hstmt rfl
      exact .marked p o locked cfg pc _ _ he hq hstmt hmem howns rfl rfl

/-- A timeout row was there before, or is new, `pending` and free. -/
theorem row_origin (hs : step s e = some s') {row' : TimeoutOutbox}
    (hrow' : s'.store.db.outbox.row k = some row') :
    (∃ row, s.store.db.outbox.row k = some row ∧ RowStep s e s' k row row') ∨
      (s.store.db.outbox.row k = none ∧ row'.status = .pending ∧ row'.leaseOwner = [] ∧
        row'.leaseUntil = none) := by
  cases hrow : s.store.db.outbox.row k with
  | some row =>
    obtain ⟨row₁, hrow₁, hch⟩ := row_step hs hrow
    obtain rfl := Option.some.inj (hrow₁.symm.trans hrow')
    exact Or.inl ⟨row, rfl, hch⟩
  | none =>
    cases db_step hs with
    | none hdb => exact absurd (hdb ▸ hrow') (by simp [hrow])
    | sql p o locked q stmt r he hq hstmt hexec =>
      obtain ⟨⟨rid, delay, -, hnew⟩, -⟩ := (exec_timeouts hexec).adds k row' hrow' hrow
      rw [hnew]
      exact Or.inr ⟨rfl, rfl, rfl, rfl⟩

/-- A publisher has the row in hand. -/
def InHand (s : State) (p : Nat) (cfg : WorkerConfig) (k : Nat) : Prop :=
  ∃ pc, s.At p (.publisher cfg pc) ∧ k ∈ (publishEvents pc).map Prod.fst

/-- It had it in hand before, or it has just claimed it. -/
theorem inHand_origin (hs : step s e = some s') {p : Nat} {cfg : WorkerConfig}
    (h : InHand s' p cfg k) :
    InHand s p cfg k ∨ ∃ locked events row, e = .act p (.sql .ok locked) ∧
      s.At p (.publisher cfg .claim) ∧
      (Stmt.claimPending cfg.workerID cfg.leaseDuration cfg.batchSize).exec s.store.now
        locked s.store.db = .ok (.events events, s'.store.db) ∧
      k ∈ events.map Prod.fst ∧ s.store.db.outbox.row k = some row ∧
      (row.status = .pending ∨ row.status = .failed) ∧
      leaseOpen row.leaseUntil s.store.now = true ∧
      s'.store.db.outbox.row k = some { row with
        leaseOwner := cfg.workerID, leaseUntil := some (s.store.now + cfg.leaseDuration) } := by
  obtain ⟨pc, hq, hk⟩ := h
  obtain ⟨⟨k, row₀⟩, hmem, rfl⟩ := List.mem_map.mp hk
  rcases publisher_events hs hq hmem with ⟨pc₀, hq₀, hmem₀⟩ | ⟨events, hmem₀, hq₀, hok⟩
  · exact Or.inl ⟨pc₀, hq₀, List.mem_map.mpr ⟨_, hmem₀, rfl⟩⟩
  · obtain ⟨locked, he, hexec⟩ := hok.event
    obtain ⟨events', hev, hrows, -, hdb⟩ := claimPending_ok hexec
    obtain rfl := Res.events.inj hev
    obtain ⟨hrow, hst, hopen⟩ := hrows _ hmem₀
    have hk₀ : k ∈ events.map Prod.fst := List.mem_map.mpr ⟨_, hmem₀, rfl⟩
    refine Or.inr ⟨locked, events, row₀, he, hq₀, hexec, hk₀, hrow, hst, hopen, ?_⟩
    rw [hdb, Table.mapRows_row, hrow, Option.map_some, if_pos hk₀]

/-! ## 2. Completed rows -/

/-- The process that runs a statement in a step. -/
def runner : Event → Option Nat
  | .act p (.sql _ _) => some p
  | _ => none

/-- The process is a publisher that has the row in hand and owns its lease. -/
def holdsLease (k : Nat) (leaseOwner : GoString) : Proc → Bool
  | .publisher cfg pc =>
    owns cfg.workerID leaseOwner && decide (k ∈ (publishEvents pc).map Prod.fst)
  | _ => false

/-- When `cancel`, `Pay` or `completeTask` complete a timeout row, no publisher has it in hand
under the lease in the row. -/
def Unheld (s : State) (e : Event) : Prop :=
  ∀ p ∈ runner e, ∀ q ∈ s.procs.row p, ∀ orderID ∈ closing q,
    ∀ x ∈ s.store.db.outbox.select (fun row => decide (row.orderID = orderID)),
      (s.procs.search (holdsLease x.1 x.2.leaseOwner)).isNone = true

instance (s : State) (e : Event) : Decidable (Unheld s e) :=
  inferInstanceAs (Decidable (∀ p ∈ runner e, ∀ q ∈ s.procs.row p, ∀ orderID ∈ closing q, _))

/-- Nobody can write a completed row: who has it in hand does not own it. -/
structure Settled (s : State) : Prop where
  staffed : Staffed s
  free : ∀ k row, s.store.db.outbox.row k = some row → row.status = .completed →
    ∀ p cfg, InHand s p cfg k → owns cfg.workerID row.leaseOwner = false

/-- **A completed row stays completed** for one step. -/
theorem completed_step (h : Settled s) (hs : step s e = some s') {row : TimeoutOutbox}
    (hrow : s.store.db.outbox.row k = some row) (hst : row.status = .completed) :
    ∃ row', s'.store.db.outbox.row k = some row' ∧ row'.status = .completed := by
  obtain ⟨row', hrow', hch⟩ := row_step hs hrow
  refine ⟨row', hrow', ?_⟩
  cases hch with
  | kept _ _ _ hst' => exact hst'.trans hst
  | closed p o locked q he hq hc => rfl
  | consumed _ hst' _ _ => exact hst'
  | leased p o locked cfg events he hq hexec hmem hdue hopen => exact hst
  | marked p o locked cfg pc stmt _ he hq hstmt hk howns howner huntil =>
    rw [h.free k row hrow hst p cfg ⟨pc, hq, hand_of_marks hstmt hk⟩] at howns
    exact absurd howns (by simp)

theorem Settled.step (h : Settled s) (hC : Unheld s e) (hs : step s e = some s') : Settled s' := by
  have hstaff := h.staffed.step hs
  refine ⟨hstaff, fun k row' hrow' hst' p cfg hp => ?_⟩
  have hid : IsWorkerID cfg.workerID := by
    obtain ⟨pc, hq, -⟩ := hp
    exact hstaff p _ _ hq rfl
  rcases inHand_origin hs hp with hp₀ | ⟨-, -, row, -, -, -, -, -, hst, -, hrow₁⟩
  · rcases row_origin hs hrow' with ⟨row, hrow, hch⟩ | ⟨-, hst, -, -⟩
    · cases hch with
      | kept _ howner _ hst =>
        rw [howner]
        exact h.free k row hrow (hst.symm.trans hst') p cfg hp₀
      | closed p' o locked q he hq hc =>
        subst he
        have hsel : (k, row) ∈ s.store.db.outbox.select
            (fun x => decide (x.orderID = row.orderID)) :=
          Table.mem_select.mpr ⟨hrow, decide_eq_true rfl⟩
        have hnone := Option.isNone_iff_eq_none.mp (hC p' rfl q hq _ hc (k, row) hsel)
        obtain ⟨pc, hq₀, hk⟩ := hp₀
        have hfalse := Table.search_eq_none hnone hq₀
        simpa [holdsLease, hk] using hfalse
      | consumed _ _ howner _
      | marked p' o locked cfg' pc stmt _ he hq hstmt hk howns howner huntil =>
        rw [howner]
        exact not_owns_nil hid
      | leased p' o locked cfg' events he hq hexec hmem hdue hopen =>
        exact absurd hst' (ne_completed_of_due hdue)
    · exact absurd hst' (by simp [hst])
  · obtain rfl := Option.some.inj (hrow₁.symm.trans hrow')
    exact absurd hst' (ne_completed_of_due hst)

theorem settled_start : Settled start where
  staffed := staffed_start
  free k row hrow := absurd hrow (by simp [start, World.init, DB.empty])

/-- **A completed timeout row stays completed.**  If no step that completes a row in passing
finds it in the hands of a publisher that owns it, then a row that is completed is completed
ever after, and no claim returns it. -/
theorem completed_stays {es : List Event} {s : State} (h : run step start es = some s)
    (hC : Meets Unheld step start es) {k : Nat} {row : TimeoutOutbox}
    (hrow : s.store.db.outbox.row k = some row) (hst : row.status = .completed)
    {es' : List Event} {s' : State} (h' : run step s es' = some s')
    (hC' : Meets Unheld step s es') :
    (∃ row', s'.store.db.outbox.row k = some row' ∧ row'.status = .completed) ∧
    ∀ workerID leaseDuration batchSize locked events db',
      (Stmt.claimPending workerID leaseDuration batchSize).exec s'.store.now locked s'.store.db =
        .ok (.events events, db') → k ∉ events.map Prod.fst := by
  have hset : Settled s :=
    run_invariant_of (fun _ _ _ hI hc hs => Settled.step hI hc hs) settled_start hC h
  have hlast : Settled s' ∧
      ∃ row', s'.store.db.outbox.row k = some row' ∧ row'.status = .completed := by
    refine run_invariant_of (I := fun u => Settled u ∧
      ∃ row', u.store.db.outbox.row k = some row' ∧ row'.status = .completed) ?_
      ⟨hset, row, hrow, hst⟩ hC' h'
    rintro u e u' ⟨hu, row₁, hrow₁, hst₁⟩ hc hs
    exact ⟨hu.step hc hs, completed_step hu hs hrow₁ hst₁⟩
  obtain ⟨-, row', hrow', hst'⟩ := hlast
  refine ⟨⟨row', hrow', hst'⟩,
    fun workerID leaseDuration batchSize locked events db' hexec hk => ?_⟩
  obtain ⟨events', hev, hrows, -, -⟩ := claimPending_ok hexec
  obtain rfl := Res.events.inj hev
  obtain ⟨⟨k, row₀⟩, hmem, rfl⟩ := List.mem_map.mp hk
  obtain ⟨hrow₀, hdue, -⟩ := hrows _ hmem
  obtain rfl := Option.some.inj (hrow₀.symm.trans hrow')
  exact ne_completed_of_due hdue hst'

end

/-- A publisher polls after the order has been paid. -/
def polling : List Event :=
  [.spawn (.publisher ⟨[0x77], 60, 5, 10⟩ .idle), .act 4 .poll, .act 4 (.sql .ok [])]

theorem completed_stays_paying :
    letI := asciiCi
    ∃ s s' : State, run step start (ordering ++ paying) = some s ∧ run step s polling = some s' ∧
      (∃ row, s.store.db.outbox.row 1 = some row ∧ row.status = .completed) ∧
      ∃ row, s'.store.db.outbox.row 1 = some row ∧ row.status = .completed := by
  let _ : Collation := asciiCi
  have h : (run step start (ordering ++ paying)).bind (fun s =>
      (s.store.db.outbox.row 1).bind fun row => (run step s polling).map fun _ => row.status) =
      some .completed := by decide
  obtain ⟨s, hs, hv⟩ := Option.bind_eq_some_iff.mp h
  obtain ⟨row, hrow, hv⟩ := Option.bind_eq_some_iff.mp hv
  obtain ⟨s', hs', hst⟩ := Option.map_eq_some_iff.mp hv
  have hC : Meets Unheld step start (ordering ++ paying ++ polling) := by decide
  obtain ⟨hC₁, hC₂⟩ := (meets_append hs).mp hC
  exact ⟨s, s', hs, hs', ⟨row, hrow, hst⟩, (completed_stays hs hC₁ hrow hst hs' hC₂).1⟩

/-- A publisher has the row in its batch when `Pay` completes it. -/
def paidInBatch : List Event :=
  [.spawn (.publisher ⟨[0x77], 60, 5, 10⟩ .idle), .act 2 .poll, .act 2 (.sql .ok []),
    .spawn (.settle ⟨.pay, false, 1, 1, none⟩ .load), .act 3 (.sql .ok []), .act 3 (.sql .ok []),
    .send 3, .serve 1 ⟨.none, [], []⟩, .receive 3 1, .act 3 (.sql .ok [])]

/-- The broker does not confirm the message, and the publisher records that; when the row is due
again it claims and publishes it. -/
def publishAgain : List Event :=
  [.act 2 (.publish ⟨false, some []⟩), .act 2 (.sql .ok []), .env (.tick 5), .act 2 .poll,
    .act 2 (.sql .ok []), .act 2 (.publish ⟨true, none⟩)]

/-- **A completed row can be reopened**: the timeout of a paid order is published again. -/
theorem completed_reopened :
    letI := asciiCi
    ∃ s s' o row row', run step start (ordering ++ paidInBatch) = some s ∧
      s.store.db.orders.row 1 = some o ∧ o.status = .paid ∧
      s.store.db.outbox.row 1 = some row ∧ row.orderID = 1 ∧ row.status = .completed ∧
      run step s publishAgain = some s' ∧
      s'.store.db.outbox.row 1 = some row' ∧ row'.status = .failed ∧
      s'.store.delayQueue = [1] := by
  let _ : Collation := asciiCi
  have h : (run step start (ordering ++ paidInBatch)).bind (fun s =>
      (s.store.db.orders.row 1).bind fun o => (s.store.db.outbox.row 1).bind fun row =>
        (run step s publishAgain).bind fun s' => (s'.store.db.outbox.row 1).map fun row' =>
          decide (o.status = .paid ∧ row.orderID = 1 ∧ row.status = .completed ∧
            row'.status = .failed ∧ s'.store.delayQueue = [1])) = some true := by decide
  obtain ⟨s, hs, hv⟩ := Option.bind_eq_some_iff.mp h
  obtain ⟨o, ho, hv⟩ := Option.bind_eq_some_iff.mp hv
  obtain ⟨row, hrow, hv⟩ := Option.bind_eq_some_iff.mp hv
  obtain ⟨s', hs', hv⟩ := Option.bind_eq_some_iff.mp hv
  obtain ⟨row', hrow', hv⟩ := Option.map_eq_some_iff.mp hv
  obtain ⟨hpaid, hid, hst, hst', hqueue⟩ := of_decide_eq_true hv
  exact ⟨s, s', o, row, row', hs, ho, hpaid, hrow, hid, hst, hs', hrow', hst', hqueue⟩

/-! ## 3. The timeout rows as leased rows -/

/-- Until when a publisher has its batch. -/
abbrev Deadlines := Nat → Option Int

/-- The deadline of the batch a process is about to claim. -/
def claimUntil (now : Int) : Proc → Option Int
  | .publisher cfg .claim => some (now + cfg.leaseDuration)
  | _ => none

/-- The deadlines as notes on the saga: a publisher that claims a batch has it for the duration
of its lease. -/
def deadlines : Overlay State Event Deadlines Empty where
  allows _ _ _ := true
  note s e d p :=
    if runner e = some p then ((s.procs.row p).bind (claimUntil s.store.now)).or (d p) else d p
  own d _ := d

section

variable [Collation]

/-- One step of the saga with the deadlines. -/
abbrev leaseStep : State × Deadlines → Watched Event Empty → Option (State × Deadlines) :=
  overlayStep deadlines step

/-- Nobody has a batch before anything has happened. -/
def leaseStart : State × Deadlines := (start, fun _ => none)

variable {s s' : State} {p k : Nat} {cfg : WorkerConfig} {e : Event} {pc : PublishPc}

omit [Collation] in
/-- A publisher that has a row in hand keeps its deadline. -/
theorem deadline_kept (h : InHand s p cfg k) (e : Event) (d : Deadlines) :
    deadlines.note s e d p = d p := by
  obtain ⟨pc, hq, hk⟩ := h
  have hrow : s.procs.row p = some (.publisher cfg pc) := hq
  simp only [deadlines, hrow, Option.bind_some]
  split
  · cases pc with
    | claim => exact absurd hk (by simp [publishEvents])
    | _ => rfl
  · rfl

omit [Collation] in
theorem deadline_claimed (h : s.At p (.publisher cfg .claim)) (o : SqlOutcome) (locked : List Nat)
    (d : Deadlines) :
    deadlines.note s (.act p (.sql o locked)) d p = some (s.store.now + cfg.leaseDuration) := by
  have hrow : s.procs.row p = some (.publisher cfg .claim) := h
  simp [deadlines, runner, hrow, claimUntil]

/-- The leases on timeout rows. -/
def rowLeasing (s : State) (d : Deadlines) : Leasing Nat GoString where
  now := s.store.now
  owner k := (s.store.db.outbox.row k).bind fun row => ownerOf row.leaseOwner
  expiry k := (s.store.db.outbox.row k).bind (·.leaseUntil)
  closed k := ∃ row, s.store.db.outbox.row k = some row ∧ row.status = .completed ∧
    row.leaseOwner = []
  hand p k T := (∃ cfg, InHand s p cfg k) ∧ d p = some T
  id := idOf .publisher s

/-- In this step the process claims a batch with this row in it. -/
def takesRow (s : State) (e : Event) (p k : Nat) : Prop :=
  ∃ o locked cfg events db', e = .act p (.sql o locked) ∧ s.At p (.publisher cfg .claim) ∧
    (Stmt.claimPending cfg.workerID cfg.leaseDuration cfg.batchSize).exec s.store.now locked
      s.store.db = .ok (.events events, db') ∧ k ∈ events.map Prod.fst

/-- What is known of the publishers. -/
structure Batched (s : State) : Prop where
  staffed : Staffed s
  /-- no row is twice in a batch -/
  batches : ∀ p cfg pc, s.At p (.publisher cfg pc) → ((publishEvents pc).map Prod.fst).Nodup

theorem Batched.step (h : Batched s) (hs : step s e = some s') :
    Batched s' := by
  refine ⟨h.staffed.step hs, fun p cfg pc hq => ?_⟩
  rcases publisher_batch hs hq with hnil | ⟨pc₀, hq₀, hsuf⟩ | ⟨-, hok⟩
  · rw [hnil]
    exact List.nodup_nil
  · exact (h.batches p cfg pc₀ hq₀).sublist (hsuf.sublist.map Prod.fst)
  · exact hok.events.1

omit [Collation] in
theorem batched_start : Batched start where
  staffed := staffed_start
  batches p cfg pc hq := absurd hq (by simp [start, World.At, World.init])

/-- A row that a publisher claims is open, and the publisher's afterwards. -/
theorem claims_of_batched (h : Batched s) (d d' : Deadlines) (hq : s.At p (.publisher cfg pc))
    {row : TimeoutOutbox} {T : Int} (hrow : s.store.db.outbox.row k = some row)
    (hst : row.status = .pending ∨ row.status = .failed)
    (hopen : leaseOpen row.leaseUntil s.store.now = true)
    (hrow' : s'.store.db.outbox.row k =
      some { row with leaseOwner := cfg.workerID, leaseUntil := some T }) :
    Leasing.Claims (rowLeasing s d) (rowLeasing s' d') p k T := by
  refine ⟨?_, fun u hu => ?_, ⟨_, idOf_at hq rfl, ?_⟩, ?_⟩
  · rintro ⟨row₁, hrow₁, hcl, -⟩
    obtain rfl := Option.some.inj (hrow.symm.trans hrow₁)
    exact ne_completed_of_due hst hcl
  · have hu' : row.leaseUntil = some u := by simpa [rowLeasing, hrow] using hu
    rw [hu'] at hopen
    exact of_decide_eq_true hopen
  · simp [rowLeasing, hrow', ownerOf_worker (h.staffed p _ _ hq rfl)]
  · simp [rowLeasing, hrow']

/-- A completed row that nobody owns stays so. -/
theorem freed_step (h : Staffed s) (hs : step s e = some s') {row : TimeoutOutbox}
    (hrow : s.store.db.outbox.row k = some row) (hst : row.status = .completed)
    (hnil : row.leaseOwner = []) :
    ∃ row', s'.store.db.outbox.row k = some row' ∧ row'.status = .completed ∧
      row'.leaseOwner = [] := by
  obtain ⟨row', hrow', hch⟩ := row_step hs hrow
  refine ⟨row', hrow', ?_⟩
  cases hch with
  | kept _ howner _ hst' => exact ⟨hst'.trans hst, howner.trans hnil⟩
  | closed p o locked q he hq hc => exact ⟨rfl, hnil⟩
  | consumed _ hst' howner _ => exact ⟨hst', howner⟩
  | leased p o locked cfg events he hq hexec hmem hdue hopen =>
    exact absurd hst (ne_completed_of_due hdue)
  | marked p o locked cfg pc stmt _ he hq hstmt hk howns howner huntil =>
    rw [hnil, not_owns_nil (h p _ _ hq rfl)] at howns
    exact absurd howns (by simp)

/-- A publisher that has marked a row or given it back, whatever it was told, has let go of it. -/
theorem not_inHand_of_marks (h : Batched s) {o : SqlOutcome} {locked : List Nat}
    (hs : step s (.act p (.sql o locked)) = some s') {stmt : Stmt} (hq : s.At p (.publisher cfg pc))
    (hstmt : (Proc.publisher cfg pc).stmt = some stmt) (hk : k ∈ Stmt.marks stmt)
    (cfg' : WorkerConfig) : ¬InHand s' p cfg' k := by
  rintro ⟨pc', hq', hk'⟩
  have hafter := (sql_step hs hq hstmt).2
  obtain ⟨-, rfl⟩ := Proc.publisher.inj (Option.some.inj (hafter.symm.trans hq'))
  exact not_hand_of_marks hstmt (h.batches p cfg pc hq) hk _ hk'

/-- **A step of the saga, as the leases on timeout rows see it.** -/
theorem rowLeasing_advance (h : Batched s) (hs : step s e = some s') (d : Deadlines) :
    Leasing.Advance (takesRow s e) (rowLeasing s d) (rowLeasing s' (deadlines.note s e d)) := by
  refine ⟨clock_step hs, fun k hk => ?_, fun p k T hh => ?_, fun p k T hh => ?_, fun k => ?_⟩
  · obtain ⟨row, hrow, hst, hnil⟩ := hk
    exact freed_step h.staffed hs hrow hst hnil
  · obtain ⟨⟨cfg, hp⟩, -⟩ := hh
    have hid' : idOf .publisher s' p = some (Collation.weight cfg.workerID) := by
      obtain ⟨pc, hq, -⟩ := hp
      exact idOf_at hq rfl
    refine ⟨_, hid', ?_⟩
    rcases inHand_origin hs hp with ⟨pc₀, hq₀, -⟩ | ⟨-, -, -, -, hq₀, -⟩
    · exact idOf_at hq₀ rfl
    · exact idOf_at hq₀ rfl
  · obtain ⟨⟨cfg, hp⟩, hT⟩ := hh
    rcases inHand_origin hs hp with
      hp₀ | ⟨locked, events, row, he, hq₀, hexec, hk, hrow, hst, hopen, hrow'⟩
    · exact Or.inl ⟨⟨cfg, hp₀⟩, (deadline_kept hp₀ e d).symm.trans hT⟩
    · subst he
      rw [deadline_claimed hq₀, Option.some.injEq] at hT
      subst hT
      exact Or.inr ⟨⟨.ok, locked, cfg, events, _, rfl, hq₀, hexec, hk⟩,
        claims_of_batched h _ _ hq₀ hrow hst hopen hrow'⟩
  · cases hrow' : s'.store.db.outbox.row k with
    | none =>
      left
      cases hrow : s.store.db.outbox.row k with
      | none => simp [rowLeasing, hrow, hrow']
      | some row =>
        obtain ⟨row', hrow₁, -⟩ := row_step hs hrow
        exact absurd (hrow'.symm.trans hrow₁) (by simp)
    | some row' =>
      rcases row_origin hs hrow' with ⟨row, hrow, hch⟩ | ⟨hrow, -, howner, huntil⟩
      · cases hch with
        | kept _ howner huntil hst =>
          exact Or.inl (by simp [rowLeasing, hrow, hrow', howner, huntil])
        | closed p o locked q he hq hc => exact Or.inl (by simp [rowLeasing, hrow, hrow'])
        | consumed _ hst howner huntil =>
          exact Or.inr (Or.inr ⟨by simp [rowLeasing, hrow', howner],
            Or.inl ⟨_, hrow', hst, howner⟩⟩)
        | leased p o locked cfg events he hq hexec hmem hdue hopen =>
          exact Or.inr (Or.inl ⟨p, _, ⟨o, locked, cfg, events, _, he, hq, hexec,
            List.mem_map.mpr ⟨_, hmem, rfl⟩⟩, claims_of_batched h _ _ hq hrow hdue hopen hrow'⟩)
        | marked p o locked cfg pc stmt _ he hq hstmt hk howns howner huntil =>
          subst he
          have hid : IsWorkerID cfg.workerID := h.staffed p _ _ hq rfl
          have hnot : ∀ T,
              ¬(rowLeasing s' (deadlines.note s (.act p (.sql o locked)) d)).hand p k T :=
            fun T ⟨⟨cfg', hh⟩, _⟩ => not_inHand_of_marks h hs hq hstmt hk cfg' hh
          refine Or.inr (Or.inr ⟨by simp [rowLeasing, hrow', howner],
            Or.inr ⟨p, _, idOf_at hq rfl, ?_, hnot⟩⟩)
          simp [rowLeasing, hrow, (owns_iff hid _).mp howns]
      · exact Or.inl (by simp [rowLeasing, hrow, hrow', howner, huntil])

/-! ## 4. Runs -/

/-- What holds of the leases when no two publishers have ids that compare equal. -/
structure WellBatched (t : State × Deadlines) : Prop where
  batched : Batched t.1
  distinct : AllDistinct .publisher t.1
  covered : (rowLeasing t.1 t.2).Covered

theorem WellBatched.step {t t' : State × Deadlines} {e : Watched Event Empty}
    (h : WellBatched t) (hC : Watched.Of (Distinct .publisher) t e)
    (hs : leaseStep t e = some t') : WellBatched t' := by
  obtain ⟨s, d⟩ := t
  obtain ⟨s', d'⟩ := t'
  cases e with
  | own x => exact x.elim
  | sys e =>
    obtain ⟨-, hstep, rfl⟩ := overlayStep_sys hs
    exact ⟨h.batched.step hstep, h.distinct.step hC hstep,
      h.covered.advance (rowLeasing_advance h.batched hstep d) h.distinct⟩

theorem wellBatched_start : WellBatched leaseStart := by
  refine ⟨batched_start, allDistinct_start _, ⟨fun p k T w hh => ?_, fun p p' k T T' hh => ?_⟩⟩
  · exact absurd hh.2 (by simp [leaseStart])
  · exact absurd hh.2 (by simp [leaseStart])

/-- The publisher `p` has the row `k` in its batch, under a lease that has not expired. -/
def HoldsRow (s : State) (d : Deadlines) (p k : Nat) : Prop :=
  ∃ cfg T, InHand s p cfg k ∧ d p = some T ∧ s.store.now ≤ T

/-- The lease on the row `k` is not, or not any more, that of the publisher `p`. -/
def LostRow (s : State) (p k : Nat) : Prop :=
  ∃ cfg pc row, s.At p (.publisher cfg pc) ∧ s.store.db.outbox.row k = some row ∧
    owns cfg.workerID row.leaseOwner = false

/-- A publisher that lost a row, later: the row is still there, still not the publisher's, and
the publisher's place is not taken by another process. -/
structure StaysLostRow (d : Deadlines) (p k : Nat) (s : State) : Prop where
  batched : Batched s
  distinct : AllDistinct .publisher s
  lost : (rowLeasing s d).Lost p k
  row : ∃ row, s.store.db.outbox.row k = some row
  old : p < s.procs.next

theorem LostRow.staysLost (h : LostRow s p k) (hb : Batched s) (hd : AllDistinct .publisher s)
    (d : Deadlines) : StaysLostRow d p k s := by
  obtain ⟨cfg, pc, row, hq, hrow, hno⟩ := h
  refine ⟨hb, hd, fun w hid how => ?_, ⟨row, hrow⟩, Table.lt_next hq⟩
  have hid' : (rowLeasing s d).id p = some (Collation.weight cfg.workerID) := idOf_at hq rfl
  obtain rfl := Option.some.inj (hid'.symm.trans hid)
  have hown : ownerOf row.leaseOwner = some (Collation.weight cfg.workerID) := by
    simpa [rowLeasing, hrow] using how
  rw [(owns_iff (hb.staffed p _ _ hq rfl) _).mpr hown] at hno
  exact absurd hno (by simp)

theorem StaysLostRow.step {d : Deadlines} (h : StaysLostRow d p k s)
    (hC : Distinct .publisher s e ∧ ¬takesRow s e p k) (hs : step s e = some s') :
    StaysLostRow d p k s' := by
  obtain ⟨row, hrow⟩ := h.row
  obtain ⟨row', hrow', -⟩ := row_step hs hrow
  -- who owns a row does not depend on the deadlines
  have hlost : (rowLeasing s' (deadlines.note s e d)).Lost p k :=
    h.lost.advance (rowLeasing_advance h.batched hs d) h.distinct
      (fun w => idOf_old hs h.old) hC.2
  exact ⟨h.batched.step hs, h.distinct.step hC.1 hs, hlost, ⟨row', hrow'⟩,
    Nat.lt_of_lt_of_le h.old (next_mono hs)⟩

/-- A publisher that lost a row does not change it. -/
theorem StaysLostRow.row_kept {d : Deadlines} {ch : Choice} (h : StaysLostRow d p k s)
    (hs : Saga.step s (.act p ch) = some s') (hq : s.At p (.publisher cfg pc))
    (hno : ¬takesRow s (.act p ch) p k) :
    s'.store.db.outbox.row k = s.store.db.outbox.row k := by
  obtain ⟨row, hrow⟩ := h.row
  have hno' : owns cfg.workerID row.leaseOwner = false := by
    rw [Bool.eq_false_iff]
    intro how
    refine h.lost _ (idOf_at hq rfl) ?_
    simp [rowLeasing, hrow, (owns_iff (h.batched.staffed p _ _ hq rfl) _).mp how]
  cases db_step hs with
  | none hdb => rw [hdb]
  | sql p' o locked q stmt r he hq' hstmt hexec =>
    obtain ⟨rfl, rfl⟩ := RpcEvent.act.inj he
    obtain rfl := Option.some.inj (hq.symm.trans hq')
    have hid := publisher_stmt hstmt
    obtain ⟨row', hrow', hch⟩ := (exec_timeouts hexec).keeps k row hrow
    rw [hrow, hrow']
    cases hch with
    | same => rfl
    | leased workerID leaseDuration batchSize events hst hr hmem hdue hopen =>
      subst hst hr
      obtain ⟨cfg', heq, rfl, rfl, rfl⟩ := claim_of_claimPending hstmt
      obtain ⟨rfl, rfl⟩ := Proc.publisher.inj heq
      exact absurd ⟨o, locked, _, events, _, rfl, hq, hexec, List.mem_map.mpr ⟨_, hmem, rfl⟩⟩ hno
    | published workerID hst howns | failed workerID lastError retryDelay hst howns
    | released ids workerID hst hmem howns =>
      subst hst
      obtain rfl := Option.some.inj hid
      exact absurd (hno'.symm.trans howns) (by simp)
    | noted lastError hst => exact absurd hid (by simp [hst, Stmt.publisher])
    | consumed hst => exact absurd hid (by simp [hst, Stmt.publisher])
    | closed hst hne =>
      rcases hst with ⟨transient, final, rfl⟩ | ⟨taskID, workerID, target, rfl⟩
      · exact absurd hid (by simp [Stmt.publisher])
      · exact absurd hid (by simp [Stmt.publisher])

/-- **Outbox leases.**  If no publisher was started under an id that compares equal to that of
another at work, then at most one publisher has a row in its batch under a lease that has not
expired; and a publisher that has lost its lease on a row does not change the row until it claims
it again. -/
theorem outbox_leases {es : List (Watched Event Empty)} {s : State} {d : Deadlines}
    (h : run leaseStep leaseStart es = some (s, d))
    (hC : Meets (Watched.Of (Distinct .publisher)) leaseStep leaseStart es) :
    (∀ p p' k, HoldsRow s d p k → HoldsRow s d p' k → p = p') ∧
    ∀ p k, LostRow s p k → ∀ es' s', run step s es' = some s' →
      Meets (fun u e => Distinct .publisher u e ∧ ¬takesRow u e p k) step s es' →
      ∀ cfg pc ch s'', s'.At p (.publisher cfg pc) → step s' (.act p ch) = some s'' →
        ¬takesRow s' (.act p ch) p k →
        s''.store.db.outbox.row k = s'.store.db.outbox.row k := by
  have hw : WellBatched (s, d) :=
    run_invariant_of (fun _ _ _ hI hc hs => WellBatched.step hI hc hs) wellBatched_start hC h
  refine ⟨fun p p' k hp hp' => ?_, fun p k hlost es' s' hrun hC' cfg pc ch s'' hq hs hno => ?_⟩
  · obtain ⟨cfg, T, hh, hT, hnow⟩ := hp
    obtain ⟨cfg', T', hh', hT', hnow'⟩ := hp'
    exact hw.covered.exclusive p p' k T T' ⟨⟨cfg, hh⟩, hT⟩ ⟨⟨cfg', hh'⟩, hT'⟩ hnow hnow'
  · have hst : StaysLostRow d p k s' :=
      run_invariant_of (fun _ _ _ hI hc hs => StaysLostRow.step hI hc hs)
        (hlost.staysLost hw.batched hw.distinct d) hC' hrun
    exact hst.row_kept hs hq hno

end

/-- A publisher takes the row and publishes it; before it has recorded that, its lease expires,
and a publisher with the id `other` takes the row. -/
def overtaken (other : GoString) : List Event :=
  [.spawn (.publisher ⟨[0x77], 60, 5, 10⟩ .idle), .act 2 .poll, .act 2 (.sql .ok []),
    .act 2 (.publish ⟨true, none⟩), .env (.tick 61),
    .spawn (.publisher ⟨other, 60, 5, 10⟩ .idle), .act 3 .poll, .act 3 (.sql .ok [])]

/-- The id of a publisher that is about to mark a row published. -/
def markingPublisher : Proc → Option GoString
  | .publisher cfg (.markPublished _ _) => some cfg.workerID
  | _ => none

theorem publisher_of_marking {q : Proc} {id : GoString} (h : markingPublisher q = some id) :
    ∃ cfg event rest, q = .publisher cfg (.markPublished event rest) ∧ cfg.workerID = id := by
  unfold markingPublisher at h
  split at h
  · exact ⟨_, _, _, rfl, Option.some.inj h⟩
  · exact absurd h (by simp)

theorem outbox_leases_overtaken :
    letI := asciiCi
    ∃ s d s', run leaseStep leaseStart ((ordering ++ overtaken [0x78]).map .sys) = some (s, d) ∧
      LostRow s 2 1 ∧ step s (.act 2 (.sql .ok [])) = some s' ∧
      s'.store.db.outbox.row 1 = s.store.db.outbox.row 1 := by
  let _ : Collation := asciiCi
  have h : (run leaseStep leaseStart ((ordering ++ overtaken [0x78]).map .sys)).bind (fun t =>
      (t.1.procs.row 2).bind fun q => (markingPublisher q).bind fun id =>
        (t.1.store.db.outbox.row 1).bind fun row => (step t.1 (.act 2 (.sql .ok []))).map fun _ =>
          owns id row.leaseOwner) = some false := by decide
  obtain ⟨⟨s, d⟩, hs, hv⟩ := Option.bind_eq_some_iff.mp h
  obtain ⟨q, hq, hv⟩ := Option.bind_eq_some_iff.mp hv
  obtain ⟨id, hid, hv⟩ := Option.bind_eq_some_iff.mp hv
  obtain ⟨row, hrow, hv⟩ := Option.bind_eq_some_iff.mp hv
  obtain ⟨s', hs', hno⟩ := Option.map_eq_some_iff.mp hv
  obtain ⟨cfg, event, rest, rfl, rfl⟩ := publisher_of_marking hid
  have hlost : LostRow s 2 1 := ⟨cfg, _, row, hq, hrow, hno⟩
  have htakes : ¬takesRow s (.act 2 (.sql .ok [])) 2 1 := by
    rintro ⟨_, _, cfg', _, _, -, hq', -⟩
    exact absurd (Option.some.inj (hq.symm.trans hq')) (by simp)
  have hC : Meets (Watched.Of (Distinct .publisher)) leaseStep leaseStart
      ((ordering ++ overtaken [0x78]).map .sys) := by decide
  obtain ⟨-, hleases⟩ := outbox_leases hs hC
  exact ⟨s, d, s', hs, hlost, hs',
    hleases 2 1 hlost [] s rfl trivial cfg _ (.sql .ok []) s' hq hs' htakes⟩

/-- **Ids that differ only in case are not enough.**  The publisher `w` has lost the row to the
publisher `W`, which has it in its batch under a lease that has not expired, and still marks
it. -/
theorem stale_publisher_writes :
    letI := asciiCi
    ∃ s s' row row', run step start (ordering ++ overtaken [0x57]) = some s ∧
      s.store.db.outbox.row 1 = some row ∧ row.leaseOwner = [0x57] ∧ row.status = .pending ∧
      row.leaseUntil = some 121 ∧ s.store.now = 61 ∧
      step s (.act 2 (.sql .ok [])) = some s' ∧
      s'.store.db.outbox.row 1 = some row' ∧ row'.leaseOwner = [] ∧ row'.status = .published := by
  let _ : Collation := asciiCi
  have h : (run step start (ordering ++ overtaken [0x57])).bind (fun s =>
      (s.store.db.outbox.row 1).bind fun row => (step s (.act 2 (.sql .ok []))).bind fun s' =>
        (s'.store.db.outbox.row 1).map fun row' => decide (row.leaseOwner = [0x57] ∧
          row.status = .pending ∧ row.leaseUntil = some 121 ∧ s.store.now = 61 ∧
          row'.leaseOwner = [] ∧ row'.status = .published)) = some true := by decide
  obtain ⟨s, hs, hv⟩ := Option.bind_eq_some_iff.mp h
  obtain ⟨row, hrow, hv⟩ := Option.bind_eq_some_iff.mp hv
  obtain ⟨s', hs', hv⟩ := Option.bind_eq_some_iff.mp hv
  obtain ⟨row', hrow', hv⟩ := Option.map_eq_some_iff.mp hv
  obtain ⟨how, hst, huntil, hnow, how', hst'⟩ := of_decide_eq_true hv
  exact ⟨s, s', row, row', hs, hrow, how, hst, huntil, hnow, hs', hrow', how', hst'⟩

end OrderSystem.Saga
