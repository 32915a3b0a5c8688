/-
# The leases of the reconciliation workers

Reconciliation workers take batches of tasks under leases (`Kit/Lease.lean`) and work through
them with remote calls in between, so a lease may well expire while its worker is still busy, and
another worker takes the task.  This file is about what the lease columns still guarantee.

* `task_leases` -- a task is leased only while it is open, and a closed task stays as it is.  If
  moreover no two workers at work have ids that compare equal in the column, then at most one
  worker has a task in hand in time, and one that has lost a task can change nothing about it,
  neither the task nor, through `completeTask`, its order or its timeout row.
* `stale_worker_writes` -- different ids are not enough: the column compares them without regard
  to case, and a worker `w` that lost a task to a worker `W` still writes it.
-/
import OrderSystem.Kit.Lease
import OrderSystem.Saga.Workers
import OrderSystem.Saga.Agreement

namespace OrderSystem.Saga

open OrderSystem.Kit
open OrderSystem.OrderSvc

/-- A task that nobody will work on any more. -/
def TaskStatus.isClosed (st : TaskStatus) : Prop := st = .completed ∨ st = .unresolved

/-- A task that can be claimed is not closed. -/
theorem not_isClosed_of_due {st : TaskStatus} (h : st = .pending ∨ st = .failed) :
    ¬TaskStatus.isClosed st := by
  rcases h with rfl | rfl
  · simp [TaskStatus.isClosed]
  · simp [TaskStatus.isClosed]

section

variable [Collation]

/-! ## 1. Rows and batches -/

omit [Collation] in
/-- Only a worker that polls claims tasks. -/
theorem claim_of_stmt {q : Proc} {workerID : GoString} {leaseDuration : Int} {batchSize : Nat}
    (h : q.stmt = some (.claimTasks workerID leaseDuration batchSize)) :
    ∃ cfg, q = .recon cfg .claim ∧ cfg.workerID = workerID ∧
      cfg.leaseDuration = leaseDuration ∧ cfg.batchSize = batchSize := by
  obtain ⟨cfg, pc, rfl, rfl⟩ := worker_of_reconciler h rfl
  cases pc with
  | claim =>
    simp only [Proc.stmt, ReconPc.stmt, Option.some.injEq, Stmt.claimTasks.injEq] at h
    exact ⟨cfg, rfl, rfl, h.2.1, h.2.2⟩
  | _ => exact absurd h (by simp [Proc.stmt, ReconPc.stmt])

/-- In this step the process claims a batch with this task in it. -/
def takesTask (s : State) (e : Event) (p k : Nat) : Prop :=
  ∃ o locked cfg tasks db', e = .act p (.sql o locked) ∧ s.At p (.recon cfg .claim) ∧
    (Stmt.claimTasks cfg.workerID cfg.leaseDuration cfg.batchSize).exec s.store.now locked
      s.store.db = .ok (.tasks tasks, db') ∧ k ∈ tasks.map Prod.fst

/-- What a step does to a task, by what the worker at it does. -/
inductive TaskStep (s : State) (e : Event) (s' : State) (k : Nat) (t : ReconciliationTask) :
    ReconciliationTask → Prop
  | kept : TaskStep s e s' k t t
  | leased (p : Nat) (cfg : ReconciliationWorkerConfig) (hq : s.At p (.recon cfg .claim))
      (htakes : takesTask s e p k) (hst : t.status = .pending ∨ t.status = .failed)
      (hopen : leaseOpen t.leaseUntil s.store.now = true) :
      TaskStep s e s' k t { t with
        attempts := t.attempts + 1, leaseOwner := cfg.workerID
        leaseUntil := some (s.store.now + cfg.leaseDuration) }
  | marked (p : Nat) (o : SqlOutcome) (locked : List Nat) (cfg : ReconciliationWorkerConfig)
      (pc : ReconPc) (status : TaskStatus) (lastError : GoString) (delay : Int) (lost : GoString)
      (he : e = .act p (.sql o locked)) (hq : s.At p (.recon cfg pc))
      (hstmt : (Proc.recon cfg pc).stmt =
        some (.markTask k cfg.workerID status lastError delay lost))
      (howns : owns cfg.workerID t.leaseOwner = true) :
      TaskStep s e s' k t { t with
        status := status, leaseOwner := [], leaseUntil := none, lastError := lastError
        nextAttemptAt := s.store.now + delay }
  | completed (p : Nat) (o : SqlOutcome) (locked : List Nat) (cfg : ReconciliationWorkerConfig)
      (pc : ReconPc) (orderID : Nat) (target : OrderStatus) (closes : Bool) (r : Res)
      (he : e = .act p (.sql o locked)) (hq : s.At p (.recon cfg pc))
      (hstmt : (Proc.recon cfg pc).stmt =
        some (.completeTask k cfg.workerID orderID target closes))
      (hexec : (Stmt.completeTask k cfg.workerID orderID target closes).exec s.store.now locked
        s.store.db = .ok (r, s'.store.db))
      (howns : owns cfg.workerID t.leaseOwner = true) :
      TaskStep s e s' k t (t.completedAt s.store.now)

variable {s s' : State} {e : Event} {k p : Nat} {t : ReconciliationTask}
  {cfg : ReconciliationWorkerConfig} {pc : ReconPc}

/-- **What a step does to a task.** -/
theorem task_step (hs : step s e = some s') (ht : s.store.db.tasks.row k = some t) :
    ∃ t', s'.store.db.tasks.row k = some t' ∧ TaskStep s e s' k t t' := by
  cases db_step hs with
  | none hdb => exact ⟨t, hdb ▸ ht, .kept⟩
  | sql p o locked q stmt r he hq hstmt hexec =>
    obtain ⟨t', ht', hch⟩ := (exec_repairs hexec).keeps k t ht
    refine ⟨t', ht', ?_⟩
    cases hch with
    | same => exact .kept
    | leased workerID leaseDuration batchSize tasks hst hr hmem hdue hopen =>
      subst hst hr
      obtain ⟨cfg, rfl, rfl, rfl, rfl⟩ := claim_of_stmt hstmt
      have htakes : takesTask s e p k :=
        ⟨o, locked, cfg, tasks, _, he, hq, hexec, List.mem_map.mpr ⟨_, hmem, rfl⟩⟩
      exact .leased p cfg hq htakes hdue hopen
    | marked workerID status lastError delay lost hst howns =>
      subst hst
      obtain ⟨cfg, pc, rfl, rfl⟩ := worker_of_reconciler hstmt rfl
      exact .marked p o locked cfg pc status lastError delay lost he hq hstmt howns
    | completed workerID orderID target closes hst howns =>
      subst hst
      obtain ⟨cfg, pc, rfl, rfl⟩ := worker_of_reconciler hstmt rfl
      exact .completed p o locked cfg pc orderID target closes r he hq hstmt hexec howns

/-- A task was there before, or is new and free. -/
theorem task_cases (hs : step s e = some s') {t' : ReconciliationTask}
    (ht' : s'.store.db.tasks.row k = some t') :
    (∃ t, s.store.db.tasks.row k = some t ∧ TaskStep s e s' k t t') ∨
      (s.store.db.tasks.row k = none ∧ t'.leaseOwner = [] ∧ t'.leaseUntil = none) := by
  cases ht : s.store.db.tasks.row k with
  | some t =>
    obtain ⟨t₁, ht₁, hch⟩ := task_step hs ht
    obtain rfl := Option.some.inj (ht₁.symm.trans ht')
    exact Or.inl ⟨t, rfl, hch⟩
  | none =>
    cases db_step hs with
    | none hdb => exact absurd (hdb ▸ ht') (by simp [ht])
    | sql p o locked q stmt r he hq hstmt hexec =>
      obtain ⟨x, old, -, -, -, hnew, -⟩ := (exec_repairs hexec).adds k t' ht' ht
      rw [hnew]
      exact Or.inr ⟨rfl, rfl, rfl⟩

/-- What is known of the tasks and of those who work on them. -/
structure Leased (s : State) : Prop where
  staffed : Staffed s
  /-- a lease is on an open task -/
  owned : ∀ k t, s.store.db.tasks.row k = some t → t.leaseOwner ≠ [] →
    t.status = .pending ∨ t.status = .failed
  /-- no task is twice in a batch -/
  batches : ∀ p cfg pc, s.At p (.recon cfg pc) → ((reconTasks pc).map Prod.fst).Nodup

omit [Collation] in
/-- Nobody owns a closed task. -/
theorem Leased.unowned (h : Leased s) (ht : s.store.db.tasks.row k = some t)
    (hcl : TaskStatus.isClosed t.status) :
    t.leaseOwner = [] := by
  by_contra hne
  exact not_isClosed_of_due (h.owned k t ht hne) hcl

/-- The guard of an update does not let a worker through to a task that nobody owns. -/
theorem Leased.not_owns (h : Leased s) (hq : s.At p (.recon cfg pc)) :
    owns cfg.workerID [] = false :=
  not_owns_nil (h.staffed p _ _ hq rfl)

theorem Leased.step (h : Leased s) (hs : step s e = some s') :
    Leased s' := by
  refine ⟨h.staffed.step hs, fun k t ht hne => ?_, fun p cfg pc hq => ?_⟩
  · rcases task_cases hs ht with ⟨t₀, ht₀, hch⟩ | ⟨-, hnil, -⟩
    · cases hch with
      | kept => exact h.owned k t ht₀ hne
      | leased p cfg hq htakes hst hopen => exact hst
      | marked => exact absurd rfl hne
      | completed => exact absurd rfl hne
    · exact absurd hnil hne
  · rcases recon_batch hs hq with hnil | ⟨pc₀, hq₀, hsuf⟩ | ⟨-, hok⟩
    · rw [hnil]
      exact List.nodup_nil
    · exact (h.batches p cfg pc₀ hq₀).sublist (hsuf.sublist.map Prod.fst)
    · exact hok.tasks.1

omit [Collation] in
theorem leased_start : Leased start where
  staffed := staffed_start
  owned k t ht := absurd ht (by simp [start, World.init, DB.empty])
  batches p cfg pc hq := absurd hq (by simp [start, World.At, World.init])

theorem leased_run {es : List Event} (h : run step start es = some s) : Leased s :=
  run_invariant (fun _ _ _ hI hs => Leased.step hI hs) leased_start h

/-- **A closed task stays as it is closed.** -/
theorem closed_task_step (h : Leased s) (hs : step s e = some s')
    (ht : s.store.db.tasks.row k = some t) (hcl : TaskStatus.isClosed t.status) :
    ∃ t', s'.store.db.tasks.row k = some t' ∧ t'.status = t.status := by
  obtain ⟨t', ht', hch⟩ := task_step hs ht
  refine ⟨t', ht', ?_⟩
  have hnil := h.unowned ht hcl
  cases hch with
  | kept => rfl
  | leased p cfg hq htakes hst hopen => exact absurd hcl (not_isClosed_of_due hst)
  | marked p o locked cfg pc status lastError delay lost he hq hstmt howns
  | completed p o locked cfg pc orderID target closes r he hq hstmt hexec howns =>
    rw [hnil, h.not_owns hq] at howns
    exact absurd howns (by simp)

/-! ## 2. The tasks as leased rows -/

/-- The leases on tasks. -/
def taskLeasing (s : State) : Leasing Nat GoString where
  now := s.store.now
  owner k := (s.store.db.tasks.row k).bind fun t => ownerOf t.leaseOwner
  expiry k := (s.store.db.tasks.row k).bind (·.leaseUntil)
  closed k := ∃ t, s.store.db.tasks.row k = some t ∧ TaskStatus.isClosed t.status
  hand p k T := ∃ cfg pc t, s.At p (.recon cfg pc) ∧ (k, t) ∈ reconTasks pc ∧
    t.leaseUntil = some T
  id := idOf .reconciler s

theorem taskLeasing_id (h : s.At p (.recon cfg pc)) :
    (taskLeasing s).id p = some (Collation.weight cfg.workerID) :=
  idOf_at h rfl

/-- A task that a worker takes is open, and the worker's afterwards. -/
theorem claims_of_leased (h : Leased s) (hq : s.At p (.recon cfg pc)) {T : Int}
    (ht : s.store.db.tasks.row k = some t) (hst : t.status = .pending ∨ t.status = .failed)
    (hopen : leaseOpen t.leaseUntil s.store.now = true)
    (ht' : s'.store.db.tasks.row k = some { t with
      attempts := t.attempts + 1, leaseOwner := cfg.workerID, leaseUntil := some T }) :
    Leasing.Claims (taskLeasing s) (taskLeasing s') p k T := by
  refine ⟨?_, fun u hu => ?_, ⟨_, taskLeasing_id hq, ?_⟩, ?_⟩
  · rintro ⟨t₁, ht₁, hcl⟩
    obtain rfl := Option.some.inj (ht.symm.trans ht₁)
    exact not_isClosed_of_due hst hcl
  · have hu' : t.leaseUntil = some u := by simpa [taskLeasing, ht] using hu
    rw [hu'] at hopen
    exact of_decide_eq_true hopen
  · simp [taskLeasing, ht', ownerOf_worker (h.staffed p _ _ hq rfl)]
  · simp [taskLeasing, ht']

/-- A worker that has marked a task, whatever it was told, has let go of it. -/
theorem not_hand_of_marked (h : Leased s) {o : SqlOutcome} {locked : List Nat}
    (hs : step s (.act p (.sql o locked)) = some s') {q : Proc} (hq : s.At p q) {id : GoString}
    {status : TaskStatus} {lastError : GoString} {delay : Int} {lost : GoString}
    (hstmt : q.stmt = some (.markTask k id status lastError delay lost)) (T : Int) :
    ¬(taskLeasing s').hand p k T := by
  rintro ⟨cfg', pc', t, hq', hmem, -⟩
  obtain ⟨cfg, pc, rfl, -⟩ := worker_of_reconciler hstmt rfl
  have hafter := (sql_step hs hq hstmt).2
  have heq := Option.some.inj (hafter.symm.trans hq')
  obtain ⟨-, rfl⟩ := Proc.recon.inj heq
  have hnodup := h.batches p cfg pc hq
  cases pc with
  | markFailed task cause rest | markUnresolved task reason rest =>
    simp only [Proc.stmt, ReconPc.stmt, Option.some.injEq, Stmt.markTask.injEq] at hstmt
    obtain ⟨rfl, -⟩ := hstmt
    rw [ReconPc.after, reconTasks_next] at hmem
    exact (List.nodup_cons.mp hnodup).1 (List.mem_map.mpr ⟨_, hmem, rfl⟩)
  | _ => exact absurd hstmt (by simp [Proc.stmt, ReconPc.stmt])

/-- A task in the hands of a worker was there before, or the worker has just claimed it. -/
theorem taskLeasing_hand (h : Leased s) (hs : step s e = some s') {T : Int}
    (hh : (taskLeasing s').hand p k T) :
    (taskLeasing s).hand p k T ∨
      takesTask s e p k ∧ Leasing.Claims (taskLeasing s) (taskLeasing s') p k T := by
  obtain ⟨cfg, pc, t, hq, hmem, hT⟩ := hh
  rcases recon_tasks hs hq hmem with ⟨pc₀, hq₀, hmem₀⟩ | ⟨tasks, hmem', hq₀, hok⟩
  · exact Or.inl ⟨cfg, pc₀, t, hq₀, hmem₀, hT⟩
  · obtain ⟨locked, he, hexec⟩ := hok.event
    obtain ⟨tasks', htasks, hrows, -, hdb⟩ := claimTasks_ok hexec
    obtain rfl := Res.tasks.inj htasks
    obtain ⟨t₀, ht₀, hst, hopen, rfl⟩ := hrows _ hmem'
    obtain rfl := Option.some.inj hT
    have hk : k ∈ tasks.map Prod.fst := List.mem_map.mpr ⟨_, hmem', rfl⟩
    refine Or.inr ⟨⟨.ok, locked, cfg, tasks, _, he, hq₀, hexec, hk⟩,
      claims_of_leased h hq₀ ht₀ hst hopen ?_⟩
    rw [hdb, Table.mapRows_row, ht₀, Option.map_some, if_pos hk]

/-- The lease of a task stays, or a worker claims it, or its owner gives it up. -/
theorem taskLeasing_row (h : Leased s) (hs : step s e = some s') {t' : ReconciliationTask}
    (ht : s.store.db.tasks.row k = some t) (ht' : s'.store.db.tasks.row k = some t')
    (hch : TaskStep s e s' k t t') :
    ((taskLeasing s').owner k = (taskLeasing s).owner k ∧
        (taskLeasing s').expiry k = (taskLeasing s).expiry k) ∨
      (∃ p T, takesTask s e p k ∧ Leasing.Claims (taskLeasing s) (taskLeasing s') p k T) ∨
      ((taskLeasing s').owner k = none ∧ ((taskLeasing s').closed k ∨
        ∃ p w, (taskLeasing s).id p = some w ∧ (taskLeasing s).owner k = some w ∧
          ∀ T, ¬(taskLeasing s').hand p k T)) := by
  cases hch with
  | kept => exact Or.inl (by simp [taskLeasing, ht, ht'])
  | leased p cfg hq htakes hst hopen =>
    exact Or.inr (Or.inl ⟨p, _, htakes, claims_of_leased h hq ht hst hopen ht'⟩)
  | marked p o locked cfg pc status lastError delay lost he hq hstmt howns =>
    subst he
    have hid : IsWorkerID cfg.workerID := h.staffed p _ _ hq rfl
    refine Or.inr (Or.inr ⟨by simp [taskLeasing, ht'], Or.inr ⟨p, _, taskLeasing_id hq, ?_,
      not_hand_of_marked h hs hq hstmt⟩⟩)
    simp [taskLeasing, ht, (owns_iff hid _).mp howns]
  | completed p o locked cfg pc orderID target closes r he hq hstmt hexec howns =>
    exact Or.inr (Or.inr ⟨by simp [taskLeasing, ht', ReconciliationTask.completedAt],
      Or.inl ⟨_, ht', Or.inl rfl⟩⟩)

/-- **A step of the saga, as the leases see it.** -/
theorem taskLeasing_advance (h : Leased s) (hs : step s e = some s') :
    Leasing.Advance (takesTask s e) (taskLeasing s) (taskLeasing s') := by
  refine ⟨clock_step hs, fun k hk => ?_, fun p k T hh => ?_,
    fun p k T hh => taskLeasing_hand h hs hh, fun k => ?_⟩
  · obtain ⟨t, ht, hcl⟩ := hk
    obtain ⟨t', ht', hst⟩ := closed_task_step h hs ht hcl
    exact ⟨t', ht', hst ▸ hcl⟩
  · obtain ⟨cfg, pc, t, hq, hmem, -⟩ := hh
    refine ⟨_, taskLeasing_id hq, ?_⟩
    rcases recon_tasks hs hq hmem with ⟨pc₀, hq₀, -⟩ | ⟨tasks, -, hq₀, -⟩
    · exact taskLeasing_id hq₀
    · exact taskLeasing_id hq₀
  · cases ht' : s'.store.db.tasks.row k with
    | none =>
      cases ht : s.store.db.tasks.row k with
      | none => exact Or.inl (by simp [taskLeasing, ht, ht'])
      | some t =>
        obtain ⟨t₁, ht₁, -⟩ := task_kept hs ht
        exact absurd ht₁ (by simp [ht'])
    | some t' =>
      rcases task_cases hs ht' with ⟨t, ht, hch⟩ | ⟨ht, hnil, hnone⟩
      · exact taskLeasing_row h hs ht ht' hch
      · exact Or.inl (by simp [taskLeasing, ht, ht', hnil, hnone])

/-! ## 3. Runs -/

/-- What holds of the leases when no two workers have ids that compare equal. -/
structure WellLeased (s : State) : Prop where
  leased : Leased s
  distinct : AllDistinct .reconciler s
  covered : (taskLeasing s).Covered

theorem WellLeased.step {s s' : State} {e : Event} (h : WellLeased s)
    (hC : Distinct .reconciler s e) (hs : step s e = some s') : WellLeased s' :=
  ⟨h.leased.step hs, h.distinct.step hC hs,
    h.covered.advance (taskLeasing_advance h.leased hs) h.distinct⟩

theorem wellLeased_start : WellLeased start := by
  refine ⟨leased_start, allDistinct_start _, ⟨fun p k T w hh => ?_, fun p p' k T T' hh => ?_⟩⟩
  · obtain ⟨cfg, pc, t, hq, -⟩ := hh
    exact absurd hq (by simp [start, World.At, World.init])
  · obtain ⟨cfg, pc, t, hq, -⟩ := hh
    exact absurd hq (by simp [start, World.At, World.init])

theorem wellLeased_run {es : List Event} (h : run step start es = some s)
    (hC : Meets (Distinct .reconciler) step start es) : WellLeased s :=
  run_invariant_of (fun _ _ _ hI hc hs => WellLeased.step hI hc hs) wellLeased_start hC h

/-- The worker `p` has the task `k` in hand, under a lease that has not expired. -/
def HoldsTask (s : State) (p k : Nat) : Prop :=
  ∃ cfg pc t T, s.At p (.recon cfg pc) ∧ (k, t) ∈ reconTasks pc ∧ t.leaseUntil = some T ∧
    s.store.now ≤ T

/-- The lease on the task `k` is not, or not any more, that of the worker `p`. -/
def LostTask (s : State) (p k : Nat) : Prop :=
  ∃ cfg pc t, s.At p (.recon cfg pc) ∧ s.store.db.tasks.row k = some t ∧
    owns cfg.workerID t.leaseOwner = false

/-- A worker that lost a task, later: the task is still there, still not the worker's, and the
worker's place is not taken by another process. -/
structure StaysLost (p k : Nat) (s : State) : Prop where
  well : WellLeased s
  lost : (taskLeasing s).Lost p k
  task : ∃ t, s.store.db.tasks.row k = some t
  old : p < s.procs.next

theorem LostTask.staysLost (h : LostTask s p k) (hw : WellLeased s) :
    StaysLost p k s := by
  obtain ⟨cfg, pc, t, hq, ht, hno⟩ := h
  refine ⟨hw, fun w hid how => ?_, ⟨t, ht⟩, Table.lt_next hq⟩
  obtain rfl := Option.some.inj ((taskLeasing_id hq).symm.trans hid)
  have hown : ownerOf t.leaseOwner = some (Collation.weight cfg.workerID) := by
    simpa [taskLeasing, ht] using how
  rw [(owns_iff (hw.leased.staffed p _ _ hq rfl) _).mpr hown] at hno
  exact absurd hno (by simp)

theorem StaysLost.step (h : StaysLost p k s) (hC : Distinct .reconciler s e ∧ ¬takesTask s e p k)
    (hs : step s e = some s') :
    StaysLost p k s' := by
  have hadv := taskLeasing_advance h.well.leased hs
  refine ⟨h.well.step hC.1 hs,
    h.lost.advance hadv h.well.distinct (fun w => idOf_old hs h.old) hC.2, ?_,
    Nat.lt_of_lt_of_le h.old (next_mono hs)⟩
  obtain ⟨t, ht⟩ := h.task
  obtain ⟨t', ht', -⟩ := task_kept hs ht
  exact ⟨t', ht'⟩

/-- The guard of an update stops a worker that lost the task. -/
theorem StaysLost.not_owns (h : StaysLost p k s) (hq : s.At p (.recon cfg pc))
    (ht : s.store.db.tasks.row k = some t) :
    owns cfg.workerID t.leaseOwner = false := by
  rw [Bool.eq_false_iff]
  intro how
  refine h.lost _ (taskLeasing_id hq) ?_
  simp [taskLeasing, ht, (owns_iff (h.well.leased.staffed p _ _ hq rfl) _).mp how]

/-- A worker that lost a task does not change it... -/
theorem StaysLost.task_kept {ch : Choice} (h : StaysLost p k s)
    (hs : Saga.step s (.act p ch) = some s') (hno : ¬takesTask s (.act p ch) p k) :
    s'.store.db.tasks.row k = s.store.db.tasks.row k := by
  obtain ⟨t, ht⟩ := h.task
  obtain ⟨t', ht', hch⟩ := task_step hs ht
  rw [ht, ht']
  cases hch with
  | kept => rfl
  | leased p' cfg hq htakes hst hopen =>
    have ⟨_, _, _, _, _, he, _⟩ := htakes
    obtain ⟨rfl, -⟩ := RpcEvent.act.inj he
    exact absurd htakes hno
  | marked p' o locked cfg pc status lastError delay lost he hq hstmt howns
  | completed p' o locked cfg pc orderID target closes r he hq hstmt hexec howns =>
    obtain ⟨rfl, -⟩ := RpcEvent.act.inj he
    exact absurd howns (by rw [h.not_owns hq ht]; simp)

/-- ...and its `completeTask` changes nothing at all. -/
theorem StaysLost.nothing_completed {ch : Choice} (h : StaysLost p k s)
    (hs : Saga.step s (.act p ch) = some s') {target : OrderStatus} {closes : Bool}
    {rest : List ClaimedTask} (hq : s.At p (.recon cfg (.complete (k, t) target closes rest))) :
    s'.store.db = s.store.db := by
  cases db_step hs with
  | none hdb => exact hdb
  | sql p' o locked q stmt r he hq' hstmt hexec =>
    obtain ⟨rfl, rfl⟩ := RpcEvent.act.inj he
    obtain rfl := Option.some.inj (hq.symm.trans hq')
    obtain rfl := Option.some.inj hstmt
    obtain ⟨-, db₁, task, -, -, -, htask, howns, -⟩ := completeTask_ok hexec
    exact absurd howns (by rw [h.not_owns hq htask]; simp)

/-- **Reconciliation leases.**  In every reachable state a task that has an owner is `pending` or
`failed`, and a task that is `completed` or `unresolved` stays so.  If no worker was started
under an id that compares equal to that of another at work, then at most one worker has a task in
hand under a lease that has not expired; and a worker that has lost its lease on a task does not
change the task, nor anything through `completeTask`, until it claims the task again. -/
theorem task_leases {es : List Event} {s : State} (h : run step start es = some s) :
    (∀ k t, s.store.db.tasks.row k = some t → t.leaseOwner ≠ [] →
      t.status = .pending ∨ t.status = .failed) ∧
    (∀ es' s' k t, run step s es' = some s' → s.store.db.tasks.row k = some t →
      (t.status = .completed ∨ t.status = .unresolved) →
      ∃ t', s'.store.db.tasks.row k = some t' ∧ t'.status = t.status) ∧
    (Meets (Distinct .reconciler) step start es →
      (∀ p p' k, HoldsTask s p k → HoldsTask s p' k → p = p') ∧
      ∀ p k, LostTask s p k → ∀ es' s', run step s es' = some s' →
        Meets (fun u e => Distinct .reconciler u e ∧ ¬takesTask u e p k) step s es' →
        ∀ ch s'', step s' (.act p ch) = some s'' → ¬takesTask s' (.act p ch) p k →
          s''.store.db.tasks.row k = s'.store.db.tasks.row k ∧
          ∀ cfg t target closes rest, s'.At p (.recon cfg (.complete (k, t) target closes rest)) →
            s''.store.db = s'.store.db) := by
  have hl := leased_run h
  refine ⟨hl.owned, fun es' s' k t hrun ht hst => ?_, fun hC => ?_⟩
  · refine (run_invariant (I := fun u => Leased u ∧
      ∃ t', u.store.db.tasks.row k = some t' ∧ t'.status = t.status) ?_ ⟨hl, t, ht, rfl⟩ hrun).2
    rintro u e u' ⟨hu, t₁, ht₁, hst₁⟩ hs
    obtain ⟨t₂, ht₂, hst₂⟩ := closed_task_step hu hs ht₁ (hst₁ ▸ hst)
    exact ⟨hu.step hs, t₂, ht₂, hst₂.trans hst₁⟩
  · have hw := wellLeased_run h hC
    refine ⟨fun p p' k hp hp' => ?_, fun p k hlost es' s' hrun hC' ch s'' hs hno => ?_⟩
    · obtain ⟨cfg, pc, t, T, hq, hmem, hT, hnow⟩ := hp
      obtain ⟨cfg', pc', t', T', hq', hmem', hT', hnow'⟩ := hp'
      exact hw.covered.exclusive p p' k T T' ⟨cfg, pc, t, hq, hmem, hT⟩
        ⟨cfg', pc', t', hq', hmem', hT'⟩ hnow hnow'
    · have hst : StaysLost p k s' :=
        run_invariant_of (fun _ _ _ hI hc hs => StaysLost.step hI hc hs) (hlost.staysLost hw)
          hC' hrun
      exact ⟨hst.task_kept hs hno, fun cfg t target closes rest hq => hst.nothing_completed hs hq⟩

end

/-- `Pay` confirms the stock, but its finalising transaction is rejected: the order needs
reconciliation. -/
def payReconciled : List Event :=
  [.spawn (.settle ⟨.pay, false, 1, 1, none⟩ .load), .act 2 (.sql .ok []), .act 2 (.sql .ok []),
    .send 2, .serve 1 ⟨.none, [], []⟩, .receive 2 1, .act 2 (.sql (.failed []) []),
    .act 2 (.sql .ok [])]

/-- A worker takes the task and gets no answer from the inventory service in time; when its lease
has expired, a worker with the id `other` takes the task. -/
def takenOver (other : GoString) : List Event :=
  [.spawn (.recon ⟨[0x77], 5, 50, 60, 10⟩ .idle), .act 3 .poll, .act 3 (.sql .ok []),
    .act 3 (.sql .ok []), .giveUp 3 (.error (.call [])), .env (.tick 61),
    .spawn (.recon ⟨other, 5, 50, 60, 10⟩ .idle), .act 4 .poll, .act 4 (.sql .ok [])]

/-- The id of a worker that is about to record a failure. -/
def failingWorker : Proc → Option GoString
  | .recon cfg (.markFailed _ _ _) => some cfg.workerID
  | _ => none

theorem recon_of_failingWorker {q : Proc} {id : GoString} (h : failingWorker q = some id) :
    ∃ cfg task cause rest, q = .recon cfg (.markFailed task cause rest) ∧ cfg.workerID = id := by
  unfold failingWorker at h
  split at h
  · exact ⟨_, _, _, _, rfl, Option.some.inj h⟩
  · exact absurd h (by simp)

theorem task_leases_takenOver :
    letI := asciiCi
    ∃ s s' : State, run step start (ordering ++ payReconciled ++ takenOver [0x78]) = some s ∧
      LostTask s 3 1 ∧ step s (.act 3 (.sql .ok [])) = some s' ∧
      s'.store.db.tasks.row 1 = s.store.db.tasks.row 1 := by
  let _ : Collation := asciiCi
  have h : (run step start (ordering ++ payReconciled ++ takenOver [0x78])).bind (fun s =>
      (s.procs.row 3).bind fun q => (failingWorker q).bind fun id =>
        (s.store.db.tasks.row 1).bind fun t => (step s (.act 3 (.sql .ok []))).map fun _ =>
          owns id t.leaseOwner) = some false := by decide
  obtain ⟨s, hs, hv⟩ := Option.bind_eq_some_iff.mp h
  obtain ⟨q, hq, hv⟩ := Option.bind_eq_some_iff.mp hv
  obtain ⟨id, hid, hv⟩ := Option.bind_eq_some_iff.mp hv
  obtain ⟨t, ht, hv⟩ := Option.bind_eq_some_iff.mp hv
  obtain ⟨s', hs', hno⟩ := Option.map_eq_some_iff.mp hv
  obtain ⟨cfg, task, cause, rest, rfl, rfl⟩ := recon_of_failingWorker hid
  have hlost : LostTask s 3 1 := ⟨cfg, _, t, hq, ht, hno⟩
  have htakes : ¬takesTask s (.act 3 (.sql .ok [])) 3 1 := by
    rintro ⟨_, _, cfg', _, _, -, hq', -⟩
    exact absurd (Option.some.inj (hq.symm.trans hq')) (by simp)
  have hC : Meets (Distinct .reconciler) step start
      (ordering ++ payReconciled ++ takenOver [0x78]) := by decide
  obtain ⟨-, -, hleases⟩ := task_leases hs
  exact ⟨s, s', hs, hlost, hs',
    ((hleases hC).2 3 1 hlost [] s rfl trivial (.sql .ok []) s' hs' htakes).1⟩

/-- **Ids that differ only in case are not enough.**  The worker `w` has lost the task to the
worker `W`, which has it in hand under a lease that has not expired, and still changes it. -/
theorem stale_worker_writes :
    letI := asciiCi
    ∃ s s' t t', run step start (ordering ++ payReconciled ++ takenOver [0x57]) = some s ∧
      s.store.db.tasks.row 1 = some t ∧ t.leaseOwner = [0x57] ∧ t.status = .pending ∧
      t.leaseUntil = some 121 ∧ s.store.now = 61 ∧
      step s (.act 3 (.sql .ok [])) = some s' ∧
      s'.store.db.tasks.row 1 = some t' ∧ t'.leaseOwner = [] ∧ t'.status = .failed := by
  let _ : Collation := asciiCi
  have h : (run step start (ordering ++ payReconciled ++ takenOver [0x57])).bind (fun s =>
      (s.store.db.tasks.row 1).bind fun t => (step s (.act 3 (.sql .ok []))).bind fun s' =>
        (s'.store.db.tasks.row 1).map fun t' => decide (t.leaseOwner = [0x57] ∧
          t.status = .pending ∧ t.leaseUntil = some 121 ∧ s.store.now = 61 ∧
          t'.leaseOwner = [] ∧ t'.status = .failed)) = some true := by decide
  obtain ⟨s, hs, hv⟩ := Option.bind_eq_some_iff.mp h
  obtain ⟨t, ht, hv⟩ := Option.bind_eq_some_iff.mp hv
  obtain ⟨s', hs', hv⟩ := Option.bind_eq_some_iff.mp hv
  obtain ⟨t', ht', hv⟩ := Option.map_eq_some_iff.mp hv
  obtain ⟨how, hst, huntil, hnow, how', hst'⟩ := of_decide_eq_true hv
  exact ⟨s, s', t, t', hs, ht, how, hst, huntil, hnow, hs', ht', how', hst'⟩

end OrderSystem.Saga
