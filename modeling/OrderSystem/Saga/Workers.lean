/-
# Who the workers are

A worker is its id: the lease columns of a row hold the id of the worker that claimed it, and the
guards of the updates compare it by the collation of the column.  So what matters about the ids
is that none compares equal to the empty text, which stands for "nobody", and for some results
that no two workers at work have ids that compare equal.

The first holds in every run, because the programs trim their id and make one up if nothing is
left (`Staffed.step`).  The second is up to whoever starts the workers (`Distinct`), and it is
more than that the ids are different texts.
-/
import OrderSystem.Saga.Programs

namespace OrderSystem.Saga

open OrderSystem.Kit
open OrderSystem.OrderSvc

/-! ## 1. Ids -/

/-- The two kinds of worker that take leases. -/
inductive Role where
  | reconciler
  | publisher
  deriving DecidableEq

/-- The role and the id of a worker. -/
def worker : Proc → Option (Role × GoString)
  | .recon cfg _ => some (.reconciler, cfg.workerID)
  | .publisher cfg _ => some (.publisher, cfg.workerID)
  | _ => none

theorem worker_after (q : Proc) (r : Except Err Res) : worker (q.after r) = worker q := by
  cases q <;> rfl

theorem worker_resume (q : Proc) (a : Reply) : worker (q.resume a) = worker q := by
  cases q <;> rfl

theorem worker_quiet {st st' : Local} {ch : Choice} {q q' : Proc} (h : Quiet st ch q st' q') :
    worker q' = worker q := by
  cases h <;> rfl

theorem worker_mayStart {st : Local} {procs : Table Proc} {q : Proc} {x : Role × GoString}
    (h : mayStart st procs q = true) (hx : worker q = some x) : IsWorkerID x.2 := by
  cases q with
  | recon cfg pc | publisher cfg pc =>
    obtain rfl := Option.some.inj hx
    cases pc with
    | idle => exact of_decide_eq_true h
    | _ => exact absurd h (by simp [mayStart])
  | _ => exact absurd hx (by simp [worker])

section

variable [Collation]

variable {s s' : State} {e : Event} {p : Nat} {q : Proc} {id : GoString} {role : Role}

/-- A worker keeps its role and its id. -/
theorem worker_origin (hs : step s e = some s') (h : s'.At p q) :
    (∃ q₀, s.At p q₀ ∧ worker q₀ = worker q) ∨
      (e = .spawn q ∧ p = s.procs.next ∧ mayStart s.store s.procs q = true) := by
  cases arrives hs h with
  | kept q hq => exact Or.inl ⟨q, hq, rfl⟩
  | spawned q he hp hadm => exact Or.inr ⟨he, hp, hadm⟩
  | committed q stmt r hq hstmt hok => exact Or.inl ⟨q, hq, (worker_after q _).symm⟩
  | failed q stmt err hq hstmt herr => exact Or.inl ⟨q, hq, (worker_after q _).symm⟩
  | quiet q q' ch he hq hquiet hstill => exact Or.inl ⟨q, hq, (worker_quiet hquiet).symm⟩
  | answered q op r hq hop ha hstill => exact Or.inl ⟨q, hq, (worker_resume q _).symm⟩
  | refused q op err hq hop herr hstill => exact Or.inl ⟨q, hq, (worker_resume q _).symm⟩

/-- Every worker has an id that is not blank. -/
def Staffed (s : State) : Prop := ∀ p q x, s.At p q → worker q = some x → IsWorkerID x.2

theorem Staffed.step (h : Staffed s) (hs : step s e = some s') :
    Staffed s' := by
  intro p q x hq hx
  rcases worker_origin hs hq with ⟨q₀, hq₀, hw⟩ | ⟨-, -, hadm⟩
  · exact h p q₀ x hq₀ (hw.trans hx)
  · exact worker_mayStart hadm hx

omit [Collation] in
theorem staffed_start : Staffed start := fun p q x hq =>
  absurd hq (by simp [start, World.At, World.init])

/-! ## 2. The owner of a row -/

/-- The worker a lease column names, as the database tells workers apart. -/
def ownerOf (leaseOwner : GoString) : Option GoString :=
  if leaseOwner = [] then none else some (Collation.weight leaseOwner)

@[simp] theorem ownerOf_nil : ownerOf [] = none := rfl

theorem ownerOf_worker (h : IsWorkerID id) :
    ownerOf id = some (Collation.weight id) := by
  rw [ownerOf, if_neg h.1]

/-- The guard `lease_owner = ?` lets exactly the owner through. -/
theorem owns_iff (h : IsWorkerID id) (leaseOwner : GoString) :
    owns id leaseOwner = true ↔ ownerOf leaseOwner = some (Collation.weight id) := by
  unfold owns ownerOf
  rw [decide_eq_true_iff]
  split
  · rename_i hnil
    subst hnil
    constructor
    · intro hw
      -- only a blank text compares equal to the empty one
      have hblank := Collation.blank id hw.symm
      rw [h.2] at hblank
      exact absurd hblank h.1
    · intro hw
      exact absurd hw (by simp)
  · rw [Option.some.injEq]

/-- No worker owns a row whose lease is cleared. -/
theorem not_owns_nil (h : IsWorkerID id) : owns id [] = false := by
  rw [Bool.eq_false_iff]
  intro how
  exact absurd ((owns_iff h []).mp how) (by simp)

/-- The statements a reconciliation worker runs on the tasks, with its id. -/
def Stmt.reconciler : Stmt → Option GoString
  | .claimTasks workerID _ _ => some workerID
  | .completeTask _ workerID _ _ _ => some workerID
  | .markTask _ workerID _ _ _ _ => some workerID
  | _ => none

/-- The statements a publisher runs on the timeout rows, with its id. -/
def Stmt.publisher : Stmt → Option GoString
  | .claimPending workerID _ _ => some workerID
  | .releaseClaimedLeases _ workerID => some workerID
  | .markOutboxPublished _ workerID => some workerID
  | .markOutboxFailure _ workerID _ _ => some workerID
  | _ => none

omit [Collation] in
theorem worker_of_reconciler {stmt : Stmt} (h : q.stmt = some stmt)
    (hid : Stmt.reconciler stmt = some id) : ∃ cfg pc, q = .recon cfg pc ∧ cfg.workerID = id := by
  have hq : q.stmt.bind Stmt.reconciler = some id := by
    rw [h]
    exact hid
  cases q with
  | create c pc =>
    cases pc <;> exact absurd hq (by simp [Proc.stmt, CreatePc.stmt, Stmt.reconciler])
  | settle c pc =>
    cases pc <;> exact absurd hq (by simp [Proc.stmt, SettlePc.stmt, Stmt.reconciler])
  | finish c pc =>
    cases pc <;> exact absurd hq (by simp [Proc.stmt, FinishPc.stmt, Stmt.reconciler])
  | recon cfg pc =>
    refine ⟨cfg, pc, rfl, ?_⟩
    cases pc with
    | idle => exact absurd hq (by simp [Proc.stmt, ReconPc.stmt])
    | load task rest => exact absurd hq (by simp [Proc.stmt, ReconPc.stmt, Stmt.reconciler])
    | call task o rest => exact absurd hq (by simp [Proc.stmt, ReconPc.stmt])
    | _ => exact Option.some.inj hq
  | publisher cfg pc =>
    cases pc <;> exact absurd hq (by simp [Proc.stmt, PublishPc.stmt, Stmt.reconciler])
  | delivery d pc =>
    cases pc <;> exact absurd hq (by simp [Proc.stmt, DeliveryPc.stmt, Stmt.reconciler])

omit [Collation] in
theorem worker_of_publisher {stmt : Stmt} (h : q.stmt = some stmt)
    (hid : Stmt.publisher stmt = some id) :
    ∃ cfg pc, q = .publisher cfg pc ∧ cfg.workerID = id := by
  have hq : q.stmt.bind Stmt.publisher = some id := by
    rw [h]
    exact hid
  cases q with
  | create c pc =>
    cases pc <;> exact absurd hq (by simp [Proc.stmt, CreatePc.stmt, Stmt.publisher])
  | settle c pc =>
    cases pc <;> exact absurd hq (by simp [Proc.stmt, SettlePc.stmt, Stmt.publisher])
  | finish c pc =>
    cases pc <;> exact absurd hq (by simp [Proc.stmt, FinishPc.stmt, Stmt.publisher])
  | recon cfg pc =>
    cases pc <;> exact absurd hq (by simp [Proc.stmt, ReconPc.stmt, Stmt.publisher])
  | publisher cfg pc =>
    refine ⟨cfg, pc, rfl, ?_⟩
    cases pc with
    | idle => exact absurd hq (by simp [Proc.stmt, PublishPc.stmt])
    | publish event rest => exact absurd hq (by simp [Proc.stmt, PublishPc.stmt])
    | _ => exact Option.some.inj hq
  | delivery d pc =>
    cases pc <;> exact absurd hq (by simp [Proc.stmt, DeliveryPc.stmt, Stmt.publisher])

/-! ## 3. Distinct ids -/

/-- The id under which a worker of this role is at work, as the database compares it. -/
def identity (role : Role) (q : Proc) : Option GoString :=
  match worker q with
  | some (r, id) => if r = role then some (Collation.weight id) else none
  | none => none

theorem identity_congr {q' : Proc} (role : Role) (h : worker q = worker q') :
    identity role q = identity role q' := by
  rw [identity, identity, h]

/-- The same, by process. -/
def idOf (role : Role) (s : State) (p : Nat) : Option GoString :=
  (s.procs.row p).bind (identity role)

theorem idOf_at (h : s.At p q) (hw : worker q = some (role, id)) :
    idOf role s p = some (Collation.weight id) := by
  have hrow : s.procs.row p = some q := h
  simp [idOf, hrow, identity, hw]

/-- A process has the id it had before a step, or the step started it. -/
theorem idOf_origin (hs : step s e = some s') {w : GoString} (hw : idOf role s' p = some w) :
    idOf role s p = some w ∨
      ∃ q, e = .spawn q ∧ identity role q = some w ∧ p = s.procs.next := by
  obtain ⟨q, hq, hid⟩ := Option.bind_eq_some_iff.mp hw
  rcases worker_origin hs hq with ⟨q₀, hq₀, h₀⟩ | ⟨he, hp, -⟩
  · exact Or.inl (Option.bind_eq_some_iff.mpr ⟨q₀, hq₀, (identity_congr _ h₀).trans hid⟩)
  · exact Or.inr ⟨q, he, hid, hp⟩

theorem idOf_old (hs : step s e = some s') (hold : p < s.procs.next) {w : GoString}
    (hw : idOf role s' p = some w) :
    idOf role s p = some w := by
  rcases idOf_origin hs hw with hw₀ | ⟨q, -, -, hp⟩
  · exact hw₀
  · exact absurd hp (Nat.ne_of_lt hold)

/-- The process a step starts. -/
def started : Event → Option Proc
  | .spawn q => some q
  | _ => none

/-- A worker of this role is started under an id that no such worker at work has. -/
def Distinct (role : Role) (s : State) (e : Event) : Prop :=
  ∀ q ∈ started e, ∀ w ∈ identity role q,
    (s.procs.search fun q' => decide (identity role q' = some w)).isNone = true

instance (role : Role) (s : State) (e : Event) : Decidable (Distinct role s e) :=
  inferInstanceAs (Decidable (∀ q ∈ started e, ∀ w ∈ identity role q, _))

/-- No two workers of this role have ids that compare equal. -/
def AllDistinct (role : Role) (s : State) : Prop :=
  ∀ p p' w, idOf role s p = some w → idOf role s p' = some w → p = p'

theorem AllDistinct.step {role : Role} {s s' : State} {e : Event} (h : AllDistinct role s)
    (hC : Distinct role s e) (hs : step s e = some s') : AllDistinct role s' := by
  -- a worker that was there before does not have the id of one that has just been started
  have hnew : ∀ p q₁ w, idOf role s p = some w → e = .spawn q₁ → identity role q₁ ≠ some w := by
    intro p q₁ w hw he hw₁
    subst he
    obtain ⟨q, hq, hid⟩ := Option.bind_eq_some_iff.mp hw
    have hnone := Option.isNone_iff_eq_none.mp (hC q₁ rfl w hw₁)
    have hfalse := Table.search_eq_none hnone hq
    rw [hid, decide_eq_false_iff_not] at hfalse
    exact hfalse rfl
  intro p p' w hw hw'
  rcases idOf_origin hs hw with hold | ⟨q, he, hid, hp⟩
  · rcases idOf_origin hs hw' with hold' | ⟨q', he', hid', -⟩
    · exact h p p' w hold hold'
    · exact absurd hid' (hnew p q' w hold he')
  · rcases idOf_origin hs hw' with hold' | ⟨-, -, -, hp'⟩
    · exact absurd hid (hnew p' q w hold' he)
    · exact hp.trans hp'.symm

theorem allDistinct_start (role : Role) : AllDistinct role start := by
  intro p p' w hw
  exact absurd hw (by simp [idOf, start, World.init])

end

end OrderSystem.Saga
