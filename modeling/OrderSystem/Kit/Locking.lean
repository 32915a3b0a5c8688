/-
# Strict two-phase locking

The statements of any number of transaction programs (`Kit/Txn.lean`) are interleaved.  A
statement that reads or writes a row takes that row's lock and the transaction keeps it until
it commits or aborts; a statement whose row is held by somebody else is not enabled.  A
transaction's writes are its own until it commits, and it may abort before any statement.

A program may look at the database once before it takes its first lock, and what it saw is
never refreshed: `prog tag snapshot` is the program a request `tag` becomes when the last
committed state was `snapshot`.  This is the non-locking read a transaction starts with.

The result is that nothing of the interleaving is visible in the committed state:
`commit_exec` says that a commit moves the store exactly as the whole program run alone from
the committed store does, so a property of the committed store is proved by looking at serial
executions only (`locking_invariant`).  The snapshot is the one thing that may be stale, and
the rule says what is known about it: it is related to the store of the commit by any
relation that commits only extend.
-/
import OrderSystem.Kit.Run
import OrderSystem.Kit.Txn

namespace OrderSystem.Kit

variable {K : Type} {V : K → Type} {L E α τ : Type}

/-! ## 1. The system -/

/-- A transaction in progress. -/
structure Active (V : K → Type) (L E α τ : Type) where
  /-- the request it serves -/
  tag : τ
  /-- the committed store when it started -/
  snapshot : Store V L
  /-- the statements it has not run yet -/
  rest : Txn V L E α
  /-- the rows it has written and not committed -/
  writes : (k : K) → Option (V k)
  /-- the log entries it has inserted and not committed -/
  appended : List L

/-- The store as a transaction sees it: its own writes over the committed rows. -/
def Active.view (a : Active V L E α τ) (s : Store V L) : Store V L :=
  ⟨fun k => (a.writes k).getD (s.row k), s.log ++ a.appended⟩

/-- The database with its lock table and the transactions that are running.  `history` is the
requests that have committed, in commit order, each with what it returned. -/
structure Sys (V : K → Type) (L E α τ : Type) where
  store : Store V L
  owner : K → Option Nat
  txn : Nat → Option (Active V L E α τ)
  history : List (τ × α)

/-- What can happen: a transaction starts, runs its next statement, commits or aborts. -/
inductive LockEvent (τ : Type) where
  | start (t : Nat) (tag : τ)
  | stmt (t : Nat)
  | commit (t : Nat)
  | abort (t : Nat)

/-- No transaction is running. -/
def Sys.init (s : Store V L) : Sys V L E α τ := ⟨s, fun _ => none, fun _ => none, []⟩

/-- Replace the state of the transaction `t`. -/
def Sys.put (s : Sys V L E α τ) (t : Nat) (a : Option (Active V L E α τ)) : Sys V L E α τ :=
  { s with txn := Function.update s.txn t a }

@[simp] theorem Sys.put_txn_self (s : Sys V L E α τ) (t : Nat) (a : Option (Active V L E α τ)) :
    (s.put t a).txn t = a := by
  simp only [Sys.put, Function.update_self]

variable {t t' : Nat} {prog : τ → Store V L → Txn V L E α} {s s' : Sys V L E α τ} {e : LockEvent τ}
  {k : K} {a : Active V L E α τ} {es : List (LockEvent τ)} {I : List (τ × α) → Store V L → Prop}
  {S₀ : Store V L}

theorem Sys.put_txn_of_ne (s : Sys V L E α τ) (a : Option (Active V L E α τ)) (h : t' ≠ t) :
    (s.put t a).txn t' = s.txn t' := by
  simp only [Sys.put, Function.update_of_ne h]

/-- The lock table after `t` has let go of everything. -/
def Sys.released (s : Sys V L E α τ) (t : Nat) : K → Option Nat := fun k =>
  if s.owner k = some t then none else s.owner k

/-- `t` may touch the row `k`: nobody else holds it. -/
def Sys.free (s : Sys V L E α τ) (t : Nat) (k : K) : Bool :=
  s.owner k == none || s.owner k == some t

variable [DecidableEq K]

/-- The state after `t` has run a statement on the row `k` and is left with `a`. -/
def Sys.hold (s : Sys V L E α τ) (t : Nat) (k : K) (a : Active V L E α τ) : Sys V L E α τ :=
  { s.put t (some a) with owner := Function.update s.owner k (some t) }

/-- One event. -/
def lockStep (prog : τ → Store V L → Txn V L E α) (s : Sys V L E α τ) :
    LockEvent τ → Option (Sys V L E α τ)
  | .start t tag =>
    match s.txn t with
    | some _ => none
    | none => some (s.put t (some ⟨tag, s.store, prog tag s.store, fun _ => none, []⟩))
  | .stmt t =>
    match s.txn t with
    | none => none
    | some a =>
      match a.rest with
      | .done _ => none
      | .fail _ => none
      | .lock k next =>
        if s.free t k then
          some (s.hold t k { a with rest := next ((a.writes k).getD (s.store.row k)) })
        else none
      | .write k v next =>
        if s.free t k then
          some (s.hold t k { a with rest := next, writes := Function.update a.writes k (some v) })
        else none
      | .append l next =>
        some (s.put t (some { a with rest := next, appended := a.appended ++ [l] }))
  | .commit t =>
    match s.txn t with
    | none => none
    | some a =>
      match a.rest with
      | .done r => some { s.put t none with
          store := a.view s.store, owner := s.released t, history := s.history ++ [(a.tag, r)] }
      | _ => none
  | .abort t =>
    match s.txn t with
    | none => none
    | some _ => some { s.put t none with owner := s.released t }

/-! ## 2. What a step can do -/

/-- The four kinds of step that leave the committed store alone, and the commit. -/
inductive LockMove (prog : τ → Store V L → Txn V L E α) (s : Sys V L E α τ) :
    Sys V L E α τ → Prop
  | start (t : Nat) (tag : τ) (h : s.txn t = none) :
      LockMove prog s (s.put t (some ⟨tag, s.store, prog tag s.store, fun _ => none, []⟩))
  | lock (t : Nat) (a : Active V L E α τ) (k : K) (next : V k → Txn V L E α)
      (h : s.txn t = some a) (hr : a.rest = .lock k next) (hf : s.free t k = true) :
      LockMove prog s (s.hold t k { a with rest := next ((a.writes k).getD (s.store.row k)) })
  | write (t : Nat) (a : Active V L E α τ) (k : K) (v : V k) (next : Txn V L E α)
      (h : s.txn t = some a) (hr : a.rest = .write k v next) (hf : s.free t k = true) :
      LockMove prog s
        (s.hold t k { a with rest := next, writes := Function.update a.writes k (some v) })
  | append (t : Nat) (a : Active V L E α τ) (l : L) (next : Txn V L E α)
      (h : s.txn t = some a) (hr : a.rest = .append l next) :
      LockMove prog s (s.put t (some { a with rest := next, appended := a.appended ++ [l] }))
  | commit (t : Nat) (a : Active V L E α τ) (r : α) (h : s.txn t = some a)
      (hr : a.rest = .done r) :
      LockMove prog s { s.put t none with
        store := a.view s.store, owner := s.released t, history := s.history ++ [(a.tag, r)] }
  | abort (t : Nat) (a : Active V L E α τ) (h : s.txn t = some a) :
      LockMove prog s { s.put t none with owner := s.released t }

/-- Every enabled event is one of these. -/
theorem lockMove_of_step (h : lockStep prog s e = some s') : LockMove prog s s' := by
  cases e with
  | start t tag =>
    simp only [lockStep] at h
    split at h
    · exact absurd h (by simp)
    · rename_i ht
      simp only [Option.some.injEq] at h
      exact h ▸ .start t tag ht
  | stmt t =>
    simp only [lockStep] at h
    split at h
    · exact absurd h (by simp)
    · rename_i a ha
      split at h
      · exact absurd h (by simp)
      · exact absurd h (by simp)
      · rename_i k next hr
        split at h
        · rename_i hf
          simp only [Option.some.injEq] at h
          exact h ▸ .lock t a k next ha hr hf
        · exact absurd h (by simp)
      · rename_i k v next hr
        split at h
        · rename_i hf
          simp only [Option.some.injEq] at h
          exact h ▸ .write t a k v next ha hr hf
        · exact absurd h (by simp)
      · rename_i l next hr
        simp only [Option.some.injEq] at h
        exact h ▸ .append t a l next ha hr
  | commit t =>
    simp only [lockStep] at h
    split at h
    · exact absurd h (by simp)
    · rename_i a ha
      split at h
      · rename_i r hr
        simp only [Option.some.injEq] at h
        exact h ▸ .commit t a r ha hr
      · exact absurd h (by simp)
  | abort t =>
    simp only [lockStep] at h
    split at h
    · exact absurd h (by simp)
    · rename_i a ha
      simp only [Option.some.injEq] at h
      exact h ▸ .abort t a ha

omit [DecidableEq K] in
theorem Sys.free_iff (s : Sys V L E α τ) (t : Nat) (k : K) :
    s.free t k = true ↔ s.owner k = none ∨ s.owner k = some t := by
  simp [Sys.free]

/-- A row that another transaction holds is still held after `t` has taken a row. -/
theorem Sys.owner_of_hold {k' : K} (hf : s.free t k = true) (hne : t' ≠ t)
    (h : s.owner k' = some t') : (s.hold t k a).owner k' = some t' := by
  have hk : k' ≠ k := by
    rintro rfl
    rcases (s.free_iff t k').mp hf with h0 | h0
    · rw [h0] at h; exact absurd h (by simp)
    · rw [h0, Option.some.injEq] at h; exact hne h.symm
  simp only [Sys.hold, Function.update_of_ne hk, h]

omit [DecidableEq K] in
theorem Sys.owner_of_released (hne : t' ≠ t) (h : s.owner k = some t') :
    s.released t k = some t' := by
  simp only [Sys.released, h, Option.some.injEq, if_neg hne]

/-! ## 3. A running transaction tracks its serial execution -/

/-- **The invariant.**  `tracks`: whatever the rows outside a transaction's locks are, running
its whole program from there is running what is left of it from its own view of that store.
`owned`: a transaction has written only rows it holds. -/
structure Tracked (prog : τ → Store V L → Txn V L E α) (s : Sys V L E α τ) : Prop where
  tracks : ∀ t a, s.txn t = some a → ∀ S : Store V L,
    (∀ k, s.owner k = some t → S.row k = s.store.row k) →
    (prog a.tag a.snapshot).exec S = a.rest.exec (a.view S)
  owned : ∀ t a k, s.txn t = some a → a.writes k ≠ none → s.owner k = some t

theorem tracked_init (prog : τ → Store V L → Txn V L E α) (S : Store V L) :
    Tracked prog (Sys.init S) where
  tracks t a h := by simp [Sys.init] at h
  owned t a k h := by simp [Sys.init] at h

/-- Seeing one's own write is writing into what one sees. -/
theorem Active.view_write (a : Active V L E α τ) (rest : Txn V L E α) (k : K) (v : V k)
    (S : Store V L) :
    Active.view { a with rest := rest, writes := Function.update a.writes k (some v) } S
      = (a.view S).set k v := by
  simp only [Active.view, Store.set, Store.mk.injEq, and_true]
  funext k'
  by_cases hk : k' = k
  · subst hk
    simp
  · simp [Function.update_of_ne hk]

/-- The parts of the invariant that concern the transactions other than `t`, when `t` takes a
row and the store does not change. -/
theorem Tracked.hold (hT : Tracked prog s) {a' : Active V L E α τ} (hf : s.free t k = true)
    (htr : ∀ S : Store V L,
      (∀ k', (s.hold t k a').owner k' = some t → S.row k' = s.store.row k') →
      (prog a'.tag a'.snapshot).exec S = a'.rest.exec (a'.view S))
    (how : ∀ k', a'.writes k' ≠ none → (s.hold t k a').owner k' = some t) :
    Tracked prog (s.hold t k a') where
  tracks t' b hb S hS := by
    by_cases ht : t' = t
    · subst ht
      simp only [Sys.hold, Sys.put_txn_self, Option.some.injEq] at hb
      subst hb
      exact htr S hS
    · simp only [Sys.hold, Sys.put_txn_of_ne _ _ ht] at hb
      exact hT.tracks t' b hb S fun k' hk' => hS k' (Sys.owner_of_hold hf ht hk')
  owned t' b k' hb hw := by
    by_cases ht : t' = t
    · subst ht
      simp only [Sys.hold, Sys.put_txn_self, Option.some.injEq] at hb
      subst hb
      exact how k' hw
    · simp only [Sys.hold, Sys.put_txn_of_ne _ _ ht] at hb
      exact Sys.owner_of_hold hf ht (hT.owned t' b k' hb hw)

/-- The same when `t` goes on without a row. -/
theorem Tracked.put (hT : Tracked prog s) {a' : Active V L E α τ}
    (htr : ∀ S : Store V L, (∀ k, s.owner k = some t → S.row k = s.store.row k) →
      (prog a'.tag a'.snapshot).exec S = a'.rest.exec (a'.view S))
    (how : ∀ k, a'.writes k ≠ none → s.owner k = some t) :
    Tracked prog (s.put t (some a')) where
  tracks t' b hb S hS := by
    by_cases ht : t' = t
    · subst ht
      simp only [Sys.put_txn_self, Option.some.injEq] at hb
      subst hb
      exact htr S hS
    · simp only [Sys.put_txn_of_ne _ _ ht] at hb
      exact hT.tracks t' b hb S hS
  owned t' b k hb hw := by
    by_cases ht : t' = t
    · subst ht
      simp only [Sys.put_txn_self, Option.some.injEq] at hb
      subst hb
      exact how k hw
    · simp only [Sys.put_txn_of_ne _ _ ht] at hb
      exact hT.owned t' b k hb hw

/-- `t` ends, and the rows that others hold are what they were. -/
theorem Tracked.release (hT : Tracked prog s) {S' : Store V L} {history : List (τ × α)}
    (hrow : ∀ t' k, t' ≠ t → s.owner k = some t' → S'.row k = s.store.row k) :
    Tracked prog { s.put t none with
      store := S', owner := s.released t, history := history } where
  tracks t' b hb S hS := by
    by_cases ht : t' = t
    · subst ht; simp at hb
    · simp only [Sys.put_txn_of_ne _ _ ht] at hb
      exact hT.tracks t' b hb S fun k hk =>
        (hS k (Sys.owner_of_released ht hk)).trans (hrow t' k ht hk)
  owned t' b k hb hw := by
    by_cases ht : t' = t
    · subst ht; simp at hb
    · simp only [Sys.put_txn_of_ne _ _ ht] at hb
      exact Sys.owner_of_released ht (hT.owned t' b k hb hw)

/-- Rows held before are held after taking one more. -/
theorem Sys.hold_owner_self {k' : K} (h : s.owner k' = some t) :
    (s.hold t k a).owner k' = some t := by
  by_cases hk : k' = k
  · subst hk; simp [Sys.hold]
  · simp only [Sys.hold, Function.update_of_ne hk, h]

/-- **The invariant is kept by every step.** -/
theorem tracked_step (hT : Tracked prog s) (h : lockStep prog s e = some s') :
    Tracked prog s' := by
  cases lockMove_of_step h with
  | start t tag ht =>
    exact hT.put (fun S _ => by simp [Active.view]) fun k hw => absurd rfl hw
  | lock t a k next ha hr hf =>
    refine hT.hold hf (fun S hS => ?_) fun k' hw => Sys.hold_owner_self (hT.owned t a k' ha hw)
    have hrun := hT.tracks t a ha S fun k' hk' => hS k' (Sys.hold_owner_self hk')
    have hk : S.row k = s.store.row k := hS k (by simp [Sys.hold])
    rw [hrun, hr]
    simp only [Txn.exec, Active.view, hk]
  | write t a k v next ha hr hf =>
    refine hT.hold hf (fun S hS => ?_) fun k' hw => ?_
    · have hrun := hT.tracks t a ha S fun k' hk' => hS k' (Sys.hold_owner_self hk')
      rw [hrun, hr, Active.view_write]
      rfl
    · by_cases hk : k' = k
      · subst hk; simp [Sys.hold]
      · simp only [Function.update_of_ne hk] at hw
        exact Sys.hold_owner_self (hT.owned t a k' ha hw)
  | append t a l next ha hr =>
    refine hT.put (fun S hS => ?_) fun k hw => hT.owned t a k ha hw
    rw [hT.tracks t a ha S hS, hr]
    simp only [Txn.exec, Active.view, Store.push, List.append_assoc]
  | commit t a r ha hr =>
    refine hT.release fun t' k htt hk => ?_
    -- `t` has not written `k`: it would hold the row that `t'` holds
    have hnone : a.writes k = none := by
      by_contra hw
      have := hT.owned t a k ha hw
      rw [hk, Option.some.injEq] at this
      exact htt this
    simp [Active.view, hnone]
  | abort t a ha => exact hT.release fun _ _ _ _ => rfl

/-- A transaction about to fail is one that fails when it is run alone. -/
theorem Tracked.exec_fail (hT : Tracked prog s) {e : E} (ha : s.txn t = some a)
    (hr : a.rest = .fail e) : (prog a.tag a.snapshot).exec s.store = .error e := by
  rw [hT.tracks t a ha s.store fun _ _ => rfl, hr]
  rfl

/-- **A commit is a serial execution.**  The store changes only at a commit, and there as the
committing program run alone from the committed store. -/
theorem commit_exec (hT : Tracked prog s) (h : lockStep prog s e = some s') :
    (s'.store = s.store ∧ s'.history = s.history) ∨
      ∃ t a r, s.txn t = some a ∧ s'.history = s.history ++ [(a.tag, r)] ∧
        (prog a.tag a.snapshot).exec s.store = .ok (r, s'.store) := by
  cases lockMove_of_step h with
  | start t tag ht => exact Or.inl ⟨rfl, rfl⟩
  | lock t a k next ha hr hf => exact Or.inl ⟨rfl, rfl⟩
  | write t a k v next ha hr hf => exact Or.inl ⟨rfl, rfl⟩
  | append t a l next ha hr => exact Or.inl ⟨rfl, rfl⟩
  | abort t a ha => exact Or.inl ⟨rfl, rfl⟩
  | commit t a r ha hr =>
    refine Or.inr ⟨t, a, r, ha, rfl, ?_⟩
    rw [hT.tracks t a ha s.store fun _ _ => rfl, hr]
    rfl

/-- The same for a given transaction. -/
theorem exec_of_commit (hT : Tracked prog s) (ha : s.txn t = some a)
    (h : lockStep prog s (.commit t) = some s') :
    ∃ r, (prog a.tag a.snapshot).exec s.store = .ok (r, s'.store) := by
  simp only [lockStep, ha] at h
  split at h
  · rename_i r hr
    simp only [Option.some.injEq] at h
    refine ⟨r, ?_⟩
    rw [hT.tracks t a ha s.store fun _ _ => rfl, hr, ← h]
    rfl
  · exact absurd h (by simp)

/-- **Nothing but a commit changes the committed store.** -/
theorem store_of_step (h : lockStep prog s e = some s') (he : ∀ t, e ≠ .commit t) :
    s'.store = s.store ∧ s'.history = s.history := by
  cases e with
  | start t tag | abort t =>
    simp only [lockStep] at h
    split at h
    · exact absurd h (by simp)
    · exact Option.some.inj h ▸ ⟨rfl, rfl⟩
  | stmt t =>
    simp only [lockStep] at h
    split at h
    · exact absurd h (by simp)
    · split at h
      · exact absurd h (by simp)
      · exact absurd h (by simp)
      · split at h
        · exact Option.some.inj h ▸ ⟨rfl, rfl⟩
        · exact absurd h (by simp)
      · split at h
        · exact Option.some.inj h ▸ ⟨rfl, rfl⟩
        · exact absurd h (by simp)
      · exact Option.some.inj h ▸ ⟨rfl, rfl⟩
  | commit t => exact absurd rfl (he t)

/-- A transaction that has failed has no step left but to roll back. -/
theorem step_of_fail {e : E} (ha : s.txn t = some a) (hr : a.rest = .fail e) :
    lockStep prog s (.stmt t) = none ∧ lockStep prog s (.commit t) = none := by
  simp only [lockStep, ha, hr, and_self]

/-! ## 4. The rule for committed states -/

/-- A transaction that is running after a step has started at this step or was running before
it, for the same request and with the same snapshot. -/
theorem active_of_step (h : lockStep prog s e = some s') {b : Active V L E α τ}
    (hb : s'.txn t = some b) :
    (s.txn t = none ∧ b.snapshot = s.store ∧ s'.store = s.store) ∨
      ∃ a, s.txn t = some a ∧ a.tag = b.tag ∧ a.snapshot = b.snapshot := by
  cases lockMove_of_step h with
  | start u tag hu =>
    by_cases htu : t = u
    · subst htu
      simp only [Sys.put_txn_self, Option.some.injEq] at hb
      exact Or.inl ⟨hu, hb ▸ rfl, rfl⟩
    · exact Or.inr ⟨b, by rw [← hb, Sys.put_txn_of_ne _ _ htu], rfl, rfl⟩
  | lock u a k next ha hr hf | write u a k v next ha hr hf =>
    by_cases htu : t = u
    · subst htu
      simp only [Sys.hold, Sys.put_txn_self, Option.some.injEq] at hb
      exact Or.inr ⟨a, ha, hb ▸ rfl, hb ▸ rfl⟩
    · exact Or.inr ⟨b, by rw [← hb, Sys.hold, Sys.put_txn_of_ne _ _ htu], rfl, rfl⟩
  | append u a l next ha hr =>
    by_cases htu : t = u
    · subst htu
      simp only [Sys.put_txn_self, Option.some.injEq] at hb
      exact Or.inr ⟨a, ha, hb ▸ rfl, hb ▸ rfl⟩
    · exact Or.inr ⟨b, by rw [← hb, Sys.put_txn_of_ne _ _ htu], rfl, rfl⟩
  | commit u a r ha hr | abort u a ha =>
    by_cases htu : t = u
    · subst htu; simp at hb
    · exact Or.inr ⟨b, by rw [← hb, Sys.put_txn_of_ne _ _ htu], rfl, rfl⟩

/-- A transaction that runs after a step and did not run before it has started at it. -/
theorem start_of_step (h : lockStep prog s e = some s') {b : Active V L E α τ} (h0 : s.txn t = none)
    (hb : s'.txn t = some b) : e = .start t b.tag := by
  -- a step of another transaction leaves `t` as it is
  have hother : ∀ u, (∃ a, s.txn u = some a) → t ≠ u := by
    rintro u ⟨a, ha⟩ rfl
    exact absurd (h0.symm.trans ha) (by simp)
  have hnone : ∀ {u : Nat} {x : Option (Active V L E α τ)}, t ≠ u → (s.put u x).txn t ≠ some b := by
    intro u x htu hx
    rw [Sys.put_txn_of_ne _ _ htu, h0] at hx
    exact absurd hx (by simp)
  cases e with
  | start u tag =>
    simp only [lockStep] at h
    split at h
    · exact absurd h (by simp)
    · obtain rfl := Option.some.inj h
      by_cases htu : t = u
      · subst htu
        simp only [Sys.put_txn_self, Option.some.injEq] at hb
        rw [← hb]
      · exact absurd hb (hnone htu)
  | stmt u =>
    simp only [lockStep] at h
    split at h
    · exact absurd h (by simp)
    · rename_i a ha
      have htu := hother u ⟨a, ha⟩
      split at h
      · exact absurd h (by simp)
      · exact absurd h (by simp)
      · split at h
        · obtain rfl := Option.some.inj h
          exact absurd hb (hnone htu)
        · exact absurd h (by simp)
      · split at h
        · obtain rfl := Option.some.inj h
          exact absurd hb (hnone htu)
        · exact absurd h (by simp)
      · obtain rfl := Option.some.inj h
        exact absurd hb (hnone htu)
  | commit u =>
    simp only [lockStep] at h
    split at h
    · exact absurd h (by simp)
    · rename_i a ha
      split at h
      · obtain rfl := Option.some.inj h
        exact absurd hb (hnone (hother u ⟨a, ha⟩))
      · exact absurd h (by simp)
  | abort u =>
    simp only [lockStep] at h
    split at h
    · exact absurd h (by simp)
    · rename_i a ha
      obtain rfl := Option.some.inj h
      exact absurd hb (hnone (hother u ⟨a, ha⟩))

/-- A transaction that was running goes on, with its request and its snapshot, unless this step
is its end. -/
theorem active_kept (h : lockStep prog s e = some s') (ha : s.txn t = some a)
    (hcommit : e ≠ .commit t) (habort : e ≠ .abort t) :
    ∃ b, s'.txn t = some b ∧ b.tag = a.tag ∧ b.snapshot = a.snapshot := by
  have hother : ∀ {u : Nat} {x : Option (Active V L E α τ)}, t ≠ u →
      ∃ b, (s.put u x).txn t = some b ∧ b.tag = a.tag ∧ b.snapshot = a.snapshot :=
    fun htu => ⟨a, by rw [Sys.put_txn_of_ne _ _ htu, ha], rfl, rfl⟩
  cases e with
  | start u tag =>
    simp only [lockStep] at h
    split at h
    · exact absurd h (by simp)
    · rename_i hu
      obtain rfl := Option.some.inj h
      refine hother ?_
      rintro rfl
      exact absurd (hu.symm.trans ha) (by simp)
  | stmt u =>
    -- the statement of `t` itself leaves the request and the snapshot as they are
    have hself : ∀ {c b : Active V L E α τ}, s.txn u = some c → b.tag = c.tag →
        b.snapshot = c.snapshot →
        ∃ b', (s.put u (some b)).txn t = some b' ∧ b'.tag = a.tag ∧ b'.snapshot = a.snapshot := by
      intro c b hc htag hsnap
      by_cases htu : t = u
      · subst htu
        obtain rfl := Option.some.inj (hc.symm.trans ha)
        exact ⟨b, Sys.put_txn_self _ _ _, htag, hsnap⟩
      · exact hother htu
    simp only [lockStep] at h
    split at h
    · exact absurd h (by simp)
    · rename_i c hc
      split at h
      · exact absurd h (by simp)
      · exact absurd h (by simp)
      · split at h
        · obtain rfl := Option.some.inj h
          exact hself hc rfl rfl
        · exact absurd h (by simp)
      · split at h
        · obtain rfl := Option.some.inj h
          exact hself hc rfl rfl
        · exact absurd h (by simp)
      · obtain rfl := Option.some.inj h
        exact hself hc rfl rfl
  | commit u =>
    have htu : t ≠ u := by
      rintro rfl
      exact hcommit rfl
    simp only [lockStep] at h
    split at h
    · exact absurd h (by simp)
    · split at h
      · obtain rfl := Option.some.inj h
        exact hother htu
      · exact absurd h (by simp)
  | abort u =>
    have htu : t ≠ u := by
      rintro rfl
      exact habort rfl
    simp only [lockStep] at h
    split at h
    · exact absurd h (by simp)
    · obtain rfl := Option.some.inj h
      exact hother htu

/-- It goes on through every run in which it does not end. -/
theorem active_kept_run (h : run (lockStep prog) s es = some s') (ha : s.txn t = some a)
    (hcommit : .commit t ∉ es) (habort : .abort t ∉ es) :
    ∃ b, s'.txn t = some b ∧ b.tag = a.tag ∧ b.snapshot = a.snapshot := by
  induction es generalizing s a with
  | nil =>
    obtain rfl := Option.some.inj h
    exact ⟨a, ha, rfl, rfl⟩
  | cons e es ih =>
    obtain ⟨s₁, he, hes⟩ := run_cons.mp h
    rw [List.mem_cons, not_or] at hcommit habort
    obtain ⟨b, hb, htag, hsnap⟩ := active_kept he ha (Ne.symm hcommit.1) (Ne.symm habort.1)
    obtain ⟨c, hc, htag', hsnap'⟩ := ih hes hb hcommit.2 habort.2
    exact ⟨c, hc, htag'.trans htag, hsnap'.trans hsnap⟩

/-- **From its start to its commit.**  What a transaction commits is what its program does to the
store of the commit, with the store of the start as its snapshot. -/
theorem exec_of_start {s₁ s₂ : Sys V L E α τ} (hT : Tracked prog s) {tag : τ}
    (hrun : run (lockStep prog) s (.start t tag :: es) = some s₁) (hcommit : .commit t ∉ es)
    (habort : .abort t ∉ es) (h : lockStep prog s₁ (.commit t) = some s₂) :
    ∃ r, s₂.history = s₁.history ++ [(tag, r)] ∧
      (prog tag s.store).exec s₁.store = .ok (r, s₂.store) := by
  have hT₁ : Tracked prog s₁ :=
    run_invariant (I := Tracked prog) (fun _ _ _ hT h => tracked_step hT h) hT hrun
  obtain ⟨s₀, hstart, hes⟩ := run_cons.mp hrun
  simp only [lockStep] at hstart
  split at hstart
  · exact absurd hstart (by simp)
  · obtain rfl := Option.some.inj hstart
    obtain ⟨b, hb, htag, hsnap⟩ :=
      active_kept_run hes (Sys.put_txn_self s t _) hcommit habort
    simp only [lockStep, hb] at h
    split at h
    · rename_i r hr
      obtain rfl := Option.some.inj h
      refine ⟨r, by rw [htag], ?_⟩
      have hexec := hT₁.tracks t b hb s₁.store fun _ _ => rfl
      rw [htag, hsnap, hr] at hexec
      exact hexec
    · exact absurd h (by simp)

/-- Every request that runs or has committed has the property. -/
structure Tagged (P : τ → Prop) (s : Sys V L E α τ) : Prop where
  running : ∀ t a, s.txn t = some a → P a.tag
  committed : ∀ e ∈ s.history, P e.1

/-- A property of the requests that start is one of those that run or have committed. -/
theorem Tagged.step {P : τ → Prop} (hT : Tracked prog s) (h : Tagged P s)
    (hstart : ∀ t tag, e = .start t tag → P tag) (hs : lockStep prog s e = some s') :
    Tagged P s' where
  running t b hb := by
    rcases active_of_step hs hb with ⟨h0, -, -⟩ | ⟨a, ha, htag, -⟩
    · exact hstart t b.tag (start_of_step hs h0 hb)
    · rw [← htag]
      exact h.running t a ha
  committed x hx := by
    rcases commit_exec hT hs with ⟨-, hhist⟩ | ⟨t, a, r, ha, hhist, -⟩
    · rw [hhist] at hx
      exact h.committed x hx
    · rw [hhist] at hx
      rcases List.mem_append.mp hx with hx | hx
      · exact h.committed x hx
      · rw [List.mem_singleton.mp hx]
        exact h.running t a ha

/-- What the rule carries along a run: the locking invariant, the property of the committed
store, and what relates each running transaction's snapshot to the committed store. -/
structure Carried (prog : τ → Store V L → Txn V L E α) (I : List (τ × α) → Store V L → Prop)
    (R : Store V L → Store V L → Prop) (s : Sys V L E α τ) : Prop where
  tracked : Tracked prog s
  holds : I s.history s.store
  since : ∀ t a, s.txn t = some a → R a.snapshot s.store

/-- **The rule.**  `I` is a property of the committed requests and the committed store, `R` a
reflexive relation between stores that commits extend.  To know both in every interleaving it
is enough to look at one program at a time, run alone from a committed store, with a snapshot
that `R` relates to that store. -/
theorem locking_invariant {R : Store V L → Store V L → Prop} (h0 : I [] S₀) (hrefl : ∀ S, R S S)
    (hstep : ∀ H S tag snap r S', I H S → R snap S →
      (prog tag snap).exec S = .ok (r, S') →
        I (H ++ [(tag, r)]) S' ∧ ∀ T, R T S → R T S')
    (hrun : run (lockStep prog) (Sys.init S₀) es = some s) : Carried prog I R s := by
  refine run_invariant (I := Carried prog I R) ?_
    ⟨tracked_init prog S₀, h0, fun t a ha => by simp [Sys.init] at ha⟩ hrun
  intro s e s' hC hs
  have hT' := tracked_step hC.tracked hs
  rcases commit_exec hC.tracked hs with ⟨hst, hhist⟩ | ⟨t, a, r, ha, hhist, hexec⟩
  · refine ⟨hT', by rw [hst, hhist]; exact hC.holds, fun t b hb => ?_⟩
    rw [hst]
    rcases active_of_step hs hb with ⟨-, h1, -⟩ | ⟨a, ha, -, h1⟩
    · rw [h1]; exact hrefl _
    · rw [← h1]; exact hC.since t a ha
  · obtain ⟨hI, hR⟩ := hstep _ _ _ _ _ _ hC.holds (hC.since t a ha) hexec
    refine ⟨hT', by rw [hhist]; exact hI, fun u b hb => ?_⟩
    rcases active_of_step hs hb with ⟨-, h1, h2⟩ | ⟨c, hc, -, h1⟩
    · rw [h1, h2]; exact hrefl _
    · rw [← h1]; exact hR _ (hC.since u c hc)

/-- What is carried when a property ties the store to the requests that have committed: it holds
of every snapshot, too, with the requests that had committed by then. -/
structure Recalled (prog : τ → Store V L → Txn V L E α) (I : List (τ × α) → Store V L → Prop)
    (s : Sys V L E α τ) : Prop where
  tracked : Tracked prog s
  holds : I s.history s.store
  since : ∀ t a, s.txn t = some a → ∃ H, H <+: s.history ∧ I H a.snapshot

/-- The history only grows. -/
theorem history_of_step (hT : Tracked prog s) (h : lockStep prog s e = some s') :
    s.history <+: s'.history := by
  rcases commit_exec hT h with ⟨-, hhist⟩ | ⟨_, _, _, _, hhist, -⟩
  · exact hhist.symm ▸ List.prefix_rfl
  · exact hhist.symm ▸ List.prefix_append _ _

theorem recalled_init (h : I [] S₀) : Recalled prog I (Sys.init S₀) :=
  ⟨tracked_init prog S₀, h, fun t a ha => by simp [Sys.init] at ha⟩

/-- **The rule with the history of the snapshot, for one step.** -/
theorem Recalled.step
    (hcommit : ∀ H S tag H₀ snap r S', I H S → H₀ <+: H → I H₀ snap →
      (prog tag snap).exec S = .ok (r, S') → I (H ++ [(tag, r)]) S') (hR : Recalled prog I s)
    (hs : lockStep prog s e = some s') : Recalled prog I s' where
  tracked := tracked_step hR.tracked hs
  holds := by
    rcases commit_exec hR.tracked hs with ⟨hst, hhist⟩ | ⟨t, a, r, ha, hhist, hexec⟩
    · rw [hst, hhist]
      exact hR.holds
    · obtain ⟨H, hH, hI⟩ := hR.since t a ha
      rw [hhist]
      exact hcommit _ _ _ _ _ _ _ hR.holds hH hI hexec
  since t b hb := by
    have hhist := history_of_step hR.tracked hs
    rcases active_of_step hs hb with ⟨-, hsnap, -⟩ | ⟨a, ha, -, hsnap⟩
    · -- a transaction that has just started has seen the store as it is
      exact ⟨s.history, hhist, hsnap ▸ hR.holds⟩
    · obtain ⟨H, hH, hI⟩ := hR.since t a ha
      exact ⟨H, hH.trans hhist, hsnap ▸ hI⟩

/-- **The rule with the history of the snapshot.** -/
theorem locking_history (h0 : I [] S₀)
    (hcommit : ∀ H S tag H₀ snap r S', I H S → H₀ <+: H → I H₀ snap →
      (prog tag snap).exec S = .ok (r, S') → I (H ++ [(tag, r)]) S')
    (hrun : run (lockStep prog) (Sys.init S₀) es = some s) : Recalled prog I s :=
  run_invariant (I := Recalled prog I) (fun _ _ _ hR hs => hR.step hcommit hs)
    (recalled_init h0) hrun

end OrderSystem.Kit
