/-
# Lock order and deadlock

Under strict two-phase locking (`Kit/Locking.lean`) a transaction whose next statement needs a
row of another one waits, and a cycle of transactions that wait for each other never moves
again.  The usual remedy is a lock order: rank the rows, and let every transaction take its rows
in increasing rank.

`Locks rank p held Q` says this of a program.  It is a weakest precondition for lock sets: the
program `p`, started with the rows `held` locked, takes only rows that it holds already or that
rank above all it holds, and where it ends, `Q` is true of its result and of the rows it holds
then.  It is computed statement by statement, whatever the rows contain, and splits at a bind
(`locks_bind`), so the lock order of a transaction is proved from those of its parts.

`InOrder.no_cycle` is the result: where every transaction takes its rows in order there is no
cycle of waiting transactions.  Along a chain of waiting transactions the rows they wait for
increase in rank (`rank_lt_of_waits`), and a cycle would bring a row above itself.  The order is
kept by every step at which no program starts that breaks it (`InOrder.step`); `no_deadlock` is
the case of programs that all keep it, whatever they have seen.
-/
import OrderSystem.Kit.Locking
import Mathlib.Logic.Relation
import Mathlib.Order.Basic
import Mathlib.Data.Set.Insert

namespace OrderSystem.Kit

variable {K : Type} {V : K → Type} {L E α β τ ρ : Type}

/-! ## 1. The lock order of a program -/

section Order

variable [Preorder ρ]

/-- The row may be taken next: it is held already, or it ranks above all that is held. -/
def MayTake (rank : K → ρ) (held : Set K) (k : K) : Prop :=
  k ∈ held ∨ ∀ h ∈ held, rank h < rank k

/-- From the rows `held` on, the program takes its rows in order and ends in `Q`. -/
def Locks (rank : K → ρ) : Txn V L E α → Set K → (α → Set K → Prop) → Prop
  | .done a, held, Q => Q a held
  | .fail _, _, _ => True
  | .lock k next, held, Q => MayTake rank held k ∧ ∀ v, Locks rank (next v) (insert k held) Q
  | .write k _ next, held, Q => MayTake rank held k ∧ Locks rank next (insert k held) Q
  | .append _ next, held, Q => Locks rank next held Q

/-- The program takes its rows in order. -/
def Ascends (rank : K → ρ) (p : Txn V L E α) : Prop := Locks rank p ∅ fun _ _ => True

@[simp] theorem locks_pure (rank : K → ρ) (a : α) (held : Set K) (Q : α → Set K → Prop) :
    Locks rank (pure a : Txn V L E α) held Q ↔ Q a held := Iff.rfl

@[simp] theorem locks_fail (rank : K → ρ) (e : E) (held : Set K) (Q : α → Set K → Prop) :
    Locks rank (.fail e : Txn V L E α) held Q ↔ True := Iff.rfl

@[simp] theorem locks_get (rank : K → ρ) (k : K) (held : Set K) (Q : V k → Set K → Prop) :
    Locks rank (Txn.get k : Txn V L E (V k)) held Q ↔
      MayTake rank held k ∧ ∀ v, Q v (insert k held) := Iff.rfl

@[simp] theorem locks_set (rank : K → ρ) (k : K) (v : V k) (held : Set K)
    (Q : Unit → Set K → Prop) :
    Locks rank (Txn.set k v : Txn V L E Unit) held Q ↔
      MayTake rank held k ∧ Q () (insert k held) := Iff.rfl

@[simp] theorem locks_push (rank : K → ρ) (l : L) (held : Set K) (Q : Unit → Set K → Prop) :
    Locks rank (Txn.push l : Txn V L E Unit) held Q ↔ Q () held := Iff.rfl

/-- **Sequencing**: the second program goes on with the rows the first one holds at its end. -/
@[simp] theorem locks_bind (rank : K → ρ) (p : Txn V L E α) (f : α → Txn V L E β) (held : Set K)
    (Q : β → Set K → Prop) :
    Locks rank (p >>= f) held Q ↔ Locks rank p held fun a h => Locks rank (f a) h Q := by
  change Locks rank (p.bind f) held Q ↔ _
  induction p generalizing held with
  | done a => exact Iff.rfl
  | fail e => exact Iff.rfl
  | lock k next ih =>
    simp only [Txn.bind, Locks]
    exact and_congr_right fun _ => forall_congr' fun v => ih v _
  | write k v next ih =>
    simp only [Txn.bind, Locks]
    exact and_congr_right fun _ => ih _
  | append l next ih =>
    simp only [Txn.bind, Locks]
    exact ih _

theorem Locks.mono {rank : K → ρ} {p : Txn V L E α} {held : Set K} {Q Q' : α → Set K → Prop}
    (h : Locks rank p held Q) (hQ : ∀ a h', Q a h' → Q' a h') : Locks rank p held Q' := by
  induction p generalizing held with
  | done a => exact hQ a held h
  | fail e => exact h
  | lock k next ih => exact ⟨h.1, fun v => ih v (h.2 v)⟩
  | write k v next ih => exact ⟨h.1, ih h.2⟩
  | append l next ih => exact ih h

/-- **A loop that takes one row an iteration**, in increasing order, takes its rows in order.
`base` is what the body may rely on being held, and `g` what the loop carries along.  At its end
it holds what it held and the rows of its iterations. -/
theorem locks_fold {ι γ δ ζ : Type} {rank : K → ρ} (key : ι → K) (base : Set K)
    {body : ι → Txn V L E γ} (loop : δ → List ι → Txn V L E ζ) (next : δ → γ → δ) (last : δ → ζ)
    (hnil : ∀ g, loop g [] = pure (last g))
    (hcons : ∀ g i l, loop g (i :: l) = (body i >>= fun b => loop (next g b) l))
    (hbody : ∀ i held, base ⊆ held → (∀ h ∈ held, rank h < rank (key i)) →
      Locks rank (body i) held fun _ h => h = insert (key i) held) :
    ∀ (l : List ι) (g : δ) (held : Set K), l.Pairwise (fun i j => rank (key i) < rank (key j)) →
      base ⊆ held → (∀ i ∈ l, ∀ h ∈ held, rank h < rank (key i)) →
      Locks rank (loop g l) held fun _ h => base ⊆ h ∧ ∀ k ∈ h, k ∈ held ∨ ∃ i ∈ l, k = key i
  | [], g, held, _, hbase, _ => by
    rw [hnil, locks_pure]
    exact ⟨hbase, fun k hk => Or.inl hk⟩
  | i :: l, g, held, hsorted, hbase, hbelow => by
    obtain ⟨hi, hsorted⟩ := List.pairwise_cons.mp hsorted
    rw [hcons, locks_bind]
    refine (hbody i held hbase (hbelow i List.mem_cons_self)).mono fun b held' heq => ?_
    subst heq
    refine (locks_fold key base loop next last hnil hcons hbody l (next g b) _ hsorted
      (hbase.trans (Set.subset_insert _ _)) ?_).mono ?_
    · intro j hj h hh
      rcases Set.mem_insert_iff.mp hh with rfl | hh
      · exact hi j hj
      · exact hbelow j (List.mem_cons_of_mem _ hj) h hh
    · rintro _ held' ⟨hbase', hrows⟩
      refine ⟨hbase', fun k hk => ?_⟩
      rcases hrows k hk with hk | ⟨j, hj, rfl⟩
      · rcases Set.mem_insert_iff.mp hk with rfl | hk
        · exact Or.inr ⟨i, List.mem_cons_self, rfl⟩
        · exact Or.inl hk
      · exact Or.inr ⟨j, List.mem_cons_of_mem _ hj, rfl⟩

/-- The same for a loop that carries nothing along. -/
theorem locks_loop {ι : Type} {rank : K → ρ} (key : ι → K) (base : Set K)
    {body : ι → Txn V L E Unit} {loop : List ι → Txn V L E Unit} (hnil : loop [] = pure ())
    (hcons : ∀ i l, loop (i :: l) = (body i >>= fun _ => loop l))
    (hbody : ∀ i held, base ⊆ held → (∀ h ∈ held, rank h < rank (key i)) →
      Locks rank (body i) held fun _ h => h = insert (key i) held)
    (l : List ι) (held : Set K) (hsorted : l.Pairwise fun i j => rank (key i) < rank (key j))
    (hbase : base ⊆ held) (hbelow : ∀ i ∈ l, ∀ h ∈ held, rank h < rank (key i)) :
    Locks rank (loop l) held fun _ h => base ⊆ h :=
  (locks_fold key base (fun _ : Unit => loop) (fun _ _ => ()) (fun _ => ()) (fun _ => hnil)
    (fun _ => hcons) hbody l () held hsorted hbase hbelow).mono fun _ _ h => h.1

end Order

/-! ## 2. Waiting -/

/-- The row that the next statement of a program needs. -/
def Txn.wants : Txn V L E α → Option K
  | .lock k _ => some k
  | .write k _ _ => some k
  | .done _ => none
  | .fail _ => none
  | .append _ _ => none

/-- The rows that a transaction holds. -/
def Sys.held (s : Sys V L E α τ) (t : Nat) : Set K := {k | s.owner k = some t}

/-- The next statement of the transaction `t` needs the row `k`. -/
def Sys.Wants (s : Sys V L E α τ) (t : Nat) (k : K) : Prop :=
  ∃ a, s.txn t = some a ∧ a.rest.wants = some k

/-- The transaction `t` waits for a row that `t'` holds. -/
def Sys.WaitsFor (s : Sys V L E α τ) (t t' : Nat) : Prop :=
  ∃ k, s.Wants t k ∧ s.owner k = some t' ∧ t' ≠ t

variable {s : Sys V L E α τ} {t : Nat} {k k' : K} {prog : τ → Store V L → Txn V L E α}
  {rank : K → ρ}

theorem Sys.Wants.unique (h : s.Wants t k) (h' : s.Wants t k') : k = k' := by
  obtain ⟨a, ha, hk⟩ := h
  obtain ⟨a', ha', hk'⟩ := h'
  obtain rfl := Option.some.inj (ha.symm.trans ha')
  exact Option.some.inj (hk.symm.trans hk')

/-- A transaction that waits is one whose next statement is not enabled. -/
theorem not_stmt_of_waitsFor [DecidableEq K] {t' : Nat} (h : s.WaitsFor t t') :
    lockStep prog s (.stmt t) = none := by
  obtain ⟨k, ⟨a, ha, hk⟩, ho, hne⟩ := h
  have hfree : s.free t k = false := by
    rw [Bool.eq_false_iff]
    intro hf
    rcases (s.free_iff t k).mp hf with h0 | h0
    · rw [ho] at h0
      exact absurd h0 (by simp)
    · rw [ho, Option.some.injEq] at h0
      exact hne h0
  simp only [lockStep, ha]
  unfold Txn.wants at hk
  split at hk
  · rename_i k₀ next hr
    obtain rfl := Option.some.inj hk
    simp [hr, hfree]
  · rename_i k₀ v next hr
    obtain rfl := Option.some.inj hk
    simp [hr, hfree]
  · exact absurd hk (by simp)
  · exact absurd hk (by simp)
  · exact absurd hk (by simp)

/-! ## 3. Runs in lock order -/

variable [Preorder ρ]

/-- Every running transaction goes on in order from the rows it holds, and rows are held by
running transactions only. -/
structure InOrder (rank : K → ρ) (s : Sys V L E α τ) : Prop where
  rest : ∀ t a, s.txn t = some a → Locks rank a.rest (s.held t) fun _ _ => True
  live : ∀ k t, s.owner k = some t → (s.txn t).isSome

theorem inOrder_init (rank : K → ρ) (S : Store V L) :
    InOrder rank (Sys.init S : Sys V L E α τ) where
  rest t a h := absurd h (by simp [Sys.init])
  live k t h := absurd h (by simp [Sys.init])

variable [DecidableEq K]

/-- `t` goes on with the row `k` added to those it holds. -/
theorem InOrder.hold (h : InOrder rank s) {a : Active V L E α τ} (hf : s.free t k = true)
    (ha : Locks rank a.rest (insert k (s.held t)) fun _ _ => True) :
    InOrder rank (s.hold t k a) where
  rest t' b hb := by
    by_cases ht : t' = t
    · subst ht
      simp only [Sys.hold, Sys.put_txn_self, Option.some.injEq] at hb
      subst hb
      have hset : (s.hold t' k a).held t' = insert k (s.held t') := by
        ext k'
        by_cases hk : k' = k
        · subst hk; simp [Sys.held, Sys.hold]
        · simp [Sys.held, Sys.hold, hk]
      rw [hset]
      exact ha
    · simp only [Sys.hold, Sys.put_txn_of_ne _ _ ht] at hb
      have hset : (s.hold t k a).held t' = s.held t' := by
        ext k'
        constructor
        · intro hk'
          by_cases hk : k' = k
          · subst hk
            simp only [Sys.held, Sys.hold, Set.mem_ofPred_eq, Function.update_self,
              Option.some.injEq] at hk'
            exact absurd hk'.symm ht
          · simpa [Sys.held, Sys.hold, hk] using hk'
        · exact fun hk' => Sys.owner_of_hold hf ht hk'
      rw [hset]
      exact h.rest t' b hb
  live k' t' hk' := by
    by_cases ht : t' = t
    · subst ht; simp [Sys.hold]
    · by_cases hk : k' = k
      · subst hk
        simp only [Sys.hold, Function.update_self, Option.some.injEq] at hk'
        exact absurd hk'.symm ht
      · simp only [Sys.hold, Function.update_of_ne hk] at hk'
        simp only [Sys.hold, Sys.put_txn_of_ne _ _ ht]
        exact h.live k' t' hk'

omit [DecidableEq K] in
/-- `t` starts, or goes on without a row. -/
theorem InOrder.put (h : InOrder rank s) {a : Active V L E α τ}
    (ha : Locks rank a.rest (s.held t) fun _ _ => True) :
    InOrder rank (s.put t (some a)) where
  rest t' b hb := by
    by_cases ht : t' = t
    · subst ht
      simp only [Sys.put_txn_self, Option.some.injEq] at hb
      subst hb
      exact ha
    · rw [Sys.put_txn_of_ne _ _ ht] at hb
      exact h.rest t' b hb
  live k t' hk := by
    by_cases ht : t' = t
    · subst ht; simp
    · rw [Sys.put_txn_of_ne _ _ ht]
      exact h.live k t' hk

omit [DecidableEq K] in
/-- `t` ends and lets go of its rows. -/
theorem InOrder.release (h : InOrder rank s) (t : Nat) (S : Store V L) (history : List (τ × α)) :
    InOrder rank { s.put t none with store := S, owner := s.released t, history := history } where
  rest t' b hb := by
    by_cases ht : t' = t
    · subst ht; simp at hb
    · simp only [Sys.put_txn_of_ne _ _ ht] at hb
      have hset : s.held t' = {k | s.released t k = some t'} := by
        ext k
        refine ⟨fun hk => Sys.owner_of_released ht hk, fun hk => ?_⟩
        simp only [Set.mem_ofPred_eq, Sys.released] at hk
        split at hk
        · exact absurd hk (by simp)
        · exact hk
      show Locks rank b.rest {k | s.released t k = some t'} _
      rw [← hset]
      exact h.rest t' b hb
  live k t' hk := by
    simp only [Sys.released] at hk
    split at hk
    · exact absurd hk (by simp)
    · rename_i hne
      have ht : t' ≠ t := by
        rintro rfl
        exact hne hk
      simp only [Sys.put_txn_of_ne _ _ ht]
      exact h.live k t' hk

/-- **Every step keeps the order**, if a program that starts at it takes its rows in order. -/
theorem InOrder.step {s' : Sys V L E α τ} {e : LockEvent τ} (h : InOrder rank s)
    (hstart : ∀ t tag, e = .start t tag → Ascends rank (prog tag s.store))
    (hs : lockStep prog s e = some s') : InOrder rank s' := by
  cases lockMove_of_step hs with
  | start t tag ht =>
    have hnone : s.held t = ∅ := by
      ext k
      refine ⟨fun hk => ?_, fun hk => absurd hk (by simp)⟩
      have hlive := h.live k t hk
      rw [ht] at hlive
      exact absurd hlive (by simp)
    refine h.put ?_
    rw [hnone]
    exact hstart t tag (start_of_step hs ht (Sys.put_txn_self _ _ _))
  | lock t a k next ha hr hf =>
    have hrest := h.rest t a ha
    rw [hr] at hrest
    exact h.hold hf (hrest.2 _)
  | write t a k v next ha hr hf =>
    have hrest := h.rest t a ha
    rw [hr] at hrest
    exact h.hold hf hrest.2
  | append t a l next ha hr =>
    have hrest := h.rest t a ha
    rw [hr] at hrest
    exact h.put hrest
  | commit t a r ha hr => exact h.release t _ _
  | abort t a ha => exact h.release t _ _

/-! ## 4. No cycle -/

omit [DecidableEq K] in
/-- What a transaction waits for ranks above all it holds. -/
theorem InOrder.rank_lt (h : InOrder rank s) (hk : s.owner k = some t) (hw : s.Wants t k')
    (hk' : s.owner k' ≠ some t) :
    rank k < rank k' := by
  obtain ⟨a, ha, hw⟩ := hw
  have hrest := h.rest t a ha
  have hmay : MayTake rank (s.held t) k' := by
    unfold Txn.wants at hw
    split at hw
    · rename_i k₀ next hr
      rw [hr] at hrest
      exact Option.some.inj hw ▸ hrest.1
    · rename_i k₀ v next hr
      rw [hr] at hrest
      exact Option.some.inj hw ▸ hrest.1
    · exact absurd hw (by simp)
    · exact absurd hw (by simp)
    · exact absurd hw (by simp)
  rcases hmay with hmem | hlt
  · exact absurd hmem hk'
  · exact hlt k hk

omit [DecidableEq K] in
/-- **Along a chain of waiting transactions the rows they wait for increase.** -/
theorem InOrder.rank_lt_of_waits (h : InOrder rank s) {t' : Nat}
    (hc : Relation.TransGen s.WaitsFor t t') (hk : s.Wants t k) (hk' : s.Wants t' k')
    (hown : s.owner k' ≠ some t') : rank k < rank k' := by
  induction hc generalizing k' with
  | single hw =>
    obtain ⟨k₁, hk₁, ho, -⟩ := hw
    obtain rfl := hk.unique hk₁
    exact h.rank_lt ho hk' hown
  | tail hc hw ih =>
    obtain ⟨k₁, hk₁, ho, hne⟩ := hw
    have hlt : rank k < rank k₁ := ih hk₁ fun heq => by
      rw [ho, Option.some.injEq] at heq
      exact hne heq
    exact hlt.trans (h.rank_lt ho hk' hown)

omit [DecidableEq K] in
/-- **No deadlock.**  Where every transaction goes on in order, there is no cycle of transactions
that each wait for a row the next one holds. -/
theorem InOrder.no_cycle (h : InOrder rank s) (t : Nat) :
    ¬Relation.TransGen s.WaitsFor t t := by
  intro hc
  -- the cycle leaves `t` by the row that `t` waits for
  obtain ⟨t₁, ⟨k, hk, ho, hne⟩, -⟩ := (Relation.TransGen.head'_iff).mp hc
  refine lt_irrefl (rank k) (h.rank_lt_of_waits hc hk hk fun heq => ?_)
  rw [ho, Option.some.injEq] at heq
  exact hne heq

/-- If every program takes its rows in order, no state of any run has a cycle. -/
theorem no_deadlock (rank : K → ρ) (hprog : ∀ tag snapshot, Ascends rank (prog tag snapshot))
    {S₀ : Store V L} {es : List (LockEvent τ)}
    (hrun : run (lockStep prog) (Sys.init S₀) es = some s) (t : Nat) :
    ¬Relation.TransGen s.WaitsFor t t := by
  have h : InOrder rank s :=
    run_invariant (I := InOrder rank)
      (fun s _ _ hI hs => hI.step (fun _ tag _ => hprog tag s.store) hs) (inOrder_init rank S₀) hrun
  exact h.no_cycle t

end OrderSystem.Kit
