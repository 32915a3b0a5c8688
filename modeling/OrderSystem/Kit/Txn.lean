/-
# Transaction programs over rows

A database is a row for every key plus one append-only table (`Store`).  A transaction is a
program (`Txn`) whose statements are the three things a statement can do to such a database:
read a row and lock it, overwrite a locked row, append to the log table.  It ends by
returning a value or by failing, and failing rolls everything back.

`Txn.exec` runs a program alone, from the first statement to the last: the serial meaning.
What happens when the statements of several programs are interleaved is `Kit/Locking.lean`.

The lemmas here are the ones the proofs about a concrete transaction need: how `exec` runs
each kind of statement, how a successful run of `p >>= f` splits into a successful run of
`p` and one of `f` (`exec_bind_ok`), and which errors a program can return at all (`FailsIn`).
-/
import Mathlib.Logic.Function.Basic
import Mathlib.Data.List.Basic

namespace OrderSystem.Kit

/-! ## 1. Stores and programs -/

variable {K : Type} {V : K → Type} {L E α β : Type}

/-- A database: one row per key, and one append-only table. -/
structure Store (V : K → Type) (L : Type) where
  row : (k : K) → V k
  log : List L

/-- A transaction, statement by statement. -/
inductive Txn (V : K → Type) (L E α : Type) where
  /-- commit, with a result -/
  | done (a : α)
  /-- return an error from the transaction function: everything is rolled back -/
  | fail (e : E)
  /-- read a row and hold it until the end of the transaction -/
  | lock (k : K) (next : V k → Txn V L E α)
  /-- overwrite a row -/
  | write (k : K) (v : V k) (next : Txn V L E α)
  /-- insert into the append-only table -/
  | append (l : L) (next : Txn V L E α)

/-- Append one entry to the log table of a store. -/
def Store.push (s : Store V L) (l : L) : Store V L := { s with log := s.log ++ [l] }

@[simp] theorem Store.push_row (s : Store V L) (l : L) : (s.push l).row = s.row := rfl

@[simp] theorem Store.push_log (s : Store V L) (l : L) : (s.push l).log = s.log ++ [l] := rfl

namespace Txn

/-- Sequencing. -/
def bind : Txn V L E α → (α → Txn V L E β) → Txn V L E β
  | done a, f => f a
  | fail e, _ => fail e
  | lock k next, f => lock k fun v => (next v).bind f
  | write k v next, f => write k v (next.bind f)
  | append l next, f => append l (next.bind f)

instance : Monad (Txn V L E) where
  pure := done
  bind := bind

/-- Read a row and lock it. -/
def get (k : K) : Txn V L E (V k) := lock k done

/-- Overwrite a row. -/
def set (k : K) (v : V k) : Txn V L E Unit := write k v (done ())

/-- Append to the log table. -/
def push (l : L) : Txn V L E Unit := append l (done ())

end Txn

/-! ## 2. Running a program alone -/

section Exec

variable [DecidableEq K]

/-- Overwrite one row of a store. -/
def Store.set (s : Store V L) (k : K) (v : V k) : Store V L :=
  { s with row := Function.update s.row k v }

@[simp] theorem Store.set_row_self (s : Store V L) (k : K) (v : V k) : (s.set k v).row k = v :=
  Function.update_self k v s.row

theorem Store.set_row_of_ne (s : Store V L) {k k' : K} (v : V k) (h : k' ≠ k) :
    (s.set k v).row k' = s.row k' :=
  Function.update_of_ne h v s.row

@[simp] theorem Store.set_log (s : Store V L) (k : K) (v : V k) : (s.set k v).log = s.log := rfl

namespace Txn

/-- The serial meaning of a program: the result and the store it commits, or its error. -/
def exec : Txn V L E α → Store V L → Except E (α × Store V L)
  | done a, s => .ok (a, s)
  | fail e, _ => .error e
  | lock k next, s => (next (s.row k)).exec s
  | write k v next, s => next.exec (s.set k v)
  | append l next, s => next.exec (s.push l)

@[simp] theorem exec_pure (a : α) (s : Store V L) :
    (pure a : Txn V L E α).exec s = .ok (a, s) := rfl

@[simp] theorem exec_done (a : α) (s : Store V L) :
    (done a : Txn V L E α).exec s = .ok (a, s) := rfl

@[simp] theorem exec_fail (e : E) (s : Store V L) :
    (fail e : Txn V L E α).exec s = .error e := rfl

@[simp] theorem exec_get (k : K) (s : Store V L) :
    (get k : Txn V L E (V k)).exec s = .ok (s.row k, s) := rfl

@[simp] theorem exec_set (k : K) (v : V k) (s : Store V L) :
    (set k v : Txn V L E Unit).exec s = .ok ((), s.set k v) := rfl

@[simp] theorem exec_push (l : L) (s : Store V L) :
    (push l : Txn V L E Unit).exec s = .ok ((), s.push l) := rfl

/-- **Sequencing, executed**: run the first program and, if it succeeds, the second from the
store it leaves. -/
theorem exec_bind (p : Txn V L E α) (f : α → Txn V L E β) (s : Store V L) :
    (p >>= f).exec s = (p.exec s).bind fun r => (f r.1).exec r.2 := by
  change (p.bind f).exec s = _
  induction p generalizing s with
  | done a => rfl
  | fail e => rfl
  | lock k next ih => exact ih (s.row k) s
  | write k v next ih => exact ih (s.set k v)
  | append l next ih => exact ih (s.push l)

@[simp] theorem exec_get_bind (k : K) (f : V k → Txn V L E β) (s : Store V L) :
    (get k >>= f).exec s = (f (s.row k)).exec s := by
  rw [exec_bind]
  rfl

@[simp] theorem exec_set_bind (k : K) (v : V k) (f : Unit → Txn V L E β) (s : Store V L) :
    (set k v >>= f).exec s = (f ()).exec (s.set k v) := by
  rw [exec_bind]
  rfl

@[simp] theorem exec_push_bind (l : L) (f : Unit → Txn V L E β) (s : Store V L) :
    (push l >>= f).exec s = (f ()).exec (s.push l) := by
  rw [exec_bind]
  rfl

variable {p : Txn V L E α} {f : α → Txn V L E β} {s : Store V L}

/-- **A successful run splits at a bind.** -/
theorem exec_bind_ok {s' : Store V L} {b : β} (h : (p >>= f).exec s = .ok (b, s')) :
    ∃ a t, p.exec s = .ok (a, t) ∧ (f a).exec t = .ok (b, s') := by
  rw [exec_bind] at h
  cases hp : p.exec s with
  | error e => rw [hp] at h; exact absurd h (by simp [Except.bind])
  | ok r =>
    rw [hp] at h
    exact ⟨r.1, r.2, rfl, h⟩

/-- ...and a failing one fails in the first program or in the second. -/
theorem exec_bind_error {e : E} (h : (p >>= f).exec s = .error e) :
    p.exec s = .error e ∨ ∃ a t, p.exec s = .ok (a, t) ∧ (f a).exec t = .error e := by
  rw [exec_bind] at h
  cases hp : p.exec s with
  | error e' =>
    rw [hp] at h
    simp only [Except.bind, Except.error.injEq] at h
    exact Or.inl (h ▸ rfl)
  | ok r =>
    rw [hp] at h
    exact Or.inr ⟨r.1, r.2, rfl, h⟩

/-- Whatever the rows contain, the program returns no error but those of `P`. -/
def FailsIn (P : E → Prop) : Txn V L E α → Prop
  | done _ => True
  | fail e => P e
  | lock _ next => ∀ v, (next v).FailsIn P
  | write _ _ next => next.FailsIn P
  | append _ next => next.FailsIn P

omit [DecidableEq K] in
@[simp] theorem failsIn_pure (P : E → Prop) (a : α) :
    (pure a : Txn V L E α).FailsIn P ↔ True := Iff.rfl

omit [DecidableEq K] in
@[simp] theorem failsIn_fail (P : E → Prop) (e : E) :
    (fail e : Txn V L E α).FailsIn P ↔ P e := Iff.rfl

omit [DecidableEq K] in
@[simp] theorem failsIn_set (P : E → Prop) (k : K) (v : V k) :
    (set k v : Txn V L E Unit).FailsIn P ↔ True := Iff.rfl

omit [DecidableEq K] in
@[simp] theorem failsIn_push (P : E → Prop) (l : L) :
    (push l : Txn V L E Unit).FailsIn P ↔ True := Iff.rfl

omit [DecidableEq K] in
@[simp] theorem failsIn_get_bind (P : E → Prop) (k : K) (f : V k → Txn V L E β) :
    (get k >>= f).FailsIn P ↔ ∀ v, (f v).FailsIn P := Iff.rfl

omit [DecidableEq K] in
@[simp] theorem failsIn_set_bind (P : E → Prop) (k : K) (v : V k) (f : Unit → Txn V L E β) :
    (set k v >>= f).FailsIn P ↔ (f ()).FailsIn P := Iff.rfl

omit [DecidableEq K] in
theorem failsIn_bind {P : E → Prop} (hp : p.FailsIn P) (hf : ∀ a, (f a).FailsIn P) :
    (p >>= f).FailsIn P := by
  change (p.bind f).FailsIn P
  induction p with
  | done a => exact hf a
  | fail e => exact hp
  | lock k next ih => exact fun v => ih v (hp v)
  | write k v next ih => exact ih hp
  | append l next ih => exact ih hp

/-- An error is one of those the program can return. -/
theorem FailsIn.of_exec {P : E → Prop} {e : E} (h : p.FailsIn P) (he : p.exec s = .error e) :
    P e := by
  induction p generalizing s with
  | done a => exact absurd he (by simp)
  | fail e' => exact Except.error.inj he ▸ h
  | lock k next ih => exact ih _ (h _) he
  | write k v next ih => exact ih h he
  | append l next ih => exact ih h he

/-- The store-passing form of `exec_bind` for a first program that is known to succeed. -/
theorem exec_bind_of_ok (f : α → Txn V L E β) {t : Store V L} {a : α} (h : p.exec s = .ok (a, t)) :
    (p >>= f).exec s = (f a).exec t := by
  rw [exec_bind, h]
  rfl

end Txn

end Exec

end OrderSystem.Kit
