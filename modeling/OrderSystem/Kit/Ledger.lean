/-
# Ledgers

A ledger is a list of entries, each of which names an account and says what its balance was
before and is after (`Book`).  `Posted b es b'` says that the entries, one after the other, take
the balances `b` to the balances `b'`: each entry starts from the balance that its account has at
that point.

Postings compose (`posted_append`), so a system whose every transaction posts what it appends has
posted its whole log.  What follows for one account is in the last two lemmas: its own entries
chain, each starting where the previous one ended (`chained_of_posted`), and its balance has moved
by the sum of their changes (`posted_change`).
-/
import Mathlib.Algebra.BigOperators.Group.Finset.Basic
import Mathlib.Algebra.BigOperators.Group.List.Basic
import Mathlib.Algebra.Ring.Int.Defs

namespace OrderSystem.Kit

/-! ## 1. Postings -/

/-- How an entry is read. -/
structure Book (ε P : Type) where
  account : ε → P
  before : ε → Int
  after : ε → Int

namespace Book

variable {ε P : Type} [DecidableEq P] (B : Book ε P)

/-- The entries take the balances `b` to `b'`. -/
def Posted : (P → Int) → List ε → (P → Int) → Prop
  | b, [], b' => b' = b
  | b, e :: es, b' =>
    B.before e = b (B.account e) ∧
      Posted (Function.update b (B.account e) (B.after e)) es b'

/-- The entries are those of one account: each starts where the previous one ended. -/
def Chained : Int → List ε → Int → Prop
  | x, [], y => y = x
  | x, e :: es, y => B.before e = x ∧ Chained (B.after e) es y

/-- The entries of an account. -/
def entries (p : P) (es : List ε) : List ε := es.filter fun e => B.account e = p

/-- What the entries of an account add up to. -/
def change (p : P) (es : List ε) : Int :=
  (es.map fun e => if B.account e = p then B.after e - B.before e else 0).sum

variable {B}

theorem posted_append {b b' b'' : P → Int} {es fs : List ε} (h : B.Posted b es b')
    (h' : B.Posted b' fs b'') : B.Posted b (es ++ fs) b'' := by
  induction es generalizing b with
  | nil =>
    have hb : b' = b := h
    rw [← hb]
    exact h'
  | cons e es ih => exact ⟨h.1, ih h.2⟩

theorem posted_single {b b' : P → Int} {e : ε} (hbefore : B.before e = b (B.account e))
    (hafter : b' = Function.update b (B.account e) (B.after e)) : B.Posted b [e] b' :=
  ⟨hbefore, hafter⟩

/-! ## 2. One account -/

/-- **The entries of an account chain** from its first balance to its last. -/
theorem chained_of_posted (p : P) : ∀ {es : List ε} {b b' : P → Int}, B.Posted b es b' →
    B.Chained (b p) (B.entries p es) (b' p)
  | [], b, b', h => congrFun (h : b' = b) p
  | e :: es, b, b', h => by
    have ih := chained_of_posted p h.2
    by_cases he : B.account e = p
    · rw [he, Function.update_self] at ih
      rw [entries, List.filter_cons_of_pos (by simpa using he)]
      exact ⟨he ▸ h.1, ih⟩
    · rw [Function.update_of_ne (Ne.symm he)] at ih
      rw [entries, List.filter_cons_of_neg (by simpa using he)]
      exact ih

/-- **The balance of an account has moved by what its entries add up to.** -/
theorem posted_change (p : P) : ∀ {es : List ε} {b b' : P → Int}, B.Posted b es b' →
    b' p = b p + B.change p es
  | [], b, b', h => by
    rw [(h : b' = b)]
    simp [change]
  | e :: es, b, b', h => by
    have ih := posted_change p h.2
    have hbefore := h.1
    rw [ih, change, change, List.map_cons, List.sum_cons]
    by_cases he : B.account e = p
    · rw [he] at hbefore
      rw [he, Function.update_self, if_pos rfl]
      omega
    · rw [Function.update_of_ne (Ne.symm he), if_neg he]
      omega

end Book

/-! ## 3. Sums over documents -/

/-- A sum in which one term changes, or is new. -/
theorem sum_insert_eq {ι : Type} [DecidableEq ι] {rs : Finset ι} {i₀ : ι} {f g : ι → Int}
    (hne : ∀ i, i ≠ i₀ → g i = f i) (h0 : i₀ ∉ rs → f i₀ = 0) :
    ∑ i ∈ insert i₀ rs, g i = ∑ i ∈ rs, f i + (g i₀ - f i₀) := by
  have hrest : ∑ i ∈ rs.erase i₀, g i = ∑ i ∈ rs.erase i₀, f i :=
    Finset.sum_congr rfl fun i hi => hne i (Finset.ne_of_mem_erase hi)
  by_cases hi : i₀ ∈ rs
  · rw [Finset.insert_eq_of_mem hi, ← Finset.add_sum_erase rs g hi,
      ← Finset.add_sum_erase rs f hi, hrest]
    omega
  · rw [Finset.erase_eq_of_notMem hi] at hrest
    rw [Finset.sum_insert hi, hrest, h0 hi]
    omega

end OrderSystem.Kit
