/-
# Capped doubling

A delay that starts at a base and is doubled round after round up to a cap.  The loop does not
double and then compare, which could leave the range of the machine's integers; it compares the
delay with half of the cap, and goes straight to the cap from there (`doubled`).  Half of the cap
is rounded down, so an odd cap is reached one unit early.

`store` is what the machine makes of a product.  It has to be right for positive numbers up to
the cap only, and these are all that the loop computes (`products_le_cap`).  The delay is then
at most one unit above `min (base * 2 ^ rounds) cap` (`doubled_near`).
-/
import Mathlib.Tactic.Ring
import Mathlib.Tactic.Linarith

namespace OrderSystem.Kit

/-- The delay after the rounds that are left. -/
def doubled (store : Int → Int) (cap : Int) : Nat → Int → Int
  | 0, delay => if cap < delay then cap else delay
  | rounds + 1, delay =>
    if cap.tdiv 2 ≤ delay then cap else doubled store cap rounds (store (delay * 2))

/-- The products the loop computes, before the machine stores them. -/
def products (store : Int → Int) (cap : Int) : Nat → Int → List Int
  | 0, _ => []
  | rounds + 1, delay =>
    if cap.tdiv 2 ≤ delay then [] else delay * 2 :: products store cap rounds (store (delay * 2))

/-- Below half of the cap there is room for the double. -/
theorem double_le_cap {cap delay : Int} (hpos : 0 < delay) (h : ¬ cap.tdiv 2 ≤ delay) :
    0 < delay * 2 ∧ delay * 2 ≤ cap := by
  rcases le_total 0 cap with hcap | hcap
  · rw [Int.tdiv_eq_ediv_of_nonneg hcap] at h
    omega
  · have hneg : cap.tdiv 2 ≤ 0 := by
      rw [← Int.neg_neg cap, Int.neg_tdiv, Int.tdiv_eq_ediv_of_nonneg (by omega)]
      omega
    omega

/-- From half of the cap on, the double misses it by one at most. -/
theorem cap_le_double {cap delay : Int} (hcap : 0 ≤ cap) (h : cap.tdiv 2 ≤ delay) :
    cap ≤ delay * 2 + 1 := by
  rw [Int.tdiv_eq_ediv_of_nonneg hcap] at h
  omega

section Law

variable {store : Int → Int} {cap : Int} (hstore : ∀ x, 0 < x → x ≤ cap → store x = x)

include hstore

theorem products_le_cap (rounds : Nat) {delay : Int} (hpos : 0 < delay) :
    ∀ x ∈ products store cap rounds delay, 0 < x ∧ x ≤ cap := by
  induction rounds generalizing delay with
  | zero => exact fun x hx => absurd hx List.not_mem_nil
  | succ rounds ih =>
    intro x hx
    rw [products] at hx
    split at hx
    · exact absurd hx List.not_mem_nil
    · rename_i hhalf
      have hdouble := double_le_cap hpos hhalf
      rcases List.mem_cons.mp hx with rfl | hx
      · exact hdouble
      · rw [hstore _ hdouble.1 hdouble.2] at hx
        exact ih hdouble.1 x hx

theorem doubled_between (rounds : Nat) {delay : Int} (hpos : 0 < delay) (hcap : delay ≤ cap) :
    delay ≤ doubled store cap rounds delay ∧ doubled store cap rounds delay ≤ cap := by
  induction rounds generalizing delay with
  | zero =>
    rw [doubled, if_neg (not_lt.mpr hcap)]
    exact ⟨le_rfl, hcap⟩
  | succ rounds ih =>
    rw [doubled]
    split
    · exact ⟨hcap, le_rfl⟩
    · rename_i hhalf
      have hdouble := double_le_cap hpos hhalf
      rw [hstore _ hdouble.1 hdouble.2]
      have hih := ih hdouble.1 hdouble.2
      exact ⟨by omega, hih.2⟩

theorem doubled_le_succ (rounds : Nat) {delay : Int} (hpos : 0 < delay) (hcap : delay ≤ cap) :
    doubled store cap rounds delay ≤ doubled store cap (rounds + 1) delay := by
  induction rounds generalizing delay with
  | zero =>
    rw [doubled, if_neg (not_lt.mpr hcap)]
    exact (doubled_between hstore 1 hpos hcap).1
  | succ rounds ih =>
    rw [doubled, doubled]
    split
    · exact le_rfl
    · rename_i hhalf
      have hdouble := double_le_cap hpos hhalf
      rw [hstore _ hdouble.1 hdouble.2]
      exact ih hdouble.1 hdouble.2

theorem doubled_mono {delay : Int} (hpos : 0 < delay) (hcap : delay ≤ cap) {m n : Nat}
    (h : m ≤ n) : doubled store cap m delay ≤ doubled store cap n delay := by
  induction h with
  | refl => exact le_rfl
  | step _ ih => exact ih.trans (doubled_le_succ hstore _ hpos hcap)

theorem doubled_near (rounds : Nat) {delay : Int} (hpos : 0 < delay) (hcap : delay ≤ cap) :
    min (delay * 2 ^ rounds) cap ≤ doubled store cap rounds delay ∧
      doubled store cap rounds delay ≤ min (delay * 2 ^ rounds) cap + 1 := by
  induction rounds generalizing delay with
  | zero =>
    rw [doubled, if_neg (not_lt.mpr hcap), pow_zero, mul_one, min_eq_left hcap]
    omega
  | succ rounds ih =>
    rw [doubled]
    split
    · rename_i hhalf
      -- the double has passed the cap, or misses it by one
      have hpow : delay * 2 ≤ delay * 2 ^ (rounds + 1) := by
        have hone : (1 : Int) ≤ 2 ^ rounds := one_le_pow₀ (by norm_num)
        rw [pow_succ]
        nlinarith
      have hdouble := cap_le_double (by omega) hhalf
      omega
    · rename_i hhalf
      have hdouble := double_le_cap hpos hhalf
      rw [hstore _ hdouble.1 hdouble.2,
        show delay * 2 ^ (rounds + 1) = delay * 2 * 2 ^ rounds by ring]
      exact ih hdouble.1 hdouble.2

end Law

end OrderSystem.Kit
