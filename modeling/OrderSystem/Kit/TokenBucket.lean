/-
# Token buckets

A bucket that is refilled at a constant rate up to a burst, and from which every admission takes
one token, admits at most `burst + rate * T` calls in any window of length `T`.  Refills come at
irregular times and are cut off at the burst, so the count in a window is not read off the
bucket directly.

`Metered` is the invariant that does it.  It relates the bucket to the instants of the admissions
so far: from any instant `a` on, the admissions together with the tokens that are left are paid
for by a full bucket at `a` and by what the rate has brought since (`ahead`).  The three
operations keep it: a refill that brings no more than it should (`refill`), an admission
(`take`), and the new bucket has it (`metered_full`).  A refill need not be the exact one, and
so a bucket may be thrown away and replaced by a full one when it would have been full.

A refill that is cut off at the burst composes: in two steps it brings what it brings in one
(`min_earned_earned`).
-/
import Mathlib.Algebra.Order.Field.Basic
import Mathlib.Tactic.Linarith
import Mathlib.Tactic.Ring

namespace OrderSystem.Kit

variable {F : Type} [Field F] [LinearOrder F] [IsStrictOrderedRing F]

/-- How many of the instants are not before `a`. -/
def countSince (log : List F) (a : F) : Nat := log.countP fun t => a ≤ t

/-- How many of the instants are in the window of length `T` from `a` on. -/
def countIn (log : List F) (a T : F) : Nat := log.countP fun t => a ≤ t ∧ t ≤ a + T

omit [IsStrictOrderedRing F] in
theorem countIn_le_countSince (log : List F) (a T : F) : countIn log a T ≤ countSince log a := by
  refine List.countP_mono_left fun t _ h => ?_
  simp only [decide_eq_true_eq] at h ⊢
  exact h.1

omit [Field F] [IsStrictOrderedRing F] in
theorem countSince_append (log : List F) (t a : F) :
    countSince (log ++ [t]) a = countSince log a + if a ≤ t then 1 else 0 := by
  rw [countSince, countSince, List.countP_append, List.countP_singleton]
  simp

omit [IsStrictOrderedRing F] in
theorem countIn_append (log : List F) (t a T : F) :
    countIn (log ++ [t]) a T = countIn log a T + if a ≤ t ∧ t ≤ a + T then 1 else 0 := by
  rw [countIn, countIn, List.countP_append, List.countP_singleton]
  simp

omit [Field F] [IsStrictOrderedRing F] in
theorem countSince_eq_zero {log : List F} {a : F} (h : ∀ t ∈ log, t < a) :
    countSince log a = 0 := by
  rw [countSince, List.countP_eq_zero]
  intro t ht
  simpa using h t ht

/-- The bucket holds `tokens` as of the instant `last`, and `log` are the admissions so far. -/
structure Metered (rate burst : F) (log : List F) (tokens last : F) : Prop where
  past : ∀ t ∈ log, t ≤ last
  capped : tokens ≤ burst
  /-- from `a` on, admissions and what is left are paid for -/
  ahead : ∀ a ≤ last, countSince log a + tokens ≤ burst + rate * (last - a)
  window : ∀ a T, 0 ≤ T → (countIn log a T : F) ≤ burst + rate * T

/-- What is cut off at the burst in a first refill would be cut off in the second. -/
theorem min_earned_earned {earned : F} (burst tokens first : F) (h : 0 ≤ earned) :
    min burst (min burst (tokens + first) + earned) = min burst (tokens + first + earned) := by
  rcases le_total burst (tokens + first) with hfull | hroom
  · rw [min_eq_left hfull, min_eq_left (by linarith), min_eq_left (by linarith)]
  · rw [min_eq_right hroom]

section

variable {rate burst tokens last : F} {log : List F}

/-- A full bucket, before the first admission. -/
theorem metered_full (hrate : 0 ≤ rate) (hburst : 0 ≤ burst) (last : F) :
    Metered rate burst [] burst last where
  past t ht := absurd ht (by simp)
  capped := le_rfl
  ahead a ha := by
    have hpaid : 0 ≤ rate * (last - a) := mul_nonneg hrate (sub_nonneg.mpr ha)
    simp only [countSince, List.countP_nil, Nat.cast_zero, zero_add]
    linarith
  window a T hT := by
    have hpaid : 0 ≤ rate * T := mul_nonneg hrate hT
    simp only [countIn, List.countP_nil, Nat.cast_zero]
    linarith

/-- **A refill** brings at most what the rate has earned since `last`, up to the burst. -/
theorem Metered.refill (h : Metered rate burst log tokens last) (hrate : 0 ≤ rate)
    {t tokens' : F} (ht : last ≤ t) (hcap : tokens' ≤ burst)
    (hearned : tokens' ≤ tokens + (t - last) * rate) : Metered rate burst log tokens' t where
  past u hu := (h.past u hu).trans ht
  capped := hcap
  ahead a ha := by
    by_cases hlast : a ≤ last
    · have hbefore := h.ahead a hlast
      calc (countSince log a : F) + tokens'
          ≤ (countSince log a + tokens) + (t - last) * rate := by linarith
        _ ≤ burst + rate * (last - a) + (t - last) * rate := by linarith
        _ = burst + rate * (t - a) := by ring
    · -- nothing was admitted since `a`, and the bucket holds at most the burst
      have hzero : countSince log a = 0 :=
        countSince_eq_zero fun u hu => (h.past u hu).trans_lt (not_le.mp hlast)
      have hpaid : 0 ≤ rate * (t - a) := mul_nonneg hrate (sub_nonneg.mpr ha)
      rw [hzero, Nat.cast_zero, zero_add]
      linarith
  window := h.window

/-- **An admission** takes a token. -/
theorem Metered.take (h : Metered rate burst log tokens last) (hrate : 0 ≤ rate)
    (htoken : 1 ≤ tokens) : Metered rate burst (log ++ [last]) (tokens - 1) last where
  past u hu := by
    rcases List.mem_append.mp hu with hu | hu
    · exact h.past u hu
    · exact (List.mem_singleton.mp hu).le
  capped := by linarith [h.capped]
  ahead a ha := by
    have hbefore := h.ahead a ha
    rw [countSince_append, if_pos ha]
    push_cast
    linarith
  window a T hT := by
    rw [countIn_append]
    split
    · rename_i hin
      have hbefore := h.ahead a hin.1
      have hle : (countIn log a T : F) ≤ countSince log a :=
        Nat.cast_le.mpr (countIn_le_countSince log a T)
      have hspan : rate * (last - a) ≤ rate * T :=
        mul_le_mul_of_nonneg_left (by linarith [hin.2]) hrate
      push_cast
      linarith
    · rw [add_zero]
      exact h.window a T hT

end

end OrderSystem.Kit
