/-
# The two backoffs

A reconciliation task that failed waits `ReconciliationWorker.retryDelay` before its next
attempt, and a request of the resilient client waits `backoff`.  The two functions are the same
loop over different configurations: the base delay, doubled once for every attempt after the
first, up to the maximum (`Kit/Doubling.lean`).  Both configurations are normalised first, which
makes the base positive and the maximum no smaller than the base, one by raising the maximum and
the other by lowering the base.

Delays are `int64` nanoseconds.  Nothing overflows, since the loop compares the delay with half
of the maximum before it doubles; the price is that an odd maximum can be returned one attempt
early, one nanosecond above the double (`backoffs_capped`).
-/
import OrderSystem.Kit.Doubling
import OrderSystem.OrderSvc.DryRun
import OrderSystem.Resilience.Executor

namespace OrderSystem

open Kit OrderSvc Resilience

/-! ## 1. Both are capped doubling -/

theorem retryDelayFor_eq (cfg : ReconciliationWorkerConfig) (attempt : Nat) :
    cfg.retryDelayFor attempt = doubled wrap64 cfg.maxRetryDelay (attempt - 1) cfg.retryDelay := by
  rw [ReconciliationWorkerConfig.retryDelayFor]
  generalize attempt - 1 = rounds
  generalize cfg.retryDelay = delay
  induction rounds generalizing delay with
  | zero => rfl
  | succ rounds ih => rw [retryDelayLoop, doubled, ih]

theorem backoff_eq (policy : RetryPolicy) (attempt : Nat) :
    backoff policy attempt = doubled wrap64 policy.maxBackoff (attempt - 1) policy.baseBackoff := by
  rw [backoff, show ((attempt : Int) - 1).toNat = attempt - 1 by omega]
  generalize attempt - 1 = rounds
  generalize policy.baseBackoff = delay
  induction rounds generalizing delay with
  | zero => rfl
  | succ rounds ih => rw [backoffLoop, doubled, ih]

/-! ## 2. What normalisation leaves -/

/-- A positive base, and a maximum that is an `int64` and no smaller. -/
structure DelayRange (base max : Int) : Prop where
  pos : 0 < base
  le : base ≤ max
  fits : max ≤ maxInt64

theorem delayRange_settings {given : DryRun.Settings} (hbase : InBigint given.retryDelay)
    (hmax : InBigint given.maxRetryDelay) (unixNano : Int) :
    DelayRange (given.normalized unixNano).retryDelay
      (given.normalized unixNano).maxRetryDelay := by
  simp only [InBigint, maxInt64] at hbase hmax
  constructor
  · simp only [DryRun.Settings.normalized]
    omega
  · simp only [DryRun.Settings.normalized]
    omega
  · simp only [DryRun.Settings.normalized, maxInt64]
    omega

theorem delayRange_policy {policy : RetryPolicy} (hmax : InBigint policy.maxBackoff) :
    DelayRange policy.normalized.baseBackoff policy.normalized.maxBackoff := by
  simp only [InBigint, maxInt64] at hmax
  constructor
  · simp only [RetryPolicy.normalized, millisecond]
    omega
  · simp only [RetryPolicy.normalized, millisecond]
    omega
  · simp only [RetryPolicy.normalized, millisecond, maxInt64]
    omega

/-! ## 3. The law -/

/-- What a backoff from `base` up to `max` should be. -/
structure CappedDoubling (base max : Int) (delay : Nat → Int) : Prop where
  /-- every product the loop computes for an attempt is an `int64` -/
  fits : ∀ n, 1 ≤ n → ∀ x ∈ products wrap64 max (n - 1) base, InBigint x
  mono : ∀ m n, 1 ≤ m → m ≤ n → delay m ≤ delay n
  between : ∀ n, 1 ≤ n → base ≤ delay n ∧ delay n ≤ max
  near : ∀ n, 1 ≤ n → |delay n - min (base * 2 ^ (n - 1)) max| ≤ 1

theorem DelayRange.wrap64_eq {base max : Int} (h : DelayRange base max) (x : Int) (hpos : 0 < x)
    (hmax : x ≤ max) : wrap64 x = x := by
  have hfits := h.fits
  refine OrderSystem.wrap64_eq ⟨?_, ?_⟩
  · omega
  · omega

theorem DelayRange.cappedDoubling {base max : Int} (h : DelayRange base max) {delay : Nat → Int}
    (hdelay : ∀ n, delay n = doubled wrap64 max (n - 1) base) :
    CappedDoubling base max delay := by
  constructor
  · intro n _ x hx
    have hx := products_le_cap h.wrap64_eq (n - 1) h.pos x hx
    have hfits := h.fits
    exact ⟨by omega, by omega⟩
  · intro m n _ hmn
    rw [hdelay, hdelay]
    exact doubled_mono h.wrap64_eq h.pos h.le (by omega)
  · intro n _
    rw [hdelay]
    exact doubled_between h.wrap64_eq (n - 1) h.pos h.le
  · intro n _
    rw [hdelay, abs_le]
    have hnear := doubled_near h.wrap64_eq (n - 1) h.pos h.le
    exact ⟨by linarith [hnear.1], by linarith [hnear.2]⟩

/-- Every normalised configuration of the reconciliation worker and of the client backs off by
capped doubling. -/
theorem backoffs_capped (given : DryRun.Settings) (unixNano : Int) (policy : RetryPolicy)
    (hgiven : InBigint given.retryDelay ∧ InBigint given.maxRetryDelay)
    (hpolicy : InBigint policy.baseBackoff ∧ InBigint policy.maxBackoff) :
    CappedDoubling (given.normalized unixNano).retryDelay (given.normalized unixNano).maxRetryDelay
        (given.normalized unixNano).retryDelayFor ∧
      CappedDoubling policy.normalized.baseBackoff policy.normalized.maxBackoff
        (fun attempt => backoff policy.normalized attempt) := by
  constructor
  · exact (delayRange_settings hgiven.1 hgiven.2 unixNano).cappedDoubling (retryDelayFor_eq _)
  · exact (delayRange_policy hpolicy.2).cappedDoubling (backoff_eq _)

/-- An odd maximum, and one that leaves no room for a double. -/
theorem backoffs_capped_odd :
    CappedDoubling 1 3 (DryRun.Settings.normalized ⟨[], 1, 3, 0, 0⟩ 0).retryDelayFor ∧
      CappedDoubling maxInt64 maxInt64
        (fun attempt => backoff (RetryPolicy.normalized ⟨3, maxInt64, maxInt64, 0⟩) attempt) :=
  backoffs_capped ⟨[], 1, 3, 0, 0⟩ 0 ⟨3, maxInt64, maxInt64, 0⟩ (by decide) (by decide)

example : [1, 2, 3, 4].map (backoff ⟨4, 2, 9, 0⟩) = [2, 4, 9, 9] := by decide

end OrderSystem
