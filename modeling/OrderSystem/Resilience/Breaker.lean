/-
# The circuit breaker

`circuitBreaker` guards the calls to one operation of an upstream.  Closed, it counts failures
in a row and opens at `FailureThreshold`; open, it rejects calls for `OpenInterval`; the first
call after that makes it half-open, and half-open it admits up to `HalfOpenMaxProbes` calls at a
time as probes.  A probe that fails opens the circuit again, and the success of the last probe in
flight closes it.

What a call hands back to the breaker is one boolean, and what the breaker remembers of the call
is whether it was a probe.  It does not remember of which half-open period.  So the counter
`halfOpenInFlight` is the number of probes in flight only as long as no probe of an earlier
period comes back with a success while the circuit is half-open again: such an answer is taken
for one of a probe in flight.  That is the condition `OwnPeriod`; under it the counter is exact,
and the circuit closes on evidence of the current period only (`half_open_probes`).  With room
for a single probe there is no probe left when a period ends, and the condition always holds
(`ownPeriod_single`).

Every operation holds the breaker's mutex, so concurrent callers are a sequence of operations
(`step`).  A reading of the clock comes with the operation, and no order of the readings is
assumed.
-/
import OrderSystem.Kit.Run
import OrderSystem.Platform

namespace OrderSystem.Resilience

open Kit

/-! ## 1. The breaker -/

structure CircuitBreakerConfig where
  failureThreshold : Int
  openInterval : Int
  halfOpenMaxProbes : Int
  deriving DecidableEq

def CircuitBreakerConfig.normalized (cfg : CircuitBreakerConfig) : CircuitBreakerConfig where
  failureThreshold := if cfg.failureThreshold ≤ 0 then 5 else cfg.failureThreshold
  openInterval := if cfg.openInterval ≤ 0 then 5 * second else cfg.openInterval
  halfOpenMaxProbes := if cfg.halfOpenMaxProbes ≤ 0 then 1 else cfg.halfOpenMaxProbes

theorem CircuitBreakerConfig.normalized_probes (cfg : CircuitBreakerConfig) :
    1 ≤ cfg.normalized.halfOpenMaxProbes := by
  simp only [CircuitBreakerConfig.normalized]
  split <;> omega

inductive CircuitState where
  | circuitClosed
  | circuitOpen
  | circuitHalfOpen
  deriving DecidableEq

open CircuitState

structure CircuitOpenError where
  key : GoString
  retryAfter : Int
  deriving DecidableEq

structure CircuitBreaker where
  key : GoString
  cfg : CircuitBreakerConfig
  state : CircuitState
  consecutiveFailed : Int
  openedAt : Int
  halfOpenInFlight : Int
  deriving DecidableEq

def newCircuitBreaker (key : GoString) (cfg : CircuitBreakerConfig) : CircuitBreaker :=
  ⟨key, cfg.normalized, circuitClosed, 0, 0, 0⟩

namespace CircuitBreaker

/-- `acquire`: a rejection, or the completion function, which is its captured `probe`. -/
def acquire (breaker : CircuitBreaker) (now : Int) :
    CircuitBreaker × Except CircuitOpenError Bool :=
  let retryAt := breaker.openedAt + breaker.cfg.openInterval
  if breaker.state = circuitOpen ∧ now < retryAt then
    (breaker, .error ⟨breaker.key, retryAt - now⟩)
  else
    let breaker :=
      if breaker.state = circuitOpen then { breaker with state := circuitHalfOpen } else breaker
    if breaker.state = circuitHalfOpen then
      if breaker.cfg.halfOpenMaxProbes ≤ breaker.halfOpenInFlight then
        (breaker, .error ⟨breaker.key, breaker.cfg.openInterval⟩)
      else
        ({ breaker with halfOpenInFlight := breaker.halfOpenInFlight + 1 }, .ok true)
    else (breaker, .ok false)

def openLocked (breaker : CircuitBreaker) (now : Int) : CircuitBreaker :=
  { breaker with
    openedAt := now, consecutiveFailed := 0, halfOpenInFlight := 0, state := circuitOpen }

def complete (breaker : CircuitBreaker) (now : Int) (probe success : Bool) : CircuitBreaker :=
  if probe then
    if breaker.state ≠ circuitHalfOpen then breaker
    else
      let breaker :=
        if 0 < breaker.halfOpenInFlight then
          { breaker with halfOpenInFlight := breaker.halfOpenInFlight - 1 }
        else breaker
      if !success then breaker.openLocked now
      else if breaker.halfOpenInFlight = 0 then
        { breaker with consecutiveFailed := 0, state := circuitClosed }
      else breaker
  else if breaker.state ≠ circuitClosed then breaker
  else if success then { breaker with consecutiveFailed := 0 }
  else
    let breaker := { breaker with consecutiveFailed := breaker.consecutiveFailed + 1 }
    if breaker.cfg.failureThreshold ≤ breaker.consecutiveFailed then breaker.openLocked now
    else breaker

/-- What `acquire` can do. -/
inductive Acquires (b : CircuitBreaker) (now : Int) :
    CircuitBreaker × Except CircuitOpenError Bool → Prop where
  | rejected (hopen : b.state = circuitOpen) (hearly : now < b.openedAt + b.cfg.openInterval) :
      Acquires b now (b, .error ⟨b.key, b.openedAt + b.cfg.openInterval - now⟩)
  | full (hstate : b.state ≠ circuitClosed)
      (hfull : b.cfg.halfOpenMaxProbes ≤ b.halfOpenInFlight) :
      Acquires b now
        ({ b with state := circuitHalfOpen }, .error ⟨b.key, b.cfg.openInterval⟩)
  | probe (hstate : b.state ≠ circuitClosed)
      (hroom : b.halfOpenInFlight < b.cfg.halfOpenMaxProbes) :
      Acquires b now ({ b with state := circuitHalfOpen,
                               halfOpenInFlight := b.halfOpenInFlight + 1 }, .ok true)
  | closed (hstate : b.state = circuitClosed) : Acquires b now (b, .ok false)

theorem acquires (b : CircuitBreaker) (now : Int) : Acquires b now (b.acquire now) := by
  unfold acquire
  by_cases hearly : b.state = circuitOpen ∧ now < b.openedAt + b.cfg.openInterval
  · simp only [hearly, and_self, if_true]
    exact .rejected hearly.1 hearly.2
  · simp only [hearly, if_false]
    -- past the interval, the open circuit goes on as a half-open one
    by_cases hclosed : b.state = circuitClosed
    · simpa [hclosed] using Acquires.closed hclosed
    · have hhalf : (if b.state = circuitOpen then { b with state := circuitHalfOpen } else b) =
          { b with state := circuitHalfOpen } := by
        split
        · rfl
        · have hstate : b.state = circuitHalfOpen := by
            cases hs : b.state <;> simp_all
          rw [← hstate]
      simp only [hhalf, if_true]
      split
      · exact .full hclosed ‹_›
      · exact .probe hclosed (Int.not_le.mp ‹_›)

/-- The counter after a probe came back. -/
def probesLeft (b : CircuitBreaker) : Int :=
  if 0 < b.halfOpenInFlight then b.halfOpenInFlight - 1 else b.halfOpenInFlight

/-- What `complete` can do. -/
inductive Completes (b : CircuitBreaker) (now : Int) :
    (probe success : Bool) → CircuitBreaker → Prop where
  | late {success : Bool} (hstate : b.state ≠ circuitHalfOpen) : Completes b now true success b
  | probeFailed (hstate : b.state = circuitHalfOpen) :
      Completes b now true false (b.openLocked now)
  | probeMore (hstate : b.state = circuitHalfOpen) (hmore : b.probesLeft ≠ 0) :
      Completes b now true true { b with halfOpenInFlight := b.probesLeft }
  | probeLast (hstate : b.state = circuitHalfOpen) (hlast : b.probesLeft = 0) :
      Completes b now true true
        { b with halfOpenInFlight := 0, consecutiveFailed := 0, state := circuitClosed }
  | ignored {success : Bool} (hstate : b.state ≠ circuitClosed) :
      Completes b now false success b
  | succeeded (hstate : b.state = circuitClosed) :
      Completes b now false true { b with consecutiveFailed := 0 }
  | counted (hstate : b.state = circuitClosed)
      (hfew : b.consecutiveFailed + 1 < b.cfg.failureThreshold) :
      Completes b now false false { b with consecutiveFailed := b.consecutiveFailed + 1 }
  | tripped (hstate : b.state = circuitClosed)
      (hmany : b.cfg.failureThreshold ≤ b.consecutiveFailed + 1) :
      Completes b now false false (b.openLocked now)

theorem completes (b : CircuitBreaker) (now : Int) (probe success : Bool) :
    Completes b now probe success (b.complete now probe success) := by
  unfold complete
  cases probe with
  | true =>
    by_cases hstate : b.state = circuitHalfOpen
    · have hleft : (if 0 < b.halfOpenInFlight then
          { b with halfOpenInFlight := b.halfOpenInFlight - 1 } else b) =
          { b with halfOpenInFlight := b.probesLeft } := by
        unfold probesLeft
        split <;> rfl
      simp only [hleft]
      rw [if_pos trivial, if_neg (not_not.mpr hstate)]
      cases success with
      | false => exact .probeFailed hstate
      | true =>
        by_cases hlast : b.probesLeft = 0
        · simpa [hlast] using Completes.probeLast hstate hlast
        · simpa [hlast, hstate] using Completes.probeMore hstate hlast
    · simpa [hstate] using Completes.late hstate
  | false =>
    by_cases hstate : b.state = circuitClosed
    · simp only [hstate, ne_eq, not_true_eq_false, Bool.false_eq_true, if_false]
      cases success with
      | true => simpa [hstate] using Completes.succeeded hstate
      | false =>
        simp only [Bool.false_eq_true, if_false]
        split
        · exact .tripped hstate ‹_›
        · simpa [hstate] using Completes.counted hstate (Int.not_le.mp ‹_›)
    · simpa [hstate] using Completes.ignored hstate

variable {b : CircuitBreaker} {now : Int} {probe success : Bool}

/-- A half-open circuit closes on the success of a probe that is taken for the last one. -/
theorem complete_closes (hhalf : b.state = circuitHalfOpen)
    (hclosed : (b.complete now probe success).state = circuitClosed) :
    probe = true ∧ success = true ∧ b.probesLeft = 0 := by
  have hcomp := b.completes now probe success
  generalize b.complete now probe success = b' at hclosed hcomp
  cases hcomp with
  | probeLast hstate hlast => exact ⟨rfl, rfl, hlast⟩
  | late hstate => exact absurd hhalf hstate
  | probeFailed hstate | tripped hstate => cases hclosed
  | probeMore hstate | ignored hstate => cases hhalf.symm.trans hclosed
  | succeeded hstate | counted hstate => cases hhalf.symm.trans hstate

/-- `acquire` does not close the circuit. -/
theorem acquire_state (hclosed : (b.acquire now).1.state = circuitClosed) :
    (b.acquire now).1 = b := by
  have hacq := b.acquires now
  generalize b.acquire now = r at hclosed hacq
  cases hacq with
  | rejected hopen | closed hstate => rfl
  | full hstate | probe hstate => cases hclosed

/-- The circuit closes from half-open only. -/
theorem complete_closed_from (hstate : b.state ≠ circuitClosed)
    (hclosed : (b.complete now probe success).state = circuitClosed) :
    b.state = circuitHalfOpen := by
  by_contra hhalf
  have hsame : b.complete now probe success = b := by
    cases probe <;> simp [complete, hstate, hhalf]
  exact hstate (hsame ▸ hclosed)

/-- A closed circuit that stays closed loses its streak on a success outside any probe. -/
theorem complete_resets (hstate : b.state = circuitClosed)
    (hclosed : (b.complete now probe success).state = circuitClosed)
    (hless : (b.complete now probe success).consecutiveFailed < b.consecutiveFailed) :
    probe = false ∧ success = true ∧ b.consecutiveFailed ≠ 0 := by
  have hcomp := b.completes now probe success
  generalize b.complete now probe success = b' at hclosed hless hcomp
  cases hcomp with
  | succeeded => exact ⟨rfl, rfl, Int.ne_of_gt hless⟩
  | late | ignored => exact absurd hless (Int.lt_irrefl _)
  | counted hstate hfew =>
    simp only at hless
    omega
  | tripped => cases hclosed
  | probeFailed hhalf | probeMore hhalf | probeLast hhalf => cases hstate.symm.trans hhalf

end CircuitBreaker

/-! ## 2. Callers -/

/-- A call that was let through: whether as a probe, in which half-open period, and what it
reported. -/
structure Permit where
  probe : Bool
  period : Nat
  outcome : Option Bool
  deriving DecidableEq

/-- A breaker and the calls it let through.  `period` counts how often the circuit has become
half-open; the breaker does not know it. -/
structure Callers where
  breaker : CircuitBreaker
  period : Nat
  calls : List Permit
  deriving DecidableEq

inductive BreakerEvent where
  | acquire (now : Int)
  /-- the `i`-th call that was let through comes back -/
  | complete (i : Nat) (now : Int) (success : Bool)
  deriving DecidableEq

def Callers.start (key : GoString) (cfg : CircuitBreakerConfig) : Callers :=
  ⟨newCircuitBreaker key cfg, 0, []⟩

/-- The period after `acquire` made `breaker` of the breaker. -/
def Callers.periodAfter (s : Callers) (breaker : CircuitBreaker) : Nat :=
  if s.breaker.state ≠ circuitHalfOpen ∧ breaker.state = circuitHalfOpen then s.period + 1
  else s.period

/-- A completion function acts once (`sync.Once`). -/
def Callers.step (s : Callers) : BreakerEvent → Option Callers
  | .acquire now =>
    let (breaker, answer) := s.breaker.acquire now
    let period := s.periodAfter breaker
    match answer with
    | .ok probe => some ⟨breaker, period, s.calls ++ [⟨probe, period, none⟩]⟩
    | .error _ => some ⟨breaker, period, s.calls⟩
  | .complete i now success =>
    match s.calls[i]? with
    | some call =>
      if call.outcome = none then
        some { s with
          breaker := s.breaker.complete now call.probe success
          calls := s.calls.set i { call with outcome := some success } }
      else none
    | none => none

/-- A probe of the half-open period `n`. -/
def Permit.ProbeOf (n : Nat) (c : Permit) : Prop := c.probe = true ∧ c.period = n

instance (n : Nat) (c : Permit) : Decidable (c.ProbeOf n) := inferInstanceAs (Decidable (_ ∧ _))

/-- How many probes of the current half-open period are in flight. -/
def Callers.outstanding (s : Callers) : Nat :=
  s.calls.countP fun c => c.ProbeOf s.period ∧ c.outcome = none

/-- While the circuit is half-open, only probes of the current period report a success. -/
def OwnPeriod (s : Callers) : BreakerEvent → Prop
  | .acquire _ => True
  | .complete i _ success =>
    success = true → s.breaker.state = circuitHalfOpen →
      ∀ c ∈ s.calls[i]?, c.probe = true → c.period = s.period

instance (s : Callers) : (e : BreakerEvent) → Decidable (OwnPeriod s e)
  | .acquire _ => isTrue trivial
  | .complete _ _ _ => inferInstanceAs (Decidable (_ → _))

/-! ## 3. The counter -/

structure Probing (cfg : CircuitBreakerConfig) (s : Callers) : Prop where
  config : s.breaker.cfg = cfg
  /-- the counter is not in use -/
  idle : s.breaker.state ≠ circuitHalfOpen → s.breaker.halfOpenInFlight = 0
  exact : s.breaker.state = circuitHalfOpen → s.breaker.halfOpenInFlight = s.outstanding
  room : s.breaker.halfOpenInFlight ≤ cfg.halfOpenMaxProbes
  /-- a failure would have ended the period -/
  healthy : s.breaker.state = circuitHalfOpen →
    ∀ c ∈ s.calls, c.ProbeOf s.period → c.outcome ≠ some false
  past : ∀ c ∈ s.calls, c.period ≤ s.period

theorem probing_start (key : GoString) (cfg : CircuitBreakerConfig) :
    Probing cfg.normalized (Callers.start key cfg) where
  config := rfl
  idle _ := rfl
  exact h := nomatch h
  room := by
    have := cfg.normalized_probes
    simp only [Callers.start, newCircuitBreaker]
    omega
  healthy h := nomatch h
  past c hc := nomatch hc

theorem Callers.outstanding_append (b : CircuitBreaker) (n : Nat) (calls : List Permit)
    (probe : Bool) :
    (Callers.mk b n (calls ++ [⟨probe, n, none⟩])).outstanding =
      (Callers.mk b n calls).outstanding + if probe then 1 else 0 := by
  simp only [Callers.outstanding, List.countP_append, List.countP_singleton, Permit.ProbeOf]
  cases probe <;> simp

variable {cfg : CircuitBreakerConfig} {s s' : Callers} {now : Int} {i : Nat} {success : Bool}
  {e : BreakerEvent}

/-- Before the first probe of a period, none of it is in flight and none of it has failed. -/
theorem Probing.enter (hs : Probing cfg s) (hstate : s.breaker.state ≠ circuitHalfOpen) :
    s.breaker.halfOpenInFlight = (Callers.mk s.breaker (s.period + 1) s.calls).outstanding ∧
      ∀ c ∈ s.calls, c.ProbeOf (s.period + 1) → c.outcome ≠ some false := by
  have hfresh : ∀ c ∈ s.calls, ¬ c.ProbeOf (s.period + 1) := by
    rintro c hc ⟨-, hperiod⟩
    have := hs.past c hc
    omega
  constructor
  · rw [hs.idle hstate, Callers.outstanding, eq_comm, Int.natCast_eq_zero, List.countP_eq_zero]
    intro c hc
    simp [hfresh c hc]
  · intro c hc hprobe
    exact absurd hprobe (hfresh c hc)

/-- A call is let through in the period `n`: the counter goes with the probes. -/
theorem Probing.letThrough {b : CircuitBreaker} {n : Nat} {calls : List Permit}
    (hconfig : b.cfg = cfg) (hexact : b.halfOpenInFlight = (Callers.mk b n calls).outstanding)
    (hroom : b.halfOpenInFlight < cfg.halfOpenMaxProbes)
    (hhealthy : ∀ c ∈ calls, c.ProbeOf n → c.outcome ≠ some false)
    (hpast : ∀ c ∈ calls, c.period ≤ n) :
    Probing cfg ⟨{ b with state := circuitHalfOpen, halfOpenInFlight := b.halfOpenInFlight + 1 }, n,
      calls ++ [⟨true, n, none⟩]⟩ where
  config := hconfig
  idle hne := absurd rfl hne
  exact _ := by
    rw [Callers.outstanding_append, if_pos rfl, Nat.cast_add]
    exact congrArg (· + 1) hexact
  room := hroom
  healthy _ c hc hprobe := by
    rcases List.mem_append.mp hc with hc | hc
    · exact hhealthy c hc hprobe
    · simp [List.mem_singleton.mp hc]
  past c hc := by
    rcases List.mem_append.mp hc with hc | hc
    · exact hpast c hc
    · simp [List.mem_singleton.mp hc]

theorem probing_acquire (hcfg : 1 ≤ cfg.halfOpenMaxProbes) (hs : Probing cfg s)
    (h : s.step (.acquire now) = some s') :
    Probing cfg s' := by
  have hacq := s.breaker.acquires now
  simp only [Callers.step] at h
  generalize s.breaker.acquire now = r at h hacq
  cases hacq with
  | rejected hopen hearly =>
    simp only [Callers.periodAfter, hopen, reduceCtorEq, and_false, if_false] at h
    obtain rfl := Option.some.inj h
    exact hs
  | full hstate hfull =>
    rw [hs.config] at hfull
    by_cases hhalf : s.breaker.state = circuitHalfOpen
    · simp only [Callers.periodAfter, hhalf, ne_eq, not_true_eq_false, false_and, if_false] at h
      rw [← hhalf] at h
      obtain rfl := Option.some.inj h
      exact hs
    · -- there is room when the period begins
      have := hs.idle hhalf
      omega
  | probe hstate hroom =>
    rw [hs.config] at hroom
    simp only [Callers.periodAfter, and_true] at h
    obtain rfl := Option.some.inj h
    by_cases hhalf : s.breaker.state = circuitHalfOpen
    · rw [if_neg (not_not.mpr hhalf)]
      exact .letThrough hs.config (hs.exact hhalf) hroom (hs.healthy hhalf) hs.past
    · rw [if_pos hhalf]
      obtain ⟨hzero, hnone⟩ := hs.enter hhalf
      exact .letThrough hs.config hzero hroom hnone fun c hc => (hs.past c hc).trans (Nat.le_succ _)
  | closed hstate =>
    simp only [Callers.periodAfter, hstate, reduceCtorEq, and_false, if_false] at h
    obtain rfl := Option.some.inj h
    refine ⟨hs.config, hs.idle, fun hhalf => ?_, hs.room, fun hhalf => ?_, fun c hc => ?_⟩
    · cases hstate.symm.trans hhalf
    · cases hstate.symm.trans hhalf
    · rcases List.mem_append.mp hc with hc | hc
      · exact hs.past c hc
      · simp [List.mem_singleton.mp hc]

/-- The breaker after a call of `acquire`. -/
theorem step_acquire (h : s.step (.acquire now) = some s') :
    s'.breaker = (s.breaker.acquire now).1 := by
  simp only [Callers.step] at h
  split at h <;> exact (Option.some.inj h) ▸ rfl

/-- What the step of a completion is. -/
theorem step_complete (h : s.step (.complete i now success) = some s') :
    ∃ c, s.calls[i]? = some c ∧ c.outcome = none ∧
      s' = { s with breaker := s.breaker.complete now c.probe success,
                    calls := s.calls.set i { c with outcome := some success } } := by
  simp only [Callers.step] at h
  split at h
  · rename_i c hc
    split at h
    · exact ⟨c, hc, ‹_›, (Option.some.inj h).symm⟩
    · cases h
  · cases h

/-- A probe of the current period that comes back is one less in flight. -/
theorem Callers.outstanding_set {c : Permit} (success : Bool) (b : CircuitBreaker)
    (hc : s.calls[i]? = some c) (hnone : c.outcome = none) :
    (Callers.mk b s.period (s.calls.set i { c with outcome := some success })).outstanding +
      (if c.ProbeOf s.period then 1 else 0) = s.outstanding := by
  obtain ⟨hi, hget⟩ := List.getElem?_eq_some_iff.mp hc
  have hmem : (if c.ProbeOf s.period then 1 else 0) ≤ s.outstanding := by
    split
    · exact List.countP_pos_iff.mpr ⟨c, List.mem_of_getElem? hc, by simp [*]⟩
    · exact Nat.zero_le _
  simp only [Callers.outstanding, List.countP_set hi, hget, hnone, reduceCtorEq, and_false,
    and_true, decide_false, Bool.false_eq_true, if_false, decide_eq_true_eq] at hmem ⊢
  omega

/-- Outside a half-open period the counter is zero, and the probes do not matter. -/
theorem Probing.outside {b : CircuitBreaker} {n : Nat} {calls : List Permit}
    (hcfg : 1 ≤ cfg.halfOpenMaxProbes) (hconfig : b.cfg = cfg) (hstate : b.state ≠ circuitHalfOpen)
    (hzero : b.halfOpenInFlight = 0) (hpast : ∀ c ∈ calls, c.period ≤ n) :
    Probing cfg ⟨b, n, calls⟩ where
  config := hconfig
  idle _ := hzero
  exact hhalf := absurd hhalf hstate
  room := by
    simp only [hzero]
    omega
  healthy hhalf := absurd hhalf hstate
  past := hpast

theorem probing_complete {cfg : CircuitBreakerConfig} (hcfg : 1 ≤ cfg.halfOpenMaxProbes)
    {s s' : Callers} {i : Nat} {now : Int} {success : Bool} (hs : Probing cfg s)
    (hown : OwnPeriod s (.complete i now success))
    (h : s.step (.complete i now success) = some s') : Probing cfg s' := by
  obtain ⟨c, hc, hnone, rfl⟩ := step_complete h
  have hcount (b : CircuitBreaker) := Callers.outstanding_set success b hc hnone
  have hset : ∀ d ∈ s.calls.set i { c with outcome := some success },
      d ∈ s.calls ∨ d = { c with outcome := some success } :=
    fun d hd => List.mem_or_eq_of_mem_set hd
  generalize s.calls.set i { c with outcome := some success } = calls at hcount hset ⊢
  have hpast : ∀ d ∈ calls, d.period ≤ s.period := by
    intro d hd
    rcases hset d hd with hd | rfl
    · exact hs.past d hd
    · exact hs.past c (List.mem_of_getElem? hc)
  have hcomp := s.breaker.completes now c.probe success
  generalize s.breaker.complete now c.probe success = b at hcomp
  generalize hprobe : c.probe = probe at hcomp
  cases hcomp with
  | late hstate => exact .outside hcfg hs.config hstate (hs.idle hstate) hpast
  | probeFailed hstate | tripped hstate hmany =>
    exact .outside hcfg hs.config (by simp [CircuitBreaker.openLocked]) rfl hpast
  | probeLast hstate hlast => exact .outside hcfg hs.config (by simp) rfl hpast
  | succeeded hstate | counted hstate hfew =>
    have hne : s.breaker.state ≠ circuitHalfOpen := by simp [hstate]
    exact .outside hcfg hs.config hne (hs.idle hne) hpast
  | probeMore hstate hmore =>
    -- a probe of the current period: one less in flight, and one less on the counter
    have hcurrent : c.ProbeOf s.period := ⟨hprobe, hown rfl hstate c hc hprobe⟩
    have hleft := hcount { s.breaker with halfOpenInFlight := s.breaker.probesLeft }
    rw [if_pos hcurrent] at hleft
    have hexact := hs.exact hstate
    have hroom := hs.room
    have hprobes : s.breaker.probesLeft = s.breaker.halfOpenInFlight - 1 :=
      if_pos (by omega)
    refine ⟨hs.config, fun hne => absurd hstate hne, fun _ => ?_, ?_, fun _ d hd hd' => ?_, hpast⟩
    · simp only [hprobes] at hleft ⊢
      omega
    · simp only [hprobes]
      omega
    · rcases hset d hd with hd | rfl
      · exact hs.healthy hstate d hd hd'
      · simp
  | ignored hstate =>
    -- not a probe: nothing changes
    have hother : ¬ c.ProbeOf s.period := by simp [Permit.ProbeOf, hprobe]
    have hsame := hcount s.breaker
    rw [if_neg hother, Nat.add_zero] at hsame
    refine ⟨hs.config, hs.idle, fun hhalf => ?_, hs.room, fun hhalf d hd hd' => ?_, hpast⟩
    · rw [hsame]
      exact hs.exact hhalf
    · rcases hset d hd with hd | rfl
      · exact hs.healthy hhalf d hd hd'
      · exact absurd hd' hother

theorem probing_step (hcfg : 1 ≤ cfg.halfOpenMaxProbes) (hs : Probing cfg s) (hown : OwnPeriod s e)
    (h : s.step e = some s') : Probing cfg s' := by
  cases e with
  | acquire now => exact probing_acquire hcfg hs h
  | complete i now success => exact probing_complete hcfg hs hown h

/-! ## 4. Closing the circuit -/

/-- **A half-open circuit closes** when a probe of its period reports a success, all the others
having done so before. -/
theorem Probing.closes (hs : Probing cfg s) (hown : OwnPeriod s e) (h : s.step e = some s')
    (hhalf : s.breaker.state = circuitHalfOpen) (hclosed : s'.breaker.state = circuitClosed) :
    (∃ c ∈ s'.calls, c.ProbeOf s.period ∧ c.outcome = some true) ∧
      ∀ c ∈ s'.calls, c.ProbeOf s.period → c.outcome = some true := by
  cases e with
  | acquire now =>
    rw [step_acquire h] at hclosed
    rw [CircuitBreaker.acquire_state hclosed, hhalf] at hclosed
    cases hclosed
  | complete i now success =>
    obtain ⟨c, hc, hnone, rfl⟩ := step_complete h
    obtain ⟨hprobe, rfl, hlast⟩ := CircuitBreaker.complete_closes hhalf hclosed
    have hcurrent : c.ProbeOf s.period := ⟨hprobe, hown rfl hhalf c hc hprobe⟩
    have hcount := Callers.outstanding_set true s.breaker hc hnone
    rw [if_pos hcurrent] at hcount
    -- the counter is exact, so the one that comes back is the last one
    have hexact := hs.exact hhalf
    have hzero : (Callers.mk s.breaker s.period
        (s.calls.set i { c with outcome := some true })).outstanding = 0 := by
      unfold CircuitBreaker.probesLeft at hlast
      split at hlast <;> omega
    obtain ⟨hi, -⟩ := List.getElem?_eq_some_iff.mp hc
    refine ⟨⟨_, List.mem_set hi _, hcurrent, rfl⟩, fun d hd hd' => ?_⟩
    have hdone : d.outcome ≠ none := by
      intro hpending
      have := List.countP_eq_zero.mp hzero d hd
      simp [hd', hpending] at this
    rcases List.mem_or_eq_of_mem_set hd with hmem | rfl
    · have hgood := hs.healthy hhalf d hmem hd'
      match hout : d.outcome with
      | none => exact absurd hout hdone
      | some true => rfl
      | some false => exact absurd hout hgood
    · rfl

/-- **Probes belong to their period.**  Half-open, the counter is the number of probes of the
current period in flight, and at most `HalfOpenMaxProbes`; the circuit closes when the probes of
the period, and there was one, have all succeeded. -/
theorem half_open_probes {key : GoString} {cfg : CircuitBreakerConfig} {es : List BreakerEvent}
    {s : Callers} (hrun : run Callers.step (Callers.start key cfg) es = some s)
    (hown : Meets OwnPeriod Callers.step (Callers.start key cfg) es) :
    (s.breaker.state = circuitHalfOpen →
      (s.outstanding : Int) ≤ cfg.normalized.halfOpenMaxProbes ∧
        (s.outstanding : Int) = s.breaker.halfOpenInFlight) ∧
      ∀ e s', s.step e = some s' → OwnPeriod s e → s.breaker.state = circuitHalfOpen →
        s'.breaker.state = circuitClosed →
          (∃ c ∈ s'.calls, c.ProbeOf s.period ∧ c.outcome = some true) ∧
            ∀ c ∈ s'.calls, c.ProbeOf s.period → c.outcome = some true := by
  have hinv : Probing cfg.normalized s :=
    run_invariant_of (fun _ _ _ hs ho hstep => probing_step cfg.normalized_probes hs ho hstep)
      (probing_start key cfg) hown hrun
  constructor
  · intro hhalf
    rw [← hinv.exact hhalf]
    exact ⟨hinv.room, rfl⟩
  · intro e s' hstep ho hhalf hclosed
    exact hinv.closes ho hstep hhalf hclosed

/-- One failure opens the circuit, and two probes may be in flight. -/
def twoProbes : CircuitBreakerConfig := ⟨1, 1, 2⟩

/-- The circuit opens; two probes are let through, and the first one succeeds. -/
def oneBack : List BreakerEvent :=
  [.acquire 0, .complete 0 0 false, .acquire 1, .acquire 1, .complete 1 2 true]

/-- The state after it: one probe is in flight. -/
def oneLeft : Callers :=
  ⟨⟨[], twoProbes, circuitHalfOpen, 0, 0, 1⟩, 1,
    [⟨false, 0, some false⟩, ⟨true, 1, some true⟩, ⟨true, 1, none⟩]⟩

theorem half_open_probes_oneBack :
    run Callers.step (Callers.start [] twoProbes) oneBack = some oneLeft ∧
      (oneLeft.outstanding : Int) = oneLeft.breaker.halfOpenInFlight ∧
      ∀ s', oneLeft.step (.complete 2 3 true) = some s' → s'.breaker.state = circuitClosed →
        ∀ c ∈ s'.calls, c.ProbeOf 1 → c.outcome = some true := by
  have hrun : run Callers.step (Callers.start [] twoProbes) oneBack = some oneLeft := by decide
  obtain ⟨hcount, hcloses⟩ := half_open_probes hrun (by decide)
  refine ⟨hrun, (hcount rfl).2, fun s' hstep hclosed => ?_⟩
  exact (hcloses _ s' hstep (by decide) rfl hclosed).2

/-- Of two probes, the second one fails and opens the circuit; a probe of the next half-open
period is let through. -/
def nextPeriod : List BreakerEvent :=
  [.acquire 0, .complete 0 0 false, .acquire 1, .acquire 1, .complete 2 1 false, .acquire 2]

/-- The first probe of the first period is still in flight. -/
def staleProbe : Callers :=
  ⟨⟨[], twoProbes, circuitHalfOpen, 0, 1, 1⟩, 2,
    [⟨false, 0, some false⟩, ⟨true, 1, none⟩, ⟨true, 1, some false⟩, ⟨true, 2, none⟩]⟩

/-- Its success closes the circuit, while the only probe of the current period is in flight. -/
theorem half_open_probes_stale :
    run Callers.step (Callers.start [] twoProbes) nextPeriod = some staleProbe ∧
      staleProbe.breaker.state = circuitHalfOpen ∧
      staleProbe.step (.complete 1 2 true) = some
        ⟨⟨[], twoProbes, circuitClosed, 0, 1, 0⟩, 2,
          [⟨false, 0, some false⟩, ⟨true, 1, some true⟩, ⟨true, 1, some false⟩,
            ⟨true, 2, none⟩]⟩ := by
  refine ⟨?_, ?_, ?_⟩ <;> decide

/-! ## 5. A single probe -/

/-- With room for one probe, a probe in flight is of the current period, which has not ended. -/
structure Lone (cfg : CircuitBreakerConfig) (s : Callers) : Prop extends Probing cfg s where
  lone : ∀ c ∈ s.calls, c.probe = true → c.outcome = none →
    c.period = s.period ∧ s.breaker.state = circuitHalfOpen

theorem Lone.ownPeriod (hs : Lone cfg s) (h : s.step e = some s') : OwnPeriod s e := by
  cases e with
  | acquire now => trivial
  | complete i now success =>
    obtain ⟨c, hc, hnone, -⟩ := step_complete h
    intro _ _ d hd hprobe
    obtain rfl := Option.some.inj (hc.symm.trans hd)
    exact (hs.lone c (List.mem_of_getElem? hc) hprobe hnone).1

/-- No probe is in flight. -/
theorem Lone.of_zero (hs : Lone cfg s) (hzero : s.breaker.halfOpenInFlight = 0) {c : Permit}
    (hc : c ∈ s.calls) (hprobe : c.probe = true) : c.outcome ≠ none := by
  intro hnone
  obtain ⟨hperiod, hhalf⟩ := hs.lone c hc hprobe hnone
  have hcount := hs.exact hhalf
  rw [hzero, eq_comm, Int.natCast_eq_zero] at hcount
  have := List.countP_eq_zero.mp hcount c hc
  simp [Permit.ProbeOf, hprobe, hperiod, hnone] at this

theorem lone_acquire (hcfg : cfg.halfOpenMaxProbes = 1) (hs : Lone cfg s)
    (h : s.step (.acquire now) = some s') :
    Lone cfg s' := by
  refine ⟨probing_acquire (by omega) hs.toProbing h, fun c hc hprobe hnone => ?_⟩
  have hacq := s.breaker.acquires now
  simp only [Callers.step] at h
  generalize s.breaker.acquire now = r at h hacq
  cases hacq with
  | rejected hopen hearly =>
    obtain rfl := Option.some.inj h
    cases hopen.symm.trans (hs.lone c hc hprobe hnone).2
  | full hstate hfull =>
    obtain rfl := Option.some.inj h
    obtain ⟨hperiod, hhalf⟩ := hs.lone c hc hprobe hnone
    simp only [Callers.periodAfter, hhalf, ne_eq, not_true_eq_false, false_and, if_false]
    exact ⟨hperiod, trivial⟩
  | probe hstate hroom =>
    obtain rfl := Option.some.inj h
    rw [hs.config, hcfg] at hroom
    -- a probe is let through when there is none
    have hzero : s.breaker.halfOpenInFlight = 0 := by
      by_cases hhalf : s.breaker.state = circuitHalfOpen
      · have := hs.exact hhalf
        omega
      · exact hs.idle hhalf
    rcases List.mem_append.mp hc with hc | hc
    · exact absurd hnone (hs.of_zero hzero hc hprobe)
    · obtain rfl := List.mem_singleton.mp hc
      exact ⟨rfl, rfl⟩
  | closed hstate =>
    obtain rfl := Option.some.inj h
    rcases List.mem_append.mp hc with hc | hc
    · cases hstate.symm.trans (hs.lone c hc hprobe hnone).2
    · obtain rfl := List.mem_singleton.mp hc
      cases hprobe

theorem lone_complete (hcfg : cfg.halfOpenMaxProbes = 1) (hs : Lone cfg s)
    (h : s.step (.complete i now success) = some s') : Lone cfg s' := by
  refine ⟨probing_complete (by omega) hs.toProbing (hs.ownPeriod h) h, fun d hd hprobe hnone => ?_⟩
  obtain ⟨c, hc, hpending, rfl⟩ := step_complete h
  rcases List.mem_or_eq_of_mem_set hd with hmem | rfl
  swap
  · cases hnone
  obtain ⟨hperiod, hhalf⟩ := hs.lone d hmem hprobe hnone
  cases hc' : c.probe with
  | true =>
    -- two probes in flight, `c` and `d`, are too many
    have hcurrent : c.ProbeOf s.period :=
      ⟨hc', (hs.lone c (List.mem_of_getElem? hc) hc' hpending).1⟩
    have hcount := Callers.outstanding_set success s.breaker hc hpending
    rw [if_pos hcurrent] at hcount
    have hpos : 0 < (Callers.mk s.breaker s.period
        (s.calls.set i { c with outcome := some success })).outstanding :=
      List.countP_pos_iff.mpr ⟨d, hd, by simp [Permit.ProbeOf, hprobe, hperiod, hnone]⟩
    have hexact := hs.exact hhalf
    have hroom := hs.room
    omega
  | false =>
    have hsame : s.breaker.complete now false success = s.breaker := by
      simp [CircuitBreaker.complete, hhalf]
    rw [hsame]
    exact ⟨hperiod, hhalf⟩

/-- **With a single probe** at a time, only probes of the current period report back while the
circuit is half-open. -/
theorem ownPeriod_single {key : GoString} (hcfg : cfg.normalized.halfOpenMaxProbes = 1)
    {es : List BreakerEvent} (hrun : run Callers.step (Callers.start key cfg) es = some s) :
    Meets OwnPeriod Callers.step (Callers.start key cfg) es := by
  have hstart : Lone cfg.normalized (Callers.start key cfg) :=
    ⟨probing_start key cfg, fun c hc => nomatch hc⟩
  generalize Callers.start key cfg = s₀ at hrun hstart
  induction es generalizing s₀ with
  | nil => trivial
  | cons e es ih =>
    obtain ⟨t, hstep, hrest⟩ := run_cons.mp hrun
    refine ⟨hstart.ownPeriod hstep, fun t' ht' => ?_⟩
    obtain rfl := Option.some.inj (hstep.symm.trans ht')
    refine ih t hrest ?_
    cases e with
    | acquire now => exact lone_acquire hcfg hstart hstep
    | complete i now success => exact lone_complete hcfg hstart hstep

end OrderSystem.Resilience
