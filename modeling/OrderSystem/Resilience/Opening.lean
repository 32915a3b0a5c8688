/-
# When the circuit opens, and how it stays open

The breaker counts failures in a row, and forgets the count in three places: on a success, when
it opens and when it closes.  What it counts are the completions that are not of probes, in the
order in which they are processed and whenever the calls were let through.  `reports` is the list
of these completions since the circuit last became closed, and the counter of a closed circuit is
the length of the run of failures at the end of this list (`Counting`).  So the circuit opens
exactly when the last `FailureThreshold` entries are failures.

Once it is open, nothing but a call of `acquire` after `OpenInterval` changes the breaker
(`run_open`).
-/
import OrderSystem.Resilience.Breaker

namespace OrderSystem.Resilience

open Kit CircuitState

/-! ## 1. Failures in a row -/

/-- The number of failures at the end of a list of outcomes. -/
def streak (outcomes : List Bool) : Nat := (outcomes.reverse.takeWhile (!·)).length

@[simp] theorem streak_nil : streak [] = 0 := rfl

@[simp] theorem streak_success (outcomes : List Bool) : streak (outcomes ++ [true]) = 0 := by
  simp [streak]

@[simp] theorem streak_failure (outcomes : List Bool) :
    streak (outcomes ++ [false]) = streak outcomes + 1 := by
  simp [streak]

/-- The last `n` outcomes are failures exactly when the streak is that long. -/
theorem replicate_suffix_iff (n : Nat) (outcomes : List Bool) :
    List.replicate n false <:+ outcomes ↔ n ≤ streak outcomes := by
  induction outcomes using List.reverseRecOn generalizing n with
  | nil => simp
  | append_singleton outcomes last ih =>
    cases n with
    | zero => simp
    | succ n =>
      -- read from the end, the last outcome is the first one
      rw [← List.reverse_prefix, List.reverse_replicate, List.reverse_append, List.replicate_succ,
        List.reverse_singleton, List.singleton_append, List.cons_prefix_cons,
        ← List.reverse_replicate, List.reverse_prefix, ih]
      cases last with
      | true => simp
      | false => simp

/-! ## 2. The completions since the circuit became closed -/

/-- The list after an event that makes `s'` of `s`. -/
def noteReport (s s' : Callers) (e : BreakerEvent) (reports : List Bool) : List Bool :=
  match e with
  | .acquire _ => reports
  | .complete i _ success =>
    if s.breaker.state ≠ circuitClosed ∧ s'.breaker.state = circuitClosed then []
    else if (s.calls[i]?.map (·.probe)) = some false then reports ++ [success]
    else reports

/-- The outcomes of the completions, other than of probes, that are processed in a run since the
circuit last became closed; `before` are those at the beginning of the run. -/
def reports : Callers → List Bool → List BreakerEvent → List Bool
  | _, before, [] => before
  | s, before, e :: es =>
    match s.step e with
    | some s' => reports s' (noteReport s s' e before) es
    | none => before

/-- The counter of a closed circuit is the streak. -/
structure Counting (cfg : CircuitBreakerConfig) (outcomes : List Bool) (s : Callers) : Prop where
  config : s.breaker.cfg = cfg
  counter : s.breaker.state = circuitClosed → s.breaker.consecutiveFailed = streak outcomes

theorem counting_start (key : GoString) (cfg : CircuitBreakerConfig) :
    Counting cfg.normalized [] (Callers.start key cfg) :=
  ⟨rfl, fun _ => rfl⟩

theorem acquire_cfg (b : CircuitBreaker) (now : Int) : (b.acquire now).1.cfg = b.cfg := by
  have hacq := b.acquires now
  generalize b.acquire now = r at hacq
  cases hacq <;> rfl

theorem complete_cfg (b : CircuitBreaker) (now : Int) (probe success : Bool) :
    (b.complete now probe success).cfg = b.cfg := by
  have hcomp := b.completes now probe success
  generalize b.complete now probe success = b' at hcomp
  cases hcomp <;> rfl

variable {cfg : CircuitBreakerConfig} {s s' : Callers} {e : BreakerEvent} {b : CircuitBreaker}

theorem counting_step {outcomes : List Bool} (hs : Counting cfg outcomes s) (h : s.step e = some s')
    :
    Counting cfg (noteReport s s' e outcomes) s' := by
  cases e with
  | acquire now =>
    have hbreaker := step_acquire h
    refine ⟨by rw [hbreaker, acquire_cfg, hs.config], fun hclosed => ?_⟩
    -- `acquire` does not close the circuit, and leaves a closed one as it is
    rw [hbreaker] at hclosed ⊢
    have hsame := CircuitBreaker.acquire_state hclosed
    rw [hsame] at hclosed ⊢
    exact hs.counter hclosed
  | complete i now success =>
    obtain ⟨c, hc, -, rfl⟩ := step_complete h
    refine ⟨by rw [complete_cfg, hs.config], fun hclosed => ?_⟩
    simp only [noteReport, hc, Option.map_some, Option.some.injEq]
    have hcomp := s.breaker.completes now c.probe success
    generalize hprobe : c.probe = probe at hcomp hclosed ⊢
    generalize s.breaker.complete now probe success = b at hcomp hclosed ⊢
    cases hcomp with
    | late hstate =>
      have hbefore : s.breaker.state = circuitClosed := hclosed
      simpa [hbefore] using hs.counter hbefore
    | probeFailed hstate | tripped hstate hmany => cases hclosed
    | probeMore hstate hmore => cases hstate.symm.trans hclosed
    | probeLast hstate hlast => simp [hstate]
    | ignored hstate => exact absurd hclosed hstate
    | succeeded hstate => simp [hstate]
    | counted hstate hfew => simp [hstate, hs.counter hstate]

theorem counting_run {es : List BreakerEvent} :
    ∀ {before : List Bool} {s s' : Callers}, Counting cfg before s →
      run Callers.step s es = some s' → Counting cfg (reports s before es) s' := by
  induction es with
  | nil =>
    intro before s s' hs hrun
    obtain rfl := Option.some.inj hrun
    exact hs
  | cons e es ih =>
    intro before s s' hs hrun
    obtain ⟨t, hstep, hrest⟩ := run_cons.mp hrun
    simp only [reports, hstep]
    exact ih (counting_step hs hstep) hrest

/-- **A completion of a closed circuit**, not of a probe, opens it exactly when the last
`FailureThreshold` completions are failures. -/
theorem Counting.opens_iff {outcomes : List Bool} {i : Nat} {now : Int} {success : Bool}
    {c : Permit} (hs : Counting cfg outcomes s) (hthreshold : 0 < cfg.failureThreshold)
    (hclosed : s.breaker.state = circuitClosed) (hc : s.calls[i]? = some c)
    (hprobe : c.probe = false) (h : s.step (.complete i now success) = some s') :
    s'.breaker.state = circuitOpen ↔
      List.replicate cfg.failureThreshold.toNat false <:+ outcomes ++ [success] := by
  obtain ⟨c', hc', -, rfl⟩ := step_complete h
  obtain rfl := Option.some.inj (hc.symm.trans hc')
  have hcounter := hs.counter hclosed
  rw [replicate_suffix_iff]
  have hcomp := s.breaker.completes now c.probe success
  dsimp only
  generalize s.breaker.complete now c.probe success = b at hcomp ⊢
  rw [hprobe] at hcomp
  cases hcomp with
  | ignored hstate => exact absurd hclosed hstate
  | succeeded hstate =>
    rw [streak_success]
    simp only [hstate, reduceCtorEq, false_iff]
    omega
  | counted hstate hfew =>
    rw [hs.config] at hfew
    rw [streak_failure]
    simp only [hstate, reduceCtorEq, false_iff]
    omega
  | tripped hstate hmany =>
    rw [hs.config] at hmany
    rw [streak_failure]
    simp only [CircuitBreaker.openLocked, true_iff]
    omega

/-! ## 3. An open circuit -/

/-- A call of `acquire` reads a time before `retryAt`. -/
def Early (retryAt : Int) (_ : Callers) : BreakerEvent → Prop
  | .acquire now => now < retryAt
  | .complete _ _ _ => True

instance (retryAt : Int) (s : Callers) : (e : BreakerEvent) → Decidable (Early retryAt s e)
  | .acquire _ => inferInstanceAs (Decidable (_ < _))
  | .complete _ _ _ => isTrue trivial

/-- Before the interval has passed, an open circuit rejects every call and tells the time that
remains. -/
theorem acquire_open {now : Int} (hopen : b.state = circuitOpen)
    (hearly : now < b.openedAt + b.cfg.openInterval) :
    b.acquire now = (b, .error ⟨b.key, b.openedAt + b.cfg.openInterval - now⟩) := by
  simp only [CircuitBreaker.acquire, hopen, hearly, and_self, if_true]

theorem step_open (hopen : b.state = circuitOpen) (hs : s.breaker = b)
    (hearly : Early (b.openedAt + b.cfg.openInterval) s e) (h : s.step e = some s') :
    s'.breaker = b := by
  subst hs
  cases e with
  | acquire now => rw [step_acquire h, acquire_open hopen hearly]
  | complete i now success =>
    obtain ⟨c, hc, -, rfl⟩ := step_complete h
    cases hprobe : c.probe <;> simp [CircuitBreaker.complete, hopen]

/-- **An open circuit stays as it is**, whatever completes, until `acquire` reads a time after
the interval. -/
theorem run_open (hopen : b.state = circuitOpen) {es : List BreakerEvent} (hs : s.breaker = b)
    (hearly : Meets (Early (b.openedAt + b.cfg.openInterval)) Callers.step s es)
    (h : run Callers.step s es = some s') : s'.breaker = b :=
  run_invariant_of (I := fun t : Callers => t.breaker = b)
    (fun _ _ _ hs hearly hstep => step_open hopen hs hearly hstep) hs hearly h

/-- The circuit opens by a completion, and at the time it reads. -/
theorem step_opens (hnot : s.breaker.state ≠ circuitOpen) (h : s.step e = some s')
    (hopen : s'.breaker.state = circuitOpen) :
    ∃ i now success, e = .complete i now success ∧ s'.breaker.openedAt = now := by
  cases e with
  | acquire now =>
    rw [step_acquire h] at hopen
    have hacq := s.breaker.acquires now
    generalize s.breaker.acquire now = r at hacq hopen
    cases hacq with
    | rejected hstate | closed hstate => exact absurd hopen hnot
    | full hstate | probe hstate => cases hopen
  | complete i now success =>
    obtain ⟨c, hc, -, rfl⟩ := step_complete h
    refine ⟨i, now, success, rfl, ?_⟩
    have hcomp := s.breaker.completes now c.probe success
    dsimp only at hopen ⊢
    generalize c.probe = probe at hcomp hopen ⊢
    generalize s.breaker.complete now probe success = b at hcomp hopen ⊢
    cases hcomp with
    | probeFailed hstate | tripped hstate => rfl
    | probeLast hstate => cases hopen
    | late | probeMore | ignored | succeeded | counted => exact absurd hopen hnot

theorem CircuitBreakerConfig.normalized_threshold (cfg : CircuitBreakerConfig) :
    0 < cfg.normalized.failureThreshold := by
  simp only [CircuitBreakerConfig.normalized]
  split <;> omega

/-- **When the circuit opens and how it stays open.**  A closed circuit opens at a completion
that is not of a probe exactly when this and the `FailureThreshold - 1` completions before it are
failures, all since the circuit became closed.  From the completion that opens it, at the time
`openedAt` that the completion reads, the breaker does not change before `OpenInterval` has
passed, and every `acquire` is rejected with the time that remains. -/
theorem circuit_opens {key : GoString} {cfg : CircuitBreakerConfig} {es : List BreakerEvent}
    {s : Callers} (hrun : run Callers.step (Callers.start key cfg) es = some s) :
    (∀ i now success c s', s.breaker.state = circuitClosed → s.calls[i]? = some c →
      c.probe = false → s.step (.complete i now success) = some s' →
      (s'.breaker.state = circuitOpen ↔
        List.replicate cfg.normalized.failureThreshold.toNat false <:+
          reports (Callers.start key cfg) [] es ++ [success])) ∧
    ∀ e s', s.breaker.state ≠ circuitOpen → s.step e = some s' →
      s'.breaker.state = circuitOpen →
      (∃ i now success, e = .complete i now success ∧ s'.breaker.openedAt = now) ∧
      ∀ fs t, run Callers.step s' fs = some t →
        Meets (Early (s'.breaker.openedAt + cfg.normalized.openInterval)) Callers.step s' fs →
        t.breaker = s'.breaker ∧
        ∀ now, now < s'.breaker.openedAt + cfg.normalized.openInterval →
          t.breaker.acquire now = (t.breaker,
            .error ⟨s'.breaker.key, s'.breaker.openedAt + cfg.normalized.openInterval - now⟩) := by
  have hcounting := counting_run (counting_start key cfg) hrun
  constructor
  · intro i now success c s' hclosed hc hprobe hstep
    exact hcounting.opens_iff cfg.normalized_threshold hclosed hc hprobe hstep
  · intro e s' hnot hstep hopen
    refine ⟨step_opens hnot hstep hopen, ?_⟩
    intro fs t hfs hearly
    rw [← (counting_step hcounting hstep).config] at hearly ⊢
    have hsame := run_open hopen rfl hearly hfs
    refine ⟨hsame, fun now hnow => ?_⟩
    rw [hsame]
    exact acquire_open hopen hnow

/-- Two failures in a row open the circuit for ten nanoseconds. -/
def twoFailures : CircuitBreakerConfig := ⟨2, 10, 1⟩

/-- Four calls are let through; one fails, one succeeds and one fails. -/
def fourCalls : List BreakerEvent :=
  [.acquire 0, .acquire 0, .acquire 0, .acquire 0, .complete 3 1 false, .complete 1 2 true,
    .complete 0 3 false]

/-- The failure of the last one opens the circuit, and another call is rejected until then. -/
theorem circuit_opens_fourCalls :
    ∃ s s', run Callers.step (Callers.start [] twoFailures) fourCalls = some s ∧
      reports (Callers.start [] twoFailures) [] fourCalls = [false, true, false] ∧
      s.step (.complete 2 4 false) = some s' ∧ s'.breaker.state = circuitOpen ∧
      s'.breaker.acquire 5 = (s'.breaker, .error ⟨[], 9⟩) := by
  let s : Callers := ⟨⟨[], twoFailures, circuitClosed, 1, 0, 0⟩, 0,
    [⟨false, 0, some false⟩, ⟨false, 0, some true⟩, ⟨false, 0, none⟩, ⟨false, 0, some false⟩]⟩
  let s' : Callers := ⟨⟨[], twoFailures, circuitOpen, 0, 4, 0⟩, 0,
    [⟨false, 0, some false⟩, ⟨false, 0, some true⟩, ⟨false, 0, some false⟩,
      ⟨false, 0, some false⟩]⟩
  have hrun : run Callers.step (Callers.start [] twoFailures) fourCalls = some s := by decide
  have hreports : reports (Callers.start [] twoFailures) [] fourCalls = [false, true, false] := by
    decide
  have hstep : s.step (.complete 2 4 false) = some s' := by decide
  obtain ⟨hopens, hstays⟩ := circuit_opens hrun
  have hopen : s'.breaker.state = circuitOpen :=
    (hopens 2 4 false ⟨false, 0, none⟩ s' rfl rfl rfl hstep).mpr (by rw [hreports]; decide)
  obtain ⟨-, hafter⟩ := hstays _ s' (by decide) hstep hopen
  exact ⟨s, s', hrun, hreports, hstep, hopen, (hafter [] s' rfl trivial).2 5 (by decide)⟩

end OrderSystem.Resilience
