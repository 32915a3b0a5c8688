/-
# Calls through the executor

`Executor.Do` makes up to `MaxAttempts` attempts at a request.  Each attempt asks the breaker of
its operation for a permit, builds the request, sends it, and reports to the breaker whether the
upstream is in working order.  Here any number of `Do` calls share a breaker (`Clients`), and the
steps of one call, as far as others can come in between, are steps of the system: the checks at
the top of the loop, `acquire`, the factory, the HTTP call, `shouldRetry`, the completion, the
decision to retry, and the sleep.  The caller's context may end at any point.

The documentation says what the breaker does not count: a caller that goes away, or that runs out
of time, and a request that could not be built.  `Do` reports these as successes, which is not
the same: a success resets the streak of failures of a closed circuit, and closes a half-open
one.  `Evidence` is what the documentation asks for, that the circuit closes and the streak is
reset on an answer of the upstream only.  It holds of every step except where an attempt that
ended on the caller's side reports to a circuit that takes the report as news (`Harmless`,
`circuit_evidence`).

The executor follows the breaker's protocol: it is a run of `Callers.step` that its calls make
together (`shared_run`), and a completion is always for a permit in flight (`held_step`).
-/
import OrderSystem.Resilience.Breaker

namespace OrderSystem.Resilience

open Kit CircuitState

/-! ## 1. `Executor.Do` -/

structure RetryPolicy where
  maxAttempts : Int
  baseBackoff : Int
  maxBackoff : Int
  minimumAttemptGap : Int
  deriving DecidableEq

/-- `time.Millisecond` in nanoseconds. -/
def millisecond : Int := 1000000

def RetryPolicy.normalized (policy : RetryPolicy) : RetryPolicy :=
  let maxBackoff := if policy.maxBackoff ≤ 0 then 500 * millisecond else policy.maxBackoff
  let baseBackoff := if policy.baseBackoff ≤ 0 then 50 * millisecond else policy.baseBackoff
  { maxAttempts := if policy.maxAttempts ≤ 0 then 1 else policy.maxAttempts
    baseBackoff := if maxBackoff < baseBackoff then maxBackoff else baseBackoff
    maxBackoff
    minimumAttemptGap :=
      if policy.minimumAttemptGap ≤ 0 then 100 * millisecond else policy.minimumAttemptGap }

/-- The loop of `backoff`, with the rounds that are left. -/
def backoffLoop (policy : RetryPolicy) : Nat → Int → Int
  | 0, delay => if policy.maxBackoff < delay then policy.maxBackoff else delay
  | rounds + 1, delay =>
    if policy.maxBackoff.tdiv 2 ≤ delay then policy.maxBackoff
    else backoffLoop policy rounds (wrap64 (delay * 2))

def backoff (policy : RetryPolicy) (attempt : Int) : Int :=
  backoffLoop policy (attempt - 1).toNat policy.baseBackoff

/-- `ctx.Err()` when it is not nil. -/
inductive CtxErr where
  | canceled
  | deadlineExceeded
  deriving DecidableEq

/-- The caller's context. -/
structure Ctx where
  deadline : Option Int
  err : Option CtxErr
  deriving DecidableEq

/-- What `http.Client.Do` returns: the status of a response, or an error. -/
inductive CallResult where
  | answered (status : Int)
  | failed (message : GoString)
  deriving DecidableEq

/-- `shouldRetry`, with the `ctx.Err()` it reads.  Every error of `http.Client.Do` is a
`*url.Error`, which is a `net.Error`. -/
def shouldRetry (ctxErr : Option CtxErr) : CallResult → Bool
  | .failed _ => ctxErr.isNone
  | .answered status => status = 502 ∨ status = 503 ∨ status = 504

/-- `lastErr`. -/
inductive LastErr where
  | call (message : GoString)
  | retryableStatus (status : Int)
  deriving DecidableEq

inductive DoError where
  | ctx (err : CtxErr)
  | insufficientBudget (cause : Option LastErr)
  | circuitOpen (err : CircuitOpenError)
  | factory (message : GoString)
  | last (err : LastErr)
  deriving DecidableEq

/-- The pair that `Do` returns; the response is its status. -/
structure Returned where
  resp : Option Int
  err : Option DoError
  deriving DecidableEq

def CallResult.returned : CallResult → Returned
  | .answered status => ⟨some status, none⟩
  | .failed message => ⟨none, some (.last (.call message))⟩

def CallResult.lastErr : CallResult → LastErr
  | .answered status => .retryableStatus status
  | .failed message => .call message

/-- How an attempt ended: in the factory, or with a result of the HTTP call and the `ctx.Err()`
that `shouldRetry` read after it. -/
inductive Ended where
  | factory (message : GoString)
  | call (result : CallResult) (ctxErr : Option CtxErr)
  deriving DecidableEq

/-- The boolean for `completeCircuit`. -/
def Ended.success : Ended → Bool
  | .factory _ => true
  | .call result ctxErr => !shouldRetry ctxErr result

/-- Where a call is.  A permit is the completion function that `acquire` returned, named by its
place among the breaker's permits. -/
inductive Phase where
  | top
  | acquiring
  | building (permit : Nat)
  | calling (permit : Nat)
  | judging (permit : Nat) (result : CallResult)
  | completing (permit : Nat) (ended : Ended)
  | pausing (result : CallResult)
  | sleeping
  | returned (value : Returned)
  deriving DecidableEq

structure DoCall where
  ctx : Ctx
  policy : RetryPolicy
  attempt : Int
  lastErr : Option LastErr
  phase : Phase
  deriving DecidableEq

/-- What the world decides in a step of a call. -/
inductive Choice where
  | ctxDone (err : CtxErr)
  | check (now : Int)
  | acquire (now : Int)
  | build (failure : Option GoString)
  | send (result : CallResult)
  | judge
  | complete (now : Int)
  | pause (now jitter : Int)
  | wake (interrupted : Bool)
  deriving DecidableEq

/-- `time.Until`: a difference that is no `time.Duration` saturates. -/
def timeUntil (deadline now : Int) : Int := max (-(2 ^ 63)) (min maxInt64 (deadline - now))

/-- `Remaining(ctx)` is at most `gap`. -/
def Ctx.remainingAtMost (ctx : Ctx) (now gap : Int) : Bool :=
  ctx.deadline.any fun deadline => timeUntil deadline now ≤ gap

namespace DoCall

/-- The top of the loop. -/
def check (c : DoCall) (now : Int) : DoCall :=
  if c.policy.maxAttempts < c.attempt then
    { c with phase := .returned ⟨none, c.lastErr.map .last⟩ }
  else
    match c.ctx.err with
    | some err => { c with phase := .returned ⟨none, some (.ctx err)⟩ }
    | none =>
      if 1 < c.attempt ∧ c.ctx.remainingAtMost now c.policy.minimumAttemptGap then
        { c with phase := .returned ⟨none, some (.insufficientBudget c.lastErr)⟩ }
      else { c with phase := .acquiring }

/-- After `completeCircuit`. -/
def completed (c : DoCall) : Ended → DoCall
  | .factory message => { c with phase := .returned ⟨none, some (.factory message)⟩ }
  | .call result ctxErr =>
    if !shouldRetry ctxErr result ∨ c.attempt = c.policy.maxAttempts then
      { c with phase := .returned result.returned }
    else { c with phase := .pausing result, lastErr := some result.lastErr }

/-- The decision to retry; `jitter` is what the jitter adds to the backoff. -/
def pause (c : DoCall) (result : CallResult) (now jitter : Int) : DoCall :=
  let delay := backoff c.policy c.attempt + jitter
  if c.ctx.remainingAtMost now (wrap64 (delay + c.policy.minimumAttemptGap)) then
    { c with phase := .returned result.returned }
  else { c with phase := .sleeping }

/-- The steps of a call that do not concern the breaker. -/
def act (c : DoCall) : Phase → Choice → Option DoCall
  | _, .ctxDone err =>
    -- a context ends once, and by its deadline only if it has one
    if c.ctx.err = none ∧ (err = .deadlineExceeded → c.ctx.deadline.isSome) then
      some { c with ctx := { c.ctx with err := some err } }
    else none
  | .top, .check now => some (c.check now)
  | .building permit, .build none => some { c with phase := .calling permit }
  | .building permit, .build (some message) =>
    some { c with phase := .completing permit (.factory message) }
  | .calling permit, .send result => some { c with phase := .judging permit result }
  | .judging permit result, .judge =>
    some { c with phase := .completing permit (.call result c.ctx.err) }
  | .pausing result, .pause now jitter => some (c.pause result now jitter)
  | .sleeping, .wake false => some { c with phase := .top, attempt := c.attempt + 1 }
  | .sleeping, .wake true =>
    c.ctx.err.map fun err => { c with phase := .returned ⟨none, some (.ctx err)⟩ }
  | _, _ => none

end DoCall

/-! ## 2. Calls that share a breaker -/

structure Clients where
  shared : Callers
  calls : List DoCall
  deriving DecidableEq

inductive DoEvent where
  | begin (policy : RetryPolicy) (deadline : Option Int)
  | act (p : Nat) (choice : Choice)
  deriving DecidableEq

def Clients.start (key : GoString) (cfg : CircuitBreakerConfig) : Clients :=
  ⟨Callers.start key cfg, []⟩

def Clients.step (s : Clients) : DoEvent → Option Clients
  | .begin policy deadline =>
    some { s with calls := s.calls ++ [⟨⟨deadline, none⟩, policy.normalized, 1, none, .top⟩] }
  | .act p choice =>
    match s.calls[p]? with
    | none => none
    | some c =>
      match c.phase, choice with
      | .acquiring, .acquire now =>
        (s.shared.step (.acquire now)).map fun shared =>
          match (s.shared.breaker.acquire now).2 with
          | .ok _ => ⟨shared, s.calls.set p { c with phase := .building s.shared.calls.length }⟩
          | .error err =>
            ⟨shared, s.calls.set p { c with phase := .returned ⟨none, some (.circuitOpen err)⟩ }⟩
      | .completing permit ended, .complete now =>
        (s.shared.step (.complete permit now ended.success)).map fun shared =>
          ⟨shared, s.calls.set p (c.completed ended)⟩
      | phase, choice => (c.act phase choice).map fun c' => { s with calls := s.calls.set p c' }

/-- What a step can be. -/
inductive DoStep (s s' : Clients) : DoEvent → Prop where
  | begin {policy : RetryPolicy} {deadline : Option Int} (hshared : s'.shared = s.shared)
      (hcalls : s'.calls = s.calls ++ [⟨⟨deadline, none⟩, policy.normalized, 1, none, .top⟩]) :
      DoStep s s' (.begin policy deadline)
  | acquired {p : Nat} {now : Int} {c : DoCall} {probe : Bool} (hc : s.calls[p]? = some c)
      (hphase : c.phase = .acquiring) (hok : (s.shared.breaker.acquire now).2 = .ok probe)
      (hshared : s.shared.step (.acquire now) = some s'.shared)
      (hcalls : s'.calls = s.calls.set p { c with phase := .building s.shared.calls.length }) :
      DoStep s s' (.act p (.acquire now))
  | rejected {p : Nat} {now : Int} {c : DoCall} {err : CircuitOpenError}
      (hc : s.calls[p]? = some c) (hphase : c.phase = .acquiring)
      (herr : (s.shared.breaker.acquire now).2 = .error err)
      (hshared : s.shared.step (.acquire now) = some s'.shared)
      (hcalls : s'.calls = s.calls.set p
        { c with phase := .returned ⟨none, some (.circuitOpen err)⟩ }) :
      DoStep s s' (.act p (.acquire now))
  | completed {p : Nat} {now : Int} {c : DoCall} {permit : Nat} {ended : Ended}
      (hc : s.calls[p]? = some c) (hphase : c.phase = .completing permit ended)
      (hshared : s.shared.step (.complete permit now ended.success) = some s'.shared)
      (hcalls : s'.calls = s.calls.set p (c.completed ended)) :
      DoStep s s' (.act p (.complete now))
  | alone {p : Nat} {choice : Choice} {c c' : DoCall} (hc : s.calls[p]? = some c)
      (hact : c.act c.phase choice = some c') (hshared : s'.shared = s.shared)
      (hcalls : s'.calls = s.calls.set p c') : DoStep s s' (.act p choice)

variable {s s' : Clients} {e : DoEvent} {c : DoCall} {p : Nat}

theorem step_cases (h : s.step e = some s') : DoStep s s' e := by
  cases e with
  | begin policy deadline =>
    obtain rfl := Option.some.inj h
    exact .begin rfl rfl
  | act p choice =>
    simp only [Clients.step] at h
    split at h
    · cases h
    rename_i c hc
    split at h
    · rename_i now hphase
      obtain ⟨shared, hshared, h⟩ := Option.map_eq_some_iff.mp h
      split at h <;> rename_i hanswer <;> subst h
      · exact .acquired hc hphase hanswer hshared rfl
      · exact .rejected hc hphase hanswer hshared rfl
    · rename_i permit ended now hphase
      obtain ⟨shared, hshared, rfl⟩ := Option.map_eq_some_iff.mp h
      exact .completed hc hphase hshared rfl
    · obtain ⟨c', hact, rfl⟩ := Option.map_eq_some_iff.mp h
      exact .alone hc hact rfl rfl

/-- The calls use the breaker as its callers do. -/
theorem shared_run {es : List DoEvent} (h : run Clients.step s es = some s') :
    ∃ bs, run Callers.step s.shared bs = some s'.shared := by
  induction es generalizing s with
  | nil =>
    obtain rfl := Option.some.inj h
    exact ⟨[], rfl⟩
  | cons e es ih =>
    obtain ⟨t, hstep, hrest⟩ := run_cons.mp h
    obtain ⟨bs, hbs⟩ := ih hrest
    cases step_cases hstep with
    | begin hshared | alone _ _ hshared => exact ⟨bs, hshared ▸ hbs⟩
    | acquired _ _ _ hshared | rejected _ _ _ hshared | completed _ _ hshared =>
      exact ⟨_ :: bs, run_cons.mpr ⟨_, hshared, hbs⟩⟩

/-! ## 3. Permits -/

/-- The permit that a call holds. -/
def Phase.permit : Phase → Option Nat
  | .building permit | .calling permit | .judging permit _ | .completing permit _ => some permit
  | _ => none

@[simp] theorem check_permit (c : DoCall) (now : Int) : (c.check now).phase.permit = none := by
  unfold DoCall.check
  split
  · rfl
  · split
    · rfl
    · split <;> rfl

@[simp] theorem completed_permit (c : DoCall) (ended : Ended) :
    (c.completed ended).phase.permit = none := by
  cases ended with
  | factory message => rfl
  | call result ctxErr =>
    simp only [DoCall.completed]
    split <;> rfl

@[simp] theorem pause_permit (c : DoCall) (result : CallResult) (now jitter : Int) :
    (c.pause result now jitter).phase.permit = none := by
  unfold DoCall.pause
  simp only
  split <;> rfl

/-- A call on its own keeps the permit it holds. -/
theorem act_permit {c' : DoCall} {choice : Choice} (h : c.act c.phase choice = some c') :
    c'.phase.permit = c.phase.permit := by
  generalize hphase : c.phase = phase at h
  unfold DoCall.act at h
  split at h
  case h_1 =>
    -- the context ends, and the call stays where it is
    split at h
    · obtain rfl := Option.some.inj h
      rw [hphase]
    · cases h
  case h_9 =>
    obtain ⟨err, -, rfl⟩ := Option.map_eq_some_iff.mp h
    rfl
  case h_10 => cases h
  all_goals
    obtain rfl := Option.some.inj h
    first
    | rfl
    | exact check_permit _ _
    | exact pause_permit _ _ _ _

/-- The permit that the `p`-th call holds. -/
def Clients.permitOf (s : Clients) (p : Nat) : Option Nat :=
  (s.calls[p]?).bind fun c => c.phase.permit

theorem permitOf_of (hc : s.calls[p]? = some c) :
    s.permitOf p = c.phase.permit := by
  rw [Clients.permitOf, hc, Option.bind_some]

theorem permitOf_set {c' : DoCall} (hc : s.calls[p]? = some c)
    (hcalls : s'.calls = s.calls.set p c') (p' : Nat) :
    s'.permitOf p' = if p' = p then c'.phase.permit else s.permitOf p' := by
  obtain ⟨hp, -⟩ := List.getElem?_eq_some_iff.mp hc
  rw [Clients.permitOf, hcalls]
  split
  · rename_i heq
    rw [heq, List.getElem?_set_self hp, Option.bind_some]
  · rename_i hne
    rw [List.getElem?_set_ne (Ne.symm hne), Clients.permitOf]

/-- Every permit that a call holds is in flight, and no two calls hold the same. -/
structure Held (s : Clients) : Prop where
  inFlight : ∀ p i, s.permitOf p = some i →
    ∃ q : Permit, s.shared.calls[i]? = some q ∧ q.outcome = none
  apart : ∀ p p' i, s.permitOf p = some i → s.permitOf p' = some i → p = p'

theorem held_start (key : GoString) (cfg : CircuitBreakerConfig) :
    Held (Clients.start key cfg) where
  inFlight p i h := by simp [Clients.permitOf, Clients.start] at h
  apart p p' i h := by simp [Clients.permitOf, Clients.start] at h

/-- Nobody's permit changes, and the breaker's permits stay. -/
theorem Held.same (hs : Held s) (hpermit : ∀ p i, s'.permitOf p = some i → s.permitOf p = some i)
    (hshared : s'.shared.calls = s.shared.calls) : Held s' where
  inFlight p i h := by
    rw [hshared]
    exact hs.inFlight p i (hpermit p i h)
  apart p p' i h h' := hs.apart p p' i (hpermit p i h) (hpermit p' i h')

/-- A permit is one more call of the breaker, and a rejection is none. -/
theorem acquire_calls {s s' : Callers} {now : Int} (h : s.step (.acquire now) = some s') :
    (∀ probe, (s.breaker.acquire now).2 = .ok probe →
        s'.calls = s.calls ++ [⟨probe, s'.period, none⟩]) ∧
      ∀ err, (s.breaker.acquire now).2 = .error err → s'.calls = s.calls := by
  simp only [Callers.step] at h
  split at h <;> rename_i hanswer <;> obtain rfl := Option.some.inj h
  · refine ⟨fun probe hok => ?_, fun err herr => ?_⟩
    · obtain rfl := Except.ok.inj (hanswer.symm.trans hok)
      rfl
    · cases hanswer.symm.trans herr
  · refine ⟨fun probe hok => ?_, fun _ _ => rfl⟩
    cases hanswer.symm.trans hok

/-- A call gets the newest permit. -/
theorem Held.granted {s s' : Clients} (hs : Held s) {p : Nat} {permit : Permit}
    (hfresh : permit.outcome = none) (hshared : s'.shared.calls = s.shared.calls ++ [permit])
    (hpermits : ∀ p', s'.permitOf p' =
      if p' = p then some s.shared.calls.length else s.permitOf p') : Held s' := by
  have hmine : ∀ i, s'.permitOf p = some i → i = s.shared.calls.length := by
    intro i hp
    rw [hpermits, if_pos rfl] at hp
    exact (Option.some.inj hp).symm
  have hold : ∀ p' i, p' ≠ p → s'.permitOf p' = some i →
      s.permitOf p' = some i ∧ i < s.shared.calls.length := by
    intro p' i hne hp
    rw [hpermits, if_neg hne] at hp
    obtain ⟨q, hq, -⟩ := hs.inFlight p' i hp
    exact ⟨hp, (List.getElem?_eq_some_iff.mp hq).1⟩
  constructor
  · intro p' i hp
    rw [hshared]
    by_cases heq : p' = p
    · obtain rfl := hmine i (heq ▸ hp)
      exact ⟨permit, List.getElem?_concat_length, hfresh⟩
    · obtain ⟨hp, hlt⟩ := hold p' i heq hp
      obtain ⟨q, hq, hnone⟩ := hs.inFlight p' i hp
      exact ⟨q, by rw [List.getElem?_append_left hlt, hq], hnone⟩
  · intro p₁ p₂ i h₁ h₂
    -- the new permit is nobody else's
    by_cases heq₁ : p₁ = p <;> by_cases heq₂ : p₂ = p
    · rw [heq₁, heq₂]
    · have hlt := (hold p₂ i heq₂ h₂).2
      have hi := hmine i (heq₁ ▸ h₁)
      omega
    · have hlt := (hold p₁ i heq₁ h₁).2
      have hi := hmine i (heq₂ ▸ h₂)
      omega
    · exact hs.apart p₁ p₂ i (hold p₁ i heq₁ h₁).1 (hold p₂ i heq₂ h₂).1

/-- A call gives its permit back. -/
theorem Held.returned (hs : Held s) {permit : Nat} (hmine : s.permitOf p = some permit)
    (hshared : ∀ i, permit ≠ i → s'.shared.calls[i]? = s.shared.calls[i]?)
    (hpermits : ∀ p', s'.permitOf p' = if p' = p then none else s.permitOf p') : Held s' := by
  have hold : ∀ p' i, s'.permitOf p' = some i → s.permitOf p' = some i ∧ permit ≠ i := by
    intro p' i hp
    rw [hpermits] at hp
    split at hp
    · cases hp
    · rename_i hne
      refine ⟨hp, fun heq => hne ?_⟩
      exact hs.apart p' p i hp (heq ▸ hmine)
  constructor
  · intro p' i hp
    obtain ⟨hp, hne⟩ := hold p' i hp
    rw [hshared i hne]
    exact hs.inFlight p' i hp
  · intro p₁ p₂ i h₁ h₂
    exact hs.apart p₁ p₂ i (hold p₁ i h₁).1 (hold p₂ i h₂).1

theorem held_step (hs : Held s) (h : s.step e = some s') :
    Held s' := by
  cases step_cases h with
  | begin hshared hcalls =>
    refine hs.same (fun p i hp => ?_) (congrArg _ hshared)
    rw [Clients.permitOf, hcalls, List.getElem?_append] at hp
    split at hp
    · exact hp
    · -- a call begins without a permit
      obtain ⟨c, hc, hpermit⟩ := Option.bind_eq_some_iff.mp hp
      obtain rfl := List.mem_singleton.mp (List.mem_of_getElem? hc)
      cases hpermit
  | @alone p choice c c' hc hact hshared hcalls =>
    refine hs.same (fun p' i hp => ?_) (congrArg _ hshared)
    rw [permitOf_set hc hcalls] at hp
    split at hp
    · rename_i heq
      rw [heq, permitOf_of hc, ← act_permit hact]
      exact hp
    · exact hp
  | rejected hc hphase herr hshared hcalls =>
    refine hs.same (fun p i hp => ?_) ((acquire_calls hshared).2 _ herr)
    rw [permitOf_set hc hcalls] at hp
    split at hp
    · cases hp
    · exact hp
  | acquired hc hphase hok hshared hcalls =>
    exact hs.granted rfl ((acquire_calls hshared).1 _ hok) (permitOf_set hc hcalls)
  | @completed p now c permit ended hc hphase hshared hcalls =>
    obtain ⟨q, hq, hnone, hs'⟩ := step_complete hshared
    refine hs.returned (by rw [permitOf_of hc, hphase]; rfl) (fun i hne => ?_) fun p' => ?_
    · rw [hs', List.getElem?_set_ne hne]
    · rw [permitOf_set hc hcalls, completed_permit]

/-- **An attempt can always report**: its permit is in flight. -/
theorem completion_enabled {key : GoString} {cfg : CircuitBreakerConfig} {es : List DoEvent}
    (hrun : run Clients.step (Clients.start key cfg) es = some s) {permit : Nat} {ended : Ended}
    (hc : s.calls[p]? = some c) (hphase : c.phase = .completing permit ended) (now : Int) :
    (s.step (.act p (.complete now))).isSome := by
  have hheld : Held s := run_invariant (fun _ _ _ hs hstep => held_step hs hstep)
    (held_start key cfg) hrun
  obtain ⟨q, hq, hnone⟩ := hheld.inFlight p permit (by rw [permitOf_of hc, hphase]; rfl)
  simp [Clients.step, hc, hphase, Callers.step, hq, hnone]

/-! ## 4. Evidence -/

/-- The attempt ended on the caller's side: its request could not be built, or it failed and
the caller's context was done. -/
def Ended.callerSide : Ended → Bool
  | .factory _ => true
  | .call (.failed _) ctxErr => ctxErr.isSome
  | .call (.answered _) _ => false

/-- The upstream answered, and not with 502, 503 or 504. -/
def Ended.upstreamWorks : Ended → Bool
  | .call (.answered status) _ => status ≠ 502 ∧ status ≠ 503 ∧ status ≠ 504
  | _ => false

/-- What `Do` reports as a success. -/
theorem Ended.success_iff (ended : Ended) :
    ended.success = true ↔ ended.callerSide = true ∨ ended.upstreamWorks = true := by
  match ended with
  | .factory message => simp [Ended.success, Ended.callerSide]
  | .call (.failed message) ctxErr =>
    simp [Ended.success, Ended.callerSide, Ended.upstreamWorks, shouldRetry]
  | .call (.answered status) ctxErr =>
    simp [Ended.success, Ended.callerSide, Ended.upstreamWorks, shouldRetry]

/-- The report that a call is about to make. -/
def Phase.report : Phase → Option (Nat × Ended)
  | .completing permit ended => some (permit, ended)
  | _ => none

/-- The report that the step makes to the breaker, if it makes one. -/
def Clients.report (s : Clients) : DoEvent → Option (Nat × Ended)
  | .act p (.complete _) => (s.calls[p]?).bind fun c => c.phase.report
  | _ => none

/-- What the documentation asks for, of one step. -/
structure Evidence (s : Clients) (e : DoEvent) (s' : Clients) : Prop where
  /-- an attempt that ended on the caller's side does not matter -/
  neutral : ∀ permit ended, s.report e = some (permit, ended) → ended.callerSide = true →
    (s.shared.breaker.state = circuitClosed → s'.shared.breaker.state = circuitClosed ∧
      s'.shared.breaker.consecutiveFailed = s.shared.breaker.consecutiveFailed) ∧
    (s.shared.breaker.state = circuitHalfOpen → s'.shared.breaker.state ≠ circuitClosed)
  /-- the circuit closes on an answer of the upstream -/
  closes : s.shared.breaker.state ≠ circuitClosed → s'.shared.breaker.state = circuitClosed →
    ∃ permit ended, s.report e = some (permit, ended) ∧ ended.upstreamWorks = true
  /-- and so is the streak reset -/
  resets : s.shared.breaker.state = circuitClosed → s'.shared.breaker.state = circuitClosed →
    s'.shared.breaker.consecutiveFailed < s.shared.breaker.consecutiveFailed →
      ∃ permit ended, s.report e = some (permit, ended) ∧ ended.upstreamWorks = true

/-- A report to the breaker that takes no success for news: the permit is a probe and others are
in flight, or it is not and there is no streak. -/
def Unimpressed (b : CircuitBreaker) (probe : Bool) : Prop :=
  if probe then b.state = circuitHalfOpen → b.probesLeft ≠ 0
  else b.state = circuitClosed → b.consecutiveFailed = 0

instance (b : CircuitBreaker) (probe : Bool) : Decidable (Unimpressed b probe) :=
  inferInstanceAs (Decidable (ite _ _ _))

/-- An attempt that ended on the caller's side reports to a breaker that is unimpressed. -/
def Harmless (s : Clients) (e : DoEvent) : Prop :=
  ∀ r ∈ s.report e, r.2.callerSide = true →
    ∀ q ∈ s.shared.calls[r.1]?, Unimpressed s.shared.breaker q.probe

instance (s : Clients) (e : DoEvent) : Decidable (Harmless s e) :=
  inferInstanceAs (Decidable (∀ _ ∈ _, _))

theorem act_complete (c : DoCall) (phase : Phase) (now : Int) :
    c.act phase (.complete now) = none := by
  cases phase <;> rfl

/-- What a report does to the breaker. -/
theorem report_complete {permit : Nat} {ended : Ended} (h : s.step e = some s')
    (hreport : s.report e = some (permit, ended)) :
    ∃ now q, s.shared.calls[permit]? = some q ∧
      s'.shared.breaker = s.shared.breaker.complete now q.probe ended.success := by
  cases step_cases h with
  | begin | acquired | rejected => cases hreport
  | @completed p now c permit' ended' hc hphase hshared =>
    rw [Clients.report, hc, Option.bind_some, hphase] at hreport
    obtain ⟨rfl, rfl⟩ := Prod.mk.inj (Option.some.inj hreport)
    obtain ⟨q, hq, -, hs'⟩ := step_complete hshared
    exact ⟨now, q, hq, by rw [hs']⟩
  | @alone p choice c c' hc hact =>
    cases choice with
    | complete now =>
      rw [act_complete] at hact
      cases hact
    | _ => cases hreport

/-- A step that reports nothing neither closes the circuit nor touches a closed one. -/
theorem breaker_of_no_report (h : s.step e = some s') (hreport : s.report e = none)
    (hclosed : s'.shared.breaker.state = circuitClosed) :
    s'.shared.breaker = s.shared.breaker := by
  cases step_cases h with
  | begin hshared | alone _ _ hshared => exact congrArg _ hshared
  | @acquired p now _ _ _ _ _ hshared | @rejected p now _ _ _ _ _ hshared =>
    rw [step_acquire hshared] at hclosed ⊢
    exact CircuitBreaker.acquire_state hclosed
  | completed hc hphase =>
    rw [Clients.report, hc, Option.bind_some, hphase] at hreport
    cases hreport

/-- A success that an unimpressed breaker is told changes nothing of a closed circuit, and does
not close a half-open one. -/
theorem Unimpressed.complete {b : CircuitBreaker} {probe : Bool} (hb : Unimpressed b probe)
    (now : Int) :
    (b.state = circuitClosed → (b.complete now probe true).state = circuitClosed ∧
      (b.complete now probe true).consecutiveFailed = b.consecutiveFailed) ∧
    (b.state = circuitHalfOpen → (b.complete now probe true).state ≠ circuitClosed) := by
  constructor
  · intro hclosed
    cases probe with
    | true => simp [CircuitBreaker.complete, hclosed]
    | false => simp [CircuitBreaker.complete, hclosed, hb hclosed]
  · intro hhalf hclosed
    obtain ⟨rfl, -, hlast⟩ := CircuitBreaker.complete_closes hhalf hclosed
    exact hb hhalf hlast

/-- A harmless step goes by the documentation. -/
theorem Harmless.evidence (hs : Harmless s e) (h : s.step e = some s') : Evidence s e s' := by
  cases hreport : s.report e with
  | none =>
    refine ⟨fun permit ended hr => ?_, fun hstate hclosed => ?_, fun _ hclosed hless => ?_⟩
    · cases hreport.symm.trans hr
    · exact absurd (breaker_of_no_report h hreport hclosed ▸ hclosed) hstate
    · rw [breaker_of_no_report h hreport hclosed] at hless
      exact absurd hless (Int.lt_irrefl _)
  | some r =>
    obtain ⟨permit, ended⟩ := r
    obtain ⟨now, q, hq, hbreaker⟩ := report_complete h hreport
    have hcaller : ended.callerSide = true → Unimpressed s.shared.breaker q.probe :=
      fun hside => hs _ hreport hside q hq
    -- a success that is not from the caller's side is an answer of the upstream
    have hworks : ended.success = true → ¬ Unimpressed s.shared.breaker q.probe →
        ended.upstreamWorks = true := by
      intro hsuccess himpressed
      exact (ended.success_iff.mp hsuccess).resolve_left fun hside => himpressed (hcaller hside)
    refine ⟨fun permit' ended' hr hside => ?_, fun hstate hclosed => ?_,
      fun hstate hclosed hless => ?_⟩
    · obtain ⟨rfl, rfl⟩ := Prod.mk.inj (Option.some.inj (hreport.symm.trans hr))
      rw [hbreaker, ended.success_iff.mpr (.inl hside)]
      exact (hcaller hside).complete now
    · rw [hbreaker] at hclosed
      have hhalf := CircuitBreaker.complete_closed_from hstate hclosed
      obtain ⟨hprobe, hsuccess, hlast⟩ := CircuitBreaker.complete_closes hhalf hclosed
      refine ⟨permit, ended, hreport, hworks hsuccess ?_⟩
      rw [Unimpressed, if_pos hprobe]
      exact fun hb => hb hhalf hlast
    · rw [hbreaker] at hclosed hless
      obtain ⟨hprobe, hsuccess, hstreak⟩ := CircuitBreaker.complete_resets hstate hclosed hless
      refine ⟨permit, ended, hreport, hworks hsuccess ?_⟩
      rw [Unimpressed, if_neg (by simp [hprobe])]
      exact fun hb => hstreak (hb hstate)

/-- **Failures on the caller's side are no evidence.**  In a run of calls that share a breaker
and whose reports are harmless, an attempt that ended on the caller's side changes neither the
streak of a closed circuit nor closes a half-open one; the circuit closes, and the streak is
reset, when the upstream answered an attempt with a status other than 502, 503 and 504. -/
theorem circuit_evidence {key : GoString} {cfg : CircuitBreakerConfig} {es : List DoEvent}
    {s s' : Clients} {e : DoEvent} (hrun : run Clients.step (Clients.start key cfg) es = some s)
    (hharmless : Meets Harmless Clients.step (Clients.start key cfg) (es ++ [e]))
    (hstep : s.step e = some s') : Evidence s e s' := by
  obtain ⟨-, hlast, -⟩ := (meets_append hrun).mp hharmless
  exact hlast.evidence hstep

/-- A new call gets as far as sending its request. -/
def sends (p : Nat) (now : Int) : List DoEvent :=
  [.begin ⟨1, 0, 0, 0⟩ none, .act p (.check now), .act p (.acquire now), .act p (.build none)]

/-- The HTTP call of `p` returns, and the attempt ends. -/
def receives (p : Nat) (result : CallResult) : List DoEvent :=
  [.act p (.send result), .act p .judge]

/-- A call fails and opens the circuit; the next one is answered. -/
def recovers : List DoEvent :=
  sends 0 0 ++ receives 0 (.failed []) ++ [.act 0 (.complete 0)] ++
    sends 1 1 ++ receives 1 (.answered 200)

theorem circuit_evidence_recovers :
    ∃ s s', run Clients.step (Clients.start [] ⟨1, 1, 1⟩) recovers = some s ∧
      s.step (.act 1 (.complete 2)) = some s' ∧ s'.shared.breaker.state = circuitClosed ∧
      Evidence s (.act 1 (.complete 2)) s' := by
  have hcloses : (run Clients.step (Clients.start [] ⟨1, 1, 1⟩)
      (recovers ++ [.act 1 (.complete 2)])).map (fun s => s.shared.breaker.state) =
        some circuitClosed := by decide
  obtain ⟨s', hrun, hclosed⟩ := Option.map_eq_some_iff.mp hcloses
  obtain ⟨s, hs, hstep⟩ := run_snoc.mp hrun
  exact ⟨s, s', hs, hstep, hclosed, circuit_evidence hs (by decide) hstep⟩

/-- A call fails; the caller of the next one goes away before its request fails. -/
def goesAway : List DoEvent :=
  sends 0 0 ++ receives 0 (.failed []) ++ [.act 0 (.complete 0)] ++
    sends 1 1 ++ [.act 1 (.ctxDone .canceled)] ++ receives 1 (.failed [])

/-- A call fails and opens the circuit; the request of the next one cannot be built. -/
def notBuilt : List DoEvent :=
  sends 0 0 ++ receives 0 (.failed []) ++ [.act 0 (.complete 0)] ++
    [.begin ⟨1, 0, 0, 0⟩ none, .act 1 (.check 1), .act 1 (.acquire 1), .act 1 (.build (some []))]

/-- The report of the caller that went away resets the streak of the closed circuit, and that of
the request that was not built closes the half-open one. -/
theorem circuit_evidence_callerSide :
    ((run Clients.step (Clients.start [] ⟨2, 1, 1⟩) goesAway).map fun s =>
        (s.report (.act 1 (.complete 1)), s.shared.breaker.state,
          s.shared.breaker.consecutiveFailed)) =
      some (some (1, .call (.failed []) (some .canceled)), circuitClosed, 1) ∧
    ((run Clients.step (Clients.start [] ⟨2, 1, 1⟩) (goesAway ++ [.act 1 (.complete 1)])).map
        fun s => (s.shared.breaker.state, s.shared.breaker.consecutiveFailed)) =
      some (circuitClosed, 0) ∧
    ((run Clients.step (Clients.start [] ⟨1, 1, 1⟩) notBuilt).map fun s =>
        (s.report (.act 1 (.complete 1)), s.shared.breaker.state)) =
      some (some (1, .factory []), circuitHalfOpen) ∧
    ((run Clients.step (Clients.start [] ⟨1, 1, 1⟩) (notBuilt ++ [.act 1 (.complete 1)])).map
        fun s => s.shared.breaker.state) = some circuitClosed := by
  refine ⟨?_, ?_, ?_, ?_⟩ <;> decide

end OrderSystem.Resilience
