/-
# The retry discipline of `Executor.Do`

`Do` is a loop with eight exits.  This file follows one call of it (`Observed`) through every
sequence of answers of the breaker, results of the HTTP client, readings of the clock, jitters
and ends of the context, and keeps a record of what it does: the HTTP calls it makes, the permits
it is given and gives back, and the responses with what happened to their bodies.

Five invariants say what the record looks like in each phase of the loop:

* `Counted`: an attempt makes one HTTP call, and there are at most `MaxAttempts`;
* `Accounted`: what was acquired is what was completed, and the permit that the call holds;
* `Drained`: every response is closed, but the one in hand, which nobody has touched;
* `Warranted`: what has happened since the latest HTTP call if another one is to come;
* `Slept`: the loop comes back after the sleep, if time passes as it should (`Timely`).

That `delay + MinimumAttemptGap` remained before the sleep is what the first check of the budget
says, if the sum fits into an `int64`.  The sum may wrap, and then the first check passes with any
budget; but the timer has run for `delay` when the loop comes back, and what remains then is
compared with `MinimumAttemptGap` alone.

`step_observed` connects this with the calls that share a breaker (`Clients`).
-/
import OrderSystem.Resilience.Executor

namespace OrderSystem.Resilience

open Kit

/-! ## 1. One call, observed -/

/-- The body of a response that the HTTP client has returned. -/
structure Body where
  status : Int
  read : Bool
  closed : Bool
  deriving DecidableEq

/-- A body that nobody has touched. -/
def Body.fresh (status : Int) : Body := ⟨status, false, false⟩

/-- The status of the response, if there is one. -/
def CallResult.status : CallResult → Option Int
  | .answered status => some status
  | .failed _ => none

/-- `io.Copy(io.Discard, …)` and `Body.Close` on the response in hand, which is the last one. -/
def CallResult.drain : CallResult → List Body → List Body
  | .answered status, bodies => bodies.dropLast ++ [⟨status, true, true⟩]
  | .failed _, bodies => bodies

/-- A call of `Do` and what has been seen of it. -/
structure Observed where
  call : DoCall
  /-- the latest instant -/
  clock : Int
  /-- the results of the HTTP calls -/
  sent : List CallResult
  /-- the permits that the breaker has given, and those that were completed -/
  acquired : List Nat
  completed : List Nat
  bodies : List Body
  /-- what `shouldRetry` was called with, last -/
  judged : Option (CallResult × Option CtxErr)
  /-- when the last sleep began, and how long it is -/
  paused : Option (Int × Int)
  /-- when the top of the loop was last reached, and the `ctx.Err()` there -/
  checked : Option (Int × Option CtxErr)
  deriving DecidableEq

/-- A step of the call, with its instant and, if it calls `acquire`, the breaker's answer. -/
structure Moment where
  now : Int
  answer : Except CircuitOpenError Nat
  choice : Choice

/-- The call after a step, whatever the breaker says. -/
def DoCall.next (c : DoCall) (answer : Except CircuitOpenError Nat) (choice : Choice) :
    Option DoCall :=
  match c.phase, choice with
  | .acquiring, .acquire _ =>
    match answer with
    | .ok permit => some { c with phase := .building permit }
    | .error err => some { c with phase := .returned ⟨none, some (.circuitOpen err)⟩ }
  | .completing _ ended, .complete _ => some (c.completed ended)
  | phase, choice => c.act phase choice

/-- The reading of the clock that comes with a step. -/
def Choice.reading : Choice → Option Int
  | .check now | .acquire now | .complete now | .pause now _ => some now
  | _ => none

namespace Observed

def start (policy : RetryPolicy) (deadline : Option Int) (now : Int) : Observed where
  call := ⟨⟨deadline, none⟩, policy.normalized, 1, none, .top⟩
  clock := now
  sent := []
  acquired := []
  completed := []
  bodies := []
  judged := none
  paused := none
  checked := none

/-- The record after a step that makes `call` of the call. -/
def observe (w : Observed) (m : Moment) (call : DoCall) : Observed :=
  let w' := { w with clock := m.now, call }
  match w.call.phase, m.choice with
  | .top, .check now => { w' with checked := some (now, w.call.ctx.err) }
  | .acquiring, .acquire _ =>
    match m.answer with
    | .ok permit => { w' with acquired := w.acquired ++ [permit] }
    | .error _ => w'
  | .calling _, .send result =>
    { w' with sent := w.sent ++ [result], bodies := w.bodies ++ result.status.toList.map .fresh }
  | .judging _ result, .judge => { w' with judged := some (result, w.call.ctx.err) }
  | .completing permit _, .complete _ => { w' with completed := w.completed ++ [permit] }
  | .pausing result, .pause now jitter =>
    if call.phase = .sleeping then
      { w' with
        paused := some (now, backoff w.call.policy w.call.attempt + jitter)
        bodies := result.drain w.bodies }
    else w'
  | _, _ => w'

def step (w : Observed) (m : Moment) : Option Observed :=
  (w.call.next m.answer m.choice).map (w.observe m)

/-- The clock does not go back, and a sleep that is not interrupted takes its time. -/
def Timely (w : Observed) (m : Moment) : Prop :=
  w.clock ≤ m.now ∧ (∀ t ∈ m.choice.reading, t = m.now) ∧
    (m.choice = .wake false → ∀ p ∈ w.paused, p.1 + p.2 ≤ m.now)

instance (w : Observed) (m : Moment) : Decidable (w.Timely m) :=
  inferInstanceAs (Decidable (_ ∧ _))

/-! ## 2. What a step can be -/

end Observed

/-- What `Do` returns after an attempt that it does not repeat. -/
def Ended.returned : Ended → Returned
  | .factory message => ⟨none, some (.factory message)⟩
  | .call result _ => result.returned

namespace Observed

/-- The exits of `Do` between two attempts: what is returned, and from which phase. -/
inductive Fails (c : DoCall) : Returned → Prop where
  | exhausted (hphase : c.phase = .top) (hmany : c.policy.maxAttempts < c.attempt) :
      Fails c ⟨none, c.lastErr.map .last⟩
  | expired {err : CtxErr} (hphase : c.phase = .top) : Fails c ⟨none, some (.ctx err)⟩
  | unbudgeted (hphase : c.phase = .top) : Fails c ⟨none, some (.insufficientBudget c.lastErr)⟩
  | rejected {err : CircuitOpenError} (hphase : c.phase = .acquiring) :
      Fails c ⟨none, some (.circuitOpen err)⟩
  | interrupted {err : CtxErr} (hphase : c.phase = .sleeping) : Fails c ⟨none, some (.ctx err)⟩

inductive Steps (w : Observed) (m : Moment) : Observed → Prop where
  | ctxDone {err : CtxErr} :
      Steps w m { w with
        clock := m.now, call := { w.call with ctx := { w.call.ctx with err := some err } } }
  | failed {v : Returned} {checked : Option (Int × Option CtxErr)} (hfails : Fails w.call v) :
      Steps w m { w with
        clock := m.now, checked, call := { w.call with phase := .returned v } }
  | ready {now : Int} (hnow : m.choice.reading = some now) (hphase : w.call.phase = .top)
      (hlive : w.call.ctx.err = none)
      (hbudget : 1 < w.call.attempt →
        w.call.ctx.remainingAtMost now w.call.policy.minimumAttemptGap = false) :
      Steps w m { w with
        clock := m.now, checked := some (now, none)
        call := { w.call with phase := .acquiring } }
  | acquired {permit : Nat} (hphase : w.call.phase = .acquiring) :
      Steps w m { w with
        clock := m.now, acquired := w.acquired ++ [permit]
        call := { w.call with phase := .building permit } }
  | built {permit : Nat} (hphase : w.call.phase = .building permit) :
      Steps w m { w with clock := m.now, call := { w.call with phase := .calling permit } }
  | notBuilt {permit : Nat} {message : GoString} (hphase : w.call.phase = .building permit) :
      Steps w m { w with
        clock := m.now
        call := { w.call with phase := .completing permit (.factory message) } }
  | sends {permit : Nat} {result : CallResult} (hphase : w.call.phase = .calling permit) :
      Steps w m { w with
        clock := m.now, sent := w.sent ++ [result]
        bodies := w.bodies ++ result.status.toList.map .fresh
        call := { w.call with phase := .judging permit result } }
  | judges {permit : Nat} {result : CallResult} (hphase : w.call.phase = .judging permit result) :
      Steps w m { w with
        clock := m.now, judged := some (result, w.call.ctx.err)
        call := { w.call with phase := .completing permit (.call result w.call.ctx.err) } }
  | finishes {permit : Nat} {ended : Ended} (hphase : w.call.phase = .completing permit ended) :
      Steps w m { w with
        clock := m.now, completed := w.completed ++ [permit]
        call := { w.call with phase := .returned ended.returned } }
  | retries {permit : Nat} {result : CallResult} {err : Option CtxErr}
      (hphase : w.call.phase = .completing permit (.call result err))
      (hretry : shouldRetry err result = true)
      (hmore : w.call.attempt ≠ w.call.policy.maxAttempts) :
      Steps w m { w with
        clock := m.now, completed := w.completed ++ [permit]
        call := { w.call with phase := .pausing result, lastErr := some result.lastErr } }
  | givesUp {result : CallResult} (hphase : w.call.phase = .pausing result) :
      Steps w m { w with
        clock := m.now, call := { w.call with phase := .returned result.returned } }
  | sleeps {result : CallResult} {now delay : Int} (hphase : w.call.phase = .pausing result)
      (hbudget : w.call.ctx.remainingAtMost now
        (wrap64 (delay + w.call.policy.minimumAttemptGap)) = false) :
      Steps w m { w with
        clock := m.now, paused := some (now, delay), bodies := result.drain w.bodies
        call := { w.call with phase := .sleeping } }
  | wakes (hchoice : m.choice = .wake false) (hphase : w.call.phase = .sleeping) :
      Steps w m { w with
        clock := m.now, call := { w.call with phase := .top, attempt := w.call.attempt + 1 } }

/-- The top of the loop goes on to `acquire`, or fails. -/
theorem check_cases {c : DoCall} (now : Int) (hphase : c.phase = .top) :
    (c.ctx.err = none ∧
      (1 < c.attempt → c.ctx.remainingAtMost now c.policy.minimumAttemptGap = false) ∧
      c.check now = { c with phase := .acquiring }) ∨
    ∃ v, Fails c v ∧ c.check now = { c with phase := .returned v } := by
  unfold DoCall.check
  split
  · exact .inr ⟨_, .exhausted hphase ‹_›, rfl⟩
  · split
    · exact .inr ⟨_, .expired hphase, rfl⟩
    · rename_i hlive
      split
      · exact .inr ⟨_, .unbudgeted hphase, rfl⟩
      · rename_i hbudget
        refine .inl ⟨hlive, fun hmore => ?_, rfl⟩
        simpa [hmore] using hbudget

/-- **What a step can be.** -/
theorem steps_of {w w' : Observed} {m : Moment} (h : w.step m = some w') : Steps w m w' := by
  obtain ⟨call, hnext, rfl⟩ := Option.map_eq_some_iff.mp h
  obtain ⟨now, answer, choice⟩ := m
  unfold DoCall.next at hnext
  unfold observe
  generalize hphase : w.call.phase = phase at hnext ⊢
  cases choice with
  | ctxDone err =>
    have hcall : call = { w.call with ctx := { w.call.ctx with err := some err } } := by
      cases phase <;> simp only [DoCall.act] at hnext <;> split at hnext <;>
        first | exact (Option.some.inj hnext).symm | cases hnext
    subst hcall
    cases phase <;> exact .ctxDone
  | check t =>
    cases phase <;> first | (cases hnext; done) | skip
    obtain rfl := Option.some.inj hnext
    rcases check_cases t hphase with ⟨hlive, hbudget, hcall⟩ | ⟨v, hfails, hcall⟩
    · simp only [hcall, hlive]
      exact .ready rfl hphase hlive hbudget
    · simp only [hcall]
      exact .failed hfails
  | acquire t =>
    cases phase <;> first | cases hnext | skip
    cases answer with
    | ok permit =>
      obtain rfl := Option.some.inj hnext
      exact .acquired hphase
    | error err =>
      obtain rfl := Option.some.inj hnext
      exact .failed (.rejected hphase)
  | build failure =>
    cases phase <;> first | (cases failure <;> cases hnext; done) | skip
    cases failure with
    | none =>
      obtain rfl := Option.some.inj hnext
      exact .built hphase
    | some message =>
      obtain rfl := Option.some.inj hnext
      exact .notBuilt hphase
  | send result =>
    cases phase <;> first | (cases hnext; done) | skip
    obtain rfl := Option.some.inj hnext
    exact .sends hphase
  | judge =>
    cases phase <;> first | (cases hnext; done) | skip
    obtain rfl := Option.some.inj hnext
    exact .judges hphase
  | complete t =>
    cases phase <;> first | (cases hnext; done) | skip
    rename_i permit ended
    obtain rfl := Option.some.inj hnext
    cases ended with
    | factory message => exact .finishes hphase
    | call result err =>
      by_cases hstop : (!shouldRetry err result) = true ∨ w.call.attempt = w.call.policy.maxAttempts
      · simp only [DoCall.completed, if_pos hstop]
        exact .finishes hphase
      · simp only [DoCall.completed, if_neg hstop]
        rw [not_or] at hstop
        exact .retries hphase (by simpa using hstop.1) hstop.2
  | pause t jitter =>
    cases phase <;> first | (cases hnext; done) | skip
    rename_i result
    obtain rfl := Option.some.inj hnext
    simp only [DoCall.pause]
    split
    · simp only [reduceCtorEq, if_false]
      exact .givesUp hphase
    · rename_i hbudget
      simp only [if_true]
      exact .sleeps hphase (by simpa using hbudget)
  | wake interrupted =>
    cases phase <;> first | (cases interrupted <;> cases hnext) | skip
    cases interrupted with
    | false =>
      obtain rfl := Option.some.inj hnext
      exact .wakes rfl hphase
    | true =>
      obtain ⟨err, -, rfl⟩ := Option.map_eq_some_iff.mp hnext
      exact .failed (.interrupted hphase)

theorem calling_of_send {w w' : Observed} {m : Moment} {result : CallResult}
    (h : w.step m = some w') (hchoice : m.choice = .send result) :
    ∃ permit, w.call.phase = .calling permit := by
  obtain ⟨call, hnext, -⟩ := Option.map_eq_some_iff.mp h
  rw [hchoice] at hnext
  unfold DoCall.next at hnext
  cases hphase : w.call.phase <;> rw [hphase] at hnext <;> cases hnext
  exact ⟨_, rfl⟩

/-! ## 3. Attempts -/

end Observed

/-- How many HTTP calls the present attempt has made. -/
def Phase.called : Phase → Option Int
  | .top | .acquiring | .building _ | .calling _ | .completing _ (.factory _) => some 0
  | .judging _ _ | .completing _ (.call _ _) | .pausing _ | .sleeping => some 1
  | .returned _ => none

/-- The call is going to try again. -/
def Phase.repeats : Phase → Bool
  | .pausing _ | .sleeping => true
  | _ => false

namespace Observed

structure Counted (w : Observed) : Prop where
  attempts : 1 ≤ w.call.attempt ∧ w.call.attempt ≤ w.call.policy.maxAttempts
  sent_le : w.sent.length ≤ w.call.attempt
  sent : ∀ n ∈ w.call.phase.called, (w.sent.length : Int) = w.call.attempt - 1 + n
  again : w.call.phase.repeats = true →
    w.call.attempt < w.call.policy.maxAttempts ∧ w.call.lastErr.isSome
  lastErr : 1 < w.call.attempt → w.call.lastErr.isSome
  value : ∀ v, w.call.phase = .returned v → v.resp.isSome ∨ v.err.isSome

theorem counted_start (policy : RetryPolicy) (deadline : Option Int) (now : Int) :
    Counted (start policy deadline now) where
  attempts := by
    refine ⟨le_rfl, ?_⟩
    simp only [start, RetryPolicy.normalized]
    split <;> omega
  sent_le := by simp [start]
  sent := by simp [start, Phase.called]
  again h := nomatch h
  lastErr h := absurd h (by simp [start])
  value _ h := nomatch h

/-- A call that has returned something. -/
theorem Counted.returns {w w' : Observed} (hw : Counted w) {v : Returned}
    (hattempt : w'.call.attempt = w.call.attempt) (hpolicy : w'.call.policy = w.call.policy)
    (hlast : w'.call.lastErr = w.call.lastErr) (hsent : w'.sent = w.sent)
    (hphase : w'.call.phase = .returned v) (hv : v.resp.isSome ∨ v.err.isSome) : Counted w' where
  attempts := by
    rw [hattempt, hpolicy]
    exact hw.attempts
  sent_le := by
    rw [hattempt, hsent]
    exact hw.sent_le
  sent n hn := by
    rw [hphase] at hn
    cases hn
  again h := by
    rw [hphase] at h
    cases h
  lastErr h := by
    rw [hattempt] at h
    rw [hlast]
    exact hw.lastErr h
  value v' hv' := by
    rw [hphase] at hv'
    obtain rfl := Phase.returned.inj hv'
    exact hv

theorem returned_some (result : CallResult) :
    result.returned.resp.isSome ∨ result.returned.err.isSome := by
  cases result with
  | answered status => exact .inl rfl
  | failed message => exact .inr rfl

theorem counted_step {w w' : Observed} {m : Moment} (hw : Counted w) (h : Steps w m w') :
    Counted w' := by
  obtain ⟨hattempts, hle, hsent, hagain, hlast, hvalue⟩ := id hw
  cases h with
  | ctxDone => exact ⟨hattempts, hle, hsent, hagain, hlast, hvalue⟩
  | failed hfails =>
    refine hw.returns rfl rfl rfl rfl rfl ?_
    cases hfails with
    | exhausted hphase hmany => exact absurd hattempts.2 (not_le.mpr hmany)
    | expired | unbudgeted | rejected | interrupted => exact .inr rfl
  | finishes hphase =>
    refine hw.returns rfl rfl rfl rfl rfl ?_
    rename_i ended
    cases ended with
    | factory message => exact .inr rfl
    | call result err => exact returned_some result
  | givesUp hphase => exact hw.returns rfl rfl rfl rfl rfl (returned_some _)
  | ready hnow hphase | acquired hphase | built hphase | notBuilt hphase | judges hphase =>
    rw [hphase] at hsent
    exact ⟨hattempts, hle, hsent, nofun, hlast, nofun⟩
  | sends hphase =>
    rw [hphase] at hsent
    have hbefore := hsent 0 rfl
    refine ⟨hattempts, ?_, fun n hn => ?_, nofun, hlast, nofun⟩
    · simp only [List.length_append, List.length_singleton]
      omega
    · obtain rfl := Option.some.inj hn
      simp only [List.length_append, List.length_singleton]
      omega
  | retries hphase hretry hmore =>
    rw [hphase] at hsent
    refine ⟨hattempts, hle, hsent, fun _ => ⟨?_, rfl⟩, fun _ => rfl, nofun⟩
    exact lt_of_le_of_ne hattempts.2 hmore
  | sleeps hphase =>
    rw [hphase] at hsent hagain
    exact ⟨hattempts, hle, hsent, fun _ => hagain rfl, hlast, nofun⟩
  | wakes hchoice hphase =>
    rw [hphase] at hsent hagain
    have hcalled := hsent 1 rfl
    obtain ⟨hroom, hcause⟩ := hagain rfl
    refine ⟨⟨?_, ?_⟩, ?_, fun n hn => ?_, nofun, fun _ => hcause, nofun⟩
    · dsimp only
      omega
    · exact hroom
    · dsimp only
      omega
    · obtain rfl := Option.some.inj hn
      dsimp only
      omega

/-! ## 4. Permits -/

/-- What was acquired was completed, in this order, but for the permit in use. -/
def Accounted (w : Observed) : Prop := w.acquired = w.completed ++ w.call.phase.permit.toList

theorem accounted_step {w w' : Observed} {m : Moment} (hw : Accounted w) (h : Steps w m w') :
    Accounted w' := by
  unfold Accounted at hw ⊢
  cases h with
  | ctxDone => exact hw
  | failed hfails =>
    cases hfails with
    | exhausted hphase | expired hphase | unbudgeted hphase | rejected hphase
    | interrupted hphase =>
      rw [hphase] at hw
      exact hw
  | acquired hphase | finishes hphase | retries hphase =>
    rw [hphase] at hw
    simpa [Phase.permit] using hw
  | ready _ hphase | built hphase | notBuilt hphase | sends hphase | judges hphase
  | givesUp hphase | sleeps hphase | wakes _ hphase =>
    rw [hphase] at hw
    exact hw

/-! ## 5. Responses -/

end Observed

/-- The response in hand. -/
def Phase.inHand : Phase → Option Int
  | .judging _ result | .completing _ (.call result _) | .pausing result => result.status
  | .returned v => v.resp
  | _ => none

namespace Observed

/-- Every response is closed, but the one in hand, which has not been touched. -/
def Drained (w : Observed) : Prop :=
  ∃ done, (∀ b ∈ done, b.closed = true) ∧
    w.bodies = done ++ w.call.phase.inHand.toList.map .fresh

theorem returned_resp (result : CallResult) : result.returned.resp = result.status := by
  cases result <;> rfl

variable {w w' : Observed} {m : Moment} {policy : RetryPolicy} {deadline : Option Int}

theorem drained_step (hw : Drained w) (h : Steps w m w') :
    Drained w' := by
  obtain ⟨done, hdone, hbodies⟩ := hw
  cases h with
  | ctxDone => exact ⟨done, hdone, hbodies⟩
  | failed hfails =>
    cases hfails with
    | exhausted hphase | expired hphase | unbudgeted hphase | rejected hphase
    | interrupted hphase =>
      rw [hphase] at hbodies
      exact ⟨done, hdone, hbodies⟩
  | ready _ hphase | acquired hphase | built hphase | notBuilt hphase | judges hphase
  | retries hphase | wakes _ hphase =>
    rw [hphase] at hbodies
    exact ⟨done, hdone, hbodies⟩
  | sends hphase =>
    rw [hphase] at hbodies
    refine ⟨done, hdone, ?_⟩
    simp only [hbodies, Phase.inHand, Option.toList_none, List.map_nil, List.append_nil]
  | finishes hphase =>
    rename_i ended
    rw [hphase] at hbodies
    cases ended with
    | factory message => exact ⟨done, hdone, hbodies⟩
    | call result err =>
      refine ⟨done, hdone, ?_⟩
      simp only [Ended.returned, Phase.inHand, returned_resp]
      exact hbodies
  | givesUp hphase =>
    rw [hphase] at hbodies
    refine ⟨done, hdone, ?_⟩
    simp only [Phase.inHand, returned_resp]
    exact hbodies
  | @sleeps result now delay hphase =>
    rw [hphase] at hbodies
    cases result with
    | failed message => exact ⟨done, hdone, hbodies⟩
    | answered status =>
      -- the response in hand is read and closed
      refine ⟨done ++ [⟨status, true, true⟩], fun b hb => ?_, ?_⟩
      · rcases List.mem_append.mp hb with hb | hb
        · exact hdone b hb
        · rw [List.mem_singleton.mp hb]
      · simp [CallResult.drain, hbodies, Phase.inHand, CallResult.status]

/-! ## 6. What warrants another call -/

/-- The policy and the deadline are those the call began with. -/
def Given (policy : RetryPolicy) (deadline : Option Int) (w : Observed) : Prop :=
  w.call.policy = policy.normalized ∧ w.call.ctx.deadline = deadline

theorem given_step (hw : Given policy deadline w) (h : Steps w m w') :
    Given policy deadline w' := by
  cases h <;> exact hw

theorem normalized_gap (policy : RetryPolicy) : 0 < policy.normalized.minimumAttemptGap := by
  simp only [RetryPolicy.normalized]
  split
  · decide
  · omega

/-- The latest HTTP call was found to be retryable. -/
def Retried (w : Observed) (result : CallResult) (err : Option CtxErr) : Prop :=
  w.sent.getLast? = some result ∧ w.judged = some (result, err) ∧ shouldRetry err result = true

/-- ...and since then the call began to sleep for `delay` at `pausedAt`; and if there is a
deadline, there was time, unless the sum has wrapped. -/
def Paused (w : Observed) (pausedAt delay : Int) : Prop :=
  w.paused = some (pausedAt, delay) ∧ (InBigint (delay + w.call.policy.minimumAttemptGap) →
    ∀ deadline ∈ w.call.ctx.deadline,
      delay + w.call.policy.minimumAttemptGap < deadline - pausedAt)

/-- ...and came back to the top of the loop at `checkedAt` with the context alive; and if there is
a deadline, there was time for an attempt. -/
def Checked (w : Observed) (checkedAt : Int) : Prop :=
  w.checked = some (checkedAt, none) ∧
    ∀ deadline ∈ w.call.ctx.deadline, w.call.policy.minimumAttemptGap < deadline - checkedAt

/-- What is known in each phase. -/
def Warranted (w : Observed) : Prop :=
  match w.call.phase with
  | .judging _ result => w.sent.getLast? = some result
  | .completing _ (.call result err) =>
    w.sent.getLast? = some result ∧ w.judged = some (result, err)
  | .pausing result => ∃ err, Retried w result err
  | .sleeping => (∃ result err, Retried w result err) ∧ ∃ pausedAt delay, Paused w pausedAt delay
  | .top => 1 < w.call.attempt →
      (∃ result err, Retried w result err) ∧ ∃ pausedAt delay, Paused w pausedAt delay
  | .acquiring | .building _ | .calling _ => 1 < w.call.attempt →
      (∃ result err, Retried w result err) ∧ (∃ pausedAt delay, Paused w pausedAt delay) ∧
        ∃ checkedAt, Checked w checkedAt
  | .completing _ (.factory _) | .returned _ => True

/-- More remains than the gap, also when the difference saturates. -/
theorem lt_of_remaining {ctx : Ctx} {now gap : Int} (hgap : -(2 ^ 63) ≤ gap)
    (h : ctx.remainingAtMost now gap = false) :
    ∀ deadline ∈ ctx.deadline, gap < deadline - now := by
  intro deadline hdeadline
  rw [Option.mem_def] at hdeadline
  have hmore : ¬ timeUntil deadline now ≤ gap := by
    simpa [Ctx.remainingAtMost, hdeadline] using h
  unfold timeUntil maxInt64 at hmore
  omega

theorem warranted_step (hw : Warranted w) (hgap : 0 < w.call.policy.minimumAttemptGap)
    (h : Steps w m w') : Warranted w' := by
  cases h with
  | ctxDone => exact hw
  | failed | finishes | givesUp | notBuilt => trivial
  | @ready now hnow hphase hlive hbudget =>
    simp only [Warranted, hphase] at hw ⊢
    intro hmore
    obtain ⟨hretried, hpaused⟩ := hw hmore
    have hgap' : -(2 ^ 63) ≤ w.call.policy.minimumAttemptGap := by omega
    exact ⟨hretried, hpaused, now, rfl, lt_of_remaining hgap' (hbudget hmore)⟩
  | acquired hphase | built hphase =>
    simp only [Warranted, hphase] at hw ⊢
    exact hw
  | sends hphase => simp [Warranted]
  | judges hphase =>
    simp only [Warranted, hphase] at hw ⊢
    exact ⟨hw, trivial⟩
  | retries hphase hretry hmore =>
    simp only [Warranted, hphase] at hw ⊢
    exact ⟨_, hw.1, hw.2, hretry⟩
  | sleeps hphase hbudget =>
    simp only [Warranted, hphase] at hw ⊢
    obtain ⟨err, hretried⟩ := hw
    refine ⟨⟨_, err, hretried⟩, _, _, rfl, fun hfits => ?_⟩
    rw [wrap64_eq hfits] at hbudget
    exact lt_of_remaining hfits.1 hbudget
  | wakes hchoice hphase =>
    simp only [Warranted, hphase] at hw ⊢
    exact fun _ => hw

/-- The timer has run for the delay when the loop comes back. -/
def Slept (w : Observed) : Prop :=
  match w.call.phase with
  | .top => 1 < w.call.attempt → ∀ p ∈ w.paused, p.1 + p.2 ≤ w.clock
  | .acquiring | .building _ | .calling _ =>
    1 < w.call.attempt → ∀ p ∈ w.paused, ∀ c ∈ w.checked, p.1 + p.2 ≤ c.1
  | _ => True

theorem slept_step (hw : Slept w) (htimely : Timely w m) (h : Steps w m w') : Slept w' := by
  obtain ⟨hclock, hreading, hslept⟩ := htimely
  cases h with
  | ctxDone =>
    cases hphase : w.call.phase with
    | top =>
      simp only [Slept, hphase] at hw ⊢
      exact fun hmore p hp => (hw hmore p hp).trans hclock
    | acquiring | building permit | calling permit =>
      simp only [Slept, hphase] at hw ⊢
      exact hw
    | _ => simp only [Slept, hphase]
  | @ready now hnow hphase =>
    simp only [Slept, hphase] at hw ⊢
    intro hmore p hp c hc
    rw [← Option.some.inj hc, hreading now hnow]
    exact (hw hmore p hp).trans hclock
  | acquired hphase | built hphase =>
    simp only [Slept, hphase] at hw ⊢
    exact hw
  | wakes hchoice hphase => exact fun _ => hslept hchoice
  | failed | finishes | givesUp | notBuilt | sends | judges | retries | sleeps => trivial

/-! ## 7. The discipline -/

/-- What holds of a call at every moment. -/
structure Disciplined (policy : RetryPolicy) (deadline : Option Int) (w : Observed) : Prop where
  given : Given policy deadline w
  counted : Counted w
  accounted : Accounted w
  drained : Drained w
  warranted : Warranted w

theorem disciplined_start (policy : RetryPolicy) (deadline : Option Int) (now : Int) :
    Disciplined policy deadline (start policy deadline now) where
  given := ⟨rfl, rfl⟩
  counted := counted_start policy deadline now
  accounted := rfl
  drained := ⟨[], by simp, rfl⟩
  warranted h := absurd h (by simp [start])

theorem disciplined_step (hw : Disciplined policy deadline w) (h : w.step m = some w') :
    Disciplined policy deadline w' := by
  have hsteps := steps_of h
  have hgap : 0 < w.call.policy.minimumAttemptGap := hw.given.1 ▸ normalized_gap policy
  exact ⟨given_step hw.given hsteps, counted_step hw.counted hsteps,
    accounted_step hw.accounted hsteps, drained_step hw.drained hsteps,
    warranted_step hw.warranted hgap hsteps⟩

theorem slept_run {startedAt : Int} {ms : List Moment}
    (hrun : run step (start policy deadline startedAt) ms = some w)
    (htimely : Meets Timely step (start policy deadline startedAt) ms) : Slept w := by
  have hstart : Slept (start policy deadline startedAt) := fun h => absurd h (by simp [start])
  exact run_invariant_of (fun _ _ _ hw ht hstep => slept_step hw ht (steps_of hstep)) hstart
    htimely hrun

/-- **The retry discipline.**  In every run of a call of `Do`:

* at most `MaxAttempts` HTTP calls are made;
* another one is made only after the latest was found to be retryable, the context was alive at
  the top of the loop, and, if there is a deadline, more than `MinimumAttemptGap` remained there
  and more than `delay + MinimumAttemptGap` before the sleep; the latter if the sum fits into an
  `int64`, or else if a sleep takes its time and the clock does not go back;
* when `Do` returns, the permits acquired are the permits completed, one by one; the response it
  returns has not been touched and all others are closed; and it returns a response or an
  error. -/
theorem retry_discipline {policy : RetryPolicy} {deadline : Option Int} {startedAt : Int}
    {ms : List Moment} {w : Observed}
    (hrun : run step (start policy deadline startedAt) ms = some w) :
    (w.sent.length : Int) ≤ policy.normalized.maxAttempts ∧
    (∀ m w' result, w.step m = some w' → m.choice = .send result → w.sent ≠ [] →
      ∃ last err pausedAt delay checkedAt,
        w.sent.getLast? = some last ∧ shouldRetry err last = true ∧
        w.judged = some (last, err) ∧ w.paused = some (pausedAt, delay) ∧
        w.checked = some (checkedAt, none) ∧
        ∀ d ∈ deadline, policy.normalized.minimumAttemptGap < d - checkedAt ∧
          (InBigint (delay + policy.normalized.minimumAttemptGap) ∨
              Meets Timely step (start policy deadline startedAt) ms →
            delay + policy.normalized.minimumAttemptGap < d - pausedAt)) ∧
    ∀ v, w.call.phase = .returned v →
      w.completed = w.acquired ∧
      (∃ done, (∀ b ∈ done, b.closed = true) ∧
        w.bodies = done ++ v.resp.toList.map fun status => ⟨status, false, false⟩) ∧
      (v.resp.isSome ∨ v.err.isSome) := by
  have hinv : Disciplined policy deadline w :=
    run_invariant (fun _ _ _ hw hstep => disciplined_step hw hstep)
      (disciplined_start policy deadline startedAt) hrun
  obtain ⟨⟨hpolicy, hdeadline⟩, hcounted, haccounted, hdrained, hwarranted⟩ := hinv
  refine ⟨?_, ?_, ?_⟩
  · rw [← hpolicy]
    exact hcounted.sent_le.trans hcounted.attempts.2
  · intro m w' result hstep hchoice hsome
    obtain ⟨permit, hphase⟩ := calling_of_send hstep hchoice
    have hmore : 1 < w.call.attempt := by
      have hlength := hcounted.sent 0 (by rw [hphase]; rfl)
      have hpos := List.length_pos_iff.mpr hsome
      omega
    simp only [Warranted, hphase] at hwarranted
    obtain ⟨⟨last, err, hlast, hjudged, hretry⟩, ⟨pausedAt, delay, hpaused, hbudget⟩,
      checkedAt, hchecked, hremains⟩ := hwarranted hmore
    rw [hpolicy, hdeadline] at hbudget hremains
    refine ⟨last, err, pausedAt, delay, checkedAt, hlast, hretry, hjudged, hpaused, hchecked,
      fun d hd => ⟨hremains d hd, ?_⟩⟩
    rintro (hfits | htimely)
    · exact hbudget hfits d hd
    · -- what remains at the top of the loop has been there before the sleep, and the delay too
      have hslept := slept_run hrun htimely
      simp only [Slept, hphase] at hslept
      have hlate := hslept hmore _ hpaused _ hchecked
      have hgap := hremains d hd
      dsimp only at hlate
      omega
  · intro v hphase
    unfold Accounted at haccounted
    unfold Drained at hdrained
    rw [hphase] at haccounted hdrained
    exact ⟨(haccounted.trans (List.append_nil _)).symm, hdrained, hcounted.value v hphase⟩

/-- At the instant `now`, with a permit from the breaker if one is asked for. -/
def moment (now : Int) (permit : Nat) (choice : Choice) : Moment := ⟨now, .ok permit, choice⟩

/-- Two attempts: a request that is answered with 503, and the way to the next one. -/
def retriesOnce : List Moment :=
  [moment 0 0 (.check 0), moment 0 0 (.acquire 0), moment 0 0 (.build none),
    moment 1 0 (.send (.answered 503)), moment 1 0 .judge, moment 1 0 (.complete 1),
    moment 1 0 (.pause 1 0), moment 50000001 0 (.wake false), moment 50000001 0 (.check 50000001),
    moment 50000001 7 (.acquire 50000001), moment 50000001 0 (.build none)]

/-- The next one is answered with 200. -/
def thenAnswered : List Moment :=
  [moment 50000002 0 (.send (.answered 200)), moment 50000002 0 .judge,
    moment 50000002 0 (.complete 50000002)]

/-- With two attempts and a second of time, the second call is warranted, and when the response
is returned the first one has been closed. -/
theorem retry_discipline_once :
    (∃ w, run step (start ⟨2, 0, 0, 0⟩ (some second) 0) retriesOnce = some w ∧
      ∃ last err, w.sent.getLast? = some last ∧ shouldRetry err last = true) ∧
    ∃ w, run step (start ⟨2, 0, 0, 0⟩ (some second) 0) (retriesOnce ++ thenAnswered) = some w ∧
      w.call.phase = .returned ⟨some 200, none⟩ ∧ w.completed = w.acquired ∧
      ∃ done, (∀ b ∈ done, b.closed = true) ∧ w.bodies = done ++ [⟨200, false, false⟩] := by
  constructor
  · have hone : (run step (start ⟨2, 0, 0, 0⟩ (some second) 0) retriesOnce).map (·.sent) =
        some [.answered 503] := by decide +kernel
    obtain ⟨w, hw, hsent⟩ := Option.map_eq_some_iff.mp hone
    have hnext : (run step (start ⟨2, 0, 0, 0⟩ (some second) 0)
        (retriesOnce ++ [moment 50000002 0 (.send (.answered 200))])).isSome := by decide +kernel
    obtain ⟨w', hw'⟩ := Option.isSome_iff_exists.mp hnext
    obtain ⟨w₁, hw₁, hstep⟩ := run_snoc.mp hw'
    obtain rfl := Option.some.inj (hw.symm.trans hw₁)
    obtain ⟨last, err, -, -, -, hlast, hretry, -⟩ :=
      (retry_discipline hw).2.1 _ w' _ hstep rfl (by simp [hsent])
    exact ⟨w, hw, last, err, hlast, hretry⟩
  · have hreturned : (run step (start ⟨2, 0, 0, 0⟩ (some second) 0)
        (retriesOnce ++ thenAnswered)).map (·.call.phase) =
          some (.returned ⟨some 200, none⟩) := by decide +kernel
    obtain ⟨w, hw, hphase⟩ := Option.map_eq_some_iff.mp hreturned
    obtain ⟨hpermits, hbodies, -⟩ :=
      (retry_discipline hw).2.2 _ hphase
    exact ⟨w, hw, hphase, hpermits, hbodies⟩

/-! ## 8. Calls that share a breaker -/

theorem next_of_act {c c' : DoCall} {choice : Choice} (h : c.act c.phase choice = some c')
    (answer : Except CircuitOpenError Nat) : c.next answer choice = some c' := by
  unfold DoCall.next
  generalize c.phase = phase at h ⊢
  split
  · cases h
  · cases h
  · exact h

/-- **A step of calls that share a breaker** is a step of the call that makes it, and nothing to
the others. -/
theorem step_observed {s s' : Clients} {e : DoEvent} {p : Nat} (h : s.step e = some s')
    (hw : s.calls[p]? = some w.call) :
    s'.calls[p]? = some w.call ∨
      ∃ m w', e = .act p m.choice ∧ w.step m = some w' ∧ s'.calls[p]? = some w'.call := by
  -- a step of the call `q` that makes `c'` of it
  have hset : ∀ {q : Nat} {c c' : DoCall} (m : Moment), s.calls[q]? = some c →
      s'.calls = s.calls.set q c' → e = .act q m.choice → c.next m.answer m.choice = some c' →
      s'.calls[p]? = some w.call ∨
        ∃ m w', e = .act p m.choice ∧ w.step m = some w' ∧ s'.calls[p]? = some w'.call := by
    intro q c c' m hc hcalls he hnext
    by_cases hq : q = p
    · subst hq
      obtain rfl := Option.some.inj (hc.symm.trans hw)
      obtain ⟨hlt, -⟩ := List.getElem?_eq_some_iff.mp hc
      refine .inr ⟨m, w.observe m c', he, by simp [step, hnext], ?_⟩
      rw [hcalls, List.getElem?_set_self hlt]
      simp only [observe]
      split <;> first | rfl | (split <;> rfl)
    · left
      rw [hcalls, List.getElem?_set_ne hq, hw]
  cases step_cases h with
  | begin hshared hcalls =>
    left
    obtain ⟨hlt, -⟩ := List.getElem?_eq_some_iff.mp hw
    rw [hcalls, List.getElem?_append_left hlt, hw]
  | @acquired q now c probe hc hphase hok hshared hcalls =>
    exact hset ⟨now, .ok s.shared.calls.length, .acquire now⟩ hc hcalls rfl
      (by simp [DoCall.next, hphase])
  | @rejected q now c err hc hphase herr hshared hcalls =>
    exact hset ⟨now, .error err, .acquire now⟩ hc hcalls rfl (by simp [DoCall.next, hphase])
  | @completed q now c permit ended hc hphase hshared hcalls =>
    exact hset ⟨now, .ok permit, .complete now⟩ hc hcalls rfl (by simp [DoCall.next, hphase])
  | @alone q choice c c' hc hact hshared hcalls =>
    exact hset ⟨w.clock, .ok 0, choice⟩ hc hcalls rfl (next_of_act hact _)

/-- **Every call of a shared run** goes through a run of its own. -/
theorem calls_observed {key : GoString} {cfg : CircuitBreakerConfig} {es : List DoEvent}
    {s : Clients} (hrun : run Clients.step (Clients.start key cfg) es = some s) :
    ∀ (p : Nat) c, s.calls[p]? = some c → ∃ policy deadline ms w,
      run step (start policy deadline 0) ms = some w ∧ w.call = c := by
  refine run_invariant (I := fun s => ∀ (p : Nat) c, s.calls[p]? = some c → ∃ policy deadline ms w,
      run step (start policy deadline 0) ms = some w ∧ w.call = c) ?_ ?_ hrun
  · intro s e s' hs hstep p c hc
    cases hbefore : s.calls[p]? with
    | some c₀ =>
      obtain ⟨policy, deadline, ms, w, hms, rfl⟩ := hs p c₀ hbefore
      rcases step_observed hstep hbefore with hsame | ⟨m, w', -, hw', hc'⟩
      · exact ⟨policy, deadline, ms, w, hms, Option.some.inj (hsame.symm.trans hc)⟩
      · exact ⟨policy, deadline, ms ++ [m], w', run_snoc.mpr ⟨w, hms, hw'⟩,
          Option.some.inj (hc'.symm.trans hc)⟩
    | none =>
      -- the call has just begun
      cases step_cases hstep with
      | @begin policy deadline hshared hcalls =>
        rw [hcalls, List.getElem?_append_right (List.getElem?_eq_none_iff.mp hbefore)] at hc
        obtain rfl := List.mem_singleton.mp (List.mem_of_getElem? hc)
        exact ⟨policy, deadline, [], _, rfl, rfl⟩
      | acquired _ _ _ _ hcalls | rejected _ _ _ _ hcalls | completed _ _ _ hcalls
      | alone _ _ _ hcalls =>
        have hnone : s'.calls[p]? = none := by
          rw [hcalls, List.getElem?_eq_none_iff, List.length_set]
          exact List.getElem?_eq_none_iff.mp hbefore
        cases hnone.symm.trans hc
  · intro p c hc
    cases hc

end Observed

end OrderSystem.Resilience
