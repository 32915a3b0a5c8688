/-
# How many calls the limiter admits

A token bucket bounds the admissions in every window by its burst and what its rate brings in
the window (`Kit.Metered`).  The limiter keeps that bound as long as every refill brings no more
than the rate has earned, and there are two places where it may bring more:

* `refill` takes a bucket whose `last` is the zero time for one that was never filled, and fills
  it up.  A clock that reads the zero time, and goes on reading it, admits everything;
* `clientLocked` hands out a full bucket to a client that is not in the map.  The client may
  have been deleted from it, by the cleanup or by the arrival of another client, with its bucket
  empty a moment ago.

The first does not happen to a limiter that `New` has made, whose clock is `time.Now` and never
reads the zero time; that is what the bound on all calls needs (`global_rate_bound`).  For the bound
on the calls of one client (`client_rate_bound`) the condition on the steps is `ClientDue`: a bucket
that is filled up would have been full by then.
-/
import OrderSystem.RateLimit.Limiter

namespace OrderSystem.RateLimit

open Kit

/-! ## 1. One bucket, one call -/

theorem admitted_append (calls : List Call) (call : Call) :
    admitted (calls ++ [call]) =
      admitted calls ++ if call.allowed then [seconds call.time] else [] := by
  simp only [admitted, List.filter_append, List.map_append, List.filter_singleton]
  split <;> simp [*]

/-- **A call charged to a bucket** keeps what the bucket says about the admissions. -/
theorem charge_metered {rate : ℚ} {burst now : Int} {log : List ℚ} {b : Bucket} {allowed : Bool}
    (h : Metered rate (burst : ℚ) log b.tokens (seconds b.last)) (hrate : 0 ≤ rate)
    (hlast : b.last ≤ now) (hdue : b.last = 0 → Due rate burst now b)
    (hpaid : allowed = true → 1 ≤ (refill b rate burst now).tokens) :
    (({ refill b rate burst now with lastSeen := now } : Bucket).charge allowed).last = now ∧
      Metered rate (burst : ℚ) (log ++ if allowed then [seconds now] else [])
        (({ refill b rate burst now with lastSeen := now } : Bucket).charge allowed).tokens
        (seconds now) := by
  obtain ⟨hnow, hcap, hearned⟩ := refill_spec hdue hlast h.capped
  have hfilled := h.refill hrate (seconds_le.mpr hlast) hcap hearned
  cases allowed with
  | false =>
    rw [if_neg Bool.false_ne_true, List.append_nil]
    exact ⟨hnow, hfilled⟩
  | true =>
    rw [if_pos rfl]
    exact ⟨hnow, hfilled.take hrate (hpaid rfl)⟩

/-! ## 2. All calls -/

structure GlobalMetered (cfg : Config) (s : System) : Prop where
  config : s.limiter.cfg = cfg
  filled : s.limiter.global.last ≠ 0
  past : s.limiter.global.last ≤ s.clock
  metered : Metered cfg.globalRate (cfg.globalBurst : ℚ) (admitted s.calls)
    s.limiter.global.tokens (seconds s.limiter.global.last)

theorem globalMetered_start (cfg : Config) {startedAt : Int} (hstart : startedAt ≠ 0) :
    GlobalMetered cfg.normalized (start cfg startedAt) where
  config := rfl
  filled := hstart
  past := le_rfl
  metered := by
    have hv := cfg.normalized_valid
    exact metered_full hv.globalRate.le (Int.cast_nonneg hv.globalBurst.le) _

theorem globalMetered_step {cfg : Config} (hv : cfg.Valid) {s s' : System} {e : AllowCall}
    (hs : GlobalMetered cfg s) (hnow : e.now ≠ 0) (h : step s e = some s') :
    GlobalMetered cfg s' := by
  obtain ⟨hcfg, hfilled, hpast, hmetered⟩ := hs
  subst hcfg
  obtain ⟨allowed, hcharged, hclock, hclock', hcalls, -⟩ := step_charged hv h
  obtain ⟨hlast, hafter⟩ := charge_metered hmetered hv.globalRate.le (hpast.trans hclock)
    (fun hzero => absurd hzero hfilled) fun ha => (hcharged.paid ha).1
  refine ⟨hcharged.cfg, ?_, ?_, ?_⟩
  · rw [hcharged.global, hlast]
    exact hnow
  · rw [hcharged.global, hlast, hclock']
  · rw [hcalls, admitted_append, hcharged.global, hlast]
    exact hafter

/-- **The bound on all calls.**  If the clock never reads the zero time: in any window of length
`T`, at most `GlobalBurst + GlobalRate * T` calls are admitted. -/
theorem global_rate_bound {cfg : Config} {startedAt : Int} {es : List AllowCall} {s : System}
    (hrun : run step (start cfg startedAt) es = some s) (hstart : startedAt ≠ 0)
    (hclock : ∀ e ∈ es, e.now ≠ 0) (a T : ℚ) (hT : 0 ≤ T) :
    (countIn (admitted s.calls) a T : ℚ) ≤
      cfg.normalized.globalBurst + cfg.normalized.globalRate * T := by
  have hmeets : Meets (fun _ e => e.now ≠ 0) step (start cfg startedAt) es :=
    meets_of_forall (fun e he _ => hclock e he) _
  have hinv : GlobalMetered cfg.normalized s :=
    run_invariant_of (fun _ _ _ hs hn hstep => globalMetered_step cfg.normalized_valid hs hn hstep)
      (globalMetered_start cfg hstart) hmeets hrun
  exact hinv.metered.window a T hT

/-- One token a second, for everyone and for each client, and room for one client. -/
def single : Config := ⟨1, 1, 1, 1, 1, second, second⟩

/-- Two calls a second apart, by different clients.  The second one deletes the first client. -/
def twoClients : List AllowCall :=
  [⟨second, str "a", []⟩, ⟨2 * second, str "b", [str "a"]⟩]

/-- Both are admitted, which is all that the window of one second allows. -/
theorem global_rate_bound_twoClients :
    ∃ s, run step (start single second) twoClients = some s ∧
      countIn (admitted s.calls) 1 1 = 2 ∧
      (countIn (admitted s.calls) 1 1 : ℚ) ≤
        single.normalized.globalBurst + single.normalized.globalRate * 1 := by
  have hcount : (run step (start single second) twoClients).map
      (fun s => countIn (admitted s.calls) 1 1) = some 2 := by decide +kernel
  obtain ⟨s, hs, htwo⟩ := Option.map_eq_some_iff.mp hcount
  exact ⟨s, hs, htwo, global_rate_bound hs (by decide) (by decide +kernel) 1 1 (by norm_num)⟩

/-! ## 3. The calls of one client -/

/-- At a call of the client `k`, if it has no bucket, or one that `refill` takes for an unfilled
one, then the bucket its latest call left behind is due. -/
def ClientDue (k : GoString) (s : System) (e : AllowCall) : Prop :=
  clientKey e.key = clientKey k →
    (∀ b ∈ (s.limiter.cleanupLocked e.now).clients.lookup (clientKey k), b.last = 0) →
      ∀ b ∈ s.last (clientKey k),
        Due s.limiter.cfg.perClientRate s.limiter.cfg.perClientBurst e.now b

instance (k : GoString) (s : System) (e : AllowCall) : Decidable (ClientDue k s e) :=
  inferInstanceAs (Decidable (_ → _ → _))

/-- The admissions that were charged to the key `k` of the map. -/
def chargedTo (k : GoString) (calls : List Call) : List ℚ :=
  admitted (calls.filter fun call => clientKey call.key = k)

theorem chargedTo_append_self (calls : List Call) (call : Call) :
    chargedTo (clientKey call.key) (calls ++ [call]) =
      chargedTo (clientKey call.key) calls ++
        if call.allowed then [seconds call.time] else [] := by
  simp only [chargedTo, List.filter_append]
  rw [← admitted_append]
  simp

theorem chargedTo_append_ne {k : GoString} (calls : List Call) {call : Call}
    (hk : k ≠ clientKey call.key) : chargedTo k (calls ++ [call]) = chargedTo k calls := by
  simp [chargedTo, List.filter_append, hk.symm]

structure ClientMetered (cfg : Config) (k : GoString) (s : System) : Prop where
  config : s.limiter.cfg = cfg
  /-- before its first call, a client has no bucket -/
  unknown : s.last k = none → s.limiter.clients.lookup k = none ∧ chargedTo k s.calls = []
  past : ∀ b, s.last k = some b → b.last ≤ s.clock
  same : ∀ b b', s.last k = some b → s.limiter.clients.lookup k = some b' → b' = b
  metered : ∀ b, s.last k = some b →
    Metered cfg.perClientRate (cfg.perClientBurst : ℚ) (chargedTo k s.calls) b.tokens
      (seconds b.last)

theorem clientMetered_start (cfg : Config) (k : GoString) (startedAt : Int) :
    ClientMetered cfg.normalized k (start cfg startedAt) where
  config := rfl
  unknown _ := ⟨rfl, rfl⟩
  past _ h := nomatch h
  same _ _ h := nomatch h
  metered _ h := nomatch h

/-- The bucket that a call of the client is charged to accounts for the client's admissions,
whether it is the one of the latest call, a full one in its place or the client's first. -/
theorem ClientMetered.bucket {s : System} {e : AllowCall}
    (hs : ClientMetered s.limiter.cfg (clientKey e.key) s) (hv : s.limiter.cfg.Valid)
    (hclock : s.clock ≤ e.now) (hdue : ClientDue e.key s e) :
    (s.limiter.clientBucket e.key e.now).last ≤ e.now ∧
      ((s.limiter.clientBucket e.key e.now).last = 0 →
        Due s.limiter.cfg.perClientRate s.limiter.cfg.perClientBurst e.now
          (s.limiter.clientBucket e.key e.now)) ∧
      Metered s.limiter.cfg.perClientRate (s.limiter.cfg.perClientBurst : ℚ)
        (chargedTo (clientKey e.key) s.calls) (s.limiter.clientBucket e.key e.now).tokens
        (seconds (s.limiter.clientBucket e.key e.now).last) := by
  have hfull : Due s.limiter.cfg.perClientRate s.limiter.cfg.perClientBurst e.now
      ⟨s.limiter.cfg.perClientBurst, e.now, e.now⟩ := by simp [Due]
  have hdue := hdue rfl
  have hcleaned := cleanupLocked_lookup s.limiter e.now (clientKey e.key)
  unfold Limiter.clientBucket
  cases hlookup : (s.limiter.cleanupLocked e.now).clients.lookup (clientKey e.key) with
  | none =>
    rw [Option.getD_none]
    refine ⟨le_rfl, fun _ => hfull, ?_⟩
    cases hknown : s.last (clientKey e.key) with
    | none =>
      rw [(hs.unknown hknown).2]
      exact metered_full hv.perClientRate.le (Int.cast_nonneg hv.perClientBurst.le) _
    | some b =>
      -- the bucket was deleted, and by now it would have been full
      refine (hs.metered b hknown).refill hv.perClientRate.le ?_ le_rfl ?_
      · exact seconds_le.mpr ((hs.past b hknown).trans hclock)
      · exact hdue (by simp [hlookup]) b hknown
  | some b =>
    rw [Option.getD_some]
    have hheld : s.limiter.clients.lookup (clientKey e.key) = some b := by
      rcases hcleaned with h | h <;> simp_all
    have hknown : s.last (clientKey e.key) = some b := by
      cases hlast : s.last (clientKey e.key) with
      | none => exact absurd hheld (by simp [(hs.unknown hlast).1])
      | some b' => rw [hs.same b' b hlast hheld]
    refine ⟨(hs.past b hknown).trans hclock, fun hzero => ?_, hs.metered b hknown⟩
    exact hdue (by simp [hlookup, hzero]) b hknown

theorem clientMetered_step {cfg : Config} (hv : cfg.Valid) {k : GoString} {s s' : System}
    {e : AllowCall} (hs : ClientMetered cfg (clientKey k) s) (hdue : ClientDue k s e)
    (h : step s e = some s') : ClientMetered cfg (clientKey k) s' := by
  obtain rfl := hs.config
  obtain ⟨allowed, hcharged, hclock, hnow, hcalls, hlast⟩ := step_charged hv h
  by_cases hk : clientKey k = clientKey e.key
  · rw [hk] at hs ⊢
    have hdue : ClientDue e.key s e := fun _ => hk ▸ hdue hk.symm
    obtain ⟨hpast, hfilled, hmetered⟩ := hs.bucket hv hclock hdue
    obtain ⟨hat, hafter⟩ := charge_metered hmetered hv.perClientRate.le hpast hfilled
      fun ha => (hcharged.paid ha).2
    rw [hcharged.client] at hlast
    have hbucket := congrFun hlast (clientKey e.key)
    rw [Function.update_self] at hbucket
    refine ⟨hcharged.cfg, fun hnone => ?_, fun b hb => ?_, fun b b' hb hb' => ?_, fun b hb => ?_⟩
    · rw [hbucket] at hnone
      cases hnone
    · obtain rfl := Option.some.inj (hbucket.symm.trans hb)
      rw [hat, hnow]
    · exact Option.some.inj (hb'.symm.trans (hcharged.client.trans (hbucket.symm.trans hb)))
    · obtain rfl := Option.some.inj (hbucket.symm.trans hb)
      rw [hcalls, chargedTo_append_self _ ⟨e.now, e.key, allowed⟩, hat]
      exact hafter
  · -- another client's call: the bucket stays as it is, or is deleted
    have hkept : s'.last (clientKey k) = s.last (clientKey k) := by
      rw [hlast, Function.update_of_ne hk]
    have hlog : chargedTo (clientKey k) s'.calls = chargedTo (clientKey k) s.calls := by
      rw [hcalls]
      exact chargedTo_append_ne _ hk
    have hothers := hcharged.others (clientKey k) hk
    refine ⟨hcharged.cfg, fun hnone => ?_, fun b hb => ?_, fun b b' hb hb' => ?_, fun b hb => ?_⟩
    · obtain ⟨hmissing, hempty⟩ := hs.unknown (hkept ▸ hnone)
      exact ⟨hothers.elim (·.trans hmissing) id, hlog ▸ hempty⟩
    · rw [hnow]
      exact (hs.past b (hkept ▸ hb)).trans hclock
    · rcases hothers with hsame | hgone
      · exact hs.same b b' (hkept ▸ hb) (hsame ▸ hb')
      · exact absurd hb' (by simp [hgone])
    · rw [hlog]
      exact hs.metered b (hkept ▸ hb)

/-- **The bound on the calls of one client.**  In any window of length `T`, at most
`PerClientBurst + PerClientRate * T` calls with the key `k` are admitted. -/
theorem client_rate_bound {cfg : Config} {startedAt : Int} {es : List AllowCall} {s : System}
    (k : GoString) (hrun : run step (start cfg startedAt) es = some s)
    (hdue : Meets (ClientDue k) step (start cfg startedAt) es) (a T : ℚ) (hT : 0 ≤ T) :
    (countIn (admitted (s.calls.filter fun call => call.key = k)) a T : ℚ) ≤
      cfg.normalized.perClientBurst + cfg.normalized.perClientRate * T := by
  have hv := cfg.normalized_valid
  have hinv : ClientMetered cfg.normalized (clientKey k) s :=
    run_invariant_of (fun _ _ _ hs hd hstep => clientMetered_step hv hs hd hstep)
      (clientMetered_start cfg (clientKey k) startedAt) hdue hrun
  -- the calls with the key `k` are among those charged to its bucket
  have hsub : List.Sublist (admitted (s.calls.filter fun call => call.key = k))
      (chargedTo (clientKey k) s.calls) := by
    refine ((List.monotone_filter_right s.calls fun call hcall => ?_).filter _).map _
    simp only [decide_eq_true_eq] at hcall ⊢
    rw [hcall]
  have hcount : (countIn (admitted (s.calls.filter fun call => call.key = k)) a T : ℚ) ≤
      countIn (chargedTo (clientKey k) s.calls) a T := Nat.cast_le.mpr hsub.countP_le
  refine hcount.trans ?_
  cases hlast : s.last (clientKey k) with
  | none =>
    rw [(hinv.unknown hlast).2]
    exact (metered_full hv.perClientRate.le (Int.cast_nonneg hv.perClientBurst.le) 0).window a T hT
  | some b => exact (hinv.metered b hlast).window a T hT

/-- The client that was deleted comes back when its bucket would have been full. -/
def comesBack : List AllowCall := twoClients ++ [⟨3 * second, str "a", [str "b"]⟩]

theorem client_rate_bound_comesBack :
    ∃ s, run step (start single second) comesBack = some s ∧
      countIn (admitted (s.calls.filter fun call => call.key = str "a")) 1 2 = 2 ∧
      (countIn (admitted (s.calls.filter fun call => call.key = str "a")) 1 2 : ℚ) ≤
        single.normalized.perClientBurst + single.normalized.perClientRate * 2 := by
  have hcount : (run step (start single second) comesBack).map
      (fun s => countIn (admitted (s.calls.filter fun call => call.key = str "a")) 1 2) =
        some 2 := by decide +kernel
  obtain ⟨s, hs, htwo⟩ := Option.map_eq_some_iff.mp hcount
  exact ⟨s, hs, htwo, client_rate_bound (str "a") hs (by decide +kernel) 1 2 (by norm_num)⟩

/-- Room for one client, and tokens for three calls in all. -/
def crowded : Config := { single with globalBurst := 3 }

/-- At one instant, the client is admitted, another client takes its place in the map, and the
client is admitted again: two calls, although its burst is one. -/
theorem client_rate_exceeded :
    (run step (start crowded second) [⟨second, str "a", []⟩, ⟨second, str "b", [str "a"]⟩,
        ⟨second, str "a", [str "b"]⟩]).map
        (fun s => countIn (admitted (s.calls.filter fun call => call.key = str "a")) 1 0) =
      some 2 ∧
      ¬ (2 : ℚ) ≤ crowded.normalized.perClientBurst + crowded.normalized.perClientRate * 0 := by
  constructor <;> decide +kernel

end OrderSystem.RateLimit
