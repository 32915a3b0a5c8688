/-
# What the buckets of the limiter hold

The facts about single buckets that hold in every reachable state, zero time or not: a bucket
holds between no token and its burst, and it was last refilled in the past (`Sound`).  A refill
in two steps is the refill in one (`refill_refill`), except that an intermediate refill at the
zero time leaves the mark of an unfilled bucket, which the next one fills up
(`refill_refill_zero`).

The answer of `Allow` depends on the tokens of two buckets only (`Config.verdict`,
`allow_answer`).
-/
import OrderSystem.RateLimit.Limiter

namespace OrderSystem.RateLimit

open Kit

/-! ## 1. Refills -/

section

variable {b : Bucket} {rate : ℚ} {burst now : Int}

theorem refill_zero (hzero : b.last = 0) :
    refill b rate burst now = { b with last := now, tokens := burst } := by
  unfold refill
  rw [if_pos hzero]

theorem refill_same (hzero : b.last ≠ 0) (hnow : now ≤ b.last) : refill b rate burst now = b := by
  have helapsed : seconds (now - b.last) ≤ 0 := seconds_nonpos.mpr (by omega)
  unfold refill
  rw [if_neg hzero]
  exact if_pos helapsed

theorem refill_later (hzero : b.last ≠ 0) (hnow : b.last < now) :
    refill b rate burst now =
      { b with tokens := min (burst : ℚ) (b.tokens + seconds (now - b.last) * rate),
               last := now } := by
  have helapsed : ¬ seconds (now - b.last) ≤ 0 := by
    rw [seconds_nonpos]
    omega
  unfold refill
  rw [if_neg hzero]
  exact if_neg helapsed

/-- The time of the last call is not read by a refill. -/
theorem refill_seen (seen : Int) :
    refill { b with lastSeen := seen } rate burst now =
      { refill b rate burst now with lastSeen := seen } := by
  by_cases hzero : b.last = 0
  · rw [refill_zero hzero, refill_zero (b := { b with lastSeen := seen }) hzero]
  · rcases le_or_gt now b.last with hnow | hnow
    · rw [refill_same hzero hnow, refill_same (b := { b with lastSeen := seen }) hzero hnow]
    · rw [refill_later hzero hnow, refill_later (b := { b with lastSeen := seen }) hzero hnow]

theorem refill_last (h : b.last ≤ now) : (refill b rate burst now).last = now := by
  by_cases hzero : b.last = 0
  · rw [refill_zero hzero]
  · rcases h.eq_or_lt with heq | hlt
    · rw [refill_same hzero heq.ge, heq]
    · rw [refill_later hzero hlt]

theorem refill_nonneg (hburst : 0 < burst) (hrate : 0 < rate) (h : 0 ≤ b.tokens) :
    0 ≤ (refill b rate burst now).tokens := by
  have hburst' : (0 : ℚ) ≤ burst := Int.cast_nonneg hburst.le
  by_cases hzero : b.last = 0
  · rw [refill_zero hzero]
    exact hburst'
  · rcases le_or_gt now b.last with hnow | hnow
    · rw [refill_same hzero hnow]
      exact h
    · have helapsed : 0 < seconds (now - b.last) := by
        rw [← not_le, seconds_nonpos]
        omega
      rw [refill_later hzero hnow]
      exact le_min hburst' (add_nonneg h (mul_nonneg helapsed.le hrate.le))

theorem refill_le_burst (h : b.tokens ≤ burst) : (refill b rate burst now).tokens ≤ burst := by
  by_cases hzero : b.last = 0
  · rw [refill_zero hzero]
  · rcases le_or_gt now b.last with hnow | hnow
    · rw [refill_same hzero hnow]
      exact h
    · rw [refill_later hzero hnow]
      exact min_le_left _ _

/-- A full bucket is not changed but in its time. -/
theorem refill_full (hrate : 0 < rate) (hnow : b.last ≤ now) (h : b.tokens = burst) :
    (refill b rate burst now).tokens = burst := by
  by_cases hzero : b.last = 0
  · rw [refill_zero hzero]
  · rcases hnow.eq_or_lt with heq | hlt
    · rw [refill_same hzero heq.ge, h]
    · have helapsed : 0 < seconds (now - b.last) := by
        rw [← not_le, seconds_nonpos]
        omega
      rw [refill_later hzero hlt]
      exact min_eq_left (by rw [h]; nlinarith)

/-- **A refill on the way** changes nothing, unless it happens at the zero time. -/
theorem refill_refill {between : Int} (hrate : 0 < rate) (hlast : b.last ≤ between)
    (hnow : between ≤ now) (hne : between ≠ 0) :
    refill (refill b rate burst between) rate burst now = refill b rate burst now := by
  have hmid : (refill b rate burst between).last = between := refill_last hlast
  rcases hnow.eq_or_lt with rfl | hlt'
  · exact refill_same (hmid.trans_ne hne) hmid.ge
  · rw [refill_later (hmid.trans_ne hne) (hmid.trans_lt hlt'), hmid]
    have hearned : 0 ≤ seconds (now - between) * rate := by
      refine mul_nonneg (le_of_not_ge fun h => ?_) hrate.le
      have := seconds_nonpos.mp h
      omega
    by_cases hzero : b.last = 0
    · rw [refill_zero hzero, refill_zero hzero]
      dsimp only
      rw [min_eq_left (by linarith)]
    · rcases hlast.eq_or_lt with rfl | hlt
      · rw [refill_same hzero le_rfl, refill_later hzero hlt']
      · rw [refill_later hzero hlt, refill_later hzero (hlt.trans hlt')]
        dsimp only
        rw [min_earned_earned _ _ _ hearned, add_assoc, ← add_mul]
        simp only [seconds_sub, sub_add_sub_cancel']

theorem refill_refill_zero (hlast : b.last ≤ 0) :
    (refill (refill b rate burst 0) rate burst now).tokens = burst := by
  rw [refill_zero (refill_last hlast)]

end

/-! ## 2. The answer -/

/-- The answer to a call that finds so many tokens in the global bucket and in its client's. -/
def Config.verdict (cfg : Config) (global client : ℚ) : Bool × Int :=
  let globalWait := waitDuration global cfg.globalRate
  let clientWait := waitDuration client cfg.perClientRate
  if 0 < globalWait ∨ 0 < clientWait then
    (false, if globalWait < clientWait then clientWait else globalWait)
  else (true, 0)

theorem allow_answer (l : Limiter) (order : List GoString) (key : GoString) (now : Int) :
    (l.allow order key now).2 = l.cfg.verdict
      (refill l.global l.cfg.globalRate l.cfg.globalBurst now).tokens
      (refill (l.clientBucket key now) l.cfg.perClientRate l.cfg.perClientBurst now).tokens := by
  have hbucket : ((l.cleanupLocked now).clientLocked order key now).2 =
      l.clientBucket key now := by
    rw [clientLocked_bucket, cleanupLocked_cfg, Limiter.clientBucket]
  simp only [Limiter.allow, Config.verdict, hbucket, clientLocked_cfg, clientLocked_global,
    cleanupLocked_cfg, cleanupLocked_global]
  split <;> rfl

theorem verdict_allowed {cfg : Config} (hv : cfg.Valid) {global client : ℚ} :
    (cfg.verdict global client).1 = true ↔ 1 ≤ global ∧ 1 ≤ client := by
  simp only [Config.verdict, waitDuration_pos hv.globalRate, waitDuration_pos hv.perClientRate]
  split
  · rename_i hshort
    rw [← not_lt, ← not_lt, ← not_or]
    simp [hshort]
  · rename_i hpaid
    rw [not_or, not_lt, not_lt] at hpaid
    simp [hpaid]

/-- A rejected call is told to wait for both buckets. -/
theorem verdict_rejected {cfg : Config} {global client : ℚ} {w : Int}
    (h : cfg.verdict global client = (false, w)) :
    0 < w ∧ waitDuration global cfg.globalRate ≤ w ∧
      waitDuration client cfg.perClientRate ≤ w := by
  simp only [Config.verdict] at h
  split at h
  · rename_i hshort
    obtain rfl := (Prod.mk.inj h).2
    split <;> omega
  · cases (Prod.mk.inj h).1

/-! ## 3. Every reachable state -/

structure Bucket.Sound (burst now : Int) (b : Bucket) : Prop where
  nonneg : 0 ≤ b.tokens
  capped : b.tokens ≤ burst
  past : b.last ≤ now

/-- A call charged to a bucket leaves a sound one. -/
theorem Bucket.Sound.charged {burst now later : Int} {rate : ℚ} {b : Bucket} {allowed : Bool}
    (h : b.Sound burst now) (hlater : now ≤ later) (hburst : 0 < burst) (hrate : 0 < rate)
    (hpaid : allowed = true → 1 ≤ (refill b rate burst later).tokens) :
    (({ refill b rate burst later with lastSeen := later } : Bucket).charge allowed).Sound
      burst later := by
  have hnonneg : 0 ≤ (refill b rate burst later).tokens := refill_nonneg hburst hrate h.nonneg
  have hcapped : (refill b rate burst later).tokens ≤ burst := refill_le_burst h.capped
  have hlast : (refill b rate burst later).last = later := refill_last (h.past.trans hlater)
  cases allowed with
  | false => exact ⟨hnonneg, hcapped, hlast.le⟩
  | true =>
    refine ⟨sub_nonneg.mpr (hpaid rfl), ?_, hlast.le⟩
    exact (sub_le_self _ zero_le_one).trans hcapped

structure Sound (cfg : Config) (s : System) : Prop where
  config : s.limiter.cfg = cfg
  global : s.limiter.global.Sound cfg.globalBurst s.clock
  client : ∀ k b, s.limiter.clients.lookup k = some b → b.Sound cfg.perClientBurst s.clock

theorem sound_start (cfg : Config) (startedAt : Int) :
    Sound cfg.normalized (start cfg startedAt) where
  config := rfl
  global := ⟨Int.cast_nonneg cfg.normalized_valid.globalBurst.le, le_rfl, le_rfl⟩
  client _ _ h := nomatch h

/-- The bucket a call is charged to is sound as well: it is one of the map, or a new one. -/
theorem Sound.clientBucket {cfg : Config} {s : System} (hs : Sound cfg s) (hv : cfg.Valid)
    {now : Int} (key : GoString) (hnow : s.clock ≤ now) :
    (s.limiter.clientBucket key now).Sound cfg.perClientBurst now := by
  unfold Limiter.clientBucket
  cases hlookup : (s.limiter.cleanupLocked now).clients.lookup (clientKey key) with
  | none =>
    rw [hs.config]
    exact ⟨Int.cast_nonneg hv.perClientBurst.le, le_rfl, le_rfl⟩
  | some b =>
    have hheld : s.limiter.clients.lookup (clientKey key) = some b := by
      rcases cleanupLocked_lookup s.limiter now (clientKey key) with h | h
      · exact h ▸ hlookup
      · exact absurd hlookup (by simp [h])
    obtain ⟨hnonneg, hcapped, hpast⟩ := hs.client _ b hheld
    exact ⟨hnonneg, hcapped, hpast.trans hnow⟩

theorem sound_step {cfg : Config} (hv : cfg.Valid) {s s' : System} {e : AllowCall}
    (hs : Sound cfg s) (h : step s e = some s') : Sound cfg s' := by
  obtain rfl := hs.config
  obtain ⟨allowed, hcharged, hclock, hnow, -, -⟩ := step_charged hv h
  refine ⟨hcharged.cfg, ?_, ?_⟩
  · rw [hcharged.global, hnow]
    exact hs.global.charged hclock hv.globalBurst hv.globalRate fun ha => (hcharged.paid ha).1
  · intro k b hb
    rw [hnow]
    by_cases hk : k = clientKey e.key
    · obtain rfl := Option.some.inj (hcharged.client.symm.trans (hk ▸ hb))
      exact (hs.clientBucket hv e.key hclock).charged le_rfl hv.perClientBurst hv.perClientRate
        fun ha => (hcharged.paid ha).2
    · rcases hcharged.others k hk with hsame | hgone
      · obtain ⟨hnonneg, hcapped, hpast⟩ := hs.client k b (hsame ▸ hb)
        exact ⟨hnonneg, hcapped, hpast.trans hclock⟩
      · exact absurd hb (by simp [hgone])

theorem sound_run {cfg : Config} {startedAt : Int} {es : List AllowCall} {s : System}
    (hrun : run step (start cfg startedAt) es = some s) : Sound cfg.normalized s :=
  run_invariant (fun _ _ _ => sound_step cfg.normalized_valid) (sound_start cfg startedAt) hrun

end OrderSystem.RateLimit
