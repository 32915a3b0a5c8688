/-
# How long a rejected client has to wait

`Allow` tells a rejected call how long to wait, and the gateway passes it on in whole seconds.
The wait is enough when nothing is admitted in the meantime, whatever else happens: `Ready` says
of a bucket that from some instant on a refill finds a token in it, and it survives the refills
of other rejected calls (`Ready.refilled`).  A client whose bucket is deleted gets a full one, so
the deletions can only help.
-/
import OrderSystem.RateLimit.Bounds
import OrderSystem.RateLimit.Buckets

namespace OrderSystem.RateLimit

open Kit

/-! ## 1. The wait and the bucket -/

/-- The value of `Retry-After` that the gateway sends for a wait. -/
def retryAfterSeconds (wait : Int) : Int :=
  let whole := ⌈seconds wait⌉
  if whole < 1 then 1 else whole

theorem le_retryAfterSeconds (wait : Int) : wait ≤ retryAfterSeconds wait * second := by
  have hceil : seconds wait ≤ (⌈seconds wait⌉ : ℚ) := Int.le_ceil _
  have hwait : wait ≤ ⌈seconds wait⌉ * second := by
    rw [seconds, div_le_iff₀ second_pos, ← seconds] at hceil
    exact_mod_cast hceil
  simp only [retryAfterSeconds]
  split
  · have hle : ⌈seconds wait⌉ * second ≤ 1 * second :=
      Int.mul_le_mul_of_nonneg_right (by omega) (by decide)
    omega
  · exact hwait

/-- After its wait, a bucket has earned the token that was missing. -/
theorem waitDuration_enough {tokens rate : ℚ} {d : Int} (hrate : 0 < rate) (hd : 0 ≤ d)
    (h : waitDuration tokens rate ≤ d) : 1 ≤ tokens + seconds d * rate := by
  have hsec : 0 ≤ seconds d := div_nonneg (Int.cast_nonneg hd) second_pos.le
  by_cases htokens : 1 ≤ tokens
  · have hearned : 0 ≤ seconds d * rate := mul_nonneg hsec hrate.le
    linarith
  · have hwait : 0 < (1 - tokens) / rate := div_pos (by linarith) hrate
    simp only [waitDuration, htokens, not_le.mpr hwait, if_false] at h
    have hle : (1 - tokens) / rate * (second : ℚ) ≤ d := (Int.le_ceil _).trans (Int.cast_le.mpr h)
    rw [← le_div_iff₀ second_pos, ← seconds, div_le_iff₀ hrate] at hle
    linarith

/-- From `due` on, a refill finds a token in the bucket. -/
def Ready (rate : ℚ) (burst due : Int) (b : Bucket) : Prop :=
  ∀ now, due ≤ now → b.last ≤ now → 1 ≤ (refill b rate burst now).tokens

section

variable {rate : ℚ} {burst due : Int} {b : Bucket}

/-- The bucket of a call that was told to wait `w`, or less, for it. -/
theorem ready_of_wait {w : Int} (hrate : 0 < rate) (hburst : 0 < burst)
    (h : waitDuration b.tokens rate ≤ w) : Ready rate burst (b.last + w) b := by
  intro now hdue hlast
  have hburst' : (1 : ℚ) ≤ burst := by exact_mod_cast hburst
  by_cases hzero : b.last = 0
  · rw [refill_zero hzero]
    exact hburst'
  · have henough : 1 ≤ b.tokens + seconds (now - b.last) * rate :=
      waitDuration_enough hrate (by omega) (by omega)
    rcases hlast.eq_or_lt with heq | hlt
    · rw [refill_same hzero heq.ge]
      simpa [heq, seconds] using henough
    · rw [refill_later hzero hlt]
      exact le_min hburst' henough

/-- The same for the bucket as the call leaves it behind. -/
theorem ready_of_refused {now w : Int} (hrate : 0 < rate) (hburst : 0 < burst)
    (hlast : b.last ≤ now) (h : waitDuration (refill b rate burst now).tokens rate ≤ w) :
    Ready rate burst (now + w) { refill b rate burst now with lastSeen := now } := by
  have hready := ready_of_wait (b := { refill b rate burst now with lastSeen := now }) hrate
    hburst h
  rwa [refill_last hlast] at hready

theorem ready_full (hrate : 0 < rate) (hburst : 0 < burst) (h : b.tokens = burst) :
    Ready rate burst due b := by
  intro now _ hlast
  rw [refill_full hrate hlast h]
  exact_mod_cast hburst

/-- **A rejected call in the meantime** only refills the bucket. -/
theorem Ready.refilled (h : Ready rate burst due b) (hrate : 0 < rate) (hburst : 0 < burst)
    {between : Int} (hlast : b.last ≤ between) (seen : Int) :
    Ready rate burst due { refill b rate burst between with lastSeen := seen } := by
  intro now hdue hnow
  have hmid : (refill b rate burst between).last = between := refill_last hlast
  have hnow : between ≤ now := hmid.ge.trans hnow
  rw [refill_seen]
  dsimp only
  by_cases hzero : between = 0
  · subst hzero
    rw [refill_refill_zero hlast]
    exact_mod_cast hburst
  · rw [refill_refill hrate hlast hnow hzero]
    exact h now hdue (hlast.trans hnow)

end

/-! ## 2. Until the next admission -/

/-- The answer to a call. -/
def answer (s : System) (e : AllowCall) : Bool × Int :=
  (s.limiter.allow e.order e.key e.now).2

/-- From `due` on, a call with the key finds a token in both buckets. -/
structure Waited (cfg : Config) (key : GoString) (due : Int) (s : System) : Prop where
  sound : Sound cfg s
  global : Ready cfg.globalRate cfg.globalBurst due s.limiter.global
  client : ∀ b, s.limiter.clients.lookup (clientKey key) = some b →
    Ready cfg.perClientRate cfg.perClientBurst due b

section

variable {cfg : Config} {key : GoString} {due : Int} {s s' : System} {e : AllowCall}

theorem step_rejected (hv : s.limiter.cfg.Valid) (hrejected : (answer s e).1 = false)
    (h : step s e = some s') :
    Charged s.limiter s'.limiter e.key e.now false ∧ s.clock ≤ e.now := by
  obtain ⟨hclock, -, hlimiter, -, -⟩ := step_allow h
  have hcharged := allow_charged hv e.order e.key e.now
  rw [← hlimiter] at hcharged
  exact ⟨hrejected ▸ hcharged, hclock⟩

/-- The bucket a call of the client is charged to is ready, if it is not a new one. -/
theorem Waited.clientBucket (hs : Waited cfg key due s) (hv : cfg.Valid) (now : Int) :
    Ready cfg.perClientRate cfg.perClientBurst due (s.limiter.clientBucket key now) := by
  unfold Limiter.clientBucket
  cases hlookup : (s.limiter.cleanupLocked now).clients.lookup (clientKey key) with
  | none =>
    rw [hs.sound.config]
    exact ready_full hv.perClientRate hv.perClientBurst rfl
  | some b =>
    rcases cleanupLocked_lookup s.limiter now (clientKey key) with h | h
    · exact hs.client b (h ▸ hlookup)
    · exact absurd hlookup (by simp [h])

theorem Waited.rejected (hv : cfg.Valid) (hs : Waited cfg key due s)
    (hrejected : (answer s e).1 = false) (h : step s e = some s') : Waited cfg key due s' := by
  obtain ⟨hsound, hglobal, hclient⟩ := id hs
  obtain rfl := hsound.config
  obtain ⟨hcharged, hclock⟩ := step_rejected hv hrejected h
  refine ⟨sound_step hv hsound h, ?_, ?_⟩
  · rw [hcharged.global]
    exact hglobal.refilled hv.globalRate hv.globalBurst (hsound.global.past.trans hclock) e.now
  · intro b hb
    by_cases hk : clientKey key = clientKey e.key
    · -- a call of the same client
      obtain rfl := Option.some.inj (hcharged.client.symm.trans (hk ▸ hb))
      have hbucket : s.limiter.clientBucket e.key e.now = s.limiter.clientBucket key e.now := by
        rw [Limiter.clientBucket, Limiter.clientBucket, hk]
      have hpast := (hsound.clientBucket hv key hclock).past
      rw [hbucket]
      exact (hs.clientBucket hv e.now).refilled hv.perClientRate hv.perClientBurst hpast e.now
    · rcases hcharged.others _ hk with hsame | hgone
      · exact hclient b (hsame ▸ hb)
      · exact absurd hb (by simp [hgone])

/-- The call that was told to wait makes both buckets ready. -/
theorem waited_of_rejected (hv : cfg.Valid) (hs : Sound cfg s) {w : Int}
    (hanswer : answer s e = (false, w)) (h : step s e = some s') :
    Waited cfg e.key (e.now + w) s' := by
  obtain rfl := hs.config
  have hverdict := (allow_answer s.limiter e.order e.key e.now).symm.trans hanswer
  obtain ⟨-, hglobal, hclient⟩ := verdict_rejected hverdict
  obtain ⟨hcharged, hclock⟩ := step_rejected hv (by rw [hanswer]) h
  refine ⟨sound_step hv hs h, ?_, ?_⟩
  · rw [hcharged.global]
    exact ready_of_refused hv.globalRate hv.globalBurst (hs.global.past.trans hclock) hglobal
  · intro b hb
    obtain rfl := Option.some.inj (hcharged.client.symm.trans hb)
    exact ready_of_refused hv.perClientRate hv.perClientBurst
      (hs.clientBucket hv e.key hclock).past hclient

/-- A call after the wait is admitted. -/
theorem Waited.admits (hv : cfg.Valid) (hs : Waited cfg key due s) (h : step s e = some s')
    (hkey : e.key = key) (hdue : due ≤ e.now) : (answer s e).1 = true := by
  obtain ⟨hsound, hglobal, -⟩ := id hs
  obtain rfl := hsound.config
  obtain rfl := hkey
  have hclock := (step_allow h).1
  rw [answer, allow_answer, verdict_allowed hv]
  constructor
  · exact hglobal e.now hdue (hsound.global.past.trans hclock)
  · exact hs.clientBucket hv e.now e.now hdue (hsound.clientBucket hv e.key hclock).past

end

/-- **`Retry-After` is sufficient.**  A rejected call is told to wait a positive time `w`, the
gateway sends at least as much, and a call with the same key that comes `w` later or more is
admitted, if no call has been admitted in between. -/
theorem retryAfter_sufficient {cfg : Config} {startedAt : Int} {es : List AllowCall}
    {s s₁ : System} {e : AllowCall} {w : Int}
    (hrun : run step (start cfg startedAt) es = some s) (hstep : step s e = some s₁)
    (hanswer : answer s e = (false, w)) :
    0 < w ∧ w ≤ retryAfterSeconds w * second ∧
    ∀ (fs : List AllowCall) (s₂ s₃ : System) (f : AllowCall), run step s₁ fs = some s₂ →
      Meets (fun s e => (answer s e).1 = false) step s₁ fs → step s₂ f = some s₃ →
      f.key = e.key → e.now + w ≤ f.now → (answer s₂ f).1 = true := by
  have hv := cfg.normalized_valid
  have hsound := sound_run hrun
  have hverdict := (allow_answer s.limiter e.order e.key e.now).symm.trans hanswer
  refine ⟨(verdict_rejected hverdict).1, le_retryAfterSeconds w, ?_⟩
  intro fs s₂ s₃ f hfs hquiet hf hkey hdue
  have hwaited : Waited cfg.normalized e.key (e.now + w) s₂ :=
    run_invariant_of (fun _ _ _ hs hrejected h => hs.rejected hv hrejected h)
      (waited_of_rejected hv hsound hanswer hstep) hquiet hfs
  exact hwaited.admits hv hf hkey hdue

/-- With one token a second: half a second after its first call the client `a` is told to wait
for another half.  In between `b` is rejected as well and takes the place of `a` in the map. -/
theorem retryAfter_sufficient_half :
    ∃ s s₁ s₂ s₃, run step (start single second) [⟨second, str "a", []⟩] = some s ∧
      step s ⟨1500000000, str "a", [str "a"]⟩ = some s₁ ∧
      answer s ⟨1500000000, str "a", [str "a"]⟩ = (false, 500000000) ∧
      run step s₁ [⟨1600000000, str "b", [str "a"]⟩] = some s₂ ∧
      step s₂ ⟨2000000000, str "a", [str "b"]⟩ = some s₃ ∧
      (answer s₂ ⟨2000000000, str "a", [str "b"]⟩).1 = true := by
  have hall : (run step (start single second) [⟨second, str "a", []⟩,
      ⟨1500000000, str "a", [str "a"]⟩, ⟨1600000000, str "b", [str "a"]⟩,
      ⟨2000000000, str "a", [str "b"]⟩]).isSome := by decide +kernel
  obtain ⟨s₃, hrun⟩ := Option.isSome_iff_exists.mp hall
  obtain ⟨s, h₀, hrun⟩ := run_cons.mp hrun
  obtain ⟨s₁, h₁, hrun⟩ := run_cons.mp hrun
  obtain ⟨s₂, h₂, hrun⟩ := run_cons.mp hrun
  obtain ⟨s₃, h₃, -⟩ := run_cons.mp hrun
  have hanswer : answer s ⟨1500000000, str "a", [str "a"]⟩ = (false, 500000000) := by
    have hfirst : (step (start single second) ⟨second, str "a", []⟩).map
        (fun s => answer s ⟨1500000000, str "a", [str "a"]⟩) = some (false, 500000000) := by
      decide +kernel
    rw [h₀] at hfirst
    exact Option.some.inj hfirst
  have hquiet : Meets (fun s e => (answer s e).1 = false) step s₁
      [⟨1600000000, str "b", [str "a"]⟩] := by
    have hmeets : Meets (fun s e => e.key = str "b" → (answer s e).1 = false) step
        (start single second) [⟨second, str "a", []⟩, ⟨1500000000, str "a", [str "a"]⟩,
          ⟨1600000000, str "b", [str "a"]⟩] := by decide +kernel
    exact ⟨((hmeets.2 s h₀).2 s₁ h₁).1 rfl, fun _ _ => trivial⟩
  have hs : run step (start single second) [⟨second, str "a", []⟩] = some s :=
    run_cons.mpr ⟨s, h₀, rfl⟩
  have hb : run step s₁ [⟨1600000000, str "b", [str "a"]⟩] = some s₂ :=
    run_cons.mpr ⟨s₂, h₂, rfl⟩
  exact ⟨s, s₁, s₂, s₃, hs, h₁, hanswer, hb, h₃,
    (retryAfter_sufficient hs h₁ hanswer).2.2 _ s₂ s₃ _ hb hquiet h₃ rfl (by decide)⟩

end OrderSystem.RateLimit
