/-
# The rate limiter of the gateway

`ratelimit.Limiter` charges every call to two token buckets: the global one and the one of the
call's client.  A call is admitted when both hold a token, and then takes one from each.  The
clients' buckets are in a map that is kept small in two ways: `cleanupLocked` deletes clients
that have been silent for `InactiveTTL`, and `clientLocked` deletes the client seen least
recently when a new one arrives and the map is full.

Tokens, rates and waits are `float64` in the source and rationals here, and durations are
unbounded integers.  An instant is the number of nanoseconds since the zero `time.Time`, so
that `IsZero` is a comparison with `0`.  `Allow` holds the limiter's mutex throughout, so a
system of concurrent callers is a sequence of calls (`step`); a call brings its own reading of
the clock, and the order in which the `range` over the map in `evictOldestLocked` happens to
visit the clients.
-/
import Mathlib.Data.List.AList
import Mathlib.Data.Rat.Floor
import OrderSystem.Kit.TokenBucket
import OrderSystem.Kit.Run
import OrderSystem.Platform

namespace OrderSystem.RateLimit

/-! ## 1. The limiter -/

/-- `Duration.Seconds`. -/
def seconds (d : Int) : ℚ := (d : ℚ) / (second : ℚ)

structure Config where
  perClientRate : ℚ
  perClientBurst : Int
  globalRate : ℚ
  globalBurst : Int
  maxClients : Int
  inactiveTTL : Int
  cleanupEvery : Int

def Config.normalized (cfg : Config) : Config where
  perClientRate := if cfg.perClientRate ≤ 0 then 50 else cfg.perClientRate
  perClientBurst := if cfg.perClientBurst ≤ 0 then 100 else cfg.perClientBurst
  globalRate := if cfg.globalRate ≤ 0 then 500 else cfg.globalRate
  globalBurst := if cfg.globalBurst ≤ 0 then 1000 else cfg.globalBurst
  maxClients := if cfg.maxClients ≤ 0 then 10000 else cfg.maxClients
  inactiveTTL := if cfg.inactiveTTL ≤ 0 then 10 * 60 * second else cfg.inactiveTTL
  cleanupEvery := if cfg.cleanupEvery ≤ 0 then 60 * second else cfg.cleanupEvery

structure Bucket where
  tokens : ℚ
  last : Int
  lastSeen : Int

/-- `map[string]*bucket`. -/
abbrev Clients := AList fun _ : GoString => Bucket

structure Limiter where
  cfg : Config
  global : Bucket
  clients : Clients
  lastCleanup : Int

/-- `newWithClock`, with the reading `startedAt` of its clock. -/
def newWithClock (cfg : Config) (startedAt : Int) : Limiter where
  cfg := cfg.normalized
  global := ⟨cfg.normalized.globalBurst, startedAt, startedAt⟩
  clients := ∅
  lastCleanup := startedAt

def refill (target : Bucket) (rate : ℚ) (burst : Int) (now : Int) : Bucket :=
  -- the zero time marks a bucket that was never filled
  if target.last = 0 then { target with last := now, tokens := burst }
  else
    let elapsed := seconds (now - target.last)
    if elapsed ≤ 0 then target
    else { target with tokens := min (burst : ℚ) (target.tokens + elapsed * rate), last := now }

def waitDuration (tokens rate : ℚ) : Int :=
  if 1 ≤ tokens then 0
  else
    let wait := (1 - tokens) / rate
    if wait ≤ 0 then 0 else ⌈wait * (second : ℚ)⌉

/-- The loop of `cleanupLocked`. -/
def dropSilent (cutoff : Int) (clients : Clients) : Clients :=
  clients.keys.foldl
    (fun clients key =>
      match clients.lookup key with
      | some client => if client.lastSeen < cutoff then clients.erase key else clients
      | none => clients)
    clients

def Limiter.cleanupLocked (limiter : Limiter) (now : Int) : Limiter :=
  if now - limiter.lastCleanup < limiter.cfg.cleanupEvery then limiter
  else
    let cutoff := now - limiter.cfg.inactiveTTL
    { limiter with clients := dropSilent cutoff limiter.clients, lastCleanup := now }

/-- The loop of `evictOldestLocked`: the clients are visited in the given order, and the empty
key stands for none so far. -/
def oldestKey (clients : Clients) (order : List GoString) : GoString :=
  (order.foldl
    (fun (best : GoString × Int) key =>
      match clients.lookup key with
      | some client =>
        if best.1 = [] ∨ client.lastSeen < best.2 then (key, client.lastSeen) else best
      | none => best)
    ([], 0)).1

def Limiter.evictOldestLocked (limiter : Limiter) (order : List GoString) : Limiter :=
  let oldest := oldestKey limiter.clients order
  if oldest ≠ [] then { limiter with clients := limiter.clients.erase oldest } else limiter

/-- The key under which `clientLocked` looks a client up. -/
def clientKey (key : GoString) : GoString := if key = [] then str "unknown" else key

/-- `clientLocked`: the bucket of the client, which is then in the map under `clientKey key`. -/
def Limiter.clientLocked (limiter : Limiter) (order : List GoString) (key : GoString)
    (now : Int) : Limiter × Bucket :=
  match limiter.clients.lookup (clientKey key) with
  | some existing => (limiter, existing)
  | none =>
    let limiter :=
      if limiter.cfg.maxClients ≤ limiter.clients.keys.length then
        limiter.evictOldestLocked order
      else limiter
    let created : Bucket := ⟨limiter.cfg.perClientBurst, now, now⟩
    ({ limiter with clients := limiter.clients.insert (clientKey key) created }, created)

/-- `Limiter.Allow` of a limiter that was constructed: whether the call is admitted, and how
long to wait if not. -/
def Limiter.allow (limiter : Limiter) (order : List GoString) (key : GoString) (now : Int) :
    Limiter × Bool × Int :=
  let limiter := limiter.cleanupLocked now
  let (limiter, client) := limiter.clientLocked order key now
  let cfg := limiter.cfg
  let global := { refill limiter.global cfg.globalRate cfg.globalBurst now with lastSeen := now }
  let client := { refill client cfg.perClientRate cfg.perClientBurst now with lastSeen := now }
  let globalWait := waitDuration global.tokens cfg.globalRate
  let clientWait := waitDuration client.tokens cfg.perClientRate
  if 0 < globalWait ∨ 0 < clientWait then
    -- `client` is a pointer into the map, so the refill stays
    ({ limiter with global, clients := limiter.clients.insert (clientKey key) client }, false,
      if globalWait < clientWait then clientWait else globalWait)
  else
    let global := { global with tokens := global.tokens - 1 }
    let client := { client with tokens := client.tokens - 1 }
    ({ limiter with global, clients := limiter.clients.insert (clientKey key) client }, true, 0)

/-! ## 2. Calls in sequence -/

/-- A call of `Allow` and its answer. -/
structure Call where
  time : Int
  key : GoString
  allowed : Bool

structure System where
  limiter : Limiter
  /-- the latest reading of the clock -/
  clock : Int
  /-- the calls so far -/
  calls : List Call
  /-- for each key of the map, the bucket that its client's latest call left behind -/
  last : GoString → Option Bucket

/-- A call of `Allow`: the reading of the clock, the client, and the order of the map. -/
structure AllowCall where
  now : Int
  key : GoString
  order : List GoString

def start (cfg : Config) (startedAt : Int) : System :=
  ⟨newWithClock cfg startedAt, startedAt, [], fun _ => none⟩

/-- The clock does not go back, and `range` visits each client of the map once. -/
def step (s : System) (e : AllowCall) : Option System :=
  if s.clock ≤ e.now ∧ e.order.Perm (s.limiter.cleanupLocked e.now).clients.keys then
    let (limiter, allowed, _) := s.limiter.allow e.order e.key e.now
    some {
      limiter
      clock := e.now
      calls := s.calls ++ [⟨e.now, e.key, allowed⟩]
      last := Function.update s.last (clientKey e.key) (limiter.clients.lookup (clientKey e.key)) }
  else none

/-- The instants of the admitted calls, in seconds. -/
def admitted (calls : List Call) : List ℚ :=
  (calls.filter (·.allowed)).map fun call => seconds call.time

/-! ## 3. What the operations do -/

/-- What `normalized` guarantees of the buckets. -/
structure Config.Valid (cfg : Config) : Prop where
  perClientRate : 0 < cfg.perClientRate
  perClientBurst : 0 < cfg.perClientBurst
  globalRate : 0 < cfg.globalRate
  globalBurst : 0 < cfg.globalBurst

theorem Config.normalized_valid (cfg : Config) : cfg.normalized.Valid := by
  constructor <;> simp only [Config.normalized] <;> split
  case perClientRate.isTrue | globalRate.isTrue => norm_num
  case perClientRate.isFalse h | globalRate.isFalse h => exact not_le.mp h
  all_goals omega

theorem seconds_sub (a b : Int) : seconds (a - b) = seconds a - seconds b := by
  simp only [seconds, Int.cast_sub, sub_div]

theorem second_pos : (0 : ℚ) < (second : ℚ) := by norm_num [second]

theorem seconds_le {a b : Int} : seconds a ≤ seconds b ↔ a ≤ b := by
  rw [seconds, seconds, div_le_div_iff_of_pos_right second_pos, Int.cast_le]

theorem seconds_nonpos {d : Int} : seconds d ≤ 0 ↔ d ≤ 0 := by
  have h := @seconds_le d 0
  simpa [seconds] using h

/-- A wait is what is missing for a token: with none to wait for, there is one. -/
theorem waitDuration_pos {tokens rate : ℚ} (hrate : 0 < rate) :
    0 < waitDuration tokens rate ↔ tokens < 1 := by
  unfold waitDuration
  by_cases htokens : 1 ≤ tokens
  · simp [htokens, not_lt.mpr htokens]
  · have hlt : tokens < 1 := not_le.mp htokens
    have hwait : 0 < (1 - tokens) / rate := div_pos (by linarith) hrate
    simp only [htokens, not_le.mpr hwait, if_false, hlt, iff_true, Int.ceil_pos]
    exact mul_pos hwait second_pos

/-- The bucket would be full by `now`, had it been refilled at the rate all along. -/
def Due (rate : ℚ) (burst now : Int) (b : Bucket) : Prop :=
  (burst : ℚ) ≤ b.tokens + (seconds now - seconds b.last) * rate

instance (rate : ℚ) (burst now : Int) (b : Bucket) : Decidable (Due rate burst now b) :=
  inferInstanceAs (Decidable (_ ≤ _))

/-- **A refill**: the bucket is then as of `now`, and it has gained no more than the rate
allows, provided that a bucket taken for an unfilled one is due. -/
theorem refill_spec {b : Bucket} {rate : ℚ} {burst now : Int}
    (hdue : b.last = 0 → Due rate burst now b) (hlast : b.last ≤ now) (hcap : b.tokens ≤ burst) :
    (refill b rate burst now).last = now ∧ (refill b rate burst now).tokens ≤ burst ∧
      (refill b rate burst now).tokens ≤
        b.tokens + (seconds now - seconds b.last) * rate := by
  unfold refill
  by_cases hzero : b.last = 0
  · rw [if_pos hzero]
    exact ⟨rfl, le_rfl, hdue hzero⟩
  · rw [if_neg hzero, ← seconds_sub]
    by_cases helapsed : seconds (now - b.last) ≤ 0
    · have hnow : b.last = now := by
        have := seconds_nonpos.mp helapsed
        omega
      simp only [helapsed, if_true]
      exact ⟨hnow, hcap, by simp [hnow, seconds]⟩
    · simp only [helapsed, if_false]
      exact ⟨trivial, min_le_left _ _, min_le_right _ _⟩

/-- The bucket after the answer. -/
def Bucket.charge (b : Bucket) (allowed : Bool) : Bucket :=
  if allowed then { b with tokens := b.tokens - 1 } else b

/-- `dropSilent` deletes the clients that were last seen before the cutoff. -/
theorem dropSilent_lookup (cutoff : Int) (clients : Clients) (k : GoString) :
    (dropSilent cutoff clients).lookup k =
      (clients.lookup k).filter fun client => decide (cutoff ≤ client.lastSeen) := by
  -- the loop over any keys: it has treated the client exactly when it has visited its key
  have hloop : ∀ (keys : List GoString) (clients : Clients),
      (keys.foldl (fun clients key =>
        match clients.lookup key with
        | some client => if client.lastSeen < cutoff then clients.erase key else clients
        | none => clients) clients).lookup k =
      if k ∈ keys then (clients.lookup k).filter fun client => decide (cutoff ≤ client.lastSeen)
      else clients.lookup k := by
    intro keys
    induction keys with
    | nil => intro clients; simp
    | cons key keys ih =>
      intro clients
      rw [List.foldl_cons, ih]
      by_cases hk : k = key
      · subst hk
        cases hlookup : clients.lookup k with
        | none => simp [hlookup]
        | some client =>
          by_cases hsilent : client.lastSeen < cutoff
          · simp [hsilent, Option.filter_some]
          · simp [hsilent, hlookup, Option.filter_some]
      · have hsame : (match clients.lookup key with
            | some client => if client.lastSeen < cutoff then clients.erase key else clients
            | none => clients).lookup k = clients.lookup k := by
          split
          · split
            · exact AList.lookup_erase_ne hk
            · rfl
          · rfl
        simp only [hsame, List.mem_cons, hk, false_or]
  unfold dropSilent
  rw [hloop]
  split
  · rfl
  · rename_i hk
    rw [AList.lookup_eq_none.mpr (AList.mem_keys.not.mpr hk), Option.filter_none]

theorem cleanupLocked_lookup (l : Limiter) (now : Int) (k : GoString) :
    (l.cleanupLocked now).clients.lookup k = l.clients.lookup k ∨
      (l.cleanupLocked now).clients.lookup k = none := by
  unfold Limiter.cleanupLocked
  split
  · exact .inl rfl
  · simp only [dropSilent_lookup]
    cases l.clients.lookup k with
    | none => exact .inl rfl
    | some client =>
      rw [Option.filter_some]
      split
      · exact .inl rfl
      · exact .inr rfl

@[simp] theorem cleanupLocked_cfg (l : Limiter) (now : Int) :
    (l.cleanupLocked now).cfg = l.cfg := by
  unfold Limiter.cleanupLocked
  split <;> rfl

@[simp] theorem cleanupLocked_global (l : Limiter) (now : Int) :
    (l.cleanupLocked now).global = l.global := by
  unfold Limiter.cleanupLocked
  split <;> rfl

theorem evictOldestLocked_lookup (l : Limiter) (order : List GoString) (k : GoString) :
    (l.evictOldestLocked order).clients.lookup k = l.clients.lookup k ∨
      (l.evictOldestLocked order).clients.lookup k = none := by
  unfold Limiter.evictOldestLocked
  by_cases hnone : oldestKey l.clients order ≠ []
  · simp only [hnone, if_true, ne_eq, not_false_eq_true]
    by_cases hk : k = oldestKey l.clients order
    · exact .inr (hk ▸ AList.lookup_erase k l.clients)
    · exact .inl (AList.lookup_erase_ne hk)
  · simp only [hnone, if_false, true_or]

@[simp] theorem evictOldestLocked_cfg (l : Limiter) (order : List GoString) :
    (l.evictOldestLocked order).cfg = l.cfg := by
  unfold Limiter.evictOldestLocked
  simp only
  split <;> rfl

@[simp] theorem evictOldestLocked_global (l : Limiter) (order : List GoString) :
    (l.evictOldestLocked order).global = l.global := by
  unfold Limiter.evictOldestLocked
  simp only
  split <;> rfl

/-- The bucket `clientLocked` finds or makes: an existing one as it is, or a full one. -/
theorem clientLocked_bucket (l : Limiter) (order : List GoString) (key : GoString) (now : Int) :
    (l.clientLocked order key now).2 =
      (l.clients.lookup (clientKey key)).getD ⟨l.cfg.perClientBurst, now, now⟩ := by
  unfold Limiter.clientLocked
  cases l.clients.lookup (clientKey key) with
  | some existing => rfl
  | none =>
    simp only [Option.getD_none]
    split <;> simp

/-- The other clients keep their buckets, or lose them. -/
theorem clientLocked_lookup (l : Limiter) (order : List GoString) {key k : GoString} (now : Int)
    (hk : k ≠ clientKey key) :
    (l.clientLocked order key now).1.clients.lookup k = l.clients.lookup k ∨
      (l.clientLocked order key now).1.clients.lookup k = none := by
  unfold Limiter.clientLocked
  cases l.clients.lookup (clientKey key) with
  | some existing => exact .inl rfl
  | none =>
    simp only [AList.lookup_insert_ne hk]
    split
    · exact evictOldestLocked_lookup l order k
    · exact .inl rfl

@[simp] theorem clientLocked_cfg (l : Limiter) (order : List GoString) (key : GoString)
    (now : Int) : (l.clientLocked order key now).1.cfg = l.cfg := by
  unfold Limiter.clientLocked
  cases l.clients.lookup (clientKey key) with
  | some existing => rfl
  | none =>
    simp only
    split <;> simp

@[simp] theorem clientLocked_global (l : Limiter) (order : List GoString) (key : GoString)
    (now : Int) : (l.clientLocked order key now).1.global = l.global := by
  unfold Limiter.clientLocked
  cases l.clients.lookup (clientKey key) with
  | some existing => rfl
  | none =>
    simp only
    split <;> simp

/-- The bucket that a call of the client is charged to: the one it has after the cleanup, or a
full one. -/
def Limiter.clientBucket (l : Limiter) (key : GoString) (now : Int) : Bucket :=
  ((l.cleanupLocked now).clients.lookup (clientKey key)).getD ⟨l.cfg.perClientBurst, now, now⟩

/-- What a call does, given its answer. -/
structure Charged (l l' : Limiter) (key : GoString) (now : Int) (allowed : Bool) : Prop where
  cfg : l'.cfg = l.cfg
  global : l'.global =
    ({ refill l.global l.cfg.globalRate l.cfg.globalBurst now with lastSeen := now }
      : Bucket).charge allowed
  client : l'.clients.lookup (clientKey key) = some
    (({ refill (l.clientBucket key now) l.cfg.perClientRate l.cfg.perClientBurst now with
        lastSeen := now } : Bucket).charge allowed)
  others : ∀ k, k ≠ clientKey key →
    l'.clients.lookup k = l.clients.lookup k ∨ l'.clients.lookup k = none
  paid : allowed = true →
    1 ≤ (refill l.global l.cfg.globalRate l.cfg.globalBurst now).tokens ∧
      1 ≤ (refill (l.clientBucket key now) l.cfg.perClientRate l.cfg.perClientBurst now).tokens

/-- Of the other clients, a call leaves what `clientLocked` has left. -/
theorem allow_others (l : Limiter) (order : List GoString) {key k : GoString} (now : Int)
    (hk : k ≠ clientKey key) :
    (l.allow order key now).1.clients.lookup k =
      ((l.cleanupLocked now).clientLocked order key now).1.clients.lookup k := by
  simp only [Limiter.allow]
  split <;> exact AList.lookup_insert_ne hk

theorem allow_charged {l : Limiter} (hv : l.cfg.Valid) (order : List GoString) (key : GoString)
    (now : Int) :
    Charged l (l.allow order key now).1 key now (l.allow order key now).2.1 := by
  have hbucket : ((l.cleanupLocked now).clientLocked order key now).2 =
      l.clientBucket key now := by
    rw [clientLocked_bucket, cleanupLocked_cfg, Limiter.clientBucket]
  have hothers : ∀ k, k ≠ clientKey key →
      (l.allow order key now).1.clients.lookup k = l.clients.lookup k ∨
        (l.allow order key now).1.clients.lookup k = none := by
    intro k hk
    rw [allow_others l order now hk]
    rcases clientLocked_lookup (l.cleanupLocked now) order now hk with h | h
    · rw [h]
      exact cleanupLocked_lookup l now k
    · exact .inr h
  revert hothers
  simp only [Limiter.allow, hbucket, clientLocked_cfg, clientLocked_global, cleanupLocked_cfg,
    cleanupLocked_global, waitDuration_pos hv.globalRate, waitDuration_pos hv.perClientRate]
  split
  · intro hothers
    exact ⟨by simp, rfl, AList.lookup_insert _, hothers, fun h => absurd h (by simp)⟩
  · rename_i hpaid
    intro hothers
    rw [not_or, not_lt, not_lt] at hpaid
    exact ⟨by simp, rfl, AList.lookup_insert _, hothers, fun _ => hpaid⟩

/-- A step is a call of `Allow`. -/
theorem step_allow {s s' : System} {e : AllowCall} (h : step s e = some s') :
    s.clock ≤ e.now ∧ e.order.Perm (s.limiter.cleanupLocked e.now).clients.keys ∧
      s'.limiter = (s.limiter.allow e.order e.key e.now).1 ∧ s'.clock = e.now ∧
      s'.calls = s.calls ++ [⟨e.now, e.key, (s.limiter.allow e.order e.key e.now).2.1⟩] := by
  unfold step at h
  split at h
  · rename_i hguard
    obtain rfl := Option.some.inj h
    exact ⟨hguard.1, hguard.2, rfl, rfl, rfl⟩
  · cases h

/-- What a step of the system is. -/
theorem step_charged {s s' : System} {e : AllowCall} (hv : s.limiter.cfg.Valid)
    (h : step s e = some s') :
    ∃ allowed, Charged s.limiter s'.limiter e.key e.now allowed ∧ s.clock ≤ e.now ∧
      s'.clock = e.now ∧ s'.calls = s.calls ++ [⟨e.now, e.key, allowed⟩] ∧
      s'.last = Function.update s.last (clientKey e.key)
        (s'.limiter.clients.lookup (clientKey e.key)) := by
  unfold step at h
  split at h
  · rename_i hguard
    obtain rfl := Option.some.inj h
    exact ⟨_, allow_charged hv e.order e.key e.now, hguard.1, rfl, rfl, rfl⟩
  · cases h

end OrderSystem.RateLimit
