/-
# Rejected calls leave no trace

With at most `MaxClients` keys and in less than `InactiveTTL`, no client is ever deleted from the
map, and the limiter is a simpler machine: one bucket for each client, kept for good (`Ideal`).
`ideal_answers` is that refinement.

On the ideal limiter, a rejected call does nothing but refill two buckets.  What a later call
finds is what it would have found without it (`Agree`), since a refill in two steps is the
refill in one.  So the call can be deleted from the history without changing the answer to any
other (`rejected_invisible`).  The zero time is left out: a call then would mark both buckets as
never filled, and the next call would find them full.  `New` takes its clock from `time.Now`, which
does not read it.
-/
import Mathlib.Data.List.Dedup
import OrderSystem.RateLimit.Bounds
import OrderSystem.RateLimit.Buckets
import OrderSystem.RateLimit.Recency

namespace OrderSystem.RateLimit

open Kit

/-! ## 1. Answers -/

/-- The instant and the key of a call. -/
def AllowCall.request (e : AllowCall) : Int × GoString := (e.now, e.key)

/-- The answers to a history of calls. -/
def answers : Limiter → List AllowCall → List (Bool × Int)
  | _, [] => []
  | l, e :: es =>
    let (l', answer) := l.allow e.order e.key e.now
    answer :: answers l' es

/-! ## 2. The ideal limiter -/

/-- A limiter that never deletes a client. -/
structure Ideal where
  cfg : Config
  global : Bucket
  clients : GoString → Option Bucket

namespace Ideal

/-- The bucket of the client: its own, or a new one. -/
def bucket (i : Ideal) (key : GoString) (now : Int) : Bucket :=
  (i.clients (clientKey key)).getD ⟨i.cfg.perClientBurst, now, now⟩

/-- What a call finds in the global bucket. -/
def globalAt (i : Ideal) (now : Int) : Bucket :=
  { refill i.global i.cfg.globalRate i.cfg.globalBurst now with lastSeen := now }

/-- What a call finds in the bucket of its client. -/
def clientAt (i : Ideal) (key : GoString) (now : Int) : Bucket :=
  { refill (i.bucket key now) i.cfg.perClientRate i.cfg.perClientBurst now with lastSeen := now }

/-- The answer to a call. -/
def verdict (i : Ideal) (r : Int × GoString) : Bool × Int :=
  i.cfg.verdict (i.globalAt r.1).tokens (i.clientAt r.2 r.1).tokens

/-- The limiter after a call. -/
def call (i : Ideal) (r : Int × GoString) : Ideal where
  cfg := i.cfg
  global := (i.globalAt r.1).charge (i.verdict r).1
  clients := Function.update i.clients (clientKey r.2)
    (some ((i.clientAt r.2 r.1).charge (i.verdict r).1))

def answers : Ideal → List (Int × GoString) → List (Bool × Int)
  | _, [] => []
  | i, r :: rs => i.verdict r :: answers (i.call r) rs

theorem call_clients_self (i : Ideal) (r : Int × GoString) :
    (i.call r).clients (clientKey r.2) =
      some ((i.clientAt r.2 r.1).charge (i.verdict r).1) :=
  Function.update_self ..

theorem call_clients_ne (i : Ideal) {r : Int × GoString} {k : GoString}
    (hk : k ≠ clientKey r.2) : (i.call r).clients k = i.clients k :=
  Function.update_of_ne hk ..

theorem call_bucket_self (i : Ideal) {r : Int × GoString} {key : GoString} (now : Int)
    (hk : clientKey key = clientKey r.2) :
    (i.call r).bucket key now = (i.clientAt r.2 r.1).charge (i.verdict r).1 := by
  rw [bucket, hk, call_clients_self, Option.getD_some]

theorem call_bucket_ne (i : Ideal) {r : Int × GoString} {key : GoString} (now : Int)
    (hk : clientKey key ≠ clientKey r.2) : (i.call r).bucket key now = i.bucket key now := by
  rw [bucket, bucket, call_clients_ne i hk]
  rfl

end Ideal

/-- The limiter `l` holds what the ideal one holds. -/
structure Reflects (l : Limiter) (i : Ideal) : Prop where
  cfg : l.cfg = i.cfg
  global : l.global = i.global
  clients : ∀ k, l.clients.lookup k = i.clients k

/-- The clients are among `keys`, and they were seen at `since` or later. -/
def Within (keys : List GoString) (since : Int) (l : Limiter) : Prop :=
  ∀ k b, l.clients.lookup k = some b → k ∈ keys ∧ since ≤ b.lastSeen

section

variable {keys : List GoString} {since now : Int} {l : Limiter} {key : GoString}

/-- Nobody has been silent for long. -/
theorem Within.cleanupLocked (h : Within keys since l) (hspan : now - since < l.cfg.inactiveTTL)
    (k : GoString) : (l.cleanupLocked now).clients.lookup k = l.clients.lookup k := by
  unfold Limiter.cleanupLocked
  split
  · rfl
  · simp only [dropSilent_lookup]
    cases hk : l.clients.lookup k with
    | none => rfl
    | some b =>
      have := (h k b hk).2
      exact Option.filter_some_pos (by simp only [decide_eq_true_eq]; omega)

/-- There is room for a new client. -/
theorem Within.clientLocked (h : Within keys since l) (hkey : clientKey key ∈ keys)
    (hroom : keys.length ≤ l.cfg.maxClients) (order : List GoString)
    {k : GoString} (hk : k ≠ clientKey key) :
    (l.clientLocked order key now).1.clients.lookup k = l.clients.lookup k := by
  unfold Limiter.clientLocked
  cases hlookup : l.clients.lookup (clientKey key) with
  | some existing => rfl
  | none =>
    have habsent : clientKey key ∉ l.clients.keys :=
      AList.mem_keys.not.mp (AList.lookup_eq_none.mp hlookup)
    have hfew : l.clients.keys.length + 1 ≤ keys.length := by
      have hnodup : (clientKey key :: l.clients.keys).Nodup :=
        List.nodup_cons.mpr ⟨habsent, l.clients.keys_nodup⟩
      refine (List.subperm_of_subset hnodup ?_).length_le
      intro k' hk'
      rcases List.mem_cons.mp hk' with rfl | hk'
      · exact hkey
      · obtain ⟨b, hb⟩ := lookup_of_mem_keys hk'
        exact (h k' b hb).1
    have hroom' : ¬ l.cfg.maxClients ≤ (l.clients.keys.length : Int) := by omega
    simp only [hroom', if_false]
    exact AList.lookup_insert_ne hk

/-- **One call** of the limiter is a call of the ideal one. -/
theorem Reflects.call {i : Ideal} (h : Reflects l i) (hv : l.cfg.Valid)
    (hwithin : Within keys since l) (hkey : clientKey key ∈ keys)
    (hroom : keys.length ≤ l.cfg.maxClients) (hsince : since ≤ now)
    (hspan : now - since < l.cfg.inactiveTTL) (order : List GoString) :
    (l.allow order key now).2 = i.verdict (now, key) ∧
      Reflects (l.allow order key now).1 (i.call (now, key)) ∧
      Within keys since (l.allow order key now).1 := by
  have hcleaned := hwithin.cleanupLocked hspan
  have hbucket : l.clientBucket key now = i.bucket key now := by
    rw [Limiter.clientBucket, hcleaned, h.clients, h.cfg, Ideal.bucket]
  have hanswer : (l.allow order key now).2 = i.verdict (now, key) := by
    rw [allow_answer, hbucket, h.cfg, h.global]
    rfl
  have hothers : ∀ k, k ≠ clientKey key →
      (l.allow order key now).1.clients.lookup k = l.clients.lookup k := by
    intro k hk
    have hwithin' : Within keys since (l.cleanupLocked now) :=
      fun k b hb => hwithin k b (hcleaned k ▸ hb)
    rw [allow_others l order now hk, hwithin'.clientLocked hkey (by rwa [cleanupLocked_cfg]) order
      hk, hcleaned]
  have hcharged := allow_charged hv order key now
  rw [hanswer] at hcharged
  refine ⟨hanswer, ⟨hcharged.cfg.trans h.cfg, ?_, ?_⟩, ?_⟩
  · rw [hcharged.global, h.cfg, h.global]
    rfl
  · intro k
    by_cases hk : k = clientKey key
    · subst hk
      rw [hcharged.client, hbucket, h.cfg]
      exact (i.call_clients_self (now, key)).symm
    · rw [hothers k hk, h.clients]
      exact (i.call_clients_ne hk).symm
  · intro k b hb
    by_cases hk : k = clientKey key
    · subst hk
      obtain rfl := Option.some.inj (hcharged.client.symm.trans hb)
      refine ⟨hkey, hsince.trans_eq ?_⟩
      unfold Bucket.charge
      split <;> rfl
    · exact hwithin k b (hothers k hk ▸ hb)

end

/-- **The refinement.**  The answers to a history with few keys and in a short time are those of
the ideal limiter, and the order in which maps are visited plays no role. -/
theorem ideal_answers {keys : List GoString} {since : Int} {cfg : Config} (hv : cfg.Valid)
    (hroom : keys.length ≤ cfg.maxClients) {es : List AllowCall}
    (hes : ∀ e ∈ es, clientKey e.key ∈ keys ∧ since ≤ e.now ∧ e.now - since < cfg.inactiveTTL)
    {l : Limiter} {i : Ideal} (hcfg : l.cfg = cfg) (h : Reflects l i)
    (hwithin : Within keys since l) :
    answers l es = i.answers (es.map AllowCall.request) := by
  induction es generalizing l i with
  | nil => rfl
  | cons e es ih =>
    subst hcfg
    obtain ⟨hkey, hsince, hspan⟩ := hes e List.mem_cons_self
    obtain ⟨hanswer, hreflects, hwithin'⟩ :=
      h.call hv hwithin hkey hroom hsince hspan e.order
    have hrest := ih (fun e' he' => hes e' (List.mem_cons_of_mem _ he'))
      (allow_charged hv e.order e.key e.now).cfg hreflects hwithin'
    exact congrArg₂ List.cons hanswer hrest

/-! ## 3. Two ideal limiters -/

namespace Ideal

/-- From `t` on, calls find the same in both limiters. -/
structure Agree (t : Int) (i j : Ideal) : Prop where
  cfg : i.cfg = j.cfg
  global : ∀ now, t ≤ now → i.globalAt now = j.globalAt now
  client : ∀ key now, t ≤ now → i.clientAt key now = j.clientAt key now

section

variable {t : Int} {i j : Ideal} {r : Int × GoString}

theorem Agree.verdict (h : Agree t i j) (ht : t ≤ r.1) : i.verdict r = j.verdict r := by
  rw [Ideal.verdict, Ideal.verdict, h.cfg, h.global r.1 ht, h.client r.2 r.1 ht]

/-- **A call made to both** keeps them in agreement. -/
theorem Agree.call (h : Agree t i j) (ht : t ≤ r.1) : Agree r.1 (i.call r) (j.call r) := by
  have hglobal : (i.call r).global = (j.call r).global := by
    simp only [Ideal.call, h.verdict ht, h.global r.1 ht]
  refine ⟨h.cfg, ?_, ?_⟩
  · intro now _
    simp only [globalAt, hglobal]
    rw [show (i.call r).cfg = (j.call r).cfg from h.cfg]
  · intro key now hnow
    by_cases hk : clientKey key = clientKey r.2
    · rw [clientAt, clientAt, i.call_bucket_self now hk, j.call_bucket_self now hk,
        h.client r.2 r.1 ht, h.verdict ht, show (i.call r).cfg = (j.call r).cfg from h.cfg]
    · have hclient := h.client key now (ht.trans hnow)
      rw [clientAt, clientAt, i.call_bucket_ne now hk, j.call_bucket_ne now hk]
      exact hclient

theorem Agree.answers {rs : List (Int × GoString)} (h : Agree t i j)
    (hsorted : (t :: rs.map Prod.fst).Pairwise (· ≤ ·)) : i.answers rs = j.answers rs := by
  induction rs generalizing t i j with
  | nil => rfl
  | cons r rs ih =>
    obtain ⟨hfirst, hrest⟩ := List.pairwise_cons.mp hsorted
    have ht : t ≤ r.1 := hfirst r.1 (by simp)
    rw [Ideal.answers, Ideal.answers, h.verdict ht, ih (h.call ht) hrest]

/-- No bucket is from the future. -/
structure Timely (t : Int) (i : Ideal) : Prop where
  global : i.global.last ≤ t
  client : ∀ k b, i.clients k = some b → b.last ≤ t

theorem Timely.bucket (h : Timely t i) {now : Int} (ht : t ≤ now) (key : GoString) :
    (i.bucket key now).last ≤ now := by
  unfold Ideal.bucket
  cases hk : i.clients (clientKey key) with
  | none => exact le_rfl
  | some b => exact (h.client _ b hk).trans ht

theorem Timely.call (h : Timely t i) (ht : t ≤ r.1) : Timely r.1 (i.call r) := by
  have hcharge : ∀ (b : Bucket) (allowed : Bool), (b.charge allowed).last = b.last := by
    intro b allowed
    cases allowed <;> rfl
  constructor
  · rw [Ideal.call, hcharge]
    exact (refill_last (h.global.trans ht)).le
  · intro k b hb
    by_cases hk : k = clientKey r.2
    · subst hk
      obtain rfl := Option.some.inj ((i.call_clients_self r).symm.trans hb)
      rw [hcharge]
      exact (refill_last (h.bucket ht r.2)).le
    · exact (h.client k b ((i.call_clients_ne hk).symm.trans hb)).trans ht

/-- **A rejected call made to one of them** only refills two buckets. -/
theorem agree_rejected (hv : i.cfg.Valid) (h : Timely t i) (ht : t ≤ r.1) (hne : r.1 ≠ 0)
    (hrejected : (i.verdict r).1 = false) : Agree r.1 (i.call r) i := by
  refine ⟨rfl, ?_, ?_⟩
  · intro now hnow
    simp only [globalAt, Ideal.call, hrejected, Bucket.charge, Bool.false_eq_true, if_false,
      refill_seen, refill_refill hv.globalRate (h.global.trans ht) hnow hne]
  · intro key now hnow
    by_cases hk : clientKey key = clientKey r.2
    · have hpast := h.bucket ht r.2
      rw [clientAt, i.call_bucket_self now hk, hrejected, clientAt, clientAt]
      simp only [Bucket.charge, Bool.false_eq_true, if_false, refill_seen, Ideal.call,
        refill_refill hv.perClientRate hpast hnow hne]
      cases hclient : i.clients (clientKey r.2) with
      | some b => simp only [bucket, hk, hclient, Option.getD_some]
      | none =>
        -- a bucket that is made at the rejected call is as full as one that is made now
        simp only [bucket, hk, hclient, Option.getD_none, Bucket.mk.injEq, and_true]
        constructor
        · rw [refill_full hv.perClientRate hnow rfl, refill_full hv.perClientRate le_rfl rfl]
        · rw [refill_last hnow, refill_last le_rfl]
    · rw [clientAt, i.call_bucket_ne now hk]
      rfl

/-- **Deleting a rejected call.** -/
theorem answers_eraseIdx (hv : i.cfg.Valid) (h : Timely t i) {rs : List (Int × GoString)}
    (hsorted : (t :: rs.map Prod.fst).Pairwise (· ≤ ·)) {n : Nat} {w : Int}
    (hrejected : (i.answers rs)[n]? = some (false, w)) (hne : ∀ r ∈ rs[n]?, r.1 ≠ 0) :
    i.answers (rs.eraseIdx n) = (i.answers rs).eraseIdx n := by
  induction rs generalizing t i n with
  | nil => rfl
  | cons r rs ih =>
    obtain ⟨hfirst, hrest⟩ := List.pairwise_cons.mp hsorted
    have ht : t ≤ r.1 := hfirst r.1 (by simp)
    cases n with
    | zero =>
      have hverdict : (i.verdict r).1 = false := by
        have := Option.some.inj hrejected
        rw [this]
      exact ((agree_rejected hv h ht (hne r rfl) hverdict).answers hrest).symm
    | succ n =>
      simp only [List.eraseIdx_cons_succ, Ideal.answers, List.cons.injEq, true_and]
      exact ih (i := i.call r) hv (h.call ht) hrest hrejected hne

end

end Ideal

/-! ## 4. Deleting a rejected call from a history -/

/-- The clock of a history does not go back. -/
theorem run_sorted {s s' : System} {es : List AllowCall} (h : run step s es = some s') :
    (s.clock :: es.map AllowCall.now).Pairwise (· ≤ ·) := by
  induction es generalizing s with
  | nil => exact List.pairwise_singleton _ _
  | cons e es ih =>
    obtain ⟨s₁, hstep, hrest⟩ := run_cons.mp h
    obtain ⟨hclock, -, -, hnow, -⟩ := step_allow hstep
    have hsorted := ih hrest
    rw [hnow] at hsorted
    refine List.pairwise_cons.mpr ⟨?_, hsorted⟩
    intro t ht
    rcases List.mem_cons.mp ht with rfl | ht
    · exact hclock
    · exact hclock.trans ((List.pairwise_cons.mp hsorted).1 t ht)

/-- **Rejected calls are invisible.**  In a history of at most `MaxClients` keys that spans less
than `InactiveTTL`, the `n`-th call is rejected, and not at the zero time.  The history without
it, in whatever order its calls visit the map, has the answers of the others. -/
theorem rejected_invisible {cfg : Config} {startedAt : Int} {es es' : List AllowCall}
    {s : System} {n : Nat} {w : Int} (hrun : run step (start cfg startedAt) es = some s)
    (hkeys : (es.map AllowCall.key).dedup.length ≤ cfg.normalized.maxClients)
    (hspan : ∀ e ∈ es, ∀ f ∈ es, f.now - e.now < cfg.normalized.inactiveTTL)
    (hrejected : (answers (newWithClock cfg startedAt) es)[n]? = some (false, w))
    (hne : ∀ e ∈ es[n]?, e.now ≠ 0)
    (hdelete : es'.map AllowCall.request = (es.map AllowCall.request).eraseIdx n) :
    answers (newWithClock cfg startedAt) es' =
      (answers (newWithClock cfg startedAt) es).eraseIdx n := by
  cases es with
  | nil => cases hrejected
  | cons e₀ rest =>
    have hv := cfg.normalized_valid
    have hsorted := run_sorted hrun
    let i : Ideal := ⟨cfg.normalized, (newWithClock cfg startedAt).global, fun _ => none⟩
    let keys := ((e₀ :: rest).map AllowCall.key).dedup.map clientKey
    have hreflects : Reflects (newWithClock cfg startedAt) i := ⟨rfl, rfl, fun _ => rfl⟩
    have hwithin : Within keys e₀.now (newWithClock cfg startedAt) := fun _ _ h => nomatch h
    have hroom : (keys.length : Int) ≤ cfg.normalized.maxClients := by
      rw [List.length_map]
      exact hkeys
    have hcalls : ∀ e ∈ e₀ :: rest, clientKey e.key ∈ keys ∧ e₀.now ≤ e.now ∧
        e.now - e₀.now < cfg.normalized.inactiveTTL := by
      intro e he
      refine ⟨List.mem_map_of_mem (List.mem_dedup.mpr (List.mem_map_of_mem he)), ?_,
        hspan e₀ List.mem_cons_self e he⟩
      rcases List.mem_cons.mp he with rfl | he
      · exact le_rfl
      · have hlater := (List.pairwise_cons.mp (List.pairwise_cons.mp hsorted).2).1
        exact hlater e.now (List.mem_map_of_mem he)
    have hcalls' : ∀ e ∈ es', clientKey e.key ∈ keys ∧ e₀.now ≤ e.now ∧
        e.now - e₀.now < cfg.normalized.inactiveTTL := by
      intro e he
      have hmem : e.request ∈ (e₀ :: rest).map AllowCall.request :=
        List.mem_of_mem_eraseIdx (hdelete ▸ List.mem_map_of_mem he)
      obtain ⟨f, hf, hrequest⟩ := List.mem_map.mp hmem
      obtain ⟨hnow, hkey⟩ := Prod.mk.inj hrequest
      rw [← hnow, ← hkey]
      exact hcalls f hf
    rw [ideal_answers hv hroom hcalls rfl hreflects hwithin] at hrejected ⊢
    rw [ideal_answers hv hroom hcalls' rfl hreflects hwithin, hdelete]
    have hfresh : Ideal.Timely startedAt i := ⟨le_rfl, fun k b h => absurd h (by simp [i])⟩
    refine Ideal.answers_eraseIdx hv hfresh ?_ hrejected ?_
    · rw [List.map_map]
      exact hsorted
    · intro r hr
      rw [List.getElem?_map, Option.mem_map] at hr
      obtain ⟨e, he, rfl⟩ := hr
      exact hne e he

/-- Calls at one instant, half a second later and a second later, by one client. -/
def threeCalls : List AllowCall :=
  [⟨second, str "a", []⟩, ⟨1500000000, str "a", [str "a"]⟩, ⟨1999999999, str "a", [str "a"]⟩]

/-- Without the second one, the third is told to wait one nanosecond all the same. -/
theorem rejected_invisible_threeCalls :
    (answers (newWithClock single second) threeCalls)[1]? = some (false, 500000000) ∧
      answers (newWithClock single second)
          [⟨second, str "a", []⟩, ⟨1999999999, str "a", [str "a"]⟩] =
        (answers (newWithClock single second) threeCalls).eraseIdx 1 := by
  have hrejected : (answers (newWithClock single second) threeCalls)[1]? =
      some (false, 500000000) := by decide +kernel
  obtain ⟨s, hs⟩ : ∃ s, run step (start single second) threeCalls = some s :=
    Option.isSome_iff_exists.mp (by decide +kernel)
  exact ⟨hrejected, rejected_invisible hs (by decide +kernel) (by decide +kernel) hrejected
    (by decide +kernel) (by decide +kernel)⟩

end OrderSystem.RateLimit
