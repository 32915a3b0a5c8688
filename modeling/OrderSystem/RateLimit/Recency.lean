/-
# Which clients the limiter remembers

The map of the clients loses entries in two ways: `cleanupLocked` deletes those that were last
seen before a cutoff, and `evictOldestLocked` deletes one that nobody was seen before, in
whatever order the map is visited.  Both delete from the old end (`Trimmed`): a client that is
deleted was not seen later than one that stays.  `allow_trimmed` says that a call does no more to
the map than that, and then enters its own client, and that the map does not outgrow
`MaxClients`.

What the map forgets is gone from the state, so the invariant `Recent` speaks of the calls so
far: the last call of a client that is not in the map is not later than the last call of one
that is.
-/
import OrderSystem.RateLimit.Bounds
import OrderSystem.RateLimit.Buckets

namespace OrderSystem.RateLimit

open Kit

/-! ## 1. The last call of a client -/

/-- The instant of the last call that was charged to the key `k` of the map. -/
def lastCall (calls : List Call) (k : GoString) : Option Int :=
  (calls.filter fun call => clientKey call.key = k).getLast?.map (·.time)

theorem lastCall_append_self (calls : List Call) (call : Call) :
    lastCall (calls ++ [call]) (clientKey call.key) = some call.time := by
  simp [lastCall, List.filter_append]

theorem lastCall_append_ne {k : GoString} (calls : List Call) {call : Call}
    (hk : k ≠ clientKey call.key) : lastCall (calls ++ [call]) k = lastCall calls k := by
  simp [lastCall, List.filter_append, hk.symm]

/-- `clientLocked` does not look up the empty key, which `evictOldestLocked` could not delete. -/
theorem clientKey_ne_nil (key : GoString) : clientKey key ≠ [] := by
  unfold clientKey
  split
  · decide +kernel
  · assumption

/-! ## 2. Deleting from the old end -/

/-- `clients'` is `clients` without some clients, none of which was seen later than a client
that is left. -/
structure Trimmed (clients clients' : Clients) : Prop where
  kept : ∀ k b, clients'.lookup k = some b → clients.lookup k = some b
  oldest : ∀ k b k' b', clients'.lookup k = some b → clients.lookup k' = some b' →
    clients'.lookup k' = none → b'.lastSeen ≤ b.lastSeen

theorem Trimmed.refl (clients : Clients) : Trimmed clients clients where
  kept _ _ h := h
  oldest _ _ _ _ _ h h' := absurd h (by simp [h'])

theorem Trimmed.trans {c c' c'' : Clients} (h : Trimmed c c') (h' : Trimmed c' c'') :
    Trimmed c c'' := by
  constructor
  · intro k b hb
    exact h.kept k b (h'.kept k b hb)
  · intro k b k' b' hb hb' hgone
    cases hmid : c'.lookup k' with
    | none => exact h.oldest k b k' b' (h'.kept k b hb) hb' hmid
    | some b'' =>
      obtain rfl := Option.some.inj ((h.kept k' b'' hmid).symm.trans hb')
      exact h'.oldest k b k' b'' hb hmid hgone

theorem mem_keys_of_lookup {c : Clients} {k : GoString} {b : Bucket} (h : c.lookup k = some b) :
    k ∈ c.keys :=
  AList.mem_keys.mp (AList.lookup_isSome.mp (by simp [h]))

theorem lookup_of_mem_keys {c : Clients} {k : GoString} (h : k ∈ c.keys) :
    ∃ b, c.lookup k = some b :=
  Option.isSome_iff_exists.mp (AList.lookup_isSome.mpr (AList.mem_keys.mpr h))

section

variable {α : Type} [DecidableEq α] {β : α → Type} {c : AList β} {k : α}

theorem length_keys_erase (h : k ∈ c.keys) : (c.erase k).keys.length + 1 = c.keys.length := by
  have hpos := List.length_pos_of_mem h
  rw [AList.keys_erase, List.length_erase_of_mem h]
  omega

theorem length_keys_insert_of_mem (h : k ∈ c.keys) (b : β k) :
    (c.insert k b).keys.length = c.keys.length := by
  have hpos := List.length_pos_of_mem h
  rw [AList.keys_insert, List.length_cons, List.length_erase_of_mem h]
  omega

theorem length_keys_insert_le (b : β k) : (c.insert k b).keys.length ≤ c.keys.length + 1 := by
  rw [AList.keys_insert, List.length_cons]
  exact Nat.succ_le_succ List.length_erase_le

end

theorem Trimmed.length_le {c c' : Clients} (h : Trimmed c c') :
    c'.keys.length ≤ c.keys.length := by
  refine (List.subperm_of_subset c'.keys_nodup ?_).length_le
  intro k hk
  obtain ⟨b, hb⟩ := lookup_of_mem_keys hk
  exact mem_keys_of_lookup (h.kept k b hb)

theorem cleanupLocked_trimmed (l : Limiter) (now : Int) :
    Trimmed l.clients (l.cleanupLocked now).clients := by
  unfold Limiter.cleanupLocked
  split
  · exact .refl _
  · constructor
    · intro k b hb
      rw [dropSilent_lookup] at hb
      exact (Option.filter_eq_some_iff.mp hb).1
    · intro k b k' b' hb hb' hgone
      rw [dropSilent_lookup] at hb hgone
      have hkept := of_decide_eq_true (Option.filter_eq_some_iff.mp hb).2
      have hdropped := Option.filter_eq_none_iff.mp hgone b' hb'
      simp only [decide_eq_true_eq, not_le] at hdropped
      exact hdropped.le.trans hkept

/-- What the loop of `evictOldestLocked` has found among the clients it has visited: none, or one
that was seen no later than the others, with the time it was seen. -/
def Oldest (c : Clients) (visited : List GoString) (best : GoString × Int) : Prop :=
  (best.1 = [] ∧ ∀ k ∈ visited, c.lookup k = none) ∨
    ∃ b, c.lookup best.1 = some b ∧ best.2 = b.lastSeen ∧
      ∀ k ∈ visited, ∀ b', c.lookup k = some b' → b.lastSeen ≤ b'.lastSeen

section

variable {c : Clients} {visited : List GoString} {best : GoString × Int} {key : GoString}
  {client : Bucket}

theorem Oldest.absent (h : Oldest c visited best) (hkey : c.lookup key = none) :
    Oldest c (visited ++ [key]) best := by
  rcases h with ⟨hnone, hall⟩ | ⟨b, hb, hseen, hmin⟩
  · refine .inl ⟨hnone, fun k hk => ?_⟩
    rcases List.mem_append.mp hk with hk | hk
    · exact hall k hk
    · exact List.mem_singleton.mp hk ▸ hkey
  · refine .inr ⟨b, hb, hseen, fun k hk b' hb' => ?_⟩
    rcases List.mem_append.mp hk with hk | hk
    · exact hmin k hk b' hb'
    · obtain rfl := List.mem_singleton.mp hk
      cases hkey.symm.trans hb'

/-- The visited client is the first one, or was seen before the best one so far. -/
theorem Oldest.replaced (h : Oldest c visited best) (hkey : c.lookup key = some client)
    (holder : best.1 = [] ∨ client.lastSeen < best.2) (hnamed : ∀ k ∈ c.keys, k ≠ []) :
    Oldest c (visited ++ [key]) (key, client.lastSeen) := by
  refine .inr ⟨client, hkey, rfl, fun k hk b' hb' => ?_⟩
  rcases List.mem_append.mp hk with hk | hk
  · rcases h with ⟨-, hall⟩ | ⟨b, hb, hseen, hmin⟩
    · exact absurd hb' (by simp [hall k hk])
    · have hlt := holder.resolve_left (hnamed _ (mem_keys_of_lookup hb))
      exact (hlt.le.trans hseen.le).trans (hmin k hk b' hb')
  · obtain rfl := List.mem_singleton.mp hk
    exact (congrArg Bucket.lastSeen (Option.some.inj (hkey.symm.trans hb'))).le

theorem Oldest.stays (h : Oldest c visited best) (hkey : c.lookup key = some client)
    (hnot : ¬ (best.1 = [] ∨ client.lastSeen < best.2)) : Oldest c (visited ++ [key]) best := by
  rw [not_or, not_lt] at hnot
  rcases h with ⟨hnone, -⟩ | ⟨b, hb, hseen, hmin⟩
  · exact absurd hnone hnot.1
  · refine .inr ⟨b, hb, hseen, fun k hk b' hb' => ?_⟩
    rcases List.mem_append.mp hk with hk | hk
    · exact hmin k hk b' hb'
    · obtain rfl := List.mem_singleton.mp hk
      obtain rfl := Option.some.inj (hkey.symm.trans hb')
      exact hseen.ge.trans hnot.2

end

/-- **The loop of `evictOldestLocked`** ends with a client that was seen no later than any of
those visited, or has found none. -/
theorem oldestKey_spec {c : Clients} (hnamed : ∀ k ∈ c.keys, k ≠ []) (order : List GoString) :
    (∀ k ∈ order, c.lookup k = none) ∨
      ∃ b, c.lookup (oldestKey c order) = some b ∧
        ∀ k ∈ order, ∀ b', c.lookup k = some b' → b.lastSeen ≤ b'.lastSeen := by
  rw [oldestKey]
  generalize hbest : order.foldl _ _ = best
  have hfound : Oldest c order best := by
    rw [← hbest]
    refine foldl_visited (.inl ⟨rfl, nofun⟩) ?_ order
    intro visited best key h
    cases hkey : c.lookup key with
    | none => exact h.absent hkey
    | some client =>
      dsimp only
      split_ifs with holder
      · exact h.replaced hkey holder hnamed
      · exact h.stays hkey holder
  rcases hfound with ⟨-, hall⟩ | ⟨b, hb, -, hmin⟩
  · exact .inl hall
  · exact .inr ⟨b, hb, hmin⟩

/-- **An eviction** from a map that is not empty deletes one client from its old end. -/
theorem evictOldestLocked_trimmed {l : Limiter} {order : List GoString}
    (hnamed : ∀ k ∈ l.clients.keys, k ≠ []) (hperm : order.Perm l.clients.keys)
    (hsome : 0 < l.clients.keys.length) :
    Trimmed l.clients (l.evictOldestLocked order).clients ∧
      (l.evictOldestLocked order).clients.keys.length + 1 = l.clients.keys.length := by
  have hspec := oldestKey_spec hnamed order
  obtain ⟨k₀, hk₀⟩ := List.exists_mem_of_length_pos hsome
  obtain ⟨b₀, hb₀⟩ := lookup_of_mem_keys hk₀
  obtain ⟨b, hb, hmin⟩ := hspec.resolve_left fun hall =>
    absurd hb₀ (by simp [hall k₀ (hperm.mem_iff.mpr hk₀)])
  have hmem := mem_keys_of_lookup hb
  simp only [Limiter.evictOldestLocked, ne_eq, hnamed _ hmem, not_false_eq_true, if_true]
  refine ⟨⟨?_, ?_⟩, ?_⟩
  · intro k b' hb'
    have hk : k ≠ oldestKey l.clients order := by
      rintro rfl
      simp at hb'
    rwa [AList.lookup_erase_ne hk] at hb'
  · intro k b' k' b'' hb' hb'' hgone
    have hk' : k' = oldestKey l.clients order := by
      by_contra hne
      rw [AList.lookup_erase_ne hne, hb''] at hgone
      cases hgone
    subst hk'
    obtain rfl := Option.some.inj (hb.symm.trans hb'')
    have hk : k ≠ oldestKey l.clients order := by
      rintro rfl
      simp at hb'
    rw [AList.lookup_erase_ne hk] at hb'
    exact hmin k (hperm.mem_iff.mpr (mem_keys_of_lookup hb')) b' hb'
  · exact length_keys_erase hmem

/-! ## 3. What a call does to the map -/

/-- Looking a client up trims the map and enters the client. -/
theorem clientLocked_trimmed {l : Limiter} {order : List GoString} (key : GoString) (now : Int)
    (hnamed : ∀ k ∈ l.clients.keys, k ≠ []) (hperm : order.Perm l.clients.keys)
    (hroom : 0 < l.cfg.maxClients) (hsize : l.clients.keys.length ≤ l.cfg.maxClients) :
    ∃ kept, Trimmed l.clients kept ∧
      (∀ b, (l.clientLocked order key now).1.clients.insert (clientKey key) b =
        kept.insert (clientKey key) b) ∧
      ∀ b, ((kept.insert (clientKey key) b).keys.length : Int) ≤ l.cfg.maxClients := by
  unfold Limiter.clientLocked
  cases hlookup : l.clients.lookup (clientKey key) with
  | some existing =>
    refine ⟨l.clients, .refl _, fun _ => rfl, fun b => ?_⟩
    rw [length_keys_insert_of_mem (mem_keys_of_lookup hlookup)]
    exact hsize
  | none =>
    by_cases hfull : l.cfg.maxClients ≤ l.clients.keys.length
    · obtain ⟨htrim, hlen⟩ := evictOldestLocked_trimmed hnamed hperm (by omega)
      refine ⟨(l.evictOldestLocked order).clients, htrim, fun b => ?_, fun b => ?_⟩
      · simp [hfull, AList.insert_insert]
      · have := length_keys_insert_le (c := (l.evictOldestLocked order).clients)
          (k := clientKey key) b
        omega
    · refine ⟨l.clients, .refl _, fun b => ?_, fun b => ?_⟩
      · simp [hfull, AList.insert_insert]
      · have := length_keys_insert_le (c := l.clients) (k := clientKey key) b
        omega

theorem allow_trimmed {l : Limiter} {order : List GoString} (key : GoString) (now : Int)
    (hnamed : ∀ k ∈ l.clients.keys, k ≠ [])
    (hperm : order.Perm (l.cleanupLocked now).clients.keys)
    (hroom : 0 < l.cfg.maxClients) (hsize : l.clients.keys.length ≤ l.cfg.maxClients) :
    ∃ kept b, Trimmed l.clients kept ∧ b.lastSeen = now ∧
      (l.allow order key now).1.clients = kept.insert (clientKey key) b ∧
      ((kept.insert (clientKey key) b).keys.length : Int) ≤ l.cfg.maxClients := by
  have hclean := cleanupLocked_trimmed l now
  have hnamed' : ∀ k ∈ (l.cleanupLocked now).clients.keys, k ≠ [] := by
    intro k hk
    obtain ⟨b, hb⟩ := lookup_of_mem_keys hk
    exact hnamed k (mem_keys_of_lookup (hclean.kept k b hb))
  have hsize' : ((l.cleanupLocked now).clients.keys.length : Int) ≤
      (l.cleanupLocked now).cfg.maxClients := by
    have := hclean.length_le
    rw [cleanupLocked_cfg]
    omega
  obtain ⟨kept, htrim, hinsert, hbound⟩ := clientLocked_trimmed key now hnamed' hperm
    (by rwa [cleanupLocked_cfg]) hsize'
  rw [cleanupLocked_cfg] at hbound
  simp only [Limiter.allow]
  split
  · exact ⟨kept, _, hclean.trans htrim, rfl, hinsert _, hbound _⟩
  · exact ⟨kept, _, hclean.trans htrim, rfl, hinsert _, hbound _⟩

/-! ## 4. Every history -/

structure Recent (cfg : Config) (s : System) : Prop where
  config : s.limiter.cfg = cfg
  named : ∀ k ∈ s.limiter.clients.keys, k ≠ []
  size : s.limiter.clients.keys.length ≤ cfg.maxClients
  /-- the map knows the last call of each of its clients -/
  seen : ∀ k b, s.limiter.clients.lookup k = some b → lastCall s.calls k = some b.lastSeen
  past : ∀ k t, lastCall s.calls k = some t → t ≤ s.clock
  recent : ∀ k b k' t', s.limiter.clients.lookup k = some b →
    s.limiter.clients.lookup k' = none → lastCall s.calls k' = some t' → t' ≤ b.lastSeen

theorem Config.normalized_maxClients (cfg : Config) : 0 < cfg.normalized.maxClients := by
  simp only [Config.normalized]
  split
  · decide
  · omega

theorem recent_start (cfg : Config) (startedAt : Int) :
    Recent cfg.normalized (start cfg startedAt) where
  config := rfl
  named _ h := nomatch h
  size := cfg.normalized_maxClients.le
  seen _ _ h := nomatch h
  past _ _ h := nomatch h
  recent _ _ _ _ h := nomatch h

/-- The client that is entered is in the map, and another one as it was. -/
theorem lookup_insert_cases {c : Clients} {key k : GoString} {b₀ b : Bucket}
    (h : (c.insert key b₀).lookup k = some b) :
    (k = key ∧ b = b₀) ∨ (k ≠ key ∧ c.lookup k = some b) := by
  by_cases hk : k = key
  · subst hk
    rw [AList.lookup_insert] at h
    exact .inl ⟨rfl, (Option.some.inj h).symm⟩
  · rw [AList.lookup_insert_ne hk] at h
    exact .inr ⟨hk, h⟩

theorem recent_step {cfg : Config} (hroom : 0 < cfg.maxClients) {s s' : System} {e : AllowCall}
    (hs : Recent cfg s) (h : step s e = some s') : Recent cfg s' := by
  obtain rfl := hs.config
  obtain ⟨hclock, hperm, hlimiter, hnow, hcalls⟩ := step_allow h
  obtain ⟨kept, b₀, htrim, hseen, hclients, hbound⟩ :=
    allow_trimmed e.key e.now hs.named hperm hroom hs.size
  have hcfg : (s.limiter.allow e.order e.key e.now).1.cfg = s.limiter.cfg := by
    simp only [Limiter.allow]
    split <;> simp
  rw [← hlimiter] at hclients hcfg
  refine ⟨hcfg, ?_, ?_, ?_, ?_, ?_⟩
  · intro k hk
    rw [hclients] at hk
    obtain ⟨b, hb⟩ := lookup_of_mem_keys hk
    rcases lookup_insert_cases hb with ⟨rfl, -⟩ | ⟨-, hb⟩
    · exact clientKey_ne_nil e.key
    · exact hs.named k (mem_keys_of_lookup (htrim.kept k b hb))
  · rw [hclients]
    exact hbound
  · intro k b hb
    rw [hclients] at hb
    rcases lookup_insert_cases hb with ⟨rfl, rfl⟩ | ⟨hk, hb⟩
    · rw [hcalls, hseen]
      exact lastCall_append_self _ ⟨e.now, e.key, _⟩
    · rw [hcalls, lastCall_append_ne _ hk]
      exact hs.seen k b (htrim.kept k b hb)
  · intro k t ht
    rw [hcalls] at ht
    rw [hnow]
    by_cases hk : k = clientKey e.key
    · subst hk
      rw [lastCall_append_self _ ⟨e.now, e.key, _⟩] at ht
      exact (Option.some.inj ht).ge
    · rw [lastCall_append_ne _ hk] at ht
      exact (hs.past k t ht).trans hclock
  · intro k b k' t' hb hgone ht'
    rw [hclients] at hb hgone
    have hk' : k' ≠ clientKey e.key := by
      rintro rfl
      simp at hgone
    rw [AList.lookup_insert_ne hk'] at hgone
    rw [hcalls, lastCall_append_ne _ hk'] at ht'
    rcases lookup_insert_cases hb with ⟨rfl, rfl⟩ | ⟨hk, hb⟩
    · exact ((hs.past k' t' ht').trans hclock).trans hseen.ge
    · cases hbefore : s.limiter.clients.lookup k' with
      | none => exact hs.recent k b k' t' (htrim.kept k b hb) hbefore ht'
      | some b' =>
        obtain rfl := Option.some.inj ((hs.seen k' b' hbefore).symm.trans ht')
        exact htrim.oldest k b k' b' hb hbefore hgone

theorem recent_run {cfg : Config} {startedAt : Int} {es : List AllowCall} {s : System}
    (hrun : run step (start cfg startedAt) es = some s) : Recent cfg.normalized s :=
  run_invariant (fun _ _ _ => recent_step cfg.normalized_maxClients) (recent_start cfg startedAt)
    hrun

/-- **The client table** after any history: it has at most `MaxClients` entries, the caller of
the last call is one of them, every bucket holds between no token and its burst, and the last
call of a client that is not in the table any more is not later than that of a client that
is. -/
theorem clients_recent {cfg : Config} {startedAt : Int} {es : List AllowCall} {s : System}
    (hrun : run step (start cfg startedAt) es = some s) :
    s.limiter.clients.keys.length ≤ cfg.normalized.maxClients ∧
    (∀ e ∈ es.getLast?, clientKey e.key ∈ s.limiter.clients.keys) ∧
    (0 ≤ s.limiter.global.tokens ∧ s.limiter.global.tokens ≤ cfg.normalized.globalBurst) ∧
    (∀ k b, s.limiter.clients.lookup k = some b →
      0 ≤ b.tokens ∧ b.tokens ≤ cfg.normalized.perClientBurst) ∧
    ∀ k ∈ s.limiter.clients.keys, ∀ k' ∉ s.limiter.clients.keys,
      ∃ t ∈ lastCall s.calls k, ∀ t' ∈ lastCall s.calls k', t' ≤ t := by
  have hsound := sound_run hrun
  have hrecent := recent_run hrun
  refine ⟨hrecent.size, ?_, ⟨hsound.global.nonneg, hsound.global.capped⟩, ?_, ?_⟩
  · intro e he
    obtain ⟨pre, rfl⟩ := List.getLast?_eq_some_iff.mp he
    obtain ⟨t, ht, hstep⟩ := run_snoc.mp hrun
    have hv : t.limiter.cfg.Valid := (sound_run ht).config ▸ cfg.normalized_valid
    obtain ⟨allowed, hcharged, -⟩ := step_charged hv hstep
    exact mem_keys_of_lookup hcharged.client
  · intro k b hb
    exact ⟨(hsound.client k b hb).nonneg, (hsound.client k b hb).capped⟩
  · intro k hk k' hk'
    obtain ⟨b, hb⟩ := lookup_of_mem_keys hk
    have hgone : s.limiter.clients.lookup k' = none :=
      AList.lookup_eq_none.mpr (AList.mem_keys.not.mpr hk')
    exact ⟨b.lastSeen, hrecent.seen k b hb, fun t' ht' => hrecent.recent k b k' t' hb hgone ht'⟩

/-- The two clients of `twoClients` in a table with room for one: the second one is there. -/
theorem clients_recent_twoClients :
    ∃ s, run step (start single second) twoClients = some s ∧
      s.limiter.clients.keys = [str "b"] ∧
      s.limiter.clients.keys.length ≤ single.normalized.maxClients ∧
      ∃ t ∈ lastCall s.calls (str "b"), ∀ t' ∈ lastCall s.calls (str "a"), t' ≤ t := by
  have hkeys : (run step (start single second) twoClients).map (·.limiter.clients.keys) =
      some [str "b"] := by decide +kernel
  obtain ⟨s, hs, hb⟩ := Option.map_eq_some_iff.mp hkeys
  obtain ⟨hsize, -, -, -, hrecent⟩ := clients_recent hs
  refine ⟨s, hs, hb, hsize, hrecent (str "b") ?_ (str "a") ?_⟩
  · rw [hb]
    exact List.mem_singleton.mpr rfl
  · rw [hb]
    decide +kernel

end OrderSystem.RateLimit
