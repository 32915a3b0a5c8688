/-
# Reservations are idempotent and final

The order service repeats its requests without knowing whether an earlier copy arrived, so
what it relies on is said here about every run of the inventory service, whatever requests are
delivered, however often and in whatever order:

* `Persists` -- a reservation never disappears, keeps its id, order and items, and keeps its
  status once it is confirmed or released;
* `Answered` -- a request that has committed leaves the database in a state in which the same
  request finds its work done;
* `Logged` -- the log has no `confirm` or `release` entry for a pending reservation, and for a
  settled one exactly one entry per item, all of the same kind.
-/
import OrderSystem.InventorySvc.Conservation

namespace OrderSystem.InventorySvc

open OrderSystem.Kit

/-! ## 1. What later requests leave alone -/

/-- Everything `s` has is still there in `s'`, and what is settled is unchanged. -/
structure Persists (s s' : DB) : Prop where
  orders : ∀ o id, s.orderKey o = some id → s'.orderKey o = some id
  reservations : ∀ w r, s.reservationAt w = some r → ∃ r', s'.reservationAt w = some r' ∧
    r'.id = r.id ∧ r'.orderID = r.orderID ∧ r'.items = r.items ∧ (r.status ≠ .pending → r' = r)

theorem Persists.of_eq {s s' : DB} (hr : s'.reservationAt = s.reservationAt)
    (ho : s'.orderKey = s.orderKey) : Persists s s' :=
  ⟨fun _ _ h => ho ▸ h, fun _ r h => ⟨r, hr ▸ h, rfl, rfl, rfl, fun _ => rfl⟩⟩

theorem Persists.refl (s : DB) : Persists s s := .of_eq rfl rfl

theorem Persists.trans {s t u : DB} (h : Persists s t) (h' : Persists t u) : Persists s u := by
  refine ⟨fun o id ho => h'.orders o id (h.orders o id ho), fun w r hr => ?_⟩
  obtain ⟨r₁, hr₁, a1, a2, a3, a4⟩ := h.reservations w r hr
  obtain ⟨r₂, hr₂, b1, b2, b3, b4⟩ := h'.reservations w r₁ hr₁
  refine ⟨r₂, hr₂, b1.trans a1, b2.trans a2, b3.trans a3, fun hst => ?_⟩
  have h1 := a4 hst
  rw [b4 (h1 ▸ hst), h1]

theorem Persists.isSome {s s' : DB} (h : Persists s s') {o : Int}
    (ho : (s.orderKey o).isSome) : (s'.orderKey o).isSome := by
  obtain ⟨id, hid⟩ := Option.isSome_iff_exists.mp ho
  rw [h.orders o id hid]
  rfl

/-- A settled reservation stays as it is. -/
theorem Persists.settled {s s' : DB} (h : Persists s s') {w : GoString} {r : Reservation}
    (hr : s.reservationAt w = some r) (hst : r.status ≠ .pending) :
    s'.reservationAt w = some r := by
  obtain ⟨r', hr', -, -, -, heq⟩ := h.reservations w r hr
  rw [hr', heq hst]

theorem Settlement.status_ne_pending (t : Settlement) : t.status ≠ .pending := by
  cases t <;> simp [Settlement.status]

/-- Two deliveries of one request: a `Reserve` may be given another generated id each time. -/
inductive Redelivery : Request → Request → Prop
  | reserve (generated generated' : GoString) (req : ReserveRequest) :
      Redelivery (.reserve generated req) (.reserve generated' req)
  | confirm (id : GoString) : Redelivery (.confirm id) (.confirm id)
  | release (id : GoString) : Redelivery (.release id) (.release id)

theorem Redelivery.settles {req req' : Request} (h : Redelivery req req') :
    req.settles = req'.settles := by
  cases h <;> rfl

section

variable [Collation]

variable {s s' : DB} {id w : GoString} {r : Reservation} {t : Settlement} {req : Request}
  {a : Answer} {H : List (Request × Answer)}

theorem Settled.row (h : Settled s s' id r t) :
    s'.reservation id = some { r with status := t.status } := by
  rw [DB.reservation, h.reservations, Function.update_self]

variable {snapshot : DB}

/-- **A committed request leaves everything settled alone.** -/
theorem Persists.effect (he : Effect snapshot s req a s') : Persists s s' := by
  cases he with
  | supplied hreq hs => exact .of_eq hs.reservations hs.orders
  | existing ho hitems hr => exact .refl s
  | kept hreq hid hst hr => exact .refl s
  | placed ho hid hord hitems hp =>
    refine ⟨fun o id h => ?_, fun w r h => ⟨r, ?_, rfl, rfl, rfl, fun _ => rfl⟩⟩
    · rw [hp.orders, Function.update_of_ne]
      · exact h
      · rintro rfl
        exact absurd (hp.fresh_order.symm.trans h) (by simp)
    · rw [hp.reservations, Function.update_of_ne]
      · exact h
      · rintro rfl
        exact absurd (hp.fresh_id.symm.trans h) (by simp)
  | settled hreq hid hs =>
    refine ⟨fun o id h => by rw [hs.orders]; exact h, fun w r h => ?_⟩
    rw [hs.reservations, Function.update_apply]
    split
    · rename_i hw
      subst hw
      have hr := Option.some.inj (hs.found.symm.trans h)
      subst hr
      exact ⟨_, rfl, rfl, rfl, rfl, fun hne => absurd hs.status hne⟩
    · exact ⟨r, h, rfl, rfl, rfl, fun _ => rfl⟩

/-- A reservation that is there after a committed request was there before, or the request is
the `Reserve` that made it. -/
theorem Effect.backward (he : Effect snapshot s req a s') {r' : Reservation}
    (hr' : s'.reservationAt w = some r') :
    (∃ r, s.reservationAt w = some r ∧ r'.id = r.id ∧ r'.orderID = r.orderID ∧
        r'.items = r.items) ∨
      ∃ generated q, req = .reserve generated q ∧ r'.orderID = q.orderID ∧
        r'.id = reservationIDFor generated q ∧
        normalizeItems q.items = some (r'.items.map (·.line)) := by
  cases he with
  | supplied hreq hs => exact Or.inl ⟨r', hs.reservations ▸ hr', rfl, rfl, rfl⟩
  | existing ho hitems hr => exact Or.inl ⟨r', hr', rfl, rfl, rfl⟩
  | kept hreq hid hst hr => exact Or.inl ⟨r', hr', rfl, rfl, rfl⟩
  | placed ho hid hord hitems hp =>
    rw [hp.reservations, Function.update_apply] at hr'
    split at hr'
    · obtain rfl := Option.some.inj hr'
      exact Or.inr ⟨_, _, rfl, hord, hid, hitems⟩
    · exact Or.inl ⟨r', hr', rfl, rfl, rfl⟩
  | settled hreq hid hs =>
    rw [hs.reservations, Function.update_apply] at hr'
    split at hr'
    · rename_i hw
      obtain rfl := Option.some.inj hr'
      have hf := hs.found
      rw [DB.reservation, ← hw] at hf
      exact Or.inl ⟨_, hf, rfl, rfl, rfl⟩
    · exact Or.inl ⟨r', hr', rfl, rfl, rfl⟩

/-- A reservation that is settled after a committed request was settled before, or the request
is the one that settled it. -/
theorem Effect.settled_by (he : Effect snapshot s req a s') {r' : Reservation}
    (hr' : s'.reservationAt w = some r') (hst' : r'.status ≠ .pending) :
    s.reservationAt w = some r' ∨
      ∃ id t, req.settles = some (id, t) ∧ w = Collation.weight (trimSpace id) ∧
        r'.status = t.status := by
  cases he with
  | supplied hreq hs => exact Or.inl (hs.reservations ▸ hr')
  | existing ho hitems hr => exact Or.inl hr'
  | kept hreq hid hst hr => exact Or.inl hr'
  | placed ho hid hord hitems hp =>
    rw [hp.reservations, Function.update_apply] at hr'
    split at hr'
    · obtain rfl := Option.some.inj hr'
      exact absurd hp.status hst'
    · exact Or.inl hr'
  | settled hreq hid hs =>
    rw [hs.reservations, Function.update_apply] at hr'
    split at hr'
    · rename_i hw
      obtain rfl := Option.some.inj hr'
      exact Or.inr ⟨_, _, hreq, hw, rfl⟩
    · exact Or.inl hr'

/-! ## 2. Requests that have committed -/

/-- The work of every committed request is done. -/
structure Answered (history : List (Request × Answer)) (s : DB) : Prop where
  reserved : ∀ generated req a, (Request.reserve generated req, a) ∈ history →
    0 < req.orderID ∧ (normalizeItems req.items).isSome ∧ (s.orderKey req.orderID).isSome
  settled : ∀ req a id t, (req, a) ∈ history → req.settles = some (id, t) →
    trimSpace id ≠ [] ∧ ∃ r, s.reservation (trimSpace id) = some r ∧ r.status = t.status

theorem Answered.persists (h : Answered H s) (hp : Persists s s') : Answered H s' where
  reserved generated req a hmem := by
    obtain ⟨h1, h2, h3⟩ := h.reserved generated req a hmem
    exact ⟨h1, h2, hp.isSome h3⟩
  settled req a id t hmem hreq := by
    obtain ⟨hid, r, hr, hst⟩ := h.settled req a id t hmem hreq
    exact ⟨hid, r, hp.settled hr (hst ▸ t.status_ne_pending), hst⟩

theorem Answered.snoc (h : Answered H s)
    (hres : ∀ generated q, req = .reserve generated q →
      0 < q.orderID ∧ (normalizeItems q.items).isSome ∧ (s.orderKey q.orderID).isSome)
    (hset : ∀ id t, req.settles = some (id, t) →
      trimSpace id ≠ [] ∧ ∃ r, s.reservation (trimSpace id) = some r ∧ r.status = t.status) :
    Answered (H ++ [(req, a)]) s where
  reserved generated q b hmem := by
    rcases List.mem_append.mp hmem with hmem | hmem
    · exact h.reserved generated q b hmem
    · rw [List.mem_singleton, Prod.mk.injEq] at hmem
      exact hres generated q hmem.1.symm
  settled q b id t hmem hq := by
    rcases List.mem_append.mp hmem with hmem | hmem
    · exact h.settled q b id t hmem hq
    · rw [List.mem_singleton, Prod.mk.injEq] at hmem
      exact hset id t (hmem.1 ▸ hq)

/-- A committed request is answered, and the earlier ones still are.  `Reserve` may answer from
its snapshot, so it matters that what the snapshot has is still there. -/
theorem Answered.effect (h : Answered H s) (hsnap : Persists snapshot s)
    (he : Effect snapshot s req a s') : Answered (H ++ [(req, a)]) s' := by
  refine (h.persists (.effect he)).snoc (fun generated q hq => ?_) fun id t hreq => ?_
  · subst hq
    cases he with
    | supplied hreq hs => exact absurd hreq (by simp)
    | existing ho hitems hr =>
      obtain ⟨id, hid, -⟩ := Option.bind_eq_some_iff.mp hr
      exact ⟨ho, hitems, by rw [hsnap.orders _ _ hid]; rfl⟩
    | placed ho hid hord hitems hp =>
      refine ⟨ho, by rw [hitems]; rfl, ?_⟩
      rw [hp.orders, hord, Function.update_self]
      rfl
    | kept hreq hid hst hr => exact absurd hreq (by simp [Request.settles])
    | settled hreq hid hs => exact absurd hreq (by simp [Request.settles])
  · cases he with
    | supplied hs hsup => rcases hs with rfl | rfl <;> exact absurd hreq (by simp [Request.settles])
    | existing ho hitems hr => exact absurd hreq (by simp [Request.settles])
    | placed ho hid hord hitems hp => exact absurd hreq (by simp [Request.settles])
    | kept hreq' hid hst hr =>
      rw [hreq', Option.some.injEq, Prod.mk.injEq] at hreq
      obtain ⟨rfl, rfl⟩ := hreq
      exact ⟨hid, _, hr, hst⟩
    | settled hreq' hid hs =>
      rw [hreq', Option.some.injEq, Prod.mk.injEq] at hreq
      obtain ⟨rfl, rfl⟩ := hreq
      exact ⟨hid, _, hs.row, rfl⟩

/-! ## 3. The log of settlements -/

/-- The log entry is of a settlement of the reservation under `w`. -/
def StockLog.settles (w : GoString) (l : StockLog) : Bool :=
  decide ((l.changeType = .confirm ∨ l.changeType = .release) ∧ Collation.weight l.referenceID = w)

/-- The settlements the log has for the reservation under `w`. -/
def DB.settlements (s : DB) (w : GoString) : List StockLog :=
  (Store.log s).filter (StockLog.settles w)

/-- A reservation that is not settled has no settlement in the log, and a settled one has its
items once, all settled the same way. -/
structure Logged (s : DB) : Prop where
  unsettled : ∀ w, (∀ r, s.reservationAt w = some r → r.status = .pending) → s.settlements w = []
  settled : ∀ w r t, s.reservationAt w = some r → r.status = t.status →
    ∃ id, Collation.weight id = w ∧ s.settlements w = r.sortedItems.map (settleLog id t)

theorem settlements_append {ls : List StockLog} (w : GoString)
    (h : Store.log s' = Store.log s ++ ls) :
    s'.settlements w = s.settlements w ++ ls.filter (StockLog.settles w) := by
  rw [DB.settlements, h, List.filter_append]
  rfl

/-- New entries that are no settlements of `w` change nothing for `w`. -/
theorem settlements_same {ls : List StockLog} (h : Store.log s' = Store.log s ++ ls)
    (hl : ∀ l ∈ ls, l.settles w = false) :
    s'.settlements w = s.settlements w := by
  rw [settlements_append w h, List.filter_eq_nil_iff.mpr fun l hm => by simp [hl l hm],
    List.append_nil]

theorem settleLog_settles (id : GoString) (t : Settlement) (i : ReservationItem) (w : GoString) :
    (settleLog id t i).settles w = decide (Collation.weight id = w) := by
  cases t <;> simp [settleLog, StockLog.settles, Settlement.changeType]

theorem Logged.of_eq (h : Logged s) (hr : s'.reservationAt = s.reservationAt)
    (hlog : ∀ w, s'.settlements w = s.settlements w) : Logged s' where
  unsettled w hp := by
    rw [hlog]
    exact h.unsettled w fun r hr' => hp r (hr ▸ hr')
  settled w r t hr' hst := by
    rw [hlog]
    exact h.settled w r t (hr ▸ hr') hst

theorem Logged.placed (h : Logged s) (hp : Placed s s' r) :
    Logged s' := by
  have hlog : ∀ w, s'.settlements w = s.settlements w := fun w =>
    settlements_same hp.log fun l hl => by
      obtain ⟨i, -, rfl⟩ := List.mem_map.mp hl
      simp [reserveLog, StockLog.settles]
  have hother : ∀ w, w ≠ Collation.weight r.id → s'.reservationAt w = s.reservationAt w :=
    fun w hw => by rw [hp.reservations, Function.update_of_ne hw]
  refine ⟨fun w hpend => ?_, fun w r' t hr' hst => ?_⟩
  · rw [hlog]
    refine h.unsettled w fun r' hr' => ?_
    by_cases hw : w = Collation.weight r.id
    · subst hw
      exact absurd (hp.fresh_id.symm.trans hr') (by simp)
    · exact hpend r' ((hother w hw).trans hr')
  · rw [hlog]
    by_cases hw : w = Collation.weight r.id
    · subst hw
      rw [hp.reservations, Function.update_self, Option.some.injEq] at hr'
      rw [← hr', hp.status] at hst
      exact absurd hst.symm t.status_ne_pending
    · exact h.settled w r' t ((hother w hw).symm.trans hr') hst

theorem Logged.settle (h : Logged s) (hs : Settled s s' id r t) : Logged s' := by
  have hother : ∀ w, w ≠ Collation.weight id → s'.reservationAt w = s.reservationAt w :=
    fun w hw => by rw [hs.reservations, Function.update_of_ne hw]
  have hlog : ∀ w, w ≠ Collation.weight id → s'.settlements w = s.settlements w := fun w hw =>
    settlements_same hs.log fun l hl => by
      obtain ⟨i, -, rfl⟩ := List.mem_map.mp hl
      simp [settleLog_settles, Ne.symm hw]
  refine ⟨fun w hpend => ?_, fun w r' t' hr' hst => ?_⟩
  · by_cases hw : w = Collation.weight id
    · subst hw
      exact absurd (hpend _ hs.row) t.status_ne_pending
    · rw [hlog w hw]
      exact h.unsettled w fun r' hr' => hpend r' ((hother w hw).trans hr')
  · by_cases hw : w = Collation.weight id
    · subst hw
      rw [hs.reservations, Function.update_self, Option.some.injEq] at hr'
      have ht : t' = t := by
        rw [← hr'] at hst
        revert hst
        cases t <;> cases t' <;> simp [Settlement.status]
      -- nothing was logged before, and everything logged now is for this reservation
      have hnone : s.settlements (Collation.weight id) = [] :=
        h.unsettled _ fun r₀ hr₀ => by
          rw [← Option.some.inj (hs.found.symm.trans hr₀)]
          exact hs.status
      have hall : ∀ l ∈ r.sortedItems.map (settleLog id t),
          StockLog.settles (Collation.weight id) l = true := fun l hl => by
        obtain ⟨i, -, rfl⟩ := List.mem_map.mp hl
        simp [settleLog_settles]
      refine ⟨id, rfl, ?_⟩
      rw [settlements_append _ hs.log, hnone, List.filter_eq_self.mpr hall, ← hr', ht]
      rfl
    · rw [hlog w hw]
      exact h.settled w r' t' ((hother w hw).symm.trans hr') hst

/-- A committed request keeps the log in step. -/
theorem Logged.effect (h : Logged s) (he : Effect snapshot s req a s') : Logged s' := by
  cases he with
  | supplied hreq hs =>
    obtain ⟨k, hk, hlog⟩ := hs.log
    refine h.of_eq hs.reservations fun w => settlements_same hlog fun l hl => ?_
    rw [List.mem_singleton.mp hl]
    rcases hk with rfl | rfl
    · simp [StockLog.settles]
    · simp [StockLog.settles]
  | existing ho hitems hr => exact h
  | placed ho hid hord hitems hp => exact h.placed hp
  | kept hreq hid hst hr => exact h
  | settled hreq hid hs => exact h.settle hs

/-! ## 4. Every run -/

/-- What every run keeps, besides the stock. -/
structure Settles (history : List (Request × Answer)) (s : DB) : Prop where
  indexed : Indexed s
  answered : Answered history s
  logged : Logged s

theorem settles_empty : Settles [] DB.empty where
  indexed := indexed_empty
  answered := ⟨fun _ _ _ h => absurd h (by simp), fun _ _ _ _ h => absurd h (by simp)⟩
  logged := ⟨fun _ _ => rfl, fun w r t h => absurd h (by simp [DB.empty, DB.reservationAt])⟩

theorem carried_run {es : List (LockEvent Request)} {s : Service}
    (h : run step start es = some s) : Carried Request.prog Settles Persists s :=
  locking_invariant (I := Settles) (R := Persists) settles_empty Persists.refl
    (fun _ _ _ _ _ _ hS hsnap hexec =>
      have he := prog_effect hexec
      ⟨⟨hS.indexed.effect he, hS.answered.effect hsnap he, hS.logged.effect he⟩,
        fun _ hT => hT.trans (.effect he)⟩) h

/-- Along a run, nothing settled changes. -/
theorem persists_run {es : List (LockEvent Request)} {s s' : Service}
    (hT : Tracked Request.prog s) (h : run step s es = some s') : Persists s.store s'.store := by
  refine run_relation_of (C := fun _ _ => True) (I := Tracked Request.prog)
    (R := fun s s' => Persists s.store s'.store) (fun _ _ _ hT _ hs => tracked_step hT hs)
    (fun s => .refl s.store) ?_ hT (meets_true s es) h
  intro s₀ t e t' hT _ hs hR
  rcases commit_exec hT hs with ⟨hst, -⟩ | ⟨_, _, _, _, _, hexec⟩
  · rw [hst]; exact hR
  · exact hR.trans (.effect (prog_effect hexec))

theorem exec_transition_settled (hid : trimSpace id ≠ [])
    (hr : s.reservation (trimSpace id) = some r) (hst : r.status = t.status) :
    (transition id t).exec s = .ok (r, s) := by
  simp [transition, hid, hr, hst]

/-- A redelivered request, run alone, answers and changes nothing. -/
theorem exec_redelivery (hi : Indexed s) (h : Answered H s) {req' : Request} (hmem : (req, a) ∈ H)
    (hsame : Redelivery req req') : ∃ a', (req'.prog s).exec s = .ok (a', s) := by
  cases hsame with
  | reserve generated generated' q =>
    obtain ⟨ho, hitems, hkey⟩ := h.reserved generated q a hmem
    obtain ⟨items, hitems⟩ := Option.isSome_iff_exists.mp hitems
    obtain ⟨id, hid⟩ := Option.isSome_iff_exists.mp hkey
    obtain ⟨r, hr, -, -⟩ := hi.found _ id hid
    have hof : s.reservationOf q.orderID = some r := by simp [DB.reservationOf, hid, hr]
    have hrun : (reserve generated' q s).exec s = .ok (r, s) := by
      simp [reserve, hitems, not_le.mpr ho, hof]
    exact ⟨.reservation r, (Txn.exec_bind_of_ok _ hrun).trans rfl⟩
  | confirm id =>
    obtain ⟨hid, r, hr, hst⟩ := h.settled _ a id .confirm hmem rfl
    exact ⟨.reservation r,
      (Txn.exec_bind_of_ok _ (exec_transition_settled hid hr hst)).trans rfl⟩
  | release id =>
    obtain ⟨hid, r, hr, hst⟩ := h.settled _ a id .release hmem rfl
    exact ⟨.reservation r,
      (Txn.exec_bind_of_ok _ (exec_transition_settled hid hr hst)).trans rfl⟩

/-- A redelivered request that commits, from whatever snapshot, changes nothing. -/
theorem effect_redelivery (h : Answered H s) {req' : Request} {a' : Answer} (hmem : (req, a) ∈ H)
    (hsame : Redelivery req req') (he : Effect snapshot s req' a' s') : s' = s := by
  cases he with
  | supplied hreq hs => rcases hreq with rfl | rfl <;> cases hsame
  | existing ho hitems hr => rfl
  | kept hreq hid hst hr => rfl
  | placed ho hid hord hitems hp =>
    cases hsame with
    | reserve generated generated' q =>
      have hkey := (h.reserved generated _ a hmem).2.2
      rw [← hord, hp.fresh_order] at hkey
      exact absurd hkey (by simp)
  | settled hreq hid hs =>
    obtain ⟨-, r', hr', hst⟩ := h.settled req a _ _ hmem (hsame.settles.trans hreq)
    rw [← Option.some.inj (hs.found.symm.trans hr'), hs.status] at hst
    exact absurd hst.symm (Settlement.status_ne_pending _)

/-- **Reservation operations are idempotent and final.**  In every run of the service:

* a request that has committed changes nothing when it is delivered again -- run alone it
  answers without a change, and a concurrent copy that gets as far as its commit commits
  nothing new;
* there is at most one reservation for an order;
* whatever runs next, a reservation keeps its id, order and items, and a confirmed or released
  one does not change at all;
* a commit of `Confirm` or `Release` changes nothing or settles a pending reservation, and the
  log has no settlement of a pending reservation and one entry per item, all of one kind, of a
  settled one. -/
theorem reservations_idempotent_final (es : List (LockEvent Request)) (s : Service)
    (h : run step start es = some s) :
    (∀ req a req', (req, a) ∈ s.history → Redelivery req req' →
      (∃ a', (req'.prog s.store).exec s.store = .ok (a', s.store)) ∧
      ∀ t act s', s.txn t = some act → act.tag = req' → step s (.commit t) = some s' →
        s'.store = s.store) ∧
    (∀ w w' r r', DB.reservationAt s.store w = some r → DB.reservationAt s.store w' = some r' →
      r.orderID = r'.orderID → w = w') ∧
    (∀ es' s', run step s es' = some s' → ∀ w r, DB.reservationAt s.store w = some r →
      ∃ r', DB.reservationAt s'.store w = some r' ∧ r'.id = r.id ∧ r'.orderID = r.orderID ∧
        r'.items = r.items ∧ (r.status ≠ .pending → r' = r)) ∧
    (∀ t act s' id k, s.txn t = some act → act.tag.settles = some (id, k) →
      step s (.commit t) = some s' →
        s'.store = s.store ∨ ∃ r, Settled s.store s'.store (trimSpace id) r k) ∧
    (∀ w r, DB.reservationAt s.store w = some r →
      (r.status = .pending → DB.settlements s.store w = []) ∧
      ∀ k : Settlement, r.status = k.status → ∃ id, Collation.weight id = w ∧
        DB.settlements s.store w = r.sortedItems.map (settleLog id k)) := by
  have hC := carried_run h
  have hS := hC.holds
  have hcommit : ∀ t act s', s.txn t = some act → step s (.commit t) = some s' →
      ∃ a, Effect act.snapshot s.store act.tag a s'.store := by
    intro t act s' hact hs
    obtain ⟨a, hexec⟩ := exec_of_commit hC.tracked hact hs
    exact ⟨a, prog_effect hexec⟩
  refine ⟨fun req a req' hmem hsame => ⟨exec_redelivery hS.indexed hS.answered hmem hsame, ?_⟩,
    fun w w' r r' hr hr' ho => ?_, fun es' s' hrun w r hr => ?_, ?_, fun w r hr => ⟨?_, ?_⟩⟩
  · intro t act s' hact htag hs
    obtain ⟨a', he⟩ := hcommit t act s' hact hs
    exact effect_redelivery hS.answered hmem hsame (htag ▸ he)
  · have h1 := hS.indexed.indexed w r hr
    have h2 := hS.indexed.indexed w' r' hr'
    rw [ho, h2, Option.some.injEq] at h1
    rw [← hS.indexed.keyed w r hr, ← hS.indexed.keyed w' r' hr', h1]
  · exact (persists_run hC.tracked hrun).reservations w r hr
  · intro t act s' id k hact hreq hs
    obtain ⟨a, he⟩ := hcommit t act s' hact hs
    exact he.settle hreq
  · intro hst
    exact hS.logged.unsettled w fun r' hr' => by
      rw [← Option.some.inj (hr.symm.trans hr')]
      exact hst
  · intro k hst
    exact hS.logged.settled w r k hr hst

end

/-- A run in which the reservation of three items of a product is confirmed. -/
def confirming : List (LockEvent Request) :=
  placing ++ [.start 2 (.confirm [0x72]), .stmt 2, .stmt 2, .stmt 2, .stmt 2, .stmt 2, .stmt 2,
    .commit 2]

theorem reservations_final_confirming :
    letI := asciiCi
    ∃ s : Service, run step start confirming = some s ∧
      (DB.reservation s.store [0x72]).map (·.status) = some .confirmed ∧
      ∀ es' s', run step s es' = some s' →
        DB.reservation s'.store [0x72] = DB.reservation s.store [0x72] := by
  let _ : Collation := asciiCi
  have h : (run step start confirming).map
      (fun s => (DB.reservation s.store [0x72]).map (·.status)) = some (some .confirmed) := by
    decide
  obtain ⟨s, hs, hst⟩ := Option.map_eq_some_iff.mp h
  obtain ⟨r, hr, hconf⟩ := Option.map_eq_some_iff.mp hst
  refine ⟨s, hs, hst, fun es' s' hrun => ?_⟩
  obtain ⟨r', hr', -, -, -, heq⟩ :=
    (reservations_idempotent_final confirming s hs).2.2.1 es' s' hrun _ r hr
  rw [hr, ← heq (by rw [hconf]; simp)]
  exact hr'

end OrderSystem.InventorySvc
