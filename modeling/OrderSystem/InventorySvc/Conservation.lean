/-
# Stock is conserved

The committed states of the inventory service, in every interleaving of its transactions:

* `Indexed` -- the two unique indexes of the reservation table agree, so there is one
  reservation for an id and one for an order;
* `Balanced` -- `reserved_quantity` is the sum of what the pending reservations hold, and with
  the available stock and what the confirmed ones hold it makes up all that was ever supplied.

Both are proved for one request at a time from `prog_effect`, and the rule of `Kit/Locking.lean`
carries them to every run.  The last section is the consequence for the code: the
`RowsAffected != 1` branch of `transition` is never taken, because a pending reservation is
covered by `reserved_quantity` (`le_reserved_of_pending`).
-/
import OrderSystem.InventorySvc.Spec
import OrderSystem.Kit.Ledger
import Mathlib.Algebra.Order.BigOperators.Group.Finset
import Mathlib.Algebra.BigOperators.Ring.Finset

namespace OrderSystem.InventorySvc

open OrderSystem.Kit

/-! ## 1. What reservations hold -/

/-- What the reservation under a weight holds of a product, counted when it has the status. -/
def DB.held (s : DB) (st : ReservationStatus) (p : Int) (w : GoString) : Int :=
  match s.reservationAt w with
  | some r => if r.status = st then r.quantity p else 0
  | none => 0

/-- What a request supplies of a product. -/
def Request.supply (p : Int) : Request → Int
  | .init p' q => if p = p' then q else 0
  | .add p' q => if p = p' then q else 0
  | .reserve _ _ => 0
  | .confirm _ => 0
  | .release _ => 0

/-- The initial quantity of a product and all quantities added, over the requests that have
committed. -/
def supplied (history : List (Request × Answer)) (p : Int) : Int :=
  (history.map fun e => e.1.supply p).sum

@[simp] theorem supplied_nil (p : Int) : supplied [] p = 0 := rfl

@[simp] theorem supplied_snoc (H : List (Request × Answer)) (e : Request × Answer) (p : Int) :
    supplied (H ++ [e]) p = supplied H p + e.1.supply p := by
  simp [supplied]

theorem lineSum_nonneg {items : List ItemRequest} (h : ∀ i ∈ items, 0 < i.quantity) (p : Int) :
    0 ≤ lineSum items p := by
  induction items with
  | nil => simp
  | cons i items ih =>
    have hi := h i List.mem_cons_self
    have := ih fun j hj => h j (List.mem_cons_of_mem _ hj)
    rw [lineSum_cons]
    split
    · omega
    · omega

theorem le_lineSum_of_mem {items : List ItemRequest} (h : ∀ i ∈ items, 0 < i.quantity)
    {i : ItemRequest} (hi : i ∈ items) : i.quantity ≤ lineSum items i.productID := by
  induction items with
  | nil => exact absurd hi (by simp)
  | cons j items ih =>
    have hj := h j List.mem_cons_self
    have hrest : ∀ k ∈ items, 0 < k.quantity := fun k hk => h k (List.mem_cons_of_mem _ hk)
    rw [lineSum_cons]
    rcases List.mem_cons.mp hi with rfl | hi
    · have := lineSum_nonneg hrest i.productID
      simp only [if_true]
      omega
    · have := ih hrest hi
      split
      · omega
      · omega

theorem Reservation.lines_pos (r : Reservation) : ∀ i ∈ r.items.map (·.line), 0 < i.quantity := by
  intro i hi
  obtain ⟨j, -, rfl⟩ := List.mem_map.mp hi
  exact j.quantity_pos

theorem Reservation.quantity_nonneg (r : Reservation) (p : Int) : 0 ≤ r.quantity p :=
  lineSum_nonneg r.lines_pos p

theorem Reservation.le_quantity (r : Reservation) {i : ReservationItem} (hi : i ∈ r.items) :
    i.quantity ≤ r.quantity i.productID :=
  le_lineSum_of_mem (i := i.line) r.lines_pos (List.mem_map_of_mem hi)

theorem DB.held_nonneg (s : DB) (st : ReservationStatus) (p : Int) (w : GoString) :
    0 ≤ s.held st p w := by
  unfold DB.held
  split
  · split
    · exact Reservation.quantity_nonneg _ p
    · exact le_refl 0
  · exact le_refl 0

/-- What is held after one reservation row was written. -/
theorem DB.held_update {s s' : DB} {w₀ : GoString} {r : Reservation}
    (h : s'.reservationAt = Function.update s.reservationAt w₀ (some r))
    (st : ReservationStatus) (p : Int) (w : GoString) :
    s'.held st p w
      = if w = w₀ then (if r.status = st then r.quantity p else 0) else s.held st p w := by
  by_cases hw : w = w₀
  · subst hw
    simp [DB.held, h]
  · simp [DB.held, h, hw]

/-! ## 2. The invariants -/

section

variable [Collation]

/-- The two unique indexes of the reservation table agree. -/
structure Indexed (s : DB) : Prop where
  keyed : ∀ w r, s.reservationAt w = some r → Collation.weight r.id = w
  indexed : ∀ w r, s.reservationAt w = some r → s.orderKey r.orderID = some r.id
  found : ∀ o id, s.orderKey o = some id →
    ∃ r, s.reservation id = some r ∧ r.id = id ∧ r.orderID = o

end

/-- `rs` is the set of the reservations that exist. -/
def Lists (s : DB) (rs : Finset GoString) : Prop := ∀ w, w ∈ rs ↔ (s.reservationAt w).isSome

/-- The stock of a product against the reservations `rs` and the committed requests. -/
structure BalancedAt (history : List (Request × Answer)) (s : DB) (rs : Finset GoString)
    (p : Int) : Prop where
  reserved : s.reserved p = ∑ w ∈ rs, s.held .pending p w
  total : s.available p + s.reserved p + ∑ w ∈ rs, s.held .confirmed p w = supplied history p

/-- Every product is balanced. -/
def Balanced (history : List (Request × Answer)) (s : DB) : Prop :=
  ∃ rs, Lists s rs ∧ ∀ p, BalancedAt history s rs p

variable {s : DB} {rs : Finset GoString}

theorem held_eq_zero (h : Lists s rs) {w : GoString} (hw : w ∉ rs) (st : ReservationStatus)
    (p : Int) : s.held st p w = 0 := by
  have hnone : s.reservationAt w = none := by
    rw [h w, Option.not_isSome_iff_eq_none] at hw
    exact hw
  simp [DB.held, hnone]

theorem lists_insert {s' : DB} {w₀ : GoString} {r : Reservation} (h : Lists s rs)
    (hs : s'.reservationAt = Function.update s.reservationAt w₀ (some r)) :
    Lists s' (insert w₀ rs) := by
  intro w
  by_cases hw : w = w₀
  · subst hw
    simp [hs]
  · simp [hs, hw, h w]

/-- The sums after one reservation row was written. -/
theorem sum_held_update {s' : DB} {w₀ : GoString} {r : Reservation} (hl : Lists s rs)
    (hs : s'.reservationAt = Function.update s.reservationAt w₀ (some r)) (st : ReservationStatus)
    (p : Int) :
    ∑ w ∈ insert w₀ rs, s'.held st p w = ∑ w ∈ rs, s.held st p w
      + ((if r.status = st then r.quantity p else 0) - s.held st p w₀) := by
  rw [sum_insert_eq (f := s.held st p) (fun w hw => by rw [DB.held_update hs, if_neg hw])
    (fun hw => held_eq_zero hl hw st p), DB.held_update hs, if_pos rfl]

/-! ## 3. One request -/

section

variable [Collation]

theorem indexed_empty : Indexed DB.empty :=
  ⟨fun w r h => absurd h (by simp [DB.empty, DB.reservationAt]),
    fun w r h => absurd h (by simp [DB.empty, DB.reservationAt]),
    fun o id h => absurd h (by simp [DB.empty, DB.orderKey])⟩

theorem Indexed.of_eq {s s' : DB} (h : Indexed s) (hr : s'.reservationAt = s.reservationAt)
    (ho : s'.orderKey = s.orderKey) : Indexed s' where
  keyed w r := by rw [hr]; exact h.keyed w r
  indexed w r := by rw [hr, ho]; exact h.indexed w r
  found o id := by rw [ho, DB.reservation, hr]; exact h.found o id

theorem Indexed.placed {s s' : DB} {r : Reservation} (h : Indexed s) (hp : Placed s s' r) :
    Indexed s' where
  keyed w r' hr' := by
    rw [hp.reservations, Function.update_apply] at hr'
    split at hr'
    · rename_i hw
      rw [Option.some.injEq] at hr'
      rw [← hr', hw]
    · exact h.keyed w r' hr'
  indexed w r' hr' := by
    rw [hp.reservations, Function.update_apply] at hr'
    rw [hp.orders, Function.update_apply]
    split at hr'
    · rw [Option.some.injEq] at hr'
      rw [← hr', if_pos rfl]
    · have hold := h.indexed w r' hr'
      rw [if_neg]
      · exact hold
      · intro hc
        rw [hc, hp.fresh_order] at hold
        exact absurd hold (by simp)
  found o id hid := by
    rw [hp.orders, Function.update_apply] at hid
    rw [DB.reservation, hp.reservations, Function.update_apply]
    split at hid
    · rename_i ho
      rw [Option.some.injEq] at hid
      exact ⟨r, by rw [if_pos (by rw [hid])], hid, ho.symm⟩
    · obtain ⟨r', hr', h1, h2⟩ := h.found o id hid
      refine ⟨r', ?_, h1, h2⟩
      rw [if_neg]
      · exact hr'
      · intro hc
        rw [DB.reservation, hc] at hr'
        exact absurd (hp.fresh_id.symm.trans hr') (by simp)

theorem Indexed.settled {s s' : DB} {id : GoString} {r : Reservation} {t : Settlement}
    (h : Indexed s) (hs : Settled s s' id r t) : Indexed s' where
  keyed w r' hr' := by
    rw [hs.reservations, Function.update_apply] at hr'
    split at hr'
    · rename_i hw
      rw [Option.some.injEq] at hr'
      rw [← hr', hw]
      exact h.keyed _ r hs.found
    · exact h.keyed w r' hr'
  indexed w r' hr' := by
    rw [hs.reservations, Function.update_apply] at hr'
    rw [hs.orders]
    split at hr'
    · rw [Option.some.injEq] at hr'
      rw [← hr']
      exact h.indexed _ r hs.found
    · exact h.indexed w r' hr'
  found o id' hid := by
    rw [hs.orders] at hid
    obtain ⟨r', hr', h1, h2⟩ := h.found o id' hid
    rw [DB.reservation, hs.reservations, Function.update_apply]
    split
    · rename_i hw
      -- the settled row is the one the index leads to
      have hrr : r = r' := by
        have := hs.found
        rw [DB.reservation, ← hw] at this
        exact Option.some.inj (this.symm.trans hr')
      exact ⟨_, rfl, hrr ▸ h1, hrr ▸ h2⟩
    · exact ⟨r', hr', h1, h2⟩

/-- A committed request keeps the indexes. -/
theorem Indexed.effect {snapshot s s' : DB} {req : Request} {a : Answer} (h : Indexed s)
    (he : Effect snapshot s req a s') : Indexed s' := by
  cases he with
  | supplied hreq hs => exact h.of_eq hs.reservations hs.orders
  | existing ho hitems hr => exact h
  | placed ho hid hord hitems hp => exact h.placed hp
  | kept hreq hid hst hr => exact h
  | settled hreq hid hs => exact h.settled hs

/-- A reservation's row is found through its order. -/
theorem Indexed.reservationOf {s : DB} (h : Indexed s) {o : Int} {r : Reservation} :
    s.reservationOf o = some r ↔ ∃ w, s.reservationAt w = some r ∧ r.orderID = o := by
  constructor
  · intro hr
    obtain ⟨id, hid, hr⟩ := Option.bind_eq_some_iff.mp hr
    obtain ⟨r', hr', -, ho⟩ := h.found o id hid
    rw [Option.some.inj (hr.symm.trans hr')]
    exact ⟨_, hr', ho⟩
  · rintro ⟨w, hr, ho⟩
    have hk := h.indexed w r hr
    rw [ho] at hk
    rw [DB.reservationOf, hk, Option.bind_some, DB.reservation, h.keyed w r hr, hr]

end

theorem balanced_empty : Balanced [] DB.empty := by
  refine ⟨∅, fun w => by simp [DB.empty, DB.reservationAt], fun p => ⟨?_, ?_⟩⟩
  · simp [DB.empty, DB.reserved, DB.item]
  · simp [DB.empty, DB.reserved, DB.available, DB.item]

theorem BalancedAt.supplied {H : List (Request × Answer)} {s s' : DB} {rs : Finset GoString}
    {req : Request} {a : Answer} {p q : Int} (hreq : req = .init p q ∨ req = .add p q)
    (hs : Supplied s s' p q) {p' : Int} (h : BalancedAt H s rs p') :
    BalancedAt (H ++ [(req, a)]) s' rs p' := by
  have hheld : ∀ st, s'.held st p' = s.held st p' := fun st => by
    funext w
    simp only [DB.held, hs.reservations]
  have hsup : req.supply p' = if p' = p then q else 0 := by
    rcases hreq with rfl | rfl
    · rfl
    · rfl
  have hav := hs.available p'
  have htot := h.total
  refine ⟨?_, ?_⟩
  · rw [hs.reserved, hheld, h.reserved]
  · rw [hs.reserved, hheld, supplied_snoc, hsup]
    omega

theorem supply_of_settle {req : Request} {id : GoString} {t : Settlement}
    (hreq : req.settles = some (id, t)) (p : Int) : req.supply p = 0 := by
  cases req with
  | confirm id => rfl
  | release id => rfl
  | reserve generated req => rfl
  | init p q => exact absurd hreq (by simp [Request.settles])
  | add p q => exact absurd hreq (by simp [Request.settles])

/-- A request that supplies nothing and changes nothing. -/
theorem Balanced.same {H : List (Request × Answer)} {s : DB} {req : Request} {a : Answer}
    (h : Balanced H s) (hsup : ∀ p, req.supply p = 0) : Balanced (H ++ [(req, a)]) s := by
  obtain ⟨rs, hl, hb⟩ := h
  refine ⟨rs, hl, fun p => ⟨(hb p).reserved, ?_⟩⟩
  rw [supplied_snoc, hsup, (hb p).total, Int.add_zero]

section

variable [Collation]

variable {H : List (Request × Answer)} {s s' : DB} {a : Answer}

theorem Balanced.placed {generated : GoString} {req : ReserveRequest} {r : Reservation}
    (h : Balanced H s) (hp : Placed s s' r) : Balanced (H ++ [(.reserve generated req, a)]) s' := by
  obtain ⟨rs, hl, hb⟩ := h
  refine ⟨insert (Collation.weight r.id) rs, lists_insert hl hp.reservations, fun p => ?_⟩
  have hold : ∀ st, s.held st p (Collation.weight r.id) = 0 := fun st => by
    have hnone : s.reservationAt (Collation.weight r.id) = none := hp.fresh_id
    simp [DB.held, hnone]
  have hpend := sum_held_update hl hp.reservations .pending p
  have hconf := sum_held_update hl hp.reservations .confirmed p
  simp only [hp.status, hold, if_true, reduceCtorEq, if_false] at hpend hconf
  have hav := hp.available p
  have hres := hp.reserved p
  obtain ⟨hb1, hb2⟩ := hb p
  refine ⟨by omega, ?_⟩
  rw [supplied_snoc, Request.supply]
  omega

theorem Balanced.settled {req : Request} {id : GoString} {r : Reservation} {t : Settlement}
    (h : Balanced H s) (hsup : ∀ p, req.supply p = 0) (hs : Settled s s' id r t) :
    Balanced (H ++ [(req, a)]) s' := by
  obtain ⟨rs, hl, hb⟩ := h
  refine ⟨insert (Collation.weight id) rs, lists_insert hl hs.reservations, fun p => ?_⟩
  have hfound : s.reservationAt (Collation.weight id) = some r := hs.found
  have hpend := sum_held_update hl hs.reservations .pending p
  have hconf := sum_held_update hl hs.reservations .confirmed p
  have hq : Reservation.quantity { r with status := t.status } p = r.quantity p := rfl
  have hp0 : s.held .pending p (Collation.weight id) = r.quantity p := by
    simp [DB.held, hfound, hs.status]
  have hc0 : s.held .confirmed p (Collation.weight id) = 0 := by
    simp [DB.held, hfound, hs.status]
  have hav := hs.available p
  have hres := hs.reserved p
  obtain ⟨hb1, hb2⟩ := hb p
  rw [hq, hp0] at hpend
  rw [hq, hc0] at hconf
  cases t with
  | confirm =>
    simp only [Settlement.status, Settlement.returned, if_true, reduceCtorEq,
      if_false] at hpend hconf hav
    exact ⟨by omega, by rw [supplied_snoc, hsup]; omega⟩
  | release =>
    simp only [Settlement.status, Settlement.returned, reduceCtorEq, if_false] at hpend hconf hav
    exact ⟨by omega, by rw [supplied_snoc, hsup]; omega⟩

/-- **A committed request keeps the balance.** -/
theorem Balanced.effect {snapshot : DB} {req : Request} (h : Balanced H s)
    (he : Effect snapshot s req a s') :
    Balanced (H ++ [(req, a)]) s' := by
  cases he with
  | supplied hreq hs =>
    obtain ⟨rs, hl, hb⟩ := h
    refine ⟨rs, fun w => ?_, fun p => (hb p).supplied hreq hs⟩
    rw [hs.reservations]
    exact hl w
  | existing ho hitems hr => exact h.same fun p => rfl
  | placed ho hid hord hitems hp => exact h.placed hp
  | kept hreq hid hst hr => exact h.same (supply_of_settle hreq)
  | settled hreq hid hs => exact h.settled (supply_of_settle hreq) hs

end

/-! ## 4. The guard of `transition` -/

/-- **A pending reservation is covered.**  Each of its items is in `reserved_quantity`. -/
theorem le_reserved_of_pending {H : List (Request × Answer)} {s : DB} (h : Balanced H s)
    {w : GoString} {r : Reservation} (hr : s.reservationAt w = some r)
    (hst : r.status = .pending) {i : ReservationItem} (hi : i ∈ r.items) :
    i.quantity ≤ s.reserved i.productID := by
  obtain ⟨rs, hl, hb⟩ := h
  have hw : w ∈ rs := (hl w).mpr (by simp [hr])
  have hheld : s.held .pending i.productID w = r.quantity i.productID := by
    simp [DB.held, hr, hst]
  calc i.quantity ≤ r.quantity i.productID := r.le_quantity hi
    _ = s.held .pending i.productID w := hheld.symm
    _ ≤ ∑ w ∈ rs, s.held .pending i.productID w :=
        Finset.single_le_sum (fun w _ => s.held_nonneg .pending i.productID w) hw
    _ = s.reserved i.productID := (hb i.productID).reserved.symm

/-- An item that `reserved_quantity` covers is not refused by the guard. -/
theorem settleItem_error {id : GoString} {t : Settlement} {i : ReservationItem} {s : DB}
    {e : Err} (hcov : i.quantity ≤ s.reserved i.productID)
    (h : (settleItem id t i).exec s = .error e) : e = .storage := by
  simp only [settleItem, exec_getItem_bind] at h
  split at h
  · simp only [Txn.exec_fail, Except.error.injEq] at h
    exact h.symm
  · rename_i row hrow
    rcases Txn.exec_bind_error h with hu | ⟨n, s₁, hu, h⟩
    · exact updateItem_error hu
    · rcases updateItem_ok hu with ⟨-, -, hc⟩ | ⟨rfl, -⟩
      · have := hc row hrow
        rw [DB.reserved_of_item hrow] at hcov
        simp [hcov] at this
      · exact absurd h (by simp)

/-- **No iteration of the loop of `transition` is refused by the guard** when every item was
covered at its start: the products are distinct, so an iteration leaves the others covered. -/
theorem settleItems_error {id : GoString} {t : Settlement} : ∀ (items : List ReservationItem)
    {s : DB} {e : Err}, (items.map (·.productID)).Nodup →
    (∀ i ∈ items, i.quantity ≤ s.reserved i.productID) →
    (settleItems id t items).exec s = .error e → e = .storage
  | [], s, e, _, _, h => absurd h (by simp [settleItems])
  | i :: items, s, e, hnd, hcov, h => by
    rw [settleItems] at h
    obtain ⟨hi, hnd⟩ := List.nodup_cons.mp hnd
    rcases Txn.exec_bind_error h with h | ⟨u, s₁, hok, h⟩
    · exact settleItem_error (hcov i List.mem_cons_self) h
    · obtain ⟨row, row', hrow, -, -, rfl⟩ := settleItem_ok hok
      refine settleItems_error items hnd (fun j hj => ?_) h
      have hne : j.productID ≠ i.productID := fun hc =>
        hi (List.mem_map.mpr ⟨j, hj, hc⟩)
      rw [DB.push_reserved, DB.putItem_reserved, if_neg hne, Int.add_zero]
      exact hcov j (List.mem_cons_of_mem _ hj)

theorem Reservation.sortedItems_nodup (r : Reservation) :
    (r.sortedItems.map (·.productID)).Nodup :=
  (r.sortedItems_perm.map _).nodup_iff.mpr r.items_nodup

section

variable [Collation]

/-- Why `transition` can fail. -/
inductive Refused (s : DB) (reservationID : GoString) (t : Settlement) : Err → Prop
  | storage : Refused s reservationID t .storage
  | unknown (h : trimSpace reservationID = [] ∨ s.reservation (trimSpace reservationID) = none) :
      Refused s reservationID t .reservationNotFound
  | settled (r : Reservation) (hr : s.reservation (trimSpace reservationID) = some r)
      (hst : r.status ≠ .pending) (hne : r.status ≠ t.status) :
      Refused s reservationID t .reservationTransition

/-- **The errors of `transition`** on a balanced database: its loop is not refused by the guard
of an item, so `ErrReservationTransition` means a reservation that is settled the other way. -/
theorem transition_refused {H : List (Request × Answer)} {s : DB} (hb : Balanced H s)
    {reservationID : GoString} {t : Settlement} {e : Err}
    (h : (transition reservationID t).exec s = .error e) : Refused s reservationID t e := by
  simp only [transition] at h
  split at h
  · rename_i hid
    obtain rfl := Except.error.inj h
    exact .unknown (Or.inl hid)
  · simp only [exec_getReservation_bind] at h
    split at h
    · rename_i hnone
      obtain rfl := Except.error.inj h
      exact .unknown (Or.inr hnone)
    · rename_i r hr
      split at h
      · exact absurd h (by simp)
      · rename_i hne
        split at h
        · rename_i hpend
          obtain rfl := Except.error.inj h
          exact .settled r hr hpend hne
        · rename_i hpend
          rcases Txn.exec_bind_error h with h | ⟨u, s₁, -, h⟩
          · have hstorage := settleItems_error _ r.sortedItems_nodup (fun i hi =>
              le_reserved_of_pending hb hr (not_not.mp hpend)
                (r.sortedItems_perm.mem_iff.mp hi)) h
            exact hstorage ▸ .storage
          · exact absurd h (by simp)

theorem transition_error {H : List (Request × Answer)} {s : DB} (hb : Balanced H s)
    {reservationID : GoString} {t : Settlement}
    (h : (transition reservationID t).exec s = .error .reservationTransition) :
    ∃ r, s.reservation (trimSpace reservationID) = some r ∧ r.status ≠ .pending := by
  cases transition_refused hb h with
  | settled r hr hst hne => exact ⟨r, hr, hst⟩

/-! ## 5. Every run -/

/-- What every run of the service keeps. -/
structure Kept (history : List (Request × Answer)) (s : DB) : Prop where
  indexed : Indexed s
  balanced : Balanced history s

theorem kept_run {es : List (LockEvent Request)} {s : Service}
    (h : run step start es = some s) : Tracked Request.prog s ∧ Kept s.history s.store := by
  have hC := locking_invariant (I := Kept) (R := fun _ _ => True)
    ⟨indexed_empty, balanced_empty⟩ (fun _ => trivial)
    (fun H S req snap a S' hk _ hexec =>
      ⟨⟨hk.indexed.effect (prog_effect hexec), hk.balanced.effect (prog_effect hexec)⟩,
        fun _ _ => trivial⟩) h
  exact ⟨hC.tracked, hC.holds⟩

/-- **Stock is conserved.**  In every run of the service, from the empty database, over any
interleaving of the statements of its transactions: no product has negative stock; what the
pending reservations hold of a product is its `reserved_quantity`; its available and reserved
stock and what the confirmed reservations hold of it make up what was supplied.  And a
`Confirm` or `Release` transaction that is about to return `ErrReservationTransition` has
found its reservation settled: none gets there from the `RowsAffected != 1` branch, which is
reached with the reservation's row locked and pending. -/
theorem stock_conserved (es : List (LockEvent Request)) (s : Service)
    (h : run step start es = some s) :
    (∀ p, 0 ≤ DB.available s.store p) ∧
    (∃ rs : Finset GoString, (∀ w, w ∈ rs ↔ (DB.reservationAt s.store w).isSome) ∧
      ∀ p, DB.reserved s.store p = ∑ w ∈ rs, DB.held s.store .pending p w ∧
        DB.available s.store p + DB.reserved s.store p
          + ∑ w ∈ rs, DB.held s.store .confirmed p w = supplied s.history p) ∧
    (∀ t a id, s.txn t = some a → (a.tag = .confirm id ∨ a.tag = .release id) →
      a.rest = .fail .reservationTransition →
        ∃ r, DB.reservation s.store (trimSpace id) = some r ∧ r.status ≠ .pending) := by
  obtain ⟨hT, hK⟩ := kept_run h
  refine ⟨DB.available_nonneg s.store, ?_, fun t a id ha htag hr => ?_⟩
  · obtain ⟨rs, hl, hb⟩ := hK.balanced
    exact ⟨rs, hl, fun p => ⟨(hb p).reserved, (hb p).total⟩⟩
  · have hfail := hT.exec_fail ha hr
    rcases htag with htag | htag
    · rw [htag] at hfail
      rcases Txn.exec_bind_error hfail with hfail | ⟨r, s₁, -, hfail⟩
      · exact transition_error hK.balanced hfail
      · exact absurd hfail (by simp)
    · rw [htag] at hfail
      rcases Txn.exec_bind_error hfail with hfail | ⟨r, s₁, -, hfail⟩
      · exact transition_error hK.balanced hfail
      · exact absurd hfail (by simp)

end

/-- A run that places a reservation of three of the ten items of a product. -/
def placing : List (LockEvent Request) :=
  [.start 0 (.init 1 10), .stmt 0, .stmt 0, .stmt 0, .commit 0,
    .start 1 (.reserve [] ⟨7, [0x72], [⟨1, 3⟩]⟩)] ++ List.replicate 11 (.stmt 1) ++ [.commit 1]

theorem stock_conserved_placing :
    letI := asciiCi
    ∃ s : Service, run step start placing = some s ∧ DB.reserved s.store 1 = 3 ∧
      ∀ p, 0 ≤ DB.available s.store p := by
  let _ : Collation := asciiCi
  have h : (run step start placing).map (fun s => DB.reserved s.store 1) = some 3 := by decide
  obtain ⟨s, hs, h3⟩ := Option.map_eq_some_iff.mp h
  exact ⟨s, hs, h3, (stock_conserved placing s hs).1⟩

end OrderSystem.InventorySvc
