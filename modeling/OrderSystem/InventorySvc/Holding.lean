/-
# What a reservation holds

A `Reserve` request is a list of lines, and a product may be on several of them.
`normalizeItems` adds the lines of a product up, in a Go map and in an `int64`, and the item loop
takes the sums from the stock.  The order of the lines is lost on the way: requests with the same
lines are the same request to everything that follows (`reserve_perm`).

The sum is not guarded.  What protects the tables is `chk_inventory_reservation_quantity`, which
refuses a sum that has wrapped to zero or to a negative number.  A sum that has wrapped all the
way round to a positive number passes, and the reservation then holds less than was asked for.
A request that is refused for any other reason does no harm either, so what counts is whether it
can be placed at all, in some state of the stock (`Placeable`):

* `reserve_exact` -- whatever the state, a reservation holds what was asked for, if and only if
  the request cannot be placed or what is asked of each product fits into an `int64`;
* `reserve_wraps` -- three lines that add up to `2^64 + 3` are reserved as three.
-/
import OrderSystem.InventorySvc.Spec

namespace OrderSystem.InventorySvc

open OrderSystem.Kit

/-! ## 1. Requests that are refused -/

/-- A request with an id or a quantity that is not positive, with no line or with too many. -/
def ReserveRequest.Malformed (req : ReserveRequest) : Prop :=
  req.orderID ≤ 0 ∨ req.items = [] ∨ 100 < req.items.length ∨
    ∃ i ∈ req.items, i.productID ≤ 0 ∨ i.quantity ≤ 0

theorem normalizeItems_eq_none {items : List ItemRequest} :
    normalizeItems items = none ↔ items = [] ∨ 100 < items.length ∨
      ∃ i ∈ items, i.productID ≤ 0 ∨ i.quantity ≤ 0 := by
  unfold normalizeItems
  split
  · rename_i hlen
    rw [List.length_eq_zero_iff] at hlen
    simp only [true_iff]
    tauto
  · rename_i hlen
    rw [List.length_eq_zero_iff, not_or] at hlen
    rw [Option.map_eq_none_iff, aggregate_eq_none, or_iff_right hlen.1, or_iff_right hlen.2]

section

variable [Collation]

variable {req : ReserveRequest} {items : List ItemRequest} {r : Reservation}

/-- A malformed request does not get as far as a transaction. -/
theorem reserve_malformed (h : req.Malformed) (generated : GoString) (snapshot : DB) :
    reserve generated req snapshot = .fail .invalidInventoryAmount := by
  unfold reserve
  split
  · rfl
  · rename_i items hitems
    have horder : req.orderID ≤ 0 := by
      refine h.resolve_right fun hlines => ?_
      rw [normalizeItems_eq_none.mpr hlines] at hitems
      cases hitems
    rw [if_pos horder]

/-! ## 2. The order of the lines -/

omit [Collation] in
theorem normalizeItems_perm {items' : List ItemRequest} (h : items.Perm items') :
    normalizeItems items = normalizeItems items' := by
  unfold normalizeItems
  rw [h.length_eq, aggregate_perm h]

/-- **Requests with the same lines are one request.** -/
theorem reserve_perm (h : req.items.Perm items) (generated : GoString) (snapshot : DB) :
    reserve generated { req with items := items } snapshot = reserve generated req snapshot := by
  simp only [reserve, reservationIDFor, normalizeItems_perm h]

/-! ## 3. Requests that can be placed -/

/-- The state of the stock aside, nothing keeps the request from being placed: it is not malformed,
the id fits its column, and `chk_inventory_reservation_quantity` accepts the sums. -/
structure Placeable (generated : GoString) (req : ReserveRequest) : Prop where
  wellformed : ¬ req.Malformed
  id_fits : charCount (reservationIDFor generated req) ≤ 36
  positive : ∀ p ∈ req.items.map ItemRequest.productID, 0 < wrap64 (lineSum req.items p)

omit [Collation] in
/-- An item of a reservation is all it holds of its product. -/
theorem Reservation.quantity_of_mem {i : ReservationItem} (hi : i ∈ r.items) :
    r.quantity i.productID = i.quantity := by
  have hnd : ((r.items.map (·.line)).map ItemRequest.productID).Nodup := by
    rw [List.map_map]
    exact r.items_nodup
  exact lineSum_of_mem hnd (List.mem_map_of_mem hi)

omit [Collation] in
/-- What a reservation holds of each product, when its items are the lines of the request: the
sum of the lines, modulo `2^64`, and more than nothing of a product that was asked for. -/
theorem quantity_of_normalizeItems (h : normalizeItems items = some (r.items.map (·.line)))
    (p : Int) :
    r.quantity p = wrap64 (lineSum items p) ∧
      (p ∈ items.map ItemRequest.productID → 0 < lineSum items p ∧ 0 < r.quantity p) := by
  unfold normalizeItems at h
  split at h
  · cases h
  obtain ⟨m, hm, hlines⟩ := Option.map_eq_some_iff.mp h
  have hsum : r.quantity p = wrap64 (lineSum items p) := by
    rw [Reservation.quantity, ← hlines, Quantities.sorted_lineSum,
      aggregate_lineSum items (m := []) List.nodup_nil (fun _ => rfl) hm p]
    simp [Quantities.lines]
  refine ⟨hsum, fun hp => ⟨lineSum_pos (pos_of_aggregate items hm) hp, ?_⟩⟩
  -- the product has an item, and an item that was stored is positive
  have hline : (⟨p, wrap64 (lineSum items p)⟩ : ItemRequest) ∈ r.items.map (·.line) :=
    hlines ▸ (mem_sorted hm _).mpr ⟨hp, rfl⟩
  obtain ⟨i, hi, hiline⟩ := List.mem_map.mp hline
  obtain rfl : i.productID = p := congrArg ItemRequest.productID hiline
  rw [Reservation.quantity_of_mem hi]
  exact i.quantity_pos

/-- An item that is in stock is reserved. -/
theorem exec_reserveItem {id : GoString} {i : ItemRequest} {s : DB} {row row' : Inventory}
    {r' : Reservation} (hrow : s.item i.productID = some row)
    (hstock : i.quantity ≤ row.availableQuantity)
    (hrow' : Inventory.checked (row.availableQuantity - i.quantity)
      (row.reservedQuantity + i.quantity) (row.version + 1) = some row')
    (hr : s.reservation id = some r) (hr' : r.insertItem i = some r') :
    (reserveItem id i).exec s = .ok ((), Store.push
      ((s.putItem i.productID row').putReservation (Collation.weight id) r')
      (reserveLog id i)) := by
  have hread : (s.putItem i.productID row').reservation id = some r := by
    simpa only [DB.reservation, DB.putItem_reservationAt] using hr
  have hinsert : (insertReservationItem id i).exec (s.putItem i.productID row') =
      .ok ((), (s.putItem i.productID row').putReservation (Collation.weight id) r') := by
    simp only [insertReservationItem, exec_getReservation_bind, hread, hr', exec_setReservation]
  simp only [reserveItem, exec_getItem_bind, hrow]
  rw [if_neg (Int.not_lt.mpr hstock),
    Txn.exec_bind_of_ok _ (exec_updateItem hrow (decide_eq_true hstock) (by exact hrow'))]
  simp only [ne_eq, not_true_eq_false, if_false]
  rw [Txn.exec_bind_of_ok _ hinsert, Txn.exec_push, reserveLog]

/-- A stock that covers any line. -/
def plenty : Inventory :=
  ⟨maxInt64, 0, 0, by decide, le_rfl, by decide, by decide, by decide⟩

/-- The loop goes through when there is plenty of each product. -/
theorem reserveItems_of_plenty {id : GoString} :
    ∀ (items : List ItemRequest) {s : DB} {r : Reservation},
      (items.map ItemRequest.productID).Nodup →
      (∀ i ∈ items, 0 < i.quantity ∧ i.quantity ≤ maxInt64 ∧ s.item i.productID = some plenty ∧
        i.productID ∉ r.items.map ReservationItem.productID) →
      s.reservation id = some r → ∃ s', (reserveItems id items).exec s = .ok ((), s')
  | [], s, r, _, _, _ => ⟨s, rfl⟩
  | i :: items, s, r, hnd, h, hr => by
    obtain ⟨hi, hnd⟩ := List.nodup_cons.mp hnd
    obtain ⟨⟨hpos, hmax, hrow, hnew⟩, h⟩ := List.forall_mem_cons.mp h
    have hmax' : maxInt64 = 2 ^ 63 - 1 := rfl
    have hchecked : (0 ≤ maxInt64 - i.quantity ∧ 0 ≤ 0 + i.quantity) ∧
        InBigint (maxInt64 - i.quantity) ∧ InBigint (0 + i.quantity) ∧ InBigint (0 + 1) := by
      refine ⟨⟨by omega, by omega⟩, ⟨by omega, by omega⟩, ⟨by omega, by omega⟩, by decide⟩
    obtain ⟨row', hrow'⟩ : ∃ row', Inventory.checked (maxInt64 - i.quantity) (0 + i.quantity)
        (0 + 1) = some row' := ⟨_, dif_pos hchecked⟩
    obtain ⟨r', hr'⟩ : ∃ r', r.insertItem i = some r' := ⟨_, dif_pos ⟨hpos, hnew⟩⟩
    have hfirst := exec_reserveItem hrow hmax hrow' hr hr'
    have hmid : DB.reservation (Store.push ((s.putItem i.productID row').putReservation
        (Collation.weight id) r') (reserveLog id i)) id = some r' := by
      simp [DB.reservation]
    have hids : r'.items.map ReservationItem.productID =
        r.items.map ReservationItem.productID ++ [i.productID] := by
      have hlines := congrArg (List.map ItemRequest.productID) (insertItem_some hr').2.2.2
      rwa [List.map_append, List.map_map, List.map_map] at hlines
    obtain ⟨s', hloop⟩ := reserveItems_of_plenty items hnd (by
      -- the item that was reserved is of another product
      intro j hj
      obtain ⟨hpos', hmax', hitem, hnew'⟩ := h j hj
      have hne : j.productID ≠ i.productID := fun heq => hi (List.mem_map.mpr ⟨j, hj, heq⟩)
      refine ⟨hpos', hmax', ?_, ?_⟩
      · rw [DB.push_item, DB.putReservation_item, DB.putItem_item, if_neg hne]
        exact hitem
      · rw [hids, List.mem_append, not_or]
        exact ⟨hnew', by simpa using hne⟩) hmid
    exact ⟨s', by rw [reserveItems, Txn.exec_bind_of_ok _ hfirst, hloop]⟩

/-- The database with plenty of every product. -/
def stocked : DB where
  row
    | .item _ => some plenty
    | .reservation _ => none
    | .order _ => none
  log := []

/-- A request that can be placed is placed when there is plenty of every product. -/
theorem reserve_stocked {generated : GoString} (h : Placeable generated req) :
    ∃ r s', (reserve generated req stocked).exec stocked = .ok (r, s') := by
  obtain ⟨horder, hlines⟩ := not_or.mp h.wellformed
  obtain ⟨items, hitems⟩ : ∃ items, normalizeItems req.items = some items :=
    Option.ne_none_iff_exists'.mp fun hnone => hlines (normalizeItems_eq_none.mp hnone)
  obtain ⟨m, hm, rfl⟩ : ∃ m, aggregate [] req.items = some m ∧ m.sorted = items := by
    unfold normalizeItems at hitems
    split at hitems
    · cases hitems
    · exact Option.map_eq_some_iff.mp hitems
  have hins := exec_insertReservation (s := stocked) (o := req.orderID) h.id_fits rfl rfl
  have hmid := reservation_inserted stocked (reservationIDFor generated req) req.orderID
    ⟨reservationIDFor generated req, req.orderID, .pending, [], List.nodup_nil⟩
  have hnd : (m.sorted.map ItemRequest.productID).Nodup :=
    (List.pairwise_map.mpr (normal_sorted hm).sorted).imp fun hlt => hlt.ne
  obtain ⟨s', hloop⟩ := reserveItems_of_plenty m.sorted hnd (by
    intro i hi
    obtain ⟨hp, hq⟩ := (mem_sorted hm i).mp hi
    rw [hq, DB.putOrder_item, DB.putReservation_item]
    exact ⟨h.positive _ hp, (wrap64_range _).2, rfl, by simp⟩) hmid
  obtain ⟨r, hr⟩ := reserveItems_ok m.sorted hmid hloop
  have hread : DB.reservation s' (reservationIDFor generated req) = some r := by
    simp [DB.reservation, hr.reservations]
  have hfresh : stocked.reservationOf req.orderID = none := rfl
  refine ⟨r, s', ?_⟩
  simp only [reserve, hitems, if_neg horder, hfresh]
  rw [Txn.exec_bind_of_ok _ hins, Txn.exec_bind_of_ok _ hloop, exec_getReservation_bind, hread]
  rfl

/-- A `Reserve` that succeeds for an order without a reservation has placed one. -/
theorem reserve_fresh {generated : GoString} {snapshot s s' : DB}
    (hfresh : snapshot.reservationOf req.orderID = none)
    (h : (reserve generated req snapshot).exec s = .ok (r, s')) :
    Placed s s' r ∧ r.id = reservationIDFor generated req ∧ charCount r.id ≤ 36 ∧
      r.orderID = req.orderID ∧ normalizeItems req.items = some (r.items.map (·.line)) := by
  obtain ⟨-, -, ⟨hold, -⟩ | ⟨-, hplaced⟩⟩ := reserve_ok h
  · rw [hfresh] at hold
    cases hold
  · exact hplaced

/-- **A request is placed in some state exactly when it can be placed.** -/
theorem reserve_succeeds_iff {generated : GoString} :
    (∃ (snapshot s : DB) (r : Reservation) (s' : DB),
      snapshot.reservationOf req.orderID = none ∧
        (reserve generated req snapshot).exec s = .ok (r, s')) ↔ Placeable generated req := by
  constructor
  · rintro ⟨snapshot, s, r, s', hfresh, hexec⟩
    obtain ⟨-, hid, hfits, -, hitems⟩ := reserve_fresh hfresh hexec
    refine ⟨fun hbad => ?_, hid ▸ hfits, fun p hp => ?_⟩
    · rw [reserve_malformed hbad] at hexec
      cases hexec
    · obtain ⟨hwrap, hpos⟩ := quantity_of_normalizeItems hitems p
      exact hwrap ▸ (hpos hp).2
  · intro h
    obtain ⟨r, s', hexec⟩ := reserve_stocked h
    exact ⟨stocked, stocked, r, s', rfl, hexec⟩

/-- **A reservation holds what was asked for, exactly when no sum wraps into a quantity that can
be placed.**  Whatever the state: a `Reserve` that succeeds for an order without a reservation
stores the reservation, and what it holds of each product, what has left the available quantity
and what has come to the reserved one are the sum of the requested lines, if and only if the
request cannot be placed at all or each of the sums fits into an `int64`.  Whatever is asked, the
order of the lines does not matter, and a malformed request is refused before the transaction. -/
theorem reserve_exact (generated : GoString) (req : ReserveRequest) :
    ((∀ (snapshot s : DB) (r : Reservation) (s' : DB),
        snapshot.reservationOf req.orderID = none →
        (reserve generated req snapshot).exec s = .ok (r, s') →
        s'.reservationOf req.orderID = some r ∧ ∀ p,
          r.quantity p = lineSum req.items p ∧
          s.available p - s'.available p = lineSum req.items p ∧
          s'.reserved p - s.reserved p = lineSum req.items p) ↔
      (Placeable generated req →
        ∀ p ∈ req.items.map ItemRequest.productID, lineSum req.items p ≤ maxInt64)) ∧
    (∀ snapshot items, req.items.Perm items →
      reserve generated { req with items := items } snapshot = reserve generated req snapshot) ∧
    (req.Malformed → ∀ snapshot,
      reserve generated req snapshot = .fail .invalidInventoryAmount) := by
  refine ⟨⟨fun hexact hplaceable p hp => ?_, ?_⟩,
    fun snapshot items hperm => reserve_perm hperm generated snapshot,
    fun hbad snapshot => reserve_malformed hbad generated snapshot⟩
  · obtain ⟨snapshot, s, r, s', hfresh, hexec⟩ := reserve_succeeds_iff.mpr hplaceable
    obtain ⟨-, -, -, -, hitems⟩ := reserve_fresh hfresh hexec
    -- what is held has wrapped, so it is in range
    obtain ⟨hwrap, -⟩ := quantity_of_normalizeItems hitems p
    rw [← ((hexact snapshot s r s' hfresh hexec).2 p).1, hwrap]
    exact (wrap64_range _).2
  · intro hfits snapshot s r s' hfresh hexec
    have hfits := hfits (reserve_succeeds_iff.mp ⟨snapshot, s, r, s', hfresh, hexec⟩)
    obtain ⟨hplaced, -, -, horder, hitems⟩ := reserve_fresh hfresh hexec
    constructor
    · simp [DB.reservationOf, DB.reservation, hplaced.orders, hplaced.reservations, horder]
    · intro p
      obtain ⟨hwrap, hpos⟩ := quantity_of_normalizeItems hitems p
      have hexact : r.quantity p = lineSum req.items p := by
        by_cases hp : p ∈ req.items.map ItemRequest.productID
        · have hasked := (hpos hp).1
          have hfit := hfits p hp
          rw [hwrap, wrap64_eq ⟨by omega, hfit⟩]
        · rw [hwrap, lineSum_of_not_mem hp]
          rfl
      have havailable := hplaced.available p
      have hreserved := hplaced.reserved p
      omega

end

/-- The database with ten of a product on stock. -/
def ten : DB := (((init 1 10).exec DB.empty).toOption.map Prod.snd).getD DB.empty

/-- A `Reserve` of lines of that product, for an order without a reservation. -/
def reserveLines (quantities : List Int) : Except Err (Reservation × DB) :=
  letI := asciiCi
  (reserve [] ⟨7, [0x72], quantities.map fun q => ⟨1, q⟩⟩ ten).exec ten

/-- Three positive quantities that add up to `2^64 + 3`: three of the product are reserved. -/
theorem reserve_wraps :
    (∀ q ∈ [2 ^ 63 - 1, 2 ^ 63 - 1, (5 : Int)], 0 < q ∧ q ≤ maxInt64) ∧
      (reserveLines [2 ^ 63 - 1, 2 ^ 63 - 1, 5]).map (fun x =>
        (x.1.quantity 1, ten.available 1 - x.2.available 1, x.2.reserved 1 - ten.reserved 1)) =
          .ok (3, 3, 3) ∧
      lineSum [⟨1, 2 ^ 63 - 1⟩, ⟨1, 2 ^ 63 - 1⟩, ⟨1, 5⟩] 1 = 2 ^ 64 + 3 := by
  refine ⟨?_, ?_, ?_⟩ <;> decide

end OrderSystem.InventorySvc
