/-
# A pending reservation can be settled

`Confirm` and `Release` of a pending reservation fail only for reasons of the database.  One of
these is part of the schema: a quantity or a version that leaves the range of its column.  This
file says that it is the only one: if there is room in the columns, a pending reservation is
settled (`transition_of_pending`), because every item of it is covered by `reserved_quantity`.
-/
import OrderSystem.InventorySvc.Settlement

namespace OrderSystem.InventorySvc

open OrderSystem.Kit

/-- There is room in the columns for the stock of the reservation to come back. -/
def Room (s : DB) (r : Reservation) : Prop :=
  ∀ i ∈ r.items, ∀ row ∈ s.item i.productID,
    InBigint (row.availableQuantity + i.quantity) ∧ InBigint (row.version + 1)

instance (s : DB) (r : Reservation) : Decidable (Room s r) :=
  inferInstanceAs (Decidable (∀ i ∈ r.items, ∀ row ∈ s.item i.productID, _))

/-- The stock row of the item covers it, and the database accepts the settled row. -/
def Settleable (t : Settlement) (s : DB) (i : ReservationItem) : Prop :=
  ∃ row row', s.item i.productID = some row ∧ i.quantity ≤ row.reservedQuantity ∧
    Inventory.checked (row.availableQuantity + t.returned i.quantity)
      (row.reservedQuantity - i.quantity) (row.version + 1) = some row'

theorem settleItem_of_settleable {t : Settlement} {s : DB} {i : ReservationItem}
    (h : Settleable t s i) (id : GoString) : ∃ row', (settleItem id t i).exec s =
      .ok ((), Store.push (s.putItem i.productID row') (settleLog id t i)) := by
  obtain ⟨row, row', hrow, hcov, hset⟩ := h
  refine ⟨row', ?_⟩
  simp only [settleItem, exec_getItem_bind, hrow]
  rw [Txn.exec_bind_of_ok _ (exec_updateItem hrow (decide_eq_true hcov) (by exact hset))]
  rfl

/-- **The loop of `transition` goes through**: the products are distinct, so an iteration leaves
the rows of the other items as they are. -/
theorem settleItems_of_settleable {t : Settlement} (id : GoString) :
    ∀ (items : List ReservationItem) {s : DB}, (items.map (·.productID)).Nodup →
      (∀ i ∈ items, Settleable t s i) → ∃ s', (settleItems id t items).exec s = .ok ((), s')
  | [], s, _, _ => ⟨s, rfl⟩
  | i :: items, s, hnd, h => by
    obtain ⟨hi, hnd⟩ := List.nodup_cons.mp hnd
    obtain ⟨row', hfirst⟩ := settleItem_of_settleable (h i List.mem_cons_self) id
    have hrest : ∀ j ∈ items,
        Settleable t (Store.push (s.putItem i.productID row') (settleLog id t i)) j := by
      intro j hj
      have hne : j.productID ≠ i.productID := fun heq =>
        hi (List.mem_map.mpr ⟨j, hj, heq⟩)
      obtain ⟨row₁, row₂, hrow, hcov, hset⟩ := h j (List.mem_cons_of_mem _ hj)
      refine ⟨row₁, row₂, ?_, hcov, hset⟩
      rw [DB.push_item, DB.putItem_item, if_neg hne]
      exact hrow
    obtain ⟨s', hloop⟩ := settleItems_of_settleable id items hnd hrest
    exact ⟨s', by rw [settleItems, Txn.exec_bind_of_ok _ hfirst, hloop]⟩

/-- With room in the columns, the items of a pending reservation can be settled. -/
theorem settleable_of_pending {H : List (Request × Answer)} {s : DB} (hb : Balanced H s)
    {w : GoString} {r : Reservation} (hr : s.reservationAt w = some r)
    (hst : r.status = .pending) (hroom : Room s r) (t : Settlement) {i : ReservationItem}
    (hi : i ∈ r.items) : Settleable t s i := by
  have hcov := le_reserved_of_pending hb hr hst hi
  have hpos := i.quantity_pos
  cases hrow : s.item i.productID with
  | none =>
    -- nothing would be reserved of a product without a row
    simp only [DB.reserved, hrow, Option.map_none, Option.getD_none] at hcov
    omega
  | some row =>
    rw [DB.reserved_of_item hrow] at hcov
    obtain ⟨havail, hversion⟩ := hroom i hi row hrow
    have hav := row.available_nonneg
    have harange := row.available_range
    have hrrange := row.reserved_range
    have hreturned : 0 ≤ row.availableQuantity + t.returned i.quantity ∧
        InBigint (row.availableQuantity + t.returned i.quantity) := by
      cases t with
      | confirm => simpa [Settlement.returned] using ⟨hav, harange⟩
      | release => exact ⟨by simp only [Settlement.returned]; omega, havail⟩
    have hleft : InBigint (row.reservedQuantity - i.quantity) := by
      unfold InBigint at hrrange ⊢
      omega
    refine ⟨row, ⟨_, _, _, hreturned.1, by omega, hreturned.2, hleft, hversion⟩, hrow, hcov, ?_⟩
    rw [Inventory.checked, dif_pos ⟨⟨hreturned.1, by omega⟩, hreturned.2, hleft, hversion⟩]

/-- **A pending reservation with room is settled**, by `Confirm` and by `Release`. -/
theorem transition_of_pending [Collation] {H : List (Request × Answer)} {s : DB}
    (hb : Balanced H s) {id : GoString} (hid : trimSpace id ≠ []) {r : Reservation}
    (hr : s.reservation (trimSpace id) = some r) (hst : r.status = .pending) (hroom : Room s r)
    (t : Settlement) :
    ∃ s', (transition id t).exec s = .ok ({ r with status := t.status }, s') := by
  have hnd : (r.sortedItems.map (·.productID)).Nodup :=
    (r.sortedItems_perm.map _).nodup_iff.mpr r.items_nodup
  obtain ⟨s₁, hloop⟩ := settleItems_of_settleable (t := t) (trimSpace id) r.sortedItems hnd
    fun i hi => settleable_of_pending hb hr hst hroom t (r.sortedItems_perm.mem_iff.mp hi)
  refine ⟨DB.putReservation s₁ (Collation.weight (trimSpace id)) { r with status := t.status }, ?_⟩
  simp only [transition, if_neg hid, exec_getReservation_bind, hr]
  rw [if_neg (by rw [hst]; exact (t.status_ne_pending).symm), if_neg (by simp [hst])]
  have hsorted : (settleItems (trimSpace id) t
      (r.items.insertionSort (·.productID ≤ ·.productID))).exec s = .ok ((), s₁) := hloop
  rw [Txn.exec_bind_of_ok _ hsorted]
  rfl

end OrderSystem.InventorySvc
