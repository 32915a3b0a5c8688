/-
# What a committed request does

One description of each operation of the inventory service, run alone from a committed
database: `Supplied` for `Init` and `Add`, `Placed` for a `Reserve` that makes a reservation,
`Settled` for a `Confirm` or `Release` that settles one.  A request that commits does one of
these or changes nothing (`prog_effect`), and everything proved about the service's committed
states is proved from these descriptions, not from the programs.

The item loops are the work.  `reserveItems_ok` and `settleItems_ok` are the loop lemmas: they
follow the recursion over the items, and each step is the lemma about the loop's body
(`reserveItem_ok`, `settleItem_ok`).
-/
import OrderSystem.InventorySvc.Model

namespace OrderSystem.InventorySvc

open OrderSystem.Kit

/-! ## 1. Reading and writing the database -/

namespace DB

/-- `available_quantity` of a product; a product without a row has none. -/
def available (s : DB) (p : Int) : Int := ((s.item p).map (·.availableQuantity)).getD 0

/-- `reserved_quantity` of a product. -/
def reserved (s : DB) (p : Int) : Int := ((s.item p).map (·.reservedQuantity)).getD 0

/-- The database with another stock row. -/
def putItem (s : DB) (p : Int) (row : Inventory) : DB := Store.set s (Key.item p) (some row)

theorem putItem_item (s : DB) (p p' : Int) (row : Inventory) :
    (s.putItem p row).item p' = if p' = p then some row else s.item p' := by
  by_cases h : p' = p
  · subst h
    simp [putItem, item]
  · have hk : Key.item p' ≠ Key.item p := fun hc => h (Key.item.inj hc)
    simp only [putItem, item, Store.set_row_of_ne _ _ hk, if_neg h]

@[simp] theorem putItem_reservationAt (s : DB) (p : Int) (row : Inventory) :
    (s.putItem p row).reservationAt = s.reservationAt := by
  funext w
  exact Store.set_row_of_ne s _ (by simp)

@[simp] theorem putItem_orderKey (s : DB) (p : Int) (row : Inventory) :
    (s.putItem p row).orderKey = s.orderKey := by
  funext o
  exact Store.set_row_of_ne s _ (by simp)

@[simp] theorem putItem_log (s : DB) (p : Int) (row : Inventory) :
    Store.log (s.putItem p row) = Store.log s := rfl

@[simp] theorem push_item (s : DB) (l : StockLog) : DB.item (Store.push s l) = s.item := rfl

@[simp] theorem push_available (s : DB) (l : StockLog) :
    DB.available (Store.push s l) = s.available := rfl

@[simp] theorem push_reserved (s : DB) (l : StockLog) :
    DB.reserved (Store.push s l) = s.reserved := rfl

@[simp] theorem push_reservationAt (s : DB) (l : StockLog) :
    DB.reservationAt (Store.push s l) = s.reservationAt := rfl

@[simp] theorem push_orderKey (s : DB) (l : StockLog) :
    DB.orderKey (Store.push s l) = s.orderKey := rfl

/-- A new stock row moves the two quantities of its product, and of no other. -/
theorem putItem_available (s : DB) (p : Int) (row : Inventory) (p' : Int) :
    (s.putItem p row).available p' =
      s.available p' + if p' = p then row.availableQuantity - s.available p else 0 := by
  simp only [available, putItem_item]
  split
  · rename_i h
    subst h
    simp
  · simp

theorem putItem_reserved (s : DB) (p : Int) (row : Inventory) (p' : Int) :
    (s.putItem p row).reserved p' =
      s.reserved p' + if p' = p then row.reservedQuantity - s.reserved p else 0 := by
  simp only [reserved, putItem_item]
  split
  · rename_i h
    subst h
    simp
  · simp

theorem available_of_item {s : DB} {p : Int} {row : Inventory} (h : s.item p = some row) :
    s.available p = row.availableQuantity := by
  simp [available, h]

theorem reserved_of_item {s : DB} {p : Int} {row : Inventory} (h : s.item p = some row) :
    s.reserved p = row.reservedQuantity := by
  simp [reserved, h]

theorem available_nonneg (s : DB) (p : Int) : 0 ≤ s.available p := by
  unfold available
  cases s.item p with
  | none => simp
  | some row => simpa using row.available_nonneg

/-- The database with another reservation row under a primary-key weight. -/
def putReservation (s : DB) (w : GoString) (row : Reservation) : DB :=
  Store.set s (Key.reservation w) (some row)

@[simp] theorem putReservation_item (s : DB) (w : GoString) (row : Reservation) :
    (s.putReservation w row).item = s.item := by
  funext p
  exact Store.set_row_of_ne s _ (by simp)

@[simp] theorem putReservation_available (s : DB) (w : GoString) (row : Reservation) :
    (s.putReservation w row).available = s.available := by
  funext p
  simp [available]

@[simp] theorem putReservation_reserved (s : DB) (w : GoString) (row : Reservation) :
    (s.putReservation w row).reserved = s.reserved := by
  funext p
  simp [reserved]

@[simp] theorem putReservation_reservationAt (s : DB) (w : GoString) (row : Reservation) :
    (s.putReservation w row).reservationAt = Function.update s.reservationAt w (some row) := by
  funext w'
  by_cases h : w' = w
  · subst h
    simp [putReservation, reservationAt]
  · have hk : Key.reservation w' ≠ Key.reservation w := fun hc => h (Key.reservation.inj hc)
    rw [Function.update_of_ne h]
    exact Store.set_row_of_ne s _ hk

@[simp] theorem putReservation_orderKey (s : DB) (w : GoString) (row : Reservation) :
    (s.putReservation w row).orderKey = s.orderKey := by
  funext o
  exact Store.set_row_of_ne s _ (by simp)

@[simp] theorem putReservation_log (s : DB) (w : GoString) (row : Reservation) :
    Store.log (s.putReservation w row) = Store.log s := rfl

/-- The database with an order's entry in the order index. -/
def putOrder (s : DB) (o : Int) (id : GoString) : DB := Store.set s (Key.order o) (some id)

@[simp] theorem putOrder_item (s : DB) (o : Int) (id : GoString) :
    (s.putOrder o id).item = s.item := by
  funext p
  exact Store.set_row_of_ne s _ (by simp)

@[simp] theorem putOrder_available (s : DB) (o : Int) (id : GoString) :
    (s.putOrder o id).available = s.available := by
  funext p
  simp [available]

@[simp] theorem putOrder_reserved (s : DB) (o : Int) (id : GoString) :
    (s.putOrder o id).reserved = s.reserved := by
  funext p
  simp [reserved]

@[simp] theorem putOrder_reservationAt (s : DB) (o : Int) (id : GoString) :
    (s.putOrder o id).reservationAt = s.reservationAt := by
  funext w
  exact Store.set_row_of_ne s _ (by simp)

@[simp] theorem putOrder_orderKey (s : DB) (o : Int) (id : GoString) :
    (s.putOrder o id).orderKey = Function.update s.orderKey o (some id) := by
  funext o'
  by_cases h : o' = o
  · subst h
    simp [putOrder, orderKey]
  · have hk : Key.order o' ≠ Key.order o := fun hc => h (Key.order.inj hc)
    rw [Function.update_of_ne h]
    exact Store.set_row_of_ne s _ hk

@[simp] theorem putOrder_log (s : DB) (o : Int) (id : GoString) :
    Store.log (s.putOrder o id) = Store.log s := rfl

end DB

/-! ## 2. Statements -/

variable {β : Type} {p : Int} {cond : Inventory → Bool} {set : Inventory → Option Inventory}
  {s s' : DB}

@[simp] theorem exec_getItem_bind (p : Int) (f : Option Inventory → Tx β) (s : DB) :
    (getItem p >>= f).exec s = (f (s.item p)).exec s :=
  Txn.exec_get_bind (V := Row) (Key.item p) f s

@[simp] theorem exec_setItem_bind (p : Int) (row : Inventory) (f : Unit → Tx β) (s : DB) :
    (setItem p row >>= f).exec s = (f ()).exec (s.putItem p row) :=
  Txn.exec_set_bind (V := Row) (Key.item p) (some row) f s

@[simp] theorem exec_getOrderKey_bind (o : Int) (f : Option GoString → Tx β) (s : DB) :
    (getOrderKey o >>= f).exec s = (f (s.orderKey o)).exec s :=
  Txn.exec_get_bind (V := Row) (Key.order o) f s

@[simp] theorem exec_setOrderKey (o : Int) (id : GoString) (s : DB) :
    (setOrderKey o id).exec s = .ok ((), s.putOrder o id) := rfl

theorem checked_eq_some {a r v : Int} {row : Inventory} (h : Inventory.checked a r v = some row) :
    row.availableQuantity = a ∧ row.reservedQuantity = r ∧ row.version = v := by
  unfold Inventory.checked at h
  split at h
  · rw [Option.some.injEq] at h
    subst h
    exact ⟨rfl, rfl, rfl⟩
  · exact absurd h (by simp)

/-- **A guarded update**: no row changed, or one row matched and was rewritten. -/
theorem updateItem_ok {n : Nat} (h : (updateItem p cond set).exec s = .ok (n, s')) :
    (n = 0 ∧ s' = s ∧ ∀ row, s.item p = some row → cond row = false) ∨
      (n = 1 ∧ ∃ row row', s.item p = some row ∧ cond row = true ∧ set row = some row' ∧
        s' = s.putItem p row') := by
  simp only [updateItem, exec_getItem_bind] at h
  split at h
  · rename_i hnone
    simp only [Txn.exec_pure, Except.ok.injEq, Prod.mk.injEq] at h
    exact Or.inl ⟨h.1.symm, h.2.symm, fun row hrow => absurd (hnone.symm.trans hrow) (by simp)⟩
  · rename_i row hrow
    split at h
    · rename_i hcond
      split at h
      · exact absurd h (by simp)
      · rename_i row' hset
        simp only [exec_setItem_bind, Txn.exec_pure, Except.ok.injEq, Prod.mk.injEq] at h
        exact Or.inr ⟨h.1.symm, row, row', hrow, hcond, hset, h.2.symm⟩
    · rename_i hcond
      simp only [Txn.exec_pure, Except.ok.injEq, Prod.mk.injEq] at h
      refine Or.inl ⟨h.1.symm, h.2.symm, fun row' hrow' => ?_⟩
      rw [hrow, Option.some.injEq] at hrow'
      exact hrow' ▸ Bool.not_eq_true _ ▸ hcond

theorem exec_updateItem {row row' : Inventory} (hrow : s.item p = some row)
    (hcond : cond row = true) (hset : set row = some row') :
    (updateItem p cond set).exec s = .ok (1, s.putItem p row') := by
  simp [updateItem, hrow, hcond, hset]

/-- An update fails only when the database refuses the new values. -/
theorem updateItem_error {e : Err} (h : (updateItem p cond set).exec s = .error e) :
    e = .storage := by
  simp only [updateItem, exec_getItem_bind] at h
  split at h
  · exact absurd h (by simp)
  · split at h
    · split at h
      · simp only [Txn.exec_fail, Except.error.injEq] at h
        exact h.symm
      · exact absurd h (by simp)
    · exact absurd h (by simp)

/-! ## 3. Supplying stock -/

/-- `Init` or `Add` of the quantity `q` of the product `p`. -/
structure Supplied (s s' : DB) (p q : Int) : Prop where
  available : ∀ p', s'.available p' = s.available p' + if p' = p then q else 0
  reserved : s'.reserved = s.reserved
  reservations : s'.reservationAt = s.reservationAt
  orders : s'.orderKey = s.orderKey
  log : ∃ t, (t = .initialized ∨ t = .add) ∧ Store.log s' = Store.log s ++ [⟨p, t, q, []⟩]

theorem init_ok {q : Int} {r : Inventory} (h : (init p q).exec s = .ok (r, s')) :
    Supplied s s' p q := by
  simp only [init] at h
  split at h
  · exact absurd h (by simp)
  · simp only [exec_getItem_bind] at h
    split at h
    · exact absurd h (by simp)
    · rename_i hnone
      split at h
      · exact absurd h (by simp)
      · rename_i row hrow
        simp only [exec_setItem_bind, Txn.exec_push_bind, Txn.exec_pure, Except.ok.injEq,
          Prod.mk.injEq] at h
        obtain ⟨ha, hr, -⟩ := checked_eq_some hrow
        have ha0 : s.available p = 0 := by simp [DB.available, hnone]
        have hr0 : s.reserved p = 0 := by simp [DB.reserved, hnone]
        rw [← h.2]
        refine ⟨fun p' => ?_, funext fun p' => ?_, by simp, by simp, .initialized, by simp⟩
        · rw [DB.push_available, DB.putItem_available, ha, ha0, Int.sub_zero]
        · rw [DB.push_reserved, DB.putItem_reserved, hr, hr0]
          simp

theorem add_ok {q : Int} {r : Inventory} (h : (add p q).exec s = .ok (r, s')) :
    Supplied s s' p q := by
  simp only [add] at h
  split at h
  · exact absurd h (by simp)
  · simp only [exec_getItem_bind] at h
    split at h
    · exact absurd h (by simp)
    · rename_i row₀ hrow₀
      obtain ⟨n, t, hu, h⟩ := Txn.exec_bind_ok h
      simp only [Txn.exec_push_bind, exec_getItem_bind] at h
      split at h
      · exact absurd h (by simp)
      · simp only [Txn.exec_pure, Except.ok.injEq, Prod.mk.injEq] at h
        rw [← h.2]
        rcases updateItem_ok hu with ⟨-, -, hc⟩ | ⟨-, row, row', hrow, -, hset, rfl⟩
        · exact absurd (hc row₀ hrow₀) (by simp)
        · obtain ⟨ha, hr, -⟩ := checked_eq_some hset
          have ha' : row'.availableQuantity - s.available p = q := by
            rw [ha, DB.available_of_item hrow]; omega
          have hr' : row'.reservedQuantity - s.reserved p = 0 := by
            rw [hr, DB.reserved_of_item hrow]; omega
          refine ⟨fun p' => ?_, funext fun p' => ?_, by simp, by simp, .add, by simp⟩
          · rw [DB.push_available, DB.putItem_available, ha']
          · rw [DB.push_reserved, DB.putItem_reserved, hr']
            simp

/-! ## 4. Placing a reservation -/

/-- An item as the line that asked for it. -/
def ReservationItem.line (i : ReservationItem) : ItemRequest := ⟨i.productID, i.quantity⟩

/-- What a reservation holds of one product. -/
def Reservation.quantity (r : Reservation) (p : Int) : Int := lineSum (r.items.map (·.line)) p

theorem insertItem_some {row row' : Reservation} {i : ItemRequest}
    (h : row.insertItem i = some row') :
    row'.id = row.id ∧ row'.orderID = row.orderID ∧ row'.status = row.status ∧
      row'.items.map (·.line) = row.items.map (·.line) ++ [i] := by
  unfold Reservation.insertItem at h
  split at h
  · rw [Option.some.injEq] at h
    subst h
    simp [ReservationItem.line]
  · exact absurd h (by simp)

/-- The log entry of one reserved line. -/
def reserveLog (id : GoString) (i : ItemRequest) : StockLog :=
  ⟨i.productID, .reserve, -i.quantity, id⟩

section

variable [Collation]

@[simp] theorem exec_getReservation_bind {β : Type} (id : GoString)
    (f : Option Reservation → Tx β) (s : DB) :
    (getReservation id >>= f).exec s = (f (s.reservation id)).exec s :=
  Txn.exec_get_bind (V := Row) (Key.reservation (Collation.weight id)) f s

@[simp] theorem exec_setReservation_bind {β : Type} (id : GoString) (row : Reservation)
    (f : Unit → Tx β) (s : DB) :
    (setReservation id row >>= f).exec s
      = (f ()).exec (s.putReservation (Collation.weight id) row) :=
  Txn.exec_set_bind (V := Row) (Key.reservation (Collation.weight id)) (some row) f s

@[simp] theorem exec_setReservation (id : GoString) (row : Reservation) (s : DB) :
    (setReservation id row).exec s
      = .ok ((), s.putReservation (Collation.weight id) row) := rfl

variable {id : GoString} {s s' : DB} {u : Unit}

theorem insertReservation_ok {o : Int} (h : (insertReservation id o).exec s = .ok (u, s')) :
    charCount id ≤ 36 ∧ s.reservation id = none ∧ s.orderKey o = none ∧
      s' = (s.putReservation (Collation.weight id) ⟨id, o, .pending, [], List.nodup_nil⟩).putOrder
        o id := by
  simp only [insertReservation] at h
  split at h
  · exact absurd h (by simp)
  · rename_i hfits
    simp only [exec_getReservation_bind] at h
    split at h
    · exact absurd h (by simp)
    · rename_i hres
      simp only [exec_getOrderKey_bind] at h
      split at h
      · exact absurd h (by simp)
      · rename_i hord
        simp only [exec_setReservation_bind, exec_setOrderKey, Except.ok.injEq,
          Prod.mk.injEq] at h
        exact ⟨Nat.not_lt.mp hfits, hres, hord, h.2.symm⟩

theorem exec_insertReservation {o : Int} (hfits : charCount id ≤ 36)
    (hres : s.reservation id = none) (hord : s.orderKey o = none) :
    (insertReservation id o).exec s = .ok ((), (s.putReservation (Collation.weight id)
      ⟨id, o, .pending, [], List.nodup_nil⟩).putOrder o id) := by
  simp only [insertReservation, if_neg (Nat.not_lt.mpr hfits), exec_getReservation_bind, hres,
    exec_getOrderKey_bind, hord, exec_setReservation_bind, exec_setOrderKey]

/-- The reservation that was inserted is there for the item loop. -/
theorem reservation_inserted (s : DB) (id : GoString) (o : Int) (r : Reservation) :
    DB.reservation ((s.putReservation (Collation.weight id) r).putOrder o id) id = some r := by
  simp [DB.reservation]

theorem insertReservationItem_ok {i : ItemRequest}
    (h : (insertReservationItem id i).exec s = .ok (u, s')) :
    ∃ row row', s.reservation id = some row ∧ row.insertItem i = some row' ∧
      s' = s.putReservation (Collation.weight id) row' := by
  simp only [insertReservationItem, exec_getReservation_bind] at h
  split at h
  · exact absurd h (by simp)
  · rename_i row hrow
    split at h
    · exact absurd h (by simp)
    · rename_i row' hrow'
      simp only [exec_setReservation, Except.ok.injEq, Prod.mk.injEq] at h
      exact ⟨row, row', hrow, hrow', h.2.symm⟩

/-- **The body of the loop**: the stock moves from available to reserved, the reservation gets
the item, and the move is logged. -/
theorem reserveItem_ok {i : ItemRequest} (h : (reserveItem id i).exec s = .ok (u, s')) :
    ∃ row row' r r', s.item i.productID = some row ∧
      row'.availableQuantity = row.availableQuantity - i.quantity ∧
      row'.reservedQuantity = row.reservedQuantity + i.quantity ∧
      s.reservation id = some r ∧ r.insertItem i = some r' ∧
      s' = Store.push ((s.putItem i.productID row').putReservation (Collation.weight id) r')
        (reserveLog id i) := by
  simp only [reserveItem, exec_getItem_bind] at h
  split at h
  · exact absurd h (by simp)
  · split at h
    · exact absurd h (by simp)
    · obtain ⟨n, t, hu, h⟩ := Txn.exec_bind_ok h
      rcases updateItem_ok hu with ⟨rfl, -, -⟩ | ⟨rfl, row, row', hrow, -, hset, rfl⟩
      · exact absurd h (by simp)
      · simp only [ne_eq, not_true_eq_false, if_false] at h
        obtain ⟨u', t', hi, h⟩ := Txn.exec_bind_ok h
        obtain ⟨r, r', hr, hr', rfl⟩ := insertReservationItem_ok hi
        simp only [Txn.exec_push, Except.ok.injEq, Prod.mk.injEq] at h
        obtain ⟨ha, hres, -⟩ := checked_eq_some hset
        refine ⟨row, row', r, r', hrow, ha, hres, ?_, hr', h.2.symm⟩
        simpa only [DB.reservation, DB.putItem_reservationAt] using hr

/-- What the item loop of `Reserve` does to a reservation that starts as `r`. -/
structure ReservedItems (id : GoString) (items : List ItemRequest) (s s' : DB)
    (r r' : Reservation) : Prop where
  id_eq : r'.id = r.id
  orderID_eq : r'.orderID = r.orderID
  status_eq : r'.status = r.status
  lines : r'.items.map (·.line) = r.items.map (·.line) ++ items
  reservations : s'.reservationAt = Function.update s.reservationAt (Collation.weight id) (some r')
  orders : s'.orderKey = s.orderKey
  available : ∀ p, s'.available p = s.available p - lineSum items p
  reserved : ∀ p, s'.reserved p = s.reserved p + lineSum items p
  log : Store.log s' = Store.log s ++ items.map (reserveLog id)

/-- **The item loop of `Reserve`.** -/
theorem reserveItems_ok : ∀ (items : List ItemRequest) {s s' : DB} {u : Unit}
    {r : Reservation}, s.reservation id = some r →
    (reserveItems id items).exec s = .ok (u, s') → ∃ r', ReservedItems id items s s' r r'
  | [], s, s', u, r, hr, h => by
    simp only [reserveItems, Txn.exec_pure, Except.ok.injEq, Prod.mk.injEq] at h
    have hsame : Function.update s.reservationAt (Collation.weight id) (some r)
        = s.reservationAt := Function.update_eq_self_iff.mpr hr.symm
    rw [← h.2]
    exact ⟨r, rfl, rfl, rfl, by simp, hsame.symm, rfl, by simp, by simp, by simp⟩
  | i :: items, s, s', u, r, hr, h => by
    rw [reserveItems] at h
    obtain ⟨u', t, hi, h⟩ := Txn.exec_bind_ok h
    obtain ⟨row, row', r₀, r₁, hrow, ha, hres, hr₀, hr₁, rfl⟩ := reserveItem_ok hi
    rw [hr, Option.some.injEq] at hr₀
    subst hr₀
    obtain ⟨h1, h2, h3, h4⟩ := insertItem_some hr₁
    have hmid : DB.reservation (Store.push ((s.putItem i.productID row').putReservation
        (Collation.weight id) r₁) (reserveLog id i)) id = some r₁ := by
      simp [DB.reservation]
    obtain ⟨r', hloop⟩ := reserveItems_ok items hmid h
    refine ⟨r', hloop.id_eq.trans h1, hloop.orderID_eq.trans h2, hloop.status_eq.trans h3, ?_, ?_,
      ?_, fun p => ?_, fun p => ?_, ?_⟩
    · rw [hloop.lines, h4]; simp
    · rw [hloop.reservations]; simp
    · rw [hloop.orders]; simp
    · rw [hloop.available, DB.push_available, DB.putReservation_available, DB.putItem_available,
        ha, DB.available_of_item hrow, lineSum_cons]
      by_cases hp : p = i.productID
      · subst hp; simp; omega
      · simp [hp, Ne.symm hp]
    · rw [hloop.reserved, DB.push_reserved, DB.putReservation_reserved, DB.putItem_reserved,
        hres, DB.reserved_of_item hrow, lineSum_cons]
      by_cases hp : p = i.productID
      · subst hp; simp; omega
      · simp [hp, Ne.symm hp]
    · rw [hloop.log]; simp

/-- `Reserve` makes the reservation `r`. -/
structure Placed (s s' : DB) (r : Reservation) : Prop where
  fresh_id : s.reservation r.id = none
  fresh_order : s.orderKey r.orderID = none
  status : r.status = .pending
  reservations :
    s'.reservationAt = Function.update s.reservationAt (Collation.weight r.id) (some r)
  orders : s'.orderKey = Function.update s.orderKey r.orderID (some r.id)
  available : ∀ p, s'.available p = s.available p - r.quantity p
  reserved : ∀ p, s'.reserved p = s.reserved p + r.quantity p
  log : Store.log s' = Store.log s ++ r.items.map fun i => reserveLog r.id i.line

/-- **`Reserve`**: it answers with the reservation its snapshot has for the order and changes
nothing, or it makes one with the requested lines. -/
theorem reserve_ok {generated : GoString} {req : ReserveRequest} {snapshot : DB} {r : Reservation}
    (h : (reserve generated req snapshot).exec s = .ok (r, s')) :
    0 < req.orderID ∧ (normalizeItems req.items).isSome ∧
      ((snapshot.reservationOf req.orderID = some r ∧ s' = s) ∨
        (snapshot.reservationOf req.orderID = none ∧ Placed s s' r ∧
          r.id = reservationIDFor generated req ∧ charCount r.id ≤ 36 ∧
          r.orderID = req.orderID ∧
          normalizeItems req.items = some (r.items.map (·.line)))) := by
  simp only [reserve] at h
  split at h
  · exact absurd h (by simp)
  · rename_i items hitems
    split at h
    · exact absurd h (by simp)
    · rename_i ho
      refine ⟨by omega, by simp [hitems], ?_⟩
      split at h
      · rename_i existing hex
        simp only [Txn.exec_pure, Except.ok.injEq, Prod.mk.injEq] at h
        exact Or.inl ⟨h.1 ▸ hex, h.2.symm⟩
      · rename_i hex
        refine Or.inr ⟨hex, ?_⟩
        obtain ⟨u, t, hins, h⟩ := Txn.exec_bind_ok h
        obtain ⟨hfits, hid, hord, rfl⟩ := insertReservation_ok hins
        obtain ⟨u', t', hloop, h⟩ := Txn.exec_bind_ok h
        obtain ⟨r', hl⟩ := reserveItems_ok items (reservation_inserted ..) hloop
        have hr' : DB.reservation t' (reservationIDFor generated req) = some r' := by
          simp [DB.reservation, hl.reservations]
        simp only [exec_getReservation_bind, hr', Txn.exec_pure, Except.ok.injEq,
          Prod.mk.injEq] at h
        obtain ⟨rfl, rfl⟩ := h
        have hlines : r'.items.map (·.line) = items := by rw [hl.lines]; simp
        refine ⟨⟨?_, ?_, hl.status_eq, ?_, ?_, fun p => ?_, fun p => ?_, ?_⟩, hl.id_eq,
          ?_, hl.orderID_eq, hitems.trans (congrArg some hlines.symm)⟩
        · rw [hl.id_eq]; exact hid
        · rw [hl.orderID_eq]; exact hord
        · rw [hl.reservations, hl.id_eq]; simp
        · rw [hl.orders, hl.id_eq, hl.orderID_eq]; simp
        · rw [hl.available, Reservation.quantity, hlines]; simp
        · rw [hl.reserved, Reservation.quantity, hlines]; simp
        · rw [hl.log, hl.id_eq, ← hlines]; simp [Function.comp_def]
        · rw [hl.id_eq]; exact hfits

end

/-! ## 5. Settling a reservation -/

/-- The log entry of one settled item. -/
def settleLog (id : GoString) (t : Settlement) (i : ReservationItem) : StockLog :=
  ⟨i.productID, t.changeType, t.logQuantity i.quantity, id⟩

@[simp] theorem Settlement.returned_zero (t : Settlement) : t.returned 0 = 0 := by
  cases t <;> rfl

theorem Settlement.returned_add (t : Settlement) (a b : Int) :
    t.returned (a + b) = t.returned a + t.returned b := by
  cases t <;> simp [Settlement.returned]

/-- **The body of the loop.** -/
theorem settleItem_ok {id : GoString} {t : Settlement} {i : ReservationItem} {s s' : DB}
    {u : Unit} (h : (settleItem id t i).exec s = .ok (u, s')) :
    ∃ row row', s.item i.productID = some row ∧
      row'.availableQuantity = row.availableQuantity + t.returned i.quantity ∧
      row'.reservedQuantity = row.reservedQuantity - i.quantity ∧
      s' = Store.push (s.putItem i.productID row') (settleLog id t i) := by
  simp only [settleItem, exec_getItem_bind] at h
  split at h
  · exact absurd h (by simp)
  · obtain ⟨n, s₁, hu, h⟩ := Txn.exec_bind_ok h
    rcases updateItem_ok hu with ⟨rfl, -, -⟩ | ⟨rfl, row, row', hrow, -, hset, rfl⟩
    · exact absurd h (by simp)
    · simp only [ne_eq, not_true_eq_false, if_false, Txn.exec_push, Except.ok.injEq,
        Prod.mk.injEq] at h
      obtain ⟨ha, hres, -⟩ := checked_eq_some hset
      exact ⟨row, row', hrow, ha, hres, h.2.symm⟩

/-- What the item loop of `transition` does. -/
structure SettledItems (id : GoString) (t : Settlement) (items : List ReservationItem)
    (s s' : DB) : Prop where
  reservations : s'.reservationAt = s.reservationAt
  orders : s'.orderKey = s.orderKey
  available : ∀ p, s'.available p
    = s.available p + t.returned (lineSum (items.map (·.line)) p)
  reserved : ∀ p, s'.reserved p = s.reserved p - lineSum (items.map (·.line)) p
  log : Store.log s' = Store.log s ++ items.map (settleLog id t)

/-- **The item loop of `transition`.** -/
theorem settleItems_ok {id : GoString} {t : Settlement} : ∀ (items : List ReservationItem)
    {s s' : DB} {u : Unit}, (settleItems id t items).exec s = .ok (u, s') →
    SettledItems id t items s s'
  | [], s, s', u, h => by
    simp only [settleItems, Txn.exec_pure, Except.ok.injEq, Prod.mk.injEq] at h
    rw [← h.2]
    exact ⟨rfl, rfl, by simp, by simp, by simp⟩
  | i :: items, s, s', u, h => by
    rw [settleItems] at h
    obtain ⟨u', s₁, hi, h⟩ := Txn.exec_bind_ok h
    obtain ⟨row, row', hrow, ha, hres, rfl⟩ := settleItem_ok hi
    have hloop := settleItems_ok items h
    refine ⟨?_, ?_, fun p => ?_, fun p => ?_, ?_⟩
    · rw [hloop.reservations]; simp
    · rw [hloop.orders]; simp
    · rw [hloop.available, DB.push_available, DB.putItem_available, ha,
        DB.available_of_item hrow, List.map_cons, lineSum_cons, Settlement.returned_add]
      by_cases hp : p = i.productID
      · subst hp; simp [ReservationItem.line]; omega
      · simp [hp, Ne.symm hp, ReservationItem.line]
    · rw [hloop.reserved, DB.push_reserved, DB.putItem_reserved, hres,
        DB.reserved_of_item hrow, List.map_cons, lineSum_cons]
      by_cases hp : p = i.productID
      · subst hp; simp [ReservationItem.line]; omega
      · simp [hp, Ne.symm hp, ReservationItem.line]
    · rw [hloop.log]; simp

/-- The order in which `transition` goes through a reservation's items. -/
def Reservation.sortedItems (r : Reservation) : List ReservationItem :=
  r.items.insertionSort (·.productID ≤ ·.productID)

theorem Reservation.sortedItems_perm (r : Reservation) : r.sortedItems.Perm r.items :=
  List.perm_insertionSort _ _

section

variable [Collation]

/-- The pending reservation `r`, found under the id `id`, is settled. -/
structure Settled (s s' : DB) (id : GoString) (r : Reservation) (t : Settlement) : Prop where
  found : s.reservation id = some r
  status : r.status = .pending
  reservations : s'.reservationAt = Function.update s.reservationAt (Collation.weight id)
    (some { r with status := t.status })
  orders : s'.orderKey = s.orderKey
  available : ∀ p, s'.available p = s.available p + t.returned (r.quantity p)
  reserved : ∀ p, s'.reserved p = s.reserved p - r.quantity p
  log : Store.log s' = Store.log s ++ r.sortedItems.map (settleLog id t)

variable {t : Settlement} {s s' snapshot : DB}

/-- **`Confirm` and `Release`**: the reservation already has the target status and nothing
changes, or it is pending and is settled.  Either way the answer has the target status. -/
theorem transition_ok {reservationID : GoString} {a : Reservation}
    (h : (transition reservationID t).exec s = .ok (a, s')) :
    trimSpace reservationID ≠ [] ∧ a.status = t.status ∧
      ((s.reservation (trimSpace reservationID) = some a ∧ s' = s) ∨
        ∃ r, a = { r with status := t.status } ∧
          Settled s s' (trimSpace reservationID) r t) := by
  simp only [transition] at h
  split at h
  · exact absurd h (by simp)
  · rename_i hid
    refine ⟨hid, ?_⟩
    simp only [exec_getReservation_bind] at h
    split at h
    · exact absurd h (by simp)
    · rename_i r hr
      split at h
      · rename_i hst
        simp only [Txn.exec_pure, Except.ok.injEq, Prod.mk.injEq] at h
        rw [← h.1]
        exact ⟨hst, Or.inl ⟨hr, h.2.symm⟩⟩
      · split at h
        · exact absurd h (by simp)
        · rename_i hst hpend
          obtain ⟨u, s₁, hloop, h⟩ := Txn.exec_bind_ok h
          have hl := settleItems_ok _ hloop
          simp only [exec_setReservation_bind, Txn.exec_pure, Except.ok.injEq,
            Prod.mk.injEq] at h
          obtain ⟨rfl, rfl⟩ := h
          have hq : ∀ p, lineSum (r.sortedItems.map (·.line)) p = r.quantity p := fun p =>
            lineSum_perm (r.sortedItems_perm.map _) p
          refine ⟨rfl, Or.inr ⟨r, rfl, hr, not_not.mp hpend, ?_, ?_, fun p => ?_, fun p => ?_, ?_⟩⟩
          · rw [DB.putReservation_reservationAt, hl.reservations]
          · rw [DB.putReservation_orderKey, hl.orders]
          · rw [DB.putReservation_available, hl.available, ← hq p]; rfl
          · rw [DB.putReservation_reserved, hl.reserved, ← hq p]; rfl
          · rw [DB.putReservation_log, hl.log]; rfl

/-! ## 6. Every request -/

/-- The reservation id and the target of a `Confirm` or `Release`. -/
def Request.settles : Request → Option (GoString × Settlement)
  | .confirm id => some (id, .confirm)
  | .release id => some (id, .release)
  | .init _ _ => none
  | .add _ _ => none
  | .reserve _ _ => none

/-- What a committed request has done, besides answering. -/
inductive Effect (snapshot s : DB) : Request → Answer → DB → Prop
  /-- `Init` and `Add` -/
  | supplied {req : Request} {p q : Int} {row : Inventory} {s' : DB}
      (hreq : req = .init p q ∨ req = .add p q) (h : Supplied s s' p q) :
      Effect snapshot s req (.inventory row) s'
  /-- `Reserve` for an order the snapshot has a reservation for -/
  | existing {generated : GoString} {req : ReserveRequest} {r : Reservation}
      (ho : 0 < req.orderID) (hitems : (normalizeItems req.items).isSome)
      (h : snapshot.reservationOf req.orderID = some r) :
      Effect snapshot s (.reserve generated req) (.reservation r) s
  /-- `Reserve` for a new order -/
  | placed {generated : GoString} {req : ReserveRequest} {r : Reservation} {s' : DB}
      (ho : 0 < req.orderID) (hid : r.id = reservationIDFor generated req)
      (hord : r.orderID = req.orderID)
      (hitems : normalizeItems req.items = some (r.items.map (·.line))) (h : Placed s s' r) :
      Effect snapshot s (.reserve generated req) (.reservation r) s'
  /-- `Confirm` or `Release` of a reservation that is settled so already -/
  | kept {req : Request} {id : GoString} {t : Settlement} {r : Reservation}
      (hreq : req.settles = some (id, t)) (hid : trimSpace id ≠ []) (hst : r.status = t.status)
      (h : s.reservation (trimSpace id) = some r) :
      Effect snapshot s req (.reservation r) s
  /-- `Confirm` or `Release` of a pending reservation -/
  | settled {req : Request} {id : GoString} {t : Settlement} {r : Reservation} {s' : DB}
      (hreq : req.settles = some (id, t)) (hid : trimSpace id ≠ [])
      (h : Settled s s' (trimSpace id) r t) :
      Effect snapshot s req (.reservation { r with status := t.status }) s'

variable {req : Request}

theorem effect_of_transition {id : GoString} {r : Reservation} (hreq : req.settles = some (id, t))
    (h : (transition id t).exec s = .ok (r, s')) :
    Effect snapshot s req (.reservation r) s' := by
  obtain ⟨hid, hst, ⟨hr, rfl⟩ | ⟨r₀, rfl, hset⟩⟩ := transition_ok h
  · exact .kept hreq hid hst hr
  · exact .settled hreq hid hset

/-- **Every committed request has one of these effects.** -/
theorem prog_effect {a : Answer} (h : (req.prog snapshot).exec s = .ok (a, s')) :
    Effect snapshot s req a s' := by
  cases req with
  | init p q =>
    obtain ⟨row, t, hp, h⟩ := Txn.exec_bind_ok h
    simp only [Txn.exec_pure, Except.ok.injEq, Prod.mk.injEq] at h
    obtain ⟨rfl, rfl⟩ := h
    exact .supplied (Or.inl rfl) (init_ok hp)
  | add p q =>
    obtain ⟨row, t, hp, h⟩ := Txn.exec_bind_ok h
    simp only [Txn.exec_pure, Except.ok.injEq, Prod.mk.injEq] at h
    obtain ⟨rfl, rfl⟩ := h
    exact .supplied (Or.inr rfl) (add_ok hp)
  | reserve generated req =>
    obtain ⟨r, t, hp, h⟩ := Txn.exec_bind_ok h
    simp only [Txn.exec_pure, Except.ok.injEq, Prod.mk.injEq] at h
    obtain ⟨rfl, rfl⟩ := h
    obtain ⟨ho, hsome, ⟨hex, rfl⟩ | ⟨-, hpl, hid, -, hord, hitems⟩⟩ := reserve_ok hp
    · exact .existing ho hsome hex
    · exact .placed ho hid hord hitems hpl
  | confirm id | release id =>
    obtain ⟨r, t, hp, h⟩ := Txn.exec_bind_ok h
    simp only [Txn.exec_pure, Except.ok.injEq, Prod.mk.injEq] at h
    obtain ⟨rfl, rfl⟩ := h
    exact effect_of_transition rfl hp

/-- A `Confirm` or `Release` that commits changes nothing or settles a pending reservation. -/
theorem Effect.settle {a : Answer} (h : Effect snapshot s req a s') {id : GoString}
    (hreq : req.settles = some (id, t)) : s' = s ∨ ∃ r, Settled s s' (trimSpace id) r t := by
  cases h with
  | supplied hreq' hs =>
    rcases hreq' with rfl | rfl <;> exact absurd hreq (by simp [Request.settles])
  | existing ho hitems hr => exact Or.inl rfl
  | kept hreq' hid hst hr => exact Or.inl rfl
  | placed ho hid hord hitems hp => exact absurd hreq (by simp [Request.settles])
  | settled hreq' hid hs =>
    rw [hreq', Option.some.injEq, Prod.mk.injEq] at hreq
    obtain ⟨rfl, rfl⟩ := hreq
    exact Or.inr ⟨_, hs⟩

end

end OrderSystem.InventorySvc
