/-
# The inventory service

`internal/inventorysvc/inventory.go` over the tables of `migrations/inventory`: stock rows,
reservations with their items, and the stock log.  Every operation is one database
transaction, and each is written here statement by statement as a program of `Kit/Txn.lean`:
`init`, `add`, `reserve` and `transition`, the common body of `confirm` and `release`.

The rows are the database's.  A `CHECK`, `UNIQUE` or range constraint of the schema is a field
of the row's structure, so a row that breaks one cannot be built; a statement that would write
one is the error the database reports (`Err.storage`), and the transaction is rolled back.
Reservations are reached through two unique indexes, the primary key (`Key.reservation`, by
the collation weight of the id) and `uk_inventory_reservation_order` (`Key.order`); a
reservation's items are kept in its row, where `Preload("Items")` puts them.

Left out: the time stamps and the server-assigned row ids of items and log entries, which no
statement of these operations reads.
-/
import OrderSystem.Platform
import OrderSystem.Kit.Locking

namespace OrderSystem.InventorySvc

open OrderSystem.Kit

/-! ## 1. Rows -/

/-- A row of `inventory_items`, with `chk_inventory_available`, `chk_inventory_reserved` and
the range of its columns. -/
structure Inventory where
  availableQuantity : Int
  reservedQuantity : Int
  version : Int
  available_nonneg : 0 ≤ availableQuantity
  reserved_nonneg : 0 ≤ reservedQuantity
  available_range : InBigint availableQuantity
  reserved_range : InBigint reservedQuantity
  version_range : InBigint version
  deriving DecidableEq

/-- The row with these values, or `none` when the database refuses them. -/
def Inventory.checked (available reserved version : Int) : Option Inventory :=
  if h : (0 ≤ available ∧ 0 ≤ reserved) ∧
      InBigint available ∧ InBigint reserved ∧ InBigint version then
    some ⟨available, reserved, version, h.1.1, h.1.2, h.2.1, h.2.2.1, h.2.2.2⟩
  else none

/-- `ReservationPending`, `ReservationConfirmed`, `ReservationReleased`. -/
inductive ReservationStatus where
  | pending
  | confirmed
  | released
  deriving DecidableEq, Repr

/-- A row of `inventory_reservation_items`, with `chk_inventory_reservation_quantity`. -/
structure ReservationItem where
  productID : Int
  quantity : Int
  quantity_pos : 0 < quantity
  deriving DecidableEq

/-- A row of `inventory_reservations` with its items; `uk_reservation_product` is the last
field. -/
structure Reservation where
  id : GoString
  orderID : Int
  status : ReservationStatus
  items : List ReservationItem
  items_nodup : (items.map ReservationItem.productID).Nodup
  deriving DecidableEq

/-- The values `change_type` takes. -/
inductive ChangeType where
  /-- `"initialize"` -/
  | initialized
  | add
  | reserve
  | confirm
  | release
  deriving DecidableEq, Repr

/-- A row of `inventory_stock_logs`. -/
structure StockLog where
  productID : Int
  changeType : ChangeType
  quantity : Int
  referenceID : GoString
  deriving DecidableEq

/-! ## 2. The database -/

/-- The index entries a statement can lock. -/
inductive Key where
  /-- primary key of `inventory_items` -/
  | item (productID : Int)
  /-- primary key of `inventory_reservations`, by weight -/
  | reservation (weight : GoString)
  /-- `uk_inventory_reservation_order` -/
  | order (orderID : Int)
  deriving DecidableEq

/-- What stands under an index entry, if anything does. -/
abbrev Row : Key → Type
  | .item _ => Option Inventory
  | .reservation _ => Option Reservation
  | .order _ => Option GoString

/-- The errors the operations return. -/
inductive Err where
  /-- `ErrInventoryNotFound`; `reserve` appends the product -/
  | inventoryNotFound (productID : Option Int)
  /-- `ErrInsufficientInventory: product %d` -/
  | insufficientInventory (productID : Int)
  /-- `ErrReservationNotFound` -/
  | reservationNotFound
  /-- `ErrReservationTransition` -/
  | reservationTransition
  /-- `ErrInvalidInventoryAmount` -/
  | invalidInventoryAmount
  /-- any error of the database itself -/
  | storage
  deriving DecidableEq

abbrev DB := Store Row StockLog
abbrev Tx := Txn Row StockLog Err

namespace DB

/-- The stock row of a product. -/
def item (s : DB) (productID : Int) : Option Inventory := s.row (.item productID)

/-- The reservation under a primary-key weight. -/
def reservationAt (s : DB) (w : GoString) : Option Reservation := s.row (.reservation w)

/-- The reservation id the order index holds for an order. -/
def orderKey (s : DB) (orderID : Int) : Option GoString := s.row (.order orderID)

variable [Collation]

/-- `First(&reservation, "id = ?", id)`. -/
def reservation (s : DB) (id : GoString) : Option Reservation :=
  s.reservationAt (Collation.weight id)

/-- `First(&existing, "order_id = ?", orderID)`. -/
def reservationOf (s : DB) (orderID : Int) : Option Reservation :=
  (s.orderKey orderID).bind fun id => s.reservation id

/-- The database before the first request. -/
def empty : DB where
  row
    | .item _ => none
    | .reservation _ => none
    | .order _ => none
  log := []

end DB

/-! ## 3. Statements -/

/-- `SELECT … FROM inventory_items WHERE product_id = ? FOR UPDATE`. -/
def getItem (productID : Int) : Tx (Option Inventory) := Txn.get (Key.item productID)

/-- Write a stock row. -/
def setItem (productID : Int) (row : Inventory) : Tx Unit :=
  Txn.set (V := Row) (Key.item productID) (some row)

/-- The order index, read by the uniqueness check of an insert. -/
def getOrderKey (orderID : Int) : Tx (Option GoString) := Txn.get (Key.order orderID)

/-- Enter an order into the order index. -/
def setOrderKey (orderID : Int) (id : GoString) : Tx Unit :=
  Txn.set (V := Row) (Key.order orderID) (some id)

/-- `UPDATE inventory_items SET … WHERE product_id = ? AND cond`, giving `RowsAffected`.  `set`
computes the new row, if the database accepts it; every caller increments `version`, so a row
that matches is a row that changes. -/
def updateItem (productID : Int) (cond : Inventory → Bool) (set : Inventory → Option Inventory) :
    Tx Nat := do
  match ← getItem productID with
  | none => pure 0
  | some row =>
    if cond row then
      match set row with
      | none => .fail .storage
      | some row' => do
        setItem productID row'
        pure 1
    else pure 0

section

variable [Collation]

/-- A locking read of a reservation by id. -/
def getReservation (id : GoString) : Tx (Option Reservation) :=
  Txn.get (Key.reservation (Collation.weight id))

/-- Write a reservation row. -/
def setReservation (id : GoString) (row : Reservation) : Tx Unit :=
  Txn.set (V := Row) (Key.reservation (Collation.weight id)) (some row)

/-- `tx.Create(&Reservation{…})`: both unique indexes are checked, and the id must fit its
`VARCHAR(36)` column. -/
def insertReservation (id : GoString) (orderID : Int) : Tx Unit := do
  if 36 < charCount id then .fail .storage
  else
    match ← getReservation id with
    | some _ => .fail .storage
    | none =>
      match ← getOrderKey orderID with
      | some _ => .fail .storage
      | none => do
        setReservation id ⟨id, orderID, .pending, [], List.nodup_nil⟩
        setOrderKey orderID id

/-- A reservation row with one more item, unless `chk_inventory_reservation_quantity` or
`uk_reservation_product` refuses it. -/
def Reservation.insertItem (row : Reservation) (item : ItemRequest) : Option Reservation :=
  if h : 0 < item.quantity ∧ item.productID ∉ row.items.map ReservationItem.productID then
    some { row with
      items := row.items ++ [⟨item.productID, item.quantity, h.1⟩]
      items_nodup := by
        rw [List.map_append, List.nodup_append]
        refine ⟨row.items_nodup, List.nodup_singleton _, ?_⟩
        intro a ha b hb
        rw [List.map_cons, List.map_nil, List.mem_singleton] at hb
        intro hab
        rw [hab, hb] at ha
        exact h.2 ha }
  else none

/-- `tx.Create(&ReservationItem{…})`; the foreign key needs the reservation to exist. -/
def insertReservationItem (reservationID : GoString) (item : ItemRequest) : Tx Unit := do
  match ← getReservation reservationID with
  | none => .fail .storage
  | some row =>
    match row.insertItem item with
    | none => .fail .storage
    | some row' => setReservation reservationID row'

end

/-! ## 4. The operations -/

/-- `Service.Init`. -/
def init (productID quantity : Int) : Tx Inventory := do
  if productID ≤ 0 ∨ quantity < 0 then .fail .invalidInventoryAmount
  else
    -- `tx.Create(inventory)`: the primary key must be free
    match ← getItem productID with
    | some _ => .fail .storage
    | none =>
      match Inventory.checked quantity 0 0 with
      | none => .fail .storage
      | some row => do
        setItem productID row
        Txn.push ⟨productID, .initialized, quantity, []⟩
        pure row

/-- `Service.Add`. -/
def add (productID quantity : Int) : Tx Inventory := do
  if productID ≤ 0 ∨ quantity ≤ 0 then .fail .invalidInventoryAmount
  else
    match ← getItem productID with
    | none => .fail (.inventoryNotFound none)
    | some _ => do
      let _ ← updateItem productID (fun _ => true) fun row =>
        Inventory.checked (row.availableQuantity + quantity) row.reservedQuantity (row.version + 1)
      Txn.push ⟨productID, .add, quantity, []⟩
      match ← getItem productID with
      | none => .fail .storage
      | some inventory => pure inventory

/-- `normalizeItems`. -/
def normalizeItems (items : List ItemRequest) : Option (List ItemRequest) :=
  if items.length = 0 ∨ 100 < items.length then none
  else (aggregate [] items).map Quantities.sorted

/-- `ReserveRequest`. -/
structure ReserveRequest where
  orderID : Int
  reservationID : GoString
  items : List ItemRequest
  deriving DecidableEq

section

variable [Collation]

/-- The body of the item loop of `Service.Reserve`. -/
def reserveItem (reservationID : GoString) (item : ItemRequest) : Tx Unit := do
  match ← getItem item.productID with
  | none => .fail (.inventoryNotFound (some item.productID))
  | some inventory =>
    if inventory.availableQuantity < item.quantity then
      .fail (.insufficientInventory item.productID)
    else do
      let affected ← updateItem item.productID
        (fun row => decide (item.quantity ≤ row.availableQuantity)) fun row =>
          Inventory.checked (row.availableQuantity - item.quantity)
            (row.reservedQuantity + item.quantity) (row.version + 1)
      if affected ≠ 1 then .fail (.insufficientInventory item.productID)
      else do
        insertReservationItem reservationID item
        Txn.push ⟨item.productID, .reserve, -item.quantity, reservationID⟩

/-- The item loop of `Service.Reserve`. -/
def reserveItems (reservationID : GoString) : List ItemRequest → Tx Unit
  | [] => pure ()
  | item :: items => do
    reserveItem reservationID item
    reserveItems reservationID items

/-- The id `Service.Reserve` works with: the caller's, or a generated one. -/
def reservationIDFor (generated : GoString) (req : ReserveRequest) : GoString :=
  if trimSpace req.reservationID = [] then generated else trimSpace req.reservationID

/-- `Service.Reserve`.  The transaction opens with a plain `SELECT` of the order's reservation,
which takes no lock: it is answered from `snapshot`.  `generated` is what `uuid.NewString()`
returns when the request carries no id. -/
def reserve (generated : GoString) (req : ReserveRequest) (snapshot : DB) : Tx Reservation :=
  match normalizeItems req.items with
  | none => .fail .invalidInventoryAmount
  | some items =>
    if req.orderID ≤ 0 then .fail .invalidInventoryAmount
    else
      match snapshot.reservationOf req.orderID with
      | some existing => pure existing
      | none => do
        insertReservation (reservationIDFor generated req) req.orderID
        reserveItems (reservationIDFor generated req) items
        match ← getReservation (reservationIDFor generated req) with
        | none => .fail .storage
        | some result => pure result

/-- The two targets `transition` is called with. -/
inductive Settlement where
  | confirm
  | release
  deriving DecidableEq, Repr

/-- The status a settlement gives a reservation. -/
def Settlement.status : Settlement → ReservationStatus
  | .confirm => .confirmed
  | .release => .released

/-- The `change_type` a settlement logs. -/
def Settlement.changeType : Settlement → ChangeType
  | .confirm => .confirm
  | .release => .release

/-- What a settlement adds to `available_quantity` for an item of this quantity. -/
def Settlement.returned : Settlement → Int → Int
  | .confirm, _ => 0
  | .release, quantity => quantity

/-- The quantity a settlement logs for an item. -/
def Settlement.logQuantity : Settlement → Int → Int
  | .confirm, quantity => -quantity
  | .release, quantity => quantity

/-- The body of the item loop of `Service.transition`. -/
def settleItem (reservationID : GoString) (target : Settlement) (item : ReservationItem) :
    Tx Unit := do
  match ← getItem item.productID with
  | none => .fail .storage
  | some _ => do
    let affected ← updateItem item.productID
      (fun row => decide (item.quantity ≤ row.reservedQuantity)) fun row =>
        Inventory.checked (row.availableQuantity + target.returned item.quantity)
          (row.reservedQuantity - item.quantity) (row.version + 1)
    if affected ≠ 1 then .fail .reservationTransition
    else Txn.push ⟨item.productID, target.changeType, target.logQuantity item.quantity,
      reservationID⟩

/-- The item loop of `Service.transition`. -/
def settleItems (reservationID : GoString) (target : Settlement) :
    List ReservationItem → Tx Unit
  | [] => pure ()
  | item :: items => do
    settleItem reservationID target item
    settleItems reservationID target items

/-- `Service.transition`.  The items come from `Preload` after the reservation's row is locked,
and are sorted by product before the stock rows are touched. -/
def transition (reservationID : GoString) (target : Settlement) : Tx Reservation := do
  let id := trimSpace reservationID
  if id = [] then .fail .reservationNotFound
  else
    match ← getReservation id with
    | none => .fail .reservationNotFound
    | some reservation =>
      if reservation.status = target.status then pure reservation
      else if reservation.status ≠ .pending then .fail .reservationTransition
      else do
        settleItems id target (reservation.items.insertionSort (·.productID ≤ ·.productID))
        setReservation id { reservation with status := target.status }
        pure { reservation with status := target.status }

/-- `Service.Confirm`. -/
def confirm (reservationID : GoString) : Tx Reservation := transition reservationID .confirm

/-- `Service.Release`. -/
def release (reservationID : GoString) : Tx Reservation := transition reservationID .release

/-! ## 5. Requests -/

/-- A request to the service. -/
inductive Request where
  | init (productID quantity : Int)
  | add (productID quantity : Int)
  | reserve (generated : GoString) (req : ReserveRequest)
  | confirm (reservationID : GoString)
  | release (reservationID : GoString)
  deriving DecidableEq

/-- What a successful request returns. -/
inductive Answer where
  | inventory (row : Inventory)
  | reservation (row : Reservation)
  deriving DecidableEq

/-- The transaction a request runs, when the last committed state at its start was
`snapshot`. -/
def Request.prog : Request → DB → Tx Answer
  | .init productID quantity, _ => do pure (.inventory (← InventorySvc.init productID quantity))
  | .add productID quantity, _ => do pure (.inventory (← InventorySvc.add productID quantity))
  | .reserve generated req, snapshot => do
    pure (.reservation (← InventorySvc.reserve generated req snapshot))
  | .confirm id, _ => do pure (.reservation (← InventorySvc.confirm id))
  | .release id, _ => do pure (.reservation (← InventorySvc.release id))

/-- The service with its database and its concurrent transactions. -/
abbrev Service := Sys Row StockLog Err Answer Request

/-- One step of the service: a statement, a commit or an abort of one of its transactions, or
the start of a new one. -/
abbrev step : Service → LockEvent Request → Option Service := lockStep Request.prog

/-- The service before its first request. -/
abbrev start : Service := Sys.init DB.empty

end

end OrderSystem.InventorySvc
