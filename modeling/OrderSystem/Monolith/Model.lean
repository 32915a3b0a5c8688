/-
# The monolith

`internal/service/order_service.go` and `inventory_service.go` over the tables of `migrations/`:
orders with their items, the idempotency keys and the timeout outbox of order creation, stock
rows and the stock log.  Each operation is a program of `Kit/Txn.lean`, statement by statement.

As for the inventory service, a row carries the `CHECK` constraints of its table as fields, and
a statement that would break one is an error.  A plain `SELECT` takes no lock.  Those that open
an operation are answered from the committed state at its start (`snapshot`): the order and the
items in `CancelOrder` and `CancelExpiredOrder`, the order in `PayOrder` and `FinishOrder`, the
stock row in `InitInventory`.  `INSERT … ON DUPLICATE KEY UPDATE id = id`, which is how the
insert-or-ignore of an idempotency key reaches MySQL, locks the index entry whether or not the
key was there, so the `SELECT` of the key that follows reads a row that is held.

What the environment decides comes with the request (`CreateContext`): the rows of `products`,
which no operation here writes, the id that `AUTO_INCREMENT` hands out, the generated texts and
the clock.  An id that is taken, or not positive, is not handed out.

A request body is what the handler's binding rules let through (`CreateOrderRequest` and so on).

Left out: time stamps that nothing reads, and the server-assigned ids of items, keys, log entries
and outbox rows.
-/
import OrderSystem.Platform
import OrderSystem.Kit.Locking

namespace OrderSystem.Monolith

open OrderSystem.Kit

/-! ## 1. Rows -/

/-- `OrderStatusPending`, `OrderStatusPaid`, `OrderStatusFinished`, `OrderStatusCancelled`. -/
inductive OrderStatus where
  | pending
  | paid
  | finished
  | cancelled
  deriving DecidableEq

/-- A row of `orders`. -/
structure Order where
  userID : Int
  orderNo : GoString
  totalAmountFen : Int
  status : OrderStatus
  total_nonneg : 0 ≤ totalAmountFen

/-- A row of `order_items`. -/
structure OrderItem where
  productID : Int
  productName : GoString
  productPriceFen : Int
  quantity : Int
  subtotalFen : Int
  price_pos : 0 < productPriceFen
  quantity_pos : 0 < quantity
  subtotal_pos : 0 < subtotalFen

/-- The item with these values, or `none` when the database refuses them. -/
def OrderItem.checked (productID : Int) (productName : GoString)
    (productPriceFen quantity subtotalFen : Int) : Option OrderItem :=
  if h : 0 < productPriceFen ∧ 0 < quantity ∧ 0 < subtotalFen then
    some ⟨productID, productName, productPriceFen, quantity, subtotalFen, h.1, h.2.1, h.2.2⟩
  else none

/-- A row of `product_inventories`. -/
structure Inventory where
  stockQuantity : Int
  stock_nonneg : 0 ≤ stockQuantity
  stock_range : stockQuantity ≤ maxInt64

def Inventory.checked (stockQuantity : Int) : Option Inventory :=
  if h : 0 ≤ stockQuantity ∧ stockQuantity ≤ maxInt64 then some ⟨stockQuantity, h.1, h.2⟩
  else none

/-- `StockBizInit`, `StockBizManualAdd`, `StockBizOrderDeduct`, `StockBizOrderRollback`. -/
inductive StockBiz where
  | init
  | manualAdd
  | orderDeduct
  | orderRollback
  deriving DecidableEq

/-- A row of `stock_logs`. -/
structure StockLog where
  productID : Int
  changeQuantity : Int
  beforeQuantity : Int
  afterQuantity : Int
  bizType : StockBiz
  bizID : Option Int
  remark : GoString
  before_nonneg : 0 ≤ beforeQuantity
  after_nonneg : 0 ≤ afterQuantity
  balance : afterQuantity = beforeQuantity + changeQuantity

def StockLog.checked (productID changeQuantity beforeQuantity afterQuantity : Int)
    (bizType : StockBiz) (bizID : Option Int) (remark : GoString) : Option StockLog :=
  if h : 0 ≤ beforeQuantity ∧ 0 ≤ afterQuantity ∧
      afterQuantity = beforeQuantity + changeQuantity then
    some ⟨productID, changeQuantity, beforeQuantity, afterQuantity, bizType, bizID, remark,
      h.1, h.2.1, h.2.2⟩
  else none

/-- `OrderBeingCreated`, `OrderAlreadyCreated`. -/
inductive KeyStatus where
  | orderBeingCreated
  | orderAlreadyCreated
  deriving DecidableEq

/-- A row of `order_idempotency_keys`. -/
structure OrderIdempotencyKey where
  requestHash : GoString
  orderID : Option Int
  status : KeyStatus
  deriving DecidableEq

/-- A row of `order_timeout_outbox`. -/
structure OrderTimeoutOutbox where
  eventID : GoString
  userID : Int
  timeoutAt : Int
  deriving DecidableEq

/-! ## 2. The database -/

/-- The index entries a statement can lock. -/
inductive Key where
  /-- `uk_user_id_idempotency_key`, by weight -/
  | idempotency (userID : Int) (weight : GoString)
  /-- primary key of `orders` -/
  | order (id : Int)
  /-- the items of an order -/
  | items (orderID : Int)
  /-- `uk_order_timeout_outbox_order_id` -/
  | outbox (orderID : Int)
  /-- `uk_inventory_product_id` -/
  | inventory (productID : Int)
  deriving DecidableEq

abbrev Row : Key → Type
  | .idempotency _ _ => Option OrderIdempotencyKey
  | .order _ => Option Order
  | .items _ => List OrderItem
  | .outbox _ => Option OrderTimeoutOutbox
  | .inventory _ => Option Inventory

/-- The errors of the services. -/
inductive Err where
  | invalidUserID
  | invalidIdempotencyKey
  | orderIdempotencyConflict
  | orderBeingCreated
  | orderIdempotencyStateInvalid
  | duplicateOrderItem
  | productNotFound
  | productOffSale
  | inventoryNotFound
  | insufficientStock
  | createStockLogFailed
  | orderNotFound
  | orderAlreadyPaid
  | orderAlreadyFinished
  | orderAlreadyCanceled
  | orderNotPaid
  | orderCancelFailed
  | orderPayFailed
  | orderFinishFailed
  /-- `"order timeout deadline has not been reached"` -/
  | timeoutNotReached
  | initInventoryExists
  | initInventoryFailed
  /-- `gorm.ErrRecordNotFound` -/
  | recordNotFound
  /-- any error of the database itself -/
  | storage
  deriving DecidableEq

abbrev DB := Store Row StockLog
abbrev Tx := Txn Row StockLog Err

namespace DB

/-- The row under a user and the weight of an idempotency key. -/
def keyAt (s : DB) (key : Int × GoString) : Option OrderIdempotencyKey :=
  s.row (.idempotency key.1 key.2)

def order (s : DB) (id : Int) : Option Order := s.row (.order id)

def itemsOf (s : DB) (orderID : Int) : List OrderItem := s.row (.items orderID)

def outboxOf (s : DB) (orderID : Int) : Option OrderTimeoutOutbox := s.row (.outbox orderID)

def inventory (s : DB) (productID : Int) : Option Inventory := s.row (.inventory productID)

/-- The database before the first request. -/
def empty : DB where
  row
    | .idempotency _ _ => none
    | .order _ => none
    | .items _ => []
    | .outbox _ => none
    | .inventory _ => none
  log := []

end DB

/-! ## 3. Statements -/

/-- `GetInventoryByProductIDForUpdate`. -/
def getInventory (productID : Int) : Tx (Option Inventory) := Txn.get (Key.inventory productID)

def setInventory (productID : Int) (row : Inventory) : Tx Unit :=
  Txn.set (V := Row) (Key.inventory productID) (some row)

def getOrder (id : Int) : Tx (Option Order) := Txn.get (Key.order id)

def setOrder (id : Int) (row : Order) : Tx Unit := Txn.set (V := Row) (Key.order id) (some row)

def getKey (userID : Int) (weight : GoString) : Tx (Option OrderIdempotencyKey) :=
  Txn.get (Key.idempotency userID weight)

def setKey (userID : Int) (weight : GoString) (row : OrderIdempotencyKey) : Tx Unit :=
  Txn.set (V := Row) (Key.idempotency userID weight) (some row)

/-- `CreateStockLog`, with the error that its caller makes of a failure. -/
def createStockLog (log : Option StockLog) (err : Err) : Tx Unit :=
  match log with
  | none => .fail err
  | some row => Txn.push row

/-- `DeductInventory`, giving `RowsAffected`. -/
def deductInventory (productID quantity : Int) : Tx Nat := do
  match ← getInventory productID with
  | none => pure 0
  | some row =>
    if quantity ≤ row.stockQuantity then
      match Inventory.checked (row.stockQuantity - quantity) with
      | none => .fail .storage
      | some row' => do
        setInventory productID row'
        pure 1
    else pure 0

/-- `UpdateInventoryStockQuantity`.  Its callers write a quantity that differs from the row's. -/
def updateInventoryStockQuantity (productID stockQuantity : Int) : Tx Unit := do
  match ← getInventory productID with
  | none => .fail .recordNotFound
  | some _ =>
    match Inventory.checked stockQuantity with
    | none => .fail .storage
    | some row => setInventory productID row

/-- `dao.CreateOrder`: the row gets the next id, and has no items. -/
def insertOrder (id : Int) (row : Order) : Tx Unit := do
  match ← getOrder id with
  | some _ => .fail .storage
  | none =>
    if id ≤ 0 then .fail .storage
    else do
      setOrder id row
      Txn.set (V := Row) (Key.items id) []

/-- `CreateOrderItem`. -/
def createOrderItem (orderID : Int) (item : Option OrderItem) : Tx Unit :=
  match item with
  | none => .fail .storage
  | some row => do
    let items ← Txn.get (V := Row) (Key.items orderID)
    Txn.set (V := Row) (Key.items orderID) (items ++ [row])

/-- `PatchOrderTotalPriceFen`. -/
def patchOrderTotalPriceFen (orderID totalPriceFen userID : Int) : Tx Unit := do
  match ← getOrder orderID with
  | none => pure ()
  | some row =>
    if row.userID = userID then
      if h : 0 ≤ totalPriceFen then
        setOrder orderID { row with totalAmountFen := totalPriceFen, total_nonneg := h }
      else .fail .storage
    else pure ()

/-- `PatchOrderStatus`, giving `RowsAffected`. -/
def patchOrderStatus (userID orderID : Int) (fromStatus toStatus : OrderStatus) : Tx Nat := do
  match ← getOrder orderID with
  | none => pure 0
  | some row =>
    if row.userID = userID ∧ row.status = fromStatus then do
      setOrder orderID { row with status := toStatus }
      pure 1
    else pure 0

/-- `CreateOrderTimeoutOutbox`. -/
def createOrderTimeoutOutbox (orderID : Int) (row : OrderTimeoutOutbox) : Tx Unit := do
  match ← Txn.get (V := Row) (Key.outbox orderID) with
  | some _ => .fail .storage
  | none => Txn.set (V := Row) (Key.outbox orderID) (some row)

/-- `TryCreateOrderIdempotencyKey`: whether the key is new. -/
def tryCreateOrderIdempotencyKey (userID : Int) (weight requestHash : GoString) : Tx Bool := do
  match ← getKey userID weight with
  | some _ => pure false
  | none => do
    setKey userID weight ⟨requestHash, none, .orderBeingCreated⟩
    pure true

/-- `CompleteOrderIdempotencyKey`, giving `RowsAffected`. -/
def completeOrderIdempotencyKey (userID : Int) (weight : GoString) (orderID : Int) : Tx Nat := do
  match ← getKey userID weight with
  | none => pure 0
  | some row =>
    if row.status = .orderBeingCreated then do
      setKey userID weight { row with orderID := some orderID, status := .orderAlreadyCreated }
      pure 1
    else pure 0

/-! ## 4. Stock -/

/-- A row of `products`; the row found by an id has that id. -/
structure Product where
  name : GoString
  priceFen : Int
  onSale : Bool
  deriving DecidableEq

/-- `InitInventoryRequest` after binding. -/
structure InitInventoryRequest where
  productID : Int
  stockQuantity : Int
  product_pos : 0 < productID
  stock_nonneg : 0 ≤ stockQuantity

/-- The binding of a body, which refuses one that breaks the rules. -/
def InitInventoryRequest.bind (productID stockQuantity : Int) : Option InitInventoryRequest :=
  if h : 0 < productID ∧ 0 ≤ stockQuantity then some ⟨productID, stockQuantity, h.1, h.2⟩
  else none

/-- `AddInventoryRequest` after binding. -/
structure AddInventoryRequest where
  productID : Int
  quantity : Int
  product_pos : 0 < productID
  quantity_pos : 0 < quantity
  quantity_range : quantity ≤ maxInt64

/-- `InitInventory`; the checks of the quantity are those of the binding. -/
def initInventory (product : Option Product) (req : InitInventoryRequest) (snapshot : DB) :
    Tx Unit :=
  match product with
  | none => .fail .productNotFound
  | some product =>
    match snapshot.inventory req.productID with
    | some _ => .fail .initInventoryExists
    | none => do
      match ← getInventory req.productID with
      | some _ => .fail .initInventoryFailed
      | none =>
        match Inventory.checked req.stockQuantity with
        | none => .fail .initInventoryFailed
        | some row => do
          setInventory req.productID row
          createStockLog (StockLog.checked req.productID req.stockQuantity 0 req.stockQuantity
            .init none (str "初始化库存：" ++ product.name)) .createStockLogFailed

/-- `AddInventory`. -/
def addInventory (product : Option Product) (req : AddInventoryRequest) : Tx Unit := do
  match ← getInventory req.productID with
  | none => .fail .inventoryNotFound
  | some inventory =>
    match product with
    | none => .fail .productNotFound
    | some product => do
      let beforeQuantity := inventory.stockQuantity
      let afterQuantity := wrap64 (beforeQuantity + req.quantity)
      updateInventoryStockQuantity req.productID afterQuantity
      createStockLog (StockLog.checked req.productID req.quantity beforeQuantity afterQuantity
        .manualAdd none (str "手动入库：补充" ++ product.name)) .createStockLogFailed

/-! ## 5. Creating an order -/

/-- `CreateOrderRequest` after binding. -/
structure CreateOrderRequest where
  idempotencyKey : GoString
  items : List ItemRequest
  items_ne : items ≠ []
  product_pos : ∀ i ∈ items, 0 < i.productID
  quantity_pos : ∀ i ∈ items, 0 < i.quantity
  quantity_range : ∀ i ∈ items, i.quantity ≤ maxInt64

def CreateOrderRequest.bind (idempotencyKey : GoString) (items : List ItemRequest) :
    Option CreateOrderRequest :=
  if h : (items ≠ [] ∧ ∀ i ∈ items, 0 < i.productID) ∧
      (∀ i ∈ items, 0 < i.quantity) ∧ ∀ i ∈ items, i.quantity ≤ maxInt64 then
    some ⟨idempotencyKey, items, h.1.1, h.1.2, h.2.1, h.2.2⟩
  else none

/-- What the environment contributes to a `CreateOrder`. -/
structure CreateContext where
  products : Int → Option Product
  orderID : Int
  orderNo : GoString
  eventID : GoString
  timeoutAt : Int

/-- The digest of a request: the hexadecimal SHA-256 of the JSON encoding of its items.  Both are
taken to be injective. -/
class Digest where
  hash : List ItemRequest → GoString
  hash_injective : Function.Injective hash

/-- The order of `sort.Slice` in `buildCreateOrderRequestHash`. -/
def LineLE (i j : ItemRequest) : Prop :=
  if i.productID = j.productID then i.quantity ≤ j.quantity else i.productID < j.productID

instance : DecidableRel LineLE := fun _ _ => inferInstanceAs (Decidable (ite _ _ _))

def buildCreateOrderRequestHash [Digest] (items : List ItemRequest) : GoString :=
  Digest.hash (items.insertionSort LineLE)

/-- `validateDuplicateItems` finds a product twice. -/
def hasDuplicateItems (items : List ItemRequest) : Bool :=
  decide ¬ (items.map ItemRequest.productID).Nodup

/-- The body of the item loop of `CreateOrder`, giving the subtotal. -/
def createItem (env : CreateContext) (item : ItemRequest) : Tx Int :=
  match env.products item.productID with
  | none => .fail .productNotFound
  | some product =>
    if ¬ product.onSale then .fail .productOffSale
    else do
      match ← getInventory item.productID with
      | none => .fail .inventoryNotFound
      | some inv =>
        let beforeQuantity := inv.stockQuantity
        let afterQuantity := wrap64 (beforeQuantity - item.quantity)
        if afterQuantity < 0 then .fail .insufficientStock
        else do
          let rows ← deductInventory item.productID item.quantity
          if rows = 0 then .fail .insufficientStock
          else do
            let subtotalFen := wrap64 (product.priceFen * item.quantity)
            createOrderItem env.orderID (OrderItem.checked item.productID product.name
              product.priceFen item.quantity subtotalFen)
            createStockLog (StockLog.checked item.productID (-item.quantity) beforeQuantity
              afterQuantity .orderDeduct (some env.orderID)
              (str "创建订单扣减库存：" ++ env.orderNo)) .createStockLogFailed
            pure subtotalFen

/-- The item loop of `CreateOrder`, giving the total. -/
def createItems (env : CreateContext) : Int → List ItemRequest → Tx Int
  | totalAmountFen, [] => pure totalAmountFen
  | totalAmountFen, item :: items => do
    let subtotalFen ← createItem env item
    createItems env (wrap64 (totalAmountFen + subtotalFen)) items

/-- What a transaction of `CreateOrder` ends with: the id of the order it made, or of the one
that it then reads without a lock. -/
inductive Created where
  | created (orderID : Int)
  | existing (orderID : Int)
  deriving DecidableEq

section

variable [Collation] [Digest]

/-- The transaction of `CreateOrder` when the key is new. -/
def createNew (env : CreateContext) (userID : Int) (req : CreateOrderRequest) : Tx Created := do
  let weight := Collation.weight req.idempotencyKey
  insertOrder env.orderID ⟨userID, env.orderNo, 0, .pending, Int.le_refl 0⟩
  if hasDuplicateItems req.items then .fail .duplicateOrderItem
  else do
    let totalAmountFen ← createItems env 0 req.items
    patchOrderTotalPriceFen env.orderID totalAmountFen userID
    let rowsAffected ← completeOrderIdempotencyKey userID weight env.orderID
    if rowsAffected ≠ 1 then .fail .orderIdempotencyStateInvalid
    else do
      createOrderTimeoutOutbox env.orderID ⟨env.eventID, userID, env.timeoutAt⟩
      pure (.created env.orderID)

/-- The transaction of `CreateOrder` when the key is there, up to the read of the order. -/
def createAgain (userID : Int) (req : CreateOrderRequest) : Tx Created := do
  match ← getKey userID (Collation.weight req.idempotencyKey) with
  | none => .fail .recordNotFound
  | some record =>
    if record.requestHash ≠ buildCreateOrderRequestHash req.items then
      .fail .orderIdempotencyConflict
    else
      match record.status with
      | .orderAlreadyCreated =>
        match record.orderID with
        | none => .fail .orderIdempotencyStateInvalid
        | some orderID =>
          if orderID ≤ 0 then .fail .orderIdempotencyStateInvalid else pure (.existing orderID)
      | .orderBeingCreated => .fail .orderBeingCreated

/-- `CreateOrder`. -/
def createOrder (env : CreateContext) (userID : Int) (req : CreateOrderRequest) : Tx Created :=
  if userID ≤ 0 then .fail .invalidUserID
  else if trimSpace req.idempotencyKey = [] ∨ 128 < req.idempotencyKey.length then
    .fail .invalidIdempotencyKey
  else do
    let acquired ← tryCreateOrderIdempotencyKey userID (Collation.weight req.idempotencyKey)
      (buildCreateOrderRequestHash req.items)
    if acquired then createNew env userID req else createAgain userID req

end

/-- `dao.GetOrderByID`. -/
def getOrderByID (s : DB) (userID id : Int) : Option Order :=
  (s.order id).filter fun row => row.userID = userID

/-- The id of the order. -/
def Created.orderID : Created → Int
  | .created id => id
  | .existing id => id

/-- What `CreateOrder` returns of the committed state: the order it has just written, or the one
that it reads for its key, in a transaction that has written nothing. -/
def Created.reply (s : DB) (userID : Int) (c : Created) : Except Err (Int × Order) :=
  match getOrderByID s userID c.orderID with
  | none => .error .orderIdempotencyStateInvalid
  | some row => .ok (c.orderID, row)

/-! ## 6. The life of an order -/

/-- The body of the item loop of `cancelPendingOrder`. -/
def rollbackItem (orderID : Int) (remark : GoString) (item : OrderItem) : Tx Unit := do
  match ← getInventory item.productID with
  | none => .fail .recordNotFound
  | some inventory => do
    let before := inventory.stockQuantity
    let after := wrap64 (before + item.quantity)
    updateInventoryStockQuantity item.productID after
    createStockLog (StockLog.checked item.productID item.quantity before after .orderRollback
      (some orderID) remark) .storage

/-- The item loop of `cancelPendingOrder`. -/
def rollbackItems (orderID : Int) (remark : GoString) : List OrderItem → Tx Unit
  | [] => pure ()
  | item :: items => do
    rollbackItem orderID remark item
    rollbackItems orderID remark items

/-- `cancelPendingOrder`, of the order as the snapshot has it. -/
def cancelPendingOrder (orderID : Int) (order : Order) (remarkPrefix : GoString) (snapshot : DB) :
    Tx Bool := do
  let rows ← patchOrderStatus order.userID orderID .pending .cancelled
  if rows = 0 then pure false
  else do
    rollbackItems orderID (remarkPrefix ++ order.orderNo) (snapshot.itemsOf orderID)
    pure true

/-- `CancelOrder`. -/
def cancelOrder (userID orderID : Int) (snapshot : DB) : Tx Unit :=
  match getOrderByID snapshot userID orderID with
  | none => .fail .orderNotFound
  | some order =>
    match order.status with
    | .cancelled => pure ()
    | .paid => .fail .orderAlreadyPaid
    | .finished => .fail .orderAlreadyFinished
    | .pending => do
      let cancelled ← cancelPendingOrder orderID order (str "取消订单回滚库存：") snapshot
      if cancelled then pure () else .fail .orderCancelFailed

/-- `CancelExpiredOrder`, with its reading of the clock. -/
def cancelExpiredOrder [Collation] (eventID : GoString) (orderID now : Int) (snapshot : DB) :
    Tx Unit :=
  match (snapshot.outboxOf orderID).filter fun row =>
      Collation.weight row.eventID = Collation.weight eventID with
  | none => pure ()
  | some outbox =>
    if now < outbox.timeoutAt then .fail .timeoutNotReached
    else
      match snapshot.order orderID with
      | none => pure ()
      | some order =>
        if order.status ≠ .pending then pure ()
        else do
          let _ ← cancelPendingOrder orderID order (str "订单超时取消回滚库存：") snapshot
          pure ()

/-- `PayOrder`: a plain read, and then a conditional update. -/
def payOrder (userID orderID : Int) (snapshot : DB) : Tx Unit :=
  match getOrderByID snapshot userID orderID with
  | none => .fail .orderNotFound
  | some order =>
    match order.status with
    | .paid => .fail .orderAlreadyPaid
    | .finished => .fail .orderAlreadyFinished
    | .cancelled => .fail .orderAlreadyCanceled
    | .pending => do
      let row ← patchOrderStatus userID orderID .pending .paid
      if row = 0 then .fail .orderPayFailed else pure ()

/-- `FinishOrder`. -/
def finishOrder (userID orderID : Int) (snapshot : DB) : Tx Unit :=
  match getOrderByID snapshot userID orderID with
  | none => .fail .orderNotFound
  | some order =>
    match order.status with
    | .pending => .fail .orderNotPaid
    | .cancelled => .fail .orderAlreadyCanceled
    | .finished => .fail .orderAlreadyFinished
    | .paid => do
      let row ← patchOrderStatus userID orderID .paid .finished
      if row = 0 then .fail .orderFinishFailed else pure ()

/-! ## 7. Requests -/

inductive Request where
  | initInventory (product : Option Product) (req : InitInventoryRequest)
  | addInventory (product : Option Product) (req : AddInventoryRequest)
  | createOrder (env : CreateContext) (userID : Int) (req : CreateOrderRequest)
  | payOrder (userID orderID : Int)
  | finishOrder (userID orderID : Int)
  | cancelOrder (userID orderID : Int)
  | cancelExpiredOrder (eventID : GoString) (orderID now : Int)

/-- What a transaction ends with. -/
inductive Answer where
  | done
  | order (created : Created)
  deriving DecidableEq

section

variable [Collation] [Digest]

/-- The transaction of a request, when the last committed state at its start was `snapshot`. -/
def Request.prog : Request → DB → Tx Answer
  | .initInventory product req, snapshot => do
    Monolith.initInventory product req snapshot
    pure .done
  | .addInventory product req, _ => do
    Monolith.addInventory product req
    pure .done
  | .createOrder env userID req, _ => do pure (.order (← Monolith.createOrder env userID req))
  | .payOrder userID orderID, snapshot => do
    Monolith.payOrder userID orderID snapshot
    pure .done
  | .finishOrder userID orderID, snapshot => do
    Monolith.finishOrder userID orderID snapshot
    pure .done
  | .cancelOrder userID orderID, snapshot => do
    Monolith.cancelOrder userID orderID snapshot
    pure .done
  | .cancelExpiredOrder eventID orderID now, snapshot => do
    Monolith.cancelExpiredOrder eventID orderID now snapshot
    pure .done

/-- The monolith with its database and its concurrent transactions. -/
abbrev System := Sys Row StockLog Err Answer Request

abbrev step : System → LockEvent Request → Option System := lockStep Request.prog

/-- The monolith before its first request. -/
abbrev start : System := Sys.init DB.empty

end

/-! ## 8. A digest and requests to compute with -/

/-- An integer as a tally with a sign and an end. -/
def tallyInt (z : Int) : GoString := (if z < 0 then 2 else 3) :: (List.replicate z.natAbs 1 ++ [0])

theorem tally_replicate {r r' : GoString} : ∀ (n m : Nat),
    List.replicate n 1 ++ 0 :: r = List.replicate m 1 ++ 0 :: r' → n = m ∧ r = r'
  | 0, 0, h => ⟨rfl, (List.cons.inj h).2⟩
  | 0, m + 1, h => absurd (List.cons.inj h).1 (by decide)
  | n + 1, 0, h => absurd (List.cons.inj h).1 (by decide)
  | n + 1, m + 1, h => by
    obtain ⟨hn, hr⟩ := tally_replicate n m (List.cons.inj h).2
    exact ⟨congrArg (· + 1) hn, hr⟩

/-- A tally can be read off the front of a text. -/
theorem tallyInt_append {z z' : Int} {r r' : GoString} (h : tallyInt z ++ r = tallyInt z' ++ r') :
    z = z' ∧ r = r' := by
  simp only [tallyInt, List.cons_append, List.append_assoc, List.nil_append] at h
  obtain ⟨hsign, hrest⟩ := List.cons.inj h
  obtain ⟨habs, hr⟩ := tally_replicate _ _ hrest
  refine ⟨?_, hr⟩
  split at hsign
  · split at hsign
    · omega
    · exact absurd hsign (by decide)
  · split at hsign
    · exact absurd hsign (by decide)
    · omega

def tally (items : List ItemRequest) : GoString :=
  items.flatMap fun i => tallyInt i.productID ++ tallyInt i.quantity

theorem tally_injective : Function.Injective tally
  | [], [], _ => rfl
  | [], i :: items, h => absurd h (by simp [tally, tallyInt])
  | i :: items, [], h => absurd h (by simp [tally, tallyInt])
  | i :: items, j :: items', h => by
    simp only [tally, List.flatMap_cons, List.append_assoc] at h
    obtain ⟨hp, h⟩ := tallyInt_append h
    obtain ⟨hq, h⟩ := tallyInt_append h
    have hij : i = j := by
      cases i
      cases j
      simp_all
    rw [hij, tally_injective h]

abbrev tallyDigest : Digest := ⟨tally, tally_injective⟩

def pen : Product := ⟨[0x70], 5, true⟩

/-- The start of a request that passes the binding. -/
def starts (t : Nat) (req : Option Request) : List (LockEvent Request) :=
  (req.map (LockEvent.start t)).toList

/-- Ten of each of two products are put on stock. -/
def stocking : List (LockEvent Request) :=
  [1, 2].flatMap fun p =>
    starts 0 ((InitInventoryRequest.bind p 10).map (.initInventory (some pen))) ++
      [.stmt 0, .stmt 0, .stmt 0, .commit 0]

/-- An order of the user 7. -/
def orderOf (id : Int) (key : UInt8) (items : List ItemRequest) : Option Request :=
  (CreateOrderRequest.bind [key] items).map
    (.createOrder ⟨fun _ => some pen, id, [0x6F], [0x65], 100⟩ 7)

end OrderSystem.Monolith
