/-
# How orders and reservations hang together

The facts about the two databases that hold in every reachable state, whatever is lost,
duplicated, delayed or crashed, and whatever acknowledgement of a commit is lost.

* `Wired` is what the databases say of each other.  Every reservation belongs to the order that
  names it, and `Backs` is what the status of an order promises: a reservation, from `pending`
  on, and a settled one when the order is paid, finished or cancelled.
* `procOk` is what a call or worker knows at each of its states, `requestOk` and `replyOk` what
  a message in flight means.  All of it is stable: orders keep their user, key, items and
  reservation id, and reservations never disappear or leave a settled status (`Evolves`).

`Knowledge.lean` carries both to every run.
-/
import OrderSystem.Saga.Steps

namespace OrderSystem.Saga

open OrderSystem.Kit
open OrderSystem.OrderSvc
open OrderSystem.InventorySvc (Reservation ReservationStatus Settlement Indexed Balanced Persists
  Effect)

/-! ## 1. Orders and their reservations -/

section

variable [Collation]

/-- The reservation of an order. -/
def resv (inv : InventorySvc.DB) (orderID : Nat) : Option Reservation :=
  inv.reservationOf orderID

/-- The order has a reservation. -/
def Reserved (inv : InventorySvc.DB) (orderID : Nat) : Prop := ∃ r, resv inv orderID = some r

/-- The order's reservation has been settled this way. -/
def SettledAs (inv : InventorySvc.DB) (orderID : Nat) (t : Settlement) : Prop :=
  ∃ r, resv inv orderID = some r ∧ r.status = t.status

/-- What the status of an order promises about its reservation. -/
def Backs (inv : InventorySvc.DB) (orderID : Nat) : OrderStatus → Prop
  | .reserving => True
  | .failed => True
  | .paid => SettledAs inv orderID .confirm
  | .finished => SettledAs inv orderID .confirm
  | .cancelled => SettledAs inv orderID .release
  | .pending => Reserved inv orderID
  | .paying => Reserved inv orderID
  | .cancelling => Reserved inv orderID
  | .reconciliationRequired => Reserved inv orderID

/-- The order with this id names this reservation. -/
def Named (db : DB) (orderID : Nat) (reservationID : GoString) : Prop :=
  ∃ o, db.orders.row orderID = some o ∧ o.reservationID = reservationID

/-- The order has a timeout row. -/
def Outboxed (db : DB) (orderID : Nat) : Prop :=
  ∃ i row, db.outbox.row i = some row ∧ row.orderID = orderID

/-- **What the two databases say of each other.** -/
structure Wired (db : DB) (inv : InventorySvc.DB) : Prop where
  indexed : Indexed inv
  balanced : ∃ history, Balanced history inv
  keys : ∀ i j o o', db.orders.row i = some o → db.orders.row j = some o' →
    o.userID = o'.userID →
    Collation.weight o.idempotencyKey = Collation.weight o'.idempotencyKey → i = j
  ids : ∀ i o, db.orders.row i = some o → IsUUID o.reservationID
  timeouts : ∀ i j row row', db.outbox.row i = some row → db.outbox.row j = some row' →
    row.orderID = row'.orderID → i = j
  timed : ∀ orderID, Outboxed db orderID →
    ∃ o, db.orders.row orderID = some o ∧ o.status ≠ .reserving
  reservations : ∀ w r, inv.reservationAt w = some r →
    ∃ orderID : Nat, r.orderID = orderID ∧ Named db orderID r.id
  backed : ∀ i o, db.orders.row i = some o → Backs inv i o.status

variable {db db' : DB} {orderID : Nat} {inv inv' : InventorySvc.DB} {r : Reservation}
  {id : GoString} {c : CreateCall} {q : Proc} {stmt : Stmt}

omit [Collation] in
theorem Named.unique {a b : GoString} (h : Named db orderID a) (h' : Named db orderID b) :
    a = b := by
  obtain ⟨o, ho, rfl⟩ := h
  obtain ⟨o', ho', rfl⟩ := h'
  rw [Option.some.inj (ho.symm.trans ho')]

/-- The reservation of an order is the one it names, and stands under that id. -/
theorem Wired.resv_named (h : Wired db inv) (hr : resv inv orderID = some r) :
    Named db orderID r.id ∧ inv.reservation r.id = some r := by
  obtain ⟨w, hw, ho⟩ := h.indexed.reservationOf.mp hr
  obtain ⟨orderID', ho', hn⟩ := h.reservations w r hw
  have heq : orderID' = orderID := by
    have := ho'.symm.trans ho
    exact_mod_cast this
  refine ⟨heq ▸ hn, ?_⟩
  rw [InventorySvc.DB.reservation, h.indexed.keyed w r hw]
  exact hw

/-- Settling by the id an order names settles the order's reservation. -/
theorem Wired.resv_of_id (h : Wired db inv) (hn : Named db orderID id) (hres : Reserved inv orderID)
    :
    resv inv orderID = inv.reservation id := by
  obtain ⟨r, hr⟩ := hres
  obtain ⟨hn', hid⟩ := h.resv_named hr
  rw [hr, hn.unique hn', hid]

theorem Wired.named_trim (h : Wired db inv) (hn : Named db orderID id) :
    trimSpace id = id ∧ id ≠ [] := by
  obtain ⟨o, ho, rfl⟩ := hn
  exact ⟨(h.ids _ o ho).2, (h.ids _ o ho).1⟩

/-- The reservation that an order names is the order's. -/
theorem Wired.reservation_named (hw : Wired db inv) (hn : Named db orderID id)
    (hres : Reserved inv orderID) :
    ∃ r, inv.reservation (trimSpace id) = some r ∧ r.orderID = orderID := by
  obtain ⟨r, hr⟩ := hres
  obtain ⟨w, -, ho⟩ := hw.indexed.reservationOf.mp hr
  refine ⟨r, ?_, ho⟩
  rw [(hw.named_trim hn).1, ← hw.resv_of_id hn ⟨r, hr⟩]
  exact hr

/-! ## 2. What never changes -/

/-- Orders keep what no statement changes, and reservations persist. -/
structure Evolves (db db' : DB) (inv inv' : InventorySvc.DB) : Prop where
  orders : ∀ i o, db.orders.row i = some o → ∃ o', db'.orders.row i = some o' ∧ SameOrder o o' ∧
    o'.reservationID = o.reservationID
  outbox : ∀ i row, db.outbox.row i = some row → ∃ row', db'.outbox.row i = some row' ∧
    row'.orderID = row.orderID
  inventory : Persists inv inv'

omit [Collation] in
theorem Evolves.of_same (h : Persists inv inv') :
    Evolves db db inv inv' :=
  ⟨fun _ o ho => ⟨o, ho, .refl o, rfl⟩, fun _ row hrow => ⟨row, hrow, rfl⟩, h⟩

omit [Collation] in
theorem Evolves.trans {db₁ db₂ db₃ : DB} {inv₁ inv₂ inv₃ : InventorySvc.DB}
    (h : Evolves db₁ db₂ inv₁ inv₂) (h' : Evolves db₂ db₃ inv₂ inv₃) :
    Evolves db₁ db₃ inv₁ inv₃ := by
  refine ⟨fun i o ho => ?_, fun i row hrow => ?_, h.inventory.trans h'.inventory⟩
  · obtain ⟨o₂, ho₂, hs₂, hid₂⟩ := h.orders i o ho
    obtain ⟨o₃, ho₃, hs₃, hid₃⟩ := h'.orders i o₂ ho₂
    exact ⟨o₃, ho₃, hs₂.trans hs₃, hid₃.trans hid₂⟩
  · obtain ⟨row₂, hrow₂, ho₂⟩ := h.outbox i row hrow
    obtain ⟨row₃, hrow₃, ho₃⟩ := h'.outbox i row₂ hrow₂
    exact ⟨row₃, hrow₃, ho₃.trans ho₂⟩

omit [Collation] in
theorem Outboxed.mono (h : Outboxed db orderID) (hev : Evolves db db' inv inv') :
    Outboxed db' orderID := by
  obtain ⟨i, row, hrow, ho⟩ := h
  obtain ⟨row', hrow', ho'⟩ := hev.outbox i row hrow
  exact ⟨i, row', hrow', ho'.trans ho⟩

omit [Collation] in
theorem Named.mono (h : Named db orderID id) (hev : Evolves db db' inv inv') :
    Named db' orderID id := by
  obtain ⟨o, ho, hid⟩ := h
  obtain ⟨o', ho', -, hid'⟩ := hev.orders orderID o ho
  exact ⟨o', ho', hid'.trans hid⟩

theorem resv_persists (h : Persists inv inv') (hr : resv inv orderID = some r) :
    ∃ r', resv inv' orderID = some r' ∧ r'.id = r.id ∧ (r.status ≠ .pending → r' = r) := by
  obtain ⟨id, hid, hr⟩ := Option.bind_eq_some_iff.mp hr
  obtain ⟨r', hr', h1, -, -, h4⟩ := h.reservations _ r hr
  exact ⟨r', by rw [resv, InventorySvc.DB.reservationOf, h.orders _ id hid]; exact hr', h1, h4⟩

theorem Reserved.persists (hres : Reserved inv orderID) (h : Persists inv inv') :
    Reserved inv' orderID := by
  obtain ⟨r, hr⟩ := hres
  obtain ⟨r', hr', -, -⟩ := resv_persists h hr
  exact ⟨r', hr'⟩

theorem SettledAs.persists {inv inv' : InventorySvc.DB} {orderID : Nat} {t : Settlement}
    (hset : SettledAs inv orderID t) (h : Persists inv inv') : SettledAs inv' orderID t := by
  obtain ⟨r, hr, hst⟩ := hset
  obtain ⟨r', hr', -, heq⟩ := resv_persists h hr
  exact ⟨r', hr', by rw [heq (hst ▸ t.status_ne_pending), hst]⟩

theorem SettledAs.reserved {t : Settlement} (h : SettledAs inv orderID t) :
    Reserved inv orderID := by
  obtain ⟨r, hr, -⟩ := h
  exact ⟨r, hr⟩

theorem Backs.persists {st : OrderStatus} (hb : Backs inv orderID st) (h : Persists inv inv') :
    Backs inv' orderID st := by
  cases st with
  | reserving => trivial
  | failed => trivial
  | paid => exact SettledAs.persists hb h
  | finished => exact SettledAs.persists hb h
  | cancelled => exact SettledAs.persists hb h
  | pending => exact Reserved.persists hb h
  | paying => exact Reserved.persists hb h
  | cancelling => exact Reserved.persists hb h
  | reconciliationRequired => exact Reserved.persists hb h

/-- An order that is neither being reserved nor failed has a reservation. -/
theorem Backs.reserved {st : OrderStatus} (h : Backs inv orderID st) (h1 : st ≠ .reserving)
    (h2 : st ≠ .failed) :
    Reserved inv orderID := by
  cases st with
  | reserving => exact absurd rfl h1
  | failed => exact absurd rfl h2
  | paid => exact SettledAs.reserved h
  | finished => exact SettledAs.reserved h
  | cancelled => exact SettledAs.reserved h
  | pending => exact h
  | paying => exact h
  | cancelling => exact h
  | reconciliationRequired => exact h

/-! ## 3. What processes and messages know -/

/-- The order the call inserted, under the reservation id it chose. -/
def Mine (db : DB) (c : CreateCall) (orderID : Nat) (reservationID : GoString) : Prop :=
  ∃ o, db.orders.row orderID = some o ∧ o.userID = c.userID ∧ o.idempotencyKey = c.key ∧
    o.reservationID = reservationID

/-- An order with the user and the key of the call. -/
def Answers (db : DB) (c : CreateCall) (orderID : Nat) : Prop :=
  ∃ o, db.orders.row orderID = some o ∧ o.userID = c.userID ∧
    Collation.weight o.idempotencyKey = Collation.weight c.key

/-- What a call of `Create` knows. -/
def createOk (db : DB) (inv : InventorySvc.DB) (c : CreateCall) : CreatePc → Prop
  | .insert draft _ =>
    draft.userID = c.userID ∧ draft.idempotencyKey = c.key ∧ IsUUID draft.reservationID
  | .reserve orderID reservationID _ => Mine db c orderID reservationID
  | .fail orderID _ => ∃ id, Mine db c orderID id
  | .finalize orderID reservationID =>
    Mine db c orderID reservationID ∧ Reserved inv orderID
  | .release orderID reservationID _ =>
    Mine db c orderID reservationID ∧ Reserved inv orderID
  | .compensate orderID status _ _ => (∃ id, Mine db c orderID id) ∧ Reserved inv orderID ∧
    (status = .failed ∧ SettledAs inv orderID .release ∨ status = .reconciliationRequired)
  | .get orderID => ∃ id, Mine db c orderID id
  | .returned (.ok (orderID, _)) => Answers db c orderID
  | _ => True

/-- What a call of `cancel` or `Pay` knows. -/
def settleOk (db : DB) (inv : InventorySvc.DB) (c : SettleCall) : SettlePc → Prop
  | .claim o => Named db c.orderID o.reservationID ∧ Reserved inv c.orderID
  | .call o => Named db c.orderID o.reservationID ∧ Reserved inv c.orderID
  | .revert _ => Reserved inv c.orderID
  | .compensate _ => Reserved inv c.orderID
  | .finalize => SettledAs inv c.orderID c.kind.target
  | _ => True

/-- What a reconciliation worker knows. -/
def reconOk (db : DB) (inv : InventorySvc.DB) : ReconPc → Prop
  | .call task o _ =>
    Named db task.2.orderID o.reservationID ∧ Reserved inv task.2.orderID
  | .complete task target closes _ => ∃ op, task.2.action.plan = some (target, closes, op) ∧
    (target ≠ .failed → SettledAs inv task.2.orderID op)
  | _ => True

def procOk (db : DB) (inv : InventorySvc.DB) : Proc → Prop
  | .create c pc => createOk db inv c pc
  | .settle c pc => settleOk db inv c pc
  | .recon _ pc => reconOk db inv pc
  | _ => True

/-- A `Reserve` in flight is for an order, under the id the order names; a `Confirm` or
`Release` is for the reservation of an order. -/
def requestOk (db : DB) (inv : InventorySvc.DB) : InventoryOp → Prop
  | .reserve req => ∃ orderID : Nat, req.orderID = orderID ∧ Named db orderID req.reservationID
  | .settle _ id => ∃ orderID : Nat, Named db orderID id ∧ Reserved inv orderID

/-- A successful answer means that the work is done. -/
def replyOk (inv : InventorySvc.DB) : InventoryOp → Reply → Prop
  | .reserve req, .ok r =>
    ∃ orderID : Nat, req.orderID = orderID ∧ ∃ r', resv inv orderID = some r' ∧ r'.id = r.id
  | .settle t id, .ok _ => ∃ r, inv.reservation (trimSpace id) = some r ∧ r.status = t.status
  | _, .error _ => True

/-- **What is known everywhere in a state.** -/
structure Known (s : State) : Prop where
  wired : Wired s.store.db s.remote
  procs : ∀ p q, s.At p q → procOk s.store.db s.remote q
  requests : ∀ p op, (p, op) ∈ s.requests → requestOk s.store.db s.remote op
  replies : ∀ p op a, (p, op, a) ∈ s.replies → replyOk s.remote op a

/-! ## 4. All of it is stable -/

omit [Collation] in
theorem Mine.mono (h : Mine db c orderID id) (hev : Evolves db db' inv inv') :
    Mine db' c orderID id := by
  obtain ⟨o, ho, h1, h2, h3⟩ := h
  obtain ⟨o', ho', hs, hid⟩ := hev.orders orderID o ho
  exact ⟨o', ho', hs.userID.trans h1, hs.idempotencyKey.trans h2, hid.trans h3⟩

theorem Answers.mono (h : Answers db c orderID) (hev : Evolves db db' inv inv') :
    Answers db' c orderID := by
  obtain ⟨o, ho, h1, h2⟩ := h
  obtain ⟨o', ho', hs, -⟩ := hev.orders orderID o ho
  exact ⟨o', ho', hs.userID.trans h1, by rw [hs.idempotencyKey, h2]⟩

theorem createOk_mono (hev : Evolves db db' inv inv') {pc : CreatePc} (h : createOk db inv c pc) :
    createOk db' inv' c pc := by
  cases pc with
  | lookup => trivial
  | resolve => trivial
  | insert draft items => exact h
  | relookup cause => trivial
  | reserve orderID id items => exact Mine.mono h hev
  | fail orderID cause => exact h.imp fun _ hm => hm.mono hev
  | finalize orderID id => exact ⟨h.1.mono hev, h.2.persists hev.inventory⟩
  | release orderID id cause => exact ⟨h.1.mono hev, h.2.persists hev.inventory⟩
  | compensate orderID status reason result =>
    exact ⟨h.1.imp fun _ hm => hm.mono hev, h.2.1.persists hev.inventory,
      h.2.2.imp (fun hf => ⟨hf.1, hf.2.persists hev.inventory⟩) id⟩
  | get orderID => exact h.imp fun _ hm => hm.mono hev
  | returned result =>
    match result, h with
    | .ok (orderID, o), h => exact Answers.mono h hev
    | .error e, _ => trivial

theorem settleOk_mono (hev : Evolves db db' inv inv') {c : SettleCall} {pc : SettlePc}
    (h : settleOk db inv c pc) : settleOk db' inv' c pc := by
  cases pc with
  | load => trivial
  | claim o => exact ⟨h.1.mono hev, h.2.persists hev.inventory⟩
  | call o => exact ⟨h.1.mono hev, h.2.persists hev.inventory⟩
  | revert cause => exact Reserved.persists h hev.inventory
  | finalize => exact SettledAs.persists h hev.inventory
  | compensate cause => exact Reserved.persists h hev.inventory
  | reload => trivial
  | returned result => trivial

theorem reconOk_mono (hev : Evolves db db' inv inv') {pc : ReconPc} (h : reconOk db inv pc) :
    reconOk db' inv' pc := by
  cases pc with
  | idle => trivial
  | claim => trivial
  | load task rest => trivial
  | call task o rest => exact ⟨h.1.mono hev, h.2.persists hev.inventory⟩
  | complete task target closes rest =>
    obtain ⟨op, hplan, hset⟩ := h
    exact ⟨op, hplan, fun hne => (hset hne).persists hev.inventory⟩
  | markFailed task cause rest => trivial
  | markUnresolved task reason rest => trivial

theorem requestOk_mono (hev : Evolves db db' inv inv') {w : InventoryOp} (h : requestOk db inv w) :
    requestOk db' inv' w := by
  cases w with
  | reserve req =>
    obtain ⟨orderID, ho, hn⟩ := h
    exact ⟨orderID, ho, hn.mono hev⟩
  | settle t id =>
    obtain ⟨orderID, hn, hres⟩ := h
    exact ⟨orderID, hn.mono hev, hres.persists hev.inventory⟩

theorem replyOk_mono (hp : Persists inv inv') {w : InventoryOp} {a : Reply} (h : replyOk inv w a) :
    replyOk inv' w a := by
  match w, a, h with
  | .reserve req, .ok r, h =>
    obtain ⟨orderID, ho, r', hr', hid⟩ := h
    obtain ⟨r'', hr'', hid', -⟩ := resv_persists hp hr'
    exact ⟨orderID, ho, r'', hr'', hid'.trans hid⟩
  | .settle t id, .ok r, h =>
    obtain ⟨r', hr', hst⟩ := h
    exact ⟨r', hp.settled hr' (hst ▸ t.status_ne_pending), hst⟩
  | .reserve req, .error e, _ => trivial
  | .settle t id, .error e, _ => trivial

/-! ## 5. The databases after a step -/

/-- The reservation id of an order survives every statement: the finalising transaction of
`Create` writes the one that is there. -/
theorem reservationID_of_writer (hw : Writer q stmt) (hq : procOk db inv q)
    {old : Option OrderStatus} {new : OrderStatus} (hch : stmt.change = some (orderID, old, new))
    {o : Order} (ho : db.orders.row orderID = some o) : stmt.reservationID o = o.reservationID := by
  cases hw with
  | createFinalize c orderID' id =>
    simp only [Stmt.change, Option.some.injEq, Prod.mk.injEq] at hch
    obtain ⟨o', ho', -, -, hid⟩ := hq.1
    rw [hch.1, ho, Option.some.injEq] at ho'
    rw [ho']
    exact hid.symm
  | createFail c orderID' cause => rfl
  | createCompensate c orderID' status reason result => rfl
  | settleClaim c o' => rfl
  | settleRevert c cause => rfl
  | settleFinalize c => rfl
  | settleCompensate c cause => rfl
  | finish c => rfl
  | complete cfg task target closes rest => rfl

/-- A step keeps what never changes. -/
theorem evolves_step {s s' : State} {e : Event} (hk : Known s) (hc : Change s e s') :
    Evolves s.store.db s'.store.db s.remote s'.remote := by
  cases hc with
  | none hdb hinv =>
    rw [hdb, hinv]
    exact .of_same (.refl _)
  | served p generated op r hop hexec hdb =>
    rw [hdb]
    exact .of_same (.effect (op_effect hexec))
  | supplied p q hsup hdb =>
    rw [hdb]
    exact .of_same (.of_eq hsup.reservations hsup.orders)
  | sql p o locked q stmt r he hq hstmt hexec hinv =>
    rw [hinv]
    refine ⟨fun i x hx => ?_, fun i row hrow => ?_, .refl _⟩
    · rcases (exec_orders hexec).forward hx with hsame | ⟨x', old, hx', hch⟩
      · exact ⟨x, hsame, .refl x, rfl⟩
      · exact ⟨x', hx', hch.same, hch.reservationID.trans (reservationID_of_writer
          (writer_of_change hstmt hch.change) (hk.procs p q hq) hch.change hx)⟩
    · obtain ⟨row', hrow', ho', -⟩ := (exec_outbox hexec).keeps i row hrow
      exact ⟨row', hrow', ho'⟩

/-- What a writer knows is enough for the status it writes. -/
theorem backs_of_writer (hw : Writer q stmt) (hq : procOk db inv q) {old : Option OrderStatus}
    {new : OrderStatus} (hch : stmt.change = some (orderID, old, new)) {o : Order}
    (hold : ∀ st ∈ old, o.status = st) (hback : Backs inv orderID o.status) :
    Backs inv orderID new ∧ new ≠ .reserving := by
  cases hw with
  | createFail c orderID' cause =>
    simp only [Stmt.change, Option.some.injEq, Prod.mk.injEq] at hch
    obtain ⟨rfl, -, rfl⟩ := hch
    exact ⟨trivial, by simp⟩
  | createFinalize c orderID' id =>
    simp only [Stmt.change, Option.some.injEq, Prod.mk.injEq] at hch
    obtain ⟨rfl, -, rfl⟩ := hch
    exact ⟨hq.2, by simp⟩
  | createCompensate c orderID' status reason result =>
    simp only [Stmt.change, Option.some.injEq, Prod.mk.injEq] at hch
    obtain ⟨rfl, -, rfl⟩ := hch
    obtain ⟨-, hres, ⟨rfl, -⟩ | rfl⟩ := hq
    · exact ⟨trivial, by simp⟩
    · exact ⟨hres, by simp⟩
  | settleClaim c o' =>
    simp only [Stmt.change, Option.some.injEq, Prod.mk.injEq] at hch
    obtain ⟨rfl, -, rfl⟩ := hch
    cases hk : c.kind with
    | cancel => exact ⟨hq.2, by simp [SettleKind.transient]⟩
    | pay => exact ⟨hq.2, by simp [SettleKind.transient]⟩
  | settleRevert c cause | settleCompensate c cause =>
    simp only [Stmt.change, Option.some.injEq, Prod.mk.injEq] at hch
    obtain ⟨rfl, -, rfl⟩ := hch
    exact ⟨hq, by simp⟩
  | settleFinalize c =>
    simp only [Stmt.change, Option.some.injEq, Prod.mk.injEq] at hch
    obtain ⟨rfl, -, rfl⟩ := hch
    have hset : SettledAs inv c.orderID c.kind.target := hq
    revert hset
    cases hk : c.kind with
    | cancel => exact fun hset => ⟨hset, by simp [SettleKind.final]⟩
    | pay => exact fun hset => ⟨hset, by simp [SettleKind.final]⟩
  | finish c =>
    simp only [Stmt.change, Option.some.injEq, Prod.mk.injEq] at hch
    obtain ⟨rfl, rfl, rfl⟩ := hch
    rw [hold .paid rfl] at hback
    exact ⟨hback, by simp⟩
  | complete cfg task target closes rest =>
    simp only [Stmt.change, Option.some.injEq, Prod.mk.injEq] at hch
    obtain ⟨rfl, -, rfl⟩ := hch
    obtain ⟨op, hplan, hset⟩ := hq
    revert hplan hset
    cases task.2.action with
    | releaseInventoryAndFail =>
      intro hplan hset
      simp only [Action.plan, Option.some.injEq, Prod.mk.injEq] at hplan
      obtain ⟨rfl, -, -⟩ := hplan
      exact ⟨trivial, by simp⟩
    | finalizeCancel | finalizePayment =>
      intro hplan hset
      simp only [Action.plan, Option.some.injEq, Prod.mk.injEq] at hplan
      obtain ⟨rfl, -, rfl⟩ := hplan
      exact ⟨hset (by simp), by simp⟩
    | unsupportedFrom st =>
      intro hplan
      exact absurd hplan (by simp [Action.plan])

theorem Wired.served (h : Wired db inv) {generated : GoString} {op : InventoryOp}
    (hop : requestOk db inv op) (hexec : (opTx generated inv op).exec inv = .ok (r, inv')) :
    Wired db inv' := by
  have he := op_effect hexec
  obtain ⟨history, hbal⟩ := h.balanced
  refine ⟨h.indexed.effect he, ⟨_, hbal.effect he⟩, h.keys, h.ids, h.timeouts, h.timed,
    fun w r' hr' => ?_, fun i o ho => (h.backed i o ho).persists (.effect he)⟩
  rcases he.backward hr' with
    ⟨r₀, hr₀, hid, hord, -⟩ | ⟨generated', req, hreq, hord, hid, -⟩
  · obtain ⟨orderID, ho, hn⟩ := h.reservations w r₀ hr₀
    exact ⟨orderID, hord.trans ho, hid ▸ hn⟩
  · -- a new reservation: the request in flight named the order and its id
    cases op with
    | settle t id => cases t <;> exact absurd hreq (by simp [InventoryOp.toRequest])
    | reserve req' =>
      simp only [InventoryOp.toRequest, InventorySvc.Request.reserve.injEq] at hreq
      obtain ⟨orderID, ho, hn⟩ := hop
      obtain ⟨htrim, hne⟩ := h.named_trim hn
      refine ⟨orderID, by rw [hord, ← hreq.2, ho], ?_⟩
      rw [hid, ← hreq.2, InventorySvc.reservationIDFor, htrim, if_neg hne]
      exact hn

theorem Wired.supplied (h : Wired db inv) {p q : Int} (hs : InventorySvc.Supplied inv inv' p q) :
    Wired db inv' := by
  have hper : Persists inv inv' := .of_eq hs.reservations hs.orders
  obtain ⟨history, rs, hl, hb⟩ := h.balanced
  refine ⟨h.indexed.of_eq hs.reservations hs.orders,
    ⟨history ++ [(.init p q, .reservation ⟨[], 0, .pending, [], List.nodup_nil⟩)], rs,
      fun w => by rw [hs.reservations]; exact hl w, fun p' => (hb p').supplied (Or.inl rfl) hs⟩,
    h.keys, h.ids, h.timeouts, h.timed, fun w r hr => ?_,
    fun i o ho => (h.backed i o ho).persists hper⟩
  rw [hs.reservations] at hr
  exact h.reservations w r hr

/-- A committed statement keeps the databases wired. -/
theorem Wired.sql (h : Wired db inv) {now : Int} {locked : List Nat} {r : Res}
    (hq : procOk db inv q) (hstmt : q.stmt = some stmt)
    (hexec : stmt.exec now locked db = .ok (r, db')) (hev : Evolves db db' inv inv) :
    Wired db' inv := by
  have hord := exec_orders hexec
  have hout := exec_outbox hexec
  have hbacks : ∀ i x x' old, db.orders.row i = some x → ChangedTo stmt i x x' old →
      Backs inv i x'.status ∧ x'.status ≠ .reserving := fun i x x' old hx hch =>
    backs_of_writer (writer_of_change hstmt hch.change) hq hch.change hch.was (h.backed i x hx)
  -- the user and the key of an order that is not new are those of an order before
  have hold : ∀ i x', db'.orders.row i = some x' →
      (∃ x, db.orders.row i = some x ∧ SameOrder x x') ∨
        ∃ draft hacc, stmt = .insertOrder draft ∧ i = db.orders.next ∧ x' = draft.row hacc := by
    intro i x' hx'
    rcases hord.backward hx' with hx | hnew | ⟨x, old, hx, hch⟩
    · exact Or.inl ⟨x', hx, .refl x'⟩
    · exact Or.inr hnew
    · exact Or.inl ⟨x, hx, hch.same⟩
  refine ⟨h.indexed, h.balanced, fun i j x y hx hy hu hk => ?_, fun i x' hx' => ?_,
    fun i j row row' hi hj ho => ?_, fun orderID ⟨i, row, hrow, ho⟩ => ?_, fun w r hr => ?_,
    fun i x' hx' => ?_⟩
  · rcases hold i x hx with ⟨x₀, hx₀, hsx⟩ | ⟨draft, hacc, rfl, rfl, rfl⟩
    · rcases hold j y hy with ⟨y₀, hy₀, hsy⟩ | ⟨draft, hacc, rfl, rfl, rfl⟩
      · refine h.keys i j x₀ y₀ hx₀ hy₀ ?_ ?_
        · rw [← hsx.userID, ← hsy.userID, hu]
        · rw [← hsx.idempotencyKey, ← hsy.idempotencyKey, hk]
      · refine absurd ?_ ((insertOrder_ok hexec).2.2 i x₀ hx₀ (by rw [← hsx.userID]; exact hu))
        rw [← hsx.idempotencyKey]
        exact hk
    · rcases hold j y hy with ⟨y₀, hy₀, hsy⟩ | ⟨draft', hacc', -, rfl, -⟩
      · refine absurd ?_ ((insertOrder_ok hexec).2.2 j y₀ hy₀ (by rw [← hsy.userID]; exact hu.symm))
        rw [← hsy.idempotencyKey]
        exact hk.symm
      · rfl
  · rcases hord.backward hx' with hx | ⟨draft, hacc, rfl, rfl, rfl⟩ | ⟨x, old, hx, hch⟩
    · exact h.ids i x' hx
    · obtain ⟨c, items, rfl⟩ := insert_of_stmt hstmt
      exact hq.2.2
    · rw [hch.reservationID, reservationID_of_writer (writer_of_change hstmt hch.change) hq
        hch.change hx]
      exact h.ids i x hx
  · rcases hout.adds i row hi with ⟨x, hx, hxo⟩ | ⟨-, -, rfl, hfresh⟩
    · rcases hout.adds j row' hj with ⟨y, hy, hyo⟩ | ⟨-, -, -, hfresh⟩
      · exact h.timeouts i j x y hx hy (by rw [hxo, hyo, ho])
      · exact absurd (hxo.trans ho) (hfresh i x hx)
    · rcases hout.adds j row' hj with ⟨y, hy, hyo⟩ | ⟨-, -, rfl, -⟩
      · exact absurd (hyo.trans ho.symm) (hfresh j y hy)
      · rfl
  · rcases hout.adds i row hrow with ⟨x, hx, hxo⟩ | ⟨-, ⟨id, delay, rfl⟩, -, -⟩
    · obtain ⟨o, hrow', hst⟩ := h.timed orderID ⟨i, x, hx, hxo.trans ho⟩
      rcases hord.forward hrow' with hsame | ⟨o', old, ho', hch⟩
      · exact ⟨o, hsame, hst⟩
      · exact ⟨o', ho', (hbacks orderID o o' old hrow' hch).2⟩
    · obtain ⟨-, ⟨o, o', -, hst, -, hchg⟩, -, -⟩ := finalizeCreate_ok hexec
      exact ⟨o', ho ▸ hchg.row, by rw [hst]; simp⟩
  · obtain ⟨orderID, ho, hn⟩ := h.reservations w r hr
    exact ⟨orderID, ho, hn.mono hev⟩
  · rcases hord.backward hx' with hx | ⟨draft, hacc, rfl, rfl, rfl⟩ | ⟨x, old, hx, hch⟩
    · exact h.backed i x' hx
    · trivial
    · exact (hbacks i x x' old hx hch).1

/-- **A step keeps the databases wired.** -/
theorem wired_step {s s' : State} {e : Event} (hk : Known s) (hc : Change s e s') :
    Wired s'.store.db s'.remote := by
  have h := hk.wired
  have hev := evolves_step hk hc
  cases hc with
  | none hdb hinv =>
    rw [hdb, hinv]
    exact h
  | served p generated op r hop hexec hdb =>
    rw [hdb]
    exact h.served (hk.requests p op hop) hexec
  | supplied p q hsup hdb =>
    rw [hdb]
    exact h.supplied hsup
  | sql p o locked q stmt r he hq hstmt hexec hinv =>
    rw [hinv] at hev ⊢
    exact h.sql (hk.procs p q hq) hstmt hexec hev

end

end OrderSystem.Saga
