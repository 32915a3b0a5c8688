/-
# The two services agree, and an order is made once

What holds in every run, with no assumption about the network, the databases or the calls.

* `saga_agreement` -- an order that is paid has its stock confirmed, and one that is cancelled
  has it released; so no order is ever paid at one time and cancelled at another.
* `create_at_most_once` -- however often `Create` is called with one user and key, there is one
  order, one reservation and one timeout row, and the calls that succeed return that order.

Both read off the invariant of `Knowledge.lean`.  What relates two points of a run is that
nothing is lost between them (`evolves_run`).
-/
import OrderSystem.Saga.Knowledge

namespace OrderSystem.Saga

open OrderSystem.Kit
open OrderSystem.OrderSvc
open OrderSystem.InventorySvc (Reservation ReservationStatus Settlement Persists)

section

variable [Collation]

/-! ## 1. Agreement -/

variable {inv : InventorySvc.DB} {orderID : Nat} {db : DB} {o : Order}

theorem SettledAs.unique {t t' : Settlement} (h : SettledAs inv orderID t)
    (h' : SettledAs inv orderID t') : t = t' := by
  obtain ⟨r, hr, hst⟩ := h
  obtain ⟨r', hr', hst'⟩ := h'
  rw [Option.some.inj (hr.symm.trans hr'), hst'] at hst
  cases t <;> cases t' <;> first | rfl | exact absurd hst (by simp [Settlement.status])

theorem Wired.paid (hw : Wired db inv) (ho : db.orders.row orderID = some o)
    (hst : o.status = .paid ∨ o.status = .finished) : SettledAs inv orderID .confirm := by
  have hb := hw.backed orderID o ho
  rcases hst with hst | hst
  · rw [hst] at hb
    exact hb
  · rw [hst] at hb
    exact hb

theorem Wired.cancelled (hw : Wired db inv) (ho : db.orders.row orderID = some o)
    (hst : o.status = .cancelled) :
    SettledAs inv orderID .release := by
  have hb := hw.backed orderID o ho
  rw [hst] at hb
  exact hb

/-- The settled reservation is the one the order names. -/
theorem Wired.settled_named (hw : Wired db inv) (ho : db.orders.row orderID = some o)
    {t : Settlement} (h : SettledAs inv orderID t) : ∃ r, inv.reservationOf orderID = some r ∧
      inv.reservation o.reservationID = some r ∧ r.status = t.status := by
  obtain ⟨r, hr, hst⟩ := h
  obtain ⟨hn, hid⟩ := hw.resv_named hr
  refine ⟨r, hr, ?_, hst⟩
  rw [Named.unique ⟨o, ho, rfl⟩ hn]
  exact hid

/-- **Saga agreement.**  In every reachable state a paid or finished order has a confirmed
reservation and a cancelled order a released one, each of them the reservation that belongs to
the order and that the order names.  And no run has the order paid at one point and cancelled at
another, in either order. -/
theorem saga_agreement {es es' : List Event} {s s' : State} (h : run step start es = some s)
    (h' : run step s es' = some s') {orderID : Nat} {o o' : Order}
    (ho : s.store.db.orders.row orderID = some o)
    (ho' : s'.store.db.orders.row orderID = some o') :
    (o.status = .paid ∨ o.status = .finished → ∃ r, s.remote.reservationOf orderID = some r ∧
        s.remote.reservation o.reservationID = some r ∧ r.status = .confirmed) ∧
      (o.status = .cancelled → ∃ r, s.remote.reservationOf orderID = some r ∧
        s.remote.reservation o.reservationID = some r ∧ r.status = .released) ∧
      ¬((o.status = .paid ∨ o.status = .finished) ∧ o'.status = .cancelled) ∧
      ¬(o.status = .cancelled ∧ (o'.status = .paid ∨ o'.status = .finished)) := by
  have hw := (wired_run h).wired
  have hw' := (wired_run (run_append.mpr ⟨s, h, h'⟩)).wired
  have hper := (evolves_run (wired_run h) h').inventory
  refine ⟨fun hst => hw.settled_named ho (hw.paid ho hst),
    fun hst => hw.settled_named ho (hw.cancelled ho hst), fun ⟨hp, hc⟩ => ?_, fun ⟨hc, hp⟩ => ?_⟩
  · have := ((hw.paid ho hp).persists hper).unique (hw'.cancelled ho' hc)
    exact absurd this (by simp)
  · have := ((hw.cancelled ho hc).persists hper).unique (hw'.paid ho' hp)
    exact absurd this (by simp)

end

/-- A catalog with one price. -/
def shelf (p : Int) : Except GoString CatalogProduct := .ok ⟨p, [], 5, 1⟩

/-- Stock arrives, and `Create` places an order for three. -/
def ordering : List Event :=
  [.env (.init 1 10), .spawn (.create ⟨30, 1, [0x6b], [⟨1, 3⟩]⟩ .lookup), .act 1 (.sql .ok []),
    .act 1 (.resolve shelf [0x75]), .act 1 (.sql .ok []), .send 1, .serve 0 ⟨.none, [], []⟩,
    .receive 1 0, .act 1 (.sql .ok []), .act 1 (.sql .ok [])]

/-- `Pay` and `Cancel` both load the pending order; `Pay` claims it and goes through. -/
def paying : List Event :=
  [.spawn (.settle ⟨.pay, false, 1, 1, none⟩ .load), .act 2 (.sql .ok []),
    .spawn (.settle ⟨.cancel, false, 1, 1, none⟩ .load), .act 3 (.sql .ok []),
    .act 2 (.sql .ok []), .act 3 (.sql .ok []), .send 2, .serve 1 ⟨.none, [], []⟩,
    .receive 2 1, .act 2 (.sql .ok [])]

theorem saga_agreement_paying :
    letI := asciiCi
    ∃ s : State, run step start (ordering ++ paying) = some s ∧
      (∃ o, s.store.db.orders.row 1 = some o ∧ o.status = .paid) ∧
      ∃ r, s.remote.reservationOf 1 = some r ∧ r.status = .confirmed := by
  let _ : Collation := asciiCi
  have h : (run step start (ordering ++ paying)).map
      (fun s => (s.store.db.orders.row 1).map (·.status)) = some (some .paid) := by decide
  obtain ⟨s, hs, hv⟩ := Option.map_eq_some_iff.mp h
  obtain ⟨o, ho, hst⟩ := Option.map_eq_some_iff.mp hv
  have hend : run step s [] = some s := rfl
  obtain ⟨r, hr, -, hconf⟩ := (saga_agreement hs hend ho ho).1 (Or.inl hst)
  exact ⟨s, hs, ⟨o, ho, hst⟩, r, hr, hconf⟩

/-! ## 2. At most once -/

section

variable [Collation]

/-- The order has the user and, for the index on it, the key. -/
def HasKey (user : Int) (key : GoString) (o : Order) : Prop :=
  o.userID = user ∧ Collation.weight o.idempotencyKey = Collation.weight key

/-- The call is for the user and, once trimmed, for the key. -/
def CallHasKey (user : Int) (key : GoString) (c : CreateCall) : Prop :=
  c.userID = user ∧ Collation.weight (trimSpace c.idempotencyKey) = Collation.weight key

/-- What two points of a run show of one user and key. -/
structure OnceFor (user : Int) (key : GoString) (s s' : State) : Prop where
  /-- one order -/
  order : ∀ i j o o', s.store.db.orders.row i = some o → s'.store.db.orders.row j = some o' →
    HasKey user key o → HasKey user key o' → i = j
  /-- one reservation for it -/
  reservation : ∀ (i : Nat) o w w' r r', s.store.db.orders.row i = some o → HasKey user key o →
    s.remote.reservationAt w = some r → s'.remote.reservationAt w' = some r' →
    r.orderID = i → r'.orderID = i → w = w' ∧ r.id = r'.id
  /-- one timeout row for it -/
  outbox : ∀ i o k k' row row', s.store.db.orders.row i = some o → HasKey user key o →
    s.store.db.outbox.row k = some row → s'.store.db.outbox.row k' = some row' →
    row.orderID = i → row'.orderID = i → k = k'
  /-- one answer -/
  result : ∀ p p' c c' i j o o', s.At p (.create c (.returned (.ok (i, o)))) →
    s'.At p' (.create c' (.returned (.ok (j, o')))) →
    CallHasKey user key c → CallHasKey user key c' → i = j

variable {user : Int} {key : GoString} {o : Order}

theorem Wired.hasKey_unique {db : DB} {inv : InventorySvc.DB} (hw : Wired db inv) {i j : Nat}
    {o' : Order} (hi : db.orders.row i = some o) (hj : db.orders.row j = some o')
    (h : HasKey user key o) (h' : HasKey user key o') : i = j :=
  hw.keys i j o o' hi hj (h.1.trans h'.1.symm) (h.2.trans h'.2.symm)

/-- The order a successful call returned. -/
theorem Known.answer {s : State} (h : Known s) {p : Nat} {c : CreateCall} {i : Nat}
    (hp : s.At p (.create c (.returned (.ok (i, o))))) (hc : CallHasKey user key c) :
    ∃ row, s.store.db.orders.row i = some row ∧ HasKey user key row := by
  obtain ⟨row, hrow, hu, hk⟩ := h.procs p _ hp
  exact ⟨row, hrow, hu.trans hc.1, hk.trans hc.2⟩

theorem SameOrder.hasKey {o' : Order} (h : SameOrder o o') (hk : HasKey user key o) :
    HasKey user key o' :=
  ⟨h.userID.trans hk.1, by rw [h.idempotencyKey]; exact hk.2⟩

/-- **`Create` is at most once per user and key.**  At any two points of a run, and so also at
any one, the orders with that user and key are one order, with at most one reservation and at
most one timeout row, and calls for that user and key that returned without error returned the
same order. -/
theorem create_at_most_once {es es' : List Event} {s s' : State}
    (h : run step start es = some s) (h' : run step s es' = some s') (user : Int)
    (key : GoString) : OnceFor user key s s' := by
  have hk := wired_run h
  have hk' := wired_run (run_append.mpr ⟨s, h, h'⟩)
  have hev := evolves_run hk h'
  have hone : ∀ i j o o', s.store.db.orders.row i = some o →
      s'.store.db.orders.row j = some o' → HasKey user key o → HasKey user key o' → i = j := by
    intro i j o o' hi hj ho ho'
    obtain ⟨o₁, hi₁, hsame, -⟩ := hev.orders i o hi
    exact hk'.wired.hasKey_unique hi₁ hj (SameOrder.hasKey hsame ho) ho'
  refine ⟨hone, fun i o w w' r r' _ _ hr hr' ho ho' => ?_,
    fun i o k k' row row' _ _ hrow hrow' ho ho' => ?_,
    fun p p' c c' i j o o' hp hp' hc hc' => ?_⟩
  · obtain ⟨r₁, hr₁, hid, hord, -⟩ := hev.inventory.reservations w r hr
    have h1 := hk'.wired.indexed.indexed w r₁ hr₁
    have h2 := hk'.wired.indexed.indexed w' r' hr'
    rw [hord, ho, ← ho', h2] at h1
    have hids : r'.id = r.id := (Option.some.inj h1).trans hid
    refine ⟨?_, hids.symm⟩
    rw [← hk'.wired.indexed.keyed w r₁ hr₁, ← hk'.wired.indexed.keyed w' r' hr', hid, hids]
  · obtain ⟨row₁, hrow₁, ho₁⟩ := hev.outbox k row hrow
    exact hk'.wired.timeouts k k' row₁ row' hrow₁ hrow' (by rw [ho₁, ho, ho'])
  · obtain ⟨row, hrow, hkey⟩ := hk.answer hp hc
    obtain ⟨row', hrow', hkey'⟩ := hk'.answer hp' hc'
    exact hone i j row row' hrow hrow' hkey hkey'

end

/-- The same request again, after the first has returned. -/
def again : List Event :=
  [.spawn (.create ⟨30, 1, [0x6b], [⟨1, 3⟩]⟩ .lookup), .act 2 (.sql .ok [])]

theorem create_at_most_once_again :
    letI := asciiCi
    ∃ s s' : State, run step start ordering = some s ∧ run step s again = some s' ∧
      OnceFor 1 [0x6b] s s' ∧ s'.procs.next = 3 ∧ s'.store.db.orders.next = 2 := by
  let _ : Collation := asciiCi
  have h : (run step start (ordering ++ again)).map
      (fun s => (s.procs.next, s.store.db.orders.next)) = some (3, 2) := by decide
  obtain ⟨s', hs', hv⟩ := Option.map_eq_some_iff.mp h
  obtain ⟨s, hs, hrun⟩ := run_append.mp hs'
  obtain ⟨h3, h2⟩ := Prod.mk.inj hv
  exact ⟨s, s', hs, hrun, create_at_most_once hs hrun 1 [0x6b], h3, h2⟩

end OrderSystem.Saga
