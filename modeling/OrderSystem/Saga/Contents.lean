/-
# What is ordered is what is reserved

`Create` resolves the requested lines once and uses the result twice: the items it inserts with
the order, and the lines it sends to `Reserve`.  The inventory service adds the lines up and
sorts them again.  This module says that nothing gets lost on the way: with a catalog that
answers with the product it was asked for, the items of an order and those of its reservation
are the same products with the same quantities, and the order's total is the sum of its items.

The catalog matters because the items carry the product id of the answer: if two lines were
answered with one product, the reservation would hold it once, with the sum.

`Stocked` is the invariant.  It follows the lines from the draft of an order to its row, to the
call that reserves them, to the request in flight and to the reservation's row.
-/
import OrderSystem.Saga.Creation

namespace OrderSystem.Saga

open OrderSystem.Kit
open OrderSystem.OrderSvc
open OrderSystem.InventorySvc (Reservation)

/-! ## 1. What `resolveItems` builds -/

/-- What the items of an order cost. -/
def itemCost (items : List OrderItem) : Int := (items.map fun i => i.priceFen * i.quantity).sum

/-- The items of an order name every product once, and the total is what they cost, as `int64`
arithmetic adds it up. -/
structure Itemised (items : List OrderItem) (total : Int) : Prop where
  lines : Normal (items.map itemLine)
  total : total = wrap64 (itemCost items)

variable {catalog : Int → Except GoString CatalogProduct}

/-- The loop keeps its two lists in step and adds up the cost. -/
theorem resolveLoop_total :
    ∀ (lines : List ItemRequest) {acc r : Resolved}, resolveLoop catalog acc lines = .ok r →
      acc.reserveItems = acc.items.map itemLine → acc.total = wrap64 (itemCost acc.items) →
      r.reserveItems = r.items.map itemLine ∧ r.total = wrap64 (itemCost r.items)
  | [], acc, r, h, hlines, htotal => by
    simp only [resolveLoop, Except.ok.injEq] at h
    exact h ▸ ⟨hlines, htotal⟩
  | line :: lines, acc, r, h, hlines, htotal => by
    simp only [resolveLoop] at h
    split at h
    · exact absurd h (by simp)
    · rename_i product hproduct
      split at h
      · exact absurd h (by simp)
      · rename_i acc' hitem
        obtain ⟨hitems, hreserve, hsum⟩ := resolveItem_ok hitem
        refine resolveLoop_total lines h ?_ ?_
        · rw [hreserve, hitems, hlines, List.map_append]
          rfl
        · rw [hsum, hitems, htotal, wrap64_wrap64_add]
          simp [itemCost]

/-- **What `resolveItems` builds**: items that name every product once, and the same lines to
reserve. -/
theorem resolveItems_itemised (hcat : Honest catalog) {requested : List ItemRequest} {r : Resolved}
    (h : resolveItems catalog requested = .ok r) :
    r.reserveItems = r.items.map itemLine ∧ Itemised r.items r.total := by
  unfold resolveItems at h
  split at h
  · exact absurd h (by simp)
  · split at h
    · exact absurd h (by simp)
    · rename_i quantities hagg
      have hlines := resolveLoop_lines hcat _ h
      obtain ⟨hsame, htotal⟩ := resolveLoop_total _ h rfl rfl
      refine ⟨hsame, ?_, htotal⟩
      rw [hlines, List.map_nil, List.nil_append]
      exact normal_sorted hagg

/-- The inventory service takes normal lines as they are. -/
theorem normalizeItems_normal {lines lines' : List ItemRequest} (hn : Normal lines)
    (h : InventorySvc.normalizeItems lines = some lines') : lines' = lines := by
  unfold InventorySvc.normalizeItems at h
  split at h
  · exact absurd h (by simp)
  · obtain ⟨quantities, hagg, rfl⟩ := Option.map_eq_some_iff.mp h
    exact hn.sorted_eq hagg

/-! ## 2. The lines of an order, wherever they are -/

section

variable [Collation]

/-- The order has these lines. -/
def HasLines (db : DB) (orderID : Nat) (lines : List ItemRequest) : Prop :=
  ∃ o, db.orders.row orderID = some o ∧ o.items.map itemLine = lines

/-- What a call of `Create` has in hand. -/
def stockedPc (db : DB) : CreatePc → Prop
  | .insert draft items =>
    items = draft.items.map itemLine ∧ Itemised draft.items draft.totalFen
  | .reserve orderID _ items => HasLines db orderID items
  | _ => True

/-- The lines of an order are the same everywhere. -/
structure Stocked (s : State) : Prop where
  orders : ∀ i o, s.store.db.orders.row i = some o → Itemised o.items o.totalFen
  procs : ∀ p c pc, s.At p (.create c pc) → stockedPc s.store.db pc
  requests : ∀ p (req : InventorySvc.ReserveRequest), (p, .reserve req) ∈ s.requests →
    ∃ orderID : Nat, req.orderID = orderID ∧ HasLines s.store.db orderID req.items
  reservations : ∀ w r, s.remote.reservationAt w = some r →
    ∃ orderID : Nat, r.orderID = orderID ∧ HasLines s.store.db orderID (r.items.map (·.line))

omit [Collation] in
theorem HasLines.mono {db db' : DB} {inv inv' : InventorySvc.DB} {orderID : Nat}
    {lines : List ItemRequest} (h : HasLines db orderID lines) (hev : Evolves db db' inv inv') :
    HasLines db' orderID lines := by
  obtain ⟨o, ho, hlines⟩ := h
  obtain ⟨o', ho', hsame, -⟩ := hev.orders orderID o ho
  exact ⟨o', ho', by rw [hsame.items]; exact hlines⟩

/-- The catalog of every step answers with the product it is asked for. -/
def HonestCatalog (e : Event) : Prop :=
  ∀ p catalog uuid, e = .act p (.resolve catalog uuid) → Honest catalog

variable {s s' : State} {e : Event}

/-- The items of every order stay in order. -/
theorem Stocked.orders_step (h : Stocked s) (hs : step s e = some s') {i : Nat} {o : Order}
    (ho : s'.store.db.orders.row i = some o) :
    Itemised o.items o.totalFen := by
  rcases order_origin hs ho with ⟨o₀, ho₀, hstep⟩ | ⟨p, c, draft, items, hacc, hq, rfl⟩
  · cases hstep with
    | kept => exact h.orders i o ho₀
    | written p oc locked q stmt r _ old he hq hstmt hw hexec hch =>
      rw [hch.same.items, hch.same.totalFen]
      exact h.orders i o₀ ho₀
  · exact (h.procs p c _ hq).2

/-- What a call of `Create` has in hand after a step. -/
theorem stockedPc_step (h : Stocked s) (hC : HonestCatalog e) (hs : step s e = some s')
    (hev : Evolves s.store.db s'.store.db s.remote s'.remote) {p : Nat} {c : CreateCall}
    {pc : CreatePc} (hat : s'.At p (.create c pc)) :
    stockedPc s'.store.db pc := by
  cases create_arrives hs hat with
  | kept pc hq =>
    have hpc := h.procs p c pc hq
    cases pc with
    | insert draft items => exact hpc
    | reserve orderID id items => exact HasLines.mono hpc hev
    | _ => trivial
  | drafted catalog uuid r he hq hu hr hstill => exact resolveItems_itemised (hC p _ _ he) hr
  | inserted draft items i hq hok =>
    obtain ⟨locked, -, hexec⟩ := hok.event
    obtain ⟨⟨hacc, hdb⟩, hi, -⟩ := insertOrder_ok hexec
    obtain rfl := Res.inserted.inj hi
    have hitems := (h.procs p c _ hq).1
    exact ⟨draft.row hacc, by rw [hdb]; exact Table.insert_row_next .., hitems.symm⟩
  | _ => trivial

omit [Collation] in
/-- A reservation that `Reserve` makes has the lines of the request. -/
theorem hasLines_of_placed (h : Stocked s) {p : Nat} {req : InventorySvc.ReserveRequest}
    (hreq : (p, .reserve req) ∈ s.requests) {r : Reservation} (hord : r.orderID = req.orderID)
    (hitems : InventorySvc.normalizeItems req.items = some (r.items.map (·.line))) :
    ∃ orderID : Nat, r.orderID = orderID ∧
      HasLines s.store.db orderID (r.items.map (·.line)) := by
  obtain ⟨orderID, hid, o, ho, hlines⟩ := h.requests p req hreq
  refine ⟨orderID, hord.trans hid, o, ho, ?_⟩
  rw [← hlines] at hitems
  exact (normalizeItems_normal (h.orders orderID o ho).lines hitems).symm

theorem Stocked.step {s s' : State} {e : Event} (h : Stocked s) (hk : Known s)
    (hC : HonestCatalog e) (hs : step s e = some s') : Stocked s' := by
  have hc := change_of_step hs
  have hev := evolves_step hk hc
  refine ⟨fun i o ho => h.orders_step hs ho, fun p c pc hat => stockedPc_step h hC hs hev hat,
    fun p req hreq => ?_, fun w r' hr' => ?_⟩
  · rcases origin_of_request hs hreq with hreq | ⟨q, -, hq, hcall⟩
    · obtain ⟨orderID, hid, hlines⟩ := h.requests p req hreq
      exact ⟨orderID, hid, hlines.mono hev⟩
    · obtain ⟨c, orderID, id, items, rfl, hid, -, hitems⟩ := reserve_of_request hcall
      have hlines : HasLines s.store.db orderID items := h.procs p c _ hq
      exact ⟨orderID, hid, hitems ▸ hlines.mono hev⟩
  · have hkept : ∀ r, s.remote.reservationAt w = some r → r'.orderID = r.orderID →
        r'.items = r.items → ∃ orderID : Nat, r'.orderID = orderID ∧
          HasLines s'.store.db orderID (r'.items.map (·.line)) := by
      intro r hr hord hitems
      obtain ⟨orderID, hid, hlines⟩ := h.reservations w r hr
      exact ⟨orderID, hord.trans hid, hitems ▸ hlines.mono hev⟩
    cases hc with
    | none _ hinv => exact hkept r' (hinv ▸ hr') rfl rfl
    | sql _ _ _ _ _ _ _ _ _ _ hinv => exact hkept r' (hinv ▸ hr') rfl rfl
    | supplied p q hsup _ => exact hkept r' (hsup.reservations ▸ hr') rfl rfl
    | served p generated op r hop hexec hdb =>
      rcases (op_effect hexec).backward hr' with
        ⟨r₀, hr₀, -, hord, hitems⟩ | ⟨g, q, hq, hord, -, hitems⟩
      · exact hkept r₀ hr₀ hord hitems
      · cases op with
        | settle t id => cases t <;> exact absurd hq (by simp [InventoryOp.toRequest])
        | reserve req =>
          simp only [InventoryOp.toRequest, InventorySvc.Request.reserve.injEq] at hq
          obtain ⟨-, rfl⟩ := hq
          obtain ⟨orderID, hid, hlines⟩ := hasLines_of_placed h hop hord hitems
          exact ⟨orderID, hid, hlines.mono hev⟩

omit [Collation] in
theorem stocked_start : Stocked start where
  orders i o h := absurd h (by simp [start, World.init, DB.empty])
  procs p c pc h := absurd h (by simp [World.At, World.init, start])
  requests p req h := absurd h (by simp [World.init, start])
  reservations w r h := absurd h (by
    simp [World.init, start, InventorySvc.DB.empty, InventorySvc.DB.reservationAt])

/-! ## 3. Every run -/

/-- An order that was pending at some point of a run has a reservation ever after. -/
theorem reserved_of_hasBeen {es : List Event} (h : run step start es = some s) {i : Nat}
    (hbeen : HasBeen es i .pending) : Reserved s.remote i := by
  obtain ⟨n, s₁, o₁, hrun, ho₁, hst⟩ := hbeen
  have hk := wired_run hrun
  have hback := hk.wired.backed i o₁ ho₁
  rw [hst] at hback
  rw [← List.take_append_drop n es] at h
  obtain ⟨s₂, hrun₂, hrest⟩ := run_append.mp h
  obtain rfl := Option.some.inj (hrun.symm.trans hrun₂)
  exact Reserved.persists hback (evolves_run hk hrest).inventory

/-- **What is ordered is what is reserved.**  In every run in which the catalog answers with the
product it was asked for, an order that has ever been `pending` names a reservation that is its
own, that holds exactly the products and quantities of the order's items, each product once, and
the order's total is what its items cost, as `int64` arithmetic adds it up. -/
theorem ordered_is_reserved {es : List Event} {s : State} (h : run step start es = some s)
    (hcat : ∀ p catalog uuid, .act p (.resolve catalog uuid) ∈ es →
      ∀ x product, catalog x = .ok product → product.id = x)
    {i : Nat} {o : Order} (ho : s.store.db.orders.row i = some o)
    (hbeen : HasBeen es i .pending) :
    ∃ r, s.remote.reservation o.reservationID = some r ∧ r.orderID = i ∧
      r.items.map (fun x => (x.productID, x.quantity)) =
        o.items.map (fun x => (x.productID, x.quantity)) ∧
      (o.items.map (·.productID)).Nodup ∧
      o.totalFen = wrap64 (o.items.map fun x => x.priceFen * x.quantity).sum := by
  have hC : Meets (fun _ e => HonestCatalog e) step start es :=
    meets_of_forall (by
      intro e he _ p catalog uuid heq
      subst heq
      exact hcat p catalog uuid he) start
  have hI := run_invariant_of (C := fun _ e => HonestCatalog e)
    (I := fun t => Known t ∧ Stocked t)
    (by
      rintro _ _ _ ⟨hk, hst⟩ hc hs
      exact ⟨hk.step hs, hst.step hk hc hs⟩)
    ⟨known_start, stocked_start⟩ hC h
  obtain ⟨hk, hstocked⟩ := hI
  obtain ⟨r, hr⟩ := reserved_of_hasBeen h hbeen
  obtain ⟨⟨o', ho', hid⟩, hr'⟩ := hk.wired.resv_named hr
  obtain rfl := Option.some.inj (ho.symm.trans ho')
  obtain ⟨w, hw, hord⟩ := hk.wired.indexed.reservationOf.mp hr
  obtain ⟨orderID, hid', o₁, ho₁, hlines⟩ := hstocked.reservations w r hw
  obtain rfl : orderID = i := Int.ofNat.inj (hid'.symm.trans hord)
  obtain rfl := Option.some.inj (ho.symm.trans ho₁)
  obtain ⟨hnormal, htotal⟩ := hstocked.orders orderID o ho
  refine ⟨r, hid ▸ hr', hord, ?_, ?_, htotal⟩
  · have hpairs := congrArg (List.map fun l : ItemRequest => (l.productID, l.quantity)) hlines
    simpa [Function.comp_def, itemLine, InventorySvc.ReservationItem.line] using hpairs.symm
  · have hne := hnormal.sorted.imp (S := fun a b => a.productID ≠ b.productID) fun hlt => hlt.ne
    rw [List.pairwise_map] at hne
    rw [List.Nodup, List.pairwise_map]
    exact hne

end

theorem ordered_is_reserved_ordering :
    letI := asciiCi
    ∃ s o r, run step start ordering = some s ∧ s.store.db.orders.row 1 = some o ∧
      o.totalFen = 15 ∧ s.remote.reservation o.reservationID = some r ∧
      r.items.map (fun x => (x.productID, x.quantity)) =
        o.items.map (fun x => (x.productID, x.quantity)) := by
  let _ : Collation := asciiCi
  have h : (run step start ordering).bind (fun s => (s.store.db.orders.row 1).map fun o =>
      (o.status, o.totalFen)) = some (.pending, 15) := by decide
  obtain ⟨s, hs, hv⟩ := Option.bind_eq_some_iff.mp h
  obtain ⟨o, ho, hv⟩ := Option.map_eq_some_iff.mp hv
  obtain ⟨hst, htotal⟩ := Prod.mk.inj hv
  have hbeen : HasBeen ordering 1 .pending :=
    ⟨ordering.length, s, o, by rw [List.take_length]; exact hs, ho, hst⟩
  obtain ⟨r, hr, -, hitems, -⟩ := ordered_is_reserved hs (by
    intro p catalog uuid hmem x product hx
    simp only [ordering, List.mem_cons, List.not_mem_nil, RpcEvent.act.injEq, Choice.resolve.injEq,
      reduceCtorEq, and_false, or_false, false_or] at hmem
    rw [hmem.2.1] at hx
    exact congrArg CatalogProduct.id (Except.ok.inj hx).symm) ho hbeen
  exact ⟨s, o, r, hs, ho, htotal, hr, hitems⟩

end OrderSystem.Saga
