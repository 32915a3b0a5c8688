/-
# What a successful Create means

`Create` returns an order in three ways: the lookup before it does anything finds one under its
key, the lookup after a lost race finds one, or it made the order itself and reads it back.
Only the last way looks at what the order is: the lookups return whatever row has the key.

* `create_placed` -- if no lookup finds an order that is being reserved, has failed or waits for
  reconciliation, then an order that `Create` returned has been `pending`.  Without that, a
  retry answers with the failed order of the first attempt (`failed_order_returned`).
* `create_items` -- if the calls that share a key ask for the same quantities, the order a call
  returned has the quantities that call asked for.  Without that, the call is answered with the
  order of another request (`other_order_returned`).
-/
import OrderSystem.Saga.Agreement

namespace OrderSystem.Saga

open OrderSystem.Kit
open OrderSystem.OrderSvc
open OrderSystem.InventorySvc (Reservation)

section

variable [Collation]

/-! ## 1. Orders that got past their reservation -/

/-- A status that an order has only after it was `pending`. -/
def IsPlaced (st : OrderStatus) : Prop :=
  st ≠ .reserving ∧ st ≠ .failed ∧ st ≠ .reconciliationRequired

instance (st : OrderStatus) : Decidable (IsPlaced st) := inferInstanceAs (Decidable (_ ∧ _))

/-- The two actions that settle a placed order are for orders with a timeout row. -/
def TaskOk (db : DB) (task : ReconciliationTask) : Prop :=
  task.action = .finalizeCancel ∨ task.action = .finalizePayment → Outboxed db task.orderID

/-- What a process knows about timeout rows. -/
def timedOk (db : DB) : Proc → Prop
  | .recon _ pc => ∀ task ∈ reconTasks pc, TaskOk db task.2
  | .create _ (.get orderID) => Outboxed db orderID
  | _ => True

/-- A placed order has its timeout row. -/
structure Timed (s : State) : Prop where
  orders : ∀ i o, s.store.db.orders.row i = some o → IsPlaced o.status → Outboxed s.store.db i
  tasks : ∀ i task, s.store.db.tasks.row i = some task → TaskOk s.store.db task
  procs : ∀ p q, s.At p q → timedOk s.store.db q

variable {db : DB} {q : Proc} {s s' : State} {p i : Nat} {st : OrderStatus} {e : Event}
  {c : CreateCall} {o : Order}

omit [Collation] in
theorem TaskOk.mono {db' : DB} {inv inv' : InventorySvc.DB} {task : ReconciliationTask}
    (h : TaskOk db task) (hev : Evolves db db' inv inv') : TaskOk db' task :=
  fun hact => (h hact).mono hev

omit [Collation] in
theorem timedOk_mono {db' : DB} {inv inv' : InventorySvc.DB} (hev : Evolves db db' inv inv')
    (h : timedOk db q) : timedOk db' q := by
  cases q with
  | recon cfg pc => exact fun task ht => (h task ht).mono hev
  | create c pc =>
    cases pc with
    | get orderID => exact Outboxed.mono h hev
    | _ => trivial
  | _ => trivial

/-- An order that a statement moves to a placed status has its timeout row afterwards: it was
placed before, or this is the finalising transaction of `Create`, or a task says so. -/
theorem outboxed_of_writer (hk : Known s) (h : Timed s) (hq : s.At p q) {stmt : Stmt}
    (hw : Writer q stmt) {now : Int} {locked : List Nat} {r : Res}
    (hexec : stmt.exec now locked s.store.db = .ok (r, s'.store.db))
    (hev : Evolves s.store.db s'.store.db s.remote s'.remote) {x x' : Order}
    {old : Option OrderStatus} (hx : s.store.db.orders.row i = some x)
    (hch : ChangedTo stmt i x x' old) (hst : IsPlaced x'.status) : Outboxed s'.store.db i := by
  have hchange := hch.change
  have hplaced : ∀ st ∈ old, IsPlaced st → Outboxed s'.store.db i := fun st hm hp =>
    (h.orders i x hx (hch.was st hm ▸ hp)).mono hev
  have hknow := hk.procs p q hq
  cases hw with
  | createFail c orderID cause =>
    simp only [Stmt.change, Option.some.injEq, Prod.mk.injEq] at hchange
    exact absurd hchange.2.2.symm hst.2.1
  | createFinalize c orderID id =>
    simp only [Stmt.change, Option.some.injEq, Prod.mk.injEq] at hchange
    obtain ⟨-, -, ⟨row, rfl, hout⟩, -⟩ := finalizeCreate_ok hexec
    exact ⟨_, _, by rw [hout]; exact Table.insert_row_next .., hchange.1⟩
  | createCompensate c orderID status reason result =>
    simp only [Stmt.change, Option.some.injEq, Prod.mk.injEq] at hchange
    rcases hknow.2.2 with ⟨hf, -⟩ | hf
    · exact absurd (hchange.2.2.symm.trans hf) hst.2.1
    · exact absurd (hchange.2.2.symm.trans hf) hst.2.2
  | settleClaim c o =>
    simp only [Stmt.change, Option.some.injEq, Prod.mk.injEq] at hchange
    exact hplaced .pending hchange.2.1.symm (by decide)
  | settleRevert c cause | settleFinalize c =>
    simp only [Stmt.change, Option.some.injEq, Prod.mk.injEq] at hchange
    exact hplaced c.kind.transient hchange.2.1.symm (by cases c.kind <;> decide)
  | settleCompensate c cause =>
    simp only [Stmt.change, Option.some.injEq, Prod.mk.injEq] at hchange
    exact absurd hchange.2.2.symm hst.2.2
  | finish c =>
    simp only [Stmt.change, Option.some.injEq, Prod.mk.injEq] at hchange
    exact hplaced .paid hchange.2.1.symm (by decide)
  | complete cfg task target closes rest =>
    simp only [Stmt.change, Option.some.injEq, Prod.mk.injEq] at hchange
    obtain ⟨rfl, -, htarget⟩ := hchange
    obtain ⟨op, hplan, -⟩ := hknow
    have htask : TaskOk s.store.db task.2 := h.procs p _ hq task List.mem_cons_self
    refine (htask ?_).mono hev
    revert hplan
    cases task.2.action with
    | releaseInventoryAndFail =>
      intro hplan
      simp only [Action.plan, Option.some.injEq, Prod.mk.injEq] at hplan
      exact absurd (htarget.symm.trans hplan.1.symm) hst.2.1
    | finalizeCancel => exact fun _ => Or.inl rfl
    | finalizePayment => exact fun _ => Or.inr rfl
    | unsupportedFrom st =>
      intro hplan
      exact absurd hplan (by simp [Action.plan])

omit [Collation] in
/-- The trigger makes the two actions for placed orders only. -/
theorem isPlaced_of_taskFor
    (h : (taskFor st).1 = .finalizeCancel ∨ (taskFor st).1 = .finalizePayment) : IsPlaced st := by
  cases st <;> first | decide | exact absurd h (by simp [taskFor])

/-- What a process knows about timeout rows after a step. -/
theorem timedOk_step (h : Timed s) (hs : step s e = some s')
    (hev : Evolves s.store.db s'.store.db s.remote s'.remote) (hat : s'.At p q) :
    timedOk s'.store.db q := by
  cases q with
  | recon cfg pc =>
    intro task ht
    rcases recon_tasks hs hat ht with ⟨pc₀, hq, ht₀⟩ | ⟨tasks, ht, -, hok⟩
    · exact (h.procs p _ hq task ht₀).mono hev
    · obtain ⟨row, hrow, hleased⟩ := hok.tasks.2 task ht
      rw [hleased]
      exact (h.tasks _ row hrow).mono hev
  | create c pc =>
    cases create_arrives hs hat with
    | kept pc hq => exact timedOk_mono hev (h.procs p _ hq)
    | finalized orderID id r hq hok =>
      obtain ⟨locked, -, hexec⟩ := hok.event
      obtain ⟨-, -, ⟨row, hrow, hout⟩, -⟩ := finalizeCreate_ok hexec
      exact ⟨_, row, by rw [hout]; exact Table.insert_row_next .., by rw [hrow]⟩
    | _ => trivial
  | _ => trivial

theorem Timed.step (h : Timed s) (hk : Known s) (hs : step s e = some s') : Timed s' := by
  have hev := evolves_step hk (change_of_step hs)
  refine ⟨fun i o ho hst => ?_, fun i task htask => ?_, fun p q hat => ?_⟩
  · rcases order_origin hs ho with ⟨x, hx, hstep⟩ | ⟨p, c, draft, items, hacc, -, rfl⟩
    · cases hstep with
      | kept => exact (h.orders i o hx hst).mono hev
      | written p oc locked q stmt r _ old he hq hstmt hw hexec hch =>
        exact outboxed_of_writer hk h hq hw hexec hev hx hch hst
    · exact absurd rfl hst.1
  · cases db_step hs with
    | none hdb => exact (h.tasks i task (hdb ▸ htask)).mono hev
    | sql p _ locked q stmt r he hq hstmt hexec =>
      rcases exec_tasks hexec htask with ⟨t₀, ht₀, hid, hact⟩ | ⟨x, old, hx, -, -, hact⟩
      · intro hf
        exact hid ▸ (h.tasks i t₀ ht₀ (hact ▸ hf)).mono hev
      · intro hf
        exact (h.orders _ x hx (isPlaced_of_taskFor (hact ▸ hf))).mono hev
  · exact timedOk_step h hs hev hat

omit [Collation] in
theorem timed_start : Timed start where
  orders i o ho := absurd ho (by simp [start, World.init, DB.empty])
  tasks i task ht := absurd ht (by simp [start, World.init, DB.empty])
  procs p q hq := absurd hq (by simp [World.At, World.init, start])

/-- The order had this status at some point of the run. -/
def HasBeen (es : List Event) (orderID : Nat) (st : OrderStatus) : Prop :=
  ∃ n s o, run step start (es.take n) = some s ∧ s.store.db.orders.row orderID = some o ∧
    o.status = st

theorem HasBeen.snoc {es : List Event} {orderID : Nat} (h : HasBeen es orderID st) (e : Event) :
    HasBeen (es ++ [e]) orderID st := by
  obtain ⟨n, s, o, hrun, ho, hst⟩ := h
  refine ⟨min n es.length, s, o, ?_, ho, hst⟩
  rw [List.take_append_of_le_length (Nat.min_le_right _ _), ← List.take_take, List.take_length]
  exact hrun

/-- **An order with a timeout row has been pending**: its finalising transaction made the row. -/
theorem hasBeen_pending (es : List Event) : ∀ {s : State}, run step start es = some s →
    ∀ {orderID : Nat}, Outboxed s.store.db orderID → HasBeen es orderID .pending := by
  induction es using List.reverseRecOn with
  | nil =>
    rintro s h orderID ⟨i, row, hrow, -⟩
    obtain rfl := Option.some.inj h
    exact absurd hrow (by simp [start, World.init, DB.empty])
  | append_singleton es e ih =>
    rintro s' h orderID hout
    obtain ⟨s, hrun, hs⟩ := run_snoc.mp h
    obtain ⟨i, row, hrow, ho⟩ := hout
    cases db_step hs with
    | none hdb => exact (ih hrun ⟨i, row, hdb ▸ hrow, ho⟩).snoc e
    | sql p o locked q stmt r he hq hstmt hexec =>
      rcases (exec_outbox hexec).adds i row hrow with ⟨row₀, hrow₀, ho₀⟩ | ⟨-, ⟨id, delay, rfl⟩, -⟩
      · exact (ih hrun ⟨i, row₀, hrow₀, ho₀.trans ho⟩).snoc e
      · -- the row is new, so the order is pending right now
        obtain ⟨-, ⟨x, x', -, hst, -, hchg⟩, -, -⟩ := finalizeCreate_ok hexec
        refine ⟨(es ++ [e]).length, s', x', ?_, ho ▸ hchg.row, hst⟩
        rw [List.take_length]
        exact h

/-! ## 2. The three exits of Create -/

/-- The order that the lookup of a call finds. -/
def findExisting (db : DB) (c : CreateCall) : Option (Nat × Order) :=
  db.orders.search fun o => o.userID = c.userID ∧
    Collation.weight o.idempotencyKey = Collation.weight c.key

/-- The order that a step finds, if the step is one of the two lookups of `Create`. -/
def lookedUp (s : State) : Event → Option (Nat × Order)
  | .act p (.sql _ _) =>
    match s.procs.row p with
    | some (.create c .lookup) => findExisting s.store.db c
    | some (.create c (.relookup _)) => findExisting s.store.db c
    | _ => none
  | _ => none

theorem findExisting_some (h : findExisting db c = some (i, o)) :
    db.orders.row i = some o ∧ HasKey c.userID c.key o := by
  obtain ⟨hrow, hp⟩ := Table.search_eq_some h
  exact ⟨hrow, by simpa [HasKey] using hp⟩

/-- **The exits of `Create`**: a call that has returned an order had returned it before the step,
or the step is a lookup that found it, or the final `Get`. -/
theorem returned_origin (hs : step s e = some s') (h : s'.At p (.create c (.returned (.ok (i, o)))))
    :
    s.At p (.create c (.returned (.ok (i, o)))) ∨
      ((∃ pc, s.At p (.create c pc)) ∧ s'.store.db = s.store.db ∧ lookedUp s e = some (i, o) ∧
        s.store.db.orders.row i = some o ∧ HasKey c.userID c.key o) ∨
      (s'.store.db = s.store.db ∧ s.At p (.create c (.get i)) ∧
        s.store.db.orders.row i = some o) := by
  cases create_arrives hs h with
  | kept pc hq => exact Or.inl hq
  | found pc i o hpc hq hok =>
    obtain ⟨locked, he, hexec⟩ := hok.event
    obtain ⟨hdb, id, o', hfind, horder⟩ := found_ok hexec
    obtain ⟨rfl, rfl⟩ := Res.order.inj horder
    have hrow : s.procs.row p = some (.create c pc) := hq
    refine Or.inr (Or.inl ⟨⟨pc, hq⟩, hdb, ?_, findExisting_some hfind⟩)
    rw [he, lookedUp, hrow]
    rcases hpc with rfl | ⟨cause, rfl⟩
    · exact hfind
    · exact hfind
  | gotten orderID o hq hok =>
    obtain ⟨locked, -, hexec⟩ := hok.event
    obtain ⟨hdb, -⟩ := found_ok hexec
    exact Or.inr (Or.inr ⟨hdb, hq, hok.loaded.1⟩)

/-! ## 3. A returned order was placed -/

/-- The lookups of `Create` find nothing, or an order that got past its reservation. -/
def LookupsFindPlaced (s : State) (e : Event) : Prop :=
  ∀ found ∈ lookedUp s e, IsPlaced found.2.status

instance (s : State) (e : Event) : Decidable (LookupsFindPlaced s e) :=
  inferInstanceAs (Decidable (∀ found ∈ lookedUp s e, _))

/-- Every order that a call has returned has its timeout row. -/
def ReturnedTimed (s : State) : Prop :=
  ∀ p c i o, s.At p (.create c (.returned (.ok (i, o)))) → Outboxed s.store.db i

theorem ReturnedTimed.step (h : ReturnedTimed s) (hk : Known s) (ht : Timed s)
    (hC : LookupsFindPlaced s e) (hs : step s e = some s') : ReturnedTimed s' := by
  intro p c i o hp
  rcases returned_origin hs hp with hp | ⟨-, hdb, hfound, hrow, -⟩ | ⟨hdb, hget, -⟩
  · exact (h p c i o hp).mono (evolves_step hk (change_of_step hs))
  · rw [hdb]
    exact ht.orders i o hrow (hC (i, o) hfound)
  · rw [hdb]
    exact ht.procs p _ hget

/-- **A successful `Create` means that stock was reserved.**  In every run in which no lookup of
`Create` finds an order that is still being reserved, has failed or waits for reconciliation, an
order that a call returned without error has been `pending`. -/
theorem create_placed {es : List Event} {s : State} (h : run step start es = some s)
    (hC : Meets LookupsFindPlaced step start es) {p : Nat} {c : CreateCall} {i : Nat} {o : Order}
    (hp : s.At p (.create c (.returned (.ok (i, o))))) : HasBeen es i .pending := by
  have h0 : ReturnedTimed start := fun p c i o hp =>
    absurd hp (by simp [World.At, World.init, start])
  have hI := run_invariant_of (C := LookupsFindPlaced)
    (I := fun t => Known t ∧ Timed t ∧ ReturnedTimed t)
    (by
      rintro _ _ _ ⟨hk, ht, hr⟩ hc hs
      exact ⟨hk.step hs, ht.step hk hs, hr.step hk ht hc hs⟩)
    ⟨known_start, timed_start, h0⟩ hC h
  exact hasBeen_pending es h (hI.2.2 p c i o hp)

theorem not_hasBeen {es : List Event} {orderID : Nat}
    (h : ∀ n ∈ List.range (es.length + 1),
      ∀ o ∈ (run step start (es.take n)).bind fun s => s.store.db.orders.row orderID,
        o.status ≠ st) : ¬HasBeen es orderID st := by
  rintro ⟨n, s, o, hrun, ho, hst⟩
  refine h (min n es.length) (List.mem_range.mpr (by omega)) o ?_ hst
  rw [← List.take_take, List.take_length, hrun]
  exact ho

/-- What a call of `Create` has returned. -/
def resultOf : Proc → Option (CreateCall × Nat × Order)
  | .create c (.returned (.ok (i, o))) => some (c, i, o)
  | _ => none

omit [Collation] in
theorem eq_of_resultOf (h : resultOf q = some (c, i, o)) :
    q = .create c (.returned (.ok (i, o))) := by
  unfold resultOf at h
  split at h
  · obtain ⟨rfl, rfl, rfl⟩ := by simpa using h
    rfl
  · exact absurd h (by simp)

end

theorem create_placed_again :
    letI := asciiCi
    ∃ s c o, run step start (ordering ++ again) = some s ∧
      s.At 2 (.create c (.returned (.ok (1, o)))) ∧ HasBeen (ordering ++ again) 1 .pending := by
  let _ : Collation := asciiCi
  have h : (run step start (ordering ++ again)).bind (fun s => (s.procs.row 2).bind fun q =>
      (resultOf q).map fun r => r.2.1) = some 1 := by decide
  obtain ⟨s, hs, hv⟩ := Option.bind_eq_some_iff.mp h
  obtain ⟨q, hq, hv⟩ := Option.bind_eq_some_iff.mp hv
  obtain ⟨⟨c, i, o⟩, hr, rfl⟩ := Option.map_eq_some_iff.mp hv
  obtain rfl := eq_of_resultOf hr
  exact ⟨s, c, o, hs, hq, create_placed hs (by decide) hq⟩

/-- `Create` asks for stock that is not there. -/
def refused : List Event :=
  [.spawn (.create ⟨30, 1, [0x6b], [⟨1, 3⟩]⟩ .lookup), .act 1 (.sql .ok []),
    .act 1 (.resolve shelf [0x75]), .act 1 (.sql .ok []), .send 1, .serve 0 ⟨.none, [], []⟩,
    .receive 1 0, .act 1 (.sql .ok [])]

/-- **A retry returns the failed order**: the first call got an error from `Reserve`, the second,
with the same key, finds the order it left behind and returns it without error. -/
theorem failed_order_returned :
    letI := asciiCi
    ∃ s c o, run step start (refused ++ again) = some s ∧
      s.At 2 (.create c (.returned (.ok (1, o)))) ∧ o.status = .failed ∧
      ¬HasBeen (refused ++ again) 1 .pending := by
  let _ : Collation := asciiCi
  have h : (run step start (refused ++ again)).bind (fun s => (s.procs.row 2).bind fun q =>
      (resultOf q).map fun r => (r.2.1, r.2.2.status)) = some (1, .failed) := by decide
  obtain ⟨s, hs, hv⟩ := Option.bind_eq_some_iff.mp h
  obtain ⟨q, hq, hv⟩ := Option.bind_eq_some_iff.mp hv
  obtain ⟨⟨c, i, o⟩, hr, hst⟩ := Option.map_eq_some_iff.mp hv
  obtain ⟨rfl, hst⟩ := Prod.mk.inj hst
  obtain rfl := eq_of_resultOf hr
  exact ⟨s, c, o, hs, hq, hst, not_hasBeen (by decide)⟩

/-! ## 4. What an order contains -/

/-- An item as the line that asked for it. -/
def itemLine (i : OrderItem) : ItemRequest := ⟨i.productID, i.quantity⟩

/-- What the items of an order come to for one product. -/
def itemSum (items : List OrderItem) (p : Int) : Int := lineSum (items.map itemLine) p

/-- The catalog answers with the product it was asked for. -/
def Honest (catalog : Int → Except GoString CatalogProduct) : Prop :=
  ∀ p product, catalog p = .ok product → product.id = p

/-- What the body of the loop adds for a line. -/
theorem resolveItem_ok {acc acc' : Resolved} {line : ItemRequest} {product : CatalogProduct}
    (h : resolveItem acc line product = .ok acc') :
    acc'.items = acc.items ++ [⟨product.id, product.name, product.priceFen, line.quantity⟩] ∧
      acc'.reserveItems = acc.reserveItems ++ [⟨product.id, line.quantity⟩] ∧
      acc'.total = wrap64 (acc.total + product.priceFen * line.quantity) := by
  unfold resolveItem at h
  split at h
  · exact absurd h (by simp)
  · split at h
    · exact absurd h (by simp)
    · simp only at h
      split at h
      · exact absurd h (by simp)
      · rw [← Except.ok.inj h]
        exact ⟨rfl, rfl, wrap64_add_wrap64 _ _⟩

variable {catalog : Int → Except GoString CatalogProduct}

/-- The loop turns each line into an item. -/
theorem resolveLoop_lines (hcat : Honest catalog) :
    ∀ (lines : List ItemRequest) {acc r : Resolved}, resolveLoop catalog acc lines = .ok r →
      r.items.map itemLine = acc.items.map itemLine ++ lines
  | [], acc, r, h => by
    simp only [resolveLoop, Except.ok.injEq] at h
    simp [h]
  | line :: lines, acc, r, h => by
    simp only [resolveLoop] at h
    split at h
    · exact absurd h (by simp)
    · rename_i product hproduct
      split at h
      · exact absurd h (by simp)
      · rename_i acc' hitem
        obtain ⟨hitems, -⟩ := resolveItem_ok hitem
        rw [resolveLoop_lines hcat lines h, hitems]
        simp [itemLine, hcat _ _ hproduct]

/-- **`resolveItems` keeps the quantities**, modulo `2^64`. -/
theorem resolveItems_sum (hcat : Honest catalog) {requested : List ItemRequest} {r : Resolved}
    (h : resolveItems catalog requested = .ok r) (p : Int) :
    itemSum r.items p = wrap64 (lineSum requested p) := by
  unfold resolveItems at h
  split at h
  · exact absurd h (by simp)
  · split at h
    · exact absurd h (by simp)
    · rename_i quantities hagg
      have hsum := aggregate_lineSum requested (m := []) List.nodup_nil (fun _ => rfl) hagg p
      rw [itemSum, resolveLoop_lines hcat _ h, List.map_nil, List.nil_append,
        Quantities.sorted_lineSum, hsum]
      simp [Quantities.lines]

section

variable [Collation]

/-- An order is drafted by `resolveItems`. -/
theorem draft_origin {s s' : State} {e : Event} (hs : step s e = some s') {p : Nat}
    {c : CreateCall} {draft : OrderDraft} {items : List ItemRequest}
    (h : s'.At p (.create c (.insert draft items))) :
    s.At p (.create c (.insert draft items)) ∨ ∃ catalog uuid r,
      e = .act p (.resolve catalog uuid) ∧ resolveItems catalog c.items = .ok r ∧
      draft.items = r.items := by
  cases create_arrives hs h with
  | kept pc hq => exact Or.inl hq
  | drafted catalog uuid r he hq hu hr hstill => exact Or.inr ⟨catalog, uuid, r, he, hr, rfl⟩

/-! ## 5. A returned order has the quantities of the call -/

/-- The quantities that calls with one user and key ask for. -/
abbrev Content := Int → GoString → Int → Int

/-- What an event may ask for: quantities as agreed, of an honest catalog. -/
structure Consistent (content : Content) (e : Event) : Prop where
  calls : ∀ c pc, e = .spawn (.create c pc) →
    ∀ x, lineSum c.items x = content c.userID (Collation.weight c.key) x
  catalogs : ∀ p catalog uuid, e = .act p (.resolve catalog uuid) → Honest catalog

/-- Everything holds the quantities agreed on. -/
structure Filled (content : Content) (s : State) : Prop where
  calls : ∀ p c pc, s.At p (.create c pc) →
    ∀ x, lineSum c.items x = content c.userID (Collation.weight c.key) x
  drafts : ∀ p c draft items, s.At p (.create c (.insert draft items)) →
    ∀ x, itemSum draft.items x = wrap64 (lineSum c.items x)
  orders : ∀ i o, s.store.db.orders.row i = some o →
    ∀ x, itemSum o.items x = wrap64 (content o.userID (Collation.weight o.idempotencyKey) x)
  results : ∀ p c i o, s.At p (.create c (.returned (.ok (i, o)))) →
    ∀ x, itemSum o.items x = wrap64 (lineSum c.items x)

/-- An order with the user and key of a call has the quantities of the call. -/
theorem Filled.of_key {content : Content} {s : State} (h : Filled content s) {p : Nat}
    {c : CreateCall} {pc : CreatePc} (hp : s.At p (.create c pc)) {i : Nat} {o : Order}
    (ho : s.store.db.orders.row i = some o) (hkey : HasKey c.userID c.key o) (x : Int) :
    itemSum o.items x = wrap64 (lineSum c.items x) := by
  rw [h.orders i o ho x, hkey.1, hkey.2, h.calls p c pc hp x]

theorem Filled.step {content : Content} {s s' : State} {e : Event} (h : Filled content s)
    (hk : Known s) (hC : Consistent content e) (hs : step s e = some s') : Filled content s' := by
  refine ⟨fun p c pc hp => ?_, fun p c draft items hp x => ?_, fun i o ho x => ?_,
    fun p c i o hp x => ?_⟩
  · rcases call_origin hs hp with ⟨pc₀, hp⟩ | rfl
    · exact h.calls p c pc₀ hp
    · exact hC.calls c pc rfl
  · rcases draft_origin hs hp with hp | ⟨catalog, uuid, r, rfl, hr, hitems⟩
    · exact h.drafts p c draft items hp x
    · rw [hitems, resolveItems_sum (hC.catalogs p catalog uuid rfl) hr x]
  · rcases order_origin hs ho with ⟨o₀, ho₀, hstep⟩ | ⟨p, c, draft, items, hacc, hq, rfl⟩
    · cases hstep with
      | kept => exact h.orders i o ho₀ x
      | written p oc locked q stmt r _ old he hq hstmt hw hexec hch =>
        rw [hch.same.items, hch.same.userID, hch.same.idempotencyKey]
        exact h.orders i o₀ ho₀ x
    · obtain ⟨hu, hkey, -⟩ := hk.procs p _ hq
      show itemSum draft.items x =
        wrap64 (content draft.userID (Collation.weight draft.idempotencyKey) x)
      rw [h.drafts p c draft items hq x, h.calls p c _ hq x, hu, hkey]
  · rcases returned_origin hs hp with hp | ⟨⟨pc, hpc⟩, -, -, ho, hkey⟩ | ⟨-, hget, ho⟩
    · exact h.results p c i o hp x
    · exact h.of_key hpc ho hkey x
    · obtain ⟨id, o', ho', hu, hkey, -⟩ := hk.procs p _ hget
      obtain rfl := Option.some.inj (ho.symm.trans ho')
      exact h.of_key hget ho ⟨hu, by rw [hkey]⟩ x

theorem filled_start (content : Content) : Filled content start where
  calls p c pc h := absurd h (by simp [World.At, World.init, start])
  drafts p c draft items h := absurd h (by simp [World.At, World.init, start])
  orders i o h := absurd h (by simp [start, World.init, DB.empty])
  results p c i o h := absurd h (by simp [World.At, World.init, start])

/-- Two calls of `Create` have the same user and, for the index, the same key. -/
def SameKey (c c' : CreateCall) : Prop :=
  c.userID = c'.userID ∧ Collation.weight c.key = Collation.weight c'.key

/-- Calls that agree with each other agree on one content. -/
theorem exists_content (calls : CreateCall → Prop)
    (h : ∀ c c', calls c → calls c' → SameKey c c' → ∀ x, lineSum c.items x = lineSum c'.items x) :
    ∃ content : Content, ∀ c, calls c →
      ∀ x, lineSum c.items x = content c.userID (Collation.weight c.key) x := by
  classical
  refine ⟨fun user key x =>
    if hex : ∃ c, calls c ∧ c.userID = user ∧ Collation.weight c.key = key
      then lineSum hex.choose.items x else 0, fun c hc x => ?_⟩
  have hex : ∃ c', calls c' ∧ c'.userID = c.userID ∧
      Collation.weight c'.key = Collation.weight c.key := ⟨c, hc, rfl, rfl⟩
  beta_reduce
  rw [dif_pos hex]
  obtain ⟨hc', hu, hkey⟩ := hex.choose_spec
  exact h c _ hc hc' ⟨hu.symm, hkey.symm⟩ x

/-- **A replay answers for the content of the call.**  In every run in which the calls of
`Create` that share a user and key ask for the same quantity of every product, and in which the
catalog answers with the product it was asked for: the order that a call returned without error
has, of every product, the quantity that this call asked for, as long as the quantities fit in
an `int64`. -/
theorem create_items {es : List Event} {s : State} (h : run step start es = some s)
    (hsame : ∀ c pc c' pc', .spawn (.create c pc) ∈ es → .spawn (.create c' pc') ∈ es →
      SameKey c c' → ∀ x, lineSum c.items x = lineSum c'.items x)
    (hcat : ∀ p catalog uuid, .act p (.resolve catalog uuid) ∈ es → Honest catalog)
    {p : Nat} {c : CreateCall} {i : Nat} {o : Order}
    (hp : s.At p (.create c (.returned (.ok (i, o)))))
    (hfit : ∀ x, InBigint (lineSum c.items x)) (x : Int) :
    itemSum o.items x = lineSum c.items x := by
  obtain ⟨content, hcontent⟩ := exists_content
    (fun c => ∃ pc, RpcEvent.spawn (Proc.create c pc) ∈ es)
    (fun c c' ⟨pc, hc⟩ ⟨pc', hc'⟩ hkey => hsame c pc c' pc' hc hc' hkey)
  have hC : Meets (fun _ e => Consistent content e) step start es :=
    meets_of_forall (fun e he _ => ⟨fun c pc hc => hcontent c ⟨pc, hc ▸ he⟩,
      fun p catalog uuid hr => hcat p catalog uuid (hr ▸ he)⟩) start
  have hI := run_invariant_of (C := fun _ e => Consistent content e)
    (I := fun t => Known t ∧ Filled content t)
    (fun _ _ _ ⟨hk, hf⟩ hc hs => ⟨hk.step hs, hf.step hk hc hs⟩)
    ⟨known_start, filled_start content⟩ hC h
  rw [hI.2.results p c i o hp x, wrap64_eq (hfit x)]

end

theorem create_items_ordering :
    letI := asciiCi
    ∃ s c i o, run step start ordering = some s ∧
      s.At 1 (.create c (.returned (.ok (i, o)))) ∧ itemSum o.items 1 = lineSum c.items 1 := by
  let _ : Collation := asciiCi
  have h : (run step start ordering).bind (fun s => (s.procs.row 1).bind fun q =>
      (resultOf q).map fun r => r.1.items) = some [⟨1, 3⟩] := by decide
  obtain ⟨s, hs, hv⟩ := Option.bind_eq_some_iff.mp h
  obtain ⟨q, hq, hv⟩ := Option.bind_eq_some_iff.mp hv
  obtain ⟨⟨c, i, o⟩, hr, hitems⟩ := Option.map_eq_some_iff.mp hv
  obtain rfl := eq_of_resultOf hr
  refine ⟨s, c, i, o, hs, hq, create_items hs ?_ ?_ hq ?_ 1⟩
  · intro c pc c' pc' hc hc' _ x
    simp only [ordering, List.mem_cons, List.not_mem_nil, RpcEvent.spawn.injEq, Proc.create.injEq,
      reduceCtorEq, or_false, false_or] at hc hc'
    rw [hc.1, hc'.1]
  · intro p catalog uuid hr x product hx
    simp only [ordering, List.mem_cons, List.not_mem_nil, RpcEvent.act.injEq, Choice.resolve.injEq,
      reduceCtorEq, and_false, or_false, false_or] at hr
    rw [hr.2.1] at hx
    exact congrArg CatalogProduct.id (Except.ok.inj hx).symm
  · intro x
    rw [show c.items = [⟨1, 3⟩] from hitems, lineSum_cons, lineSum_nil, add_zero]
    split <;> decide

/-- Another request under the key of the first. -/
def reused : List Event :=
  [.spawn (.create ⟨30, 1, [0x6b], [⟨1, 5⟩]⟩ .lookup), .act 2 (.sql .ok [])]

/-- **Another order answers**: the second call asks for five under the key of the first, and is
given the order for three, without error. -/
theorem other_order_returned :
    letI := asciiCi
    ∃ s c i o, run step start (ordering ++ reused) = some s ∧
      s.At 2 (.create c (.returned (.ok (i, o)))) ∧ lineSum c.items 1 = 5 ∧
      itemSum o.items 1 = 3 := by
  let _ : Collation := asciiCi
  have h : (run step start (ordering ++ reused)).bind (fun s => (s.procs.row 2).bind fun q =>
      (resultOf q).map fun r => (lineSum r.1.items 1, itemSum r.2.2.items 1)) = some (5, 3) := by
    decide
  obtain ⟨s, hs, hv⟩ := Option.bind_eq_some_iff.mp h
  obtain ⟨q, hq, hv⟩ := Option.bind_eq_some_iff.mp hv
  obtain ⟨⟨c, i, o⟩, hr, hsums⟩ := Option.map_eq_some_iff.mp hv
  obtain rfl := eq_of_resultOf hr
  obtain ⟨h5, h3⟩ := Prod.mk.inj hsums
  exact ⟨s, c, i, o, hs, hq, h5, h3⟩

end OrderSystem.Saga
