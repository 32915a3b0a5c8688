/-
# The inventory service does not deadlock

A transaction of the service holds the rows it has touched until it commits or aborts, and any
number of transactions run at once: duplicate `Reserve` calls for one order, `Confirm` racing
`Release`, requests that have several products in common.  They cannot block each other in a
circle, because every operation takes its rows in one order: the reservation's primary key,
then its entry in the order index, then the stock rows in increasing order of product
(`Key.rank`).  `normalizeItems` and `transition` sort the items for this reason.

`prog_ascends` says so for every request, whatever its snapshot and whatever the rows contain;
`inventory_no_deadlock` is what follows by `Kit/Deadlock.lean`.

As in `Model.lean`, what is locked is index entries.  Gap locks and the shared locks of foreign
key checks are not modelled.
-/
import OrderSystem.InventorySvc.Conservation
import OrderSystem.Kit.Deadlock
import Mathlib.Data.Prod.Lex

namespace OrderSystem.InventorySvc

open OrderSystem.Kit

/-! ## 1. The lock order -/

/-- The lexicographic order, made of the standard orders of its parts. -/
instance instPreorderRank : Preorder (ℕ ×ₗ ℤ) :=
  @Prod.Lex.instPreorder ℕ ℤ Nat.instPreorder Int.instLinearOrder.toPartialOrder.toPreorder

/-- **The lock order**: reservations, then orders, then stock rows by product. -/
def Key.rank : Key → ℕ ×ₗ ℤ
  | .reservation _ => toLex (0, 0)
  | .order _ => toLex (1, 0)
  | .item productID => toLex (2, productID)

theorem rank_reservation_lt_order (w : GoString) (o : Int) :
    (Key.reservation w).rank < (Key.order o).rank := by
  simp [Key.rank, Prod.Lex.toLex_lt_toLex]

theorem rank_reservation_lt_item (w : GoString) (p : Int) :
    (Key.reservation w).rank < (Key.item p).rank := by
  simp [Key.rank, Prod.Lex.toLex_lt_toLex]

theorem rank_order_lt_item (o p : Int) : (Key.order o).rank < (Key.item p).rank := by
  simp [Key.rank, Prod.Lex.toLex_lt_toLex]

theorem rank_item_lt_item {p p' : Int} (h : p < p') : (Key.item p).rank < (Key.item p').rank := by
  simp [Key.rank, Prod.Lex.toLex_lt_toLex, h]

/-! ## 2. The operations -/

/-- An update of a stock row that is held takes no other row. -/
theorem locks_updateItem {p : Int} {cond : Inventory → Bool} {set : Inventory → Option Inventory}
    {held : Set Key} (hp : Key.item p ∈ held) {Q : Nat → Set Key → Prop} (hQ : ∀ n, Q n held) :
    Locks Key.rank (updateItem p cond set) held Q := by
  simp only [updateItem, getItem, locks_bind, locks_get, Set.insert_eq_of_mem hp]
  refine ⟨Or.inl hp, fun row => ?_⟩
  split
  · exact hQ 0
  · split
    · split
      · trivial
      · simp only [setItem, locks_bind, locks_set, Set.insert_eq_of_mem hp, locks_pure]
        exact ⟨Or.inl hp, hQ 1⟩
    · exact hQ 0

theorem init_ascends (p q : Int) : Ascends Key.rank (init p q) := by
  unfold Ascends init
  split
  · trivial
  · simp only [getItem, setItem, locks_bind, locks_get]
    refine ⟨Or.inr (by simp), fun row => ?_⟩
    split
    · trivial
    · split
      · trivial
      · simp [MayTake]

theorem add_ascends (p q : Int) : Ascends Key.rank (add p q) := by
  unfold Ascends add
  split
  · trivial
  · simp only [getItem, locks_bind, locks_get]
    refine ⟨Or.inr (by simp), fun row => ?_⟩
    split
    · trivial
    · simp only [locks_bind]
      refine locks_updateItem (Set.mem_insert _ _) fun n => ?_
      simp only [locks_push, locks_get]
      refine ⟨Or.inl (Set.mem_insert _ _), fun row => ?_⟩
      split
      · trivial
      · trivial

section

variable [Collation]

/-- The insert of a reservation takes its id and then its order. -/
theorem locks_insertReservation (id : GoString) (o : Int) :
    Locks Key.rank (insertReservation id o) ∅ fun _ held =>
      held = {Key.order o, Key.reservation (Collation.weight id)} := by
  have hne : Key.reservation (Collation.weight id) ∈
      ({Key.order o, Key.reservation (Collation.weight id)} : Set Key) := by simp
  have hno : Key.order o ∈
      ({Key.order o, Key.reservation (Collation.weight id)} : Set Key) := by simp
  unfold insertReservation
  split
  · trivial
  · simp only [getReservation, locks_bind, locks_get]
    refine ⟨Or.inr (by simp), fun row => ?_⟩
    split
    · trivial
    · simp only [getOrderKey, locks_bind, locks_get, insert_empty_eq]
      refine ⟨Or.inr ?_, fun key => ?_⟩
      · rintro k rfl
        exact rank_reservation_lt_order _ _
      · split
        · trivial
        · simp only [setReservation, setOrderKey, locks_bind, locks_set]
          rw [Set.insert_eq_of_mem hne, Set.insert_eq_of_mem hno]
          exact ⟨Or.inl hne, Or.inl hno, rfl⟩

/-- An iteration of the loop of `Reserve` takes the row of its product. -/
theorem locks_reserveItem (id : GoString) (i : ItemRequest) (held : Set Key)
    (hbase : {Key.reservation (Collation.weight id)} ⊆ held)
    (hbelow : ∀ k ∈ held, k.rank < (Key.item i.productID).rank) :
    Locks Key.rank (reserveItem id i) held fun _ h => h = insert (Key.item i.productID) held := by
  have hitem : Key.item i.productID ∈ insert (Key.item i.productID) held := Set.mem_insert _ _
  have hres : Key.reservation (Collation.weight id) ∈ insert (Key.item i.productID) held :=
    Set.mem_insert_of_mem _ (hbase rfl)
  unfold reserveItem
  simp only [getItem, locks_bind, locks_get]
  refine ⟨Or.inr hbelow, fun row => ?_⟩
  split
  · trivial
  · split
    · trivial
    · rw [locks_bind]
      refine locks_updateItem hitem fun n => ?_
      split
      · trivial
      · simp only [insertReservationItem, getReservation, locks_bind, locks_get,
          Set.insert_eq_of_mem hres]
        refine ⟨Or.inl hres, fun r => ?_⟩
        split
        · trivial
        · split
          · trivial
          · simp only [setReservation, locks_set, locks_push, Set.insert_eq_of_mem hres]
            exact ⟨Or.inl hres, trivial⟩

omit [Collation] in
/-- An iteration of the loop of `transition` takes the row of its product. -/
theorem locks_settleItem (id : GoString) (t : Settlement) (i : ReservationItem) (held : Set Key)
    (hbelow : ∀ k ∈ held, k.rank < (Key.item i.productID).rank) :
    Locks Key.rank (settleItem id t i) held fun _ h =>
      h = insert (Key.item i.productID) held := by
  unfold settleItem
  simp only [getItem, locks_bind, locks_get]
  refine ⟨Or.inr hbelow, fun row => ?_⟩
  split
  · trivial
  · rw [locks_bind]
    refine locks_updateItem (Set.mem_insert _ _) fun n => ?_
    split
    · trivial
    · simp

omit [Collation] in
/-- The items of a request, as `normalizeItems` lists them, are in increasing order. -/
theorem normalizeItems_sorted {items lines : List ItemRequest}
    (h : normalizeItems items = some lines) :
    lines.Pairwise fun i j => i.productID < j.productID := by
  unfold normalizeItems at h
  split at h
  · exact absurd h (by simp)
  · obtain ⟨quantities, hagg, rfl⟩ := Option.map_eq_some_iff.mp h
    exact (normal_sorted hagg).sorted

theorem reserve_ascends (generated : GoString) (req : ReserveRequest) (snapshot : DB) :
    Ascends Key.rank (reserve generated req snapshot) := by
  unfold Ascends reserve
  split
  · trivial
  · rename_i items hitems
    split
    · trivial
    · split
      · trivial
      · rw [locks_bind]
        refine (locks_insertReservation _ _).mono fun _ held heq => ?_
        rw [locks_bind]
        have hbelow : ∀ p, ∀ k ∈ held, k.rank < (Key.item p).rank := by
          rw [heq]
          rintro p k (rfl | rfl)
          · exact rank_order_lt_item _ _
          · exact rank_reservation_lt_item _ _
        refine (locks_loop (fun i => Key.item i.productID) _ rfl (fun _ _ => rfl)
          (fun i h => locks_reserveItem _ i h) items held ?_ (by simp [heq])
          fun i _ => hbelow i.productID).mono fun _ held' hres => ?_
        · exact (normalizeItems_sorted hitems).imp rank_item_lt_item
        · simp only [getReservation, locks_bind, locks_get]
          refine ⟨Or.inl (hres rfl), fun r => ?_⟩
          split
          · trivial
          · trivial

theorem transition_ascends (id : GoString) (t : Settlement) :
    Ascends Key.rank (transition id t) := by
  unfold Ascends transition
  simp only
  split
  · trivial
  · simp only [getReservation, locks_bind, locks_get]
    refine ⟨Or.inr (by simp), fun row => ?_⟩
    split
    · trivial
    · rename_i r
      split
      · trivial
      · split
        · trivial
        · rw [locks_bind]
          refine (locks_loop (fun i : ReservationItem => Key.item i.productID)
            {Key.reservation (Collation.weight (trimSpace id))} rfl (fun _ _ => rfl)
            (fun i h _ => locks_settleItem _ t i h) _ _ ?_ (by simp) ?_).mono
            fun _ held hres => ?_
          · exact (insertionSort_strict _ r.items_nodup).imp rank_item_lt_item
          · rintro i - k (rfl | h)
            · exact rank_reservation_lt_item _ _
            · exact absurd h (by simp)
          · simp only [setReservation, locks_bind, locks_set, locks_pure, and_true]
            exact Or.inl (hres rfl)

/-! ## 3. Every run -/

/-- **Every request takes its rows in order.** -/
theorem prog_ascends (req : Request) (snapshot : DB) : Ascends Key.rank (req.prog snapshot) := by
  cases req with
  | init p q => exact (locks_bind ..).mpr ((init_ascends p q).mono fun _ _ h => h)
  | add p q => exact (locks_bind ..).mpr ((add_ascends p q).mono fun _ _ h => h)
  | reserve generated req =>
    exact (locks_bind ..).mpr ((reserve_ascends generated req snapshot).mono fun _ _ h => h)
  | confirm id => exact (locks_bind ..).mpr ((transition_ascends id .confirm).mono fun _ _ h => h)
  | release id => exact (locks_bind ..).mpr ((transition_ascends id .release).mono fun _ _ h => h)

/-- **The inventory service does not deadlock.**  No state of any run has a cycle of
transactions that each wait for a row the next one holds. -/
theorem inventory_no_deadlock {es : List (LockEvent Request)} {s : Service}
    (h : run step start es = some s) (t : Nat) : ¬Relation.TransGen s.WaitsFor t t :=
  no_deadlock Key.rank prog_ascends h t

end

/-- `Confirm` has locked the reservation when `Release` asks for it. -/
def racing : List (LockEvent Request) :=
  placing ++ [.start 2 (.confirm [0x72]), .stmt 2, .start 3 (.release [0x72])]

theorem inventory_no_deadlock_racing :
    letI := asciiCi
    ∃ s : Service, run step start racing = some s ∧ s.WaitsFor 3 2 ∧
      step s (.stmt 3) = none ∧ ¬Relation.TransGen s.WaitsFor 3 3 := by
  let _ : Collation := asciiCi
  have h : (run step start racing).bind (fun s => (s.txn 3).map fun a =>
      (a.rest.wants, s.owner (.reservation [0x52]))) =
      some (some (.reservation [0x52]), some 2) := by decide
  obtain ⟨s, hs, hv⟩ := Option.bind_eq_some_iff.mp h
  obtain ⟨a, ha, hv⟩ := Option.map_eq_some_iff.mp hv
  obtain ⟨hwants, howner⟩ := Prod.mk.inj hv
  have hwaits : s.WaitsFor 3 2 := ⟨_, ⟨a, ha, hwants⟩, howner, by simp⟩
  exact ⟨s, hs, hwaits, not_stmt_of_waitsFor hwaits, inventory_no_deadlock hs 3⟩

end OrderSystem.InventorySvc
