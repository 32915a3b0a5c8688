/-
# The stock log is a complete ledger

Every transaction that moves stock inserts a row into `inventory_stock_logs` for every product it
moves, in the same transaction.  So the two quantities of a product can be computed from its log
entries alone, and the log says what happened to every reservation:

* `Accounted` -- the available quantity of a product is the sum of its `initialize`, `add`,
  `reserve` and `release` entries, and its reserved quantity is the sum of its `confirm` entries
  less the sums of its `reserve` and `release` entries;
* `Placements` -- the `reserve` entries of a reservation are its items, once each.

With `Logged` of `Settlement.lean`, which says the same of `confirm` and `release` entries, this
is `stock_log_ledger`.  An entry belongs to a reservation when its `reference_id` equals the
reservation's id for the database, that is under the collation: `transition` logs the id it was
called with, which need not be spelled as the stored one.
-/
import OrderSystem.InventorySvc.Settlement

namespace OrderSystem.InventorySvc

open OrderSystem.Kit

/-! ## 1. Sums of log entries -/

/-- What the entries of one kind say about one product. -/
def logSum (log : List StockLog) (p : Int) (t : ChangeType) : Int :=
  (log.map fun l => if l.productID = p ∧ l.changeType = t then l.quantity else 0).sum

@[simp] theorem logSum_nil (p : Int) (t : ChangeType) : logSum [] p t = 0 := rfl

@[simp] theorem logSum_cons (l : StockLog) (log : List StockLog) (p : Int) (t : ChangeType) :
    logSum (l :: log) p t =
      (if l.productID = p ∧ l.changeType = t then l.quantity else 0) + logSum log p t := by
  simp [logSum]

@[simp] theorem logSum_append (log log' : List StockLog) (p : Int) (t : ChangeType) :
    logSum (log ++ log') p t = logSum log p t + logSum log' p t := by
  simp [logSum]

/-- What `Reserve` logs. -/
theorem logSum_reserve (id : GoString) (items : List ReservationItem) (p : Int) (t : ChangeType) :
    logSum (items.map fun i => reserveLog id i.line) p t =
      if t = .reserve then -lineSum (items.map (·.line)) p else 0 := by
  induction items with
  | nil => simp
  | cons i items ih =>
    rw [List.map_cons, logSum_cons, ih, List.map_cons, lineSum_cons]
    by_cases hp : i.productID = p
    · cases t <;> simp [reserveLog, ReservationItem.line, hp, add_comm]
    · cases t <;> simp [reserveLog, ReservationItem.line, hp]

theorem Settlement.logQuantity_add (k : Settlement) (a b : Int) :
    k.logQuantity (a + b) = k.logQuantity a + k.logQuantity b := by
  cases k with
  | confirm => simp only [Settlement.logQuantity]; omega
  | release => rfl

/-- What `Confirm` and `Release` log. -/
theorem logSum_settle (id : GoString) (k : Settlement) (items : List ReservationItem) (p : Int)
    (t : ChangeType) :
    logSum (items.map (settleLog id k)) p t =
      if t = k.changeType then k.logQuantity (lineSum (items.map (·.line)) p) else 0 := by
  induction items with
  | nil => cases k <;> simp [Settlement.logQuantity]
  | cons i items ih =>
    rw [List.map_cons, logSum_cons, ih, List.map_cons, lineSum_cons, Settlement.logQuantity_add]
    by_cases hp : i.productID = p
    · by_cases ht : t = k.changeType
      · simp [settleLog, ReservationItem.line, hp, ht]
      · simp [settleLog, hp, ht, Ne.symm ht]
    · cases k <;> simp [settleLog, ReservationItem.line, hp, Settlement.logQuantity]

/-- The two quantities of every product, from the log. -/
structure Accounted (s : DB) : Prop where
  available : ∀ p, s.available p =
    logSum (Store.log s) p .initialized + logSum (Store.log s) p .add +
      logSum (Store.log s) p .reserve + logSum (Store.log s) p .release
  reserved : ∀ p, s.reserved p =
    logSum (Store.log s) p .confirm -
      (logSum (Store.log s) p .reserve + logSum (Store.log s) p .release)

section

variable [Collation]

omit [Collation] in
theorem accounted_empty : Accounted DB.empty where
  available p := by simp [DB.empty, DB.available, DB.item]
  reserved p := by simp [DB.empty, DB.reserved, DB.item]

variable {s s' : DB} {r : Reservation} {k : Settlement}

omit [Collation] in
theorem Accounted.supplied {p q : Int} (h : Accounted s) (hs : Supplied s s' p q) :
    Accounted s' := by
  obtain ⟨t, ht, hlog⟩ := hs.log
  refine ⟨fun p' => ?_, fun p' => ?_⟩
  · have hav := h.available p'
    rw [hs.available, hlog]
    by_cases hp : p' = p
    · subst hp
      rcases ht with rfl | rfl
      · simp; omega
      · simp; omega
    · rcases ht with rfl | rfl
      · simp [hp, Ne.symm hp]; omega
      · simp [hp, Ne.symm hp]; omega
  · have hres := h.reserved p'
    rw [hs.reserved, hlog]
    rcases ht with rfl | rfl
    · simp; omega
    · simp; omega

theorem Accounted.placed (h : Accounted s) (hp : Placed s s' r) :
    Accounted s' := by
  refine ⟨fun p => ?_, fun p => ?_⟩
  · have hav := h.available p
    simp only [hp.available, hp.log, logSum_append, logSum_reserve, Reservation.quantity,
      reduceCtorEq, if_true, if_false]
    omega
  · have hres := h.reserved p
    simp only [hp.reserved, hp.log, logSum_append, logSum_reserve, Reservation.quantity,
      reduceCtorEq, if_true, if_false]
    omega

theorem Accounted.settled {id : GoString} (h : Accounted s) (hs : Settled s s' id r k) :
    Accounted s' := by
  have hq : ∀ p, lineSum (r.sortedItems.map (·.line)) p = r.quantity p := fun p =>
    lineSum_perm (r.sortedItems_perm.map _) p
  refine ⟨fun p => ?_, fun p => ?_⟩
  · have hav := h.available p
    simp only [hs.available, hs.log, logSum_append, logSum_settle, hq]
    cases k with
    | confirm => simp [Settlement.changeType, Settlement.returned]; omega
    | release => simp [Settlement.changeType, Settlement.returned, Settlement.logQuantity]; omega
  · have hres := h.reserved p
    simp only [hs.reserved, hs.log, logSum_append, logSum_settle, hq]
    cases k with
    | confirm => simp [Settlement.changeType, Settlement.logQuantity]; omega
    | release => simp [Settlement.changeType, Settlement.logQuantity]; omega

/-- A committed request keeps the accounts. -/
theorem Accounted.effect {snapshot : DB} {req : Request} {a : Answer} (h : Accounted s)
    (he : Effect snapshot s req a s') : Accounted s' := by
  cases he with
  | supplied hreq hs => exact h.supplied hs
  | existing ho hitems hr => exact h
  | placed ho hid hord hitems hp => exact h.placed hp
  | kept hreq hid hst hr => exact h
  | settled hreq hid hs => exact h.settled hs

/-! ## 2. The entries of a reservation -/

/-- The `reserve` entries of the reservation under `w`. -/
def DB.placements (s : DB) (w : GoString) : List StockLog :=
  (Store.log s).filter fun l => l.changeType = .reserve ∧ Collation.weight l.referenceID = w

/-- The `reserve` entries of a reservation are its items. -/
def Placements (s : DB) : Prop :=
  ∀ w, s.placements w =
    ((s.reservationAt w).map fun r => r.items.map fun i => reserveLog r.id i.line).getD []

theorem placements_append {ls : List StockLog} (w : GoString) (h : Store.log s' = Store.log s ++ ls)
    :
    s'.placements w = s.placements w ++
      ls.filter fun l => l.changeType = .reserve ∧ Collation.weight l.referenceID = w := by
  rw [DB.placements, h, List.filter_append]
  rfl

/-- Entries of another kind are not placements. -/
theorem placements_same {ls : List StockLog} (w : GoString) (h : Store.log s' = Store.log s ++ ls)
    (hl : ∀ l ∈ ls, l.changeType ≠ .reserve) :
    s'.placements w = s.placements w := by
  rw [placements_append w h, List.filter_eq_nil_iff.mpr fun l hm => by simp [hl l hm],
    List.append_nil]

theorem Placements.placed (h : Placements s) (hp : Placed s s' r) :
    Placements s' := by
  intro w
  rw [placements_append w hp.log, h w, hp.reservations]
  by_cases hw : w = Collation.weight r.id
  · subst hw
    have hnone : s.reservationAt (Collation.weight r.id) = none := hp.fresh_id
    rw [hnone, Function.update_self, List.filter_eq_self.mpr]
    · rfl
    · intro l hl
      obtain ⟨i, -, rfl⟩ := List.mem_map.mp hl
      simp [reserveLog]
  · rw [Function.update_of_ne hw, List.filter_eq_nil_iff.mpr, List.append_nil]
    intro l hl
    obtain ⟨i, -, rfl⟩ := List.mem_map.mp hl
    simp [reserveLog, Ne.symm hw]

theorem Placements.settled {id : GoString} (h : Placements s) (hs : Settled s s' id r k) :
    Placements s' := by
  intro w
  have hkind : ∀ l ∈ r.sortedItems.map (settleLog id k), l.changeType ≠ .reserve := by
    intro l hl
    obtain ⟨i, -, rfl⟩ := List.mem_map.mp hl
    cases k <;> simp [settleLog, Settlement.changeType]
  rw [placements_same w hs.log hkind, h w, hs.reservations]
  by_cases hw : w = Collation.weight id
  · subst hw
    have hfound : s.reservationAt (Collation.weight id) = some r := hs.found
    rw [hfound, Function.update_self]
    rfl
  · rw [Function.update_of_ne hw]

/-- A committed request keeps the placements. -/
theorem Placements.effect {snapshot : DB} {req : Request} {a : Answer} (h : Placements s)
    (he : Effect snapshot s req a s') : Placements s' := by
  cases he with
  | supplied hreq hs =>
    obtain ⟨k, hk, hlog⟩ := hs.log
    intro w
    rw [placements_same w hlog, h w, hs.reservations]
    intro l hl
    rw [List.mem_singleton.mp hl]
    rcases hk with rfl | rfl
    · simp
    · simp
  | existing ho hitems hr => exact h
  | placed ho hid hord hitems hp => exact h.placed hp
  | kept hreq hid hst hr => exact h
  | settled hreq hid hs => exact h.settled hs

/-- The entries of one kind that the log has for a product of the reservation under `w`. -/
def DB.entries (s : DB) (w : GoString) (p : Int) (t : ChangeType) : List StockLog :=
  (Store.log s).filter fun l =>
    l.productID = p ∧ l.changeType = t ∧ Collation.weight l.referenceID = w

omit [Collation] in
/-- In a list of entries with one for each product, one is for a given product. -/
theorem filter_product {ι : Type} (entry : ι → StockLog) {l : List ι}
    (hnd : (l.map fun i => (entry i).productID).Nodup) {i : ι} (hi : i ∈ l) :
    (l.map entry).filter (fun e => e.productID = (entry i).productID) = [entry i] := by
  induction l with
  | nil => exact absurd hi (by simp)
  | cons j l ih =>
    obtain ⟨hj, hnd⟩ := List.nodup_cons.mp hnd
    rw [List.map_cons]
    rcases List.mem_cons.mp hi with rfl | hi
    · rw [List.filter_cons_of_pos (by simp), List.filter_eq_nil_iff.mpr]
      intro e he
      obtain ⟨k, hk, rfl⟩ := List.mem_map.mp he
      simp only [decide_eq_true_eq]
      exact fun heq => hj (List.mem_map.mpr ⟨k, hk, heq⟩)
    · rw [List.filter_cons_of_neg, ih hnd hi]
      simp only [decide_eq_true_eq]
      exact fun heq => hj (List.mem_map.mpr ⟨i, hi, heq.symm⟩)

theorem entries_reserve (s : DB) (w : GoString) (p : Int) :
    s.entries w p .reserve = (s.placements w).filter fun l => l.productID = p := by
  rw [DB.entries, DB.placements, List.filter_filter]
  simp only [Bool.decide_and]

/-- Settlements are `confirm` and `release` entries. -/
theorem entries_settle (s : DB) (w : GoString) (p : Int) (k : Settlement) :
    s.entries w p k.changeType = (s.settlements w).filter fun l =>
      l.productID = p ∧ l.changeType = k.changeType := by
  rw [DB.entries, DB.settlements, List.filter_filter]
  refine List.filter_congr fun l _ => ?_
  rw [StockLog.settles, ← Bool.decide_and, decide_eq_decide]
  cases k with
  | confirm => simp only [Settlement.changeType]; tauto
  | release => simp only [Settlement.changeType]; tauto

/-- What is logged of an item of a settled reservation. -/
theorem entries_settled (hl : Logged s) {w : GoString} (hr : s.reservationAt w = some r)
    (hst : r.status = k.status) {i : ReservationItem} (hi : i ∈ r.items) (k' : Settlement) :
    ∃ id, Collation.weight id = w ∧ s.entries w i.productID k'.changeType =
      if k' = k then [settleLog id k i] else [] := by
  obtain ⟨id, hid, hlog⟩ := hl.settled w r k hr hst
  refine ⟨id, hid, ?_⟩
  rw [entries_settle, hlog]
  split
  · rename_i hk
    subst hk
    rw [← filter_product (settleLog id k') r.sortedItems_nodup
      (r.sortedItems_perm.mem_iff.mpr hi)]
    refine List.filter_congr fun l hmem => ?_
    obtain ⟨j, -, rfl⟩ := List.mem_map.mp hmem
    rw [decide_eq_decide]
    simp [settleLog]
  · rename_i hk
    rw [List.filter_eq_nil_iff]
    intro l hmem
    obtain ⟨j, -, rfl⟩ := List.mem_map.mp hmem
    cases k <;> cases k' <;> simp_all [settleLog, Settlement.changeType]

/-! ## 3. Every run -/

/-- What every run of the service keeps of its log. -/
structure LedgerOk (s : DB) : Prop where
  accounted : Accounted s
  placements : Placements s

theorem ledgerOk_run {es : List (LockEvent Request)} {s : Service}
    (h : run step start es = some s) : LedgerOk s.store :=
  (locking_invariant (I := fun _ s => LedgerOk s) (R := fun _ _ => True)
    ⟨accounted_empty, fun _ => rfl⟩ (fun _ => trivial)
    (fun _ _ _ _ _ _ hL _ hexec =>
      ⟨⟨hL.accounted.effect (prog_effect hexec), hL.placements.effect (prog_effect hexec)⟩,
        fun _ _ => trivial⟩) h).holds

/-- **The stock log is a complete ledger.**  In every committed state of every run: the
available and the reserved quantity of every product are the sums of its log entries; and for
every reservation and every product among its items, the log has exactly one `reserve` entry, and
one `confirm` and no `release` entry if the reservation is confirmed, one `release` and no
`confirm` entry if it is released, and neither while it is pending. -/
theorem stock_log_ledger {es : List (LockEvent Request)} {s : Service}
    (h : run step start es = some s) :
    (∀ p, DB.available s.store p =
      logSum s.store.log p .initialized + logSum s.store.log p .add +
        logSum s.store.log p .reserve + logSum s.store.log p .release) ∧
    (∀ p, DB.reserved s.store p = logSum s.store.log p .confirm -
      (logSum s.store.log p .reserve + logSum s.store.log p .release)) ∧
    ∀ w r, DB.reservationAt s.store w = some r → ∀ i ∈ r.items,
      DB.entries s.store w i.productID .reserve = [reserveLog r.id i.line] ∧
      (r.status = .pending → DB.entries s.store w i.productID .confirm = [] ∧
        DB.entries s.store w i.productID .release = []) ∧
      (r.status = .confirmed →
        (∃ id, Collation.weight id = w ∧
          DB.entries s.store w i.productID .confirm = [settleLog id .confirm i]) ∧
        DB.entries s.store w i.productID .release = []) ∧
      (r.status = .released →
        (∃ id, Collation.weight id = w ∧
          DB.entries s.store w i.productID .release = [settleLog id .release i]) ∧
        DB.entries s.store w i.productID .confirm = []) := by
  have hL := ledgerOk_run h
  have hS := (carried_run h).holds
  refine ⟨hL.accounted.available, hL.accounted.reserved, fun w r hr i hi => ?_⟩
  have hsettled : ∀ k : Settlement, r.status = k.status → ∀ k' : Settlement, ∃ id,
      Collation.weight id = w ∧ DB.entries s.store w i.productID k'.changeType =
        if k' = k then [settleLog id k i] else [] :=
    fun k hst k' => entries_settled hS.logged hr hst hi k'
  refine ⟨?_, fun hst => ?_, fun hst => ?_, fun hst => ?_⟩
  · rw [entries_reserve, hL.placements w, hr, Option.map_some, Option.getD_some]
    exact filter_product (fun i : ReservationItem => reserveLog r.id i.line)
      r.items_nodup hi
  · have hnone : DB.settlements s.store w = [] := hS.logged.unsettled w fun r' hr' => by
      rw [← Option.some.inj (hr.symm.trans hr')]
      exact hst
    have hempty : ∀ k : Settlement, DB.entries s.store w i.productID k.changeType = [] :=
      fun k => by rw [entries_settle, hnone]; rfl
    exact ⟨hempty .confirm, hempty .release⟩
  · obtain ⟨id, -, hnone⟩ := hsettled .confirm hst .release
    exact ⟨hsettled .confirm hst .confirm, hnone⟩
  · obtain ⟨id, -, hnone⟩ := hsettled .release hst .confirm
    exact ⟨hsettled .release hst .release, hnone⟩

end

theorem stock_log_ledger_confirming :
    letI := asciiCi
    ∃ s : Service, run step start confirming = some s ∧ DB.available s.store 1 = 7 ∧
      logSum s.store.log 1 .initialized + logSum s.store.log 1 .add +
        logSum s.store.log 1 .reserve + logSum s.store.log 1 .release = 7 := by
  let _ : Collation := asciiCi
  have h : (run step start confirming).map (fun s => DB.available s.store 1) = some 7 := by decide
  obtain ⟨s, hs, h7⟩ := Option.map_eq_some_iff.mp h
  exact ⟨s, hs, h7, ((stock_log_ledger hs).1 1).symm.trans h7⟩

end OrderSystem.InventorySvc
