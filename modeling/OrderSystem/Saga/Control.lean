/-
# Who may write an order

Most writes of an order's status are compare-and-set, but the writes of `failed` and
`reconciliation_required` go by id alone.  They are safe as long as the call that makes them is
the only one that can have moved the order since it claimed it: a call of `Create` controls the
order it inserted while it is `reserving`, and `Pay` or `cancel` the order it claimed while it is
`paying` or `cancelling`.

That is an instance of the rule for control of `Kit/Rpc.lean`, and it needs one assumption: that
a call whose finalising transaction commits is told so (`Acknowledged`).  A call that is not told
goes on to compensate although it has already given the order away.

* `exclusive_run` -- under that assumption the calls control what they should.
* `final_absorbing` -- and then a final status is never left, except from `paid` to `finished`.
* `paid_overwritten` -- without it, `Pay` overwrites the `paid` it has just written.
-/
import OrderSystem.Saga.Agreement

namespace OrderSystem.Saga

open OrderSystem.Kit
open OrderSystem.OrderSvc
open OrderSystem.InventorySvc (Reservation)

/-! ## 1. Control -/

/-- The order a process controls and the status it left there. -/
def control : Proc → Option (Nat × Option OrderStatus)
  | .create _ (.reserve orderID _ _) => some (orderID, some .reserving)
  | .create _ (.fail orderID _) => some (orderID, some .reserving)
  | .create _ (.finalize orderID _) => some (orderID, some .reserving)
  | .create _ (.release orderID _ _) => some (orderID, some .reserving)
  | .create _ (.compensate orderID _ _ _) => some (orderID, some .reserving)
  | .settle c (.call _) => some (c.orderID, some c.kind.transient)
  | .settle c (.revert _) => some (c.orderID, some c.kind.transient)
  | .settle c .finalize => some (c.orderID, some c.kind.transient)
  | .settle c (.compensate _) => some (c.orderID, some c.kind.transient)
  | _ => none

/-- The status of an order, if there is one. -/
def statusOf (st : Local) (orderID : Nat) : Option OrderStatus :=
  (st.db.orders.row orderID).map (·.status)

/-- A status in which nobody controls the order. -/
def Free (v : Option OrderStatus) : Prop :=
  v ≠ some .reserving ∧ v ≠ some .paying ∧ v ≠ some .cancelling

instance (v : Option OrderStatus) : Decidable (Free v) := inferInstanceAs (Decidable (_ ∧ _))

/-- The process is about to run a finalising transaction. -/
def finalizing : Proc → Bool
  | .create _ (.finalize _ _) => true
  | .settle _ .finalize => true
  | _ => false

/-- The process that is not told about its commit in a step. -/
def untold (s : State) : Event → Option Proc
  | .act p (.sql (.lostAck _) _) => s.procs.row p
  | _ => none

/-- A call whose finalising transaction commits is told so. -/
def Acknowledged (s : State) (e : Event) : Prop := ∀ q ∈ untold s e, finalizing q = false

instance (s : State) (e : Event) : Decidable (Acknowledged s e) :=
  inferInstanceAs (Decidable (∀ q ∈ untold s e, _))

theorem not_free_transient (k : SettleKind) : ¬Free (some k.transient) := by
  cases k <;> decide

theorem not_free_of_control {q : Proc} {k : Nat} {v : Option OrderStatus}
    (h : control q = some (k, v)) : ¬Free v := by
  unfold control at h
  split at h
  case h_10 => exact absurd h (by simp)
  case h_6 => exact (Prod.mk.inj (Option.some.inj h)).2 ▸ not_free_transient _
  case h_7 => exact (Prod.mk.inj (Option.some.inj h)).2 ▸ not_free_transient _
  case h_8 => exact (Prod.mk.inj (Option.some.inj h)).2 ▸ not_free_transient _
  case h_9 => exact (Prod.mk.inj (Option.some.inj h)).2 ▸ not_free_transient _
  all_goals exact (Prod.mk.inj (Option.some.inj h)).2 ▸ (by decide)

theorem control_mayStart {st : Local} {procs : Table Proc} {q : Proc}
    (h : mayStart st procs q = true) : control q = none := by
  cases q with
  | create c pc =>
    rcases mayStart_create h with rfl | rfl
    · rfl
    · rfl
  | settle c pc =>
    cases pc with
    | load => rfl
    | _ => exact absurd h (by simp [mayStart])
  | _ => rfl

theorem control_resume {q : Proc} {op : Option InventoryOp} (h : q.request = some op)
    (a : Reply) : control (q.resume a) = control q := by
  cases q with
  | create c pc =>
    cases pc with
    | reserve orderID id items => cases a <;> rfl
    | release orderID id cause => cases a <;> rfl
    | _ => rfl
  | settle c pc =>
    cases pc with
    | call o => cases a <;> rfl
    | _ => rfl
  | _ => rfl

theorem control_quiet {st st' : Local} {ch : Choice} {q q' : Proc} (h : Quiet st ch q st' q')
    {x : Nat × Option OrderStatus} (hx : control q' = some x) : control q = some x := by
  cases h with
  | resolve c catalog uuid hu =>
    unfold CreatePc.resolved at hx
    split at hx
    · exact absurd hx (by simp [control])
    · exact absurd hx (by simp [control])
  | _ => exact absurd hx (by simp [control])

/-- After an error only a call that was finalising still controls its order. -/
theorem control_after_error {q : Proc} {stmt : Stmt} (hstmt : q.stmt = some stmt) {err : Err}
    {x : Nat × Option OrderStatus} (hx : control (q.after (.error err)) = some x) :
    finalizing q = true ∧ control q = some x := by
  cases q with
  | create c pc =>
    cases pc with
    | finalize orderID id => exact ⟨rfl, hx⟩
    | lookup => cases err <;> exact absurd hx (by simp [Proc.after, CreatePc.after, control])
    | reserve orderID id items => exact absurd hstmt (by simp [Proc.stmt, CreatePc.stmt])
    | release orderID id cause => exact absurd hstmt (by simp [Proc.stmt, CreatePc.stmt])
    | _ => exact absurd hx (by simp [Proc.after, CreatePc.after, control])
  | settle c pc =>
    cases pc with
    | finalize => exact ⟨rfl, hx⟩
    | call o => exact absurd hstmt (by simp [Proc.stmt, SettlePc.stmt])
    | _ => exact absurd hx (by simp [Proc.after, SettlePc.after, control])
  | _ => exact absurd hx (by simp [Proc.after, control])

/-- A writer controls the order, or its statement asks for a status in which the order is free. -/
theorem writer_controls {q : Proc} {stmt : Stmt} (hw : Writer q stmt) {k : Nat}
    {old : Option OrderStatus} {new : OrderStatus} (hch : stmt.change = some (k, old, new)) :
    (∃ v, control q = some (k, v)) ∨ ∃ st, old = some st ∧ Free (some st) := by
  cases hw with
  | createFail c orderID cause | createFinalize c orderID id
  | createCompensate c orderID status reason result | settleRevert c cause | settleFinalize c
  | settleCompensate c cause =>
    simp only [Stmt.change, Option.some.injEq, Prod.mk.injEq] at hch
    exact Or.inl ⟨_, by rw [← hch.1]; rfl⟩
  | settleClaim c o =>
    simp only [Stmt.change, Option.some.injEq, Prod.mk.injEq] at hch
    exact Or.inr ⟨.pending, hch.2.1.symm, by decide⟩
  | finish c =>
    simp only [Stmt.change, Option.some.injEq, Prod.mk.injEq] at hch
    exact Or.inr ⟨.paid, hch.2.1.symm, by decide⟩
  | complete cfg task target closes rest =>
    simp only [Stmt.change, Option.some.injEq, Prod.mk.injEq] at hch
    exact Or.inr ⟨.reconciliationRequired, hch.2.1.symm, by decide⟩

section

variable [Collation]

/-- A committed statement changes only what its process controls or finds free. -/
theorem changes_of_exec {st : Local} {q : Proc} {stmt : Stmt} (hstmt : q.stmt = some stmt)
    {now : Int} {locked : List Nat} {r : Res} {db' : DB}
    (hexec : stmt.exec now locked st.db = .ok (r, db')) (k : Nat) :
    statusOf { st with db := db' } k = statusOf st k ∨ (∃ v, control q = some (k, v)) ∨
      Free (statusOf st k) := by
  cases hrow : st.db.orders.row k with
  | none => exact Or.inr (Or.inr (by rw [statusOf, hrow]; decide))
  | some x =>
    rcases (exec_orders hexec).forward hrow with hsame | ⟨x', old, -, hch⟩
    · exact Or.inl (by rw [statusOf, statusOf, hrow, hsame])
    · rcases writer_controls (writer_of_change hstmt hch.change) hch.change with
        hc | ⟨v, rfl, hfree⟩
      · exact Or.inr (Or.inl hc)
      · exact Or.inr (Or.inr (by rw [statusOf, hrow, Option.map_some, hch.was v rfl]; exact hfree))

/-- A committed statement gives control only of an order that was free, and that has the status
the process relies on. -/
theorem gains_of_exec {st : Local} {q : Proc} {stmt : Stmt} (hstmt : q.stmt = some stmt)
    {now : Int} {locked : List Nat} {r : Res} {db' : DB}
    (hexec : stmt.exec now locked st.db = .ok (r, db')) {k : Nat} {v : Option OrderStatus}
    (hx : control (q.after (.ok r)) = some (k, v)) :
    statusOf { st with db := db' } k = v ∧ Free (statusOf st k) := by
  cases q with
  | create c pc =>
    cases pc with
    | insert draft items =>
      obtain rfl := Option.some.inj hstmt
      obtain ⟨⟨hacc, rfl⟩, rfl, -⟩ := insertOrder_ok hexec
      obtain ⟨rfl, rfl⟩ := Prod.mk.inj (Option.some.inj hx)
      constructor
      · rw [statusOf, Table.insert_row_next]
        rfl
      · rw [statusOf, Table.fresh _ _ (Nat.le_refl _)]
        decide
    | lookup | relookup cause =>
      obtain rfl := Option.some.inj hstmt
      obtain ⟨id, o, rfl, -⟩ := exec_findByIdempotency hexec
      exact absurd hx (by simp [Proc.after, CreatePc.after, control])
    | get orderID =>
      obtain rfl := Option.some.inj hstmt
      obtain ⟨o, rfl, -⟩ := exec_get hexec
      exact absurd hx (by simp [Proc.after, CreatePc.after, control])
    | reserve orderID id items => exact absurd hstmt (by simp [Proc.stmt, CreatePc.stmt])
    | release orderID id cause => exact absurd hstmt (by simp [Proc.stmt, CreatePc.stmt])
    | _ => exact absurd hx (by simp [Proc.after, CreatePc.after, control])
  | settle c pc =>
    cases pc with
    | claim o =>
      obtain rfl := Option.some.inj hstmt
      obtain ⟨rfl, rfl⟩ := Prod.mk.inj (Option.some.inj hx)
      obtain ⟨x, x', hst, hst', hchg⟩ := claim_ok hexec
      constructor
      · rw [statusOf, hchg.row, Option.map_some, hst']
      · rw [statusOf, hchg.before, Option.map_some, hst]
        decide
    | load =>
      obtain rfl := Option.some.inj hstmt
      obtain ⟨o, rfl, -⟩ := exec_get hexec
      simp only [Proc.after, SettlePc.after] at hx
      split at hx
      · exact absurd hx (by simp [control])
      · split at hx
        · exact absurd hx (by simp [control])
        · exact absurd hx (by simp [control])
    | reload =>
      obtain rfl := Option.some.inj hstmt
      obtain ⟨o, rfl, -⟩ := exec_get hexec
      exact absurd hx (by simp [Proc.after, SettlePc.after, control])
    | call o => exact absurd hstmt (by simp [Proc.stmt, SettlePc.stmt])
    | _ => exact absurd hx (by simp [Proc.after, SettlePc.after, control])
  | _ => exact absurd hx (by simp [Proc.after, control])

/-- Local steps respect control. -/
theorem act_respects {s : State} (hE : Exclusive control statusOf s) {p : Nat} {ch : Choice}
    {q q' : Proc} {st' : Local} (hC : Acknowledged s (.act p ch)) (hq : s.At p q)
    (h : act s.store q ch = some (st', q')) :
    Respects control statusOf Free s.store st' q q' := by
  rcases act_cases h with
    ⟨o, locked, stmt, rfl, hstmt, rfl, rfl⟩ | ⟨-, hnone, rfl, rfl⟩ | hquiet
  · rcases runSql_cases o s.store.now locked stmt s.store.db with
      ⟨err, h1, h2, -⟩ | ⟨r, hexec, ⟨-, h1⟩ | ⟨m, rfl, h1⟩⟩
    · refine ⟨fun k => Or.inl (by rw [h2]), fun k v hx => ?_⟩
      rw [h1] at hx
      obtain ⟨-, hc⟩ := control_after_error hstmt hx
      rw [h2]
      exact ⟨hE.held p q k v hq hc, Or.inl ⟨v, hc⟩⟩
    · refine ⟨changes_of_exec hstmt hexec, fun k v hx => ?_⟩
      rw [h1] at hx
      obtain ⟨hval, hfree⟩ := gains_of_exec hstmt hexec hx
      exact ⟨hval, Or.inr hfree⟩
    · -- the commit was not acknowledged, so this was no finalising transaction
      refine ⟨changes_of_exec hstmt hexec, fun k v hx => ?_⟩
      rw [h1] at hx
      obtain ⟨hf, -⟩ := control_after_error hstmt hx
      exact absurd hf (by rw [hC q hq]; simp)
  · refine ⟨fun k => Or.inl rfl, fun k v hx => ?_⟩
    rw [control_resume hnone] at hx
    exact ⟨hE.held p q k v hq hx, Or.inl ⟨v, hx⟩⟩
  · have hdb := hquiet.db
    have hstatus : ∀ k, statusOf st' k = statusOf s.store k := fun k => by
      rw [statusOf, statusOf, hdb]
    refine ⟨fun k => Or.inl (hstatus k), fun k v hx => ?_⟩
    have hc := control_quiet hquiet hx
    exact ⟨(hstatus k).trans (hE.held p q k v hq hc), Or.inl ⟨v, hc⟩⟩

theorem exclusive_step {s s' : State} {e : Event} (hE : Exclusive control statusOf s)
    (hC : Acknowledged s e) (hs : step s e = some s') : Exclusive control statusOf s' := by
  refine hE.step hs (fun _ _ _ hc => not_free_of_control hc) (fun _ hadm => control_mayStart hadm)
    (fun p ch q st' q' he hq hact => ?_) (fun q w a x hw hx => ?_) (fun x st' inv' hx k => ?_)
  · subst he
    exact act_respects hE hC hq hact
  · exact control_resume (Option.join_eq_some_iff.mp hw) a ▸ hx
  · rw [statusOf, statusOf, (outside_cases hx).1]

/-- **Calls control what they claimed**, in every run whose finalising transactions are
acknowledged. -/
theorem exclusive_run {es : List Event} {s : State} (h : run step start es = some s)
    (hC : Meets Acknowledged step start es) : Exclusive control statusOf s :=
  run_invariant_of (fun _ _ _ hE hc hs => exclusive_step hE hc hs) (exclusive_init _ _ _ _) hC h

end

/-! ## 2. Final states -/

/-- A status that an order keeps. -/
def Final (st : OrderStatus) : Prop :=
  st = .paid ∨ st = .finished ∨ st = .cancelled ∨ st = .failed

/-- What may become of a final status. -/
def Absorbs (st st' : OrderStatus) : Prop := st' = st ∨ (st = .paid ∧ st' = .finished)

theorem Absorbs.trans {a b c : OrderStatus} (h : Absorbs a b) (h' : Absorbs b c) :
    Absorbs a c := by
  rcases h with rfl | ⟨rfl, rfl⟩
  · exact h'
  · rcases h' with rfl | ⟨h1, -⟩
    · exact Or.inr ⟨rfl, rfl⟩
    · exact absurd h1 (by simp)

theorem Absorbs.final {a b : OrderStatus} (h : Absorbs a b) (ha : Final a) : Final b := by
  rcases h with rfl | ⟨rfl, rfl⟩
  · exact ha
  · exact Or.inr (Or.inl rfl)

theorem Final.free {st : OrderStatus} (h : Final st) : Free (some st) := by
  rcases h with rfl | rfl | rfl | rfl <;> decide

/-- A writer that does not control the order leaves a final status alone, or finishes a paid
order. -/
theorem absorbs_of_writer {q : Proc} {stmt : Stmt} (hw : Writer q stmt) {k : Nat} {x x' : Order}
    {old : Option OrderStatus} (hch : ChangedTo stmt k x x' old) (hx : Final x.status)
    (hctl : ∀ v, control q ≠ some (k, v)) : Absorbs x.status x'.status := by
  have hchange := hch.change
  cases hw with
  | settleClaim c o =>
    simp only [Stmt.change, Option.some.injEq, Prod.mk.injEq] at hchange
    rw [hch.was .pending hchange.2.1.symm] at hx
    exact absurd hx (by simp [Final])
  | finish c =>
    simp only [Stmt.change, Option.some.injEq, Prod.mk.injEq] at hchange
    exact Or.inr ⟨hch.was .paid hchange.2.1.symm, hchange.2.2.symm⟩
  | complete cfg task target closes rest =>
    simp only [Stmt.change, Option.some.injEq, Prod.mk.injEq] at hchange
    rw [hch.was .reconciliationRequired hchange.2.1.symm] at hx
    exact absurd hx (by simp [Final])
  | createFail c orderID cause | createFinalize c orderID id
  | createCompensate c orderID status reason result | settleRevert c cause | settleFinalize c
  | settleCompensate c cause =>
    simp only [Stmt.change, Option.some.injEq, Prod.mk.injEq] at hchange
    exact absurd rfl (hchange.1 ▸ hctl _)

section

variable [Collation]

/-- One step keeps a final status, or finishes a paid order. -/
theorem final_step {s s' : State} {e : Event} (hE : Exclusive control statusOf s)
    (hs : step s e = some s') {i : Nat} {o : Order} (ho : s.store.db.orders.row i = some o)
    (hfin : Final o.status) :
    ∃ o', s'.store.db.orders.row i = some o' ∧ Absorbs o.status o'.status := by
  obtain ⟨o', ho', hstep⟩ := order_step hs ho
  refine ⟨o', ho', ?_⟩
  cases hstep with
  | kept => exact Or.inl rfl
  | written p oc locked q stmt r _ old he hq hstmt hw hexec hch =>
    refine absorbs_of_writer hw hch hfin ?_
    intro v hc
    refine not_free_of_control hc ?_
    rw [← hE.held p q i v hq hc, statusOf, ho]
    exact hfin.free

/-- **Final order states are absorbing.**  In every run in which a call whose finalising
transaction commits is told so, an order that is paid, finished, cancelled or failed at one
point has the same status at every later point, except that a paid order may be finished. -/
theorem final_absorbing {es es' : List Event} {s s' : State} (h : run step start es = some s)
    (hC : Meets Acknowledged step start es) (h' : run step s es' = some s')
    (hC' : Meets Acknowledged step s es') {i : Nat} {o : Order}
    (ho : s.store.db.orders.row i = some o)
    (hfin : o.status = .paid ∨ o.status = .finished ∨ o.status = .cancelled ∨
      o.status = .failed) :
    ∃ o', s'.store.db.orders.row i = some o' ∧
      (o'.status = o.status ∨ (o.status = .paid ∧ o'.status = .finished)) := by
  have hI := run_invariant_of (C := Acknowledged)
    (I := fun t => Exclusive control statusOf t ∧
      ∃ o', t.store.db.orders.row i = some o' ∧ Absorbs o.status o'.status)
    (fun t e t' ⟨hE, x, hx, habs⟩ hc hs => by
      obtain ⟨x', hx', habs'⟩ := final_step hE hs hx (habs.final hfin)
      exact ⟨exclusive_step hE hc hs, x', hx', habs.trans habs'⟩)
    ⟨exclusive_run h hC, o, ho, Or.inl rfl⟩ hC' h'
  exact hI.2

end

/-- `Finish`, after `paying`. -/
def finishing : List Event := [.spawn (.finish ⟨1, 1⟩ .update), .act 4 (.sql .ok [])]

theorem final_absorbing_finishing :
    letI := asciiCi
    ∃ (s s' : State) (o o' : Order), run step start (ordering ++ paying) = some s ∧
      run step s finishing = some s' ∧ s.store.db.orders.row 1 = some o ∧ o.status = .paid ∧
      s'.store.db.orders.row 1 = some o' ∧
      (o'.status = o.status ∨ (o.status = .paid ∧ o'.status = .finished)) := by
  let _ : Collation := asciiCi
  have hpaid : (run step start (ordering ++ paying)).map
      (fun s => (s.store.db.orders.row 1).map (·.status)) = some (some .paid) := by decide
  obtain ⟨s, hs, hv⟩ := Option.map_eq_some_iff.mp hpaid
  obtain ⟨o, ho, hst⟩ := Option.map_eq_some_iff.mp hv
  have hend : (run step start ((ordering ++ paying) ++ finishing)).isSome := by decide
  obtain ⟨s', hs'⟩ := Option.isSome_iff_exists.mp hend
  obtain ⟨t, ht, hrun⟩ := run_append.mp hs'
  obtain rfl := Option.some.inj (hs.symm.trans ht)
  have hmeets : Meets Acknowledged step start ((ordering ++ paying) ++ finishing) := by decide
  obtain ⟨hC, hC'⟩ := (meets_append hs).mp hmeets
  obtain ⟨o', ho', habs⟩ := final_absorbing hs hC hrun hC' ho (Or.inl hst)
  exact ⟨s, s', o, o', hs, hrun, ho, hst, ho', habs⟩

/-- `Pay` goes through, but is not told that its finalising transaction committed. -/
def unacknowledged : List Event :=
  [.spawn (.settle ⟨.pay, false, 1, 1, none⟩ .load), .act 2 (.sql .ok []), .act 2 (.sql .ok []),
    .send 2, .serve 1 ⟨.none, [], []⟩, .receive 2 1, .act 2 (.sql (.lostAck []) [])]

/-- **`Pay` overwrites `paid`**: after a lost acknowledgement its next statement writes
`reconciliation_required` over the status it has just reached. -/
theorem paid_overwritten :
    letI := asciiCi
    ∃ (s s' : State) (o o' : Order), run step start (ordering ++ unacknowledged) = some s ∧
      step s (.act 2 (.sql .ok [])) = some s' ∧
      s.store.db.orders.row 1 = some o ∧ o.status = .paid ∧
      s'.store.db.orders.row 1 = some o' ∧ o'.status = .reconciliationRequired := by
  let _ : Collation := asciiCi
  have hpaid : (run step start (ordering ++ unacknowledged)).bind
      (fun s => (step s (.act 2 (.sql .ok []))).map fun s' =>
        ((s.store.db.orders.row 1).map (·.status), (s'.store.db.orders.row 1).map (·.status))) =
      some (some .paid, some .reconciliationRequired) := by decide
  obtain ⟨s, hs, hv⟩ := Option.bind_eq_some_iff.mp hpaid
  obtain ⟨s', hs', hv⟩ := Option.map_eq_some_iff.mp hv
  obtain ⟨h1, h2⟩ := Prod.mk.inj hv
  obtain ⟨o, ho, hst⟩ := Option.map_eq_some_iff.mp h1
  obtain ⟨o', ho', hst'⟩ := Option.map_eq_some_iff.mp h2
  exact ⟨s, s', o, o', hs, hs', ho, hst, ho', hst'⟩

end OrderSystem.Saga
