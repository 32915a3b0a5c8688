/-
# What a call leaves behind

`Create`, `cancel` and `Pay` move an order to a transient status first and out of it later, over
several statements, with a remote call in between.  Most of these statements run under the
context of the request.  When that context expires the database rejects them, and the call has
to leave the transient status all the same: `cancel` and `Pay` write their failures under a
fresh context, and so does the compensation of `Create`.

`Create` has one failure write that does not: `failed`, after `Reserve` returned an error.  The
usual reason for that error is that the context has expired, and then the write is rejected, its
error is ignored, and the call returns with the order still `reserving`.

* `no_transient_left` -- as long as this one write is not rejected, an order is in a transient
  status only while a call that has not returned is at work on it, or because such a call has
  crashed.
* `reserving_left` -- and with the write rejected, an order stays `reserving` and nothing is
  running or under way any more.
-/
import OrderSystem.Kit.Overlay
import OrderSystem.Saga.Failure

namespace OrderSystem.Saga

open OrderSystem.Kit
open OrderSystem.OrderSvc
open OrderSystem.InventorySvc (Reservation)

/-! ## 1. Contexts -/

/-- The context of a statement: the request's, a fresh one that never expires, or one of a
worker, which may have expired or not. -/
inductive Context where
  | request
  | background
  | worker
  deriving DecidableEq

/-- The context of the statement a process is at. -/
def Proc.context : Proc → Context
  | .create _ (.compensate _ _ _ _) => .background
  | .create _ _ => .request
  | .settle _ (.revert _) => .background
  | .settle _ (.compensate _) => .background
  | .settle _ _ => .request
  | .finish _ _ => .request
  | .recon _ _ => .worker
  | .publisher _ _ => .worker
  | .delivery _ _ => .worker

/-- The database runs a statement whose context has not expired, and rejects one whose context
has expired, without effect. -/
def obeys (expired : Bool) : Context → SqlOutcome → Bool
  | .request, .ok => !expired
  | .request, .failed _ => expired
  | .background, .ok => true
  | .background, .failed _ => false
  | .worker, .ok => true
  | .worker, .failed _ => true
  | _, .lostAck _ => false

/-- The requests whose context has expired, by the process that serves them. -/
abbrev Contexts := Nat → Bool

/-- The contexts as notes on the saga: a statement ends as its context demands, and a context
may expire at any point. -/
def contexts : Overlay State Event Contexts Nat where
  allows s expired
    | .act p (.sql o _) => (s.procs.row p).any fun q => obeys (expired p) q.context o
    | _ => true
  note _ _ expired := expired
  own expired p := Function.update expired p true

/-- An event of the saga, or the context of a process expires. -/
abbrev ContextEvent := Watched Event Nat

/-- The process is about to write `failed` because `Reserve` returned an error. -/
def failing : Proc → Bool
  | .create _ (.fail _ _) => true
  | _ => false

/-- The process that runs a statement in a step. -/
def runsStmt : ContextEvent → Option Nat
  | .sys (.act p (.sql _ _)) => some p
  | _ => none

/-- When `Create` writes `failed` after an error of `Reserve`, its context has not expired. -/
def FailWritten (t : State × Contexts) (e : ContextEvent) : Prop :=
  ∀ p ∈ runsStmt e, ∀ q ∈ t.1.procs.row p, failing q = true → t.2 p = false

instance (t : State × Contexts) (e : ContextEvent) : Decidable (FailWritten t e) :=
  inferInstanceAs (Decidable (∀ p ∈ runsStmt e, ∀ q ∈ t.1.procs.row p, _))

theorem isOver_of_control {q : Proc} {x : Nat × Option OrderStatus} (h : control q = some x) :
    isOver q = false := by
  unfold control at h
  split at h
  case h_10 => exact absurd h (by simp)
  all_goals rfl

theorem control_after_finalizing {q : Proc} (h : finalizing q = true) (err : Err) :
    control (q.after (.error err)) = control q := by
  unfold finalizing at h
  split at h
  · rfl
  · rfl
  · exact absurd h (by simp)

section

variable [Collation]

/-- One step of the saga with its contexts. -/
abbrev contextStep : State × Contexts → ContextEvent → Option (State × Contexts) :=
  overlayStep contexts step

/-- No context has expired before anything has happened. -/
def contextStart : State × Contexts := (start, fun _ => false)

/-- A call had the order in hand when it crashed. -/
def Abandoned (es : List ContextEvent) (orderID : Nat) : Prop :=
  ∃ es₁ p es₂ s expired q v, es = es₁ ++ .sys (.crash p) :: es₂ ∧
    run contextStep contextStart es₁ = some (s, expired) ∧ s.At p q ∧
    control q = some (orderID, v)

variable {es : List ContextEvent} {q : Proc} {stmt : Stmt} {x : Nat × Option OrderStatus}
  {s : State} {expired : Contexts} {locked : List Nat} {now : Int} {st : Local} {k : Nat} {r : Res}
  {db' : DB}

theorem Abandoned.snoc {orderID : Nat} (h : Abandoned es orderID) (e : ContextEvent) :
    Abandoned (es ++ [e]) orderID := by
  obtain ⟨es₁, p, es₂, s, expired, q, v, rfl, hrun, hq, hc⟩ := h
  exact ⟨es₁, p, es₂ ++ [e], s, expired, q, v, by simp, hrun, hq, hc⟩

/-! ## 2. What a statement leaves -/

omit [Collation] in
theorem context_of_failing (h : failing q = true) : q.context = .request := by
  unfold failing at h
  split at h
  · rfl
  · exact absurd h (by simp)

/-- The statements of a process in control: the finalising transactions; the write of `failed`;
and the compensations, under a fresh context.  The last two have nothing to fail at. -/
theorem stmt_of_control (hstmt : q.stmt = some stmt) (hx : control q = some x) :
    finalizing q = true ∨ ((failing q = true ∨ q.context = .background) ∧
      ∀ now locked db, ∃ r, stmt.exec now locked db = .ok r) := by
  cases q with
  | create c pc =>
    cases pc with
    | finalize orderID id => exact Or.inl rfl
    | fail orderID cause =>
      obtain rfl := Option.some.inj hstmt
      exact Or.inr ⟨Or.inl rfl, fun _ _ _ => ⟨_, rfl⟩⟩
    | compensate orderID status reason result =>
      obtain rfl := Option.some.inj hstmt
      exact Or.inr ⟨Or.inr rfl, fun _ _ _ => ⟨_, rfl⟩⟩
    | reserve orderID id items => exact absurd hstmt (by simp [Proc.stmt, CreatePc.stmt])
    | release orderID id cause => exact absurd hstmt (by simp [Proc.stmt, CreatePc.stmt])
    | _ => exact absurd hx (by simp [control])
  | settle c pc =>
    cases pc with
    | finalize => exact Or.inl rfl
    | revert cause | compensate cause =>
      obtain rfl := Option.some.inj hstmt
      exact Or.inr ⟨Or.inr rfl, fun _ _ _ => ⟨_, rfl⟩⟩
    | call o => exact absurd hstmt (by simp [Proc.stmt, SettlePc.stmt])
    | _ => exact absurd hx (by simp [control])
  | _ => exact absurd hx (by simp [control])

/-- A process in control whose statement is rejected was finalising. -/
theorem finalizing_of_rejected {p : Nat} (hq : s.At p q) {o : SqlOutcome}
    (hallow : contexts.allows s expired (.act p (.sql o locked)) = true)
    (hC : FailWritten (s, expired) (.sys (.act p (.sql o locked)))) (hstmt : q.stmt = some stmt)
    (hx : control q = some x) (ho : o ≠ .ok) : finalizing q = true := by
  have hrow : s.procs.row p = some q := hq
  have hobeys : obeys (expired p) q.context o = true := by
    simpa [contexts, hrow] using hallow
  rcases stmt_of_control hstmt hx with hfin | ⟨hf | hb, -⟩
  · exact hfin
  · have hexp : expired p = false := hC p rfl q hq hf
    rw [context_of_failing hf, hexp] at hobeys
    cases o with
    | ok => exact absurd rfl ho
    | _ => exact absurd hobeys (by simp [obeys])
  · rw [hb] at hobeys
    cases o with
    | ok => exact absurd rfl ho
    | _ => exact absurd hobeys (by simp [obeys])

/-- Only a finalising transaction of a process in control can fail by itself. -/
theorem finalizing_of_error (hstmt : q.stmt = some stmt) (hx : control q = some x) {db : DB}
    {err : Err} (herr : stmt.exec now locked db = .error err) : finalizing q = true := by
  rcases stmt_of_control hstmt hx with hfin | ⟨-, hexec⟩
  · exact hfin
  · obtain ⟨r, hr⟩ := hexec now locked db
    exact absurd (hr.symm.trans herr) (by simp)

/-- A status written by id alone is there afterwards. -/
theorem statusOf_writeStatus {v : OrderStatus} (hv : statusOf st k = some v) {status : OrderStatus}
    {reason : GoString}
    (hexec : (Stmt.writeStatus k status reason).exec now locked st.db = .ok (r, db')) :
    statusOf { st with db := db' } k = some status := by
  obtain ⟨-, rfl⟩ := Prod.mk.inj (Except.ok.inj hexec)
  obtain ⟨o, ho, -⟩ := Option.map_eq_some_iff.mp hv
  simp [statusOf, DB.updateOrder, ho, Order.withStatus]

/-- A process in control that runs its statement leaves the order free. -/
theorem frees_of_exec {inv : InventorySvc.DB} (hknow : procOk st.db inv q)
    (hstmt : q.stmt = some stmt) {v : Option OrderStatus} (hx : control q = some (k, v))
    (hv : statusOf st k = v) (hexec : stmt.exec now locked st.db = .ok (r, db')) :
    Free (statusOf { st with db := db' } k) := by
  cases q with
  | create c pc =>
    cases pc with
    | fail orderID cause =>
      obtain rfl := Option.some.inj hstmt
      obtain ⟨rfl, rfl⟩ := Prod.mk.inj (Option.some.inj hx)
      rw [statusOf_writeStatus hv hexec]
      decide
    | finalize orderID id =>
      obtain rfl := Option.some.inj hstmt
      obtain ⟨rfl, rfl⟩ := Prod.mk.inj (Option.some.inj hx)
      obtain ⟨-, ⟨o, o', -, hst, -, hchg⟩, -⟩ := finalizeCreate_ok hexec
      rw [statusOf, hchg.row, Option.map_some, hst]
      decide
    | compensate orderID status reason result =>
      obtain rfl := Option.some.inj hstmt
      obtain ⟨rfl, rfl⟩ := Prod.mk.inj (Option.some.inj hx)
      rw [statusOf_writeStatus hv hexec]
      rcases hknow.2.2 with ⟨rfl, -⟩ | rfl
      · decide
      · decide
    | reserve orderID id items => exact absurd hstmt (by simp [Proc.stmt, CreatePc.stmt])
    | release orderID id cause => exact absurd hstmt (by simp [Proc.stmt, CreatePc.stmt])
    | _ => exact absurd hx (by simp [control])
  | settle c pc =>
    cases pc with
    | revert cause =>
      obtain rfl := Option.some.inj hstmt
      obtain ⟨rfl, rfl⟩ := Prod.mk.inj (Option.some.inj hx)
      obtain ⟨-, rfl⟩ := Prod.mk.inj (Except.ok.inj hexec)
      obtain ⟨o, ho, hst⟩ := Option.map_eq_some_iff.mp hv
      obtain ⟨-, o', hst', -, hrow⟩ := moveStatus_of_row ho
        (fun u (hu : u ∈ none) => absurd hu (by simp)) now .pending
        (some (truncate cause.text 500))
      rw [hst] at hrow
      rw [statusOf, hrow, Option.map_some, hst']
      decide
    | finalize =>
      obtain rfl := Option.some.inj hstmt
      obtain ⟨rfl, rfl⟩ := Prod.mk.inj (Option.some.inj hx)
      obtain ⟨o, o', -, hst, hchg⟩ := finalizeSettle_ok hexec
      rw [statusOf, hchg.row, Option.map_some, hst]
      cases c.kind <;> decide
    | compensate cause =>
      obtain rfl := Option.some.inj hstmt
      obtain ⟨rfl, rfl⟩ := Prod.mk.inj (Option.some.inj hx)
      rw [statusOf_writeStatus hv hexec]
      decide
    | call o => exact absurd hstmt (by simp [Proc.stmt, SettlePc.stmt])
    | _ => exact absurd hx (by simp [control])
  | _ => exact absurd hx (by simp [control])

omit [Collation] in
theorem free_of_plan {action : Action} {target : OrderStatus} {closes : Bool}
    {t : InventorySvc.Settlement} (h : action.plan = some (target, closes, t)) :
    Free (some target) := by
  cases action with
  | unsupportedFrom st => exact absurd h (by simp [Action.plan])
  | _ =>
    obtain ⟨rfl, -⟩ := Prod.mk.inj (Option.some.inj h)
    decide

/-- An order that is not free after a statement was as it is, or the process controls it now. -/
theorem reaches_of_exec {inv : InventorySvc.DB} (hknow : procOk st.db inv q)
    (hstmt : q.stmt = some stmt) (hexec : stmt.exec now locked st.db = .ok (r, db'))
    (hnc : ∀ v, control q ≠ some (k, v)) (hk : ¬Free (statusOf { st with db := db' } k)) :
    statusOf { st with db := db' } k = statusOf st k ∨
      ∃ v, control (q.after (.ok r)) = some (k, v) := by
  cases hrow : db'.orders.row k with
  | none => exact absurd (by rw [statusOf, hrow]; decide) hk
  | some x' =>
    have hx' : statusOf { st with db := db' } k = some x'.status := by
      rw [statusOf, hrow, Option.map_some]
    rcases (exec_orders hexec).backward hrow with
      hsame | ⟨draft, hacc, rfl, rfl, rfl⟩ | ⟨x, old, hx, hch⟩
    · exact Or.inl (by rw [hx', statusOf, hsame, Option.map_some])
    · obtain ⟨c, items, rfl⟩ := insert_of_stmt hstmt
      obtain ⟨-, rfl, -⟩ := insertOrder_ok hexec
      exact Or.inr ⟨_, rfl⟩
    · have hchange := hch.change
      rw [hx'] at hk
      cases writer_of_change hstmt hch.change with
      | settleClaim c o =>
        simp only [Stmt.change, Option.some.injEq, Prod.mk.injEq] at hchange
        obtain ⟨rfl, -, -⟩ := hchange
        exact Or.inr ⟨_, rfl⟩
      | finish c =>
        simp only [Stmt.change, Option.some.injEq, Prod.mk.injEq] at hchange
        exact absurd (by rw [← hchange.2.2]; decide) hk
      | complete cfg task target closes rest =>
        simp only [Stmt.change, Option.some.injEq, Prod.mk.injEq] at hchange
        obtain ⟨op, hplan, -⟩ := hknow
        exact absurd (hchange.2.2 ▸ free_of_plan hplan) hk
      | createFail c orderID cause | createFinalize c orderID id
      | createCompensate c orderID status reason result | settleRevert c cause
      | settleFinalize c | settleCompensate c cause =>
        simp only [Stmt.change, Option.some.injEq, Prod.mk.injEq] at hchange
        exact absurd rfl (hchange.1 ▸ hnc _)

/-! ## 3. Runs -/

omit [Collation] in
theorem control_of_quiet {st' : Local} {ch : Choice} {q' : Proc} (h : Quiet st ch q st' q') :
    control q = none := by
  cases h with
  | _ => rfl

/-- A local step lets go of an order only when it leaves it free. -/
theorem act_letsGo (hknow : Known s) (hE : Exclusive control statusOf s) {p : Nat} {ch : Choice}
    {q' : Proc} {st' : Local} (hallow : contexts.allows s expired (.act p ch) = true)
    (hC : FailWritten (s, expired) (.sys (.act p ch))) (hq : s.At p q)
    (h : act s.store q ch = some (st', q')) : LetsGo control statusOf Free s.store st' q q' := by
  intro k hk
  rcases act_cases h with
    ⟨o, locked, stmt, rfl, hstmt, rfl, rfl⟩ | ⟨-, hnone, rfl, rfl⟩ | hquiet
  · rcases runSql_cases o s.store.now locked stmt s.store.db with
      ⟨err, h1, h2, h3⟩ | ⟨r, hexec, ⟨-, h1⟩ | ⟨m, rfl, h1⟩⟩
    · rw [h2] at hk
      rw [h1]
      by_cases hc : ∃ v, control q = some (k, v)
      · -- the statement had no effect, so the process must still be in control
        obtain ⟨v, hc⟩ := hc
        have hfin : finalizing q = true := by
          rcases h3 with herr | ⟨m, rfl, -⟩
          · exact finalizing_of_error hstmt hc herr
          · exact finalizing_of_rejected hq hallow hC hstmt hc (by simp)
        exact Or.inl ⟨v, (control_after_finalizing hfin err).trans hc⟩
      · exact Or.inr ⟨hk, fun v hv => hc ⟨v, hv⟩⟩
    · rw [h1]
      by_cases hc : ∃ v, control q = some (k, v)
      · obtain ⟨v, hc⟩ := hc
        exact absurd (frees_of_exec (hknow.procs p q hq) hstmt hc (hE.held p q k v hq hc) hexec) hk
      · have hnc : ∀ v, control q ≠ some (k, v) := fun v hv => hc ⟨v, hv⟩
        rcases reaches_of_exec (hknow.procs p q hq) hstmt hexec hnc hk with hsame | hgain
        · exact Or.inr ⟨hsame ▸ hk, hnc⟩
        · exact Or.inl hgain
    · -- a lost acknowledgement is neither of the two outcomes
      have hrow : s.procs.row p = some q := hq
      have hobeys : obeys (expired p) q.context (.lostAck m) = true := by
        simpa [contexts, hrow] using hallow
      exact absurd hobeys (by simp [obeys])
  · by_cases hc : ∃ v, control q = some (k, v)
    · obtain ⟨v, hc⟩ := hc
      exact Or.inl ⟨v, (control_resume hnone _).trans hc⟩
    · exact Or.inr ⟨hk, fun v hv => hc ⟨v, hv⟩⟩
  · refine Or.inr ⟨?_, fun v => by rw [control_of_quiet hquiet]; simp⟩
    rw [statusOf, hquiet.db] at hk
    exact hk

omit [Collation] in
theorem acknowledged_of_allows {e : Event} (h : contexts.allows s expired e = true) :
    Acknowledged s e := by
  intro q hq
  cases e with
  | act p ch =>
    cases ch with
    | sql o locked =>
      cases o with
      | lostAck m =>
        have hrow : s.procs.row p = some q := hq
        simp [contexts, hrow, obeys] at h
      | _ => exact absurd hq (by simp [untold])
    | _ => exact absurd hq (by simp [untold])
  | _ => exact absurd hq (by simp [untold])

/-- Under its contexts the saga runs as it does without, and its calls control what they
claimed. -/
theorem controlled_run (h : run contextStep contextStart es = some (s, expired)) :
    Known s ∧ Exclusive control statusOf s := by
  obtain ⟨es₀, hrun, hack⟩ := overlay_base (fun _ _ _ ha => acknowledged_of_allows ha) h
  exact ⟨wired_run hrun, exclusive_run hrun hack⟩

/-- An order in a transient status is attended, along a run with contexts. -/
theorem attended_step {t t' : State × Contexts} {e : ContextEvent}
    (hrun : run contextStep contextStart es = some t)
    (h : Attended control statusOf Free (Abandoned es) t.1) (hC : FailWritten t e)
    (hs : contextStep t e = some t') :
    Attended control statusOf Free (Abandoned (es ++ [e])) t'.1 := by
  obtain ⟨s, expired⟩ := t
  obtain ⟨s', expired'⟩ := t'
  cases e with
  | own p =>
    obtain ⟨rfl, -⟩ := overlayStep_own hs
    exact h.of_kept (fun _ => rfl) (fun _ hl => hl.snoc _)
      fun p q k v hq hc => Or.inl ⟨p, q, v, hq, hc⟩
  | sys e =>
    obtain ⟨hallow, hstep, -⟩ := overlayStep_sys hs
    obtain ⟨hknow, hexcl⟩ := controlled_run hrun
    refine h.step hstep (fun _ hl => hl.snoc _) (fun p ch q st' q' he hq hact => ?_)
      (fun q w a hw => control_resume (Option.join_eq_some_iff.mp hw) a)
      (fun p q k v he hq hc => ?_) (fun x st' inv' hx k => ?_)
    · subst he
      exact act_letsGo hknow hexcl hallow hC hq hact
    · subst he
      exact ⟨es, p, [], s, expired, q, v, rfl, hrun, hq, hc⟩
    · rw [statusOf, statusOf, (outside_cases hx).1]

/-- **No call returns leaving its order in a transient status**, as long as the write of `failed`
after an error of `Reserve` finds its context not expired.  In every run with contexts that
expire at any points, an order that is `reserving`, `paying` or `cancelling` is in the hands of a
call that has not returned, or of one that crashed. -/
theorem no_transient_left {es : List ContextEvent} {s : State} {expired : Contexts}
    (h : run contextStep contextStart es = some (s, expired))
    (hC : Meets FailWritten contextStep contextStart es) {i : Nat} {o : Order}
    (ho : s.store.db.orders.row i = some o)
    (hst : o.status = .reserving ∨ o.status = .paying ∨ o.status = .cancelling) :
    (∃ p q, s.At p q ∧ isOver q = false ∧ control q = some (i, some o.status)) ∨
      Abandoned es i := by
  have hatt : Attended control statusOf Free (Abandoned es) s := by
    refine run_history_of (C := FailWritten)
      (I := fun es t => Attended control statusOf Free (Abandoned es) t.1)
      (fun es t e t' hrun hI hc hs => attended_step hrun hI hc hs) (fun k hk => absurd ?_ hk) hC h
    exact (by decide : Free none)
  have hstatus : statusOf s.store i = some o.status := by rw [statusOf, ho, Option.map_some]
  have hnf : ¬Free (statusOf s.store i) := by
    rw [hstatus]
    rcases hst with h | h | h <;> rw [h] <;> decide
  rcases hatt i hnf with ⟨p, q, v, hq, hc⟩ | hl
  · have hv := ((controlled_run h).2.held p q i v hq hc).symm.trans hstatus
    exact Or.inl ⟨p, q, hq, isOver_of_control hc, hv ▸ hc⟩
  · exact Or.inr hl

end

/-- After an order was placed: `Pay` claims it, its context expires while the inventory service
is silent, and the call gives up. -/
def payExpired : List ContextEvent :=
  ordering.map .sys ++ [.sys (.spawn (.settle ⟨.pay, false, 1, 1, none⟩ .load)),
    .sys (.act 2 (.sql .ok [])), .sys (.act 2 (.sql .ok [])), .sys (.send 2), .own 2,
    .sys (.giveUp 2 (.error (.call [])))]

theorem no_transient_left_paying :
    letI := asciiCi
    ∃ s expired o, run contextStep contextStart payExpired = some (s, expired) ∧ expired 2 = true ∧
      s.store.db.orders.row 1 = some o ∧ o.status = .paying ∧
      ((∃ p q, s.At p q ∧ isOver q = false ∧ control q = some (1, some o.status)) ∨
        Abandoned payExpired 1) := by
  let _ : Collation := asciiCi
  have h : (run contextStep contextStart payExpired).bind (fun t =>
      (t.1.store.db.orders.row 1).map fun o => (t.2 2, o.status)) = some (true, .paying) := by
    decide
  obtain ⟨⟨s, expired⟩, hs, hv⟩ := Option.bind_eq_some_iff.mp h
  obtain ⟨o, ho, hv⟩ := Option.map_eq_some_iff.mp hv
  obtain ⟨hexp, hst⟩ := Prod.mk.inj hv
  have hC : Meets FailWritten contextStep contextStart payExpired := by decide
  exact ⟨s, expired, o, hs, hexp, ho, hst, no_transient_left hs hC ho (Or.inr (Or.inl hst))⟩

/-- `Create` has inserted its order when its context expires.  Its request to the inventory
service gets lost, the call gives up, and the database rejects the write of `failed`. -/
def createExpired : List ContextEvent :=
  [.sys (.env (.init 1 10)), .sys (.spawn (.create ⟨30, 1, [0x6b], [⟨1, 3⟩]⟩ .lookup)),
    .sys (.act 1 (.sql .ok [])), .sys (.act 1 (.resolve shelf [0x75])),
    .sys (.act 1 (.sql .ok [])), .sys (.send 1), .own 1, .sys (.dropRequest 0),
    .sys (.giveUp 1 (.error (.call []))), .sys (.act 1 (.sql (.failed []) []))]

/-- **`Create` can return and leave its order `reserving`**: no call is in progress, nothing is
in flight, and no call has crashed. -/
theorem reserving_left :
    letI := asciiCi
    ∃ s expired o, run contextStep contextStart createExpired = some (s, expired) ∧ AtRest s ∧
      s.store.db.orders.row 1 = some o ∧ o.status = .reserving := by
  let _ : Collation := asciiCi
  have h : (run contextStep contextStart createExpired).bind (fun t =>
      (t.1.store.db.orders.row 1).map fun o => (((t.1.procs.search fun q => !isOver q).isNone &&
        t.1.requests.isEmpty && t.1.replies.isEmpty), o.status)) = some (true, .reserving) := by
    decide
  obtain ⟨⟨s, expired⟩, hs, hv⟩ := Option.bind_eq_some_iff.mp h
  obtain ⟨o, ho, hv⟩ := Option.map_eq_some_iff.mp hv
  obtain ⟨hrest, hst⟩ := Prod.mk.inj hv
  exact ⟨s, expired, o, hs, atRest_of_search hrest, ho, hst⟩

end OrderSystem.Saga
