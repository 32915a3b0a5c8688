/-
# How timeout messages move

A timeout goes from the outbox row of its order through the hands of a publisher into the delay
queue, expires into the cancel queue, is delivered, and the delivery asks `TimeoutCancel` and
waits for its answer.  This file says where each of these things comes from, one step back.

* `publisher_events` -- a row in hand was in hand before, or has just been claimed.
* `marking_arrives`, `publishing_kept` -- a publisher is at a message until it has the outcome, and
  marks the row as published only after an outcome without error.
* `delivery_arrives` -- a delivery is of a message in the cancel queue, and it completes the row
  only after an answer without error; `ack_arrives` -- it acknowledges only after that.
* `queue_step`, `brokered_step` -- queued messages and answers.
-/
import OrderSystem.Saga.Programs

namespace OrderSystem.Saga

open OrderSystem.Kit
open OrderSystem.OrderSvc

section

variable [Collation]

/-! ## 1. The publisher -/

/-- The outbox rows a publisher still has in hand. -/
def publishEvents : PublishPc → List ClaimedEvent
  | .idle => []
  | .claim => []
  | .publish event rest => event :: rest
  | .markPublished event rest => event :: rest
  | .markFailure event _ rest => event :: rest
  | .releaseLeases rest => rest

omit [Collation] in
theorem publishEvents_next (rest : List ClaimedEvent) :
    publishEvents (PublishPc.next rest) = rest := by
  cases rest <;> rfl

variable {cfg : WorkerConfig} {pc : PublishPc} {q : Proc} {stmt : Stmt} {s s' : State} {e : Event}
  {p : Nat} {event : ClaimedEvent} {d : Delivery}

omit [Collation] in
theorem publisher_of_after {r : Except Err Res} (h : Proc.publisher cfg pc = q.after r) :
    ∃ pc₀, q = .publisher cfg pc₀ ∧ pc = pc₀.after r := by
  cases q with
  | publisher cfg' pc₀ =>
    obtain ⟨rfl, rfl⟩ := Proc.publisher.inj h
    exact ⟨pc₀, rfl, rfl⟩
  | _ => exact absurd h (by simp [Proc.after])

omit [Collation] in
/-- A publisher does not wait for the inventory service. -/
theorem publisher_not_resumed {op : Option InventoryOp} (hop : q.request = some op) (a : Reply) :
    Proc.publisher cfg pc ≠ q.resume a := by
  cases q with
  | publisher cfg' pc₀ => exact absurd hop (by simp [Proc.request])
  | _ => simp [Proc.resume]

omit [Collation] in
/-- A statement leaves a publisher with a part of its batch, except the one that claims it. -/
theorem publishEvents_after (hstmt : pc.stmt cfg = some stmt) (r : Except Err Res) :
    publishEvents (pc.after r) <:+ publishEvents pc ∨
      (pc = .claim ∧ r = .ok (.events (publishEvents (pc.after r))) ∧
        stmt = .claimPending cfg.workerID cfg.leaseDuration cfg.batchSize) := by
  cases pc with
  | claim =>
    match r with
    | .ok (.events events) =>
      exact Or.inr ⟨rfl, by rw [PublishPc.after, publishEvents_next],
        (Option.some.inj hstmt).symm⟩
    | .ok (.tasks _) | .ok .done | .ok (.inserted _) | .ok (.order _ _) | .error _ =>
      exact Or.inl List.suffix_rfl
  | markPublished event' rest =>
    cases r with
    | ok r =>
      rw [PublishPc.after, publishEvents_next]
      exact Or.inl (List.suffix_cons event' rest)
    | error e => exact Or.inl (List.nil_suffix)
  | markFailure event' cause rest =>
    cases r with
    | ok r =>
      simp only [PublishPc.after]
      split
      · exact Or.inl List.nil_suffix
      · exact Or.inl (List.suffix_cons event' rest)
    | error e => exact Or.inl List.nil_suffix
  | releaseLeases rest => exact Or.inl List.nil_suffix
  | _ => exact absurd hstmt (by simp [PublishPc.stmt])

/-- A batch is what is left of the batch before, or has just been claimed. -/
theorem publisher_batch (hs : step s e = some s') (h : s'.At p (.publisher cfg pc)) :
    publishEvents pc = [] ∨
      (∃ pc₀, s.At p (.publisher cfg pc₀) ∧ publishEvents pc <:+ publishEvents pc₀) ∨
      (s.At p (.publisher cfg .claim) ∧ Committed s e s' p
        (.claimPending cfg.workerID cfg.leaseDuration cfg.batchSize)
        (.events (publishEvents pc))) := by
  generalize hq' : Proc.publisher cfg pc = q' at h
  cases arrives hs h with
  | kept q hq => exact Or.inr (Or.inl ⟨pc, hq' ▸ hq, List.suffix_rfl⟩)
  | spawned q he hp hadm =>
    subst hq'
    cases pc with
    | idle => exact Or.inl rfl
    | _ => exact absurd hadm (by simp [mayStart])
  | committed q stmt r hq hstmt hok =>
    obtain ⟨pc₀, rfl, rfl⟩ := publisher_of_after hq'
    rcases publishEvents_after hstmt (.ok r) with hsuf | ⟨rfl, hr, rfl⟩
    · exact Or.inr (Or.inl ⟨pc₀, hq, hsuf⟩)
    · exact Or.inr (Or.inr ⟨hq, Except.ok.inj hr ▸ hok⟩)
  | failed q stmt err hq hstmt herr =>
    obtain ⟨pc₀, rfl, rfl⟩ := publisher_of_after hq'
    rcases publishEvents_after hstmt (.error err) with hsuf | ⟨-, hr, -⟩
    · exact Or.inr (Or.inl ⟨pc₀, hq, hsuf⟩)
    · exact absurd hr (by simp)
  | quiet q q' ch he hq hquiet hstill =>
    revert hq hq'
    generalize s'.store = st' at hquiet
    cases hquiet with
    | pollPublisher cfg' =>
      intro hq' hq
      obtain ⟨rfl, rfl⟩ := Proc.publisher.inj hq'
      exact Or.inl rfl
    | publish cfg' event' rest o =>
      intro hq' hq
      obtain ⟨rfl, rfl⟩ := Proc.publisher.inj hq'
      refine Or.inr (Or.inl ⟨_, hq, ?_⟩)
      unfold PublishPc.published
      split
      · exact List.suffix_rfl
      · exact List.suffix_rfl
    | _ => exact fun hq' => absurd hq' (by simp)
  | answered q op r hq hop ha hstill => exact absurd hq' (publisher_not_resumed hop _)
  | refused q op err hq hop herr hstill => exact absurd hq' (publisher_not_resumed hop _)

/-- A publisher has a row in hand because it had it before, or because it has just claimed it. -/
theorem publisher_events (hs : step s e = some s') (h : s'.At p (.publisher cfg pc))
    (hev : event ∈ publishEvents pc) :
    (∃ pc₀, s.At p (.publisher cfg pc₀) ∧ event ∈ publishEvents pc₀) ∨
      ∃ events, event ∈ events ∧ s.At p (.publisher cfg .claim) ∧ Committed s e s' p
        (.claimPending cfg.workerID cfg.leaseDuration cfg.batchSize) (.events events) := by
  rcases publisher_batch hs h with hnil | ⟨pc₀, hq, hsuf⟩ | ⟨hq, hok⟩
  · rw [hnil] at hev
    exact absurd hev (by simp)
  · exact Or.inl ⟨pc₀, hq, hsuf.mem hev⟩
  · exact Or.inr ⟨_, hev, hq, hok⟩

omit [Collation] in
/-- No statement leads to `markOutboxPublished`. -/
theorem publisher_after (hstmt : pc.stmt cfg = some stmt) (r : Except Err Res)
    (event : ClaimedEvent) (rest : List ClaimedEvent) : pc.after r ≠ .markPublished event rest := by
  have hnext : ∀ events, PublishPc.next events ≠ .markPublished event rest := by
    intro events
    cases events <;> simp [PublishPc.next]
  cases pc with
  | claim =>
    match r with
    | .ok (.events events) => exact hnext events
    | .ok (.tasks _) | .ok .done | .ok (.inserted _) | .ok (.order _ _) | .error _ =>
      simp [PublishPc.after]
  | markPublished event' rest' =>
    cases r with
    | ok r => exact hnext rest'
    | error err => simp [PublishPc.after]
  | markFailure event' cause rest' =>
    cases r with
    | ok r =>
      simp only [PublishPc.after]
      split <;> simp
    | error err => simp [PublishPc.after]
  | releaseLeases rest' => simp [PublishPc.after]
  | _ => exact absurd hstmt (by simp [PublishPc.stmt])

/-- A publisher is about to mark a row as published only after a publish without error. -/
theorem marking_arrives (hs : step s e = some s') {rest : List ClaimedEvent}
    (h : s'.At p (.publisher cfg (.markPublished event rest))) :
    s.At p (.publisher cfg (.markPublished event rest)) ∨ ∃ o, e = .act p (.publish o) ∧
      o.error = none ∧ s.At p (.publisher cfg (.publish event rest)) := by
  generalize hq' : Proc.publisher cfg (.markPublished event rest) = q' at h
  cases arrives hs h with
  | kept q hq => exact Or.inl (hq' ▸ hq)
  | spawned q he hp hadm =>
    subst hq'
    exact absurd hadm (by simp [mayStart])
  | committed q stmt r hq hstmt hok | failed q stmt err hq hstmt herr =>
    obtain ⟨pc₀, rfl, hpc⟩ := publisher_of_after hq'
    exact absurd hpc.symm (publisher_after hstmt _ event rest)
  | quiet q q' ch he hq hquiet hstill =>
    revert hq hq'
    generalize s'.store = st' at hquiet
    cases hquiet with
    | publish cfg' event' rest' o =>
      intro hq' hq
      obtain ⟨rfl, hpc⟩ := Proc.publisher.inj hq'
      unfold PublishPc.published at hpc
      split at hpc
      · rename_i ho
        obtain ⟨rfl, rfl⟩ := PublishPc.markPublished.inj hpc
        exact Or.inr ⟨o, he, ho, hq⟩
      · exact absurd hpc (by simp)
    | _ => exact fun hq' => absurd hq' (by simp)
  | answered q op r hq hop ha hstill => exact absurd hq' (publisher_not_resumed hop _)
  | refused q op err hq hop herr hstill => exact absurd hq' (publisher_not_resumed hop _)

/-- A publisher that publishes is at it until the outcome is there, or it crashes. -/
theorem publishing_kept (hs : step s e = some s') {rest : List ClaimedEvent}
    (hq : s.At p (.publisher cfg (.publish event rest))) (hcrash : e ≠ .crash p)
    (hpub : ∀ o, e ≠ .act p (.publish o)) : s'.At p (.publisher cfg (.publish event rest)) := by
  by_cases he : e.subject = some p
  · cases rpcMove_of_step hs with
    | act p' ch q q' st' hq' hact =>
      obtain rfl := Option.some.inj he
      obtain rfl := Option.some.inj (hq'.symm.trans hq)
      have hact' : act s.store (.publisher cfg (.publish event rest)) ch = some (st', q') := hact
      rcases act_cases hact' with ⟨o, locked, stmt, -, hstmt, -⟩ | ⟨-, hreq, -⟩ | hquiet
      · exact absurd hstmt (by simp [Proc.stmt, PublishPc.stmt])
      · exact absurd hreq (by simp [Proc.request])
      · cases hquiet with
        | publish _ _ _ o => exact absurd rfl (hpub o)
    | receive p' i q w a hq' hw ha | giveUp p' a q w hq' hw ha =>
      obtain rfl := Option.some.inj he
      obtain rfl := Option.some.inj (hq'.symm.trans hq)
      exact absurd hw (by simp [component, Proc.request])
    | crash p' q hq' =>
      obtain rfl := Option.some.inj he
      exact absurd rfl hcrash
    | _ => exact absurd he (by simp [RpcEvent.subject])
  · exact at_of_subject_ne hs hq he

/-! ## 2. Deliveries -/

/-- How a delivery came to be in a state. -/
inductive DeliveryArrives (s : State) (p : Nat) (d : Delivery) : DeliveryPc → Prop
  | kept (pc : DeliveryPc) (hq : s.At p (.delivery d pc)) : DeliveryArrives s p d pc
  | started (h : d.orderID ∈ s.store.cancelQueue) : DeliveryArrives s p d .call
  /-- `TimeoutCancel` answered without error -/
  | resolved (hq : s.At p (.delivery d .call)) (h : (d.tag, d.orderID, none) ∈ s.store.answers) :
      DeliveryArrives s p d .complete
  | moved (pc₀ pc : DeliveryPc) (hq : s.At p (.delivery d pc₀)) (hpc : pc ≠ .complete) :
      DeliveryArrives s p d pc

omit [Collation] in
theorem delivery_of_after {pc : DeliveryPc} {r : Except Err Res}
    (h : Proc.delivery d pc = q.after r) : ∃ pc₀, q = .delivery d pc₀ ∧ pc = pc₀.after r := by
  cases q with
  | delivery d' pc₀ =>
    obtain ⟨rfl, rfl⟩ := Proc.delivery.inj h
    exact ⟨pc₀, rfl, rfl⟩
  | _ => exact absurd h (by simp [Proc.after])

omit [Collation] in
theorem delivery_not_resumed {pc : DeliveryPc} {op : Option InventoryOp} (hop : q.request = some op)
    (a : Reply) :
    Proc.delivery d pc ≠ q.resume a := by
  cases q with
  | delivery d' pc₀ => exact absurd hop (by simp [Proc.request])
  | _ => simp [Proc.resume]

omit [Collation] in
theorem delivery_after {pc : DeliveryPc} (hstmt : pc.stmt d = some stmt) (r : Except Err Res) :
    pc.after r ≠ .complete := by
  cases pc with
  | recordFailure cause => simp [DeliveryPc.after]
  | complete => cases r <;> simp [DeliveryPc.after]
  | _ => exact absurd hstmt (by simp [DeliveryPc.stmt])

/-- **How a delivery moves.** -/
theorem delivery_arrives (hs : step s e = some s') {pc : DeliveryPc} (h : s'.At p (.delivery d pc))
    :
    DeliveryArrives s p d pc := by
  generalize hq' : Proc.delivery d pc = q' at h
  cases arrives hs h with
  | kept q hq => exact .kept pc (hq' ▸ hq)
  | spawned q he hp hadm =>
    subst hq'
    cases pc with
    | call =>
      simp only [mayStart, Bool.and_eq_true, decide_eq_true_eq] at hadm
      exact .started hadm.2
    | _ => exact absurd hadm (by simp [mayStart])
  | committed q stmt r hq hstmt hok | failed q stmt err hq hstmt herr =>
    obtain ⟨pc₀, rfl, rfl⟩ := delivery_of_after hq'
    exact .moved pc₀ _ hq (delivery_after hstmt _)
  | quiet q q' ch he hq hquiet hstill =>
    revert hq hq'
    generalize s'.store = st' at hquiet
    cases hquiet with
    | answered i d' r hr =>
      intro hq' hq
      obtain ⟨rfl, rfl⟩ := Proc.delivery.inj hq'
      cases r with
      | none => exact .resolved hq hr
      | some err => exact .moved _ _ hq (by simp)
    | timeout d' message | ack d' lost =>
      intro hq' hq
      obtain ⟨rfl, rfl⟩ := Proc.delivery.inj hq'
      exact .moved _ _ hq (by simp)
    | _ => exact fun hq' => absurd hq' (by simp)
  | answered q op r hq hop ha hstill => exact absurd hq' (delivery_not_resumed hop _)
  | refused q op err hq hop herr hstill => exact absurd hq' (delivery_not_resumed hop _)

/-- A delivery is about to be acknowledged only after its row was completed. -/
theorem ack_arrives (hs : step s e = some s') (h : s'.At p (.delivery d .ack)) :
    s.At p (.delivery d .ack) ∨
      ∃ r, s.At p (.delivery d .complete) ∧ Committed s e s' p (.completeOutbox d.orderID) r := by
  generalize hq' : Proc.delivery d .ack = q' at h
  cases arrives hs h with
  | kept q hq => exact Or.inl (hq' ▸ hq)
  | spawned q he hp hadm =>
    subst hq'
    exact absurd hadm (by simp [mayStart])
  | committed q stmt r hq hstmt hok =>
    obtain ⟨pc₀, rfl, hpc⟩ := delivery_of_after hq'
    cases pc₀ with
    | complete =>
      obtain rfl := Option.some.inj hstmt
      exact Or.inr ⟨r, hq, hok⟩
    | recordFailure cause => exact absurd hpc (by simp [DeliveryPc.after])
    | _ => exact absurd hstmt (by simp [Proc.stmt, DeliveryPc.stmt])
  | failed q stmt err hq hstmt herr =>
    obtain ⟨pc₀, rfl, hpc⟩ := delivery_of_after hq'
    cases pc₀ with
    | complete => exact absurd hpc (by simp [DeliveryPc.after])
    | recordFailure cause => exact absurd hpc (by simp [DeliveryPc.after])
    | _ => exact absurd hstmt (by simp [Proc.stmt, DeliveryPc.stmt])
  | quiet q q' ch he hq hquiet hstill =>
    revert hq hq'
    generalize s'.store = st' at hquiet
    cases hquiet with
    | answered i d' r hr => cases r <;> exact fun hq' => absurd hq' (by simp)
    | _ => exact fun hq' => absurd hq' (by simp)
  | answered q op r hq hop ha hstill => exact absurd hq' (delivery_not_resumed hop _)
  | refused q op err hq hop herr hstill => exact absurd hq' (delivery_not_resumed hop _)

/-! ## 3. The broker -/

/-- What a step does to the two queues. -/
inductive QueueStep (s : State) (e : Event) (s' : State) : Prop
  | same (hd : s'.store.delayQueue = s.store.delayQueue)
      (hc : s'.store.cancelQueue = s.store.cancelQueue)
  | stored (p : Nat) (cfg : WorkerConfig) (event : ClaimedEvent) (rest : List ClaimedEvent)
      (o : PublishOutcome) (he : e = .act p (.publish o)) (ho : o.stored = true)
      (hq : s.At p (.publisher cfg (.publish event rest)))
      (hd : s'.store.delayQueue = s.store.delayQueue ++ [event.2.orderID])
      (hc : s'.store.cancelQueue = s.store.cancelQueue)
  | expired (i orderID : Nat) (hi : s.store.delayQueue[i]? = some orderID)
      (hd : s'.store.delayQueue = s.store.delayQueue.eraseIdx i)
      (hc : s'.store.cancelQueue = s.store.cancelQueue ++ [orderID])
  | acked (p : Nat) (d : Delivery) (hq : s.At p (.delivery d .ack))
      (hd : s'.store.delayQueue = s.store.delayQueue)
      (hc : s'.store.cancelQueue = s.store.cancelQueue.erase d.orderID)

omit [Collation] in
theorem queue_quiet {ch : Choice} {q' : Proc} {st' : Local} (hst : s'.store = st') (hq : s.At p q)
    (h : Quiet s.store ch q st' q') :
    QueueStep s (.act p ch) s' := by
  cases h with
  | publish cfg event rest o =>
    unfold Local.publishedTo at hst
    split at hst
    · rename_i ho
      exact .stored p cfg event rest o rfl ho hq (by rw [hst]) (by rw [hst])
    · exact .same (by rw [hst]) (by rw [hst])
  | ack d lost =>
    split at hst
    · exact .same (by rw [hst]) (by rw [hst])
    · exact .acked p d hq (by rw [hst]; rfl) (by rw [hst]; rfl)
  | _ => exact .same (by rw [hst]) (by rw [hst])

omit [Collation] in
theorem queue_outside {x : Outside} {inv' : InventorySvc.DB}
    (h : outside s.store s.remote x = some (s'.store, inv')) : QueueStep s (.env x) s' := by
  cases x with
  | tick n =>
    obtain ⟨hst, -⟩ := Prod.mk.inj (Option.some.inj h)
    exact .same (by rw [← hst]) (by rw [← hst])
  | expire i =>
    simp only [outside] at h
    split at h
    · exact absurd h (by simp)
    · rename_i orderID hi
      obtain ⟨hst, -⟩ := Prod.mk.inj (Option.some.inj h)
      exact .expired i orderID hi (by rw [← hst]) (by rw [← hst])
  | init productID quantity | add productID quantity =>
    simp only [outside] at h
    split at h
    · exact absurd h (by simp)
    · obtain ⟨hst, -⟩ := Prod.mk.inj (Option.some.inj h)
      exact .same (by rw [← hst]) (by rw [← hst])

/-- **What a step does to the queues.** -/
theorem queue_step (hs : step s e = some s') : QueueStep s e s' := by
  cases rpcMove_of_step hs with
  | act p ch q q' st' hq hact =>
    rcases act_cases hact with ⟨o, locked, stmt, -, -, rfl, -⟩ | ⟨-, -, rfl, -⟩ | hquiet
    · exact .same rfl rfl
    · exact .same rfl rfl
    · exact queue_quiet rfl hq hquiet
  | env x st' inv' hx => exact queue_outside hx
  | _ => exact .same rfl rfl

/-- Where an answer of `TimeoutCancel` comes from. -/
theorem answer_origin (hs : step s e = some s') {a : Nat × Nat × Option Err}
    (ha : a ∈ s'.store.answers) :
    a ∈ s.store.answers ∨ ∃ p c tag r, s.At p (.settle c (.returned r)) ∧
      c.origin = some tag ∧ a = (tag, c.orderID, timeoutResult r) := by
  cases rpcMove_of_step hs with
  | act p ch q q' st' hq hact =>
    rcases act_cases hact with ⟨o, locked, stmt, -, -, rfl, -⟩ | ⟨-, -, rfl, -⟩ | hquiet
    · exact Or.inl ha
    · exact Or.inl ha
    · cases hquiet with
      | respond c tag r hc =>
        rcases List.mem_append.mp ha with ha | ha
        · exact Or.inl ha
        · exact Or.inr ⟨p, c, tag, r, hq, hc, List.mem_singleton.mp ha⟩
      | publish cfg event rest o =>
        simp only [Local.publishedTo] at ha
        split at ha <;> exact Or.inl ha
      | ack d lost => cases lost <;> exact Or.inl ha
      | _ => exact Or.inl ha
  | env x st' inv' hx =>
    have hx' : outside s.store s.remote x = some (st', inv') := hx
    cases x with
    | tick n =>
      obtain ⟨rfl, -⟩ := Prod.mk.inj (Option.some.inj hx')
      exact Or.inl ha
    | _ =>
      simp only [outside] at hx'
      split at hx'
      · exact absurd hx' (by simp)
      · obtain ⟨rfl, -⟩ := Prod.mk.inj (Option.some.inj hx')
        exact Or.inl ha
  | _ => exact Or.inl ha

/-- Where messages and the answers of `TimeoutCancel` come from. -/
structure Brokered (s s' : State) : Prop where
  delayed : ∀ i ∈ s'.store.delayQueue, i ∈ s.store.delayQueue ∨ ∃ p cfg event rest,
    s.At p (.publisher cfg (.publish event rest)) ∧ event.2.orderID = i
  expired : ∀ i ∈ s'.store.cancelQueue, i ∈ s.store.cancelQueue ∨ i ∈ s.store.delayQueue
  answers : ∀ a ∈ s'.store.answers, a ∈ s.store.answers ∨ ∃ p c tag r,
    s.At p (.settle c (.returned r)) ∧ c.origin = some tag ∧ a = (tag, c.orderID, timeoutResult r)

/-- **How messages move.** -/
theorem brokered_step (hs : step s e = some s') : Brokered s s' where
  delayed i hi := by
    cases queue_step hs with
    | same hd hc => exact Or.inl (hd ▸ hi)
    | stored p cfg event rest o he ho hq hd hc =>
      rw [hd] at hi
      rcases List.mem_append.mp hi with hi | hi
      · exact Or.inl hi
      · exact Or.inr ⟨p, cfg, event, rest, hq, (List.mem_singleton.mp hi).symm⟩
    | expired j orderID hj hd hc =>
      rw [hd] at hi
      exact Or.inl (List.mem_of_mem_eraseIdx hi)
    | acked p d hq hd hc => exact Or.inl (hd ▸ hi)
  expired i hi := by
    cases queue_step hs with
    | same hd hc => exact Or.inl (hc ▸ hi)
    | stored p cfg event rest o he ho hq hd hc => exact Or.inl (hc ▸ hi)
    | expired j orderID hj hd hc =>
      rw [hc] at hi
      rcases List.mem_append.mp hi with hi | hi
      · exact Or.inl hi
      · exact Or.inr (List.mem_singleton.mp hi ▸ List.mem_of_getElem? hj)
    | acked p d hq hd hc =>
      rw [hc] at hi
      exact Or.inl (List.mem_of_mem_erase hi)
  answers _ ha := answer_origin hs ha

end

end OrderSystem.Saga
