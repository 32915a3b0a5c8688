/-
# No order is left without its timeout

An order of the monolith that is not paid is to be cancelled when its time is over.  Between the
commit that creates it and that cancellation the order is in the hands of the outbox, of a
publisher, of the broker and of a consumer, each of which may fail at any point.

`Backed` is the account of the messages: of each there are as many in the queues as the broker has
stored and not lost, unless the order of the message has left `pending`.  Only an acknowledgement
takes a message of a worker out of the queues, and a consumer acknowledges only when its
`CancelExpiredOrder` has committed.  That transaction works on what it saw when it started; it
saw the row of the order, since a message is made from a row that was committed (`Consuming`).

`CancelExpiredOrder` is also what makes early and forged messages harmless: it compares the
deadline of the row with the clock (`timeout_not_early`).
-/
import OrderSystem.Monolith.TimeoutWorker

namespace OrderSystem.Monolith

open OrderSystem.Kit

/-! ## 1. What the monolith does to the outbox -/

/-- An order and its timeout row are there together. -/
def Paired (s : DB) : Prop := ∀ id, (s.order id).isSome ↔ (s.outboxOf id).isSome

theorem Paired.status {s : DB} (h : Paired s) {id : Int} {row : OrderTimeoutOutbox}
    (hrow : s.outboxOf id = some row) : s.status id ≠ none := by
  have hsome : (s.order id).isSome := (h id).mpr (by rw [hrow]; rfl)
  rw [DB.status]
  intro hnone
  rw [Option.map_eq_none_iff.mp hnone] at hsome
  cases hsome

section

variable [Collation]

theorem timeoutOf_eq_some {s : DB} {eventID : GoString} {id : Int} {row : OrderTimeoutOutbox} :
    s.timeoutOf eventID id = some row ↔
      s.outboxOf id = some row ∧ Collation.weight row.eventID = Collation.weight eventID := by
  rw [DB.timeoutOf, Option.filter_eq_some_iff, decide_eq_true_iff]

/-- What a step of the monolith does to orders and timeouts; `new` is the event id of a row that
it may insert. -/
structure Files (new : Option GoString) (s s' : DB) : Prop where
  forward : Forward s s'
  kept : ∀ id row, s.outboxOf id = some row → s'.outboxOf id = some row
  added : ∀ id row, s'.outboxOf id = some row →
    s.outboxOf id = some row ∨ (s.outboxOf id = none ∧ new = some (Collation.weight row.eventID))
  single : ∀ id id', s.outboxOf id = none → s.outboxOf id' = none → (s'.outboxOf id).isSome →
    (s'.outboxOf id').isSome → id = id'
  paired : Paired s → Paired s'

theorem files_refl (new : Option GoString) (s : DB) : Files new s s where
  forward := .refl s
  kept _ _ h := h
  added _ _ h := Or.inl h
  single _ _ h _ hsome _ := absurd hsome (by simp [h])
  paired h := h

/-- No row is inserted. -/
theorem files_of_outboxes {new : Option GoString} {s s' : DB} (hf : Forward s s')
    (ho : s'.outboxOf = s.outboxOf) (howners : s'.ownerOf = s.ownerOf) : Files new s s' where
  forward := hf
  kept id row h := by rw [ho]; exact h
  added id row h := Or.inl (by rw [← ho]; exact h)
  single id id' h _ hsome _ := absurd hsome (by simp [ho, h])
  paired hp id := by rw [← isSome_ownerOf, howners, isSome_ownerOf, ho]; exact hp id

variable [Digest]

theorem files_of_placed {env : CreateContext} {u : Int} {req : CreateOrderRequest} {s s' : DB}
    {row : Order} {items : List OrderItem} {logs : List StockLog} (hf : Forward s s')
    (hp : Placed env u req s s' row items logs) :
    Files (some (Collation.weight env.eventID)) s s' where
  forward := hf
  kept id r h := by
    have hne : id ≠ env.orderID := by
      rintro rfl
      exact absurd (hp.fresh_outbox.symm.trans h) (by simp)
    rw [hp.outboxes, Function.update_of_ne hne]
    exact h
  added id r h := by
    rw [hp.outboxes, Function.update_apply] at h
    split at h
    · rename_i hid
      obtain rfl := Option.some.inj h
      exact Or.inr ⟨hid ▸ hp.fresh_outbox, rfl⟩
    · exact Or.inl h
  single id id' hid hid' hsome hsome' := by
    have hnew : ∀ i, s.outboxOf i = none → (s'.outboxOf i).isSome → i = env.orderID := by
      intro i hi hi'
      by_contra hne
      rw [hp.outboxes, Function.update_of_ne hne, hi] at hi'
      cases hi'
    rw [hnew id hid hsome, hnew id' hid' hsome']
  paired hpaired id := by
    rw [hp.orders, hp.outboxes, Function.update_apply, Function.update_apply]
    split
    · simp
    · exact hpaired id

/-- The event id that a request brings in. -/
def Request.newID : Request → Option GoString
  | .createOrder env _ _ => some (Collation.weight env.eventID)
  | _ => none

theorem files_of_exec {snapshot s s' : DB} {req : Request} {a : Answer}
    (h : (req.prog snapshot).exec s = .ok (a, s')) : Files req.newID s s' := by
  have hf := (prog_turn h).forward
  have he := prog_effect h
  cases hc : creation (req, a) with
  | none =>
    have hnone := he.noneMade hc
    exact files_of_outboxes hf hnone.outboxes hnone.owners
  | some c =>
    cases he with
    | placed hacc hp => exact files_of_placed hf hp
    | supplied | existing | patched | cancelled | kept => exact absurd hc (by simp [creation])

end

/-! ## 2. Messages -/

section

variable [EventJson]

/-- The message of a row. -/
def Own (s : DB) (body : GoString) : Prop :=
  ∃ id row, s.outboxOf id = some row ∧ encodeEvent (timeoutEvent id row) = .ok body

variable {body : GoString} {seen seen' : List GoString}

theorem Own.grow {s s' : DB}
    (hkept : ∀ id row, s.outboxOf id = some row → s'.outboxOf id = some row) (h : Own s body) :
    Own s' body := by
  obtain ⟨id, row, hrow, hbody⟩ := h
  exact ⟨id, row, hkept id row hrow, hbody⟩

theorem Own.decode {s : DB} (h : Own s body) :
    ∃ id row, s.outboxOf id = some row ∧ decodeEvent body = .ok (timeoutEvent id row) := by
  obtain ⟨id, row, hrow, hbody⟩ := h
  exact ⟨id, row, hrow, decodeEvent_of_encodeEvent hbody⟩

variable [Collation]

/-- The event id of the message is in use. -/
def Known (seen : List GoString) (body : GoString) : Prop :=
  ∀ id, TimeoutSystem.messageID body = some id → id ∈ seen

/-- The order of the message has left `pending`, or there is none. -/
def Over (seen : List GoString) (s : DB) (body : GoString) : Prop :=
  ∃ e, decodeEvent body = .ok e ∧ Collation.weight e.eventID ∈ seen ∧
    ∀ row, s.timeoutOf e.eventID e.orderID = some row → s.status e.orderID ≠ some .pending

/-- The rows of the outbox and their event ids. -/
structure Booked (seen : List GoString) (s : DB) : Prop where
  paired : Paired s
  seen : ∀ id row, s.outboxOf id = some row → Collation.weight row.eventID ∈ seen
  apart : ∀ id id' row row', s.outboxOf id = some row → s.outboxOf id' = some row' →
    Collation.weight row.eventID = Collation.weight row'.eventID → id = id'

theorem Own.known {s : DB} (hb : Booked seen s) (h : Own s body) : Known seen body := by
  obtain ⟨id, row, hrow, hdecode⟩ := h.decode
  intro i hi
  rw [TimeoutSystem.messageID, hdecode] at hi
  rw [← Option.some.inj hi]
  exact hb.seen id row hrow

omit [EventJson] in
/-- A step brings in rows whose event ids were not in use. -/
theorem Booked.files {s s' : DB} {new : Option GoString} (h : Booked seen s) (hf : Files new s s')
    (hnew : ∀ id ∈ new, id ∉ seen) :
    Booked (new.toList ++ seen) s' where
  paired := hf.paired h.paired
  seen id row hrow := by
    rcases hf.added id row hrow with hold | ⟨-, hid⟩
    · exact List.mem_append_right _ (h.seen id row hold)
    · exact List.mem_append_left _ (by rw [hid]; exact List.mem_singleton.mpr rfl)
  apart id id' row row' hrow hrow' hw := by
    rcases hf.added id row hrow with hold | ⟨hnone, hid⟩
    · rcases hf.added id' row' hrow' with hold' | ⟨hnone', hid'⟩
      · exact h.apart id id' row row' hold hold' hw
      · exact absurd (hw ▸ h.seen id row hold) (hnew _ hid')
    · rcases hf.added id' row' hrow' with hold' | ⟨hnone', -⟩
      · exact absurd (hw ▸ h.seen id' row' hold') (hnew _ hid)
      · exact hf.single id id' hnone hnone' (by rw [hrow]; rfl) (by rw [hrow']; rfl)

/-- What is over stays over. -/
theorem Over.files {s s' : DB} {new : Option GoString} (h : Over seen s body) (hp : Paired s)
    (hf : Files new s s') (hnew : ∀ id ∈ new, id ∉ seen) (hseen : ∀ id ∈ seen, id ∈ seen') :
    Over seen' s' body := by
  obtain ⟨e, hdecode, hid, hover⟩ := h
  refine ⟨e, hdecode, hseen _ hid, fun row hrow => ?_⟩
  obtain ⟨hrow, hw⟩ := timeoutOf_eq_some.mp hrow
  rcases hf.added _ row hrow with hold | ⟨-, hadded⟩
  · exact (hf.forward.leads e.orderID).not_pending (hp.status hold)
      (hover row (timeoutOf_eq_some.mpr ⟨hold, hw⟩))
  · exact absurd hid (hnew _ (by rw [hadded, hw]; rfl))

/-! ## 3. The monolith under the workers -/

omit [EventJson] in
theorem newID_of_txn {s : TimeoutSystem} {t : Nat} {a : Active Row StockLog Err Answer Request}
    (h : s.sys.txn t = some a) : s.newID t = a.tag.newID := by
  rw [TimeoutSystem.newID, h, Option.bind_some]
  cases a.tag <;> rfl

variable [Digest]

/-- What holds of the monolith. -/
structure Filing (sys : System) (seen : List GoString) : Prop where
  tracked : Tracked Request.prog sys
  booked : Booked seen sys.store
  since : ∀ t a, sys.txn t = some a → Forward a.snapshot sys.store ∧ Paired a.snapshot ∧
    ∀ id row, DB.outboxOf a.snapshot id = some row → DB.outboxOf sys.store id = some row

/-- The event id that a step of the monolith may bring in. -/
def newOf (s : TimeoutSystem) : LockEvent Request → Option GoString
  | .commit t => s.newID t
  | _ => none

omit [EventJson] in
theorem files_step {s : TimeoutSystem} {e : LockEvent Request} {sys' : System}
    (hT : Tracked Request.prog s.sys) (h : step s.sys e = some sys') :
    Files (newOf s e) s.sys.store sys'.store := by
  cases e with
  | commit t =>
    cases ha : s.sys.txn t with
    | none =>
      simp only [lockStep, ha] at h
      cases h
    | some a =>
      obtain ⟨r, hexec⟩ := exec_of_commit hT ha h
      rw [newOf, newID_of_txn ha]
      exact files_of_exec hexec
  | start t tag | stmt t | abort t =>
    rw [(store_of_step h (by simp)).1]
    exact files_refl _ _

omit [EventJson] in
theorem Filing.step {s : TimeoutSystem} {e : LockEvent Request} {sys' : System}
    (hs : Filing s.sys s.seen) (h : step s.sys e = some sys') (hnew : ∀ id ∈ newOf s e, id ∉ s.seen)
    (hseen : seen' = (newOf s e).toList ++ s.seen) :
    Filing sys' seen' := by
  have hf := files_step hs.tracked h
  refine ⟨tracked_step hs.tracked h, hseen ▸ hs.booked.files hf hnew, fun t b hb => ?_⟩
  rcases active_of_step h hb with ⟨-, hsnap, hstore⟩ | ⟨a, ha, -, hsnap⟩
  · rw [hsnap, hstore]
    exact ⟨.refl _, hs.booked.paired, fun _ _ hrow => hrow⟩
  · obtain ⟨hforward, hpaired, hkept⟩ := hs.since t a ha
    rw [← hsnap]
    exact ⟨hforward.trans hf.forward, hpaired,
      fun id row hrow => hf.kept id row (hkept id row hrow)⟩

omit [EventJson] in
/-- More ids are in use. -/
theorem Filing.mono {sys : System} (h : Filing sys seen) (hseen : ∀ id ∈ seen, id ∈ seen') :
    Filing sys seen' :=
  ⟨h.tracked, ⟨h.booked.paired, fun id row hrow => hseen _ (h.booked.seen id row hrow),
    h.booked.apart⟩, h.since⟩

/-! ## 4. Publishers and the broker -/

/-- The rows in the hands of a publisher. -/
def PublishPc.events : PublishPc → List TimeoutEvent
  | .idle => []
  | .publish event rest => event :: rest
  | .wait event rest => event :: rest
  | .markPublished event rest => event :: rest
  | .markFailed event _ => [event]

omit [EventJson] [Collation] [Digest] in
theorem events_next (rest : List TimeoutEvent) : (PublishPc.next rest).events = rest := by
  cases rest <;> rfl

/-- The event is that of a row. -/
def Listed (s : DB) (e : TimeoutEvent) : Prop :=
  ∃ id row, s.outboxOf id = some row ∧ e = timeoutEvent id row

/-- What holds of the publishers, of the channels and of the rows they have published. -/
structure Publishing (s : DB) (publishers : Nat → PublishPc) (x : Confirms GoString)
    (columns : Int → Columns) : Prop where
  tidy : x.Tidy
  hands : ∀ p, ∀ e ∈ (publishers p).events, Listed s e
  /-- a publisher waits for the message of the row it publishes -/
  waits : ∀ p body, x.waiting p = some body →
    ∃ event rest, publishers p = .wait event rest ∧ encodeEvent event = .ok body
  marks : ∀ p event rest, publishers p = .markPublished event rest →
    ∃ body ∈ x.confirmed, encodeEvent event = .ok body
  sent : ∀ body, x.Mentions body → Own s body
  stored : ∀ body ∈ x.stored, Own s body
  published : ∀ id row, s.outboxOf id = some row → (columns id).publishedAt ≠ none →
    ∃ body ∈ x.confirmed, encodeEvent (timeoutEvent id row) = .ok body

section

omit [Collation] [Digest]

variable {s : DB} {publishers : Nat → PublishPc} {x x' : Confirms GoString}
  {columns : Int → Columns} {p : Nat} {pc : PublishPc} {event : TimeoutEvent}
  {rest : List TimeoutEvent}

/-- The broker does something, or a publisher opens a session. -/
theorem Publishing.keeps (h : Publishing s publishers x columns) (hk : Confirms.Keeps x x')
    (ht : x'.Tidy) (hst : ∀ body ∈ x'.stored, body ∈ x.stored ∨ x.Mentions body) :
    Publishing s publishers x' columns where
  tidy := ht
  hands := h.hands
  waits p body hw := h.waits p body (hk.waiting p body hw)
  marks p event rest hp := by
    obtain ⟨body, hbody, henc⟩ := h.marks p event rest hp
    exact ⟨body, hk.confirmed body hbody, henc⟩
  sent body hm := h.sent body (hk.mentions body hm)
  stored body hbody := by
    rcases hst body hbody with hold | hm
    · exact h.stored body hold
    · exact h.sent body hm
  published id row hrow hpub := by
    obtain ⟨body, hbody, henc⟩ := h.published id row hrow hpub
    exact ⟨body, hk.confirmed body hbody, henc⟩

/-- A publisher goes on, and does not wait for an answer. -/
theorem Publishing.put (h : Publishing s publishers x columns)
    (hev : ∀ e ∈ pc.events, Listed s e) (hw : x.waiting p = none)
    (hm : ∀ event rest, pc = .markPublished event rest →
      ∃ body ∈ x.confirmed, encodeEvent event = .ok body) :
    Publishing s (Function.update publishers p pc) x columns where
  tidy := h.tidy
  hands := (Function.forall_update_iff publishers fun _ pc => ∀ e ∈ pc.events, Listed s e).mpr
    ⟨hev, fun p' _ => h.hands p'⟩
  waits p' body hbody := by
    have hne : p' ≠ p := by
      rintro rfl
      rw [hw] at hbody
      cases hbody
    rw [Function.update_of_ne hne]
    exact h.waits p' body hbody
  marks := (Function.forall_update_iff publishers fun _ pc => ∀ event rest,
    pc = .markPublished event rest → ∃ body ∈ x.confirmed, encodeEvent event = .ok body).mpr
    ⟨hm, fun p' _ => h.marks p'⟩
  sent := h.sent
  stored := h.stored
  published := h.published

/-- A publisher sends the message of its row. -/
theorem Publishing.send {body : GoString} (h : Publishing s publishers x columns)
    (hp : publishers p = .publish event rest) (hbody : encodeEvent event = .ok body)
    (hx : x.send p body = some x') :
    Publishing s (Function.update publishers p (.wait event rest)) x' columns := by
  have hev : ∀ e ∈ event :: rest, Listed s e := fun e he => h.hands p e (by rw [hp]; exact he)
  obtain ⟨hst, hconf⟩ := Confirms.stored_send hx
  have hown : Own s body := by
    obtain ⟨id, row, hrow, rfl⟩ := hev event List.mem_cons_self
    exact ⟨id, row, hrow, hbody⟩
  refine ⟨h.tidy.send hx, ?_, fun p' b hb => ?_, ?_, fun b hb => ?_, ?_, ?_⟩
  · exact (Function.forall_update_iff publishers fun _ pc => ∀ e ∈ pc.events, Listed s e).mpr
      ⟨hev, fun p' _ => h.hands p'⟩
  · rcases Confirms.waiting_send hx hb with hold | ⟨rfl, rfl⟩
    · have hne : p' ≠ p := by
        rintro rfl
        obtain ⟨ev, r, hwait, -⟩ := h.waits p' b hold
        rw [hp] at hwait
        cases hwait
      rw [Function.update_of_ne hne]
      exact h.waits p' b hold
    · exact ⟨event, rest, Function.update_self _ _ _, hbody⟩
  · rw [hconf]
    exact (Function.forall_update_iff publishers fun _ pc => ∀ event rest,
      pc = .markPublished event rest → ∃ body ∈ x.confirmed, encodeEvent event = .ok body).mpr
      ⟨by simp, fun p' _ => h.marks p'⟩
  · rcases Confirms.mentions_send hx hb with hold | rfl
    · exact h.sent b hold
    · exact hown
  · rw [hst]
    exact h.stored
  · rw [hconf]
    exact h.published

/-- A publisher gets a confirmation: it is the one of its message. -/
theorem Publishing.confirmed (h : Publishing s publishers x columns)
    (hp : publishers p = .wait event rest) (hx : x.take p = some (true, x')) :
    ∃ body ∈ x'.confirmed, encodeEvent event = .ok body := by
  obtain ⟨body, hw, hconf⟩ := h.tidy.confirmed_take hx
  obtain ⟨event', rest', hp', henc⟩ := h.waits p body hw
  rw [hp] at hp'
  obtain ⟨rfl, rfl⟩ := PublishPc.wait.inj hp'
  exact ⟨body, (Confirms.keeps_take hx).confirmed body hconf, henc⟩

theorem Publishing.take {ok : Bool} (h : Publishing s publishers x columns)
    (hx : x.take p = some (ok, x')) :
    Publishing s publishers x' columns ∧ x'.waiting p = none := by
  have hst := (Confirms.stored_take hx).1
  refine ⟨h.keeps (Confirms.keeps_take hx) (h.tidy.take hx) fun b hb => Or.inl (hst ▸ hb), ?_⟩
  rw [Confirms.waiting_take hx, Function.update_self]

/-- The session of a publisher ends. -/
theorem Publishing.leave (h : Publishing s publishers x columns)
    (hev : ∀ e ∈ pc.events, Listed s e) (hm : ∀ event rest, pc ≠ .markPublished event rest) :
    Publishing s (Function.update publishers p pc) (x.drop p) columns := by
  have hdrop := h.keeps (Confirms.keeps_drop x p) (h.tidy.drop p) fun b hb => Or.inl hb
  refine hdrop.put hev ?_ fun event rest hpc => absurd hpc (hm event rest)
  simp [Confirms.drop]

/-- The columns of rows change. -/
theorem Publishing.setColumns {columns' : Int → Columns} (h : Publishing s publishers x columns)
    (hpub : ∀ id row, s.outboxOf id = some row → (columns' id).publishedAt ≠ none →
      (columns id).publishedAt ≠ none ∨
        ∃ body ∈ x.confirmed, encodeEvent (timeoutEvent id row) = .ok body) :
    Publishing s publishers x columns' where
  tidy := h.tidy
  hands := h.hands
  waits := h.waits
  marks := h.marks
  sent := h.sent
  stored := h.stored
  published id row hrow hcol := by
    rcases hpub id row hrow hcol with hold | hnew
    · exact h.published id row hrow hold
    · exact hnew

end

omit [Digest] in
/-- A step of the monolith. -/
theorem Publishing.files {s : TimeoutSystem} {new : Option GoString} {store : DB}
    (h : Publishing s.sys.store s.publishers s.channels s.columns)
    (hf : Files new s.sys.store store) :
    Publishing store s.publishers s.channels (s.inserted store) where
  tidy := h.tidy
  hands p e he := by
    obtain ⟨id, row, hrow, rfl⟩ := h.hands p e he
    exact ⟨id, row, hf.kept id row hrow, rfl⟩
  waits := h.waits
  marks := h.marks
  sent body hm := (h.sent body hm).grow hf.kept
  stored body hb := (h.stored body hb).grow hf.kept
  published id row hrow hcol := by
    unfold TimeoutSystem.inserted at hcol
    split at hcol
    · exact absurd rfl hcol
    · rename_i hnot
      rcases hf.added id row hrow with hold | ⟨hnone, -⟩
      · exact h.published id row hold hcol
      · exact absurd ⟨hnone, by rw [hrow]; rfl⟩ hnot

/-! ## 5. Consumers -/

/-- What holds of the consumers and of the messages that were rejected. -/
structure Consuming (sys : System) (seen : List GoString) (consumers : Nat → ConsumePc)
    (failed : List GoString) : Prop where
  /-- the transaction of a consumer saw the timeout row, if there is one -/
  cancelling : ∀ q body e, consumers q = .cancel body e → decodeEvent body = .ok e ∧
    Collation.weight e.eventID ∈ seen ∧
    ∃ a now, sys.txn q = some a ∧ a.tag = .cancelExpiredOrder e.eventID e.orderID now ∧
      ∀ row, DB.timeoutOf sys.store e.eventID e.orderID = some row →
        DB.timeoutOf a.snapshot e.eventID e.orderID = some row
  done : ∀ q body, consumers q = .done body → Over seen sys.store body
  rejecting : ∀ q body, consumers q = .reject body → ∃ err, decodeEvent body = .error err
  failed : ∀ body ∈ failed, ∃ err, decodeEvent body = .error err

variable {seen : List GoString} {body : GoString} {e : LockEvent Request} {q : Nat}
  {cfg : TimeoutConfig}

omit [Digest] in
/-- **When `CancelExpiredOrder` has committed, the order has left `pending`.** -/
theorem over_of_exec {snapshot s s' : DB} {e : TimeoutEvent} {now : Int} {v : Unit}
    (hdecode : decodeEvent body = .ok e) (hseen : Collation.weight e.eventID ∈ seen)
    (hf : Files none s s') (hsince : Forward snapshot s) (hpaired : Paired snapshot)
    (hsaw : ∀ row, s.timeoutOf e.eventID e.orderID = some row →
      snapshot.timeoutOf e.eventID e.orderID = some row)
    (h : (cancelExpiredOrder e.eventID e.orderID now snapshot).exec s = .ok (v, s')) :
    Over seen s' body := by
  refine ⟨e, hdecode, hseen, fun row hrow => ?_⟩
  have hold : s.timeoutOf e.eventID e.orderID = some row := by
    obtain ⟨hrow, hw⟩ := timeoutOf_eq_some.mp hrow
    rcases hf.added _ row hrow with hold | ⟨-, hnew⟩
    · exact timeoutOf_eq_some.mpr ⟨hold, hw⟩
    · cases hnew
  have hsnap := hsaw row hold
  rcases cancelExpiredOrder_turn h with ⟨rfl, hnone | hst | hnot⟩ | ⟨-, u, -, -, hturn⟩
  · rw [hsnap] at hnone
    cases hnone
  · -- it was gone when the transaction started
    have hnone := hpaired.status (timeoutOf_eq_some.mp hsnap).1
    exact (hsince.leads e.orderID).not_pending hnone hst
  · -- it has gone since
    intro hpending
    have hsome : (snapshot.order e.orderID).isSome :=
      (hpaired e.orderID).mpr (by rw [(timeoutOf_eq_some.mp hsnap).1]; rfl)
    rw [← isSome_ownerOf] at hsome
    obtain ⟨u, hu⟩ := Option.isSome_iff_exists.mp hsome
    exact hnot ⟨hpending, by rw [hsince.owners e.orderID u hu, hu]⟩
  · rw [hturn.status, Function.update_self]
    simp

omit [EventJson] [Collation] [Digest] in
/-- A consumer that is at work after a step of the monolith was so before it, and its transaction
has not ended; or that transaction is what has ended. -/
theorem ended_cases {s : TimeoutSystem} {pc : ConsumePc} (h : s.ended e q = pc) :
    (s.consumers q = pc ∧ ∀ body event, pc = .cancel body event → e ≠ .commit q ∧ e ≠ .abort q) ∨
      ∃ body event, s.consumers q = .cancel body event ∧
        ((e = .commit q ∧ pc = .done body) ∨ (e = .abort q ∧ pc = .failed body)) := by
  unfold TimeoutSystem.ended at h
  split at h
  · rename_i body event hc
    cases e with
    | start t tag | stmt t => exact Or.inl ⟨hc.trans h, fun _ _ _ => ⟨by simp, by simp⟩⟩
    | commit t =>
      simp only at h
      split at h
      · rename_i ht
        exact Or.inr ⟨body, event, hc, Or.inl ⟨by rw [ht], h.symm⟩⟩
      · rename_i ht
        exact Or.inl ⟨hc.trans h, fun _ _ _ => ⟨by simpa using ht, by simp⟩⟩
    | abort t =>
      simp only at h
      split at h
      · rename_i ht
        exact Or.inr ⟨body, event, hc, Or.inr ⟨by rw [ht], h.symm⟩⟩
      · rename_i ht
        exact Or.inl ⟨hc.trans h, fun _ _ _ => ⟨by simp, by simpa using ht⟩⟩
  · rename_i hne
    refine Or.inl ⟨h, fun body event hpc => ?_⟩
    exact absurd (h.trans hpc) (hne body event)

/-- The transaction of a consumer goes on. -/
theorem Consuming.cancelling_step {s : TimeoutSystem} {sys' : System} {seen' : List GoString}
    (hs : Filing s.sys s.seen) (hc : Consuming s.sys s.seen s.consumers s.failedQueue)
    (h : step s.sys e = some sys') (hnew : ∀ id ∈ newOf s e, id ∉ s.seen)
    (hseen : ∀ id ∈ s.seen, id ∈ seen') {event : TimeoutEvent}
    (hq : s.consumers q = .cancel body event) (hcommit : e ≠ .commit q) (habort : e ≠ .abort q) :
    decodeEvent body = .ok event ∧ Collation.weight event.eventID ∈ seen' ∧
    ∃ a now, sys'.txn q = some a ∧ a.tag = .cancelExpiredOrder event.eventID event.orderID now ∧
      ∀ row, DB.timeoutOf sys'.store event.eventID event.orderID = some row →
        DB.timeoutOf a.snapshot event.eventID event.orderID = some row := by
  obtain ⟨hdecode, hid, a, now, ha, htag, hsaw⟩ := hc.cancelling q body event hq
  obtain ⟨b, hb, hbtag, hbsnap⟩ := active_kept h ha hcommit habort
  refine ⟨hdecode, hseen _ hid, b, now, hb, hbtag.trans htag, fun row hrow => ?_⟩
  obtain ⟨hrow, hw⟩ := timeoutOf_eq_some.mp hrow
  rcases (files_step hs.tracked h).added _ row hrow with hold | ⟨-, hadded⟩
  · rw [hbsnap]
    exact hsaw row (timeoutOf_eq_some.mpr ⟨hold, hw⟩)
  · exact absurd hid (hnew _ (by rw [hadded, hw]; rfl))

/-- A step of the monolith. -/
theorem Consuming.step {s : TimeoutSystem} {sys' : System} {seen' : List GoString}
    (hs : Filing s.sys s.seen) (hc : Consuming s.sys s.seen s.consumers s.failedQueue)
    (h : step s.sys e = some sys') (hnew : ∀ id ∈ newOf s e, id ∉ s.seen)
    (hseen : ∀ id ∈ s.seen, id ∈ seen') :
    Consuming sys' seen' (s.ended e) s.failedQueue where
  cancelling q body event hq := by
    rcases ended_cases hq with ⟨hold, hne⟩ | ⟨body', event', -, ⟨-, hpc⟩ | ⟨-, hpc⟩⟩
    · obtain ⟨hcommit, habort⟩ := hne body event rfl
      exact hc.cancelling_step hs h hnew hseen hold hcommit habort
    · cases hpc
    · cases hpc
  done q body hq := by
    rcases ended_cases hq with ⟨hold, -⟩ | ⟨body', event, hcancel, ⟨rfl, hpc⟩ | ⟨-, hpc⟩⟩
    · exact (hc.done q body hold).files hs.booked.paired (files_step hs.tracked h) hnew hseen
    · obtain rfl := ConsumePc.done.inj hpc
      obtain ⟨hdecode, hid, a, now, ha, htag, hsaw⟩ := hc.cancelling q body event hcancel
      obtain ⟨r, hexec⟩ := exec_of_commit hs.tracked ha h
      obtain ⟨hsince, hpaired, -⟩ := hs.since q a ha
      rw [htag] at hexec
      obtain ⟨v, hexec, -⟩ := exec_answer hexec
      have hf := files_step hs.tracked h
      rw [newOf, newID_of_txn ha, htag] at hf
      exact over_of_exec hdecode (hseen _ hid) hf hsince hpaired hsaw hexec
    · cases hpc
  rejecting q body hq := by
    rcases ended_cases hq with ⟨hold, -⟩ | ⟨body', event, -, ⟨-, hpc⟩ | ⟨-, hpc⟩⟩
    · exact hc.rejecting q body hold
    · cases hpc
    · cases hpc
  failed := hc.failed

omit [Digest] in
/-- A consumer takes up something else than a transaction. -/
theorem Consuming.put {sys : System} {consumers : Nat → ConsumePc} {failed : List GoString}
    {pc : ConsumePc} (h : Consuming sys seen consumers failed)
    (hcancel : ∀ body e, pc ≠ .cancel body e) (hdone : ∀ body, pc ≠ .done body)
    (hreject : ∀ body, pc = .reject body → ∃ err, decodeEvent body = .error err) :
    Consuming sys seen (Function.update consumers q pc) failed where
  cancelling q' body e hq := by
    rw [Function.update_apply] at hq
    split at hq
    · exact absurd hq (hcancel body e)
    · exact h.cancelling q' body e hq
  done := (Function.forall_update_iff consumers fun _ pc => ∀ body, pc = .done body →
    Over seen sys.store body).mpr ⟨fun body hpc => absurd hpc (hdone body), fun q' _ => h.done q'⟩
  rejecting := (Function.forall_update_iff consumers fun _ pc => ∀ body, pc = .reject body →
    ∃ err, decodeEvent body = .error err).mpr ⟨hreject, fun q' _ => h.rejecting q'⟩
  failed := h.failed

/-! ## 6. The account of the messages -/

/-- Of every message there are as many in the queues as the broker has stored and not lost, unless
its order has left `pending`. -/
def Backed (seen : List GoString) (s : DB) (stored queued : List GoString) : Prop :=
  ∀ body, Over seen s body ∨ stored.count body ≤ queued.count body

omit [Digest] in
theorem Backed.count {s : DB} {stored stored' queued queued' : List GoString}
    (h : Backed seen s stored queued)
    (hle : ∀ body, Over seen s body ∨
      stored'.count body + queued.count body ≤ stored.count body + queued'.count body) :
    Backed seen s stored' queued' := by
  intro body
  rcases h body with hover | hcount
  · exact Or.inl hover
  · rcases hle body with hover | hle
    · exact Or.inl hover
    · exact Or.inr (by omega)

/-- **What holds in every run.** -/
structure Custody (s : TimeoutSystem) : Prop where
  filing : Filing s.sys s.seen
  times : ∀ t a eventID id now, s.sys.txn t = some a →
    a.tag = .cancelExpiredOrder eventID id now → now ≤ s.clock
  publishing : Publishing s.sys.store s.publishers s.channels s.columns
  consuming : Consuming s.sys s.seen s.consumers s.failedQueue
  queued : ∀ body ∈ s.delayQueue ++ s.cancelQueue, Known s.seen body
  backed : Backed s.seen s.sys.store s.channels.stored (s.delayQueue ++ s.cancelQueue)

theorem custody_start : Custody TimeoutSystem.start where
  filing := {
    tracked := tracked_init _ _
    booked := ⟨fun id => by simp [TimeoutSystem.start, Sys.init, DB.empty, DB.order, DB.outboxOf],
      fun id row h => absurd h (by simp [TimeoutSystem.start, Sys.init, DB.empty, DB.outboxOf]),
      fun id id' row row' h => absurd h
        (by simp [TimeoutSystem.start, Sys.init, DB.empty, DB.outboxOf])⟩
    since := fun t a h => absurd h (by simp [TimeoutSystem.start, Sys.init]) }
  times t a eventID id now h := absurd h (by simp [TimeoutSystem.start, Sys.init])
  publishing := {
    tidy := Confirms.tidy_empty
    hands := fun p e he => absurd he (by simp [TimeoutSystem.start, PublishPc.events])
    waits := fun p body h => absurd h (by simp [TimeoutSystem.start, Confirms.empty])
    marks := fun p event rest h => absurd h (by simp [TimeoutSystem.start])
    sent := fun body h => by
      obtain ⟨c, e, he, -⟩ := h
      exact absurd he (by simp [TimeoutSystem.start, Confirms.empty])
    stored := fun body h => absurd h
      (by simp [TimeoutSystem.start, Confirms.stored, Confirms.empty])
    published := fun id row h => absurd h
      (by simp [TimeoutSystem.start, Sys.init, DB.empty, DB.outboxOf]) }
  consuming := {
    cancelling := fun q body e h => absurd h (by simp [TimeoutSystem.start])
    done := fun q body h => absurd h (by simp [TimeoutSystem.start])
    rejecting := fun q body h => absurd h (by simp [TimeoutSystem.start])
    failed := fun body h => absurd h (by simp [TimeoutSystem.start]) }
  queued body h := absurd h (by simp [TimeoutSystem.start])
  backed body := Or.inr (by simp [TimeoutSystem.start, Confirms.stored, Confirms.empty])

variable {s s' : TimeoutSystem}

/-- A publisher or the broker does something that leaves the stored messages as they are. -/
theorem Custody.publishes (h : Custody s) {publishers : Nat → PublishPc}
    {channels : Confirms GoString} {columns : Int → Columns}
    (hp : Publishing s.sys.store publishers channels columns)
    (hst : ∀ body, channels.stored.count body = s.channels.stored.count body) :
    Custody { s with publishers, channels, columns } where
  filing := h.filing
  times := h.times
  publishing := hp
  consuming := h.consuming
  queued := h.queued
  backed := h.backed.count fun body => Or.inr (by rw [hst body])

/-- The session of a publisher ends. -/
theorem Custody.leave (h : Custody s) {p : Nat} {pc : PublishPc}
    (hev : ∀ e ∈ pc.events, Listed s.sys.store e)
    (hm : ∀ event rest, pc ≠ .markPublished event rest) : Custody (s.leave p pc) :=
  h.publishes (h.publishing.leave hev hm) fun _ => rfl

/-- Consumers and queues change. -/
theorem Custody.consumes (h : Custody s) {consumers : Nat → ConsumePc}
    {delayQueue cancelQueue failedQueue : List GoString}
    (hc : Consuming s.sys s.seen consumers failedQueue)
    (hq : ∀ body ∈ delayQueue ++ cancelQueue, body ∈ s.delayQueue ++ s.cancelQueue)
    (hcount : ∀ body, Over s.seen s.sys.store body ∨
      (s.delayQueue ++ s.cancelQueue).count body ≤ (delayQueue ++ cancelQueue).count body ∨
      s.channels.stored.count body = 0) :
    Custody { s with consumers, delayQueue, cancelQueue, failedQueue } where
  filing := h.filing
  times := h.times
  publishing := h.publishing
  consuming := hc
  queued body hbody := h.queued body (hq body hbody)
  backed := by
    intro body
    rcases h.backed body with hover | hle
    · exact Or.inl hover
    · rcases hcount body with hover | hmore | hzero
      · exact Or.inl hover
      · exact Or.inr (hle.trans hmore)
      · exact Or.inr (by rw [hzero]; exact Nat.zero_le _)

/-- A message leaves the cancel queue, whose order is no longer pending or that no worker has
sent. -/
theorem Custody.removes (h : Custody s) {failedQueue : List GoString}
    (hc : Consuming s.sys s.seen (Function.update s.consumers q .idle) failedQueue)
    (hgone : Over s.seen s.sys.store body ∨ s.channels.stored.count body = 0) :
    Custody { s with
      consumers := Function.update s.consumers q .idle
      cancelQueue := s.cancelQueue.erase body
      failedQueue } := by
  refine h.consumes hc (fun b hb => ?_) fun b => ?_
  · rcases List.mem_append.mp hb with hb | hb
    · exact List.mem_append_left _ hb
    · exact List.mem_append_right _ (List.mem_of_mem_erase hb)
  · by_cases hbody : b = body
    · subst hbody
      rcases hgone with hover | hzero
      · exact Or.inl hover
      · exact Or.inr (Or.inr hzero)
    · rw [List.count_append, List.count_append, List.count_erase_of_ne hbody]
      exact Or.inr (Or.inl (Nat.le_refl _))

/-! ## 7. One step -/

omit [EventJson] [Collation] [Digest] in
/-- The events of the rows that `ListPendingOrderTimeoutOutbox` finds. -/
theorem listed_eventsOf {ids : List Int} {e : TimeoutEvent}
    (h : e ∈ s.eventsOf ids) : Listed s.sys.store e := by
  obtain ⟨id, -, he⟩ := List.mem_filterMap.mp h
  obtain ⟨row, hrow, rfl⟩ := Option.map_eq_some_iff.mp he
  exact ⟨id, row, hrow, rfl⟩

theorem Custody.db (h : Custody s) (hs : s.step cfg (.db e) = some s') :
    Custody s' ∧ ((∀ t, e ≠ .commit t) → s'.sys.store = s.sys.store) := by
  simp only [TimeoutSystem.step] at hs
  split at hs
  case isFalse => cases hs
  case isTrue hallows =>
    obtain ⟨sys', hsys, rfl⟩ := Option.map_eq_some_iff.mp hs
    have hnew : ∀ id ∈ newOf s e, id ∉ s.seen := by
      intro id hid
      cases e with
      | commit t =>
        rw [newOf] at hid
        simp only [TimeoutSystem.allows, Option.mem_def.mp hid, Option.all_some] at hallows
        simpa using hallows
      | start t tag | stmt t | abort t => cases hid
    have hseen : s.seenAfter e = (newOf s e).toList ++ s.seen := by
      cases e <;> rfl
    have hmono : ∀ id ∈ s.seen, id ∈ s.seenAfter e := by
      intro id hid
      rw [hseen]
      exact List.mem_append_right _ hid
    have hf := files_step h.filing.tracked hsys
    refine ⟨⟨h.filing.step hsys hnew hseen, fun t b eventID id now hb htag => ?_,
      h.publishing.files hf, h.consuming.step h.filing hsys hnew hmono,
      fun body hbody i hi => hmono i (h.queued body hbody i hi), fun body => ?_⟩,
      fun he => (store_of_step hsys he).1⟩
    · cases ha : s.sys.txn t with
      | some a =>
        rcases active_of_step hsys hb with ⟨hnone, -, -⟩ | ⟨a', ha', hsame, -⟩
        · exact absurd (hnone.symm.trans ha) (by simp)
        · exact h.times t a' eventID id now ha' (hsame.trans htag)
      | none =>
        -- the workers start these transactions in `deliver` only
        obtain rfl := start_of_step hsys ha hb
        rw [htag] at hallows
        cases hallows
    · rcases h.backed body with hover | hle
      · exact Or.inl (hover.files h.filing.booked.paired hf hnew hmono)
      · exact Or.inr hle

theorem Custody.deliver {j : Nat} (h : Custody s) (hs : s.deliver q j = some s') :
    Custody s' ∧ s'.sys.store = s.sys.store := by
  unfold TimeoutSystem.deliver at hs
  split at hs
  case h_2 => cases hs
  case h_1 body hidle hbody =>
    have hmem : body ∈ s.delayQueue ++ s.cancelQueue :=
      List.mem_append_right _ (List.mem_of_getElem? hbody)
    split at hs
    · rename_i err hdecode
      obtain rfl := Option.some.inj hs
      refine ⟨h.consumes (h.consuming.put (by simp) (by simp) fun b hb => ?_) (fun _ hb => hb)
        fun _ => Or.inr (Or.inl (Nat.le_refl _)), rfl⟩
      obtain rfl := ConsumePc.reject.inj hb
      exact ⟨err, hdecode⟩
    · rename_i event hdecode
      obtain ⟨sys', hsys, rfl⟩ := Option.map_eq_some_iff.mp hs
      obtain ⟨hstore, -⟩ := store_of_step hsys (by simp)
      have hid : Collation.weight event.eventID ∈ s.seen :=
        h.queued body hmem _ (by rw [TimeoutSystem.messageID, hdecode])
      have htxn : ∃ a, sys'.txn q = some a ∧
          a.tag = .cancelExpiredOrder event.eventID event.orderID s.clock ∧
          a.snapshot = s.sys.store := by
        simp only [lockStep] at hsys
        split at hsys
        · cases hsys
        · obtain rfl := Option.some.inj hsys
          exact ⟨_, Sys.put_txn_self _ _ _, rfl, rfl⟩
      obtain ⟨a, ha, htag, hsnap⟩ := htxn
      refine ⟨⟨h.filing.step hsys (by simp [newOf]) rfl, fun t b eventID id now hb hb' => ?_,
        ?_, ⟨fun q' b e hq => ?_, ?_, ?_, h.consuming.failed⟩, h.queued, ?_⟩, hstore⟩
      · rcases active_of_step hsys hb with ⟨hnone, -, -⟩ | ⟨c, hc, hsame, -⟩
        · have hstart := start_of_step hsys hnone hb
          rw [hb'] at hstart
          obtain ⟨-, htag'⟩ := LockEvent.start.inj hstart
          exact (Request.cancelExpiredOrder.inj htag').2.2 ▸ Int.le_refl _
        · exact h.times t c eventID id now hc (hsame.trans hb')
      · rw [show sys'.store = s.sys.store from hstore]
        exact h.publishing
      · by_cases hq' : q' = q
        · subst hq'
          obtain ⟨rfl, rfl⟩ := ConsumePc.cancel.inj
            ((Function.update_self q' _ s.consumers).symm.trans hq)
          refine ⟨hdecode, hid, a, s.clock, ha, htag, fun row hrow => ?_⟩
          rw [hsnap, ← hstore]
          exact hrow
        · have hold : s.consumers q' = .cancel b e := by
            rw [← hq]
            exact (Function.update_of_ne hq' _ _).symm
          exact h.consuming.cancelling_step h.filing hsys (by simp [newOf]) (fun _ hi => hi)
            hold (by simp) (by simp)
      · rw [hstore]
        exact (Function.forall_update_iff s.consumers fun _ pc => ∀ body, pc = .done body →
          Over s.seen s.sys.store body).mpr ⟨by simp, fun q' _ => h.consuming.done q'⟩
      · exact (Function.forall_update_iff s.consumers fun _ pc => ∀ body, pc = .reject body →
          ∃ err, decodeEvent body = .error err).mpr ⟨by simp, fun q' _ => h.consuming.rejecting q'⟩
      · rw [show sys'.store = s.sys.store from hstore]
        exact h.backed

/-- A publisher that is not at work does not wait for an answer. -/
theorem Custody.waiting_none (h : Custody s) {p : Nat}
    (hp : ∀ event rest, s.publishers p ≠ .wait event rest) : s.channels.waiting p = none := by
  cases hw : s.channels.waiting p with
  | none => rfl
  | some body =>
    obtain ⟨event, rest, hwait, -⟩ := h.publishing.waits p body hw
    exact absurd hwait (hp event rest)

theorem Custody.send {p : Nat} (h : Custody s)
    (hs : s.send p = some s') : Custody s' ∧ s'.sys.store = s.sys.store := by
  unfold TimeoutSystem.send at hs
  split at hs
  case h_2 => cases hs
  case h_1 event rest hp =>
    have hev : Listed s.sys.store event :=
      h.publishing.hands p event (by rw [hp]; exact List.mem_cons_self)
    split at hs
    · obtain rfl := Option.some.inj hs
      exact ⟨h.leave (by simpa [PublishPc.events] using hev) (by simp), rfl⟩
    · rename_i body hbody
      obtain ⟨x', hx, rfl⟩ := Option.map_eq_some_iff.mp hs
      refine ⟨h.publishes (h.publishing.send hp hbody hx) fun b => ?_, rfl⟩
      rw [(Confirms.stored_send hx).1]

theorem Custody.take {p : Nat} (h : Custody s)
    (hs : s.take p = some s') : Custody s' ∧ s'.sys.store = s.sys.store := by
  unfold TimeoutSystem.take at hs
  split at hs
  case h_3 => cases hs
  case h_1 event rest x' hp hx =>
    obtain rfl := Option.some.inj hs
    obtain ⟨hpub, hw⟩ := h.publishing.take hx
    refine ⟨h.publishes (hpub.put (fun e he => h.publishing.hands p e (by rw [hp]; exact he)) hw ?_)
      fun b => by rw [(Confirms.stored_take hx).1], rfl⟩
    intro event' rest' hpc
    obtain ⟨rfl, rfl⟩ := PublishPc.markPublished.inj hpc
    exact h.publishing.confirmed hp hx
  case h_2 event rest x' hp hx =>
    obtain rfl := Option.some.inj hs
    obtain ⟨hpub, hw⟩ := h.publishing.take hx
    refine ⟨h.publishes (hpub.put (fun e he => ?_) hw (by simp))
      fun b => by rw [(Confirms.stored_take hx).1], rfl⟩
    obtain rfl := List.mem_singleton.mp he
    exact h.publishing.hands p e (by rw [hp]; exact List.mem_cons_self)

theorem Custody.fail {p : Nat} {cause : GoString} (h : Custody s)
    (hs : s.fail p cause = some s') : Custody s' ∧ s'.sys.store = s.sys.store := by
  -- in both phases the row in hand is the one that is marked
  have hmark : ∀ event ∈ (s.publishers p).events,
      Custody (s.leave p (.markFailed event cause)) := by
    intro event he
    refine h.leave (fun e hmem => ?_) (by simp)
    obtain rfl := List.mem_singleton.mp hmem
    exact h.publishing.hands p e he
  unfold TimeoutSystem.fail at hs
  split at hs
  · rename_i event rest hp
    obtain rfl := Option.some.inj hs
    exact ⟨hmark event (by rw [hp]; exact List.mem_cons_self), rfl⟩
  · rename_i event rest hp
    obtain rfl := Option.some.inj hs
    exact ⟨hmark event (by rw [hp]; exact List.mem_cons_self), rfl⟩
  · cases hs

/-- The statement that marks a row as published reaches no other row. -/
theorem Custody.marked (h : Custody s) {p : Nat} {event : TimeoutEvent}
    {rest : List TimeoutEvent} (hp : s.publishers p = .markPublished event rest) {id : Int}
    {row : OrderTimeoutOutbox} (hrow : DB.outboxOf s.sys.store id = some row)
    (hpub : (s.mark event.eventID (.published s.clock) id).publishedAt ≠ none) :
    (s.columns id).publishedAt ≠ none ∨
      ∃ body ∈ s.channels.confirmed, encodeEvent (timeoutEvent id row) = .ok body := by
  unfold TimeoutSystem.mark at hpub
  split at hpub
  · rename_i hmark
    obtain ⟨row', hfound⟩ := Option.isSome_iff_exists.mp hmark.1
    obtain ⟨hrow', hw⟩ := timeoutOf_eq_some.mp hfound
    obtain ⟨id₀, row₀, hrow₀, rfl⟩ :=
      h.publishing.hands p event (by rw [hp]; exact List.mem_cons_self)
    obtain rfl := h.filing.booked.apart id id₀ row' row₀ hrow' hrow₀ hw
    obtain rfl := Option.some.inj (hrow.symm.trans hrow₀)
    exact Or.inr (h.publishing.marks p _ rest hp)
  · exact Or.inl hpub

theorem Custody.lose {x' : Confirms GoString} {delayQueue cancelQueue : List GoString}
    (h : Custody s) (hx : s.channels.lose body = some x')
    (hq : (s.delayQueue ++ s.cancelQueue).Perm (body :: (delayQueue ++ cancelQueue))) :
    Custody { s with channels := x', delayQueue, cancelQueue } where
  filing := h.filing
  times := h.times
  publishing := h.publishing.keeps (Confirms.keeps_lose hx) (h.publishing.tidy.lose hx)
    fun b hb => Or.inl ((Confirms.stored_lose hx).mem_iff.mpr (List.mem_cons_of_mem _ hb))
  consuming := h.consuming
  queued b hb := h.queued b (hq.mem_iff.mpr (List.mem_cons_of_mem _ hb))
  backed := by
    refine h.backed.count fun b => Or.inr ?_
    change x'.stored.count b + (s.delayQueue ++ s.cancelQueue).count b ≤
      s.channels.stored.count b + (delayQueue ++ cancelQueue).count b
    rw [(Confirms.stored_lose hx).count_eq, hq.count_eq, List.count_cons, List.count_cons]
    omega

/-- A publisher has read its batch. -/
theorem Custody.list {p : Nat} {orderIDs : List Int} (h : Custody s)
    (hs : s.step cfg (.list p orderIDs) = some s') :
    Custody s' ∧ s'.sys.store = s.sys.store := by
  simp only [TimeoutSystem.step] at hs
  split at hs
  case isFalse => cases hs
  case isTrue hguard =>
    obtain rfl := Option.some.inj hs
    refine ⟨h.publishes (h.publishing.put (fun e he => ?_) ?_ fun event rest hpc => ?_)
      fun _ => rfl, rfl⟩
    · rw [events_next] at he
      exact listed_eventsOf he
    · exact h.waiting_none (by simp [hguard.1])
    · cases hev : s.eventsOf orderIDs with
      | nil =>
        rw [hev] at hpc
        cases hpc
      | cons e es =>
        rw [hev] at hpc
        cases hpc

/-- A message enters the queues for every one that the broker stores. -/
theorem Custody.accept {c j : Nat} (h : Custody s) (hs : s.step cfg (.accept c j) = some s') :
    Custody s' ∧ s'.sys.store = s.sys.store := by
  obtain ⟨⟨body, x'⟩, hx, rfl⟩ := Option.map_eq_some_iff.mp hs
  have hperm := Confirms.stored_accept hx
  have hmention := Confirms.mentions_accept hx
  refine ⟨⟨h.filing, h.times, h.publishing.keeps (Confirms.keeps_accept hx)
    (h.publishing.tidy.accept hx) fun b hb => ?_, h.consuming, fun b hb => ?_,
    h.backed.count fun b => Or.inr ?_⟩, rfl⟩
  · rcases List.mem_cons.mp (hperm.mem_iff.mp hb) with rfl | hold
    · exact Or.inr hmention
    · exact Or.inl hold
  · simp only [List.mem_append, List.mem_singleton] at hb
    rcases hb with (hb | rfl) | hb
    · exact h.queued b (List.mem_append_left _ hb)
    · exact (h.publishing.sent b hmention).known h.filing.booked
    · exact h.queued b (List.mem_append_right _ hb)
  · rw [hperm.count_eq, List.count_cons]
    simp only [List.count_append, List.count_singleton]
    omega

theorem Custody.markPublished {p : Nat} (h : Custody s)
    (hs : s.step cfg (.markPublished p) = some s') : Custody s' ∧ s'.sys.store = s.sys.store := by
  simp only [TimeoutSystem.step] at hs
  split at hs
  · rename_i event rest hp
    obtain rfl := Option.some.inj hs
    have hcolumns := h.publishing.setColumns fun id row hrow hpub => h.marked hp hrow hpub
    refine ⟨h.publishes (hcolumns.put (fun e he => ?_) (h.waiting_none (by simp [hp]))
      fun event' rest' hpc => ?_) fun _ => rfl, rfl⟩
    · rw [events_next] at he
      exact h.publishing.hands p e (by rw [hp]; exact List.mem_cons_of_mem _ he)
    · cases rest with
      | nil => cases hpc
      | cons e es => cases hpc
  · cases hs

theorem Custody.markFailed {p : Nat} {stored : Bool} (h : Custody s)
    (hs : s.step cfg (.markFailed p stored) = some s') :
    Custody s' ∧ s'.sys.store = s.sys.store := by
  simp only [TimeoutSystem.step] at hs
  split at hs
  · rename_i event cause hp
    obtain rfl := Option.some.inj hs
    have hcolumns : Publishing s.sys.store s.publishers s.channels (bif stored then
        s.mark event.eventID (.failed cause (s.clock + cfg.outboxRetryDelay))
      else s.columns) := by
      refine h.publishing.setColumns fun id row hrow hpub => ?_
      cases stored with
      | false => exact Or.inl hpub
      | true =>
        simp only [cond_true, TimeoutSystem.mark] at hpub
        split at hpub
        · exact Or.inl hpub
        · exact Or.inl hpub
    exact ⟨h.publishes (hcolumns.leave (by simp [PublishPc.events]) (by simp)) fun _ => rfl, rfl⟩
  · cases hs

/-- A message of somebody else can only add to the queues. -/
theorem Custody.foreign {expired : Bool} (h : Custody s)
    (hs : s.step cfg (.foreign body expired) = some s') :
    Custody s' ∧ s'.sys.store = s.sys.store := by
  obtain rfl := Option.some.inj hs
  have hmono : ∀ id ∈ s.seen, id ∈ (TimeoutSystem.messageID body).toList ++ s.seen :=
    fun id hid => List.mem_append_right _ hid
  have hover : ∀ b, Over s.seen s.sys.store b →
      Over ((TimeoutSystem.messageID body).toList ++ s.seen) s.sys.store b :=
    fun b hb => hb.files h.filing.booked.paired (files_refl none _) (by simp) hmono
  refine ⟨⟨h.filing.mono hmono, h.times, h.publishing, ?_, fun b hb id hid => ?_,
    fun b => ?_⟩, rfl⟩
  · refine ⟨fun q b e hq => ?_, fun q b hq => hover b (h.consuming.done q b hq),
      h.consuming.rejecting, h.consuming.failed⟩
    obtain ⟨hdecode, hid, hrest⟩ := h.consuming.cancelling q b e hq
    exact ⟨hdecode, hmono _ hid, hrest⟩
  · by_cases hbody : b = body
    · subst hbody
      exact List.mem_append_left _ (by rw [hid]; exact List.mem_singleton.mpr rfl)
    · refine hmono id (h.queued b ?_ id hid)
      cases expired with
      | true => simpa [hbody] using hb
      | false => simpa [hbody] using hb
  · rcases h.backed b with hb | hle
    · exact Or.inl (hover b hb)
    · refine Or.inr (hle.trans ?_)
      cases expired with
      | true => simp [List.count_append]
      | false =>
        simp only [Bool.false_eq_true, if_false, List.count_append]
        omega

/-- A message that a consumer cannot read was sent by no worker. -/
theorem Custody.reject (h : Custody s) (hs : s.step cfg (.reject q) = some s') :
    Custody s' ∧ s'.sys.store = s.sys.store := by
  simp only [TimeoutSystem.step] at hs
  split at hs
  · rename_i body hq
    obtain rfl := Option.some.inj hs
    obtain ⟨err, hdecode⟩ := h.consuming.rejecting q body hq
    have hput : Consuming s.sys s.seen (Function.update s.consumers q .idle) s.failedQueue :=
      h.consuming.put (by simp) (by simp) (by simp)
    refine ⟨h.removes ⟨hput.cancelling, hput.done, hput.rejecting, fun b hb => ?_⟩
      (Or.inr (List.count_eq_zero.mpr fun hmem => ?_)), rfl⟩
    · rcases List.mem_append.mp hb with hb | hb
      · exact h.consuming.failed b hb
      · rw [List.mem_singleton.mp hb]
        exact ⟨err, hdecode⟩
    · obtain ⟨id, row, -, hok⟩ := (h.publishing.stored body hmem).decode
      rw [hdecode] at hok
      cases hok
  · cases hs

/-- **Every step keeps the account**, and the store changes with a commit of the monolith only. -/
theorem custody_step {e : WorkerEvent} (h : Custody s) (hs : s.step cfg e = some s') :
    Custody s' ∧ ((∀ t, e ≠ .db (.commit t)) → s'.sys.store = s.sys.store) := by
  have hkept : Custody s' ∧ s'.sys.store = s.sys.store →
      Custody s' ∧ ((∀ t, e ≠ .db (.commit t)) → s'.sys.store = s.sys.store) :=
    fun hC => ⟨hC.1, fun _ => hC.2⟩
  cases e with
  | tick elapsed =>
    obtain rfl := Option.some.inj hs
    refine ⟨⟨h.filing, fun t a eventID id now ha htag => ?_, h.publishing, h.consuming, h.queued,
      h.backed⟩, fun _ => rfl⟩
    have hle := h.times t a eventID id now ha htag
    exact hle.trans (by simp)
  | db e =>
    obtain ⟨hC, hstore⟩ := h.db hs
    exact ⟨hC, fun he => hstore fun t ht => he t (by rw [ht])⟩
  | connect p =>
    simp only [TimeoutSystem.step] at hs
    split at hs
    · obtain ⟨x', hx, rfl⟩ := Option.map_eq_some_iff.mp hs
      have hst := Confirms.stored_connect hx
      exact ⟨h.publishes (h.publishing.keeps (Confirms.keeps_connect hx)
        (h.publishing.tidy.connect hx) fun b hb => Or.inl (hst ▸ hb)) fun b => by rw [hst],
        fun _ => rfl⟩
    · cases hs
  | list p orderIDs => exact hkept (h.list hs)
  | send p => exact hkept (h.send hs)
  | accept c j => exact hkept (h.accept hs)
  | confirm c j ack =>
    obtain ⟨x', hx, rfl⟩ := Option.map_eq_some_iff.mp hs
    have hperm := Confirms.stored_confirm hx
    exact ⟨h.publishes (h.publishing.keeps (Confirms.keeps_confirm hx)
      (h.publishing.tidy.confirm hx) fun b hb => Or.inl (hperm.mem_iff.mp hb))
      fun b => hperm.count_eq b, fun _ => rfl⟩
  | lose body expired =>
    obtain ⟨x', hx, hs⟩ := Option.bind_eq_some_iff.mp hs
    split at hs
    · split at hs
      · rename_i hmem
        obtain rfl := Option.some.inj hs
        refine ⟨h.lose hx ?_, fun _ => rfl⟩
        have hperm := List.perm_cons_erase (List.contains_iff_mem.mp hmem)
        exact (hperm.append_left _).trans List.perm_middle
      · cases hs
    · split at hs
      · rename_i hmem
        obtain rfl := Option.some.inj hs
        exact ⟨h.lose hx ((List.perm_cons_erase (List.contains_iff_mem.mp hmem)).append_right _),
          fun _ => rfl⟩
      · cases hs
  | take p => exact hkept (h.take hs)
  | fail p cause => exact hkept (h.fail hs)
  | markPublished p => exact hkept (h.markPublished hs)
  | markFailed p stored => exact hkept (h.markFailed hs)
  | stop p =>
    obtain rfl := Option.some.inj hs
    exact ⟨h.leave (by simp [PublishPc.events]) (by simp), fun _ => rfl⟩
  | expire j =>
    simp only [TimeoutSystem.step] at hs
    split at hs
    · rename_i body hj
      obtain rfl := Option.some.inj hs
      obtain ⟨hlt, rfl⟩ := List.getElem?_eq_some_iff.mp hj
      have hperm : (s.delayQueue.eraseIdx j ++ (s.cancelQueue ++ [s.delayQueue[j]])).Perm
          (s.delayQueue ++ s.cancelQueue) := by
        rw [← List.append_assoc]
        refine (List.perm_append_singleton _ _).trans ?_
        exact (List.getElem_cons_eraseIdx_perm hlt).append_right _
      exact ⟨h.consumes h.consuming (fun b hb => hperm.mem_iff.mp hb)
        fun b => Or.inr (Or.inl (by rw [hperm.count_eq])), fun _ => rfl⟩
    · cases hs
  | foreign body expired => exact hkept (h.foreign hs)
  | deliver q j => exact hkept (h.deliver hs)
  | reject q => exact hkept (h.reject hs)
  | ack q =>
    simp only [TimeoutSystem.step] at hs
    split at hs
    · rename_i body hq
      obtain rfl := Option.some.inj hs
      exact ⟨h.removes (h.consuming.put (by simp) (by simp) (by simp))
        (Or.inl (h.consuming.done q body hq)), fun _ => rfl⟩
    · cases hs
  | requeue q =>
    obtain rfl := Option.some.inj hs
    exact ⟨h.consumes (h.consuming.put (by simp) (by simp) (by simp)) (fun _ hb => hb)
      fun _ => Or.inr (Or.inl (Nat.le_refl _)), fun _ => rfl⟩

/-! ## 8. Every run -/

theorem custody_run {es : List WorkerEvent} {s : TimeoutSystem}
    (h : run (TimeoutSystem.step cfg) .start es = some s) : Custody s :=
  run_invariant (I := Custody) (fun _ _ _ hs hstep => (custody_step hs hstep).1) custody_start h

/-- **No order is left without its timeout.**  In every run of the monolith, its workers and the
broker, whatever fails and whatever else is in the queues: a pending order has a timeout row, and
that row is still to be published, or the broker has confirmed its message and the message is in
the delay queue or the cancel queue.  A row is marked as published only when its message was
confirmed, and the message of a row never ends in the failed queue. -/
theorem timeout_custody (cfg : TimeoutConfig) (es : List WorkerEvent) (s : TimeoutSystem)
    (h : run (TimeoutSystem.step cfg) .start es = some s) :
    (∀ id row, DB.order s.sys.store id = some row → row.status = .pending →
      ∃ outbox, DB.outboxOf s.sys.store id = some outbox ∧
        ((s.columns id).publishedAt = none ∨
          ∃ body ∈ s.channels.confirmed, encodeEvent (timeoutEvent id outbox) = .ok body ∧
            body ∈ s.delayQueue ++ s.cancelQueue)) ∧
    (∀ id outbox, DB.outboxOf s.sys.store id = some outbox → (s.columns id).publishedAt ≠ none →
      ∃ body ∈ s.channels.confirmed, encodeEvent (timeoutEvent id outbox) = .ok body) ∧
    ∀ id outbox, DB.outboxOf s.sys.store id = some outbox →
      ∀ body ∈ s.failedQueue, encodeEvent (timeoutEvent id outbox) ≠ .ok body := by
  have hC := custody_run h
  refine ⟨fun id row hrow hpending => ?_, hC.publishing.published,
    fun id outbox _ body hb henc => ?_⟩
  · have hsome : (DB.outboxOf s.sys.store id).isSome :=
      (hC.filing.booked.paired id).mp (by rw [hrow]; rfl)
    obtain ⟨outbox, houtbox⟩ := Option.isSome_iff_exists.mp hsome
    refine ⟨outbox, houtbox, ?_⟩
    by_cases hpub : (s.columns id).publishedAt = none
    · exact Or.inl hpub
    · obtain ⟨body, hconf, henc⟩ := hC.publishing.published id outbox houtbox hpub
      refine Or.inr ⟨body, hconf, henc, ?_⟩
      rcases hC.backed body with ⟨e, hdecode, -, hover⟩ | hle
      · rw [decodeEvent_of_encodeEvent henc] at hdecode
        obtain rfl := Except.ok.inj hdecode
        refine absurd ?_ (hover outbox (timeoutOf_eq_some.mpr ⟨houtbox, rfl⟩))
        change DB.status s.sys.store id = some .pending
        rw [DB.status, hrow, Option.map_some, hpending]
      · have hstored : body ∈ s.channels.stored := List.mem_append_right _ hconf
        exact List.count_pos_iff.mp ((List.count_pos_iff.mpr hstored).trans_le hle)
  · obtain ⟨err, hdecode⟩ := hC.consuming.failed body hb
    rw [decodeEvent_of_encodeEvent henc] at hdecode
    cases hdecode

end

theorem timeout_custody_publishing :
    letI := asciiCi
    letI := tallyDigest
    letI := oneJson
    ∃ s : TimeoutSystem, run (TimeoutSystem.step ⟨1, 1⟩) .start publishing = some s ∧
      (s.columns 9).publishedAt = some 0 ∧
      ∃ body ∈ s.channels.confirmed, body ∈ s.delayQueue ++ s.cancelQueue := by
  let _ : Collation := asciiCi
  let _ : Digest := tallyDigest
  let _ : EventJson := oneJson
  have h : (run (TimeoutSystem.step ⟨1, 1⟩) .start publishing).map (fun s =>
      ((s.columns 9).publishedAt, DB.status s.sys.store 9)) =
      some (some 0, some .pending) := by decide +kernel
  obtain ⟨s, hs, hv⟩ := Option.map_eq_some_iff.mp h
  obtain ⟨hpub, hst⟩ := Prod.mk.inj hv
  obtain ⟨row, hrow, hpending⟩ := Option.map_eq_some_iff.mp hst
  obtain ⟨outbox, -, hnone | ⟨body, hconf, -, hqueue⟩⟩ :=
    (timeout_custody ⟨1, 1⟩ publishing s hs).1 9 row hrow hpending
  · rw [hpub] at hnone
    cases hnone
  · exact ⟨s, hs, hpub, body, hconf, hqueue⟩

section

variable [EventJson] [Collation] [Digest]

/-- **No order is cancelled before its time.**  Whatever messages are delivered, when, and how
often: at every step of every run at which an order stops being pending and is cancelled, either
its owner has cancelled it, or the deadline of its timeout row has passed. -/
theorem timeout_not_early (cfg : TimeoutConfig) (es : List WorkerEvent) (e : WorkerEvent)
    (s s' : TimeoutSystem) (h : run (TimeoutSystem.step cfg) .start es = some s)
    (hs : s.step cfg e = some s') (id u : Int) (howner : DB.ownerOf s.sys.store id = some u)
    (hbefore : DB.status s.sys.store id = some .pending)
    (hafter : DB.status s'.sys.store id = some .cancelled) :
    (∃ t a, e = .db (.commit t) ∧ s.sys.txn t = some a ∧ a.tag = .cancelOrder u id) ∨
      ∃ outbox, DB.outboxOf s.sys.store id = some outbox ∧ outbox.timeoutAt ≤ s.clock := by
  have hC := custody_run h
  by_cases he : ∃ t, e = .db (.commit t)
  · obtain ⟨t, rfl⟩ := he
    simp only [TimeoutSystem.step] at hs
    split at hs
    case isFalse => cases hs
    case isTrue =>
      obtain ⟨sys', hsys, rfl⟩ := Option.map_eq_some_iff.mp hs
      cases ha : s.sys.txn t with
      | none =>
        simp only [lockStep, ha] at hsys
        cases hsys
      | some a =>
        obtain ⟨r, hexec⟩ := exec_of_commit hC.filing.tracked ha hsys
        have hne : DB.status s.sys.store id ≠ some .cancelled := by simp [hbefore]
        rcases cancelled_of_turn (prog_turn hexec) hne hafter with ⟨v, htag, hv⟩ |
          ⟨eventID, now, htag⟩
        · obtain rfl := Option.some.inj (howner.symm.trans hv)
          exact Or.inl ⟨t, a, rfl, ha, htag⟩
        · rw [htag] at hexec
          obtain ⟨_, hexec, -⟩ := exec_answer hexec
          rcases cancelExpiredOrder_turn hexec with ⟨hsame, -⟩ | ⟨outbox, v, hrow, hdue, -⟩
          · rw [show sys'.store = s.sys.store from hsame] at hafter
            exact absurd hafter hne
          · obtain ⟨-, -, hkept⟩ := hC.filing.since t a ha
            have hnow := hC.times t a eventID id now ha htag
            exact Or.inr ⟨outbox, hkept id outbox (timeoutOf_eq_some.mp hrow).1,
              hdue.trans hnow⟩
  · have hstore := (custody_step hC hs).2 fun t ht => he ⟨t, ht⟩
    rw [hstore, hbefore] at hafter
    cases hafter

end

theorem timeout_not_early_expiring :
    letI := asciiCi
    letI := tallyDigest
    letI := oneJson
    ∃ s s' : TimeoutSystem, run (TimeoutSystem.step ⟨1, 1⟩) .start expiring = some s ∧
      s.step ⟨1, 1⟩ (.db (.commit 5)) = some s' ∧
      DB.status s'.sys.store 9 = some .cancelled ∧
      ((∃ t a, WorkerEvent.db (.commit 5) = .db (.commit t) ∧ s.sys.txn t = some a ∧
          a.tag = .cancelOrder 7 9) ∨
        ∃ outbox, DB.outboxOf s.sys.store 9 = some outbox ∧ outbox.timeoutAt ≤ s.clock) := by
  let _ : Collation := asciiCi
  let _ : Digest := tallyDigest
  let _ : EventJson := oneJson
  have h : ((run (TimeoutSystem.step ⟨1, 1⟩) .start expiring).bind fun s =>
      (s.step ⟨1, 1⟩ (.db (.commit 5))).map fun s' => (DB.ownerOf s.sys.store 9,
        DB.status s.sys.store 9, DB.status s'.sys.store 9)) =
      some (some 7, some .pending, some .cancelled) := by decide +kernel
  obtain ⟨s, hs, h⟩ := Option.bind_eq_some_iff.mp h
  obtain ⟨s', hs', hv⟩ := Option.map_eq_some_iff.mp h
  obtain ⟨howner, hv⟩ := Prod.mk.inj hv
  obtain ⟨hbefore, hafter⟩ := Prod.mk.inj hv
  exact ⟨s, s', hs, hs', hafter,
    timeout_not_early ⟨1, 1⟩ expiring _ s s' hs hs' 9 7 howner hbefore hafter⟩

end OrderSystem.Monolith
