/-
# The timeout worker

`internal/ordertimeout`: any number of workers publish the rows of `order_timeout_outbox` to a
delay queue, from which RabbitMQ moves them to the cancel queue when their time to live is over,
and cancel the orders of the messages they get from there.

* A worker publishes in a session (`runSession`) with one channel.  `publishBatch` reads the rows
  that are due and, for each, publishes it, waits for the confirmation and marks it.  It ends the
  session at the first error.  Channels and confirmations are those of `Kit/Confirms.lean`.
* `consumeLoop` rejects a message it cannot read, which sends it to the failed queue.  For any
  other it runs `CancelExpiredOrder`, a transaction of the monolith, and acknowledges the message
  when that has succeeded; otherwise it puts the message back.  A message that was delivered
  counts as in the cancel queue until it is acknowledged or rejected.
* Anybody may put anything into the queues (`foreign`).

The broker may move a message to the cancel queue at any time, early or late: nothing here rests
on the time to live that `publishEvent` asks for.  Which of the rows that are due make up a batch
is left open; they are at most `PublishBatchSize`, and each is there once.

The columns that only the worker uses are kept beside the rows (`Columns`).  Event ids are UUIDs
under a unique index (`uk_order_timeout_outbox_event_id`): a creation does not commit with an id
that a row or a message has already.  `CancelExpiredOrder` reads the clock when it starts.  Times
are in milliseconds, as the columns of type `datetime(3)` have them.
-/
import OrderSystem.Kit.Confirms
import OrderSystem.Monolith.Lifecycle

namespace OrderSystem.Monolith

open OrderSystem.Kit

/-! ## 1. Events -/

/-- `Event`. -/
structure TimeoutEvent where
  eventID : GoString
  orderID : Int
  userID : Int
  timeoutAt : Int
  deriving DecidableEq

/-- The zero `time.Time`, which is the first instant of the year 1. -/
def zeroTime : Int := -62135596800000

/-- `Event.Validate`, giving the text of the error. -/
def TimeoutEvent.validate (e : TimeoutEvent) : Option GoString :=
  if trimSpace e.eventID = [] then some (str "order timeout event ID is required")
  else if e.orderID ≤ 0 then some (str "order timeout order ID must be positive")
  else if e.userID ≤ 0 then some (str "order timeout user ID must be positive")
  else if e.timeoutAt = zeroTime then some (str "order timeout deadline is required")
  else none

/-- `encoding/json` on an `Event`: what `Marshal` makes of it, and the one value that the strict
decoder of `decodeEvent` finds in a body. -/
class EventJson where
  marshal : TimeoutEvent → Except GoString GoString
  decode : GoString → Except GoString TimeoutEvent
  decode_marshal : ∀ e body, marshal e = .ok body → decode body = .ok e

/-- The event of a row. -/
def timeoutEvent (orderID : Int) (row : OrderTimeoutOutbox) : TimeoutEvent :=
  ⟨row.eventID, orderID, row.userID, row.timeoutAt⟩

section

variable [EventJson]

def encodeEvent (e : TimeoutEvent) : Except GoString GoString :=
  match e.validate with
  | some err => .error err
  | none => EventJson.marshal e

def decodeEvent (body : GoString) : Except GoString TimeoutEvent :=
  match EventJson.decode body with
  | .error err => .error err
  | .ok e =>
    match e.validate with
    | some err => .error err
    | none => .ok e

/-- **An event that was encoded is read back.** -/
theorem decodeEvent_of_encodeEvent {e : TimeoutEvent} {body : GoString}
    (h : encodeEvent e = .ok body) : decodeEvent body = .ok e := by
  unfold encodeEvent at h
  split at h
  · cases h
  · rename_i hvalid
    rw [decodeEvent, EventJson.decode_marshal e body h]
    simp only [hvalid]

end

/-! ## 2. Columns of the outbox -/

/-- What the worker keeps of a row. -/
structure Columns where
  publishedAt : Option Int
  attempts : Nat
  nextAttemptAt : Int
  lastError : GoString
  deriving DecidableEq

/-- A row as `CreateOrder` inserts it. -/
def Columns.created (now : Int) : Columns := ⟨none, 0, now, []⟩

/-- `MarkOrderTimeoutOutboxPublished`. -/
def Columns.published (now : Int) (c : Columns) : Columns :=
  { c with publishedAt := some now, lastError := [] }

/-- `MarkOrderTimeoutOutboxFailed`; `truncateError` cuts the text. -/
def Columns.failed (cause : GoString) (nextAttemptAt : Int) (c : Columns) : Columns :=
  { c with attempts := c.attempts + 1, lastError := truncate cause 255, nextAttemptAt }

/-! ## 3. Workers and queues -/

structure TimeoutConfig where
  outboxRetryDelay : Int
  publishBatchSize : Nat
  deriving DecidableEq

/-- Where `publishBatch` is. -/
inductive PublishPc where
  | idle
  /-- the next row is to be published -/
  | publish (event : TimeoutEvent) (rest : List TimeoutEvent)
  /-- `WaitContext` -/
  | wait (event : TimeoutEvent) (rest : List TimeoutEvent)
  | markPublished (event : TimeoutEvent) (rest : List TimeoutEvent)
  | markFailed (event : TimeoutEvent) (cause : GoString)
  deriving DecidableEq

/-- The loop of `publishBatch` goes on. -/
def PublishPc.next : List TimeoutEvent → PublishPc
  | [] => .idle
  | event :: rest => .publish event rest

/-- Where `consumeLoop` is. -/
inductive ConsumePc where
  | idle
  | reject (body : GoString)
  /-- `CancelExpiredOrder` runs, in the transaction with the number of the consumer -/
  | cancel (body : GoString) (event : TimeoutEvent)
  /-- it has committed -/
  | done (body : GoString)
  /-- it has failed -/
  | failed (body : GoString)
  deriving DecidableEq

/-- The monolith with its workers and the broker. -/
structure TimeoutSystem where
  sys : System
  clock : Int
  /-- the weights of the event ids that a row or a message has -/
  seen : List GoString
  columns : Int → Columns
  publishers : Nat → PublishPc
  channels : Confirms GoString
  consumers : Nat → ConsumePc
  delayQueue : List GoString
  cancelQueue : List GoString
  failedQueue : List GoString

/-- What can happen. -/
inductive WorkerEvent where
  | tick (elapsed : Nat)
  /-- a step of the monolith -/
  | db (e : LockEvent Request)
  /-- a worker opens a session -/
  | connect (p : Nat)
  /-- `ListPendingOrderTimeoutOutbox` -/
  | list (p : Nat) (orderIDs : List Int)
  | send (p : Nat)
  /-- the broker stores a message in the delay queue -/
  | accept (c j : Nat)
  | confirm (c j : Nat) (ack : Bool)
  /-- the broker loses a message that it has not confirmed -/
  | lose (body : GoString) (expired : Bool)
  /-- `WaitContext` returns with an answer -/
  | take (p : Nat)
  /-- `publishEvent` returns an error without an answer -/
  | fail (p : Nat) (cause : GoString)
  | markPublished (p : Nat)
  /-- the statement has its effect, or fails -/
  | markFailed (p : Nat) (stored : Bool)
  /-- the session of a publisher ends -/
  | stop (p : Nat)
  /-- a message goes from the delay queue to the cancel queue -/
  | expire (j : Nat)
  /-- somebody else publishes to the delay queue or the cancel queue -/
  | foreign (body : GoString) (expired : Bool)
  | deliver (q j : Nat)
  | reject (q : Nat)
  | ack (q : Nat)
  /-- a message is put back, by `Nack` or because the session has ended -/
  | requeue (q : Nat)

namespace TimeoutSystem

/-- The row of the order is to be published. -/
def due (s : TimeoutSystem) (orderID : Int) : Bool :=
  (DB.outboxOf s.sys.store orderID).isSome ∧ (s.columns orderID).publishedAt = none ∧
    (s.columns orderID).nextAttemptAt ≤ s.clock

/-- The events of the rows of a batch. -/
def eventsOf (s : TimeoutSystem) (orderIDs : List Int) : List TimeoutEvent :=
  orderIDs.filterMap fun id => (DB.outboxOf s.sys.store id).map (timeoutEvent id)

/-- The columns after the commit of a transaction: a new row has those it was inserted with. -/
def inserted (s : TimeoutSystem) (store : DB) : Int → Columns := fun id =>
  if DB.outboxOf s.sys.store id = none ∧ (store.outboxOf id).isSome then .created s.clock
  else s.columns id

section

variable [Collation]

/-- `UPDATE … WHERE event_id = ? AND published_at IS NULL`. -/
def mark (s : TimeoutSystem) (eventID : GoString) (f : Columns → Columns) : Int → Columns :=
  fun id =>
    if (DB.timeoutOf s.sys.store eventID id).isSome ∧ (s.columns id).publishedAt = none then
      f (s.columns id)
    else s.columns id

/-- The event id that the commit of a transaction brings in. -/
def newID (s : TimeoutSystem) (t : Nat) : Option GoString :=
  (s.sys.txn t).bind fun a =>
    match a.tag with
    | .createOrder env _ _ => some (Collation.weight env.eventID)
    | _ => none

/-- The event id of a message, if it has one. -/
def messageID [EventJson] (body : GoString) : Option GoString :=
  match decodeEvent body with
  | .ok e => some (Collation.weight e.eventID)
  | .error _ => none

/-- A step of the monolith that the workers do not take themselves. -/
def allows (s : TimeoutSystem) : LockEvent Request → Bool
  | .start _ (.cancelExpiredOrder _ _ _) => false
  | .commit t => (s.newID t).all fun id => !s.seen.contains id
  | _ => true

/-- A consumer learns of the end of its transaction. -/
def ended (s : TimeoutSystem) (e : LockEvent Request) (q : Nat) : ConsumePc :=
  match s.consumers q with
  | .cancel body event =>
    match e with
    | .commit t => if t = q then .done body else .cancel body event
    | .abort t => if t = q then .failed body else .cancel body event
    | _ => .cancel body event
  | pc => pc

/-- The ids that are in use after a step of the monolith. -/
def seenAfter (s : TimeoutSystem) : LockEvent Request → List GoString
  | .commit t => (s.newID t).toList ++ s.seen
  | _ => s.seen

/-- Replace the state of a publisher. -/
def setPublisher (s : TimeoutSystem) (p : Nat) (pc : PublishPc) : TimeoutSystem :=
  { s with publishers := Function.update s.publishers p pc }

/-- Replace the state of a consumer. -/
def setConsumer (s : TimeoutSystem) (q : Nat) (pc : ConsumePc) : TimeoutSystem :=
  { s with consumers := Function.update s.consumers q pc }

/-- The publisher is left without its session. -/
def leave (s : TimeoutSystem) (p : Nat) (pc : PublishPc) : TimeoutSystem :=
  { s.setPublisher p pc with channels := s.channels.drop p }

variable [Digest] [EventJson]

/-- The part of `publishEvent` up to the publication. -/
def send (s : TimeoutSystem) (p : Nat) : Option TimeoutSystem :=
  match s.publishers p with
  | .publish event rest =>
    match encodeEvent event with
    | .error err =>
      some (s.leave p (.markFailed event (str "encode order timeout event: " ++ err)))
    | .ok body => (s.channels.send p body).map fun channels =>
      { s.setPublisher p (.wait event rest) with channels }
  | _ => none

/-- `publishEvent` gets the answer. -/
def take (s : TimeoutSystem) (p : Nat) : Option TimeoutSystem :=
  match s.publishers p, s.channels.take p with
  | .wait event rest, some (true, channels) =>
    some { s.setPublisher p (.markPublished event rest) with channels }
  | .wait event _, some (false, channels) =>
    some { s.setPublisher p (.markFailed event (str "RabbitMQ rejected order timeout event")) with
      channels }
  | _, _ => none

/-- `publishEvent` gets no answer, or could not publish. -/
def fail (s : TimeoutSystem) (p : Nat) (cause : GoString) : Option TimeoutSystem :=
  match s.publishers p with
  | .publish event _ => some (s.leave p (.markFailed event cause))
  | .wait event _ => some (s.leave p (.markFailed event cause))
  | _ => none

/-- `consumeLoop` takes a message. -/
def deliver (s : TimeoutSystem) (q j : Nat) : Option TimeoutSystem :=
  match s.consumers q, s.cancelQueue[j]? with
  | .idle, some body =>
    match decodeEvent body with
    | .error _ => some (s.setConsumer q (.reject body))
    | .ok e =>
      (Monolith.step s.sys (.start q (.cancelExpiredOrder e.eventID e.orderID s.clock))).map
        fun sys => { s.setConsumer q (.cancel body e) with sys }
  | _, _ => none

/-- One step. -/
def step (cfg : TimeoutConfig) (s : TimeoutSystem) : WorkerEvent → Option TimeoutSystem
  | .tick elapsed => some { s with clock := s.clock + elapsed }
  | .db e =>
    if s.allows e then
      (Monolith.step s.sys e).map fun sys =>
        { s with sys, seen := s.seenAfter e, columns := s.inserted sys.store,
                 consumers := s.ended e }
    else none
  | .connect p =>
    if s.publishers p = .idle then
      (s.channels.connect p).map fun channels => { s with channels }
    else none
  | .list p orderIDs =>
    if s.publishers p = .idle ∧ (s.channels.current p).isSome ∧ orderIDs.Nodup ∧
        orderIDs.length ≤ cfg.publishBatchSize ∧ ∀ id ∈ orderIDs, s.due id then
      some (s.setPublisher p (.next (s.eventsOf orderIDs)))
    else none
  | .send p => s.send p
  | .accept c j => (s.channels.accept c j).map fun (body, channels) =>
      { s with channels, delayQueue := s.delayQueue ++ [body] }
  | .confirm c j ack => (s.channels.confirm c j ack).map fun channels => { s with channels }
  | .lose body expired =>
    (s.channels.lose body).bind fun channels =>
      if expired then
        if s.cancelQueue.contains body then
          some { s with channels, cancelQueue := s.cancelQueue.erase body }
        else none
      else if s.delayQueue.contains body then
        some { s with channels, delayQueue := s.delayQueue.erase body }
      else none
  | .take p => s.take p
  | .fail p cause => s.fail p cause
  | .markPublished p =>
    match s.publishers p with
    | .markPublished event rest =>
      some { s.setPublisher p (.next rest) with
        columns := s.mark event.eventID (.published s.clock) }
    | _ => none
  | .markFailed p stored =>
    match s.publishers p with
    | .markFailed event cause =>
      some { s.leave p .idle with
        columns := bif stored then
            s.mark event.eventID (.failed cause (s.clock + cfg.outboxRetryDelay))
          else s.columns }
    | _ => none
  | .stop p => some (s.leave p .idle)
  | .expire j =>
    match s.delayQueue[j]? with
    | some body => some { s with
        delayQueue := s.delayQueue.eraseIdx j, cancelQueue := s.cancelQueue ++ [body] }
    | none => none
  | .foreign body expired =>
    some { s with
      seen := (messageID body).toList ++ s.seen
      delayQueue := if expired then s.delayQueue else s.delayQueue ++ [body]
      cancelQueue := if expired then s.cancelQueue ++ [body] else s.cancelQueue }
  | .deliver q j => s.deliver q j
  | .reject q =>
    match s.consumers q with
    | .reject body => some { s.setConsumer q .idle with
        cancelQueue := s.cancelQueue.erase body, failedQueue := s.failedQueue ++ [body] }
    | _ => none
  | .ack q =>
    match s.consumers q with
    | .done body => some { s.setConsumer q .idle with cancelQueue := s.cancelQueue.erase body }
    | _ => none
  | .requeue q => some (s.setConsumer q .idle)

end

/-- Before anything has happened. -/
def start : TimeoutSystem where
  sys := Monolith.start
  clock := 0
  seen := []
  columns _ := .created 0
  publishers _ := .idle
  channels := .empty
  consumers _ := .idle
  delayQueue := []
  cancelQueue := []
  failedQueue := []

end TimeoutSystem

/-! ## 4. A timeout that takes its course -/

/-- The event of the order 9 of the user 7. -/
def oneEvent : TimeoutEvent := ⟨[0x65], 9, 7, 100⟩

/-- An encoding that knows this event only. -/
abbrev oneJson : EventJson where
  marshal e := if e = oneEvent then .ok [0x7B] else .error []
  decode body := if body = [0x7B] then .ok oneEvent else .error []
  decode_marshal e body h := by
    split at h
    · rename_i he
      obtain rfl := Except.ok.inj h
      rw [if_pos rfl, he]
    · cases h

/-- An order of one pen. -/
def placing : List (LockEvent Request) :=
  stocking ++ starts 1 (orderOf 9 0x6B [⟨1, 1⟩]) ++ List.replicate 17 (.stmt 1) ++ [.commit 1]

/-- Its timeout is published. -/
def publishing : List WorkerEvent :=
  placing.map .db ++
  [.connect 0, .list 0 [9], .send 0, .accept 0 0, .confirm 0 0 true, .take 0, .markPublished 0]

/-- Its time is over, and a consumer is about to commit the cancellation. -/
def expiring : List WorkerEvent :=
  publishing ++ [.expire 0, .tick 200, .deliver 5 0] ++ List.replicate 6 (.db (.stmt 5))

end OrderSystem.Monolith
