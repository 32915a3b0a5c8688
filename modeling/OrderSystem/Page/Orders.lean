/-
# The order page

`fronted/src/features/order-inventory/orders.tsx` and `order-submission.ts`: the page that sends
`POST /orders` to the order service.

`Create` finds an order by user and idempotency key and does not look at the items
(`findByIdempotency`), so that an answer is for the items of the request is up to the client.  The
page keeps the key of the submission that has not succeeded yet, with a fingerprint of its items,
and takes the key again only for the same items (`prepareOrderSubmission`).  Both halves of what a
user relies on follow, over any interleaving with the order service, the inventory and the workers,
any number of pages, lost replies, timeouts and requests that are delivered more than once:

* `page_answered` -- an order that a page reports has the quantities that were sent, which up to
  `2^53` are those that were submitted;
* `page_retries` -- submitting the same items again after a failure is the same call, and however
  often it is made there is one order for it.

JavaScript's numbers are not part of this repository (`Numbers`): `number` gives the integer that
`Number` makes of the text in a field, if it is one.  `JSON.stringify` writes the shortest decimal
that reads as the same number, so above `2^53` the service may get another integer (`written`); the
page checks `Number.isInteger` only.  From `1e21` on it writes an exponent, which no `int64` of the
service takes.  `crypto.randomUUID` is taken to give a key that was not used before (`Fresh`).  The
submit button is disabled while the mutation is pending.
-/
import OrderSystem.Listing
import OrderSystem.Metrics.Labels
import OrderSystem.Saga.Agreement
import OrderSystem.Saga.Creation

namespace OrderSystem.Page

open OrderSystem.Kit OrderSystem.OrderSvc OrderSystem.Saga

/-! ## 1. The page -/

/-- `DraftOrderItem`. -/
structure DraftOrderItem where
  productID : GoString
  quantity : GoString

/-- An integer up to which every integer is a number of JavaScript. -/
def Safe (n : Int) : Prop := -2 ^ 53 ≤ n ∧ n ≤ 2 ^ 53

/-- The numbers of JavaScript: what `Number` reads, and the integer whose digits `JSON.stringify`
writes. -/
structure Numbers where
  number : GoString → Option Int
  written : Int → Int
  written_eq : ∀ n, Safe n → written n = n

/-- The item as it is sent. -/
def Numbers.item (js : Numbers) (i : ItemRequest) : ItemRequest :=
  ⟨js.written i.productID, js.written i.quantity⟩

/-- The call as it is sent. -/
def Numbers.wire (js : Numbers) (c : CreateCall) : CreateCall :=
  { c with items := c.items.map js.item }

/-- An item in JSON, with the integers that are written. -/
def itemText (item : ItemRequest) : GoString :=
  0x7B :: str "\"product_id\":" ++ Metrics.integerText item.productID ++
    0x2C :: str "\"quantity\":" ++ Metrics.integerText item.quantity ++ [0x7D]

/-- The items, with commas between them. -/
def itemsText : List ItemRequest → GoString
  | [] => []
  | item :: rest => itemText item ++ rest.flatMap fun item => 0x2C :: itemText item

/-- `fingerprintOrder`: `JSON.stringify` of the items of a payload. -/
def fingerprintOrder (js : Numbers) (items : List ItemRequest) : GoString :=
  0x5B :: itemsText (items.map js.item) ++ [0x5D]

/-- An item can be told from what follows it. -/
theorem instant_itemText : Instant itemText := by
  have hcomma : ∀ n, (0x2C : UInt8) ∉ Metrics.integerText n := fun n h =>
    absurd (Metrics.mem_integerText h) (by decide)
  have hbrace : ∀ n, (0x7D : UInt8) ∉ Metrics.integerText n := fun n h =>
    absurd (Metrics.mem_integerText h) (by decide)
  have hpair : Function.Injective fun item : ItemRequest => (item.productID, item.quantity) := by
    rintro ⟨p, q⟩ ⟨p', q'⟩ h
    obtain ⟨rfl, rfl⟩ := Prod.mk.inj h
    rfl
  have hinj := Metrics.integerText_injective
  have hcode := (((Instant.terminated hinj hcomma).append_fixed
    (str "\"quantity\":")).prod (Instant.terminated hinj hbrace)).comp hpair
  intro item item' r s h
  refine hcode item item' r s ?_
  simp only [itemText, List.cons_append, List.append_assoc, List.cons.injEq, true_and] at h
  simpa only [List.append_assoc, List.cons_append, List.nil_append] using
    List.append_cancel_left h

theorem itemsText_injective : Function.Injective itemsText := by
  have hne : ∀ item r, itemText item ++ r ≠ [] := by simp [itemText]
  have hcomma : Instant fun item => 0x2C :: itemText item := by
    intro item item' r s h
    exact instant_itemText item item' r s (List.cons.inj h).2
  intro items items' h
  cases items with
  | nil =>
    cases items' with
    | nil => rfl
    | cons item' rest' => exact absurd h.symm (hne item' _)
  | cons item rest =>
    cases items' with
    | nil => exact absurd h (hne item _)
    | cons item' rest' =>
      obtain ⟨rfl, hrest⟩ := instant_itemText _ _ _ _ h
      rw [hcomma.flatMap_injective (fun _ => List.cons_ne_nil _ _) hrest]

/-- Items with one fingerprint are sent alike. -/
theorem items_of_fingerprint {js : Numbers} {items items' : List ItemRequest}
    (h : fingerprintOrder js items = fingerprintOrder js items') :
    items.map js.item = items'.map js.item :=
  itemsText_injective (List.append_cancel_right (List.cons.inj h).2)

/-- `PendingOrderSubmission`. -/
structure PendingOrderSubmission where
  fingerprint : GoString
  idempotencyKey : GoString

/-- `prepareOrderSubmission`. -/
def prepareOrderSubmission (js : Numbers) (items : List ItemRequest)
    (previous : Option PendingOrderSubmission) (createKey : GoString) : PendingOrderSubmission :=
  let fingerprint := fingerprintOrder js items
  match previous with
  | some p => if p.fingerprint = fingerprint then p else ⟨fingerprint, createKey⟩
  | none => ⟨fingerprint, createKey⟩

/-- A field that holds a positive integer. -/
def positiveField (js : Numbers) (text : GoString) : Option Int :=
  (js.number text).filter fun n => 0 < n

/-- `parseCreateOrderPayload`. -/
def parseCreateOrderPayload (js : Numbers) (draft : List DraftOrderItem) :
    Option (List ItemRequest) :=
  match draft.mapM fun d =>
      (positiveField js d.productID).bind fun p =>
        (positiveField js d.quantity).map fun q => ItemRequest.mk p q with
  | none => none
  | some items => if (items.map ItemRequest.productID).Nodup then some items else none

/-- The state of `OrdersPage` that a submission depends on; `mutation` is the call that
`createOrderMutation` is waiting for. -/
structure OrdersPage where
  user : Int
  pendingSubmission : Option PendingOrderSubmission
  mutation : Option CreateCall

/-! ## 2. Pages and the service -/

/-- What has happened on a page. -/
inductive Note where
  | mounted
  | submitted (c : CreateCall)
  /-- `onSuccess` -/
  | succeeded (c : CreateCall) (orderID : Nat) (order : Order)
  /-- `onError` -/
  | failed

structure Site where
  page : Nat → OrdersPage
  log : Nat → List Note
  /-- every call that a page has sent, as it was sent -/
  sent : List CreateCall
  service : Saga.State

inductive Event where
  | mount (n : Nat) (user : Int)
  | submit (n : Nat) (draft : List DraftOrderItem) (uuid : GoString)
  /-- the reply of the process `p` of the service -/
  | success (n p : Nat)
  | error (n : Nat)
  | service (e : Saga.Event)

deriving instance DecidableEq for CreateCall

/-- The call that an event of the service begins. -/
def delivered : Saga.Event → Option CreateCall
  | .spawn (.create c _) => some c
  | _ => none

namespace Site

def start : Site := ⟨fun _ => ⟨0, none, none⟩, fun _ => [], [], Saga.start⟩

/-- Replace a page and note what has happened on it. -/
def put (s : Site) (n : Nat) (page : OrdersPage) (note : Note) : Site :=
  { s with
    page := Function.update s.page n page
    log := Function.update s.log n (s.log n ++ [note]) }

/-- The order that a process has returned for a call. -/
def reply (js : Numbers) (s : Site) (p : Nat) (c : CreateCall) : Option (Nat × Order) :=
  match s.service.procs.row p with
  | some (.create c' (.returned (.ok result))) => if c' = js.wire c then some result else none
  | _ => none

section

variable [Collation]

/-- A key that was not used before. -/
def Fresh (s : Site) (uuid : GoString) : Prop :=
  IsUUID uuid ∧ ∀ c ∈ s.sent, Collation.weight c.key ≠ Collation.weight uuid

instance (s : Site) (uuid : GoString) : Decidable (s.Fresh uuid) :=
  inferInstanceAs (Decidable (_ ∧ _))

/-- A step of the service; a call of `Create` begins with the delivery of one that was sent. -/
def serve (s : Site) (e : Saga.Event) : Option Site :=
  if ∀ c ∈ delivered e, c ∈ s.sent then
    (Saga.step s.service e).map fun service => { s with service }
  else none

/-- `handleCreateOrder`. -/
def submit (js : Numbers) (delay : Int) (s : Site) (n : Nat)
    (draft : List DraftOrderItem) (uuid : GoString) : Option Site :=
  if (s.page n).mutation.isSome ∨ ¬s.Fresh uuid then none
  else
    match parseCreateOrderPayload js draft with
    | none => some s
    | some items =>
      let submission := prepareOrderSubmission js items (s.page n).pendingSubmission uuid
      let c : CreateCall := ⟨delay, (s.page n).user, submission.idempotencyKey, items⟩
      some { s.put n { s.page n with pendingSubmission := some submission, mutation := some c }
          (.submitted c) with sent := s.sent ++ [js.wire c] }

def step (js : Numbers) (delay : Int) (s : Site) : Event → Option Site
  | .mount n user => some (s.put n ⟨user, none, none⟩ .mounted)
  | .submit n draft uuid => s.submit js delay n draft uuid
  | .success n p =>
    (s.page n).mutation.bind fun c => (s.reply js p c).map fun result =>
      s.put n { s.page n with pendingSubmission := none, mutation := none }
        (.succeeded c result.1 result.2)
  | .error n =>
    (s.page n).mutation.map fun _ => s.put n { s.page n with mutation := none } .failed
  | .service e => s.serve e

end

end Site

/-- Three of product 1 are ordered; the reply comes too late, and the order is submitted again. -/
def threePens : List DraftOrderItem := [⟨str "1", str "3"⟩]

def resubmitting : List Event :=
  [.mount 0 1, .submit 0 threePens [0x6b]] ++ ordering.map .service ++
    [.error 0, .submit 0 threePens [0x71]] ++ again.map .service ++ [.success 0 2]

/-! ## 3. Keys and items -/

/-- The submission that is open after a note: it was not reported as a success. -/
def Note.after (c : Option CreateCall) : Note → Option CreateCall
  | .submitted c' => some c'
  | .failed => c
  | .mounted | .succeeded _ _ _ => none

/-- The open submission of a page. -/
def openCall (log : List Note) : Option CreateCall := log.foldl Note.after none

@[simp] theorem openCall_snoc (log : List Note) (note : Note) :
    openCall (log ++ [note]) = note.after (openCall log) := by
  rw [openCall, List.foldl_append, List.foldl_cons, List.foldl_nil, openCall]

/-- The order that a note reports. -/
def Note.reported : Note → Option (CreateCall × Nat × Order)
  | .succeeded c i o => some (c, i, o)
  | _ => none

theorem eq_of_reported {note : Note} {c : CreateCall} {i : Nat} {o : Order}
    (h : note.reported = some (c, i, o)) : note = .succeeded c i o := by
  cases note with
  | succeeded c' i' o' =>
    obtain ⟨rfl, rfl, rfl⟩ : c' = c ∧ i' = i ∧ o' = o := by simpa [Note.reported] using h
    rfl
  | mounted | submitted | failed => cases h

/-- What the page keeps of a submission. -/
def kept (js : Numbers) (c : CreateCall) : PendingOrderSubmission :=
  ⟨fingerprintOrder js c.items, c.idempotencyKey⟩

/-- Submitting the items of the open submission again is the same call. -/
def Linked (log : List Note) : Prop :=
  ∀ l c' r, log = l ++ .submitted c' :: r →
    ∀ c, openCall l = some c → c.items = c'.items → c' = c

theorem Linked.snoc {log : List Note} {note : Note} (h : Linked log)
    (hnote : ∀ c', note = .submitted c' →
      ∀ c, openCall log = some c → c.items = c'.items → c' = c) : Linked (log ++ [note]) := by
  intro l c' r hsplit
  rcases List.eq_nil_or_concat r with rfl | ⟨r', last, rfl⟩
  · obtain ⟨rfl, hlast⟩ := List.append_inj' hsplit rfl
    exact hnote c' (List.cons.inj hlast).1
  · have hinit : log ++ [note] = (l ++ .submitted c' :: r') ++ [last] := by
      rw [hsplit, List.concat_eq_append]
      simp
    exact h l c' r' (List.append_inj' hinit rfl).1

/-- What one page keeps. -/
structure PageKept (js : Numbers) (s : Site) (n : Nat) : Prop where
  pending : (s.page n).pendingSubmission = (openCall (s.log n)).map (kept js)
  sent : ∀ c, openCall (s.log n) = some c → js.wire c ∈ s.sent ∧ c.userID = (s.page n).user
  linked : Linked (s.log n)

/-- Something happens on one page; the others see nothing of it. -/
theorem pages_put {js : Numbers} {s : Site} (h : ∀ n, PageKept js s n) {n : Nat} {page : OrdersPage}
    {note : Note} (more : List CreateCall)
    (hpending : page.pendingSubmission = (note.after (openCall (s.log n))).map (kept js))
    (hsent : ∀ c, note.after (openCall (s.log n)) = some c →
      js.wire c ∈ s.sent ++ more ∧ c.userID = page.user)
    (hlinked : Linked (s.log n ++ [note])) (m : Nat) :
    PageKept js { s.put n page note with sent := s.sent ++ more } m := by
  by_cases hm : m = n
  · subst hm
    refine ⟨?_, fun c hc => ?_, ?_⟩
    · simpa only [Site.put, Function.update_self, openCall_snoc] using hpending
    · simp only [Site.put, Function.update_self, openCall_snoc] at hc ⊢
      exact hsent c hc
    · simpa only [Site.put, Function.update_self] using hlinked
  · have hother := h m
    refine ⟨?_, fun c hc => ?_, ?_⟩
    · simpa only [Site.put, Function.update_of_ne hm] using hother.pending
    · simp only [Site.put, Function.update_of_ne hm] at hc ⊢
      exact ⟨List.mem_append_left _ (hother.sent c hc).1, (hother.sent c hc).2⟩
    · simpa only [Site.put, Function.update_of_ne hm] using hother.linked

section

variable [Collation]

/-- **What every run keeps**: calls with one user and key are one call. -/
structure Kept (js : Numbers) (delay : Int) (s : Site) : Prop where
  pages : ∀ n, PageKept js s n
  agree : ∀ c ∈ s.sent, ∀ c' ∈ s.sent, SameKey c c' → c = c'
  trimmed : ∀ c ∈ s.sent, c.key = c.idempotencyKey ∧ c.timeoutDelay = delay

theorem kept_start (js : Numbers) (delay : Int) : Kept js delay Site.start where
  pages n := {
    pending := rfl
    sent := fun c hc => by cases hc
    linked := fun l c' r h => absurd h (by simp [Site.start]) }
  agree c hc := by cases hc
  trimmed c hc := by cases hc

variable {js : Numbers} {delay : Int} {s s' : Site} {n : Nat} {e : Event}
  {es : List Event}

/-- A note that is no submission. -/
theorem Kept.put (h : Kept js delay s) {page : OrdersPage} {note : Note}
    (hpending : page.pendingSubmission = (note.after (openCall (s.log n))).map (kept js))
    (hsent : ∀ c, note.after (openCall (s.log n)) = some c →
      js.wire c ∈ s.sent ∧ c.userID = page.user)
    (hnote : ∀ c, note ≠ .submitted c) : Kept js delay (s.put n page note) where
  pages m := by
    have hpages := pages_put h.pages [] hpending (by simpa using hsent)
      ((h.pages n).linked.snoc fun c' hc' => absurd hc' (hnote c')) m
    rw [List.append_nil] at hpages
    exact hpages
  agree := h.agree
  trimmed := h.trimmed

/-- A call is sent that was sent before, or that has a new key. -/
theorem Kept.send (h : Kept js delay s) {page : OrdersPage} {c : CreateCall}
    (hpending : page.pendingSubmission = some (kept js c)) (huser : c.userID = page.user)
    (hlinked : ∀ c', openCall (s.log n) = some c' → c'.items = c.items → c = c')
    (hcall : js.wire c ∈ s.sent ∨ (∀ c' ∈ s.sent, ¬SameKey c c') ∧ c.key = c.idempotencyKey ∧
      c.timeoutDelay = delay) :
    Kept js delay { s.put n page (.submitted c) with sent := s.sent ++ [js.wire c] } where
  pages := by
    refine pages_put h.pages [js.wire c] hpending ?_ ((h.pages n).linked.snoc ?_)
    · intro c' hc'
      obtain rfl := Option.some.inj hc'
      exact ⟨by simp, huser⟩
    · intro c' hc'
      obtain rfl := Note.submitted.inj hc'
      exact hlinked
  agree := by
    intro c₁ h₁ c₂ h₂ hkey
    rcases hcall with hmem | ⟨hnew, -⟩
    · have hsent : ∀ c' ∈ s.sent ++ [js.wire c], c' ∈ s.sent := by
        intro c' hc'
        rcases List.mem_append.mp hc' with hc' | hc'
        · exact hc'
        · rw [List.mem_singleton.mp hc']
          exact hmem
      exact h.agree c₁ (hsent c₁ h₁) c₂ (hsent c₂ h₂) hkey
    · rcases List.mem_append.mp h₁ with h₁ | h₁ <;> rcases List.mem_append.mp h₂ with h₂ | h₂
      · exact h.agree c₁ h₁ c₂ h₂ hkey
      · rw [List.mem_singleton.mp h₂] at hkey
        exact absurd ⟨hkey.1.symm, hkey.2.symm⟩ (hnew c₁ h₁)
      · rw [List.mem_singleton.mp h₁] at hkey
        exact absurd hkey (hnew c₂ h₂)
      · rw [List.mem_singleton.mp h₁, List.mem_singleton.mp h₂]
  trimmed := by
    intro c' hc'
    rcases List.mem_append.mp hc' with hc' | hc'
    · exact h.trimmed c' hc'
    · rw [List.mem_singleton.mp hc']
      rcases hcall with hmem | ⟨-, htrimmed⟩
      · exact h.trimmed _ hmem
      · exact htrimmed

omit [Collation] in
/-- **A submission.**  Either it is sent as the open one was, or its key is new. -/
theorem submission_cases (h : PageKept js s n) (items : List ItemRequest) (uuid : GoString) :
    (∃ c, openCall (s.log n) = some c ∧ c.items.map js.item = items.map js.item ∧
      prepareOrderSubmission js items (s.page n).pendingSubmission uuid =
        ⟨fingerprintOrder js items, c.idempotencyKey⟩) ∨
    ((∀ c, openCall (s.log n) = some c → c.items ≠ items) ∧
      prepareOrderSubmission js items (s.page n).pendingSubmission uuid =
        ⟨fingerprintOrder js items, uuid⟩) := by
  unfold prepareOrderSubmission
  rw [h.pending]
  cases hopen : openCall (s.log n) with
  | none => exact Or.inr ⟨fun c hc => (by cases hc), rfl⟩
  | some c =>
    simp only [Option.map_some, kept]
    split
    · rename_i hprint
      exact Or.inl ⟨c, rfl, items_of_fingerprint hprint, by rw [hprint]⟩
    · rename_i hprint
      refine Or.inr ⟨fun c' hc' hitems => hprint ?_, rfl⟩
      obtain rfl := Option.some.inj hc'
      rw [hitems]

theorem Kept.submit (h : Kept js delay s) {draft : List DraftOrderItem} {uuid : GoString}
    (hs : s.submit js delay n draft uuid = some s') : Kept js delay s' := by
  unfold Site.submit at hs
  split at hs
  · cases hs
  · rename_i hguard
    obtain ⟨-, hfresh⟩ := not_or.mp hguard
    obtain ⟨huuid, hfresh⟩ := Decidable.not_not.mp hfresh
    split at hs
    · obtain rfl := Option.some.inj hs
      exact h
    · rename_i items hitems
      simp only at hs
      obtain rfl := Option.some.inj hs
      rcases submission_cases (h.pages n) items uuid with ⟨c₀, hopen, hsame, hsub⟩ | ⟨hnew, hsub⟩
      · obtain ⟨hsent, huser⟩ := (h.pages n).sent c₀ hopen
        obtain rfl : c₀.timeoutDelay = delay := (h.trimmed _ hsent).2
        rw [hsub, ← huser]
        refine h.send rfl rfl (fun c' hc' hitems' => ?_) (Or.inl ?_)
        · obtain rfl := Option.some.inj (hopen.symm.trans hc')
          have hitems' : c₀.items = items := hitems'
          rw [← hitems']
        · rw [Numbers.wire, hsame] at hsent
          exact hsent
      · rw [hsub]
        refine h.send rfl rfl (fun c' hc' hitems' => absurd hitems' (hnew c' hc'))
          (Or.inr ⟨fun c' hc' hkey => ?_, huuid.2, rfl⟩)
        -- the key of the new call is the new one, which no other call has
        refine hfresh c' hc' (hkey.2.symm.trans ?_)
        rw [CreateCall.key, huuid.2]

theorem Kept.step (h : Kept js delay s) (hs : s.step js delay e = some s') : Kept js delay s' := by
  cases e with
  | mount n user =>
    obtain rfl := Option.some.inj hs
    exact h.put rfl (fun c hc => by cases hc) fun c hc => by cases hc
  | submit n draft uuid => exact h.submit hs
  | success n p =>
    obtain ⟨c, hc, hs⟩ := Option.bind_eq_some_iff.mp hs
    obtain ⟨result, hresult, rfl⟩ := Option.map_eq_some_iff.mp hs
    exact h.put rfl (fun c hc => by cases hc) fun c hc => by cases hc
  | error n =>
    obtain ⟨c, hc, rfl⟩ := Option.map_eq_some_iff.mp hs
    exact h.put (h.pages n).pending (h.pages n).sent fun c hc => by cases hc
  | service e =>
    simp only [Site.step, Site.serve] at hs
    split at hs
    · obtain ⟨service, hservice, rfl⟩ := Option.map_eq_some_iff.mp hs
      exact ⟨fun n => ⟨(h.pages n).pending, (h.pages n).sent, (h.pages n).linked⟩, h.agree,
        h.trimmed⟩
    · cases hs

theorem kept_run (h : run (Site.step js delay) Site.start es = some s) : Kept js delay s :=
  run_invariant (I := Kept js delay) (fun _ _ _ hI hs => hI.step hs) (kept_start js delay) h

/-! ## 4. Orders and items -/

/-- What a step can do to the calls, the logs and the service. -/
inductive Effect (js : Numbers) (s : Site) : Event → Site → Prop
  | idle (e : Event) (he : ∀ ev, e ≠ .service ev) : Effect js s e s
  /-- something is noted on a page; an order is reported that a process has returned -/
  | noted (e : Event) (he : ∀ ev, e ≠ .service ev) (n : Nat) (page : OrdersPage) (note : Note)
      (more : List CreateCall)
      (h : ∀ c i o, note = .succeeded c i o →
        ∃ p, s.service.At p (.create (js.wire c) (.returned (.ok (i, o))))) :
      Effect js s e { s.put n page note with sent := s.sent ++ more }
  | served (ev : Saga.Event) (service : Saga.State) (hsent : ∀ c ∈ delivered ev, c ∈ s.sent)
      (h : Saga.step s.service ev = some service) : Effect js s (.service ev) { s with service }

/-- Something is noted that sends nothing. -/
theorem effect_put (he : ∀ ev, e ≠ .service ev) (page : OrdersPage) (note : Note)
    (h : ∀ c i o, note = .succeeded c i o →
      ∃ p, s.service.At p (.create (js.wire c) (.returned (.ok (i, o))))) :
    Effect js s e (s.put n page note) := by
  have heffect : Effect js s e { s.put n page note with sent := s.sent ++ [] } :=
    .noted e he n page note [] h
  rw [List.append_nil] at heffect
  exact heffect

theorem effect_of_step (hs : s.step js delay e = some s') : Effect js s e s' := by
  cases e with
  | mount n user =>
    obtain rfl := Option.some.inj hs
    exact effect_put (fun _ he => by cases he) _ _ fun c i o hc => by cases hc
  | submit n draft uuid =>
    simp only [Site.step, Site.submit] at hs
    split at hs
    · cases hs
    · split at hs
      · obtain rfl := Option.some.inj hs
        exact .idle _ fun _ he => by cases he
      · obtain rfl := Option.some.inj hs
        exact .noted _ (fun _ he => by cases he) n _ (.submitted _) [_] fun c i o hc => by cases hc
  | success n p =>
    obtain ⟨c, hc, hs⟩ := Option.bind_eq_some_iff.mp hs
    obtain ⟨result, hresult, rfl⟩ := Option.map_eq_some_iff.mp hs
    refine effect_put (fun _ he => by cases he) _ _ ?_
    rintro c' i o heq
    obtain ⟨rfl, rfl, rfl⟩ := Note.succeeded.inj heq
    unfold Site.reply at hresult
    split at hresult
    · rename_i c' result' hp
      obtain ⟨rfl, heq'⟩ := Option.ite_none_right_eq_some.mp hresult
      obtain rfl := Option.some.inj heq'
      exact ⟨p, hp⟩
    · cases hresult
  | error n =>
    obtain ⟨c, hc, rfl⟩ := Option.map_eq_some_iff.mp hs
    exact effect_put (fun _ he => by cases he) _ _ fun c i o hc => by cases hc
  | service e =>
    simp only [Site.step, Site.serve] at hs
    split at hs
    · rename_i hsent
      obtain ⟨service, hservice, rfl⟩ := Option.map_eq_some_iff.mp hs
      exact .served e service hsent hservice
    · cases hs

/-- What was sent stays sent. -/
theorem sent_step (hs : s.step js delay e = some s') : s.sent ⊆ s'.sent := by
  cases effect_of_step hs with
  | idle => exact List.Subset.refl _
  | noted => exact List.subset_append_left _ _
  | served => exact List.Subset.refl _

theorem sent_run (h : run (Site.step js delay) s es = some s') : s.sent ⊆ s'.sent :=
  run_relation_of (C := fun _ _ => True) (I := fun _ => True) (R := fun s s' => s.sent ⊆ s'.sent)
    (fun _ _ _ _ _ _ => trivial) (fun _ => List.Subset.refl _)
    (fun _ _ _ _ _ _ hs hR => List.Subset.trans hR (sent_step hs)) trivial (meets_true _ _) h

theorem known_of_run (h : run (Site.step js delay) Site.start es = some s) :
    Known s.service := by
  refine run_invariant (I := fun t : Site => Known t.service) ?_ known_start h
  intro t e t' hK ht
  cases effect_of_step ht with
  | idle => exact hK
  | noted => exact hK
  | served ev service hsent hservice => exact hK.step hservice

/-- What a step of the service may be. -/
def Fair (content : Content) : Event → Prop
  | .service e => Consistent content e
  | _ => True

/-- The orders of the service, and those that were reported, have the quantities agreed on. -/
structure Answered (js : Numbers) (content : Content) (s : Site) : Prop where
  known : Known s.service
  filled : Filled content s.service
  reported : ∀ n c i o, .succeeded c i o ∈ s.log n →
    ∀ x, itemSum o.items x = wrap64 (lineSum (js.wire c).items x)

theorem Answered.step {content : Content} (h : Answered js content s) (hfair : Fair content e)
    (hs : s.step js delay e = some s') :
    Answered js content s' := by
  cases effect_of_step hs with
  | idle => exact h
  | noted _ _ n page note more hnote =>
    refine ⟨h.known, h.filled, fun m c i o hm x => ?_⟩
    simp only [Site.put, Function.update_apply] at hm
    split at hm
    · rcases List.mem_append.mp hm with hm | hm
      · exact h.reported n c i o hm x
      · obtain ⟨p, hp⟩ := hnote c i o (List.mem_singleton.mp hm).symm
        exact h.filled.results p _ i o hp x
    · exact h.reported m c i o hm x
  | served ev service hsent hservice =>
    exact ⟨h.known.step hservice, h.filled.step h.known hfair hservice, h.reported⟩

/-- **The orders of a run have the quantities that were submitted.** -/
theorem answered_run (h : run (Site.step js delay) Site.start es = some s)
    (hcat : ∀ p catalog uuid, .service (.act p (.resolve catalog uuid)) ∈ es → Honest catalog) :
    ∃ content, Answered js content s := by
  have hK := kept_run h
  obtain ⟨content, hcontent⟩ := exists_content (fun c => c ∈ s.sent)
    (fun c c' hc hc' hkey x => by rw [hK.agree c hc c' hc' hkey])
  refine ⟨content, run_invariant_of (C := fun _ e => Fair content e) (I := Answered js content)
    (fun _ _ _ hI hC hs => hI.step hC hs)
    ⟨known_start, filled_start content, fun n c i o hn => by cases hn⟩ ?_ h⟩
  -- a call that is delivered was sent, by the end of the run at the latest
  refine meets_of_run h fun t e t' fs he ht hrest => ?_
  cases effect_of_step ht with
  | idle _ hno | noted _ hno =>
    cases e with
    | service ev => exact absurd rfl (hno ev)
    | mount | submit | success | error => trivial
  | served ev service hsent hservice =>
    refine ⟨fun c pc hc => hcontent c ?_, fun p catalog uuid hr => hcat p catalog uuid (hr ▸ he)⟩
    exact sent_run hrest (hsent c (by rw [hc]; rfl))

/-- **A page is answered for what it asked.**  In every run of the pages, the order service, the
inventory and the workers in which the catalog answers with the product it was asked for: the
order that a page reports as created has, of every product, the quantity that was sent, as long as
the quantities fit in an `int64`; and that is the quantity that was submitted, as long as ids and
quantities are within `2^53`. -/
theorem page_answered (js : Numbers) (delay : Int) (es : List Event) (s : Site)
    (h : run (Site.step js delay) Site.start es = some s)
    (hcat : ∀ p catalog uuid, .service (.act p (.resolve catalog uuid)) ∈ es → Honest catalog)
    (n : Nat) (c : CreateCall) (i : Nat) (o : Order) (hreported : .succeeded c i o ∈ s.log n)
    (hfit : ∀ x, InBigint (lineSum (js.wire c).items x)) (x : Int) :
    itemSum o.items x = lineSum (js.wire c).items x ∧
      ((∀ i ∈ c.items, Safe i.productID ∧ Safe i.quantity) →
        itemSum o.items x = lineSum c.items x) := by
  obtain ⟨content, hA⟩ := answered_run h hcat
  have hsent : itemSum o.items x = lineSum (js.wire c).items x := by
    rw [hA.reported n c i o hreported x, wrap64_eq (hfit x)]
  refine ⟨hsent, fun hsafe => ?_⟩
  have hsame : c.items.map js.item = c.items := by
    refine (List.map_congr_left fun i hi => ?_).trans (List.map_id _)
    rw [Numbers.item, js.written_eq _ (hsafe i hi).1, js.written_eq _ (hsafe i hi).2]
    rfl
  rw [hsent, Numbers.wire, hsame]

/-- Numbers that are read by `Atoi` and written as they are. -/
def plainNumbers : Numbers := ⟨atoi, fun n => n, fun _ _ => rfl⟩

omit [Collation] in
theorem page_answered_resubmitting :
    letI := asciiCi
    ∃ s c i o, run (Site.step plainNumbers 30) Site.start resubmitting = some s ∧
      .succeeded c i o ∈ s.log 0 ∧ itemSum o.items 1 = lineSum c.items 1 := by
  let _ : Collation := asciiCi
  have h : (run (Site.step plainNumbers 30) Site.start resubmitting).bind (fun s =>
      (s.log 0).getLast?.bind fun note => note.reported.map fun r => r.1.items) =
      some [⟨1, 3⟩] := by decide +kernel
  obtain ⟨s, hs, h⟩ := Option.bind_eq_some_iff.mp h
  obtain ⟨note, hlast, h⟩ := Option.bind_eq_some_iff.mp h
  obtain ⟨⟨c, i, o⟩, hnote, hitems⟩ := Option.map_eq_some_iff.mp h
  have hmem : .succeeded c i o ∈ s.log 0 := by
    rw [← eq_of_reported hnote]
    exact List.mem_of_getLast? hlast
  have hwire : (plainNumbers.wire c).items = c.items := List.map_id _
  refine ⟨s, c, i, o, hs, hmem, hwire ▸ (page_answered plainNumbers 30 resubmitting s hs ?_ 0 c i o
    hmem ?_ 1).1⟩
  · intro p catalog uuid hr x product hx
    simp only [resubmitting, ordering, again, List.map_cons, List.map_nil, List.cons_append,
      List.nil_append, List.mem_cons, List.not_mem_nil, Event.service.injEq, RpcEvent.act.injEq,
      Choice.resolve.injEq, reduceCtorEq, and_false, or_false, false_or] at hr
    rw [hr.2.1] at hx
    exact congrArg CatalogProduct.id (Except.ok.inj hx).symm
  · intro x
    rw [hwire, show c.items = [⟨1, 3⟩] from hitems, lineSum_cons, lineSum_nil, add_zero]
    split <;> decide

/-! ## 5. Retries -/

/-- Nothing but failures of submissions with these items. -/
def Retrying (items : List ItemRequest) : Note → Prop
  | .failed => True
  | .submitted c => c.items = items
  | _ => False

omit [Collation] in
/-- While the same items fail, the open submission stays. -/
theorem openCall_retrying {log : List Note} (hlinked : Linked log) {l₁ l₂ r : List Note}
    {c : CreateCall} (hlog : log = l₁ ++ .submitted c :: l₂ ++ r)
    (hretry : ∀ note ∈ l₂, Retrying c.items note) :
    openCall (l₁ ++ .submitted c :: l₂) = some c := by
  induction l₂ using List.reverseRecOn generalizing r with
  | nil => simp [Note.after]
  | append_singleton l₂ note ih =>
    have hlog' : log = l₁ ++ .submitted c :: l₂ ++ note :: r := by
      rw [hlog]
      simp
    have hopen := ih hlog' fun note' hnote' => hretry note' (by simp [hnote'])
    have hsnoc : l₁ ++ Note.submitted c :: (l₂ ++ [note])
        = (l₁ ++ .submitted c :: l₂) ++ [note] := by simp
    rw [hsnoc, openCall_snoc, hopen]
    cases note with
    | failed => rfl
    | submitted c' =>
      have hitems : c'.items = c.items := hretry (.submitted c') (by simp)
      rw [hlinked _ c' r hlog' c hopen hitems.symm]
      rfl
    | mounted => exact (hretry .mounted (by simp)).elim
    | succeeded c' i o => exact (hretry (.succeeded c' i o) (by simp)).elim

/-- **Retrying makes one order.**  In every run: when a page submits the items of an earlier
submission again, and since then there was nothing but failures of submissions with these items,
it makes the same call again; and however often a call was made, delivered and answered, there is
one order for it. -/
theorem page_retries (js : Numbers) (delay : Int) (es : List Event) (s : Site)
    (h : run (Site.step js delay) Site.start es = some s) (n : Nat) (l₁ l₂ l₃ : List Note)
    (c c' : CreateCall)
    (hlog : s.log n = l₁ ++ .submitted c :: l₂ ++ .submitted c' :: l₃)
    (hretry : ∀ note ∈ l₂, Retrying c.items note) (hitems : c'.items = c.items) :
    c' = c ∧ ∀ i j o o', s.service.store.db.orders.row i = some o →
      s.service.store.db.orders.row j = some o' →
      HasKey c.userID c.key o → HasKey c.userID c.key o' → i = j := by
  have hlinked := ((kept_run h).pages n).linked
  have hopen := openCall_retrying hlinked hlog hretry
  refine ⟨hlinked _ c' l₃ hlog c hopen hitems.symm, fun i j o o' ho ho' hkey hkey' => ?_⟩
  exact (known_of_run h).wired.hasKey_unique ho ho' hkey hkey'

end

/-- The submission or failure that a note tells of. -/
def Note.attempt : Note → Option (Option CreateCall)
  | .submitted c => some (some c)
  | .failed => some none
  | _ => none

theorem eq_of_attempt {note : Note} {c : Option CreateCall} (h : note.attempt = some c) :
    note = c.elim .failed .submitted := by
  cases note with
  | submitted c' | failed =>
    obtain rfl := Option.some.inj h
    rfl
  | mounted | succeeded => cases h

theorem page_retries_resubmitting :
    letI := asciiCi
    ∃ (s : Site) (l₁ l₃ : List Note) (c c' : CreateCall),
      run (Site.step plainNumbers 30) Site.start resubmitting = some s ∧
      s.log 0 = l₁ ++ .submitted c :: [.failed] ++ .submitted c' :: l₃ ∧ c' = c := by
  let _ : Collation := asciiCi
  have h : (run (Site.step plainNumbers 30) Site.start resubmitting).map (fun s =>
      (s.log 0).map Note.attempt) =
      some [none, some (some ⟨30, 1, [0x6b], [⟨1, 3⟩]⟩), some none,
        some (some ⟨30, 1, [0x6b], [⟨1, 3⟩]⟩), none] := by decide +kernel
  obtain ⟨s, hs, h⟩ := Option.map_eq_some_iff.mp h
  obtain ⟨n₀, l₀, hlog, -, h⟩ := List.map_eq_cons_iff.mp h
  obtain ⟨n₁, l₁, rfl, hn₁, h⟩ := List.map_eq_cons_iff.mp h
  obtain ⟨n₂, l₂, rfl, hn₂, h⟩ := List.map_eq_cons_iff.mp h
  obtain ⟨n₃, l₃, rfl, hn₃, h⟩ := List.map_eq_cons_iff.mp h
  rw [eq_of_attempt hn₁, eq_of_attempt hn₂, eq_of_attempt hn₃] at hlog
  exact ⟨s, [n₀], l₃, _, _, hs, hlog, (page_retries plainNumbers 30 resubmitting s hs 0 [n₀]
    [.failed] l₃ _ _ hlog (by simp [Retrying]) rfl).1⟩

end OrderSystem.Page
