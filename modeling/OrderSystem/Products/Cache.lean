/-
# Products and their cache

`internal/service/product_service.go` over `internal/bizcache/product_cache.go`: the monolith keeps
the details of a product in Redis for ten minutes.  `GetProductByID` looks there first, and on a
miss reads the row and puts it into Redis; `OnSaleProduct` and `OffSaleProduct` change the status
and then delete the entry.  What Redis answers is never an error of the request.

Any number of calls run at once, each in the steps of its function, and in between

* a command to Redis takes effect, or does not, or its client gives up on it and it takes effect
  later (`Sent`); an entry may be evicted;
* a statement may fail, and an `UPDATE` may fail after it has taken effect (`Written`), in which
  case `OnSaleProduct` returns an error and deletes nothing;
* a call may end without an answer (`crash`).

The cache is therefore not coherent: between the `SELECT` of a reader and its `SET`, a writer can
change the row and delete the entry.  `Kit/CacheAside.lean` says what is left, and here it is for
the answers of `GetProductByID`:

* `product_answer_fresh` -- an answer is right but for the status and the time of the last change,
  and these are as they were at a moment during the call, or at one after which the entry was
  written that the call has found, at most ten minutes before;
* `product_answer_current` -- after a deletion that no reader straddles, every answer is the row,
  until the row changes.

Times are in milliseconds, as the columns of type `datetime(3)` have them, and there is one clock.
`encoding/json` on a `Product` reads back what it wrote (`ProductJson`).
-/
import OrderSystem.Kit.CacheAside
import OrderSystem.Metrics.Labels
import Mathlib.Logic.Function.Basic

namespace OrderSystem.Products

open OrderSystem.Kit

/-! ## 1. Rows -/

inductive ProductStatus where
  | onSale
  | offSale
  deriving DecidableEq

structure Product where
  id : Int
  name : GoString
  description : GoString
  priceFen : Int
  status : ProductStatus
  createdAt : Int
  updatedAt : Int
  deriving DecidableEq

/-- The table `products`: a row is found by its id, and ids are not used twice. -/
structure Rows where
  row : Int → Option Product
  nextID : Int
  filed : ∀ id p, row id = some p → p.id = id ∧ id < nextID

/-- `dao.CreateProduct`; the id is generated. -/
def Rows.insert (rows : Rows) (p : Product) : Rows where
  row := Function.update rows.row rows.nextID (some { p with id := rows.nextID })
  nextID := rows.nextID + 1
  filed id q hq := by
    by_cases h : id = rows.nextID
    · subst h
      rw [Function.update_self] at hq
      obtain rfl := Option.some.inj hq
      exact ⟨rfl, by omega⟩
    · rw [Function.update_of_ne h] at hq
      obtain ⟨hid, hlt⟩ := rows.filed id q hq
      exact ⟨hid, by omega⟩

/-- `dao.UpdateProductStatus`, which sets `updated_at`, too. -/
def Rows.updateProductStatus (rows : Rows) (id : Int) (status : ProductStatus) (now : Int) :
    Rows where
  row := Function.update rows.row id
    ((rows.row id).map fun p => { p with status, updatedAt := now })
  nextID := rows.nextID
  filed id' q hq := by
    by_cases h : id' = id
    · subst h
      rw [Function.update_self] at hq
      obtain ⟨p, hp, rfl⟩ := Option.map_eq_some_iff.mp hq
      exact rows.filed id' p hp
    · rw [Function.update_of_ne h] at hq
      exact rows.filed id' q hq

/-! ## 2. Calls -/

structure CreateProductRequest where
  name : GoString
  description : GoString
  priceFen : Int
  deriving DecidableEq

inductive Call where
  | createProduct (req : CreateProductRequest)
  | getProductByID (id : Int)
  | setStatus (status : ProductStatus) (id : Int)
  deriving DecidableEq

def onSaleProduct (id : Int) : Call := .setStatus .onSale id

def offSaleProduct (id : Int) : Call := .setStatus .offSale id

inductive ServiceError where
  | invalidProductPrice
  | invalidProductName
  | invalidProductDescription
  | productNotFound
  | productOnSaleFailed
  | productOffSaleFailed
  /-- an error of the database -/
  | database
  deriving DecidableEq

/-- What a change of the status that failed returns. -/
def ProductStatus.failed : ProductStatus → ServiceError
  | .onSale => .productOnSaleFailed
  | .offSale => .productOffSaleFailed

inductive Result where
  | product (p : Product)
  | done
  | failed (err : ServiceError)
  deriving DecidableEq

/-- `CreateProduct` up to the insertion; the id is set there. -/
def newProduct (req : CreateProductRequest) (now : Int) : Except ServiceError Product :=
  let name := trimSpace req.name
  let description := trimSpace req.description
  if req.priceFen ≤ 0 then .error .invalidProductPrice
  else if name = [] then .error .invalidProductName
  else if 500 < description.length then .error .invalidProductDescription
  else .ok ⟨0, name, description, req.priceFen, .offSale, now, now⟩

/-- The columns `name` and `description` have room for the texts. -/
def Product.fits (p : Product) : Bool :=
  decide (charCount p.name ≤ 100 ∧ charCount p.description ≤ 500)

/-- Where a call is. -/
inductive Pc where
  | idle
  /-- `GetProductDetail` -/
  | lookup (id : Int)
  /-- `dao.GetProductByID` after a miss -/
  | load (id : Int)
  /-- `SetProductDetail`; the product is the answer -/
  | store (product : Product)
  /-- `dao.CreateProduct` -/
  | insert (req : CreateProductRequest)
  /-- `dao.GetProductByID` before a change of the status -/
  | check (status : ProductStatus) (id : Int)
  | update (status : ProductStatus) (id : Int)
  /-- `DeleteProductDetailCache` -/
  | drop (status : ProductStatus) (id : Int)
  deriving DecidableEq

def Call.start : Call → Pc
  | .createProduct req => .insert req
  | .getProductByID id => .lookup id
  | .setStatus status id => .check status id

/-- A call that was answered. -/
structure Answer where
  call : Call
  /-- when the call began -/
  began : Int
  result : Result
  deriving DecidableEq

/-! ## 3. Redis -/

/-- `ProductDetailCacheTTL`. -/
def productDetailCacheTTL : Int := 10 * 60 * 1000

def productDetailCacheKey (productID : Int) : GoString :=
  str "product:detail:" ++ Metrics.integerText productID

theorem productDetailCacheKey_injective : Function.Injective productDetailCacheKey := by
  intro id id' h
  exact Metrics.integerText_injective (List.append_cancel_left h)

/-- `encoding/json` on a `Product`. -/
class ProductJson where
  marshal : Product → Option GoString
  unmarshal : GoString → Option Product
  unmarshal_marshal : ∀ p data, marshal p = some data → unmarshal data = some p

inductive Command where
  | set (key data : GoString)
  | del (key : GoString)
  deriving DecidableEq

/-- What becomes of a command. -/
inductive Sent where
  | applied
  /-- the client gives up, and the command may still take effect -/
  | late
  | lost
  deriving DecidableEq

/-- What becomes of an `INSERT` or an `UPDATE`. -/
inductive Written where
  | acknowledged
  /-- it takes effect, and the client gets an error -/
  | unknown
  | refused
  deriving DecidableEq

structure System where
  clock : Int
  rows : Rows
  /-- the entries, with the time up to which they are there -/
  redis : GoString → Option (GoString × Int)
  /-- commands that nobody waits for any more -/
  inflight : List Command
  calls : Nat → Pc
  began : Nat → Int
  answers : List Answer

inductive Event where
  | tick (elapsed : Nat)
  | call (t : Nat) (c : Call)
  /-- `GetProductDetail`; Redis may fail -/
  | lookup (t : Nat) (reached : Bool)
  /-- a `SELECT` -/
  | select (t : Nat) (ok : Bool)
  /-- an `INSERT` or an `UPDATE` -/
  | write (t : Nat) (written : Written)
  /-- the last command of a call -/
  | command (t : Nat) (sent : Sent)
  /-- a command takes effect that nobody waits for -/
  | apply (j : Nat)
  | evict (key : GoString)
  | crash (t : Nat)
  deriving DecidableEq

namespace System

/-- Nothing is going on, and Redis is empty. -/
def start (rows : Rows) : System where
  clock := 0
  rows := rows
  redis _ := none
  inflight := []
  calls _ := .idle
  began _ := 0
  answers := []

def goto (s : System) (t : Nat) (pc : Pc) : System :=
  { s with calls := Function.update s.calls t pc }

/-- The call returns. -/
def answer (s : System) (t : Nat) (call : Call) (result : Result) : System :=
  { s.goto t .idle with answers := s.answers ++ [⟨call, s.began t, result⟩] }

/-- A command takes effect. -/
def perform (s : System) (c : Command) : System :=
  { s with redis :=
      match c with
      | .set key data =>
        Function.update s.redis key (some (data, s.clock + productDetailCacheTTL))
      | .del key => Function.update s.redis key none }

/-- A command is sent, if there is one. -/
def send (s : System) (sent : Sent) : Option Command → System
  | none => s
  | some c =>
    match sent with
    | .applied => s.perform c
    | .late => { s with inflight := s.inflight ++ [c] }
    | .lost => s

variable [ProductJson] (redisClient : Bool)

/-- What Redis has under a key, with its time, as a product. -/
def entry (s : System) (productID : Int) : Option (Product × Int) :=
  (s.redis (productDetailCacheKey productID)).bind fun (data, expires) =>
    (ProductJson.unmarshal data).map fun p => (p, expires)

/-- `GetProductDetail`, with a client or without, when Redis can be reached. -/
def getProductDetail (s : System) (productID : Int) : Option Product :=
  if redisClient then
    (s.entry productID).bind fun (p, expires) => if s.clock ≤ expires then some p else none
  else none

end System

/-- The command of `SetProductDetail`. -/
def setProductDetail [ProductJson] (redisClient : Bool) (product : Product) : Option Command :=
  if redisClient then
    (ProductJson.marshal product).map fun data => .set (productDetailCacheKey product.id) data
  else none

/-- The command of `DeleteProductDetailCache`. -/
def deleteProductDetailCache (redisClient : Bool) (productID : Int) : Option Command :=
  if redisClient then some (.del (productDetailCacheKey productID)) else none

/-! ## 4. The service -/

namespace System

/-- `GetProductByID` with what the cache gave. -/
def lookedUp (s : System) (t : Nat) (id : Int) : Option Product → System
  | some p => s.answer t (.getProductByID id) (.product p)
  | none => s.goto t (.load id)

/-- The `SELECT` of a call. -/
def selected (s : System) (t : Nat) (ok : Bool) : Option System :=
  match s.calls t with
  | .load id =>
    if ok then
      match s.rows.row id with
      | some p => some (s.goto t (.store p))
      | none => some (s.answer t (.getProductByID id) (.failed .productNotFound))
    else some (s.answer t (.getProductByID id) (.failed .database))
  | .check status id =>
    if ok then
      match s.rows.row id with
      | none => some (s.answer t (.setStatus status id) (.failed .productNotFound))
      | some p =>
        if p.status = status then some (s.answer t (.setStatus status id) .done)
        else some (s.goto t (.update status p.id))
    else some (s.answer t (.setStatus status id) (.failed .database))
  | _ => none

/-- The `INSERT` or the `UPDATE` of a call. -/
def wrote (s : System) (t : Nat) (written : Written) : Option System :=
  match s.calls t with
  | .insert req =>
    match newProduct req s.clock with
    | .error err => some (s.answer t (.createProduct req) (.failed err))
    | .ok p =>
      let rows := s.rows.insert p
      match p.fits, written with
      | true, .acknowledged => some ({ s with rows }.answer t (.createProduct req)
          (.product { p with id := s.rows.nextID }))
      | true, .unknown => some ({ s with rows }.answer t (.createProduct req) (.failed .database))
      | _, _ => some (s.answer t (.createProduct req) (.failed .database))
  | .update status id =>
    let rows := s.rows.updateProductStatus id status s.clock
    match written with
    | .acknowledged => some ({ s with rows }.goto t (.drop status id))
    | .unknown => some ({ s with rows }.answer t (.setStatus status id) (.failed status.failed))
    | .refused => some (s.answer t (.setStatus status id) (.failed status.failed))
  | _ => none

section

variable [ProductJson] (redisClient : Bool)

/-- The last command of a call, and its return. -/
def commanded (s : System) (t : Nat) (sent : Sent) : Option System :=
  match s.calls t with
  | .store p =>
    some ((s.send sent (setProductDetail redisClient p)).answer t (.getProductByID p.id)
      (.product p))
  | .drop status id =>
    some ((s.send sent (deleteProductDetailCache redisClient id)).answer t
      (.setStatus status id) .done)
  | _ => none

def step (s : System) : Event → Option System
  | .tick elapsed => some { s with clock := s.clock + elapsed }
  | .call t c =>
    if s.calls t = .idle then
      some { s.goto t c.start with began := Function.update s.began t s.clock }
    else none
  | .lookup t reached =>
    match s.calls t with
    | .lookup id =>
      some (s.lookedUp t id (if reached then s.getProductDetail redisClient id else none))
    | _ => none
  | .select t ok => s.selected t ok
  | .write t written => s.wrote t written
  | .command t sent => s.commanded redisClient t sent
  | .apply j =>
    match s.inflight[j]? with
    | some c => some { s.perform c with inflight := s.inflight.eraseIdx j }
    | none => none
  | .evict key => some { s with redis := Function.update s.redis key none }
  | .crash t => some (s.goto t .idle)

end

/-! ## 5. What a step changes -/

section

variable [ProductJson] {redisClient : Bool} {s s' : System}

/-- A call is about to send these data. -/
def Sends (s : System) (key data : GoString) : Prop :=
  ∃ t p, s.calls t = .store p ∧ key = productDetailCacheKey p.id ∧ ProductJson.marshal p = some data

/-- The answer of `GetProductByID` is the row that the call has read, or an entry. -/
def Reads (s : System) (a : Answer) (p : Product) (id : Int) : Prop :=
  ∃ t, a.began = s.began t ∧ ((s.calls t = .store p ∧ p.id = id) ∨
    ∃ expires, s.entry id = some (p, expires) ∧ s.clock ≤ expires)

/-- One step. -/
structure Change (s s' : System) : Prop where
  clock : s.clock ≤ s'.clock
  began : ∀ t, s'.began t = s.began t ∨ s'.began t = s.clock
  calls : ∀ t p, s'.calls t = .store p → s'.began t = s.began t ∧
    (s.calls t = .store p ∨ s.rows.row p.id = some p)
  inflight : ∀ key data, .set key data ∈ s'.inflight →
    .set key data ∈ s.inflight ∨ s.Sends key data
  redis : ∀ key data expires, s'.redis key = some (data, expires) →
    s.redis key = some (data, expires) ∨
      ((.set key data ∈ s.inflight ∨ s.Sends key data) ∧
        expires = s.clock + productDetailCacheTTL)
  rows : ∀ id p, s.rows.row id = some p →
    ∃ status updatedAt, s'.rows.row id = some { p with status, updatedAt }
  answers : s'.answers = s.answers ∨ ∃ a, s'.answers = s.answers ++ [a] ∧
    ∀ id p, a.call = .getProductByID id → a.result = .product p → s.Reads a p id

theorem Change.refl (s : System) : Change s s where
  clock := le_rfl
  began _ := Or.inl rfl
  calls _ _ h := ⟨rfl, Or.inl h⟩
  inflight _ _ h := Or.inl h
  redis _ _ _ h := Or.inl h
  rows _ p h := ⟨p.status, p.updatedAt, h⟩
  answers := Or.inl rfl

/-- The call goes on, after a change that is not one of the calls. -/
theorem Change.went (h : Change s s') (hcalls : s'.calls = s.calls) (hbegan : s'.began = s.began)
    (t : Nat) {pc : Pc} (hpc : ∀ p, pc = .store p → s.rows.row p.id = some p) :
    Change s (s'.goto t pc) where
  clock := h.clock
  began := h.began
  calls u p hu := by
    refine ⟨congrFun hbegan u, ?_⟩
    by_cases hut : u = t
    · subst hut
      simp only [goto, Function.update_self] at hu
      exact Or.inr (hpc p hu)
    · simp only [goto, Function.update_of_ne hut, hcalls] at hu
      exact Or.inl hu
  inflight := h.inflight
  redis := h.redis
  rows := h.rows
  answers := h.answers

/-- The call returns, after a change that is not one of the calls. -/
theorem Change.answered (h : Change s s') (hcalls : s'.calls = s.calls)
    (hbegan : s'.began = s.began) (hanswers : s'.answers = s.answers) (t : Nat) {call : Call}
    {result : Result} (hread : ∀ id p, call = .getProductByID id → result = .product p →
      s.Reads ⟨call, s.began t, result⟩ p id) : Change s (s'.answer t call result) :=
  have hidle : Change s (s'.goto t .idle) := h.went hcalls hbegan t (by simp)
  { hidle with
    answers := by
      refine Or.inr ⟨⟨call, s.began t, result⟩, ?_, hread⟩
      rw [answer, hanswers, hbegan] }

variable {data : GoString} {t : Nat} {p : Product} {id : Int}

omit [ProductJson] in
theorem redis_of_perform {c : Command} {key : GoString} {expires : Int}
    (h : (s.perform c).redis key = some (data, expires)) :
    s.redis key = some (data, expires) ∨
      (c = .set key data ∧ expires = s.clock + productDetailCacheTTL) := by
  cases c with
  | set key' data' =>
    by_cases hkey : key = key'
    · subst hkey
      simp only [perform, Function.update_self, Option.some.injEq, Prod.mk.injEq] at h
      obtain ⟨rfl, rfl⟩ := h
      exact Or.inr ⟨rfl, rfl⟩
    · simp only [perform, Function.update_of_ne hkey] at h
      exact Or.inl h
  | del key' =>
    by_cases hkey : key = key'
    · subst hkey
      simp [perform] at h
    · simp only [perform, Function.update_of_ne hkey] at h
      exact Or.inl h

/-- A call sends a command. -/
theorem change_send {c : Option Command}
    (hc : ∀ key data, c = some (.set key data) → s.Sends key data) (sent : Sent) :
    Change s (s.send sent c) := by
  cases c with
  | none => exact .refl s
  | some c =>
    cases sent with
    | applied =>
      exact { Change.refl s with
        redis := fun key data expires h => by
          rcases redis_of_perform h with h | ⟨rfl, hexpires⟩
          · exact Or.inl h
          · exact Or.inr ⟨Or.inr (hc key data rfl), hexpires⟩ }
    | late =>
      exact { Change.refl s with
        inflight := fun key data h => by
          rcases List.mem_append.mp h with h | h
          · exact Or.inl h
          · exact Or.inr (hc key data (by rw [List.mem_singleton.mp h])) }
    | lost => exact .refl s

omit [ProductJson] in
@[simp] theorem send_calls (sent : Sent) (c : Option Command) :
    (s.send sent c).calls = s.calls := by
  cases c with
  | none => rfl
  | some c => cases sent <;> rfl

omit [ProductJson] in
@[simp] theorem send_began (sent : Sent) (c : Option Command) :
    (s.send sent c).began = s.began := by
  cases c with
  | none => rfl
  | some c => cases sent <;> rfl

omit [ProductJson] in
@[simp] theorem send_answers (sent : Sent) (c : Option Command) :
    (s.send sent c).answers = s.answers := by
  cases c with
  | none => rfl
  | some c => cases sent <;> rfl

/-- What the service writes to the table. -/
inductive Writes (s : System) : Rows → Prop where
  | insert (p : Product) : Writes s (s.rows.insert p)
  | update (id : Int) (status : ProductStatus) :
    Writes s (s.rows.updateProductStatus id status s.clock)

theorem change_write {rows : Rows} (h : s.Writes rows) : Change s { s with rows } :=
  { Change.refl s with
    rows := fun id p hp => by
      cases h with
      | insert q =>
        obtain ⟨-, hlt⟩ := s.rows.filed id p hp
        have hne : id ≠ s.rows.nextID := by omega
        exact ⟨p.status, p.updatedAt, (Function.update_of_ne hne _ _).trans hp⟩
      | update id' status =>
        by_cases hid : id = id'
        · subst hid
          refine ⟨status, s.clock, ?_⟩
          simp [Rows.updateProductStatus, hp]
        · exact ⟨p.status, p.updatedAt, (Function.update_of_ne hid _ _).trans hp⟩ }

theorem sends_of_setProductDetail (ht : s.calls t = .store p) {key : GoString}
    (h : setProductDetail redisClient p = some (.set key data)) :
    s.Sends key data := by
  unfold setProductDetail at h
  split at h
  · obtain ⟨data', hdata, heq⟩ := Option.map_eq_some_iff.mp h
    obtain ⟨rfl, rfl⟩ := Command.set.inj heq
    exact ⟨t, p, ht, rfl, hdata⟩
  · cases h

theorem entry_of_getProductDetail (h : s.getProductDetail redisClient id = some p) :
    ∃ expires, s.entry id = some (p, expires) ∧ s.clock ≤ expires := by
  unfold getProductDetail at h
  split at h
  · obtain ⟨⟨q, expires⟩, hentry, hq⟩ := Option.bind_eq_some_iff.mp h
    simp only at hq
    split at hq
    · rename_i hclock
      obtain rfl := Option.some.inj hq
      exact ⟨expires, hentry, hclock⟩
    · cases hq
  · cases h

theorem change_select {ok : Bool} (h : s.selected t ok = some s') : Change s s' := by
  have hanswer : ∀ call err, Change s (s.answer t call (.failed err)) := fun call err =>
    (Change.refl s).answered rfl rfl rfl t (by simp)
  unfold selected at h
  split at h
  · rename_i id _
    split at h
    · split at h
      · rename_i p hp
        obtain rfl := Option.some.inj h
        refine (Change.refl s).went rfl rfl t fun q hq => ?_
        obtain rfl := Pc.store.inj hq
        rw [(s.rows.filed id p hp).1]
        exact hp
      · obtain rfl := Option.some.inj h
        exact hanswer _ _
    · obtain rfl := Option.some.inj h
      exact hanswer _ _
  · split at h
    · split at h
      · obtain rfl := Option.some.inj h
        exact hanswer _ _
      · split at h
        · obtain rfl := Option.some.inj h
          exact (Change.refl s).answered rfl rfl rfl t (by simp)
        · obtain rfl := Option.some.inj h
          exact (Change.refl s).went rfl rfl t (by simp)
    · obtain rfl := Option.some.inj h
      exact hanswer _ _
  · cases h

theorem change_wrote {written : Written} (h : s.wrote t written = some s') :
    Change s s' := by
  unfold wrote at h
  split at h
  · rename_i req _
    split at h
    · obtain rfl := Option.some.inj h
      exact (Change.refl s).answered rfl rfl rfl t (by simp)
    · rename_i p _
      simp only at h
      split at h
      · obtain rfl := Option.some.inj h
        exact (change_write (.insert p)).answered rfl rfl rfl t (by simp)
      · obtain rfl := Option.some.inj h
        exact (change_write (.insert p)).answered rfl rfl rfl t (by simp)
      · obtain rfl := Option.some.inj h
        exact (Change.refl s).answered rfl rfl rfl t (by simp)
  · rename_i status id _
    simp only at h
    cases written with
    | acknowledged =>
      obtain rfl := Option.some.inj h
      exact (change_write (.update id status)).went rfl rfl t (by simp)
    | unknown =>
      obtain rfl := Option.some.inj h
      exact (change_write (.update id status)).answered rfl rfl rfl t (by simp)
    | refused =>
      obtain rfl := Option.some.inj h
      exact (Change.refl s).answered rfl rfl rfl t (by simp)
  · cases h

theorem change_command {sent : Sent} (h : s.commanded redisClient t sent = some s') :
    Change s s' := by
  unfold commanded at h
  split at h
  · rename_i p ht
    obtain rfl := Option.some.inj h
    refine (change_send (fun key data hset => sends_of_setProductDetail ht hset) sent).answered
      (send_calls ..) (send_began ..) (send_answers ..) t fun id q hid hq => ?_
    obtain rfl := Result.product.inj hq
    exact ⟨t, rfl, Or.inl ⟨ht, Call.getProductByID.inj hid⟩⟩
  · rename_i status id _
    obtain rfl := Option.some.inj h
    refine (change_send (fun key data hdel => ?_) sent).answered (send_calls ..) (send_began ..)
      (send_answers ..) t (by simp)
    simp [deleteProductDetailCache] at hdel
  · cases h

/-- **What a step changes.** -/
theorem change_of_step {e : Event} (h : s.step redisClient e = some s') : Change s s' := by
  cases e with
  | tick elapsed =>
    obtain rfl := Option.some.inj h
    exact { Change.refl s with clock := by simp }
  | call t c =>
    simp only [step] at h
    split at h
    · obtain rfl := Option.some.inj h
      have hwent : Change s (s.goto t c.start) :=
        (Change.refl s).went rfl rfl t fun p hp => by cases c <;> simp [Call.start] at hp
      exact { hwent with
        began := fun u => by
          by_cases hut : u = t
          · subst hut
            simp
          · simp [Function.update_of_ne hut]
        calls := fun u p hu => by
          have hut : u ≠ t := by
            rintro rfl
            cases c <;> simp [goto, Call.start] at hu
          refine ⟨by simp [Function.update_of_ne hut], ?_⟩
          exact (hwent.calls u p hu).2 }
    · cases h
  | lookup t reached =>
    simp only [step] at h
    split at h
    · rename_i id ht
      obtain rfl := Option.some.inj h
      cases hp : (if reached then s.getProductDetail redisClient id else none) with
      | none => exact (Change.refl s).went rfl rfl t (by simp)
      | some p =>
        refine (Change.refl s).answered rfl rfl rfl t fun id' q hid hq => ?_
        obtain rfl := Result.product.inj hq
        obtain rfl := Call.getProductByID.inj hid
        split at hp
        · exact ⟨t, rfl, Or.inr (entry_of_getProductDetail hp)⟩
        · cases hp
    · cases h
  | select t ok => exact change_select h
  | write t written => exact change_wrote h
  | command t sent => exact change_command h
  | apply j =>
    simp only [step] at h
    split at h
    · rename_i c hc
      obtain rfl := Option.some.inj h
      exact { Change.refl s with
        inflight := fun key data hmem => Or.inl ((List.eraseIdx_sublist ..).subset hmem)
        redis := fun key data expires hkey => by
          rcases redis_of_perform hkey with hkey | ⟨rfl, hexpires⟩
          · exact Or.inl hkey
          · exact Or.inr ⟨Or.inl (List.mem_of_getElem? hc), hexpires⟩ }
    · cases h
  | evict key =>
    obtain rfl := Option.some.inj h
    exact { Change.refl s with
      redis := fun key' data expires hkey => by
        by_cases heq : key' = key
        · subst heq
          simp at hkey
        · simp only [Function.update_of_ne heq] at hkey
          exact Or.inl hkey }
  | crash t =>
    obtain rfl := Option.some.inj h
    exact (Change.refl s).went rfl rfl t (by simp)

/-! ## 6. The cache beside the table -/

/-- The table and the cache beside it. -/
def view (s : System) : Aside Int Product where
  clock := s.clock
  store := s.rows.row
  fetched id p := (∃ t, s.calls t = .store p ∧ p.id = id) ∨
    ∃ data, .set (productDetailCacheKey id) data ∈ s.inflight ∧
      ProductJson.unmarshal data = some p
  cells := s.entry

/-- Data that a call sends are those of the row it has read. -/
theorem fetched_of_sends (h : s.Sends (productDetailCacheKey id) data)
    (hdata : ProductJson.unmarshal data = some p) :
    s.view.fetched id p := by
  obtain ⟨t, q, ht, hkey, hq⟩ := h
  rw [ProductJson.unmarshal_marshal q data hq] at hdata
  obtain rfl := Option.some.inj hdata
  exact Or.inl ⟨t, ht, (productDetailCacheKey_injective hkey).symm⟩

theorem entry_eq_some {expires : Int} :
    s.entry id = some (p, expires) ↔ ∃ data,
      s.redis (productDetailCacheKey id) = some (data, expires) ∧
        ProductJson.unmarshal data = some p := by
  simp only [entry, Option.bind_eq_some_iff, Option.map_eq_some_iff, Prod.mk.injEq, Prod.exists]
  constructor
  · rintro ⟨data, _, hredis, _, hp, rfl, rfl⟩
    exact ⟨data, hredis, hp⟩
  · rintro ⟨data, hredis, hp⟩
    exact ⟨data, expires, hredis, p, hp, rfl, rfl⟩

/-- **Every step is one of a look-aside cache.** -/
theorem Change.aside (h : Change s s') : AsideStep productDetailCacheTTL s.view s'.view where
  fetched id p hp := by
    rcases hp with ⟨t, ht, rfl⟩ | ⟨data, hdata, hp⟩
    · rcases (h.calls t p ht).2 with ht | hrow
      · exact Or.inl (Or.inl ⟨t, ht, rfl⟩)
      · exact Or.inr hrow
    · rcases h.inflight _ data hdata with hdata | hsends
      · exact Or.inl (Or.inr ⟨data, hdata, hp⟩)
      · exact Or.inl (fetched_of_sends hsends hp)
  cells id p expires hcell := by
    obtain ⟨data, hredis, hp⟩ := entry_eq_some.mp hcell
    rcases h.redis _ data expires hredis with hredis | ⟨hset | hsends, rfl⟩
    · exact Or.inl (entry_eq_some.mpr ⟨data, hredis, hp⟩)
    · exact Or.inr ⟨Or.inr ⟨data, hset, hp⟩, rfl⟩
    · exact Or.inr ⟨fetched_of_sends hsends hp, rfl⟩

end

end System

/-! ## 7. How old an answer is -/

open OrderSystem.Products.System

section

variable [ProductJson] (redisClient : Bool) (rows : Rows)

/-- The row of the product was `p` at a moment of the run, and that moment was during the call that
began then; or a later step wrote `p` into the entry, and that entry is there in the last state of
the run and has not expired. -/
def Fresh (es : List Event) (s : System) (began id : Int) (p : Product) : Prop :=
  ∃ before rest t, es = before ++ rest ∧
    run (System.step redisClient) (.start rows) before = some t ∧ t.rows.row id = some p ∧
    (began ≤ t.clock ∨ ∃ mid e later u u', rest = mid ++ e :: later ∧
      run (System.step redisClient) t mid = some u ∧ u.step redisClient e = some u' ∧
      u'.entry id = some (p, u.clock + productDetailCacheTTL) ∧
      s.entry id = some (p, u.clock + productDetailCacheTTL) ∧
      s.clock ≤ u.clock + productDetailCacheTTL)

/-- A step of the run gave the answer, in a state in which the product was fresh. -/
def GivenFresh (es : List Event) (a : Answer) (id : Int) (p : Product) : Prop :=
  ∃ upto e after s s', es = upto ++ e :: after ∧
    run (System.step redisClient) (.start rows) upto = some s ∧
    s.step redisClient e = some s' ∧ s'.answers = s.answers ++ [a] ∧
    Fresh redisClient rows upto s a.began id p

/-- The row of the product was `p` at a moment of the run, which was after the given time. -/
def Loaded (es : List Event) (began : Int) (p : Product) : Prop :=
  ∃ before rest t, es = before ++ rest ∧
    run (System.step redisClient) (.start rows) before = some t ∧ t.rows.row p.id = some p ∧
    began ≤ t.clock

/-- What calls know, and what they have answered. -/
structure Told (es : List Event) (s : System) : Prop where
  began : ∀ t, s.began t ≤ s.clock
  calls : ∀ t p, s.calls t = .store p → Loaded redisClient rows es (s.began t) p
  answers : ∀ a ∈ s.answers, ∀ id p, a.call = .getProductByID id → a.result = .product p →
    GivenFresh redisClient rows es a id p

variable {redisClient rows}

variable {es : List Event} {id : Int} {p : Product}

theorem GivenFresh.snoc {a : Answer} (h : GivenFresh redisClient rows es a id p) (e : Event) :
    GivenFresh redisClient rows (es ++ [e]) a id p := by
  obtain ⟨upto, e', after, s, s', rfl, hrest⟩ := h
  exact ⟨upto, e', after ++ [e], s, s', by simp, hrest⟩

theorem Loaded.snoc {began : Int} (h : Loaded redisClient rows es began p) (e : Event) :
    Loaded redisClient rows (es ++ [e]) began p := by
  obtain ⟨before, rest, t, rfl, ht, hp, hbegan⟩ := h
  exact ⟨before, rest ++ [e], t, by simp, ht, hp, hbegan⟩

theorem Loaded.fresh {began : Int} (h : Loaded redisClient rows es began p) (s : System) :
    Fresh redisClient rows es s began p.id p := by
  obtain ⟨before, rest, t, rfl, ht, hp, hbegan⟩ := h
  exact ⟨before, rest, t, rfl, ht, hp, Or.inl hbegan⟩

/-- What a call finds in the cache. -/
theorem fresh_of_entry {s : System} (hrun : run (System.step redisClient) (.start rows) es = some s)
    {expires : Int} (hentry : s.entry id = some (p, expires)) (hclock : s.clock ≤ expires)
    (began : Int) : Fresh redisClient rows es s began id p := by
  obtain ⟨before, mid, e, later, t, u, u', rfl, ht, hp, hu, he, hcell, rfl⟩ :=
    (cell_origin view (fun s e s' he => (change_of_step he).aside) (by simp [view, start])
      (by simp [view, start, entry]) hrun).2 id p expires hentry
  exact ⟨before, mid ++ e :: later, t, by simp, ht, hp,
    Or.inr ⟨mid, e, later, u, u', rfl, hu, he, hcell, hentry, hclock⟩⟩

theorem told_run {s : System} (hrun : run (System.step redisClient) (.start rows) es = some s) :
    Told redisClient rows es s := by
  refine run_history_of (C := fun _ _ => True) (I := Told redisClient rows) ?_ ?_
    (meets_true _ es) hrun
  · intro es s e s' hs h _ he
    have hchange := change_of_step he
    constructor
    · intro t
      rcases hchange.began t with hbegan | hbegan
      · exact hbegan ▸ (h.began t).trans hchange.clock
      · exact hbegan ▸ hchange.clock
    · intro t p ht
      obtain ⟨hbegan, ht | hrow⟩ := hchange.calls t p ht
      · exact hbegan ▸ (h.calls t p ht).snoc e
      · exact ⟨es, [e], s, rfl, hs, hrow, hbegan ▸ h.began t⟩
    · intro a ha id p hcall hresult
      rcases hchange.answers with hsame | ⟨b, hnew, hreads⟩
      · exact (h.answers a (hsame ▸ ha) id p hcall hresult).snoc e
      · rcases List.mem_append.mp (hnew ▸ ha) with ha | ha
        · exact (h.answers a ha id p hcall hresult).snoc e
        · -- the answer is given by this step
          obtain rfl := List.mem_singleton.mp ha
          refine ⟨es, e, [], s, s', rfl, hs, he, hnew, ?_⟩
          obtain ⟨t, hbegan, ⟨ht, rfl⟩ | ⟨expires, hentry, hclock⟩⟩ := hreads id p hcall hresult
          · exact hbegan ▸ (h.calls t p ht).fresh s
          · exact fresh_of_entry hs hentry hclock a.began
  · exact ⟨by simp [start], by simp [start], by simp [start]⟩

/-- Rows stay, and change in the status and the time of the last change only. -/
theorem row_kept {s s' : System} (hrun : run (System.step redisClient) s es = some s')
    (hp : s.rows.row id = some p) :
    ∃ status updatedAt, s'.rows.row id = some { p with status, updatedAt } := by
  refine run_invariant
    (I := fun s => ∃ status updatedAt, s.rows.row id = some { p with status, updatedAt })
    ?_ ⟨p.status, p.updatedAt, hp⟩ hrun
  rintro s e s' ⟨status, updatedAt, hrow⟩ he
  obtain ⟨status', updatedAt', hrow'⟩ := (change_of_step he).rows id _ hrow
  exact ⟨status', updatedAt', hrow'⟩

end

/-- **How old an answer is.**  A product that `GetProductByID` returns is the row as it is now, but
for its status and the time of its last change.  And it was the row as a whole at a moment during
the call, or before a step that wrote the entry that the call has found, at most ten minutes
before. -/
theorem product_answer_fresh [ProductJson] (redisClient : Bool) (rows : Rows) (es : List Event)
    (s : System) (hrun : run (System.step redisClient) (.start rows) es = some s) (a : Answer)
    (ha : a ∈ s.answers) (id : Int) (p : Product) (hcall : a.call = .getProductByID id)
    (hresult : a.result = .product p) :
    (∃ status updatedAt, s.rows.row id = some { p with status, updatedAt }) ∧
      GivenFresh redisClient rows es a id p := by
  have hgiven := (told_run hrun).answers a ha id p hcall hresult
  refine ⟨?_, hgiven⟩
  obtain ⟨upto, e, after, s₁, s₂, rfl, -, -, -, before, rest, t, rfl, ht, hp, -⟩ := hgiven
  rw [List.append_assoc] at hrun
  obtain ⟨t', ht', hrest⟩ := run_append.mp hrun
  obtain rfl := Option.some.inj (ht.symm.trans ht')
  exact row_kept hrest hp

/-- A pen, before and after it was put on sale. -/
def pen (status : ProductStatus) (updatedAt : Int) : Product :=
  ⟨1, [0x70], [], 5, status, 0, updatedAt⟩

def onePen : Rows where
  row id := if id = 1 then some (pen .offSale 0) else none
  nextID := 2
  filed id p hp := by
    split at hp
    · rename_i hid
      obtain rfl := Option.some.inj hp
      exact ⟨hid.symm, by omega⟩
    · cases hp

/-- The two versions of the pen, as one byte. -/
@[reducible] def penJson : ProductJson where
  marshal p :=
    if p = pen .offSale 0 then some [0] else if p = pen .onSale 3 then some [1] else none
  unmarshal data :=
    if data = [0] then some (pen .offSale 0) else if data = [1] then some (pen .onSale 3) else none
  unmarshal_marshal p data h := by
    split at h
    · obtain rfl := Option.some.inj h
      simp_all
    · split at h
      · obtain rfl := Option.some.inj h
        simp_all
      · cases h

/-- A reader has read the row when the pen is put on sale, and writes its entry afterwards. -/
def racing : List Event :=
  [.call 0 (.getProductByID 1), .lookup 0 true, .select 0 true, .tick 3,
    .call 1 (onSaleProduct 1), .select 1 true, .write 1 .acknowledged, .command 1 .applied,
    .command 0 .applied, .tick 600000, .call 2 (.getProductByID 1), .lookup 2 true]

/-- The pen has been on sale for ten minutes, and a call is told that it is not. -/
theorem product_answer_fresh_racing : letI := penJson
    ∃ s, run (System.step true) (.start onePen) racing = some s ∧
      s.rows.row 1 = some (pen .onSale 3) ∧
      ∃ a ∈ s.answers, a.began = 600003 ∧ a.result = .product (pen .offSale 0) ∧
        GivenFresh true onePen racing a 1 (pen .offSale 0) := by
  let _ := penJson
  have hracing : (run (System.step true) (.start onePen) racing).map
      (fun s => (s.rows.row 1, s.answers)) = some (some (pen .onSale 3),
        [⟨onSaleProduct 1, 3, .done⟩, ⟨.getProductByID 1, 0, .product (pen .offSale 0)⟩,
          ⟨.getProductByID 1, 600003, .product (pen .offSale 0)⟩]) := by
    decide +kernel
  obtain ⟨s, hs, hfacts⟩ := Option.map_eq_some_iff.mp hracing
  obtain ⟨hrow, hanswers⟩ := Prod.mk.inj hfacts
  refine ⟨s, hs, hrow, ⟨.getProductByID 1, 600003, .product (pen .offSale 0)⟩, ?_, rfl, rfl, ?_⟩
  · simp [hanswers]
  · exact (product_answer_fresh true onePen racing s hs _ (by rw [hanswers]; simp) 1
      (pen .offSale 0) rfl rfl).2

/-! ## 8. When an answer is current -/

/-- There is no entry for the product, and none is on its way. -/
structure Settled (s : System) (id : Int) : Prop where
  redis : s.redis (productDetailCacheKey id) = none
  calls : ∀ t p, s.calls t = .store p → p.id ≠ id
  inflight : ∀ data, .set (productDetailCacheKey id) data ∉ s.inflight

theorem Settled.coherent [ProductJson] {s : System} {id : Int} (h : Settled s id) :
    Coherent s.view id := by
  constructor
  · rintro p (⟨t, ht, hid⟩ | ⟨data, hdata, -⟩)
    · exact absurd hid (h.calls t p ht)
    · exact absurd hdata (h.inflight data)
  · intro p expires hp
    obtain ⟨data, hredis, -⟩ := entry_eq_some.mp hp
    rw [h.redis] at hredis
    cases hredis

/-- What a call answers when the cache is coherent. -/
theorem Coherent.answer [ProductJson] {s : System} {id : Int} (h : Coherent s.view id)
    {a : Answer} {p : Product} (hreads : s.Reads a p id) : s.rows.row id = some p := by
  obtain ⟨t, -, ht | ⟨expires, hentry, -⟩⟩ := hreads
  · exact h.fetched p (Or.inl ⟨t, ht⟩)
  · exact h.cells p expires hentry

/-- **When an answer is current.**  From a moment at which there is no entry for a product and none
is on its way -- a deletion has taken effect, and no reader has read the row before and not yet
written its entry -- and for as long as the row stays as it is, every product that `GetProductByID`
returns for the id is the row. -/
theorem product_answer_current [ProductJson] (redisClient : Bool) (m s : System) (id : Int)
    (hsettled : Settled m id) (es : List Event)
    (hrun : run (System.step redisClient) m es = some s)
    (hsame : Meets (fun t _ => t.rows.row id = m.rows.row id) (System.step redisClient) m es) :
    ∃ answers, s.answers = m.answers ++ answers ∧ ∀ a ∈ answers, ∀ p,
      a.call = .getProductByID id → a.result = .product p → m.rows.row id = some p := by
  refine (run_invariant_of (I := fun t =>
    (t.rows.row id = m.rows.row id → Coherent t.view id) ∧
      ∃ answers, t.answers = m.answers ++ answers ∧ ∀ a ∈ answers, ∀ p,
        a.call = .getProductByID id → a.result = .product p → m.rows.row id = some p)
    ?_ ⟨fun _ => hsettled.coherent, [], by simp, by simp⟩ hsame hrun).2
  rintro t e t' ⟨hcoherent, answers, hanswers, hgood⟩ hrow he
  have hchange := change_of_step he
  have ht := hcoherent hrow
  refine ⟨fun hrow' => ht.step hchange.aside (hrow'.trans hrow.symm), ?_⟩
  rcases hchange.answers with hsame | ⟨a, hnew, hreads⟩
  · exact ⟨answers, hsame.trans hanswers, hgood⟩
  · refine ⟨answers ++ [a], by rw [hnew, hanswers, List.append_assoc], ?_⟩
    intro b hb p hcall hresult
    rcases List.mem_append.mp hb with hb | hb
    · exact hgood b hb p hcall hresult
    · obtain rfl := List.mem_singleton.mp hb
      rw [← hrow]
      exact Coherent.answer ht (hreads id p hcall hresult)

/-- The pen was put on sale, its entry is deleted, and no reader is there. -/
def sold : System :=
  { System.start onePen with clock := 3, rows := onePen.updateProductStatus 1 .onSale 3 }

/-- Two calls, of which the second finds the entry of the first. -/
def asking : List Event :=
  [.call 0 (.getProductByID 1), .lookup 0 true, .select 0 true, .command 0 .applied, .tick 5,
    .call 0 (.getProductByID 1), .lookup 0 true]

theorem product_answer_current_asking : letI := penJson
    ∃ s, run (System.step true) sold asking = some s ∧ s.answers.length = 2 ∧
      ∃ answers, s.answers = [] ++ answers ∧ ∀ a ∈ answers, ∀ p,
        a.call = .getProductByID 1 → a.result = .product p → sold.rows.row 1 = some p := by
  let _ := penJson
  have hasking : (run (System.step true) sold asking).map (fun s => s.answers.length) =
      some 2 := by
    decide +kernel
  obtain ⟨s, hs, hlength⟩ := Option.map_eq_some_iff.mp hasking
  have hsettled : Settled sold 1 :=
    ⟨rfl, by simp [sold, System.start], by simp [sold, System.start]⟩
  exact ⟨s, hs, hlength,
    product_answer_current true sold s 1 hsettled asking hs (by decide +kernel)⟩

end OrderSystem.Products
