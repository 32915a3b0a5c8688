/-
# Request deadlines along a chain of services

Every service wraps its handler in `BudgetHandler`, which derives the request's deadline from the
`X-Request-Deadline` header, the service's own limits and the deadline of the incoming context,
and refuses the request if that deadline has passed.  A handler that calls the next service sends
its own deadline along: `ApplyMetadata` writes it into the header of the outgoing request, in
`Executor.Do` and in the `Director` of the gateway's reverse proxy.

A chain of hops is a run of `step`: each hop takes the header that the one before it sent.  Its
deadline is then at most that of the hop before (`deadlines_shrink`), because the header carries
exactly that deadline.  At the gateway this has an exception.  `httputil.ReverseProxy` removes
hop-by-hop headers after the `Director` has run, and these include whatever headers the client
names in its `Connection` header.  A client that names `X-Request-Deadline` there gets its request
to the service without a deadline, and the service applies its default (`deadline_dropped`).

Times are nanoseconds.  Formatting a time as RFC3339Nano and parsing it back is assumed exact;
that is all that is known of the format (`TimeFormat`).
-/
import Mathlib.Data.List.AList
import OrderSystem.Kit.Run
import OrderSystem.Resilience.Breaker

namespace OrderSystem.Resilience

open Kit

/-! ## 1. Headers -/

/-- `textproto.validHeaderFieldByte`: the characters of a token. -/
def validHeaderFieldByte (c : UInt8) : Bool :=
  (0x30 ≤ c ∧ c ≤ 0x39) ∨ (0x41 ≤ c ∧ c ≤ 0x5A) ∨ (0x61 ≤ c ∧ c ≤ 0x7A) ∨
    c ∈ [0x21, 0x23, 0x24, 0x25, 0x26, 0x27, 0x2A, 0x2B, 0x2D, 0x2E, 0x5E, 0x5F, 0x60, 0x7C, 0x7E]

/-- The loop of `textproto.CanonicalMIMEHeaderKey`: a capital at the start and after a hyphen. -/
def canonicalLetters (upper : Bool) : GoString → GoString
  | [] => []
  | c :: s =>
    let c :=
      if upper ∧ 0x61 ≤ c ∧ c ≤ 0x7A then c - 0x20
      else if ¬ upper ∧ 0x41 ≤ c ∧ c ≤ 0x5A then c + 0x20
      else c
    c :: canonicalLetters (c = 0x2D) s

def canonicalMIMEHeaderKey (s : GoString) : GoString :=
  if s.all validHeaderFieldByte then canonicalLetters true s else s

/-- `http.Header`: the values of each header, by its canonical name. -/
abbrev Header := AList fun _ : GoString => List GoString

namespace Header

def get (h : Header) (key : GoString) : GoString :=
  ((h.lookup (canonicalMIMEHeaderKey key)).bind List.head?).getD []

def set (h : Header) (key value : GoString) : Header :=
  h.insert (canonicalMIMEHeaderKey key) [value]

def del (h : Header) (key : GoString) : Header := h.erase (canonicalMIMEHeaderKey key)

@[simp] theorem get_set (h : Header) (key value : GoString) :
    (h.set key value).get key = value := by
  simp [get, set]

/-- Deleting other headers. -/
theorem get_foldl_del {keys : List GoString} {key : GoString}
    (hne : ∀ k ∈ keys, canonicalMIMEHeaderKey key ≠ canonicalMIMEHeaderKey k) (h : Header) :
    (keys.foldl del h).get key = h.get key := by
  induction keys generalizing h with
  | nil => rfl
  | cons k keys ih =>
    rw [List.foldl_cons, ih fun k' hk' => hne k' (List.mem_cons_of_mem k hk')]
    simp [get, del, AList.lookup_erase_ne (hne k List.mem_cons_self)]

end Header

/-- `textproto.TrimString`. -/
def trimString (s : GoString) : GoString :=
  let space (c : UInt8) : Bool := c ∈ [0x20, 0x09, 0x0A, 0x0D]
  ((s.dropWhile space).reverse.dropWhile space).reverse

/-- The headers that the `Connection` header names. -/
def connectionOptions (h : Header) : List GoString :=
  ((h.lookup (str "Connection")).getD []).flatMap fun f =>
    ((f.splitOn 0x2C).map trimString).filter (· ≠ [])

/-- `hopHeaders` of `httputil`. -/
def hopHeaders : List GoString :=
  [str "Connection", str "Proxy-Connection", str "Keep-Alive", str "Proxy-Authenticate",
    str "Proxy-Authorization", str "Te", str "Trailer", str "Transfer-Encoding", str "Upgrade"]

/-- `httputil.removeHopByHopHeaders`. -/
def removeHopByHopHeaders (h : Header) : Header :=
  hopHeaders.foldl Header.del ((connectionOptions h).foldl Header.del h)

/-! ## 2. `BudgetHandler` and `ApplyMetadata` -/

def deadlineHeader : GoString := str "X-Request-Deadline"

def requestIDHeader : GoString := str "X-Request-ID"

/-- `Format` and `Parse` for RFC3339Nano. -/
structure TimeFormat where
  format : Int → GoString
  parse : GoString → Option Int
  parse_format : ∀ t, parse (format t) = some t
  parse_nil : parse [] = none

structure BudgetConfig where
  default : Int
  maximum : Int

def BudgetConfig.normalized (cfg : BudgetConfig) : BudgetConfig :=
  let default := if cfg.default ≤ 0 then 10 * second else cfg.default
  let maximum := if cfg.maximum ≤ 0 then 30 * second else cfg.maximum
  { default := if maximum < default then maximum else default, maximum }

/-- What the handlers read of a context: `ctx.Deadline()` and `RequestID(ctx)`. -/
structure RequestContext where
  deadline : Option Int
  requestID : GoString

/-- The body that `writeDeadlineExceeded` sends, with status 504. -/
structure DeadlineExceeded where
  code : GoString
  message : GoString
  requestID : GoString

def writeDeadlineExceeded (requestID : GoString) : DeadlineExceeded :=
  ⟨str "request_deadline_exceeded", str "request deadline exceeded", requestID⟩

/-- `BudgetHandler` answers, or calls the next handler with a new context and header. -/
inductive Handled where
  | rejected (body : DeadlineExceeded)
  | next (ctx : RequestContext) (header : Header)

variable (codec : TimeFormat)

/-- The earlier of a deadline and that of the parent context: the second cap of `BudgetHandler`,
and what `context.WithDeadline` makes of the two. -/
def withDeadline (parent : Option Int) (deadline : Int) : Int :=
  match parent with
  | some parentDeadline => if parentDeadline < deadline then parentDeadline else deadline
  | none => deadline

/-- The deadline from the header and the service's limits. -/
def headerDeadline (cfg : BudgetConfig) (now : Int) (header : Header) : Int :=
  let maximumDeadline := now + cfg.maximum
  let raw := header.get deadlineHeader
  if raw ≠ [] then
    match codec.parse raw with
    | some parsed => if maximumDeadline < parsed then maximumDeadline else parsed
    | none => now + cfg.default
  else now + cfg.default

/-- The deadline that `BudgetHandler` gives the request. -/
def effectiveDeadline (cfg : BudgetConfig) (now : Int) (parent : Option Int) (header : Header) :
    Int :=
  withDeadline parent (headerDeadline codec cfg.normalized now header)

/-- `BudgetHandler`, with its reading of the clock, the deadline of the request's context, and
the UUID for a request without an id. -/
def budgetHandler (cfg : BudgetConfig) (now : Int) (parent : Option Int) (uuid : GoString)
    (header : Header) : Handled :=
  let deadline := effectiveDeadline codec cfg now parent header
  let given := header.get requestIDHeader
  let requestID := if given = [] then str "req-" ++ uuid else given
  if ¬ now < deadline then .rejected (writeDeadlineExceeded requestID)
  else
    .next ⟨some (withDeadline parent deadline), requestID⟩
      ((header.set requestIDHeader requestID).set deadlineHeader (codec.format deadline))

def applyMetadata (ctx : RequestContext) (header : Header) : Header :=
  let header := if ctx.requestID ≠ [] then header.set requestIDHeader ctx.requestID else header
  match ctx.deadline with
  | some deadline => header.set deadlineHeader (codec.format deadline)
  | none => header

/-- How a handler calls the next service. -/
inductive Via where
  /-- `Executor.Do`, with the header of the request that the factory builds -/
  | executor (built : Header)
  /-- the gateway's proxy, which sends the incoming request on -/
  | proxy

/-- The header that is sent. -/
def forward (ctx : RequestContext) (header : Header) : Via → Header
  | .executor built => applyMetadata codec ctx built
  -- `Director`, and then what `ReverseProxy` does after it
  | .proxy => removeHopByHopHeaders (applyMetadata codec ctx header)

/-! ## 3. Chains of hops -/

structure Hop where
  cfg : BudgetConfig
  now : Int
  parent : Option Int
  uuid : GoString
  via : Via

/-- A request under way: the header that was sent last, and the deadline of the hop that sent it,
unless that was the client. -/
structure Chain where
  header : Header
  previous : Option Int

/-- The deadline of the next hop. -/
def Hop.deadline (hop : Hop) (s : Chain) : Int :=
  effectiveDeadline codec hop.cfg hop.now hop.parent s.header

/-- The next hop handles the request. -/
def Hop.handle (hop : Hop) (s : Chain) : Handled :=
  budgetHandler codec hop.cfg hop.now hop.parent hop.uuid s.header

/-- A hop that runs its handler calls the next one. -/
def step (s : Chain) (hop : Hop) : Option Chain :=
  match hop.handle codec s with
  | .rejected _ => none
  | .next ctx header => some ⟨forward codec ctx header hop.via, some (hop.deadline codec s)⟩

def Via.isProxy : Via → Bool
  | .executor _ => false
  | .proxy => true

/-- A request that the gateway sends on does not name the deadline's header as one that is to be
removed. -/
def DeadlineKept (s : Chain) (hop : Hop) : Prop :=
  hop.via.isProxy = true → ∀ option ∈ connectionOptions s.header,
    canonicalMIMEHeaderKey deadlineHeader ≠ canonicalMIMEHeaderKey option

instance (s : Chain) (hop : Hop) : Decidable (DeadlineKept s hop) :=
  inferInstanceAs (Decidable (_ → _))

variable {codec}

theorem TimeFormat.format_ne_nil (t : Int) : codec.format t ≠ [] := by
  intro h
  have := codec.parse_format t
  rw [h, codec.parse_nil] at this
  cases this

theorem withDeadline_le (parent : Option Int) (d : Int) :
    withDeadline parent d ≤ d ∧ ∀ p ∈ parent, withDeadline parent d ≤ p := by
  cases parent with
  | none => exact ⟨Int.le_refl d, fun p hp => nomatch hp⟩
  | some p =>
    simp only [withDeadline, Option.mem_def, Option.some.injEq, forall_eq']
    split <;> omega

/-- The context is given the deadline itself: that of the parent is not earlier. -/
theorem withDeadline_self (parent : Option Int) (d : Int) :
    withDeadline parent (withDeadline parent d) = withDeadline parent d := by
  cases parent with
  | none => rfl
  | some p => by_cases hp : p < d <;> simp [withDeadline, hp]

theorem BudgetConfig.normalized_default_le (cfg : BudgetConfig) :
    cfg.normalized.default ≤ cfg.normalized.maximum := by
  simp only [BudgetConfig.normalized]
  split <;> omega

theorem headerDeadline_le (codec : TimeFormat) {cfg : BudgetConfig}
    (hcfg : cfg.default ≤ cfg.maximum) (now : Int) (header : Header) :
    headerDeadline codec cfg now header ≤ now + cfg.maximum ∧
      ∀ t, header.get deadlineHeader = codec.format t →
        headerDeadline codec cfg now header ≤ t := by
  unfold headerDeadline
  constructor
  · simp only
    split
    · split
      · split <;> omega
      · omega
    · omega
  · intro t ht
    simp only [ht, ne_eq, TimeFormat.format_ne_nil, not_false_eq_true, if_true,
      codec.parse_format]
    split <;> omega

/-- **The bounds of a deadline**: the service's maximum, the context's deadline, and the deadline
that the header carries. -/
theorem effectiveDeadline_le (codec : TimeFormat) (cfg : BudgetConfig) (now : Int)
    (parent : Option Int) (header : Header) :
    effectiveDeadline codec cfg now parent header ≤ now + cfg.normalized.maximum ∧
      (∀ p ∈ parent, effectiveDeadline codec cfg now parent header ≤ p) ∧
      ∀ t, header.get deadlineHeader = codec.format t →
        effectiveDeadline codec cfg now parent header ≤ t := by
  obtain ⟨hmax, hheader⟩ := headerDeadline_le codec cfg.normalized_default_le now header
  obtain ⟨hle, hparent⟩ := withDeadline_le parent (headerDeadline codec cfg.normalized now header)
  exact ⟨hle.trans hmax, hparent, fun t ht => hle.trans (hheader t ht)⟩

theorem connectionOptions_set {h : Header} {key : GoString} (value : GoString)
    (hkey : str "Connection" ≠ canonicalMIMEHeaderKey key) :
    connectionOptions (h.set key value) = connectionOptions h := by
  rw [connectionOptions, Header.set, AList.lookup_insert_ne hkey, connectionOptions]

theorem deadlineHeader_ne_connection :
    str "Connection" ≠ canonicalMIMEHeaderKey deadlineHeader := by decide +kernel

theorem requestIDHeader_ne_connection :
    str "Connection" ≠ canonicalMIMEHeaderKey requestIDHeader := by decide +kernel

/-- `BudgetHandler` runs the next handler before the deadline only, and under it. -/
theorem handle_next {hop : Hop} {s : Chain} {ctx : RequestContext} {header : Header}
    (h : hop.handle codec s = .next ctx header) :
    hop.now < hop.deadline codec s ∧ ctx.deadline = some (hop.deadline codec s) ∧
      connectionOptions header = connectionOptions s.header := by
  unfold Hop.handle budgetHandler at h
  simp only at h
  split at h
  · cases h
  · rename_i hnow
    obtain ⟨rfl, rfl⟩ := Handled.next.inj h
    refine ⟨not_not.mp hnow, congrArg some (withDeadline_self _ _), ?_⟩
    rw [connectionOptions_set _ deadlineHeader_ne_connection,
      connectionOptions_set _ requestIDHeader_ne_connection]

/-- `ApplyMetadata` writes the deadline of the context. -/
theorem applyMetadata_deadline (codec : TimeFormat) {ctx : RequestContext} {d : Int}
    (hctx : ctx.deadline = some d) (header : Header) :
    (applyMetadata codec ctx header).get deadlineHeader = codec.format d ∧
      connectionOptions (applyMetadata codec ctx header) = connectionOptions header := by
  simp only [applyMetadata, hctx, Header.get_set, true_and]
  rw [connectionOptions_set _ deadlineHeader_ne_connection]
  split
  · exact connectionOptions_set _ requestIDHeader_ne_connection
  · rfl

/-- What the proxy removes is not the deadline, unless the client asks for it. -/
theorem removeHopByHopHeaders_deadline {h : Header}
    (hkept : ∀ option ∈ connectionOptions h,
      canonicalMIMEHeaderKey deadlineHeader ≠ canonicalMIMEHeaderKey option) :
    (removeHopByHopHeaders h).get deadlineHeader = h.get deadlineHeader := by
  rw [removeHopByHopHeaders, Header.get_foldl_del, Header.get_foldl_del hkept]
  decide +kernel

/-- **The header carries the deadline** of the hop that sends it. -/
theorem forward_deadline {hop : Hop} {s : Chain} {ctx : RequestContext} {header : Header}
    (h : hop.handle codec s = .next ctx header) (hkept : DeadlineKept s hop) :
    (forward codec ctx header hop.via).get deadlineHeader =
      codec.format (hop.deadline codec s) := by
  obtain ⟨-, hctx, hconnection⟩ := handle_next h
  unfold DeadlineKept at hkept
  cases hvia : hop.via with
  | executor built => exact (applyMetadata_deadline codec hctx built).1
  | proxy =>
    obtain ⟨hdeadline, hsame⟩ := applyMetadata_deadline codec hctx header
    rw [forward, removeHopByHopHeaders_deadline, hdeadline]
    rw [hsame, hconnection]
    exact hkept (by rw [hvia]; rfl)

/-- The header that is under way carries the deadline of the hop that sent it. -/
def Carries (codec : TimeFormat) (s : Chain) : Prop :=
  ∀ d ∈ s.previous, s.header.get deadlineHeader = codec.format d

theorem carries_step {s s' : Chain} {hop : Hop} (hkept : DeadlineKept s hop)
    (h : step codec s hop = some s') : Carries codec s' := by
  unfold step at h
  split at h
  · cases h
  · rename_i ctx header hnext
    obtain rfl := Option.some.inj h
    intro d hd
    obtain rfl := Option.some.inj hd
    exact forward_deadline hnext hkept

/-- **Deadlines shrink along a chain.**  The deadline of a hop is at most that of the hop before,
at most its own maximum from now, and at most that of its context; its handler runs only before
that deadline, and the header it sends on is that deadline. -/
theorem deadlines_shrink {header : Header} {hops : List Hop} {s : Chain}
    (hrun : run (step codec) ⟨header, none⟩ hops = some s) (hop : Hop)
    (hkept : Meets DeadlineKept (step codec) ⟨header, none⟩ (hops ++ [hop])) :
    (∀ previous ∈ s.previous, hop.deadline codec s ≤ previous) ∧
      hop.deadline codec s ≤ hop.now + hop.cfg.normalized.maximum ∧
      (∀ parent ∈ hop.parent, hop.deadline codec s ≤ parent) ∧
      ∀ ctx sent, hop.handle codec s = .next ctx sent →
        hop.now < hop.deadline codec s ∧
          (forward codec ctx sent hop.via).get deadlineHeader =
            codec.format (hop.deadline codec s) := by
  obtain ⟨hbefore, hlast, -⟩ := (meets_append hrun).mp hkept
  have hcarries : Carries codec s :=
    run_invariant_of (fun _ _ _ _ hk hstep => carries_step hk hstep)
      (fun d hd => absurd hd (Option.not_mem_none d)) hbefore hrun
  obtain ⟨hmax, hparent, hheader⟩ :=
    effectiveDeadline_le codec hop.cfg hop.now hop.parent s.header
  refine ⟨fun previous hp => hheader previous (hcarries previous hp), hmax, hparent, ?_⟩
  intro ctx sent hnext
  exact ⟨(handle_next hnext).1, forward_deadline hnext hlast⟩

/-- Times written as tallies. -/
def tally : TimeFormat where
  format
    | .ofNat n => 0x2B :: List.replicate n 0x31
    | .negSucc n => 0x2D :: List.replicate n 0x31
  parse
    | 0x2B :: digits => some (.ofNat digits.length)
    | 0x2D :: digits => some (.negSucc digits.length)
    | _ => none
  parse_format t := by cases t <;> simp
  parse_nil := rfl

/-- A gateway that sends requests on, and a service that calls others. -/
def gatewayHop (now : Int) : Hop := ⟨⟨5, 10⟩, now, none, [], .proxy⟩

def serviceHop (now : Int) : Hop := ⟨⟨5, 10⟩, now, none, [], .executor ∅⟩

/-- A request that is to be answered by the time 3. -/
def byThree : Header := (∅ : Header).set deadlineHeader (tally.format 3)

theorem deadlines_shrink_byThree :
    ∃ s, run (step tally) ⟨byThree, none⟩ [gatewayHop 0] = some s ∧ s.previous = some 3 ∧
      (serviceHop 1).deadline tally s ≤ 3 := by
  have hrun : (run (step tally) ⟨byThree, none⟩ [gatewayHop 0]).map (fun s => s.previous) =
      some (some 3) := by decide +kernel
  obtain ⟨s, hs, hprevious⟩ := Option.map_eq_some_iff.mp hrun
  exact ⟨s, hs, hprevious,
    (deadlines_shrink hs (serviceHop 1) (by decide +kernel)).1 3 hprevious⟩

/-- The client names the deadline's header in its `Connection` header: the gateway's deadline is
3, the request goes on without one, and the service gives it until 6. -/
theorem deadline_dropped :
    (run (step tally) ⟨byThree.set (str "Connection") (str "X-Request-Deadline"), none⟩
        [gatewayHop 0]).map
      (fun s => (s.previous, s.header.get deadlineHeader, (serviceHop 1).deadline tally s)) =
        some (some 3, [], 6) := by
  decide +kernel

end OrderSystem.Resilience
