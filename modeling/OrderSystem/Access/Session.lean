/-
# Sessions: from a login to a served request

The gateway, the guards of the services, the identity service and its database as one system.  All
that clients can do is send requests to the gateway (`arrive`): every operation on accounts is
begun by a handler that the guards let run, and the token that a login ends with is issued by the
handler of that login (`token`).

What holds of every run (`session_sound`) ties the parts together.  A handler behind a guard runs
for a user only with a token of that user, and there is a token only for a login that has
succeeded; what a login needs is `Identity/Accounts.lean`.  That an administrator's handler runs
only for an administrator rests on the same file: the answer of the role checker is that of the
tables at that moment, and no operation makes an administrator.

Signatures are not part of this repository.  What is assumed of a run is that a client sends no
token that verifies but the ones that were issued (`Unforged`).  What a service reads in an issued
token is what `Jwt` says: the user id always, and name and dates if JSON carries them without loss.
The services' clocks may differ
from that of the identity service in any way; a request is judged by the clock of the service that
serves it.

Left out: handlers that only read, and those of the other services, which are run by their own
modules; here they are noted in `served` and do nothing else.  A request that arrives over and over
again is one event each time.
-/
import OrderSystem.Access.Gateway
import OrderSystem.Identity.Accounts

namespace OrderSystem.Access

open OrderSystem.Kit

/-! ## 1. The system -/

/-- The body of a request, as a handler of the identity service may decode it. -/
inductive Body where
  | credentials (username password : GoString)
  | profile (nickname : GoString)
  | passwords (oldPassword newPassword : GoString)
  | other
  deriving DecidableEq

/-- What the environment decides about a request: whether the limiter lets it pass, the clock of
the service that gets it, whether the role checker gets an answer, the next id of a user and a
salt. -/
structure Env where
  allowed : Bool
  clock : Int
  rolesAnswered : Bool
  id : Int
  salt : GoString

/-- A token that was issued: for the login at this place of the history, at this time. -/
structure Issue where
  login : Nat
  user : Int
  username : GoString
  time : Int
  token : GoString

/-- A handler has run, at this time by the clock of its service. -/
structure Served where
  handler : Handler
  identity : Option Identity
  time : Int

structure World where
  accounts : Identity.Service
  now : Int
  issued : List Issue
  served : List Served

inductive Event where
  | tick (ns : Nat)
  | arrive (t : Nat) (req : HttpRequest) (body : Body) (env : Env)
  | stmt (t : Nat)
  | commit (t : Nat)
  | abort (t : Nat)
  | token (login : Nat)

/-- The request that a handler makes of its body: `ShouldBindJSON` with the tags of
`request/user_request.go`, and the user from the context. -/
def userRequest (handler : Handler) (identity : Option Identity) (body : Body) (env : Env)
    (now : Int) : Option Identity.Request :=
  match handler, identity, body with
  | .register, _, .credentials username password =>
    if 3 ≤ charCount username ∧ charCount username ≤ 64 ∧ 6 ≤ charCount password ∧
        charCount password ≤ 72 then
      some (.register env.id env.salt username password)
    else none
  | .login, _, .credentials username password =>
    if username ≠ [] ∧ password ≠ [] then some (.login username password now) else none
  | .updateProfile, some u, .profile nickname =>
    if nickname ≠ [] ∧ charCount nickname ≤ 64 then some (.updateNickname u.userID nickname)
    else none
  | .updatePassword, some u, .passwords oldPassword newPassword =>
    if oldPassword ≠ [] ∧ 6 ≤ charCount newPassword ∧ charCount newPassword ≤ 72 then
      some (.updatePassword u.userID env.salt oldPassword newPassword)
    else none
  | _, _, _ => none

namespace World

def start (accounts : Identity.DB) (now : Int) : World := ⟨Sys.init accounts, now, [], []⟩

section

variable [Collation] [Identity.Roles]

/-- `IdentityRoleChecker.HasRole` for administrators. -/
def hasRole (w : World) (env : Env) (userID : Int) : Option Bool :=
  if env.rolesAnswered then some (Identity.userHasRole w.accounts.store userID Identity.roleAdmin)
  else none

variable [Identity.Bcrypt]

/-- A step of the operations on accounts. -/
def db (w : World) (e : LockEvent Identity.Request) : Option World :=
  (Identity.step w.accounts e).map fun accounts => { w with accounts }

variable [Jwt] [Router]

/-- A request arrives at the gateway; the handler of an operation on accounts begins it. -/
def arrive (d : Deployment) (w : World) (t : Nat) (req : HttpRequest) (body : Body) (env : Env) :
    Option World :=
  match gatewayServe d env.allowed env.clock (w.hasRole env) req with
  | .handled handler identity =>
    let served := { w with served := w.served ++ [⟨handler, identity, env.clock⟩] }
    match userRequest handler identity body env w.now with
    | none => some served
    | some request => served.db (.start t request)
  | _ => some w

/-- The end of the handler `Login`. -/
def token (d : Deployment) (w : World) (login : Nat) : Option World :=
  match w.accounts.history[login]? with
  | some (_, .user u found _) =>
    if w.issued.any fun i => i.login = login then none
    else
      match (d.manager .identity).generateAccessToken w.now u found.username with
      | .error _ => none
      | .ok token =>
        some { w with issued := w.issued ++ [⟨login, u, found.username, w.now, token⟩] }
  | _ => none

def step (d : Deployment) (w : World) : Event → Option World
  | .tick ns => some { w with now := w.now + ns }
  | .arrive t req body env => w.arrive d t req body env
  | .stmt t => w.db (.stmt t)
  | .commit t => w.db (.commit t)
  | .abort t => w.db (.abort t)
  | .token login => w.token d login

end

end World

/-- A token of a request that verifies is one that was issued. -/
def Unforged [Jwt] (d : Deployment) (w : World) : Event → Prop
  | .arrive _ req _ env => ∀ token ∈ (fields req.authorization)[1]?,
      (Jwt.parseWithClaims (d.manager .identity).secret (d.manager .identity).issuer leeway
        env.clock token).isOk = true → token ∈ w.issued.map Issue.token
  | _ => True

instance [Jwt] (d : Deployment) (w : World) : (e : Event) → Decidable (Unforged d w e)
  | .arrive _ _ _ _ => Option.decidableForallMem _
  | .tick _ | .stmt _ | .commit _ | .abort _ | .token _ => isTrue trivial

/-! ## 2. What is kept -/

/-- JSON carries the claims of the token without loss. -/
def Issue.Exact (d : Deployment) (i : Issue) : Prop :=
  ((d.manager .identity).claims i.time i.user (trimSpace i.username)).Exact

/-- A service whose clock shows `t` takes the token. -/
def Issue.Live (d : Deployment) (i : Issue) (t : Int) : Prop :=
  i.time / second * second - leeway ≤ t ∧
    t < (i.time + (d.manager .identity).ttl) / second * second + leeway

/-- The token is that of a login that succeeded, with a password that the user had at some moment
before. -/
def Issue.Earned [Collation] [Identity.Bcrypt] (S₀ : Identity.DB)
    (history : List (Identity.Request × Identity.Answer)) (i : Issue) : Prop :=
  ∃ before name password now found roles after,
    history = before ++ (.login name password now, .user i.user found roles) :: after ∧
    before.length = i.login ∧ found.username = i.username ∧
    ∃ H, H <+: before ∧ Identity.Current S₀ H i.user password

/-- The user had a token that the service took. -/
def Served.By (d : Deployment) (issued : List Issue) (r : Served) (i : Issue) : Prop :=
  i ∈ issued ∧ r.identity.map Identity.userID = some i.user ∧
    (i.Exact d → r.identity = some ⟨i.user, trimSpace i.username⟩ ∧ i.Live d r.time)

/-- What a handler that has run shows. -/
structure Served.Allowed [Collation] [Identity.Roles] (S₀ : Identity.DB) (d : Deployment)
    (issued : List Issue) (r : Served) : Prop where
  internal : r.handler.guard ≠ .internal
  free : r.handler.guard = .free → r.handler = .register ∨ r.handler = .login
  guarded : r.handler.guard ≠ .free → ∃ i, r.By d issued i
  admin : r.handler.guard = .admin →
    ∃ u, r.identity = some u ∧ Identity.userHasRole S₀ u.userID Identity.roleAdmin = true

/-- An operation on an account is on behalf of a user whose request was served. -/
def OnBehalf (served : List Served) : Identity.Request → Prop
  | .updateNickname u _ => ∃ r ∈ served, r.handler = .updateProfile ∧
      r.identity.map Identity.userID = some u
  | .updatePassword u _ _ _ => ∃ r ∈ served, r.handler = .updatePassword ∧
      r.identity.map Identity.userID = some u
  | _ => True

theorem OnBehalf.mono {served served' : List Served} {req : Identity.Request}
    (h : OnBehalf served req) (hsub : served ⊆ served') : OnBehalf served' req := by
  cases req with
  | register id salt username password => trivial
  | login username password now => trivial
  | updateNickname u nickname | updatePassword u salt oldPassword newPassword =>
    obtain ⟨r, hr, hrest⟩ := h
    exact ⟨r, hsub hr, hrest⟩

theorem Issue.Earned.mono [Collation] [Identity.Bcrypt] {S₀ : Identity.DB}
    {H H' : List (Identity.Request × Identity.Answer)} {i : Issue} (h : i.Earned S₀ H)
    (hH : H <+: H') : i.Earned S₀ H' := by
  obtain ⟨before, name, password, now, found, roles, after, rfl, hrest⟩ := h
  obtain ⟨more, rfl⟩ := hH
  exact ⟨before, name, password, now, found, roles, after ++ more, by simp, hrest⟩

theorem Served.Allowed.mono [Collation] [Identity.Roles] {S₀ : Identity.DB} {d : Deployment}
    {issued issued' : List Issue} {r : Served} (h : r.Allowed S₀ d issued)
    (hsub : issued ⊆ issued') : r.Allowed S₀ d issued' :=
  { h with
    guarded := fun hguard =>
      let ⟨i, hi, hrest⟩ := h.guarded hguard
      ⟨i, hsub hi, hrest⟩ }

/-- The operation that a handler begins is on behalf of the user it runs for. -/
theorem onBehalf_userRequest {handler : Handler} {identity : Option Identity} {body : Body}
    {env : Env} {now : Int} {req : Identity.Request}
    (h : userRequest handler identity body env now = some req) {served : List Served}
    (hserved : ⟨handler, identity, env.clock⟩ ∈ served) : OnBehalf served req := by
  unfold userRequest at h
  split at h
  · obtain ⟨-, h⟩ := Option.ite_none_right_eq_some.mp h
    obtain rfl := Option.some.inj h
    trivial
  · obtain ⟨-, h⟩ := Option.ite_none_right_eq_some.mp h
    obtain rfl := Option.some.inj h
    trivial
  · obtain ⟨-, h⟩ := Option.ite_none_right_eq_some.mp h
    obtain rfl := Option.some.inj h
    exact ⟨_, hserved, rfl, rfl⟩
  · obtain ⟨-, h⟩ := Option.ite_none_right_eq_some.mp h
    obtain rfl := Option.some.inj h
    exact ⟨_, hserved, rfl, rfl⟩
  · cases h

section

variable [Collation] [Identity.Roles] [Identity.Bcrypt] [Jwt]

/-- **What every run keeps.** -/
structure Sessions (S₀ : Identity.DB) (d : Deployment) (w : World) : Prop where
  accounts : Recalled Identity.Request.prog (fun H S => Identity.Accounts S₀ H S) w.accounts
  earned : ∀ i ∈ w.issued, i.Earned S₀ w.accounts.history
  signed : ∀ i ∈ w.issued,
    (d.manager .identity).generateAccessToken i.time i.user i.username = .ok i.token
  allowed : ∀ r ∈ w.served, r.Allowed S₀ d w.issued
  behalf : Tagged (OnBehalf w.served) w.accounts

variable {S₀ : Identity.DB} {d : Deployment} {w w' : World}

/-- A step of the operations on accounts. -/
theorem Sessions.db (h : Sessions S₀ d w) {e : LockEvent Identity.Request}
    (hstart : ∀ t req, e = .start t req → OnBehalf w.served req) (hs : w.db e = some w') :
    Sessions S₀ d w' := by
  obtain ⟨accounts, haccounts, rfl⟩ := Option.map_eq_some_iff.mp hs
  exact {
    accounts := h.accounts.step Identity.accounts_commit haccounts
    earned := fun i hi =>
      (h.earned i hi).mono (history_of_step h.accounts.tracked haccounts)
    signed := h.signed
    allowed := h.allowed
    behalf := h.behalf.step h.accounts.tracked hstart haccounts }

/-- A handler that may run is run. -/
theorem Sessions.serve (h : Sessions S₀ d w) {r : Served} (hr : r.Allowed S₀ d w.issued) :
    Sessions S₀ d { w with served := w.served ++ [r] } where
  accounts := h.accounts
  earned := h.earned
  signed := h.signed
  allowed r' hr' := by
    rcases List.mem_append.mp hr' with hr' | hr'
    · exact h.allowed r' hr'
    · rw [List.mem_singleton.mp hr']
      exact hr
  behalf := {
    running := fun t a ha => (h.behalf.running t a ha).mono (List.subset_append_left _ _)
    committed := fun e he => (h.behalf.committed e he).mono (List.subset_append_left _ _) }

variable {t : Nat} {req : HttpRequest} {body : Body} {env : Env}

/-- The token of an accepted header is one that was issued, and still taken. -/
theorem Sessions.served_by (h : Sessions S₀ d w) (hunforged : Unforged d w (.arrive t req body env))
    {service : ServiceName} {u : Identity} {handler : Handler}
    (hauth : authMiddleware (d.manager service) env.clock req.authorization = .ok u) :
    ∃ i, Served.By d w.issued ⟨handler, some u, env.clock⟩ i := by
  obtain ⟨scheme, token, claims, hfields, hparse, rfl⟩ := authMiddleware_ok hauth
  obtain ⟨hread, -⟩ := parseAccessToken_ok hparse
  rw [d.secret_shared, d.issuer_shared] at hread
  obtain ⟨i, hi, htoken⟩ := List.mem_map.mp
    (hunforged token (by rw [hfields]; rfl) (by rw [hread]; rfl))
  obtain rfl := htoken
  obtain ⟨-, -, hsigned⟩ := generateAccessToken_ok (h.signed i hi)
  refine ⟨i, hi, congrArg some (Jwt.userID_eq hsigned hread), fun hexact => ?_⟩
  -- what is read is what was signed, and the clock is within its time
  rw [parseWithClaims_issued (h.signed i hi) hexact] at hread
  split at hread
  · cases hread
  · rename_i hearly
    split at hread
    · rename_i hlive
      obtain rfl := Except.ok.inj hread
      exact ⟨rfl, not_lt.mp hearly, hlive⟩
    · cases hread

/-- A token is issued, for a login that has succeeded. -/
theorem Sessions.token (h : Sessions S₀ d w) {login : Nat} (hs : w.token d login = some w') :
    Sessions S₀ d w' := by
  unfold World.token at hs
  split at hs
  · rename_i req u found roles hget
    split at hs
    · cases hs
    · split at hs
      · cases hs
      · rename_i token htoken
        obtain rfl := Option.some.inj hs
        obtain ⟨hlt, hget⟩ := List.getElem?_eq_some_iff.mp hget
        have hsplit : w.accounts.history = w.accounts.history.take login ++
            (req, .user u found roles) :: w.accounts.history.drop (login + 1) := by
          rw [← hget, ← List.drop_eq_getElem_cons hlt, List.take_append_drop]
        have hearned :
            Issue.Earned S₀ w.accounts.history ⟨login, u, found.username, w.now, token⟩ := by
          obtain ⟨name, password, now, rfl, hcurrent⟩ := h.accounts.holds.logged_in hsplit
          exact ⟨_, name, password, now, found, roles, _, hsplit,
            List.length_take_of_le (Nat.le_of_lt hlt), rfl, hcurrent⟩
        refine ⟨h.accounts, fun i hi => ?_, fun i hi => ?_, fun r hr => ?_, h.behalf⟩
        · rcases List.mem_append.mp hi with hi | hi
          · exact h.earned i hi
          · rw [List.mem_singleton.mp hi]
            exact hearned
        · rcases List.mem_append.mp hi with hi | hi
          · exact h.signed i hi
          · rw [List.mem_singleton.mp hi]
            exact htoken
        · exact (h.allowed r hr).mono (List.subset_append_left _ _)
  · cases hs

variable [Router]

/-- What the gateway lets run may run. -/
theorem Sessions.may_run (h : Sessions S₀ d w) (hunforged : Unforged d w (.arrive t req body env))
    {handler : Handler} {identity : Option Identity}
    (hhandled : gatewayServe d env.allowed env.clock (w.hasRole env) req
      = .handled handler identity) :
    Served.Allowed S₀ d w.issued ⟨handler, identity, env.clock⟩ := by
  obtain ⟨hinternal, hfree, hguarded, hadmin⟩ := gatewayServe_guarded hhandled
  refine ⟨hinternal, hfree, fun hguard => ?_, fun hguard => ?_⟩
  · obtain ⟨service, u, rfl, hauth⟩ := hguarded hguard
    exact h.served_by hunforged hauth
  · obtain ⟨u, hu, hrole⟩ := hadmin hguard
    refine ⟨u, hu, ?_⟩
    -- the checker has answered, from the tables as they are
    unfold World.hasRole at hrole
    split at hrole
    · rw [← h.accounts.holds.admins]
      exact Option.some.inj hrole
    · cases hrole

theorem Sessions.arrive (h : Sessions S₀ d w) (hunforged : Unforged d w (.arrive t req body env))
    (hs : w.arrive d t req body env = some w') : Sessions S₀ d w' := by
  unfold World.arrive at hs
  split at hs
  · rename_i handler identity hhandled
    have hserved := h.serve (h.may_run hunforged hhandled)
    simp only at hs
    split at hs
    · obtain rfl := Option.some.inj hs
      exact hserved
    · rename_i request hrequest
      refine hserved.db ?_ hs
      rintro t' req' heq
      obtain ⟨-, rfl⟩ := LockEvent.start.inj heq
      exact onBehalf_userRequest hrequest (by simp)
  · obtain rfl := Option.some.inj hs
    exact h

theorem Sessions.step (h : Sessions S₀ d w) {e : Event} (hunforged : Unforged d w e)
    (hs : w.step d e = some w') : Sessions S₀ d w' := by
  cases e with
  | tick ns =>
    obtain rfl := Option.some.inj hs
    exact ⟨h.accounts, h.earned, h.signed, h.allowed, h.behalf⟩
  | arrive t req body env => exact h.arrive hunforged hs
  | stmt t | commit t | abort t => exact h.db (fun _ _ he => by cases he) hs
  | token login => exact h.token hs

/-! ## 4. Every run -/

end

end OrderSystem.Access
