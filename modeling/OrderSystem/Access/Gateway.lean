/-
# From the gateway to a handler

`cmd/api-gateway/main.go`, and the route tables of the four services behind it: `main.go` of the
identity service and `RegisterRoutes` of `catalogsvc`, `inventorysvc` and `ordersvc`, with
`RegisterReliabilityRoutes`.

The gateway looks at the path alone.  It hands a request to the service whose prefix the path has,
path and headers as they are, the one with the internal token among them.  A service's router picks
the route, and the middlewares of its group run before the handler.  So what keeps a client from
the internal routes is not the gateway's table but that no path with one of its prefixes is the
path of an internal route (`gateway_table`).

gin's router is not part of this repository, so it is a parameter (`Router`).  What is used of it is
that the route it picks is of the table and matches: the method is the route's, and the path has
the segments of the route, where a parameter may be any segment.  Which route it picks, and whether
it picks one, is left open; without one the answer is 404 or a redirect (`noRoute`).

Left out: the rewriting of escapes in a path, which the gateway and the services do alike before
they look at it, and the headers that no guard reads.
-/
import OrderSystem.Access.Token

namespace OrderSystem.Access

/-! ## 1. Paths -/

def slash : UInt8 := 0x2F

/-- The segments of a path. -/
def segments : GoString → List GoString
  | [] => [[]]
  | b :: path =>
    if b = slash then [] :: segments path
    else
      match segments path with
      | [] => [[b]]
      | word :: words => (b :: word) :: words

/-- `pathMatches`. -/
def pathMatches (path lead : GoString) : Bool :=
  path == lead || (lead ++ [slash]).isPrefixOf path

/-- `singleJoiningSlash` of `httputil`. -/
def singleJoiningSlash (a b : GoString) : GoString :=
  match a.getLast? == some slash, b.head? == some slash with
  | true, true => a ++ b.tail
  | false, false => a ++ slash :: b
  | _, _ => a ++ b

theorem segments_ne_nil (path : GoString) : segments path ≠ [] := by
  induction path with
  | nil => simp [segments]
  | cons b path ih =>
    rw [segments]
    split
    · simp
    · split
      · simp
      · simp

theorem segments_append (p q : GoString) :
    segments (p ++ slash :: q) = segments p ++ segments q := by
  induction p with
  | nil => simp [segments]
  | cons b p ih =>
    rw [List.cons_append, segments, segments, ih]
    split
    · rfl
    · cases hp : segments p with
      | nil => exact absurd hp (segments_ne_nil p)
      | cons word words => rfl

/-- The segments of a prefix are the first segments of a path that it matches. -/
theorem segments_of_pathMatches {path p : GoString} (h : pathMatches path p = true) :
    segments p <+: segments path := by
  simp only [pathMatches, Bool.or_eq_true, beq_iff_eq] at h
  rcases h with rfl | h
  · exact List.prefix_rfl
  · obtain ⟨rest, rfl⟩ := List.isPrefixOf_iff_prefix.mp h
    rw [List.append_assoc, List.singleton_append, segments_append]
    exact List.prefix_append _ _

/-! ## 2. Routes -/

inductive ServiceName where
  | identity
  | catalog
  | inventory
  | order
  deriving DecidableEq

inductive Method where
  | get
  | post
  | put
  | patch
  | other (name : GoString)
  deriving DecidableEq

/-- The middlewares of a group of routes. -/
inductive Guard where
  /-- none -/
  | free
  /-- `AuthMiddleware` -/
  | auth
  /-- `AuthMiddleware` and `AdminMiddleware` -/
  | admin
  /-- `internalapi.Middleware` -/
  | internal
  deriving DecidableEq

inductive Handler where
  | ping
  | live
  | readyz
  | metrics
  | register
  | login
  | me
  | updateProfile
  | updatePassword
  | userRole
  | listProducts
  | getProduct
  | createProduct
  | onSale
  | offSale
  | internalGetProduct
  | getInventory
  | initInventory
  | addInventory
  | listLogs
  | reserve
  | confirm
  | release
  | createOrder
  | getOrder
  | listOrders
  | cancelOrder
  | payOrder
  | finishOrder
  | timeoutCancel
  | reliability
  deriving DecidableEq

/-- A segment of a route: a word, or a parameter. -/
inductive Segment where
  | word (w : GoString)
  | param
  deriving DecidableEq

structure Route where
  method : Method
  path : List Segment
  guard : Guard
  handler : Handler

/-- The segments of a route of the source; a segment that begins with a colon is a parameter. -/
def pattern (path : String) : List Segment :=
  (segments (str path)).map fun w => if w.head? = some 0x3A then .param else .word w

/-- `PingHandler`, `LiveHandler` and `ReadyzHandler`, in every service. -/
def healthRoutes : List Route :=
  [⟨.get, pattern "/ping", .free, .ping⟩, ⟨.get, pattern "/live", .free, .live⟩,
    ⟨.get, pattern "/readyz", .free, .readyz⟩]

/-- The routes of a service. -/
def routesOf : ServiceName → List Route
  | .identity => healthRoutes ++
    [⟨.post, pattern "/api/v1/auth/register", .free, .register⟩,
      ⟨.post, pattern "/api/v1/auth/login", .free, .login⟩,
      ⟨.get, pattern "/api/v1/users/me", .auth, .me⟩,
      ⟨.put, pattern "/api/v1/users/me/profile", .auth, .updateProfile⟩,
      ⟨.patch, pattern "/api/v1/users/me/password", .auth, .updatePassword⟩,
      ⟨.get, pattern "/internal/v1/users/:id/roles/:role", .internal, .userRole⟩]
  | .catalog => healthRoutes ++
    [⟨.get, pattern "/api/v1/products", .auth, .listProducts⟩,
      ⟨.get, pattern "/api/v1/products/:id", .auth, .getProduct⟩,
      ⟨.post, pattern "/api/v1/products", .admin, .createProduct⟩,
      ⟨.patch, pattern "/api/v1/products/:id/on-sale", .admin, .onSale⟩,
      ⟨.patch, pattern "/api/v1/products/:id/off-sale", .admin, .offSale⟩,
      ⟨.get, pattern "/internal/v1/products/:id", .internal, .internalGetProduct⟩]
  | .inventory => healthRoutes ++
    [⟨.get, pattern "/api/v1/inventory/products/:product_id", .auth, .getInventory⟩,
      ⟨.post, pattern "/api/v1/inventory/init", .admin, .initInventory⟩,
      ⟨.post, pattern "/api/v1/inventory/add", .admin, .addInventory⟩,
      ⟨.get, pattern "/api/v1/stock-logs", .admin, .listLogs⟩,
      ⟨.post, pattern "/internal/v1/reservations", .internal, .reserve⟩,
      ⟨.post, pattern "/internal/v1/reservations/:id/confirm", .internal, .confirm⟩,
      ⟨.post, pattern "/internal/v1/reservations/:id/release", .internal, .release⟩]
  | .order => healthRoutes ++
    [⟨.post, pattern "/api/v1/orders", .auth, .createOrder⟩,
      ⟨.get, pattern "/api/v1/orders/:id", .auth, .getOrder⟩,
      ⟨.get, pattern "/api/v1/orders", .auth, .listOrders⟩,
      ⟨.patch, pattern "/api/v1/orders/:id/cancel", .auth, .cancelOrder⟩,
      ⟨.patch, pattern "/api/v1/orders/:id/pay", .auth, .payOrder⟩,
      ⟨.patch, pattern "/api/v1/orders/:id/finish", .auth, .finishOrder⟩,
      ⟨.post, pattern "/internal/v1/orders/:id/timeout-cancel", .internal, .timeoutCancel⟩,
      ⟨.get, pattern "/internal/v1/operations/reliability", .internal, .reliability⟩]

/-- The path has the segments of the route. -/
def matchSegments : List Segment → List GoString → Bool
  | [], [] => true
  | .word w :: ps, s :: ss => s == w && matchSegments ps ss
  | .param :: ps, _ :: ss => matchSegments ps ss
  | _, _ => false

def Route.matches (r : Route) (method : Method) (path : GoString) : Bool :=
  decide (r.method = method) && matchSegments r.path (segments path)

/-- The router of gin: the route it picks, for the routes that are registered. -/
class Router where
  route : List Route → Method → (path : GoString) → Option Route
  mem_of_route : ∀ {routes method path r}, route routes method path = some r → r ∈ routes
  matches_of_route : ∀ {routes method path r}, route routes method path = some r →
    r.matches method path = true

/-! ## 3. The gateway -/

structure HttpRequest where
  method : Method
  path : GoString
  authorization : GoString
  internalToken : GoString

/-- What is configured: the managers of the services have one secret and one issuer, and the
addresses of the services have no path. -/
structure Deployment where
  manager : ServiceName → TokenManager
  secret_shared : ∀ s, (manager s).secret = (manager .identity).secret
  issuer_shared : ∀ s, (manager s).issuer = (manager .identity).issuer
  internalToken : GoString
  base : ServiceName → GoString
  base_plain : ∀ s, base s = [] ∨ base s = [slash]

/-- What becomes of a request. -/
inductive Outcome where
  /-- the gateway answers by itself -/
  | gateway (handler : Handler)
  | rateLimited
  | routeNotFound
  /-- the service has no route for it -/
  | noRoute
  | refused (refusal : Refusal)
  | handled (handler : Handler) (identity : Option Identity)
  deriving DecidableEq

section

variable [Jwt] [Router]

/-- The middlewares of a route, at the time `now` of the service; `hasRole` is what the role
checker answers. -/
def Guard.run (d : Deployment) (service : ServiceName) (now : Int) (hasRole : Int → Option Bool)
    (req : HttpRequest) : Guard → Except Refusal (Option Identity)
  | .free => .ok none
  | .auth => (authMiddleware (d.manager service) now req.authorization).map some
  | .admin => do
    let identity ← authMiddleware (d.manager service) now req.authorization
    (adminMiddleware identity (hasRole identity.userID)).map some
  | .internal => (internalMiddleware d.internalToken req.internalToken).map fun _ => none

/-- The server of a service: `InstrumentHTTP` keeps `/metrics` to itself. -/
def serviceServe (d : Deployment) (service : ServiceName) (now : Int)
    (hasRole : Int → Option Bool) (req : HttpRequest) : Outcome :=
  if req.path = str "/metrics" then .handled .metrics none
  else
    match Router.route (routesOf service) req.method req.path with
    | none => .noRoute
    | some route =>
      match route.guard.run d service now hasRole req with
      | .error refusal => .refused refusal
      | .ok identity => .handled route.handler identity

/-- The prefixes of `buildRoutes`. -/
def gatewayRoutes : List (GoString × ServiceName) :=
  [(str "/api/v1/auth", .identity), (str "/api/v1/users", .identity),
    (str "/api/v1/products", .catalog), (str "/api/v1/inventory", .inventory),
    (str "/api/v1/stock-logs", .inventory), (str "/api/v1/orders", .order)]

/-- `ServeHTTP` of the gateway, behind `InstrumentHTTP`; `allowed` is what the limiter says. -/
def gatewayServe (d : Deployment) (allowed : Bool) (now : Int) (hasRole : Int → Option Bool)
    (req : HttpRequest) : Outcome :=
  if req.path = str "/metrics" then .gateway .metrics
  else if req.path = str "/ping" then .gateway .ping
  else if req.path = str "/live" then .gateway .live
  else if req.path = str "/readyz" then .gateway .readyz
  else if ¬allowed then .rateLimited
  else
    match gatewayRoutes.find? fun r => pathMatches req.path r.1 with
    | none => .routeNotFound
    | some (_, service) =>
      serviceServe d service now hasRole
        { req with path := singleJoiningSlash (d.base service) req.path }

end

/-! ## 4. What the gateway lets through -/

/-- The first segments of a path decide which routes it can have. -/
def compatible : List Segment → List GoString → Bool
  | .word w :: ps, s :: ss => s == w && compatible ps ss
  | .param :: ps, _ :: ss => compatible ps ss
  | _, [] => true
  | [], _ :: _ => false

theorem compatible_of_match {ps : List Segment} {ss start : List GoString} (hstart : start <+: ss)
    (h : matchSegments ps ss = true) : compatible ps start = true := by
  induction ps generalizing ss start with
  | nil =>
    cases ss with
    | nil =>
      obtain rfl := List.prefix_nil.mp hstart
      rfl
    | cons s ss => cases h
  | cons p ps ih =>
    cases start with
    | nil =>
      cases p with
      | word w | param => rfl
    | cons s' start =>
      obtain ⟨rest, rfl⟩ := hstart
      cases p with
      | word w =>
        simp only [List.cons_append, matchSegments, Bool.and_eq_true] at h
        simp only [compatible, Bool.and_eq_true]
        exact ⟨h.1, ih (List.prefix_append start rest) h.2⟩
      | param => exact ih (List.prefix_append start rest) h

/-- **The table.**  A route that can be reached under a prefix of the gateway is neither internal
nor a health check. -/
theorem gateway_table : ∀ g ∈ gatewayRoutes, ∀ r ∈ routesOf g.2,
    compatible r.path (segments g.1) = true → r.guard ≠ .internal ∧
      (r.guard = .free → r.handler = .register ∨ r.handler = .login) := by
  decide +kernel

/-- The guard of a handler, as the tables have it. -/
def Handler.guard (h : Handler) : Guard :=
  match ([ServiceName.identity, .catalog, .inventory, .order].flatMap routesOf).find?
      fun r => decide (r.handler = h) with
  | some r => r.guard
  | none => .free

/-- A handler has one guard. -/
theorem guard_handler {service : ServiceName} {r : Route} (hr : r ∈ routesOf service) :
    r.handler.guard = r.guard := by
  have hall : ∀ service, ∀ r ∈ routesOf service, r.handler.guard = r.guard := by
    intro service
    cases service with
    | identity | catalog | inventory | order => decide +kernel
  exact hall service r hr

theorem joined_path {base path : GoString} (hbase : base = [] ∨ base = [slash])
    (hpath : path.head? = some slash) : singleJoiningSlash base path = path := by
  obtain ⟨rest, rfl⟩ := List.head?_eq_some_iff.mp hpath
  rcases hbase with rfl | rfl
  · rfl
  · rfl

/-- Every prefix begins with a slash, and so does a path that has it. -/
theorem head?_of_pathMatches {path p : GoString} (hp : p.head? = some slash)
    (h : pathMatches path p = true) : path.head? = some slash := by
  obtain ⟨rest, rfl⟩ := List.head?_eq_some_iff.mp hp
  simp only [pathMatches, Bool.or_eq_true, beq_iff_eq] at h
  rcases h with rfl | h
  · rfl
  · obtain ⟨tail, rfl⟩ := List.isPrefixOf_iff_prefix.mp h
    rfl

/-- The guard of a route that was reached through the gateway. -/
theorem reached_guard {g : GoString × ServiceName} (hg : g ∈ gatewayRoutes) {r : Route}
    (hr : r ∈ routesOf g.2) {req : HttpRequest} (hpath : pathMatches req.path g.1 = true)
    (hmatch : r.matches req.method req.path = true) :
    r.guard ≠ .internal ∧ (r.guard = .free → r.handler = .register ∨ r.handler = .login) := by
  simp only [Route.matches, Bool.and_eq_true] at hmatch
  exact gateway_table g hg r hr (compatible_of_match (segments_of_pathMatches hpath) hmatch.2)

section

variable [Jwt] [Router] {d : Deployment} {service : ServiceName} {allowed : Bool} {now : Int}
  {hasRole : Int → Option Bool} {req : HttpRequest} {handler : Handler} {identity : Option Identity}

omit [Router] in
/-- What a guard that lets a request pass has seen. -/
theorem guard_ok {g : Guard} (h : g.run d service now hasRole req = .ok identity) :
    (g = .auth ∨ g = .admin → ∃ u, identity = some u ∧
      authMiddleware (d.manager service) now req.authorization = .ok u) ∧
    (g = .admin → ∃ u, identity = some u ∧ hasRole u.userID = some true) := by
  cases g with
  | free | internal =>
    refine ⟨?_, fun hg => by cases hg⟩
    rintro (hg | hg)
    · cases hg
    · cases hg
  | auth =>
    refine ⟨fun _ => ?_, fun hg => by cases hg⟩
    simp only [Guard.run] at h
    cases hauth : authMiddleware (d.manager service) now req.authorization with
    | error e =>
      rw [hauth] at h
      cases h
    | ok u =>
      rw [hauth] at h
      exact ⟨u, (Except.ok.inj h).symm, rfl⟩
  | admin =>
    simp only [Guard.run] at h
    cases hauth : authMiddleware (d.manager service) now req.authorization with
    | error e =>
      rw [hauth] at h
      cases h
    | ok u =>
      rw [hauth] at h
      simp only [bind, Except.bind, adminMiddleware] at h
      split at h
      · cases h
      · split at h
        · cases h
        · cases h
        · rename_i hrole
          obtain rfl := Except.ok.inj h
          exact ⟨fun _ => ⟨u, rfl, rfl⟩, fun _ => ⟨u, rfl, hrole⟩⟩

theorem serviceServe_handled (hpath : req.path ≠ str "/metrics")
    (h : serviceServe d service now hasRole req = .handled handler identity) :
    ∃ r ∈ routesOf service, r.matches req.method req.path = true ∧
      r.handler = handler ∧ r.guard.run d service now hasRole req = .ok identity := by
  rw [serviceServe, if_neg hpath] at h
  split at h
  · cases h
  · rename_i route hfind
    split at h
    · cases h
    · rename_i identity' hrun
      obtain ⟨rfl, rfl⟩ := Outcome.handled.inj h
      exact ⟨route, Router.mem_of_route hfind, Router.matches_of_route hfind, rfl, hrun⟩

/-- The gateway has handed the request, as it is, to a service that has a route for it. -/
theorem gatewayServe_handled
    (h : gatewayServe d allowed now hasRole req = .handled handler identity) :
    ∃ g ∈ gatewayRoutes, pathMatches req.path g.1 = true ∧ ∃ r ∈ routesOf g.2,
      r.matches req.method req.path = true ∧ r.handler = handler ∧
        r.guard.run d g.2 now hasRole req = .ok identity := by
  unfold gatewayServe at h
  split at h
  · cases h
  · rename_i hmetrics
    split at h
    · cases h
    · split at h
      · cases h
      · split at h
        · cases h
        · split at h
          · cases h
          · split at h
            · cases h
            · rename_i lead service hfind
              have hmem := List.mem_of_find?_eq_some hfind
              have hmatch := List.find?_some hfind
              have hleads : ∀ g ∈ gatewayRoutes, g.1.head? = some slash := by decide +kernel
              have hjoin := joined_path (d.base_plain service)
                (head?_of_pathMatches (hleads _ hmem) hmatch)
              rw [hjoin] at h
              exact ⟨_, hmem, hmatch, serviceServe_handled hmetrics h⟩

/-- What a handler that runs shows, by its guard. -/
theorem gatewayServe_guarded
    (h : gatewayServe d allowed now hasRole req = .handled handler identity) :
    handler.guard ≠ .internal ∧
    (handler.guard = .free → handler = .register ∨ handler = .login) ∧
    (handler.guard ≠ .free → ∃ service u, identity = some u ∧
      authMiddleware (d.manager service) now req.authorization = .ok u) ∧
    (handler.guard = .admin → ∃ u, identity = some u ∧ hasRole u.userID = some true) := by
  obtain ⟨g, hg, hpath, r, hr, hmatch, rfl, hrun⟩ := gatewayServe_handled h
  obtain ⟨hinternal, hfree⟩ := reached_guard hg hr hpath hmatch
  obtain ⟨hauth, hadmin⟩ := guard_ok hrun
  rw [guard_handler hr]
  refine ⟨hinternal, hfree, fun hguard => ?_, hadmin⟩
  have hcases : r.guard = .auth ∨ r.guard = .admin := by
    cases hg' : r.guard with
    | free => exact absurd hg' hguard
    | internal => exact absurd hg' hinternal
    | auth => exact Or.inl rfl
    | admin => exact Or.inr rfl
  obtain ⟨u, hu, hok⟩ := hauth hcases
  exact ⟨g.2, u, hu, hok⟩

/-- **No way around the guards.**  Whatever method, path and headers a client sends, a right
internal token included, whatever the role checker answers, and whichever of the routes that match
the router picks: if a handler of a service runs,
the service is the one whose prefix the path has, and the path is that of the handler's route
there.  The handler is none of the internal ones and no health check; without a token it is
`Register` or `Login`; any other runs for the user of a token that the service has accepted, and
those of the administrators only if the role checker has said so. -/
theorem gateway_guarded (d : Deployment) (allowed : Bool) (now : Int) (hasRole : Int → Option Bool)
    (req : HttpRequest) (handler : Handler) (identity : Option Identity)
    (h : gatewayServe d allowed now hasRole req = .handled handler identity) :
    (∃ g ∈ gatewayRoutes, pathMatches req.path g.1 = true ∧ ∃ r ∈ routesOf g.2,
      r.handler = handler ∧ r.guard = handler.guard ∧ r.matches req.method req.path = true) ∧
    handler.guard ≠ .internal ∧
    (handler.guard = .free → handler = .register ∨ handler = .login) ∧
    (handler.guard ≠ .free → ∃ service u, identity = some u ∧
      authMiddleware (d.manager service) now req.authorization = .ok u) ∧
    (handler.guard = .admin → ∃ u, identity = some u ∧ hasRole u.userID = some true) := by
  obtain ⟨g, hg, hpath, r, hr, hmatch, rfl, -⟩ := gatewayServe_handled h
  exact ⟨⟨g, hg, hpath, r, hr, rfl, (guard_handler hr).symm, hmatch⟩, gatewayServe_guarded h⟩

end

/-- The first route that matches. -/
abbrev firstRoute : Router where
  route routes method path := routes.find? (·.matches method path)
  mem_of_route h := List.mem_of_find?_eq_some h
  matches_of_route h := by simpa using List.find?_some h

/-- Every service with the brief tokens. -/
def briefDeployment : Deployment where
  manager _ := briefManager
  secret_shared _ := rfl
  issuer_shared _ := rfl
  internalToken := str "internal"
  base _ := [slash]
  base_plain _ := Or.inr rfl

theorem gateway_guarded_register :
    letI := oneJwt (briefManager.claims 0 1 [])
    letI := firstRoute
    gatewayServe briefDeployment true 0 (fun _ => none)
        ⟨.post, str "/api/v1/auth/register", [], str "internal"⟩ = .handled .register none ∧
      Handler.register.guard ≠ .internal := by
  let _ : Jwt := oneJwt (briefManager.claims 0 1 [])
  let _ : Router := firstRoute
  have h : gatewayServe briefDeployment true 0 (fun _ => none)
      ⟨.post, str "/api/v1/auth/register", [], str "internal"⟩ = .handled .register none := by
    decide +kernel
  exact ⟨h, (gateway_guarded _ _ _ _ _ _ _ h).2.1⟩

end OrderSystem.Access
