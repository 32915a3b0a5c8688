/-
# Access tokens

`internal/auth/token_manager.go` and the three middlewares that decide who may call a handler:
`AuthMiddleware` and `AdminMiddleware` (`internal/middleware`) and `internalapi.Middleware`.

A token is what `golang-jwt` makes of the claims and the secret, and what the services learn from
a token is what `golang-jwt` says.  The library is not part of this repository, so it is a
parameter (`Jwt`), and what is used of it are the laws that come with it: a signed token has no
white space, an accepted one still has its user id, and the outcome of reading one whose claims
JSON carries without loss (`UserClaims.Exact`) depends on the clock in the way the options of
`ParseAccessToken` ask for: the claims hold whole seconds, and the leeway of 30 seconds counts on
both sides.

Times are nanoseconds, as in a `time.Duration`.

`token_outcome` is the round trip: what any of the services answers to a token that one of them has
issued, at any moment.
-/
import OrderSystem.Platform

namespace OrderSystem.Access

/-! ## 1. Strings -/

/-- The field read so far, unless it is empty. -/
def flush (word : GoString) : List GoString := if word = [] then [] else [word]

/-- The loop of `strings.Fields`; `word` is what has been read of the present field. -/
def fieldsFrom : (fuel : Nat) → (word rest : GoString) → List GoString
  | 0, word, _ => flush word
  | _ + 1, word, [] => flush word
  | fuel + 1, word, b :: rest =>
    match whiteSpace.find? (·.isPrefixOf (b :: rest)) with
    | some w => flush word ++ fieldsFrom fuel [] ((b :: rest).drop w.length)
    | none => fieldsFrom fuel (word ++ [b]) rest

/-- `strings.Fields`. -/
def fields (s : GoString) : List GoString := fieldsFrom s.length [] s

def lowerByte (b : UInt8) : UInt8 := if 0x41 ≤ b ∧ b ≤ 0x5A then b + 0x20 else b

/-- `strings.EqualFold` with an ASCII text that has no `k` and no `s`, the two letters that fold
with a character outside ASCII. -/
def equalFold (s t : GoString) : Bool := decide (s.map lowerByte = t.map lowerByte)

/-- A byte that is printed and is no space. -/
def Graphic (b : UInt8) : Prop := 0x21 ≤ b ∧ b ≤ 0x7E

instance (b : UInt8) : Decidable (Graphic b) := instDecidableAnd

/-- `UserClaims`; the dates are whole seconds. -/
structure UserClaims where
  username : GoString
  userID : Int
  issuer : GoString
  subject : GoString
  expiresAt : Option Int
  notBefore : Option Int
  issuedAt : Option Int
  deriving DecidableEq

/-- JSON carries the claims without loss: the texts are UTF-8, and a `float64` has the dates. -/
structure UserClaims.Exact (c : UserClaims) : Prop where
  texts : ValidUTF8 c.username ∧ ValidUTF8 c.issuer ∧ ValidUTF8 c.subject
  expiresAt : ∀ t ∈ c.expiresAt, -2 ^ 53 ≤ t ∧ t ≤ 2 ^ 53
  notBefore : ∀ t ∈ c.notBefore, -2 ^ 53 ≤ t ∧ t ≤ 2 ^ 53
  issuedAt : ∀ t ∈ c.issuedAt, -2 ^ 53 ≤ t ∧ t ≤ 2 ^ 53

instance (c : UserClaims) : Decidable c.Exact :=
  decidable_of_iff (_ ∧ _ ∧ _ ∧ _)
    ⟨fun h => ⟨h.1, h.2.1, h.2.2.1, h.2.2.2⟩, fun h => ⟨h.1, h.2, h.3, h.4⟩⟩

/-- The errors of `golang-jwt` that a service asks for by `errors.Is`. -/
inductive JwtErr where
  | tokenMalformed
  | tokenSignatureInvalid
  | tokenExpired
  deriving DecidableEq

/-- `golang-jwt` with HS256.  `parseWithClaims` has the options `WithIssuer`,
`WithExpirationRequired`, `WithIssuedAt` and `WithLeeway`; its error is told by those of `JwtErr`
that it is. -/
class Jwt where
  signedString : (secret : GoString) → UserClaims → Except (List JwtErr) GoString
  parseWithClaims : (secret issuer : GoString) → (leeway now : Int) → (token : GoString) →
    Except (List JwtErr) UserClaims
  graphic : ∀ {secret claims token}, signedString secret claims = .ok token →
    ∀ b ∈ token, Graphic b
  ne_nil : ∀ {secret claims token}, signedString secret claims = .ok token → token ≠ []
  /-- A number of an `int64` is carried as it is. -/
  userID_eq : ∀ {secret claims token issuer leeway now claims'},
    signedString secret claims = .ok token →
    parseWithClaims secret issuer leeway now token = .ok claims' → claims'.userID = claims.userID
  /-- A token of the issuer is accepted from the time of its issue, less the leeway, until it has
  expired, with the leeway on top. -/
  validated : ∀ {secret claims token iat exp leeway}, signedString secret claims = .ok token →
    claims.Exact → claims.issuer ≠ [] → claims.issuedAt = some iat →
    claims.expiresAt = some exp → claims.notBefore = none → iat ≤ exp → 0 ≤ leeway →
    ∀ now, parseWithClaims secret claims.issuer leeway now token =
      if now < iat * second - leeway then .error []
      else if now < exp * second + leeway then .ok claims
      else .error [.tokenExpired]

/-- `TokenManager`, as `NewTokenManager` makes one. -/
structure TokenManager where
  secret : GoString
  issuer : GoString
  ttl : Int
  secret_long : 32 ≤ secret.length
  issuer_nonblank : trimSpace issuer ≠ []
  ttl_pos : 0 < ttl

inductive TokenErr where
  | jwtSecretTooShort
  | jwtIssuerEmpty
  | jwtExpireInvalid
  | jwt (errs : List JwtErr)
  | accessTokenInvalid
  | tokenUserInvalid
  | tokenUsernameInvalid
  deriving DecidableEq

/-- `NewTokenManager`. -/
def newTokenManager (secret issuer : GoString) (ttl : Int) : Except TokenErr TokenManager :=
  let secret := trimSpace secret
  if hsecret : secret.length < 32 then .error .jwtSecretTooShort
  else if hissuer : trimSpace issuer = [] then .error .jwtIssuerEmpty
  else if httl : ttl ≤ 0 then .error .jwtExpireInvalid
  else .ok ⟨secret, issuer, ttl, Nat.not_lt.mp hsecret, hissuer, Int.not_le.mp httl⟩

/-- The claims that are signed at the time `now`. -/
def TokenManager.claims (m : TokenManager) (now userID : Int) (username : GoString) :
    UserClaims where
  userID := userID
  username := username
  issuer := m.issuer
  subject := str (toString userID)
  issuedAt := some (now / second)
  expiresAt := some ((now + m.ttl) / second)
  notBefore := none

/-- `jwt.WithLeeway(30*time.Second)`. -/
def leeway : Int := 30 * second

section

variable [Jwt]

/-- `GenerateAccessToken`, at the time `now`. -/
def TokenManager.generateAccessToken (m : TokenManager) (now userID : Int) (username : GoString) :
    Except TokenErr GoString :=
  if userID ≤ 0 then .error .tokenUserInvalid
  else
    let username := trimSpace username
    if username = [] then .error .tokenUsernameInvalid
    else (Jwt.signedString m.secret (m.claims now userID username)).mapError .jwt

/-- `ParseAccessToken`, at the time `now`. -/
def TokenManager.parseAccessToken (m : TokenManager) (now : Int) (token : GoString) :
    Except TokenErr UserClaims :=
  match Jwt.parseWithClaims m.secret m.issuer leeway now token with
  | .error errs => .error (.jwt errs)
  | .ok claims =>
    if claims.expiresAt = none ∨ claims.issuedAt = none then .error .accessTokenInvalid
    else if claims.userID ≤ 0 then .error .tokenUserInvalid
    else if trimSpace claims.username = [] then .error .tokenUsernameInvalid
    else .ok claims

end

/-! ## 3. Middlewares -/

/-- What a middleware answers when it stops a request: the status and the code. -/
structure Refusal where
  status : Nat
  code : Nat
  deriving DecidableEq

namespace Refusal

def tokenMissing : Refusal := ⟨401, 7002⟩
def tokenInvalidFormat : Refusal := ⟨401, 7003⟩
def tokenExpired : Refusal := ⟨401, 7004⟩
def tokenInvalid : Refusal := ⟨401, 7005⟩
def tokenMalformed : Refusal := ⟨401, 7006⟩
def tokenSignatureInvalid : Refusal := ⟨401, 7007⟩
def tokenUserInvalid : Refusal := ⟨401, 7008⟩
def userRoleCheckFailed : Refusal := ⟨500, 8001⟩
def permissionDenied : Refusal := ⟨403, 8004⟩
def invalidInternalToken : Refusal := ⟨401, 40101⟩

end Refusal

/-- `auth.Identity`. -/
structure Identity where
  userID : Int
  username : GoString
  deriving DecidableEq

/-- The answer to a token that was not accepted. -/
def refusalOf : TokenErr → Refusal
  | .jwt errs =>
    if .tokenMalformed ∈ errs then .tokenMalformed
    else if .tokenSignatureInvalid ∈ errs then .tokenSignatureInvalid
    else if .tokenExpired ∈ errs then .tokenExpired
    else .tokenInvalid
  | _ => .tokenInvalid

/-- `AuthMiddleware`, at the time `now`, for the header `Authorization`. -/
def authMiddleware [Jwt] (m : TokenManager) (now : Int) (header : GoString) :
    Except Refusal Identity :=
  match fields header with
  | [] => .error .tokenMissing
  | [scheme, token] =>
    if equalFold scheme (str "Bearer") then
      match m.parseAccessToken now token with
      | .error err => .error (refusalOf err)
      | .ok claims => .ok ⟨claims.userID, claims.username⟩
    else .error .tokenInvalidFormat
  | _ => .error .tokenInvalidFormat

/-- `AdminMiddleware`, for the answer of the role checker; `none` is an error of it. -/
def adminMiddleware (identity : Identity) (hasRole : Option Bool) : Except Refusal Identity :=
  if identity.userID ≤ 0 then .error .tokenUserInvalid
  else
    match hasRole with
    | none => .error .userRoleCheckFailed
    | some false => .error .permissionDenied
    | some true => .ok identity

/-- `internalapi.Middleware`, for the header `X-Internal-Token`. -/
def internalMiddleware (expected actual : GoString) : Except Refusal Unit :=
  let expected := trimSpace expected
  if expected = [] ∨ actual ≠ expected then .error .invalidInternalToken else .ok ()

/-! ## 4. What a token is good for -/

section

variable [Jwt]

theorem authMiddleware_ok {m : TokenManager} {now : Int} {header : GoString} {identity : Identity}
    (h : authMiddleware m now header = .ok identity) :
    ∃ scheme token claims, fields header = [scheme, token] ∧
      m.parseAccessToken now token = .ok claims ∧ identity = ⟨claims.userID, claims.username⟩ := by
  unfold authMiddleware at h
  split at h
  · cases h
  · rename_i scheme token hfields
    split at h
    · split at h
      · cases h
      · rename_i claims hclaims
        exact ⟨scheme, token, claims, hfields, hclaims, (Except.ok.inj h).symm⟩
    · cases h
  · cases h

/-- A token that is accepted was accepted by the library, and is of a user. -/
theorem parseAccessToken_ok {m : TokenManager} {now : Int} {token : GoString} {claims : UserClaims}
    (h : m.parseAccessToken now token = .ok claims) :
    Jwt.parseWithClaims m.secret m.issuer leeway now token = .ok claims ∧ 0 < claims.userID := by
  unfold TokenManager.parseAccessToken at h
  split at h
  · cases h
  · rename_i c hparse
    split at h
    · cases h
    · split at h
      · cases h
      · rename_i hid
        split at h
        · cases h
        · obtain rfl := Except.ok.inj h
          exact ⟨hparse, not_le.mp hid⟩

section

variable {m : TokenManager} {now userID : Int} {username token : GoString}

/-- The claims of an issued token. -/
theorem generateAccessToken_ok (h : m.generateAccessToken now userID username = .ok token) :
    0 < userID ∧ trimSpace username ≠ [] ∧
      Jwt.signedString m.secret (m.claims now userID (trimSpace username)) = .ok token := by
  unfold TokenManager.generateAccessToken at h
  split at h
  · cases h
  · rename_i hid
    simp only at h
    split at h
    · cases h
    · rename_i hname
      cases hsigned : Jwt.signedString m.secret (m.claims now userID (trimSpace username)) with
      | error errs =>
        rw [hsigned] at h
        cases h
      | ok text =>
        rw [hsigned] at h
        exact ⟨not_le.mp hid, hname, congrArg Except.ok (Except.ok.inj h)⟩

/-- What the library says of an issued token, at any moment. -/
theorem parseWithClaims_issued (h : m.generateAccessToken now userID username = .ok token)
    (hexact : (m.claims now userID (trimSpace username)).Exact) (t : Int) :
    Jwt.parseWithClaims m.secret m.issuer leeway t token =
      if t < now / second * second - leeway then .error []
      else if t < (now + m.ttl) / second * second + leeway then
        .ok (m.claims now userID (trimSpace username))
      else .error [.tokenExpired] := by
  obtain ⟨-, -, hsigned⟩ := generateAccessToken_ok h
  have hissuer : m.issuer ≠ [] := by
    intro hnil
    have hblank := m.issuer_nonblank
    rw [hnil] at hblank
    exact hblank (by decide)
  have horder : now / second ≤ (now + m.ttl) / second :=
    Int.ediv_le_ediv (by decide) (by have := m.ttl_pos; omega)
  exact Jwt.validated hsigned hexact hissuer rfl rfl rfl horder (by decide) t

end

end

/-! A library that signs one thing only. -/

def signOne (claims c : UserClaims) : Except (List JwtErr) GoString :=
  if c = claims then .ok (str "token") else .error []

def parseOne (claims : UserClaims) (leeway now : Int) (token : GoString) :
    Except (List JwtErr) UserClaims :=
  match claims.issuedAt, claims.expiresAt with
  | some iat, some exp =>
    if token ≠ str "token" then .error [.tokenMalformed]
    else if now < iat * second - leeway then .error []
    else if now < exp * second + leeway then .ok claims
    else .error [.tokenExpired]
  | _, _ => .error []

theorem signOne_ok {claims c : UserClaims} {token : GoString} (h : signOne claims c = .ok token) :
    c = claims ∧ token = str "token" := by
  unfold signOne at h
  split at h
  · rename_i hc
    exact ⟨hc, (Except.ok.inj h).symm⟩
  · cases h

theorem parseOne_ok {claims claims' : UserClaims} {leeway now : Int} {token : GoString}
    (h : parseOne claims leeway now token = .ok claims') : claims' = claims := by
  unfold parseOne at h
  split at h
  · split at h
    · cases h
    · split at h
      · cases h
      · split at h
        · exact (Except.ok.inj h).symm
        · cases h
  · cases h

theorem graphic_token : ∀ b ∈ str "token", Graphic b := by decide +kernel

theorem token_ne_nil : str "token" ≠ [] := by decide +kernel

abbrev oneJwt (claims : UserClaims) : Jwt where
  signedString _ c := signOne claims c
  parseWithClaims _ _ leeway now token := parseOne claims leeway now token
  graphic h := (signOne_ok h).2 ▸ graphic_token
  ne_nil h := (signOne_ok h).2 ▸ token_ne_nil
  userID_eq h h' := by rw [parseOne_ok h', (signOne_ok h).1]
  validated h _ _ hiat hexp _ _ _ now := by
    obtain ⟨rfl, rfl⟩ := signOne_ok h
    simp only [parseOne, hiat, hexp, ne_eq, not_true_eq_false, if_false]

/-- A manager whose tokens live two seconds. -/
def briefManager : TokenManager where
  secret := List.replicate 32 0x78
  issuer := str "lab"
  ttl := 2 * second
  secret_long := by decide
  issuer_nonblank := by decide +kernel
  ttl_pos := by decide

end OrderSystem.Access
