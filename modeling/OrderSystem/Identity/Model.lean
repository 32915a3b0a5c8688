/-
# Users, passwords and roles

`internal/service/user_service.go` and `authorization_service.go` over the tables `users`, `roles`
and `user_roles`, which the monolith and the identity service share.  Each operation is a program
of `Kit/Txn.lean`.  A plain `SELECT` is answered from the committed state at the start of the
operation (`snapshot`).

* `users.username` is unique by the collation of the table (`idx_username`), and `GetUserByUsername`
  finds a user through that index.  `uk_user_id` gives a user one role.
* `UpdatePassword` reads the hash without a lock and replaces it if it is still there
  (`UpdateUserPassword`); the text of the hash is compared by the collation, too.  `RowsAffected`
  counts the rows that were changed.
* The passwords are hashed by bcrypt, which sees 72 bytes of a password (`bcryptKey`).

What the environment decides comes with the request: the id that `AUTO_INCREMENT` hands out, the
salt of a hash and the clock.

Left out: `deleted_at`, which no operation sets, the other time stamps, and the descriptions of
roles.  The rows of `roles` are those that the migrations insert; no operation writes them.
-/
import OrderSystem.Platform
import OrderSystem.Kit.Locking

namespace OrderSystem.Identity

open OrderSystem.Kit

/-! ## 1. Passwords -/

/-- What bcrypt makes of a password: the 72 bytes of its key are the password and a zero byte,
over and over. -/
def bcryptKey (password : GoString) : GoString :=
  (List.range 72).map fun i => (password ++ [0]).getD (i % (password.length + 1)) 0

/-- `golang.org/x/crypto/bcrypt`.  A hash is taken to tell the keys of passwords apart, also when
the database compares it. -/
class Bcrypt [Collation] where
  generateFromPassword : (salt password : GoString) → GoString
  compareHashAndPassword : (hash password : GoString) → Bool
  compare_generate : ∀ salt p q,
    compareHashAndPassword (generateFromPassword salt p) q = true ↔ bcryptKey p = bcryptKey q
  weight_generate : ∀ salt p salt' p',
    Collation.weight (generateFromPassword salt p) =
      Collation.weight (generateFromPassword salt' p') → bcryptKey p = bcryptKey p'

/-- `RoleAdmin`. -/
def roleAdmin : GoString := str "admin"

/-- `RoleUser`. -/
def roleUser : GoString := str "user"

/-- The rows of `roles`: ids and names. -/
class Roles [Collation] where
  rows : List (Int × GoString)
  ids_nodup : (rows.map Prod.fst).Nodup
  admin_ne_user : Collation.weight roleAdmin ≠ Collation.weight roleUser

/-! ## 2. The database -/

/-- A row of `users`; `active` is `status = UserStatusActive`. -/
structure User where
  username : GoString
  passwordHash : GoString
  nickname : GoString
  active : Bool
  lastLoginAt : Option Int
  deriving DecidableEq

/-- The index entries a statement can lock. -/
inductive Key where
  /-- `idx_username`, by weight -/
  | username (weight : GoString)
  /-- primary key of `users` -/
  | user (id : Int)
  /-- `uk_user_id` of `user_roles` -/
  | userRole (userID : Int)
  deriving DecidableEq

abbrev Row : Key → Type
  | .username _ => Option Int
  | .user _ => Option User
  | .userRole _ => Option Int

/-- The errors of the services. -/
inductive Err where
  | usernameAlreadyExists
  | usernameInvalid
  | passwordInvalid
  | invalidCredentials
  | userDisabled
  | userNotFound
  | invalidUserID
  | nicknameInvalid
  | passwordUnchanged
  | oldPasswordIncorrect
  | passwordUpdateConflict
  | defaultRoleNotFound
  /-- any error of the database itself -/
  | storage
  deriving DecidableEq

abbrev DB := Store Row Empty
abbrev Tx := Txn Row Empty Err

namespace DB

/-- The id under a weight in `idx_username`. -/
def idOf (s : DB) (weight : GoString) : Option Int := s.row (.username weight)

def user (s : DB) (id : Int) : Option User := s.row (.user id)

def userRole (s : DB) (userID : Int) : Option Int := s.row (.userRole userID)

/-- No user. -/
def empty : DB where
  row
    | .username _ => none
    | .user _ => none
    | .userRole _ => none
  log := []

end DB

/-! ## 3. Statements -/

def getUser (id : Int) : Tx (Option User) := Txn.get (Key.user id)

def setUser (id : Int) (row : User) : Tx Unit := Txn.set (V := Row) (Key.user id) (some row)

section

variable [Collation]

/-- `GetUserByUsername`. -/
def getUserByUsername (s : DB) (username : GoString) : Option (Int × User) :=
  (s.idOf (Collation.weight username)).bind fun id => (s.user id).map fun row => (id, row)

/-- `CreateUser`: the row gets the next id. -/
def createUser (id : Int) (row : User) : Tx Unit := do
  match ← Txn.get (V := Row) (Key.username (Collation.weight row.username)) with
  | some _ => .fail .usernameAlreadyExists
  | none =>
    match ← getUser id with
    | some _ => .fail .storage
    | none =>
      if id ≤ 0 then .fail .storage
      else do
        Txn.set (V := Row) (Key.username (Collation.weight row.username)) (some id)
        setUser id row

/-- `CreateUserRole`.  `Register` makes of any duplicate key the error for the username. -/
def createUserRole (userID roleID : Int) : Tx Unit := do
  match ← Txn.get (V := Row) (Key.userRole userID) with
  | some _ => .fail .usernameAlreadyExists
  | none => Txn.set (V := Row) (Key.userRole userID) (some roleID)

/-- `UpdateUserPassword`, giving `RowsAffected`. -/
def updateUserPassword (id : Int) (oldHash newHash : GoString) : Tx Nat := do
  match ← getUser id with
  | none => pure 0
  | some row =>
    if Collation.weight row.passwordHash = Collation.weight oldHash ∧
        row.passwordHash ≠ newHash then do
      setUser id { row with passwordHash := newHash }
      pure 1
    else pure 0

/-- `UpdateNicknameByID` and `UpdateLastLoginAtByID`: an update by id, of whatever row is there. -/
def updateUser (id : Int) (f : User → User) : Tx Unit := do
  match ← getUser id with
  | none => pure ()
  | some row => setUser id (f row)

variable [Roles]

/-- `GetRoleByRoleName`, giving the id. -/
def getRoleByRoleName (name : GoString) : Option Int :=
  (Roles.rows.find? fun r => Collation.weight r.2 = Collation.weight name).map Prod.fst

/-- `UserHasRole`. -/
def userHasRole (s : DB) (userID : Int) (roleName : GoString) : Bool :=
  (s.userRole userID).any fun roleID =>
    Roles.rows.any fun r => r.1 = roleID ∧ Collation.weight r.2 = Collation.weight roleName

/-- `ListRoleNamesByUserID`; a user has one role. -/
def listRoleNamesByUserID (s : DB) (userID : Int) : List GoString :=
  match s.userRole userID with
  | none => []
  | some roleID => (Roles.rows.filter fun r => r.1 = roleID).map Prod.snd

/-! ## 4. Operations -/

/-- `validatePassword` accepts. -/
def validPassword (password : GoString) : Bool :=
  decide (6 ≤ password.length ∧ password.length ≤ 72)

variable [Bcrypt]

/-- `Register`. -/
def register (id : Int) (salt username password : GoString) : Tx Unit :=
  let username := trimSpace username
  if username.length < 3 ∨ 64 < username.length then .fail .usernameInvalid
  else if ¬ validPassword password then .fail .passwordInvalid
  else do
    createUser id ⟨username, Bcrypt.generateFromPassword salt password, username, true, none⟩
    match getRoleByRoleName roleUser with
    | none => .fail .defaultRoleNotFound
    | some roleID => createUserRole id roleID

/-- `Login`, giving the id, the user and the roles. -/
def login (username password : GoString) (now : Int) (snapshot : DB) :
    Tx (Int × User × List GoString) :=
  match getUserByUsername snapshot (trimSpace username) with
  | none => .fail .invalidCredentials
  | some (id, user) =>
    if ¬ user.active then .fail .userDisabled
    else if ¬ Bcrypt.compareHashAndPassword user.passwordHash password then
      .fail .invalidCredentials
    else do
      updateUser id fun row => { row with lastLoginAt := some now }
      pure (id, { user with lastLoginAt := some now }, listRoleNamesByUserID snapshot id)

/-- `GetProfile`. -/
def getProfile (s : DB) (userID : Int) : Except Err (User × List GoString) :=
  if userID ≤ 0 then .error .invalidUserID
  else
    match s.user userID with
    | none => .error .userNotFound
    | some user =>
      if ¬ user.active then .error .userDisabled
      else .ok (user, listRoleNamesByUserID s userID)

/-- `UpdateNickname`. -/
def updateNickname (userID : Int) (nickname : GoString) (snapshot : DB) : Tx Unit :=
  let nickname := trimSpace nickname
  if userID ≤ 0 then .fail .invalidUserID
  else if nickname = [] ∨ 64 < nickname.length then .fail .nicknameInvalid
  else
    match getProfile snapshot userID with
    | .error err => .fail err
    | .ok _ => updateUser userID fun row => { row with nickname }

/-- `UpdatePassword`. -/
def updatePassword (userID : Int) (salt oldPassword newPassword : GoString) (snapshot : DB) :
    Tx Unit :=
  if userID ≤ 0 then .fail .invalidUserID
  else if oldPassword = newPassword then .fail .passwordUnchanged
  else if ¬ validPassword newPassword then .fail .passwordInvalid
  else
    match snapshot.user userID with
    | none => .fail .userNotFound
    | some user =>
      if ¬ Bcrypt.compareHashAndPassword user.passwordHash oldPassword then
        .fail .oldPasswordIncorrect
      else do
        let rows ← updateUserPassword userID user.passwordHash
          (Bcrypt.generateFromPassword salt newPassword)
        if rows ≠ 1 then .fail .passwordUpdateConflict else pure ()

/-! ## 5. Requests -/

end

inductive Request where
  | register (id : Int) (salt username password : GoString)
  | login (username password : GoString) (now : Int)
  | updateNickname (userID : Int) (nickname : GoString)
  | updatePassword (userID : Int) (salt oldPassword newPassword : GoString)
  deriving DecidableEq

/-- What a request ends with. -/
inductive Answer where
  | done
  | user (id : Int) (user : User) (roles : List GoString)
  deriving DecidableEq

section

variable [Collation] [Roles] [Bcrypt]

/-- The program of a request, when the last committed state at its start was `snapshot`. -/
def Request.prog : Request → DB → Tx Answer
  | .register id salt username password, _ => do
    Identity.register id salt username password
    pure .done
  | .login username password now, snapshot => do
    let found ← Identity.login username password now snapshot
    pure (.user found.1 found.2.1 found.2.2)
  | .updateNickname userID nickname, snapshot => do
    Identity.updateNickname userID nickname snapshot
    pure .done
  | .updatePassword userID salt oldPassword newPassword, snapshot => do
    Identity.updatePassword userID salt oldPassword newPassword snapshot
    pure .done

/-- The service with its database and its concurrent operations. -/
abbrev Service := Sys Row Empty Err Answer Request

abbrev step : Service → LockEvent Request → Option Service := lockStep Request.prog

end

/-! ## 6. A small instance

The hash has no letters, so that the database can tell its values apart. -/

/-- The halves of the bytes. -/
def halves (key : GoString) : GoString := key.flatMap fun b => [b / 16, b % 16]

theorem halves_injective : Function.Injective halves := by
  intro k k' h
  induction k generalizing k' with
  | nil =>
    cases k' with
    | nil => rfl
    | cons b' k' => simp [halves] at h
  | cons b k ih =>
    cases k' with
    | nil => simp [halves] at h
    | cons b' k' =>
      simp only [halves, List.flatMap_cons, List.cons_append, List.nil_append,
        List.cons.injEq] at h
      obtain ⟨hhigh, hlow, hrest⟩ := h
      have hhigh := congrArg UInt8.toNat hhigh
      have hlow := congrArg UInt8.toNat hlow
      simp only [UInt8.toNat_div, UInt8.toNat_mod, UInt8.reduceToNat] at hhigh hlow
      have hb : b = b' := UInt8.toNat_inj.mp (by omega)
      rw [hb, ih hrest]

theorem weight_halves (key : GoString) : asciiCi.weight (halves key) = halves key := by
  refine List.map_congr_left (g := id) (fun b hb => ?_) |>.trans (List.map_id _)
  obtain ⟨c, -, hb⟩ := List.mem_flatMap.mp hb
  have hlt : b.toNat < 16 := by
    simp only [List.mem_cons, List.not_mem_nil, or_false] at hb
    have hc := c.toNat_lt
    rcases hb with rfl | rfl
    · simp only [UInt8.toNat_div, UInt8.reduceToNat]
      omega
    · simp only [UInt8.toNat_mod, UInt8.reduceToNat]
      omega
  rw [if_neg, id_eq]
  rintro ⟨hle, -⟩
  rw [UInt8.le_iff_toNat_le] at hle
  simp only [UInt8.reduceToNat] at hle
  omega

abbrev halvesBcrypt : @Bcrypt asciiCi :=
  let _ : Collation := asciiCi
  { generateFromPassword := fun _ p => halves (bcryptKey p)
    compareHashAndPassword := fun hash q => decide (hash = halves (bcryptKey q))
    compare_generate := fun _ p q => by
      rw [decide_eq_true_eq]
      exact halves_injective.eq_iff
    weight_generate := fun _ p _ p' h => by
      rw [weight_halves, weight_halves] at h
      exact halves_injective h }

/-- The roles of the migrations. -/
abbrev twoRoles : @Roles asciiCi :=
  let _ : Collation := asciiCi
  { rows := [(1, roleAdmin), (2, roleUser)]
    ids_nodup := by decide
    admin_ne_user := by decide +kernel }

/-- One administrator. -/
def oneAdmin : DB where
  row
    | .username w => if w = str "ROOT" then some 1 else none
    | .user id =>
      if id = 1 then some ⟨str "root", halves (bcryptKey (str "secret")), str "root", true, none⟩
      else none
    | .userRole id => if id = 1 then some 1 else none
  log := []

/-- A second user registers. -/
def joining : List (LockEvent Request) :=
  .start 1 (.register 2 [] (str "ann") (str "letmein")) :: List.replicate 6 (.stmt 1) ++ [.commit 1]

/-- The user's password is changed while a login with the old one is running. -/
def changing : List (LockEvent Request) :=
  [.start 3 (.updatePassword 2 [] (str "letmein") (str "changed")), .stmt 3, .stmt 3, .commit 3,
    .stmt 2, .stmt 2]

/-- The login. -/
def annLogin : Request := .login (str "Ann ") (str "letmein") 5

end OrderSystem.Identity
