/-
# Accounts over whole runs

What an account is good for rests on four facts that no single operation shows:

* names are unique as the database compares them, so a login is of one user (`Seeded.named`);
* the password that is accepted for a user is the one set last, by `Register` or by an
  `UpdatePassword` that has committed (`Current`);
* an `UpdatePassword` commits only if the old password it was given was the password of the user
  at that moment.  It has compared that password with a hash it read without a lock; that the hash
  was still there when the update ran is what the condition of the update makes sure of.  So of
  two changes that start from the same password one fails, and no change is lost;
* nobody gets a role but the default one, and nobody loses a name or a role (`Kept`), so the
  administrators are those the tables had at the start.

A login compares with a hash that it has read, and nothing keeps the password from being changed
meanwhile.  What holds is that the password was the user's at some moment of the call
(`Justified`): the history up to the moment of the read is what `Kit.locking_history` keeps.

bcrypt does not tell all passwords apart, see `bcryptKey`.  It does so for passwords of at most 72
bytes without a zero byte (`bcryptKey_injective`).
-/
import OrderSystem.Identity.Model

namespace OrderSystem.Identity

open OrderSystem.Kit

/-! ## 1. What bcrypt tells apart -/

/-- At most 72 bytes, and no zero byte. -/
def Plain (password : GoString) : Prop := password.length ≤ 72 ∧ 0 ∉ password

instance (password : GoString) : Decidable (Plain password) := instDecidableAnd

theorem getElem?_bcryptKey {p : GoString} {i : Nat} (hi : i < 72) :
    (bcryptKey p)[i]? = (p ++ [0])[i % (p.length + 1)]? := by
  have hlt : i % (p.length + 1) < (p ++ [0]).length := by
    rw [List.length_append, List.length_singleton]
    exact Nat.mod_lt _ (Nat.succ_pos _)
  rw [bcryptKey, List.getElem?_map, List.getElem?_range hi, Option.map_some,
    List.getD_eq_getElem?_getD, List.getElem?_eq_getElem hlt, Option.getD_some]

/-- The password can be read off the front of its key. -/
theorem getElem?_bcryptKey_of_lt {p : GoString} {i : Nat} (hi : i < 72) (hp : i < p.length) :
    (bcryptKey p)[i]? = p[i]? := by
  rw [getElem?_bcryptKey hi, Nat.mod_eq_of_lt (Nat.lt_succ_of_lt hp),
    List.getElem?_append_left hp]

/-- A zero byte ends it, if there is room for one. -/
theorem getElem?_bcryptKey_length {p : GoString} (hp : p.length < 72) :
    (bcryptKey p)[p.length]? = some 0 := by
  rw [getElem?_bcryptKey hp, Nat.mod_eq_of_lt (Nat.lt_succ_self _)]
  simp

theorem length_le_of_bcryptKey {p q : GoString} (hq : Plain q)
    (h : bcryptKey p = bcryptKey q) : q.length ≤ p.length := by
  by_contra hlt
  have hlt : p.length < q.length := by omega
  have hpos : p.length < 72 := by
    have := hq.1
    omega
  -- the zero byte after `p` would be a byte of `q`
  have hzero := getElem?_bcryptKey_length hpos
  rw [h, getElem?_bcryptKey_of_lt hpos hlt] at hzero
  exact hq.2 (List.mem_of_getElem? hzero)

/-- **Plain passwords with one key are one password.** -/
theorem bcryptKey_injective {p q : GoString} (hp : Plain p) (hq : Plain q)
    (h : bcryptKey p = bcryptKey q) : p = q := by
  have hlen : p.length = q.length :=
    Nat.le_antisymm (length_le_of_bcryptKey hp h.symm) (length_le_of_bcryptKey hq h)
  refine List.ext_getElem? fun i => ?_
  by_cases hi : i < p.length
  · have hi72 : i < 72 := Nat.lt_of_lt_of_le hi hp.1
    rw [← getElem?_bcryptKey_of_lt hi72 hi, h, getElem?_bcryptKey_of_lt hi72 (hlen ▸ hi)]
  · rw [List.getElem?_eq_none (by omega), List.getElem?_eq_none (by omega)]

/-! ## 2. What a committed request does -/

section

variable {snapshot s s' : DB} {id : Int} {row : User} {v : Unit}

namespace DB

def nameOf (s : DB) (id : Int) : Option GoString := (s.user id).map User.username

def hashOf (s : DB) (id : Int) : Option GoString := (s.user id).map User.passwordHash

end DB

theorem nameOf_update (h : s'.user = Function.update s.user id (some row)) :
    s'.nameOf = Function.update s.nameOf id (some row.username) := by
  funext id'
  simp only [DB.nameOf, h, Function.update_apply]
  split
  · rfl
  · rfl

theorem hashOf_update (h : s'.user = Function.update s.user id (some row)) :
    s'.hashOf = Function.update s.hashOf id (some row.passwordHash) := by
  funext id'
  simp only [DB.hashOf, h, Function.update_apply]
  split
  · rfl
  · rfl

@[simp] theorem set_username_user (s : DB) (w : GoString) (v : Option Int) :
    DB.user (Store.set s (.username w) v) = s.user := rfl

@[simp] theorem set_username_idOf (s : DB) (w : GoString) (v : Option Int) :
    DB.idOf (Store.set s (.username w) v) = Function.update s.idOf w v :=
  Function.update_comp_eq_of_injective' s.row (fun _ _ h => Key.username.inj h) w v

@[simp] theorem set_username_userRole (s : DB) (w : GoString) (v : Option Int) :
    DB.userRole (Store.set s (.username w) v) = s.userRole := rfl

@[simp] theorem set_user_user (s : DB) (id : Int) (v : Option User) :
    DB.user (Store.set s (.user id) v) = Function.update s.user id v :=
  Function.update_comp_eq_of_injective' s.row (fun _ _ h => Key.user.inj h) id v

@[simp] theorem set_user_idOf (s : DB) (id : Int) (v : Option User) :
    DB.idOf (Store.set s (.user id) v) = s.idOf := rfl

@[simp] theorem set_user_userRole (s : DB) (id : Int) (v : Option User) :
    DB.userRole (Store.set s (.user id) v) = s.userRole := rfl

@[simp] theorem set_role_user (s : DB) (id : Int) (v : Option Int) :
    DB.user (Store.set s (.userRole id) v) = s.user := rfl

@[simp] theorem set_role_idOf (s : DB) (id : Int) (v : Option Int) :
    DB.idOf (Store.set s (.userRole id) v) = s.idOf := rfl

@[simp] theorem set_role_userRole (s : DB) (id : Int) (v : Option Int) :
    DB.userRole (Store.set s (.userRole id) v) = Function.update s.userRole id v :=
  Function.update_comp_eq_of_injective' s.row (fun _ _ h => Key.userRole.inj h) id v

@[simp] theorem exec_getUser_bind {β : Type} (id : Int) (f : Option User → Tx β) (s : DB) :
    (getUser id >>= f).exec s = (f (s.user id)).exec s := rfl

@[simp] theorem exec_setUser (id : Int) (row : User) (s : DB) :
    (setUser id row).exec s = .ok ((), Store.set s (Key.user id) (some row)) := rfl

/-- Names and roles are what they were, and the hashes are these. -/
structure Rehashed (hashes : Int → Option GoString) (s s' : DB) : Prop where
  names : s'.nameOf = s.nameOf
  hashes : s'.hashOf = hashes
  ids : s'.idOf = s.idOf
  roles : s'.userRole = s.userRole

/-- A row is written that has the name of the row before. -/
theorem rehashed_set {s : DB} {row row' : User} (hrow : s.user id = some row)
    (hname : row'.username = row.username) :
    Rehashed (Function.update s.hashOf id (some row'.passwordHash)) s
      (Store.set s (Key.user id) (some row')) where
  names := by
    have hold : s.nameOf id = some row'.username := by rw [DB.nameOf, hrow, Option.map_some, hname]
    rw [nameOf_update (set_user_user s id _), ← hold, Function.update_eq_self]
  hashes := hashOf_update (set_user_user s id _)
  ids := set_user_idOf s id _
  roles := set_user_userRole s id _

theorem updateUser_ok {f : User → User} (h : (updateUser id f).exec s = .ok (v, s'))
    (hname : ∀ row, (f row).username = row.username)
    (hhash : ∀ row, (f row).passwordHash = row.passwordHash) : Rehashed s.hashOf s s' := by
  simp only [updateUser, exec_getUser_bind] at h
  cases hrow : s.user id with
  | none =>
    rw [hrow] at h
    obtain ⟨-, rfl⟩ := Prod.mk.inj (Except.ok.inj h)
    exact ⟨rfl, rfl, rfl, rfl⟩
  | some row =>
    rw [hrow] at h
    simp only [exec_setUser] at h
    obtain ⟨-, rfl⟩ := Prod.mk.inj (Except.ok.inj h)
    have hold : s.hashOf id = some (f row).passwordHash := by
      rw [DB.hashOf, hrow, Option.map_some, hhash]
    have hset := rehashed_set hrow (hname row)
    rwa [← hold, Function.update_eq_self] at hset

section

variable [Collation]

/-- The conditional update of the hash hit its row. -/
theorem updateUserPassword_ok {oldHash newHash : GoString} {n : Nat}
    (h : (updateUserPassword id oldHash newHash).exec s = .ok (n, s')) (hn : n = 1) :
    ∃ hash, s.hashOf id = some hash ∧ Collation.weight hash = Collation.weight oldHash ∧
      Rehashed (Function.update s.hashOf id (some newHash)) s s' := by
  simp only [updateUserPassword, exec_getUser_bind] at h
  cases hrow : s.user id with
  | none =>
    rw [hrow] at h
    exact absurd ((Prod.mk.inj (Except.ok.inj h)).1.trans hn) (by decide)
  | some row =>
    rw [hrow] at h
    simp only at h
    split at h
    · rename_i hcond
      obtain ⟨-, rfl⟩ := Prod.mk.inj (Except.ok.inj h)
      exact ⟨row.passwordHash, by rw [DB.hashOf, hrow, Option.map_some], hcond.1,
        rehashed_set hrow (rfl : ({ row with passwordHash := newHash } : User).username = _)⟩
    · exact absurd ((Prod.mk.inj (Except.ok.inj h)).1.trans hn) (by decide)

/-- A user is added, with a name that nobody has. -/
structure Joined (s s' : DB) (id : Int) (username hash : GoString) (roleID : Int) : Prop where
  name_free : s.idOf (Collation.weight username) = none
  id_free : s.user id = none
  role_free : s.userRole id = none
  id_pos : 0 < id
  names : s'.nameOf = Function.update s.nameOf id (some username)
  hashes : s'.hashOf = Function.update s.hashOf id (some hash)
  ids : s'.idOf = Function.update s.idOf (Collation.weight username) (some id)
  roles : s'.userRole = Function.update s.userRole id (some roleID)

theorem createUser_ok (h : (createUser id row).exec s = .ok (v, s')) :
    s.idOf (Collation.weight row.username) = none ∧ s.user id = none ∧ 0 < id ∧
      s' = Store.set (Store.set s (Key.username (Collation.weight row.username)) (some id))
        (Key.user id) (some row) := by
  simp only [createUser, Txn.exec_get_bind] at h
  split at h
  · cases h
  · rename_i hname
    simp only [exec_getUser_bind] at h
    split at h
    · cases h
    · rename_i hid
      split at h
      · cases h
      · rename_i hpos
        obtain ⟨-, rfl⟩ := Prod.mk.inj (Except.ok.inj h)
        exact ⟨hname, hid, by omega, rfl⟩

omit [Collation] in
theorem createUserRole_ok {userID roleID : Int}
    (h : (createUserRole userID roleID).exec s = .ok (v, s')) :
    s.userRole userID = none ∧ s' = Store.set s (Key.userRole userID) (some roleID) := by
  simp only [createUserRole, Txn.exec_get_bind] at h
  split at h
  · cases h
  · rename_i hrole
    obtain ⟨-, rfl⟩ := Prod.mk.inj (Except.ok.inj h)
    exact ⟨hrole, rfl⟩

variable [Roles] [Bcrypt]

theorem register_ok {salt username password : GoString}
    (h : (register id salt username password).exec s = .ok (v, s')) :
    ∃ roleID, getRoleByRoleName roleUser = some roleID ∧
      Joined s s' id (trimSpace username) (Bcrypt.generateFromPassword salt password) roleID := by
  simp only [register] at h
  split at h
  · cases h
  · split at h
    · cases h
    · obtain ⟨_, t, hcreate, h⟩ := Txn.exec_bind_ok h
      obtain ⟨hname, hid, hpos, ht⟩ := createUser_ok hcreate
      split at h
      · cases h
      · rename_i roleID hroleID
        obtain ⟨hrole, hs'⟩ := createUserRole_ok h
        have huser : s'.user = Function.update s.user id (some ⟨trimSpace username,
            Bcrypt.generateFromPassword salt password, trimSpace username, true, none⟩) := by
          simp [hs', ht]
        exact ⟨roleID, hroleID, hname, hid, by simpa [ht] using hrole, hpos, nameOf_update huser,
          hashOf_update huser, by simp [hs', ht], by simp [hs', ht]⟩

omit [Roles] [Bcrypt] in
/-- The index leads to the row. -/
theorem getUserByUsername_some {s : DB} {username : GoString} {user : User}
    (h : getUserByUsername s username = some (id, user)) :
    s.idOf (Collation.weight username) = some id ∧ s.user id = some user := by
  obtain ⟨i, hi, hrow⟩ := Option.bind_eq_some_iff.mp h
  obtain ⟨row, huser, hpair⟩ := Option.map_eq_some_iff.mp hrow
  obtain ⟨rfl, rfl⟩ := Prod.mk.inj hpair
  exact ⟨hi, huser⟩

theorem login_ok {username password : GoString} {now : Int} {found : Int × User × List GoString}
    (h : (login username password now snapshot).exec s = .ok (found, s')) :
    Rehashed s.hashOf s s' ∧ ∃ user,
      getUserByUsername snapshot (trimSpace username) = some (found.1, user) ∧
      found.2.1.username = user.username ∧ found.2.1.active = true ∧
      Bcrypt.compareHashAndPassword user.passwordHash password = true := by
  unfold login at h
  split at h
  · cases h
  · rename_i id user hfound
    split at h
    · cases h
    · rename_i hactive
      split at h
      · cases h
      · rename_i hcompare
        obtain ⟨_, t, hupdate, h⟩ := Txn.exec_bind_ok h
        obtain ⟨rfl, rfl⟩ := Prod.mk.inj (Except.ok.inj h)
        exact ⟨updateUser_ok hupdate (fun _ => rfl) fun _ => rfl, user, hfound, rfl,
          by simpa using hactive, by simpa using hcompare⟩

omit [Bcrypt] in
theorem updateNickname_ok {userID : Int} {nickname : GoString}
    (h : (updateNickname userID nickname snapshot).exec s = .ok (v, s')) :
    Rehashed s.hashOf s s' := by
  simp only [updateNickname] at h
  split at h
  · cases h
  · split at h
    · cases h
    · split at h
      · cases h
      · exact updateUser_ok h (fun _ => rfl) fun _ => rfl

omit [Roles] in
theorem updatePassword_ok {userID : Int} {salt oldPassword newPassword : GoString}
    (h : (updatePassword userID salt oldPassword newPassword snapshot).exec s = .ok (v, s')) :
    ∃ seen hash, snapshot.hashOf userID = some seen ∧
      Bcrypt.compareHashAndPassword seen oldPassword = true ∧ s.hashOf userID = some hash ∧
      Collation.weight hash = Collation.weight seen ∧
      Rehashed (Function.update s.hashOf userID
        (some (Bcrypt.generateFromPassword salt newPassword))) s s' := by
  unfold updatePassword at h
  split at h
  · cases h
  · split at h
    · cases h
    · split at h
      · cases h
      · split at h
        · cases h
        · rename_i user huser
          split at h
          · cases h
          · rename_i hcompare
            obtain ⟨n, t, hupdate, h⟩ := Txn.exec_bind_ok h
            split at h
            · cases h
            · rename_i hn
              obtain ⟨-, rfl⟩ := Prod.mk.inj (Except.ok.inj h)
              obtain ⟨hash, hhash, hw, hrest⟩ :=
                updateUserPassword_ok hupdate (Decidable.not_not.mp hn)
              exact ⟨user.passwordHash, hash, by rw [DB.hashOf, huser, Option.map_some],
                by simpa using hcompare, hhash, hw, hrest⟩

/-- What a committed request does. -/
inductive Change (snapshot s : DB) : Request → Answer → DB → Prop
  | registered {id roleID : Int} {salt username password : GoString} {s' : DB}
      (hrole : getRoleByRoleName roleUser = some roleID)
      (h : Joined s s' id (trimSpace username) (Bcrypt.generateFromPassword salt password) roleID) :
      Change snapshot s (.register id salt username password) .done s'
  | loggedIn {id now : Int} {username password : GoString} {user found : User}
      {roles : List GoString} {s' : DB} (h : Rehashed s.hashOf s s')
      (hfound : getUserByUsername snapshot (trimSpace username) = some (id, user))
      (hname : found.username = user.username) (hactive : found.active = true)
      (hcompare : Bcrypt.compareHashAndPassword user.passwordHash password = true) :
      Change snapshot s (.login username password now) (.user id found roles) s'
  | renamed {userID : Int} {nickname : GoString} {s' : DB} (h : Rehashed s.hashOf s s') :
      Change snapshot s (.updateNickname userID nickname) .done s'
  | changed {userID : Int} {salt oldPassword newPassword seen hash : GoString} {s' : DB}
      (hseen : snapshot.hashOf userID = some seen)
      (hcompare : Bcrypt.compareHashAndPassword seen oldPassword = true)
      (hhash : s.hashOf userID = some hash)
      (hweight : Collation.weight hash = Collation.weight seen)
      (h : Rehashed (Function.update s.hashOf userID
        (some (Bcrypt.generateFromPassword salt newPassword))) s s') :
      Change snapshot s (.updatePassword userID salt oldPassword newPassword) .done s'

theorem prog_change {req : Request} {a : Answer} (h : (req.prog snapshot).exec s = .ok (a, s')) :
    Change snapshot s req a s' := by
  cases req with
  | register id salt username password =>
    obtain ⟨v, t, hx, h⟩ := Txn.exec_bind_ok h
    obtain ⟨rfl, rfl⟩ := Prod.mk.inj (Except.ok.inj h)
    obtain ⟨roleID, hrole, hjoined⟩ := register_ok hx
    exact .registered hrole hjoined
  | login username password now =>
    obtain ⟨found, t, hx, h⟩ := Txn.exec_bind_ok h
    obtain ⟨rfl, rfl⟩ := Prod.mk.inj (Except.ok.inj h)
    obtain ⟨htouched, user, hfound, hname, hactive, hcompare⟩ := login_ok hx
    exact .loggedIn htouched hfound hname hactive hcompare
  | updateNickname userID nickname =>
    obtain ⟨v, t, hx, h⟩ := Txn.exec_bind_ok h
    obtain ⟨rfl, rfl⟩ := Prod.mk.inj (Except.ok.inj h)
    exact .renamed (updateNickname_ok hx)
  | updatePassword userID salt oldPassword newPassword =>
    obtain ⟨v, t, hx, h⟩ := Txn.exec_bind_ok h
    obtain ⟨rfl, rfl⟩ := Prod.mk.inj (Except.ok.inj h)
    obtain ⟨seen, hash, hseen, hcompare, hhash, hw, hrehashed⟩ := updatePassword_ok hx
    exact .changed hseen hcompare hhash hw hrehashed

end

end

/-! ## 3. The password of a user -/

/-- The password that a committed request sets for a user. -/
def setsPassword (u : Int) : Request × Answer → Option GoString
  | (.register id _ _ password, _) => if id = u then some password else none
  | (.updatePassword id _ _ newPassword, _) => if id = u then some newPassword else none
  | _ => none

/-- The password that was set last. -/
def passwordOf (u : Int) (history : List (Request × Answer)) : Option GoString :=
  (history.filterMap (setsPassword u)).getLast?

theorem passwordOf_snoc (u : Int) (H : List (Request × Answer)) (e : Request × Answer) :
    passwordOf u (H ++ [e]) = (setsPassword u e).or (passwordOf u H) := by
  rw [passwordOf, List.filterMap_append]
  cases h : setsPassword u e with
  | none => simp [passwordOf, h]
  | some p => simp [h]

section

variable [Collation] [Roles] [Bcrypt]

/-- The password is accepted for the user. -/
def DB.Accepts (s : DB) (u : Int) (password : GoString) : Prop :=
  ∃ hash, s.hashOf u = some hash ∧ Bcrypt.compareHashAndPassword hash password = true

/-- The password is that of the user after the committed requests: bcrypt does not tell it from
the one that was set last; if none was set since, it is the one from the start. -/
def Current (S₀ : DB) (history : List (Request × Answer)) (u : Int) (password : GoString) : Prop :=
  match passwordOf u history with
  | some p => bcryptKey p = bcryptKey password
  | none => S₀.Accepts u password

/-- What a committed request and its answer show about the requests before it. -/
def Justified (S₀ : DB) (before : List (Request × Answer)) : Request × Answer → Prop
  | (.register _ _ _ _, .done) => True
  | (.updateNickname _ _, .done) => True
  | (.updatePassword u _ oldPassword _, .done) => Current S₀ before u oldPassword
  | (.login username password _, .user u found _) =>
    Collation.weight found.username = Collation.weight (trimSpace username) ∧
      ∃ H, H <+: before ∧ Current S₀ H u password
  | _ => False

variable {u roleID : Int} {q p salt : GoString} {hashes : Int → Option GoString} {req : Request}

omit [Roles] in
/-- A request that sets no password. -/
theorem current_same {S₀ : DB} {H : List (Request × Answer)} {e : Request × Answer}
    (h : setsPassword u e = none) :
    Current S₀ (H ++ [e]) u q ↔ Current S₀ H u q := by
  rw [Current, Current, passwordOf_snoc, h, Option.none_or]

omit [Roles] in
theorem current_set {S₀ : DB} {H : List (Request × Answer)} {e : Request × Answer}
    (h : setsPassword u e = some p) :
    Current S₀ (H ++ [e]) u q ↔ bcryptKey p = bcryptKey q := by
  rw [Current, passwordOf_snoc, h, Option.some_or]

omit [Roles] in
/-- What is accepted after the hash of one user was written. -/
theorem accepts_update {s s' : DB} {id : Int}
    (h : s'.hashOf = Function.update s.hashOf id (some (Bcrypt.generateFromPassword salt p))) :
    s'.Accepts u q ↔ if u = id then bcryptKey p = bcryptKey q else s.Accepts u q := by
  split
  · rename_i hu
    rw [DB.Accepts, h, hu, Function.update_self]
    constructor
    · rintro ⟨hash, hhash, hcompare⟩
      rw [← Option.some.inj hhash] at hcompare
      exact (Bcrypt.compare_generate salt p q).mp hcompare
    · intro hkey
      exact ⟨_, rfl, (Bcrypt.compare_generate salt p q).mpr hkey⟩
  · rename_i hu
    rw [DB.Accepts, DB.Accepts, h, Function.update_of_ne hu]

/-! ## 4. The invariant -/

variable {S₀ snapshot s s' : DB} {H H₀ : List (Request × Answer)} {e : Request × Answer}

/-- The hash of a password, or a text such as `LOGIN_DISABLED`, which accepts nothing and which
the database does not take for the hash of a password. -/
def Hashed (hash : GoString) : Prop :=
  (∃ salt p, hash = Bcrypt.generateFromPassword salt p) ∨
    (∀ q, Bcrypt.compareHashAndPassword hash q = false) ∧
      ∀ salt p, Collation.weight hash ≠ Collation.weight (Bcrypt.generateFromPassword salt p)

omit [Roles] in
/-- Hashes that the database takes for the same, if one of them accepts a password at all, are
hashes of one password. -/
theorem Hashed.accepts {seen hash : GoString} (hhash : Hashed hash) (hseen : Hashed seen)
    (hweight : Collation.weight hash = Collation.weight seen)
    (hcompare : Bcrypt.compareHashAndPassword seen q = true) :
    Bcrypt.compareHashAndPassword hash q = true := by
  obtain ⟨salt₂, p₂, rfl⟩ | ⟨hnothing, -⟩ := hseen
  · obtain ⟨salt₁, p₁, rfl⟩ | ⟨-, hother⟩ := hhash
    · have hkey := Bcrypt.weight_generate _ _ _ _ hweight
      have hold := (Bcrypt.compare_generate salt₂ p₂ q).mp hcompare
      exact (Bcrypt.compare_generate salt₁ p₁ q).mpr (hkey.trans hold)
    · exact absurd hweight (hother salt₂ p₂)
  · rw [hnothing] at hcompare
    cases hcompare

/-- The tables as the migrations and an operator may leave them. -/
structure Seeded (s : DB) : Prop where
  named : ∀ id name, s.nameOf id = some name → s.idOf (Collation.weight name) = some id
  indexed : ∀ w id, s.idOf w = some id → ∃ name, s.nameOf id = some name ∧ Collation.weight name = w
  hashed : ∀ id hash, s.hashOf id = some hash → Hashed hash
  roled : ∀ id, (s.nameOf id).isSome ↔ (s.userRole id).isSome

/-- **What every run keeps of the accounts.** -/
structure Accounts (S₀ : DB) (history : List (Request × Answer)) (s : DB) : Prop where
  seeded : Seeded s
  roles : ∀ id, s.userRole id = S₀.userRole id ∨
    (S₀.userRole id = none ∧ s.userRole id = getRoleByRoleName roleUser)
  current : ∀ u q, s.Accepts u q ↔ Current S₀ history u q
  justified : ∀ before e after, history = before ++ e :: after → Justified S₀ before e

omit [Collation] [Roles] [Bcrypt] in
theorem seeded_oneAdmin :
    letI := asciiCi
    letI := halvesBcrypt
    Seeded oneAdmin := by
  let _ : Collation := asciiCi
  let _ : Bcrypt := halvesBcrypt
  have hname : ∀ id, oneAdmin.nameOf id = if id = 1 then some (str "root") else none := by
    intro id
    simp only [DB.nameOf, DB.user, oneAdmin]
    split
    · rfl
    · rfl
  have hhash : ∀ id, oneAdmin.hashOf id =
      if id = 1 then some (halves (bcryptKey (str "secret"))) else none := by
    intro id
    simp only [DB.hashOf, DB.user, oneAdmin]
    split
    · rfl
    · rfl
  have hweight : Collation.weight (str "root") = str "ROOT" := by decide +kernel
  refine ⟨fun id name h => ?_, fun w id h => ?_, fun id hash h => ?_, fun id => ?_⟩
  · rw [hname, Option.ite_none_right_eq_some] at h
    obtain ⟨rfl, h⟩ := h
    rw [← Option.some.inj h, hweight]
    exact if_pos rfl
  · obtain ⟨rfl, hid⟩ := Option.ite_none_right_eq_some.mp h
    obtain rfl := Option.some.inj hid
    exact ⟨str "root", hname 1, hweight⟩
  · rw [hhash, Option.ite_none_right_eq_some] at h
    exact Or.inl ⟨[], str "secret", (Option.some.inj h.2).symm⟩
  · have hrole : oneAdmin.userRole id = if id = 1 then some 1 else none := rfl
    rw [hname, hrole]
    split
    · exact Iff.rfl
    · exact Iff.rfl

theorem accounts_start (h : Seeded S₀) : Accounts S₀ [] S₀ where
  seeded := h
  roles _ := Or.inl rfl
  current _ _ := Iff.rfl
  justified before e after hnil := absurd hnil (by simp)

omit [Roles] in
/-- The last request is justified, and the ones before it are. -/
theorem justified_snoc (h : ∀ before e after, H = before ++ e :: after → Justified S₀ before e)
    (he : Justified S₀ H e) :
    ∀ before e' after, H ++ [e] = before ++ e' :: after → Justified S₀ before e' := by
  intro before e' after hsplit
  rcases List.eq_nil_or_concat after with rfl | ⟨after', last, rfl⟩
  · obtain ⟨rfl, hlast⟩ := List.append_inj' hsplit rfl
    rw [← (List.cons.inj hlast).1]
    exact he
  · have hinit : H ++ [e] = (before ++ e' :: after') ++ [last] := by
      rw [hsplit, List.concat_eq_append]
      simp
    exact h before e' after' (List.append_inj' hinit rfl).1

omit [Roles] in
/-- The index leads to a user of that name. -/
theorem Seeded.weight_of_found {s : DB} {w : GoString} {id : Int} {user : User} (h : Seeded s)
    (hid : s.idOf w = some id) (huser : s.user id = some user) :
    Collation.weight user.username = w := by
  obtain ⟨name, hname, hw⟩ := h.indexed w id hid
  rw [DB.nameOf, huser, Option.map_some] at hname
  rw [Option.some.inj hname, hw]

omit [Roles] in
theorem Seeded.rehashed (h : Seeded s) (hr : Rehashed hashes s s')
    (hhashes : ∀ id hash, hashes id = some hash → Hashed hash) : Seeded s' where
  named id name hname := by
    rw [hr.names] at hname
    rw [hr.ids]
    exact h.named id name hname
  indexed w id hid := by
    rw [hr.ids] at hid
    rw [hr.names]
    exact h.indexed w id hid
  hashed := hr.hashes ▸ hhashes
  roled id := by
    rw [hr.names, hr.roles]
    exact h.roled id

/-- One more request that leaves names and roles alone. -/
theorem Accounts.rehashed (h : Accounts S₀ H s) (hr : Rehashed hashes s s')
    (hhashes : ∀ id hash, hashes id = some hash → Hashed hash)
    (hcurrent : ∀ u q, s'.Accepts u q ↔ Current S₀ (H ++ [e]) u q) (he : Justified S₀ H e) :
    Accounts S₀ (H ++ [e]) s' where
  seeded := h.seeded.rehashed hr hhashes
  roles id := by
    rw [hr.roles]
    exact h.roles id
  current := hcurrent
  justified := justified_snoc h.justified he

/-- One more request that leaves the hashes alone, too. -/
theorem Accounts.touched (h : Accounts S₀ H s) (hr : Rehashed s.hashOf s s')
    (hset : ∀ u, setsPassword u e = none) (he : Justified S₀ H e) :
    Accounts S₀ (H ++ [e]) s' := by
  refine h.rehashed hr h.seeded.hashed (fun u q => ?_) he
  rw [current_same (hset u), ← h.current u q, DB.Accepts, DB.Accepts, hr.hashes]

omit [Roles] in
theorem Seeded.joined {id : Int} {username : GoString} (h : Seeded s)
    (hj : Joined s s' id username (Bcrypt.generateFromPassword salt p) roleID) : Seeded s' where
  named id' name hname := by
    rw [hj.names, Function.update_apply] at hname
    rw [hj.ids]
    split at hname
    · rename_i hid
      rw [← Option.some.inj hname, Function.update_self, hid]
    · have hold := h.named id' name hname
      have hne : Collation.weight name ≠ Collation.weight username := by
        intro hw
        rw [hw, hj.name_free] at hold
        cases hold
      rw [Function.update_of_ne hne]
      exact hold
  indexed w id' hid := by
    rw [hj.ids, Function.update_apply] at hid
    rw [hj.names]
    split at hid
    · rename_i hw
      rw [← Option.some.inj hid, Function.update_self]
      exact ⟨username, rfl, hw.symm⟩
    · obtain ⟨name, hname, hw⟩ := h.indexed w id' hid
      have hne : id' ≠ id := by
        rintro rfl
        rw [DB.nameOf, hj.id_free] at hname
        cases hname
      rw [Function.update_of_ne hne]
      exact ⟨name, hname, hw⟩
  hashed id' hash hhash := by
    rw [hj.hashes, Function.update_apply] at hhash
    split at hhash
    · exact Or.inl ⟨salt, p, (Option.some.inj hhash).symm⟩
    · exact h.hashed id' hash hhash
  roled id' := by
    rw [hj.names, hj.roles, Function.update_apply, Function.update_apply]
    split
    · simp
    · exact h.roled id'

theorem Accounts.joined {id : Int} {username password : GoString} (h : Accounts S₀ H s)
    (hrole : getRoleByRoleName roleUser = some roleID)
    (hj : Joined s s' id (trimSpace username) (Bcrypt.generateFromPassword salt password) roleID) :
    Accounts S₀ (H ++ [(.register id salt username password, .done)]) s' where
  seeded := h.seeded.joined hj
  roles id' := by
    rw [hj.roles, Function.update_apply]
    split
    · rename_i hid
      -- the new user had no role
      rcases h.roles id with hsame | ⟨hnone, -⟩
      · exact Or.inr ⟨by rw [hid, ← hsame, hj.role_free], hrole.symm⟩
      · exact Or.inr ⟨by rw [hid]; exact hnone, hrole.symm⟩
    · exact h.roles id'
  current u q := by
    rw [accepts_update hj.hashes]
    by_cases hu : u = id
    · rw [if_pos hu, current_set (p := password)]
      rw [setsPassword, if_pos hu.symm]
    · rw [if_neg hu, current_same, h.current]
      rw [setsPassword, if_neg (Ne.symm hu)]
  justified := justified_snoc h.justified trivial

/-- **A change of the password commits only from the password of the user.** -/
theorem Accounts.changed {oldPassword newPassword seen hash : GoString} (h : Accounts S₀ H s)
    (h₀ : Accounts S₀ H₀ snapshot) (hseen : snapshot.hashOf u = some seen)
    (hcompare : Bcrypt.compareHashAndPassword seen oldPassword = true)
    (hhash : s.hashOf u = some hash) (hweight : Collation.weight hash = Collation.weight seen)
    (hr : Rehashed (Function.update s.hashOf u
      (some (Bcrypt.generateFromPassword salt newPassword))) s s') :
    Accounts S₀ (H ++ [(.updatePassword u salt oldPassword newPassword, .done)]) s' := by
  refine h.rehashed hr (fun id hash' hhash' => ?_) (fun v q => ?_) ?_
  · rw [Function.update_apply] at hhash'
    split at hhash'
    · exact Or.inl ⟨salt, newPassword, (Option.some.inj hhash').symm⟩
    · exact h.seeded.hashed id hash' hhash'
  · rw [accepts_update hr.hashes]
    by_cases hv : v = u
    · rw [if_pos hv, current_set (p := newPassword)]
      rw [setsPassword, if_pos hv.symm]
    · rw [if_neg hv, current_same, h.current]
      rw [setsPassword, if_neg (Ne.symm hv)]
  · rw [Justified, ← h.current]
    -- the old password was checked against the hash that was read, not the one replaced
    exact ⟨hash, hhash, (h.seeded.hashed u hash hhash).accepts (h₀.seeded.hashed u seen hseen)
      hweight hcompare⟩

/-- **A committed request keeps the accounts.** -/
theorem Accounts.change {a : Answer} (h : Accounts S₀ H s) (hH : H₀ <+: H)
    (h₀ : Accounts S₀ H₀ snapshot) (hc : Change snapshot s req a s') :
    Accounts S₀ (H ++ [(req, a)]) s' := by
  cases hc with
  | registered hrole hj => exact h.joined hrole hj
  | loggedIn ht hfound hname _ hcompare =>
    obtain ⟨hid, huser⟩ := getUserByUsername_some hfound
    exact h.touched ht (fun _ => rfl) ⟨by rw [hname, h₀.seeded.weight_of_found hid huser], H₀, hH,
      (h₀.current _ _).mp ⟨_, by rw [DB.hashOf, huser, Option.map_some], hcompare⟩⟩
  | renamed ht => exact h.touched ht (fun _ => rfl) trivial
  | changed hseen hcompare hhash hweight hr =>
    exact h.changed h₀ hseen hcompare hhash hweight hr

/-- A user in an answer has logged in, with a password of that user. -/
theorem Accounts.logged_in {H before after : List (Request × Answer)} {s : DB} (h : Accounts S₀ H s)
    {found : User} {roles : List GoString} (hH : H = before ++ (req, .user u found roles) :: after)
    :
    ∃ username password now, req = .login username password now ∧
      ∃ H₀, H₀ <+: before ∧ Current S₀ H₀ u password := by
  have hjustified := h.justified _ _ _ hH
  cases req with
  | register id salt username password => cases hjustified
  | updateNickname userID nickname => cases hjustified
  | updatePassword userID salt oldPassword newPassword => cases hjustified
  | login username password now => exact ⟨username, password, now, rfl, hjustified.2⟩

/-! ## 5. Every run -/

/-- A commit keeps the accounts. -/
theorem accounts_commit {S₀ : DB} (H : List (Request × Answer)) (s : DB) (req : Request)
    (H₀ : List (Request × Answer)) (snapshot : DB) (a : Answer) (s' : DB) (h : Accounts S₀ H s)
    (hH : H₀ <+: H) (h₀ : Accounts S₀ H₀ snapshot)
    (hexec : (req.prog snapshot).exec s = .ok (a, s')) : Accounts S₀ (H ++ [(req, a)]) s' :=
  h.change hH h₀ (prog_change hexec)

theorem accounts_run {S₀ : DB} (hS : Seeded S₀) {es : List (LockEvent Request)} {s : Service}
    (h : run step (Sys.init S₀) es = some s) :
    Recalled Request.prog (fun H S => Accounts S₀ H S) s :=
  locking_history (accounts_start hS) accounts_commit h

/-- **The password of a user is the one set last, and only who knows it changes it.**  In every
run, over any interleaving of the operations: what is accepted for a user is the password that the
last `Register` or `UpdatePassword` to commit has set, or, if there is none, the one from the
start; for passwords that bcrypt tells apart it is that password alone.  Every `UpdatePassword`
that has committed was given the password the user had just before its commit, and every `Login`
that has succeeded was given a password the user has had. -/
theorem password_current (S₀ : DB) (hS : Seeded S₀) (es : List (LockEvent Request)) (s : Service)
    (h : run step (Sys.init S₀) es = some s) :
    (∀ u q, DB.Accepts s.store u q ↔ Current S₀ s.history u q) ∧
    (∀ u p q, passwordOf u s.history = some p → Plain p → Plain q →
      (DB.Accepts s.store u q ↔ q = p)) ∧
    ∀ before e after, s.history = before ++ e :: after → Justified S₀ before e := by
  have hA := (accounts_run hS h).holds
  refine ⟨hA.current, fun u p q hp hplain hplain' => ?_, hA.justified⟩
  rw [hA.current, Current, hp]
  constructor
  · intro hkey
    exact (bcryptKey_injective hplain hplain' hkey).symm
  · intro hq
    rw [hq]

omit [Collation] [Roles] [Bcrypt] in
theorem password_current_changing :
    letI := asciiCi
    letI := twoRoles
    letI := halvesBcrypt
    ∃ s : Service,
      run step (Sys.init oneAdmin) (joining ++ .start 2 annLogin :: changing) = some s ∧
      passwordOf 2 s.history = some (str "changed") ∧ ¬DB.Accepts s.store 2 (str "letmein") := by
  let _ : Collation := asciiCi
  let _ : Roles := twoRoles
  let _ : Bcrypt := halvesBcrypt
  have h : (run step (Sys.init oneAdmin) (joining ++ .start 2 annLogin :: changing)).map
      (fun s => passwordOf 2 s.history) = some (some (str "changed")) := by decide +kernel
  obtain ⟨s, hs, hp⟩ := Option.map_eq_some_iff.mp h
  refine ⟨s, hs, hp, ?_⟩
  rw [(password_current oneAdmin seeded_oneAdmin _ s hs).2.1 2 (str "changed") (str "letmein") hp
    (by decide +kernel) (by decide +kernel)]
  decide +kernel

/-- **A login succeeds only with the password of that moment.**  Whatever other operations run and
commit while a `Login` is running: if it succeeds, the name it was given is the name of the user
it answers with, and the password it was given is the one that user had when it began.  So a
password that was replaced before stops working. -/
theorem login_current (S₀ : DB) (hS : Seeded S₀) (es es' : List (LockEvent Request))
    (s s₁ s₂ : Service) (t : Nat) (username password : GoString) (now : Int)
    (h : run step (Sys.init S₀) es = some s)
    (h' : run step s (.start t (.login username password now) :: es') = some s₁)
    (hcommit : .commit t ∉ es') (habort : .abort t ∉ es') (hend : step s₁ (.commit t) = some s₂) :
    ∃ u found roles,
      s₂.history = s₁.history ++ [(.login username password now, .user u found roles)] ∧
      Collation.weight found.username = Collation.weight (trimSpace username) ∧
      found.active = true ∧ DB.nameOf s.store u = some found.username ∧
      Current S₀ s.history u password := by
  have hA := accounts_run hS h
  obtain ⟨a, hhistory, hexec⟩ := exec_of_start hA.tracked h' hcommit habort hend
  cases prog_change hexec with
  | loggedIn _ hfound hname hactive hcompare =>
    obtain ⟨hid, huser⟩ := getUserByUsername_some hfound
    refine ⟨_, _, _, hhistory, ?_, hactive, ?_, ?_⟩
    · rw [hname, hA.holds.seeded.weight_of_found hid huser]
    · rw [DB.nameOf, huser, Option.map_some, hname]
    · rw [← hA.holds.current]
      exact ⟨_, by rw [DB.hashOf, huser, Option.map_some], hcompare⟩

omit [Collation] [Roles] [Bcrypt] in
/-- The login succeeds, since it began before the change. -/
theorem login_current_changing :
    letI := asciiCi
    letI := twoRoles
    letI := halvesBcrypt
    ∃ s s₁ s₂ : Service, run step (Sys.init oneAdmin) joining = some s ∧
      run step s (.start 2 annLogin :: changing) = some s₁ ∧ step s₁ (.commit 2) = some s₂ ∧
      ∃ u, Current oneAdmin s.history u (str "letmein") := by
  let _ : Collation := asciiCi
  let _ : Roles := twoRoles
  let _ : Bcrypt := halvesBcrypt
  have h : ((run step (Sys.init oneAdmin) joining).bind fun s =>
      (run step s (.start 2 annLogin :: changing)).bind fun s₁ =>
        (step s₁ (.commit 2)).map fun _ => ()) = some () := by decide +kernel
  obtain ⟨s, hs, h⟩ := Option.bind_eq_some_iff.mp h
  obtain ⟨s₁, hs₁, h⟩ := Option.bind_eq_some_iff.mp h
  obtain ⟨s₂, hs₂, -⟩ := Option.map_eq_some_iff.mp h
  obtain ⟨u, found, roles, -, -, -, -, hcurrent⟩ :=
    login_current oneAdmin seeded_oneAdmin joining changing s s₁ s₂ 2 _ _ _ hs hs₁
      (by simp [changing]) (by simp [changing]) hs₂
  exact ⟨s, s₁, s₂, hs, hs₁, hs₂, u, hcurrent⟩

omit [Bcrypt] in
/-- The default role is not that of an administrator. -/
theorem default_role_not_admin (h : getRoleByRoleName roleUser = some roleID) :
    (Roles.rows.any fun r => r.1 = roleID ∧
      Collation.weight r.2 = Collation.weight roleAdmin) = false := by
  obtain ⟨r, hr, rfl⟩ := Option.map_eq_some_iff.mp h
  have hmem := List.mem_of_find?_eq_some hr
  have hname : Collation.weight r.2 = Collation.weight roleUser := by
    simpa using List.find?_some hr
  rw [List.any_eq_false]
  intro r' hmem' hadmin
  simp only [decide_eq_true_eq] at hadmin
  have hsame : r' = r := List.inj_on_of_nodup_map Roles.ids_nodup hmem' hmem hadmin.1
  rw [hsame, hname] at hadmin
  exact Roles.admin_ne_user hadmin.2.symm

/-- The administrators are those of the start. -/
theorem Accounts.admins {S₀ : DB} {H : List (Request × Answer)} {s : DB} (h : Accounts S₀ H s)
    (id : Int) : userHasRole s id roleAdmin = userHasRole S₀ id roleAdmin := by
  rcases h.roles id with hsame | ⟨hnone, hdefault⟩
  · rw [userHasRole, userHasRole, hsame]
  · rw [userHasRole, userHasRole, hnone, hdefault]
    cases hrole : getRoleByRoleName roleUser with
    | none => rfl
    | some roleID =>
      rw [Option.any_some, Option.any_none]
      exact default_role_not_admin hrole

/-- The users of the first state have their names and roles in the second, too. -/
structure Kept (s s' : DB) : Prop where
  names : ∀ id name, s.nameOf id = some name → s'.nameOf id = some name
  roles : ∀ id roleID, s.userRole id = some roleID → s'.userRole id = some roleID

omit [Collation] [Roles] [Bcrypt] in
theorem Rehashed.kept (h : Rehashed hashes s s') : Kept s s' :=
  ⟨fun _ _ hname => h.names ▸ hname, fun _ _ hrole => h.roles ▸ hrole⟩

theorem Change.kept {a : Answer} (h : Change snapshot s req a s') : Kept s s' := by
  cases h with
  | registered _ hj =>
    refine ⟨fun id' name hname => ?_, fun id' roleID' hrole => ?_⟩
    · rw [hj.names, Function.update_of_ne]
      · exact hname
      · rintro rfl
        rw [DB.nameOf, hj.id_free] at hname
        cases hname
    · rw [hj.roles, Function.update_of_ne]
      · exact hrole
      · rintro rfl
        rw [hj.role_free] at hrole
        cases hrole
  | loggedIn hr => exact hr.kept
  | renamed hr => exact hr.kept
  | changed _ _ _ _ hr => exact hr.kept

theorem kept_step {s s' : Service} {e : LockEvent Request} (hT : Tracked Request.prog s)
    (h : step s e = some s') : Kept s.store s'.store := by
  rcases commit_exec hT h with ⟨hst, -⟩ | ⟨t, a, r, -, -, hexec⟩
  · rw [hst]
    exact ⟨fun _ _ hname => hname, fun _ _ hrole => hrole⟩
  · exact (prog_change hexec).kept

theorem kept_run {s s' : Service} {es : List (LockEvent Request)} (hT : Tracked Request.prog s)
    (h : run step s es = some s') : Kept s.store s'.store := by
  refine run_relation_of (C := fun _ _ => True) (I := Tracked Request.prog)
    (R := fun s s' : Service => Kept s.store s'.store) (fun s e s' hT _ hs => tracked_step hT hs)
    (fun s => ⟨fun _ _ hname => hname, fun _ _ hrole => hrole⟩) ?_ hT (meets_true _ _) h
  intro s₀ s e s' hT _ hs hR
  have hnext := kept_step hT hs
  exact ⟨fun id name hname => hnext.names id name (hR.names id name hname),
    fun id roleID hrole => hnext.roles id roleID (hR.roles id roleID hrole)⟩

/-- **Accounts are sound.**  In every run: two users never have names that the database takes for
one, a user is found by the name, and every user has exactly one role.  Whoever is a user, from
the start or by a `Register` on the way, keeps the name and the role whatever happens next; and
the administrators are the users that were administrators at the start. -/
theorem accounts_sound (S₀ : DB) (hS : Seeded S₀) (es es' : List (LockEvent Request))
    (s s' : Service) (h : run step (Sys.init S₀) es = some s) (h' : run step s es' = some s') :
    (∀ id id' name name', DB.nameOf s.store id = some name → DB.nameOf s.store id' = some name' →
      Collation.weight name = Collation.weight name' → id = id') ∧
    (∀ id name, DB.nameOf s.store id = some name → DB.nameOf s'.store id = some name) ∧
    (∀ id name, DB.nameOf s.store id = some name →
      (getUserByUsername s.store name).map Prod.fst = some id) ∧
    (∀ id, (DB.user s.store id).isSome ↔ (DB.userRole s.store id).isSome) ∧
    (∀ id roleID, DB.userRole s.store id = some roleID → DB.userRole s'.store id = some roleID) ∧
    ∀ id, userHasRole s.store id roleAdmin = userHasRole S₀ id roleAdmin := by
  have hA := (accounts_run hS h).holds
  have hkept := kept_run (accounts_run hS h).tracked h'
  refine ⟨fun id id' name name' hname hname' hw => ?_, hkept.names, fun id name hname => ?_,
    fun id => ?_, hkept.roles, hA.admins⟩
  · have hid := hA.seeded.named id name hname
    rw [hw, hA.seeded.named id' name' hname'] at hid
    exact (Option.some.inj hid).symm
  · obtain ⟨row, hrow, -⟩ := Option.map_eq_some_iff.mp hname
    rw [getUserByUsername, hA.seeded.named id name hname, Option.bind_some, hrow]
    rfl
  · rw [← hA.seeded.roled id, DB.nameOf, Option.isSome_map]

omit [Collation] [Roles] [Bcrypt] in
/-- A user registers, and keeps the name when the password is changed. -/
theorem accounts_sound_joining :
    letI := asciiCi
    letI := twoRoles
    letI := halvesBcrypt
    ∃ s s' : Service, run step (Sys.init oneAdmin) joining = some s ∧
      run step s (.start 2 annLogin :: changing) = some s' ∧ DB.nameOf oneAdmin 2 = none ∧
      DB.nameOf s'.store 2 = some (str "ann") ∧ userHasRole s.store 2 roleAdmin = false := by
  let _ : Collation := asciiCi
  let _ : Roles := twoRoles
  let _ : Bcrypt := halvesBcrypt
  have h : ((run step (Sys.init oneAdmin) joining).bind fun s =>
      (run step s (.start 2 annLogin :: changing)).map fun _ => DB.nameOf s.store 2) =
      some (some (str "ann")) := by decide +kernel
  obtain ⟨s, hs, h⟩ := Option.bind_eq_some_iff.mp h
  obtain ⟨s', hs', hname⟩ := Option.map_eq_some_iff.mp h
  obtain ⟨-, hnames, -, -, -, hadmins⟩ :=
    accounts_sound oneAdmin seeded_oneAdmin joining _ s s' hs hs'
  refine ⟨s, s', hs, hs', by decide +kernel, hnames 2 _ hname, ?_⟩
  rw [hadmins 2]
  decide +kernel

end

end OrderSystem.Identity
