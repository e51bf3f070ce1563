import Shop.Shared.Identity
import Shop.Shared.Relay
import Shop.Lib.Pool

/-!
# auth-service

`auth.service.ts`, each call by its accesses to the database.  Signing, hashing and the check of a
password are the work of libraries, and come as parameters.

* `AuthConfig`        the parameters, and the configured secrets and life times;
* `issueTokens`       the pair of tokens that `register`, `login` and `refresh` return;
* `AuthTx`            where a call is: it has not read yet, is about to issue tokens, or is over;
* `AuthTx.next`       one access;
* `AuthTx.Moves`      what an access can do (`next_moves`).
-/

set_option linter.unusedSectionVars false

namespace Shop
open Lib

structure RegisterInput where
  email : String
  password : String
deriving DecidableEq, Repr

structure LoginInput where
  email : String
  password : String
deriving DecidableEq, Repr

structure TokensResult where
  accessToken : String
  refreshToken : String
  expiresIn : Nat
  userId : String
  email : String
deriving DecidableEq, Repr

structure UserRegisteredEvent where
  userId : String
  email : String
deriving DecidableEq, Repr

inductive AuthError where
  | emailAlreadyTaken
  | invalidCredentials
  | invalidRefreshToken
  | refreshTokenRevoked
  | other (message : String)
deriving DecidableEq, Repr

def AuthError.message : AuthError → String
  | .emailAlreadyTaken => "Email already registered"
  | .invalidCredentials => "Invalid credentials"
  | .invalidRefreshToken => "Invalid refresh token"
  | .refreshTokenRevoked => "Refresh token revoked"
  | .other message => message

/-- a row of `users` -/
structure UserRow where
  id : String
  email : String
  passwordHash : String
  roles : List Role
  refreshToken : Option String
  isActive : Bool
deriving DecidableEq, Repr

/-- `bcrypt`, `createHash('sha256')` and `JwtService`, and the configuration.  `sign` and `verify`
take the secret and the time of day. -/
structure AuthConfig where
  accessExpiresIn : Nat
  refreshExpiresIn : Nat
  accessSecret : String
  refreshSecret : String
  hash : (salt password : String) → String
  compare : (password passwordHash : String) → Bool
  hashToken : String → String
  sign : (secret : String) → JwtPayload → (expiresIn now : Nat) → String
  verify : (secret token : String) → (now : Nat) → Option JwtPayload

/-- the tables; `jtis` are the ids of the tokens issued so far -/
structure AuthDb where
  users : List UserRow
  outbox : List (OutboxRecord UserRegisteredEvent)
  jtis : List String

def AuthDb.initial : AuthDb := ⟨[], [], []⟩

inductive AuthCall where
  | register (input : RegisterInput)
  | login (input : LoginInput)
  | refresh (refreshToken : String)
  | logout (userId : String)
deriving DecidableEq, Repr

/-- Where a call is.  Between the read of the user and the write of its new token it is
`issuing`. -/
inductive AuthTx where
  | called (call : AuthCall)
  | issuing (call : AuthCall) (user : UserRow)
  | returned (call : AuthCall) (result : TokensResult)
  | loggedOut (userId message : String)
  | failed (call : AuthCall) (error : AuthError)
deriving DecidableEq, Repr

/-- an access: the insert of a new user, a query (or the update of `logout`), the signing with the
update after it, or an exception -/
inductive AuthChoice where
  | insert (id : Uuid) (salt : String) (g : RowDefaults)
  | query (now : Nat)
  | issue (jti : Uuid) (now : Nat)
  | fail (message : String)

section
variable (cfg : AuthConfig)

def issueTokens (user : UserRow) (jti : Uuid) (now : Nat) : TokensResult :=
  let payload : JwtPayload := ⟨user.id, user.email, some user.roles, some jti.val, none, none⟩
  { accessToken := cfg.sign cfg.accessSecret payload cfg.accessExpiresIn now
    refreshToken := cfg.sign cfg.refreshSecret payload cfg.refreshExpiresIn now
    expiresIn := cfg.accessExpiresIn
    userId := user.id
    email := user.email }

/-- the row of a registration -/
def newUser (input : RegisterInput) (id : Uuid) (salt : String) : UserRow :=
  ⟨id.val, input.email, cfg.hash salt input.password, [.user], none, true⟩

/-- the user of valid credentials -/
def AuthDb.findByCredentials (db : AuthDb) (input : LoginInput) : Option UserRow :=
  (db.users.find? fun r => decide (r.email = input.email) && r.isActive).filter
    fun r => cfg.compare input.password r.passwordHash

/-- the user that has stored the token's hash -/
def AuthDb.findByToken (db : AuthDb) (sub token : String) : Option UserRow :=
  db.users.find? fun r =>
    decide (r.id = sub) && (decide (r.refreshToken = some (cfg.hashToken token)) && r.isActive)

def AuthDb.setToken (db : AuthDb) (id : String) (refreshToken : Option String) : AuthDb :=
  { db with
    users := updateBy UserRow.id id (fun r => { r with refreshToken := refreshToken }) db.users }

/-- the transaction of `register`: `none` when a unique key refuses it -/
def AuthDb.register (db : AuthDb) (user : UserRow) (g : RowDefaults) : Option AuthDb :=
  if user.id ∈ db.users.map UserRow.id ∨ user.email ∈ db.users.map UserRow.email ∨
      g.id.val ∈ db.outbox.map OutboxRecord.id then none
  else some { db with
    users := db.users ++ [user]
    outbox := db.outbox ++
      [.write g user.id Topic.userRegistered.text user.id ⟨user.id, user.email⟩] }

/-- the update of `issueTokens` -/
def AuthDb.issue (db : AuthDb) (user : UserRow) (jti : Uuid) (now : Nat) : AuthDb :=
  { db.setToken user.id (some (cfg.hashToken (issueTokens cfg user jti now).refreshToken)) with
    jtis := db.jtis ++ [jti.val] }

/-- one access -/
def AuthTx.next : AuthChoice → AuthDb → AuthTx → Option (AuthDb × AuthTx)
  | .insert id salt g, db, .called (.register input) =>
    let user := newUser cfg input id salt
    match db.register user g with
    | none => some (db, .failed (.register input) .emailAlreadyTaken)
    | some db' => some (db', .issuing (.register input) user)
  | .query _, db, .called (.login input) =>
    match db.findByCredentials cfg input with
    | none => some (db, .failed (.login input) .invalidCredentials)
    | some user => some (db, .issuing (.login input) user)
  | .query now, db, .called (.refresh refreshToken) =>
    match cfg.verify cfg.refreshSecret refreshToken now with
    | none => some (db, .failed (.refresh refreshToken) .invalidRefreshToken)
    | some payload =>
      match db.findByToken cfg payload.sub refreshToken with
      | none => some (db, .failed (.refresh refreshToken) .refreshTokenRevoked)
      | some user => some (db, .issuing (.refresh refreshToken) user)
  | .query _, db, .called (.logout userId) =>
    some (db.setToken userId none, .loggedOut userId "Logged out successfully")
  | .issue jti now, db, .issuing call user =>
    some (db.issue cfg user jti now, .returned call (issueTokens cfg user jti now))
  | .fail message, db, .called call => some (db, .failed call (.other message))
  | .fail message, db, .issuing call _ => some (db, .failed call (.other message))
  | _, _, _ => none

abbrev AuthAction := PoolAction AuthCall AuthChoice

/-- no access holds a lock beyond its end -/
def AuthTx.held (_ : AuthTx) : List String := []

def AuthPool.step : Pool AuthDb AuthTx → AuthAction → Pool AuthDb AuthTx :=
  Pool.step AuthTx.called (AuthTx.next cfg) AuthTx.held

/-! ## what an access does -/

inductive AuthTx.Moves (choice : AuthChoice) (db : AuthDb) : AuthTx → AuthDb → AuthTx → Prop where
  | register (input : RegisterInput) (id : Uuid) (salt : String) (g : RowDefaults) (db' : AuthDb)
      (h : db.register (newUser cfg input id salt) g = some db') :
      Moves choice db (.called (.register input)) db'
        (.issuing (.register input) (newUser cfg input id salt))
  | login (input : LoginInput) (user : UserRow) (h : db.findByCredentials cfg input = some user) :
      Moves choice db (.called (.login input)) db (.issuing (.login input) user)
  | refresh (token sub : String) (user : UserRow) (h : db.findByToken cfg sub token = some user) :
      Moves choice db (.called (.refresh token)) db (.issuing (.refresh token) user)
  | logout (userId message : String) :
      Moves choice db (.called (.logout userId)) (db.setToken userId none) (.loggedOut userId message)
  | issue (call : AuthCall) (user : UserRow) (jti : Uuid) (now : Nat) (h : choice = .issue jti now) :
      Moves choice db (.issuing call user) (db.issue cfg user jti now)
        (.returned call (issueTokens cfg user jti now))
  | refuse (call : AuthCall) (error : AuthError) :
      Moves choice db (.called call) db (.failed call error)
  | fail (call : AuthCall) (user : UserRow) (error : AuthError) :
      Moves choice db (.issuing call user) db (.failed call error)

variable {cfg}

theorem auth_moves {choice : AuthChoice} {db db' : AuthDb} {t t' : AuthTx}
    (h : AuthTx.next cfg choice db t = some (db', t')) : AuthTx.Moves cfg choice db t db' t' := by
  cases t with
  | called call =>
    cases choice with
    | insert id salt g =>
      cases call with
      | register input =>
        simp only [AuthTx.next] at h
        cases hr : db.register (newUser cfg input id salt) g with
        | none =>
          rw [hr] at h
          cases h
          exact .refuse _ _
        | some db₁ =>
          rw [hr] at h
          cases h
          exact .register input id salt g _ hr
      | _ => cases h
    | query now =>
      cases call with
      | login input =>
        simp only [AuthTx.next] at h
        cases hf : db.findByCredentials cfg input with
        | none =>
          rw [hf] at h
          cases h
          exact .refuse _ _
        | some user =>
          rw [hf] at h
          cases h
          exact .login input user hf
      | refresh token =>
        simp only [AuthTx.next] at h
        cases hv : cfg.verify cfg.refreshSecret token now with
        | none =>
          rw [hv] at h
          cases h
          exact .refuse _ _
        | some payload =>
          simp only [hv] at h
          cases hf : db.findByToken cfg payload.sub token with
          | none =>
            rw [hf] at h
            cases h
            exact .refuse _ _
          | some user =>
            rw [hf] at h
            cases h
            exact .refresh token payload.sub user hf
      | logout userId =>
        cases h
        exact .logout userId _
      | register input => cases h
    | issue jti now => cases h
    | fail message =>
      cases h
      exact .refuse _ _
  | issuing call user =>
    cases choice with
    | issue jti now =>
      cases h
      exact .issue call user jti now rfl
    | fail message =>
      cases h
      exact .fail call user _
    | _ => cases h
  | returned call result => cases choice <;> cases h
  | loggedOut userId message => cases choice <;> cases h
  | failed call error => cases choice <;> cases h

/-- the token that is found is the one that is stored -/
theorem findByToken_some {db : AuthDb} {sub token : String} {user : UserRow}
    (h : db.findByToken cfg sub token = some user) :
    user ∈ db.users ∧ user.id = sub ∧ user.refreshToken = some (cfg.hashToken token) := by
  have hp := List.find?_some h
  simp only [Bool.and_eq_true, decide_eq_true_eq] at hp
  exact ⟨List.mem_of_find?_eq_some h, hp.1, hp.2.1⟩

theorem mem_setToken {db : AuthDb} {id : String} {refreshToken : Option String} {r : UserRow} :
    r ∈ (db.setToken id refreshToken).users ↔ ∃ r₀ ∈ db.users,
      (r₀.id = id ∧ r = { r₀ with refreshToken := refreshToken }) ∨ (r₀.id ≠ id ∧ r = r₀) :=
  mem_updateBy

theorem register_some {db db' : AuthDb} {user : UserRow} {g : RowDefaults}
    (h : db.register user g = some db') :
    db'.users = db.users ++ [user] ∧ db'.jtis = db.jtis ∧ user.id ∉ db.users.map UserRow.id ∧
      user.email ∉ db.users.map UserRow.email := by
  unfold AuthDb.register at h
  split at h
  · cases h
  · rename_i hkeys
    cases h
    simp only [not_or] at hkeys
    exact ⟨rfl, rfl, hkeys.1, hkeys.2.1⟩

end

end Shop
