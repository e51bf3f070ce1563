import Shop.Auth.Rotation
import Shop.Gateway.JwtStrategy
import Shop.Gateway.Proxy

/-!
# Whom the services act for

auth-service issues access tokens while the gateway verifies them, keeps the user of a token in its
cache, and sends the request on in the name of that user.

* `FrontDoor.step`         an access of a call of auth-service, a request of a client, or a deletion
                           from the cache;
* `FrontDoor.forwards`     the request that is sent to a service;
* `Genuine`                nobody forges a signature: a token that verifies has been issued;
* `UserRow.identity`       id, email and roles, which no call ever changes;
* `callers_identified`     every request that reaches a service is sent in the name of a user of the
                           table, with the roles of that user, to whom the token was given.
-/

set_option linter.unusedSectionVars false

namespace Shop
open Lib

/-- a request of a client, when it comes, and what Redis does for it -/
structure Arrival where
  request : ClientRequest
  now : Nat
  readFails : Bool
  writeFails : Bool
  uuid : String

structure FrontDoor where
  auth : Pool AuthDb AuthTx
  cache : JwtCache

inductive FrontAction where
  | auth (a : AuthAction)
  | request (r : Arrival)
  | logout (token : Option JwtPayload)
  | evict (key : String)

namespace FrontDoor

/-- the users that are there from the start, and an empty cache -/
def init (users₀ : List UserRow) : FrontDoor := ⟨⟨⟨users₀, [], []⟩, []⟩, []⟩

section
variable (cfg : AuthConfig) (gateway : GatewayConfig) (bearer : Headers → Option String)

/-- Passport: the payload of the bearer token, if its signature and its expiry are right -/
def payload (now : Nat) (headers : Headers) : Option JwtPayload :=
  (bearer headers).bind fun token => cfg.verify cfg.accessSecret token (now / 1000)

/-- the user that `JwtStrategy` finds -/
def verify (w : FrontDoor) (r : Arrival) (headers : Headers) : Option RequestUser :=
  (payload cfg bearer r.now headers).map fun p =>
    (JwtStrategy.validate p r.now r.readFails r.writeFails w.cache).1

def step (w : FrontDoor) : FrontAction → FrontDoor
  | .auth a => { w with auth := AuthPool.step cfg w.auth a }
  | .request r =>
    -- the guard lets a public route pass without a token
    if r.request.route.isPublic then w
    else
      match payload cfg bearer r.now r.request.headers with
      | none => w
      | some p => { w with cache := w.cache.step (.validate p r.now r.readFails r.writeFails) }
  | .logout token => { w with cache := w.cache.step (.logout token) }
  | .evict key => { w with cache := w.cache.step (.evict key) }

def forwards (w : FrontDoor) : FrontAction → Option (Arrival × DownstreamRequest)
  | .request r =>
    match Gateway.handle gateway (w.verify cfg bearer r) r.uuid r.request with
    | .ok sent => some (r, sent)
    | .error _ => none
  | _ => none

/-- the token has been returned by auth-service, to a call about this user -/
def Issued (w : FrontDoor) (userId token : String) : Prop :=
  ∃ call result, .returned call result ∈ w.auth.txs ∧ result.userId = userId ∧
    result.accessToken = token

/-- a client has the tokens that auth-service has issued, and can make no others -/
def Genuine (w : FrontDoor) : FrontAction → Prop
  | .request r => ∀ token, bearer r.request.headers = some token →
      (cfg.verify cfg.accessSecret token (r.now / 1000)).isSome → ∃ userId, w.Issued userId token
  | _ => True

end

end FrontDoor

/-- what verifies is what was signed; `iat` and `exp` are added by the library -/
def AuthConfig.Verifies (cfg : AuthConfig) : Prop :=
  ∀ payload exp now now' p,
    cfg.verify cfg.accessSecret (cfg.sign cfg.accessSecret payload exp now) now' = some p →
    p.sub = payload.sub ∧ p.email = payload.email ∧ p.roles = payload.roles

/-! ## the identities of the table -/

def UserRow.identity (u : UserRow) : RequestUser := ⟨u.id, u.email, u.roles⟩

def AuthDb.identities (db : AuthDb) : List RequestUser := db.users.map UserRow.identity

/-- no two users of one id, and everybody who was not there from the start is a plain user -/
structure AuthDb.Plain (users₀ : List UserRow) (db : AuthDb) : Prop where
  ids : (db.identities.map RequestUser.id).Nodup
  plain : ∀ i ∈ db.identities, i ∈ users₀.map UserRow.identity ∨ i.roles = [.user]

/-- what is known of a call: the user that it issues tokens for, and for whom it has issued one -/
def AuthTx.Names (cfg : AuthConfig) (db : AuthDb) : AuthTx → Prop
  | .issuing _ user => user.identity ∈ db.identities
  | .returned _ result => ∃ i ∈ db.identities, result.userId = i.id ∧ ∃ jti now,
      result.accessToken = cfg.sign cfg.accessSecret
        ⟨i.id, i.email, some i.roles, some jti, none, none⟩ cfg.accessExpiresIn now
  | _ => True

section
variable {cfg : AuthConfig} {users₀ : List UserRow} {db db' : AuthDb} {t t' : AuthTx}

theorem identities_setToken (db : AuthDb) (id : String) (refreshToken : Option String) :
    (db.setToken id refreshToken).identities = db.identities :=
  map_updateBy UserRow.identity (f := fun r => { r with refreshToken := refreshToken })
    (fun _ => rfl) db.users

theorem mem_identities {u : UserRow} (h : u ∈ db.users) : u.identity ∈ db.identities :=
  List.mem_map_of_mem h

/-- an access changes no identity, and adds at most a plain user -/
theorem identities_moves {choice : AuthChoice} (hm : AuthTx.Moves cfg choice db t db' t') :
    db'.identities = db.identities ∨ ∃ i : RequestUser, db'.identities = db.identities ++ [i] ∧
      i.roles = [.user] ∧ i.id ∉ db.identities.map RequestUser.id := by
  cases hm with
  | register input id salt g _ h =>
    obtain ⟨husers, _, hid, _⟩ := register_some h
    refine Or.inr ⟨(newUser cfg input id salt).identity, ?_, rfl, ?_⟩
    · unfold AuthDb.identities
      rw [husers, List.map_append]
      rfl
    · unfold AuthDb.identities
      rw [List.map_map]
      exact hid
  | logout userId message => exact Or.inl (identities_setToken db userId none)
  | issue call user jti now _ => exact Or.inl (identities_setToken db user.id _)
  | _ => exact Or.inl rfl

theorem identities_sub {choice : AuthChoice} (hm : AuthTx.Moves cfg choice db t db' t') :
    ∀ i ∈ db.identities, i ∈ db'.identities := by
  intro i hi
  rcases identities_moves hm with heq | ⟨j, heq, _⟩
  · exact heq ▸ hi
  · rw [heq]
    exact List.mem_append_left _ hi

theorem AuthDb.Plain.moves (h : db.Plain users₀) {choice : AuthChoice}
    (hm : AuthTx.Moves cfg choice db t db' t') : db'.Plain users₀ := by
  rcases identities_moves hm with heq | ⟨j, heq, hroles, hid⟩
  · exact ⟨heq ▸ h.ids, heq ▸ h.plain⟩
  · constructor
    · rw [heq, List.map_append]
      exact h.ids.append (List.nodup_singleton _) (List.disjoint_singleton.mpr hid)
    · intro i hi
      rw [heq] at hi
      rcases List.mem_append.mp hi with hi | hi
      · exact h.plain i hi
      · rw [List.mem_singleton.mp hi]
        exact Or.inr hroles

theorem AuthTx.Names.mono (h : t.Names cfg db) (hmore : ∀ i ∈ db.identities, i ∈ db'.identities) :
    t.Names cfg db' := by
  cases t with
  | issuing call user => exact hmore _ h
  | returned call result =>
    obtain ⟨i, hi, hrest⟩ := h
    exact ⟨i, hmore i hi, hrest⟩
  | _ => trivial

theorem AuthTx.Names.moves (h : t.Names cfg db) {choice : AuthChoice}
    (hm : AuthTx.Moves cfg choice db t db' t') : t'.Names cfg db' := by
  cases hm with
  | register input id salt g _ hr =>
    obtain ⟨husers, _⟩ := register_some hr
    refine mem_identities (u := newUser cfg input id salt) ?_
    rw [husers]
    exact List.mem_append_right _ (List.mem_singleton.mpr rfl)
  | login input user hf =>
    obtain ⟨hfind, _⟩ := Option.filter_eq_some_iff.mp hf
    exact mem_identities (List.mem_of_find?_eq_some hfind)
  | refresh token sub user hf => exact mem_identities (findByToken_some hf).1
  | logout userId message => trivial
  | issue call user jti now _ =>
    have hi : user.identity ∈ db.identities := h
    exact ⟨user.identity, identities_setToken db user.id _ ▸ hi, rfl, jti.val, now, rfl⟩
  | refuse call error => trivial
  | fail call user error => trivial

variable (cfg users₀) in
theorem stable_names : Stable AuthTx.called (AuthTx.next cfg) AuthTx.held (fun _ => True)
    (fun _ _ _ => True) (AuthDb.Plain users₀) (AuthTx.Names cfg) where
  start_held := fun _ => rfl
  start_loc := fun _ _ _ _ => trivial
  own := fun _ _ _ _ _ h ht _ hn => ⟨h.moves (auth_moves hn), ht.moves (auth_moves hn)⟩
  other := fun _ _ _ _ _ _ _ _ hu _ hn _ => hu.mono (identities_sub (auth_moves hn))

end

/-! ## the gateway -/

/-- every entry was written for a user of the table -/
def CacheNames (identities : List RequestUser) (cache : JwtCache) : Prop :=
  ∀ e ∈ cache, ∃ call : JwtPayload × Nat, e.From call ∧ requestUser call.1 ∈ identities

/-- **The cache never matters** as long as every token names a user of the table: two entries of one
key are of one user. -/
theorem validate_known {identities : List RequestUser} {cache : JwtCache} {p : JwtPayload}
    (hnd : (identities.map RequestUser.id).Nodup) (hcache : CacheNames identities cache)
    (hp : requestUser p ∈ identities) (now : Nat) (readFails writeFails : Bool) :
    (JwtStrategy.validate p now readFails writeFails cache).1 = requestUser p := by
  unfold JwtStrategy.validate
  simp only
  split
  · rename_i cached hget
    cases readFails with
    | true => cases hget
    | false =>
      obtain ⟨e, he, hkey, _, rfl⟩ := JwtCache.get_some hget
      obtain ⟨call, rfl, hcall⟩ := hcache e he
      have hsub : call.1.sub = p.sub := (cacheKey_eq_iff.mp hkey).1
      exact key_inj hnd hcall hp hsub
  · split <;> rfl

theorem CacheNames.step {identities : List RequestUser} {cache : JwtCache}
    (h : CacheNames identities cache) (a : TokenCacheAction)
    (ha : ∀ call, a.call = some call → requestUser call.1 ∈ identities) :
    CacheNames identities (cache.step a) := by
  intro e he
  rcases mem_step he with he | ⟨call, hcall, hfrom⟩
  · exact h e he
  · exact ⟨call, hfrom, ha call hcall⟩

/-- what a service is sent, in the name of a user -/
structure SentFor (r : Arrival) (sent : DownstreamRequest) (user : RequestUser) : Prop where
  id : sent.headers.get HEADERS.userId = some user.id
  roles : parseRoles (sent.headers.get HEADERS.userRoles) = user.roles
  allowed : RolesGuard.canActivate r.request.route.roles (some user) = .ok ()

/-- a request that is sent on has been verified, and is sent for the verified user -/
theorem handle_sent {gateway : GatewayConfig} {verify : Headers → Option RequestUser} {r : Arrival}
    {sent : DownstreamRequest} (hpublic : r.request.route.isPublic = false)
    (h : Gateway.handle gateway verify r.uuid r.request = .ok sent) :
    ∃ user, verify r.request.headers = some user ∧ SentFor r sent user := by
  cases hv : verify r.request.headers with
  | none =>
    have hguard : JwtAuthGuard.canActivate verify r.request =
        .error ⟨401, "Invalid or missing token"⟩ := by
      simp [JwtAuthGuard.canActivate, hpublic, hv]
    unfold Gateway.handle at h
    rw [hguard] at h
    cases h
  | some user =>
    refine ⟨user, rfl, ?_⟩
    rw [handle_verified gateway verify r.uuid r.request hpublic hv] at h
    cases hroles : RolesGuard.canActivate r.request.route.roles (some user) with
    | error e =>
      rw [hroles] at h
      cases h
    | ok _ =>
      rw [hroles] at h
      cases h
      obtain ⟨huser, hnone⟩ := options_user hpublic user
        (some (correlationIdOf r.request.headers r.uuid)) r.request.body
      obtain ⟨hid, hheader⟩ := proxy_user gateway _ _ user huser hnone
      refine ⟨hid, ?_, hroles⟩
      rw [hheader]
      exact parseRoles_join user.roles

/-! ## every step -/

/-- **A request that reaches a service** is sent for a user of the table, with the roles that the row
has, and on a token that auth-service has issued for that user. -/
def FrontDoor.Identified (bearer : Headers → Option String) (users₀ : List UserRow) (w : FrontDoor)
    (f : Arrival × DownstreamRequest) : Prop :=
  ∃ u ∈ w.auth.db.users, SentFor f.1 f.2 u.identity ∧
    (∃ token, bearer f.1.request.headers = some token ∧ w.Issued u.id token) ∧
    (u.identity ∈ users₀.map UserRow.identity ∨ u.roles = [.user])

structure FrontDoor.Sound (cfg : AuthConfig) (users₀ : List UserRow) (w : FrontDoor) : Prop where
  auth : w.auth.Good AuthTx.held (AuthDb.Plain users₀) (AuthTx.Names cfg)
  cache : CacheNames w.auth.db.identities w.cache

namespace FrontDoor
variable {cfg : AuthConfig} {gateway : GatewayConfig} {bearer : Headers → Option String}
  {users₀ : List UserRow} {w : FrontDoor}

theorem Sound.init (hids : (users₀.map UserRow.id).Nodup) : (init users₀).Sound cfg users₀ where
  auth := by
    refine ⟨⟨?_, fun i hi => Or.inl hi⟩, fun _ h => absurd h List.not_mem_nil,
      fun i _ _ _ _ hx => by cases hx⟩
    show ((users₀.map UserRow.identity).map RequestUser.id).Nodup
    rw [List.map_map]
    exact hids
  cache := fun _ h => absurd h List.not_mem_nil

/-- a token that verifies names a user of the table, for whom it has been issued -/
theorem Sound.payload_known (hverify : cfg.Verifies) (h : w.Sound cfg users₀) {r : Arrival}
    (hg : w.Genuine cfg bearer (.request r)) {p : JwtPayload}
    (hp : payload cfg bearer r.now r.request.headers = some p) :
    requestUser p ∈ w.auth.db.identities ∧
      ∃ token, bearer r.request.headers = some token ∧ w.Issued p.sub token := by
  obtain ⟨token, hbearer, hpay⟩ := Option.bind_eq_some_iff.mp hp
  obtain ⟨userId, call, result, hmem, _, htoken⟩ := hg token hbearer (hpay ▸ rfl)
  obtain ⟨i, hi, hid, jti, now, hsigned⟩ := h.auth.loc _ hmem
  rw [← htoken, hsigned] at hpay
  obtain ⟨hsub, hemail, hroles⟩ := hverify _ _ _ _ _ hpay
  have huser : requestUser p = i := by
    unfold requestUser
    rw [hsub, hemail, hroles]
    rfl
  exact ⟨huser ▸ hi, token, hbearer, call, result, hmem, hid.trans hsub.symm, htoken⟩

theorem Sound.step (hverify : cfg.Verifies) (h : w.Sound cfg users₀) (a : FrontAction)
    (hg : w.Genuine cfg bearer a) : (w.step cfg bearer a).Sound cfg users₀ := by
  cases a with
  | auth a =>
    have hauth := (stable_names cfg users₀).step h.auth a (fun _ _ => trivial)
      (Pool.allows_true _ a)
    refine ⟨hauth, fun e he => ?_⟩
    obtain ⟨call, hfrom, hcall⟩ := h.cache e he
    refine ⟨call, hfrom, ?_⟩
    show _ ∈ (Pool.step AuthTx.called (AuthTx.next cfg) AuthTx.held w.auth a).db.identities
    rcases Pool.step_cases AuthTx.called (AuthTx.next cfg) AuthTx.held w.auth a with
      ⟨c, _, heq⟩ | ⟨tx, choice, t, db', t', _, _, hn, heq⟩ | heq
    · rw [heq]
      exact hcall
    · rw [heq]
      exact identities_sub (auth_moves hn) _ hcall
    · rw [heq]
      exact hcall
  | request r =>
    simp only [FrontDoor.step]
    split
    · exact h
    · split
      · exact h
      · rename_i p hp
        refine ⟨h.auth, h.cache.step (.validate p r.now r.readFails r.writeFails) ?_⟩
        intro call hcall
        cases hcall
        exact (h.payload_known hverify hg hp).1
  | logout token => exact ⟨h.auth, h.cache.step (.logout token) fun _ hcall => by cases hcall⟩
  | evict key => exact ⟨h.auth, h.cache.step (.evict key) fun _ hcall => by cases hcall⟩

/-- what is sent on is sent for the user that the token names -/
theorem Sound.identified (hverify : cfg.Verifies) (h : w.Sound cfg users₀) {a : FrontAction}
    (hg : w.Genuine cfg bearer a) {f : Arrival × DownstreamRequest}
    (hf : w.forwards cfg gateway bearer a = some f)
    (hpublic : f.1.request.route.isPublic = false) : w.Identified bearer users₀ f := by
  cases a with
  | request r =>
    simp only [forwards] at hf
    split at hf
    · rename_i sent hsent
      cases hf
      obtain ⟨user, hv, hfor⟩ := handle_sent hpublic hsent
      obtain ⟨p, hp, rfl⟩ := Option.map_eq_some_iff.mp hv
      obtain ⟨hknown, token, hbearer, hissued⟩ := h.payload_known hverify hg hp
      rw [validate_known h.auth.inv.ids h.cache hknown] at hfor
      obtain ⟨u, hu, hidentity⟩ := List.mem_map.mp hknown
      have hid : u.id = p.sub := congrArg RequestUser.id hidentity
      refine ⟨u, hu, hidentity ▸ hfor, ⟨token, hbearer, hid ▸ hissued⟩, ?_⟩
      exact h.auth.inv.plain _ (mem_identities hu)
    · cases hf
  | _ => cases hf

end FrontDoor

/-- **The services act for the users of the table.**  Whatever auth-service is doing, and whatever the
cache holds, loses or fails to answer, every request that reaches a service on a route that needs a
token is sent with the id and the roles of a row of `users`, on a token that was issued for this
row; and the roles are those that the user had from the start, or `user` alone. -/
theorem callers_identified (cfg : AuthConfig) (gateway : GatewayConfig)
    (bearer : Headers → Option String) (hverify : cfg.Verifies) (users₀ : List UserRow)
    (hids : (users₀.map UserRow.id).Nodup) (as : List FrontAction)
    (hgenuine : Along (FrontDoor.step cfg bearer) (fun w a => w.Genuine cfg bearer a)
      (FrontDoor.init users₀) as) :
    Along (FrontDoor.step cfg bearer) (fun w a => ∀ f, w.forwards cfg gateway bearer a = some f →
      f.1.request.route.isPublic = false → w.Identified bearer users₀ f)
      (FrontDoor.init users₀) as :=
  along_of_invariant _ (I := FrontDoor.Sound cfg users₀) (fun _ a h hg => h.step hverify a hg)
    (fun _ _ h hg _ hf hpublic => h.identified hverify hg hf hpublic) _ as (.init hids) hgenuine

/-! ## a user who has just registered -/

/-- a library that signs the tokens of one user -/
def AuthConfig.sampleSigned : AuthConfig :=
  { AuthConfig.sample with
    sign := fun _ payload _ _ =>
      if payload.sub = (Uuid.sample '9').val ∧ payload.email = "eve@example.com" ∧
        payload.roles = some [.user] then "eve" else ""
    verify := fun _ token _ =>
      if token = "eve" then
        some ⟨(Uuid.sample '9').val, "eve@example.com", some [.user], some "1", some 0, some 3600⟩
      else none }

theorem sampleSigned_verifies : AuthConfig.sampleSigned.Verifies := by
  intro payload exp now now' p h
  simp only [AuthConfig.sampleSigned] at h
  split at h
  · rename_i hsigned
    rw [if_pos rfl] at h
    cases h
    exact ⟨hsigned.1.symm, hsigned.2.1.symm, hsigned.2.2.symm⟩
  · rw [if_neg (by decide)] at h
    cases h

/-- the rest of `Bearer ...` -/
def sampleBearer (headers : Headers) : Option String :=
  (headers.get "authorization").map fun value => String.ofList (value.toList.drop 7)

/-- Eve asks for her profile, and says that she is an administrator -/
def asksForMe : Arrival where
  request := ⟨.getMe, [("authorization", "Bearer eve"), ("x-roles", "admin")], none⟩
  now := 1000
  readFails := false
  writeFails := false
  uuid := "c1"

theorem callers_identified_me :
    let cfg := AuthConfig.sampleSigned
    let gateway : GatewayConfig := ⟨fun _ => "http://service", "secret"⟩
    let w := run (FrontDoor.step cfg sampleBearer) (FrontDoor.init []) (AuthAction.signUp.map .auth)
    ∃ f, w.forwards cfg gateway sampleBearer (.request asksForMe) = some f ∧
      w.Identified sampleBearer [] f := by
  intro cfg gateway w
  have hgenuine : Along (FrontDoor.step cfg sampleBearer) (fun w a => w.Genuine cfg sampleBearer a)
      (FrontDoor.init []) (AuthAction.signUp.map .auth ++ [.request asksForMe]) := by
    refine (along_append _ _ _ _).mpr ⟨⟨trivial, trivial, trivial, trivial⟩, ?_, trivial⟩
    intro token hbearer _
    have htoken : token = "eve" := Option.some.inj (hbearer.symm.trans (by decide))
    let user := newUser cfg ⟨"eve@example.com", "pass1234"⟩ (.sample '9') ""
    refine ⟨user.id, .register ⟨"eve@example.com", "pass1234"⟩, issueTokens cfg user (.sample '1') 0,
      ?_, rfl, ?_⟩
    · exact List.mem_singleton.mpr rfl
    · rw [htoken]
      decide
  have h := callers_identified cfg gateway sampleBearer sampleSigned_verifies [] List.nodup_nil
    (AuthAction.signUp.map .auth ++ [.request asksForMe]) hgenuine
  have hlast := ((along_append _ _ _ _).mp h).2.1
  have hsent : w.forwards cfg gateway sampleBearer (.request asksForMe) = some (asksForMe,
      ⟨"http://service/users/" ++ (Uuid.sample '9').val, "GET",
        [("x-internal-secret", "secret"), ("x-correlation-id", "c1"),
          ("x-user-id", (Uuid.sample '9').val), ("x-user-email", "eve@example.com"),
          ("x-roles", "user")], none⟩) := by
    rfl
  exact ⟨_, hsent, hlast _ hsent rfl⟩

end Shop
