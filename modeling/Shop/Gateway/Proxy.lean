import Shop.Shared.Identity
import Mathlib.Data.List.Basic

/-!
# The identity that the gateway forwards

A request passes `JwtAuthGuard` (whose verification of the token is a parameter), `RolesGuard` and
`CorrelationIdInterceptor`, and the handler of its route calls `ProxyService`, which builds the
headers of the request to the service from nothing but the verified user and the correlation id.
The services read `x-user-id` and `x-roles` back.

* `GatewayRoute`            the handlers of the five proxy controllers;
* `Gateway.handle`          a client's request, up to the request that is sent on;
* `parseRoles`              how user-service and payment-service read the roles, and
  `ProductsController.requireAdmin` how product-service does;
* `parseRoles_join`         the roles come back as they were written, for every list;
* `identity_forwarded`      what is sent depends on the client's headers through the user and the
  correlation id only, and the services read the user off it.
-/

set_option linter.unusedSectionVars false

namespace Shop

/-! ## headers -/

/-- header names are in lower case, as `fetch` and Fastify have them -/
abbrev Headers := List (String × String)

def Headers.get (hs : Headers) (name : String) : Option String := (hs.find? (·.1 = name)).map (·.2)

/-- a key of an object literal, which replaces an earlier one -/
def Headers.set (hs : Headers) (name value : String) : Headers :=
  if hs.any (·.1 = name) then hs.map fun h => if h.1 = name then (name, value) else h
  else hs ++ [(name, value)]

/-- `{ ...hs, ...more }` -/
def Headers.spread (hs more : Headers) : Headers := more.foldl (fun hs h => hs.set h.1 h.2) hs

namespace HEADERS

def correlationId : String := "x-correlation-id"
def userId : String := "x-user-id"
def userEmail : String := "x-user-email"
def userRoles : String := "x-roles"
def internalSecret : String := "x-internal-secret"

end HEADERS

/-! ## `RolesGuard` -/

structure HttpException where
  status : Nat
  message : String
deriving DecidableEq, Repr

/-- `requiredRoles` are those of `@Roles(...)` -/
def RolesGuard.canActivate (requiredRoles : Option (List Role)) (user : Option RequestUser) :
    Except HttpException Unit :=
  match requiredRoles with
  | none => .ok ()
  | some [] => .ok ()
  | some required =>
    if required.any fun role => (user.map RequestUser.roles).any fun roles => roles.contains role
    then .ok ()
    else .error ⟨403, "Access denied. Required roles: " ++
      ", ".intercalate (required.map Role.text)⟩

/-! ## `ProxyService` -/

inductive ServiceName where
  | authService | userService | productService | orderService | paymentService
deriving DecidableEq, Repr

structure ProxyRequestOptions where
  method : String
  path : String
  body : Option String
  user : Option RequestUser
  correlationId : Option String
  headers : Headers

structure GatewayConfig where
  serviceUrls : ServiceName → String
  internalSecret : String

/-- what `fetch` is called with -/
structure DownstreamRequest where
  url : String
  method : String
  headers : Headers
  body : Option String
deriving DecidableEq, Repr

/-- `body` is the JSON text, and `correlationId && ...` leaves an empty id out -/
def ProxyService.proxy (cfg : GatewayConfig) (service : ServiceName)
    (options : ProxyRequestOptions) : DownstreamRequest where
  url := cfg.serviceUrls service ++ options.path
  method := options.method
  headers :=
    Headers.spread
      ((if options.body.isSome then [("content-type", "application/json")] else []) ++
        [(HEADERS.internalSecret, cfg.internalSecret)] ++
        (match options.correlationId with
          | none => []
          | some "" => []
          | some id => [(HEADERS.correlationId, id)]) ++
        (match options.user with
          | none => []
          | some user => [(HEADERS.userId, user.id), (HEADERS.userEmail, user.email),
            (HEADERS.userRoles, ",".intercalate (user.roles.map Role.text))]))
      options.headers
  body := options.body

/-! ## the proxy controllers -/

/-- the handlers, with the parameters of their paths; a `query` is the text of `URLSearchParams` -/
inductive GatewayRoute where
  | login | register | refresh | logout
  | createOrder | findAllOrders (query : String) | findOrderById (id : String)
  | getMyWallet | getWallet (userId : String) | topUp (userId : String)
  | findAllProducts (query : String) | findProductById (id : String) | createProduct
  | updateProduct (id : String) | removeProduct (id : String)
  | findAllUsers (query : String) | getMe | getUser (id : String) | updateUser (id : String)
  | deleteUser (id : String)
deriving DecidableEq, Repr

namespace GatewayRoute

/-- `@Public()` -/
def isPublic : GatewayRoute → Bool
  | .login => true
  | .register => true
  | .refresh => true
  | _ => false

/-- `@Roles(...)` -/
def roles : GatewayRoute → Option (List Role)
  | .getWallet _ => some [.admin]
  | .topUp _ => some [.admin]
  | .createProduct => some [.admin]
  | .updateProduct _ => some [.admin]
  | .removeProduct _ => some [.admin]
  | .findAllUsers _ => some [.admin]
  | .deleteUser _ => some [.admin]
  | _ => none

def withQuery (path query : String) : String := if query = "" then path else path ++ "?" ++ query

/-- the call of `ProxyService` that the handler makes -/
def options (user : Option RequestUser) (correlationId body : Option String) :
    GatewayRoute → ServiceName × ProxyRequestOptions
  | .login => (.authService, ⟨"POST", "/auth/login", body, none, correlationId, []⟩)
  | .register => (.authService, ⟨"POST", "/auth/register", body, none, correlationId, []⟩)
  | .refresh => (.authService, ⟨"POST", "/auth/refresh", body, none, correlationId, []⟩)
  | .logout => (.authService, ⟨"POST", "/auth/logout", none, user, correlationId, []⟩)
  | .createOrder => (.orderService, ⟨"POST", "/orders", body, user, correlationId, []⟩)
  | .findAllOrders query =>
    (.orderService, ⟨"GET", withQuery "/orders" query, none, user, correlationId, []⟩)
  | .findOrderById id => (.orderService, ⟨"GET", "/orders/" ++ id, none, user, correlationId, []⟩)
  | .getMyWallet => (.paymentService,
      ⟨"GET", "/wallets/" ++ (user.map RequestUser.id).getD "", none, user, correlationId, []⟩)
  | .getWallet userId =>
    (.paymentService, ⟨"GET", "/wallets/" ++ userId, none, user, correlationId, []⟩)
  | .topUp userId =>
    (.paymentService, ⟨"POST", "/wallets/" ++ userId ++ "/top-up", body, user, correlationId, []⟩)
  | .findAllProducts query =>
    (.productService, ⟨"GET", withQuery "/products" query, none, user, correlationId, []⟩)
  | .findProductById id =>
    (.productService, ⟨"GET", "/products/" ++ id, none, user, correlationId, []⟩)
  | .createProduct => (.productService, ⟨"POST", "/products", body, user, correlationId, []⟩)
  | .updateProduct id =>
    (.productService, ⟨"PATCH", "/products/" ++ id, body, user, correlationId, []⟩)
  | .removeProduct id =>
    (.productService, ⟨"DELETE", "/products/" ++ id, none, user, correlationId, []⟩)
  | .findAllUsers query =>
    (.userService, ⟨"GET", withQuery "/users" query, none, user, correlationId, []⟩)
  | .getMe => (.userService,
      ⟨"GET", "/users/" ++ (user.map RequestUser.id).getD "", none, user, correlationId, []⟩)
  | .getUser id => (.userService, ⟨"GET", "/users/" ++ id, none, user, correlationId, []⟩)
  | .updateUser id => (.userService, ⟨"PATCH", "/users/" ++ id, body, user, correlationId, []⟩)
  | .deleteUser id => (.userService, ⟨"DELETE", "/users/" ++ id, none, user, correlationId, []⟩)

end GatewayRoute

/-! ## the gateway -/

structure ClientRequest where
  route : GatewayRoute
  headers : Headers
  body : Option String

/-- `CorrelationIdInterceptor`; `uuid` is what `randomUUID` gives -/
def correlationIdOf (headers : Headers) (uuid : String) : String :=
  (headers.get HEADERS.correlationId).getD uuid

/-- `JwtAuthGuard`; `verify` is the check of the bearer token by Passport with `JwtStrategy` -/
def JwtAuthGuard.canActivate (verify : Headers → Option RequestUser) (req : ClientRequest) :
    Except HttpException (Option RequestUser) :=
  if req.route.isPublic then .ok none
  else
    match verify req.headers with
    | none => .error ⟨401, "Invalid or missing token"⟩
    | some user => .ok (some user)

/-- A request of a client, up to the call of `fetch`, which throws if the value of a header (the email
in `x-user-email`) has a character beyond Latin-1: such a request is built here and never sent. -/
def Gateway.handle (cfg : GatewayConfig) (verify : Headers → Option RequestUser) (uuid : String)
    (req : ClientRequest) : Except HttpException DownstreamRequest := do
  let user ← JwtAuthGuard.canActivate verify req
  RolesGuard.canActivate req.route.roles user
  let (service, options) := req.route.options user (some (correlationIdOf req.headers uuid)) req.body
  return ProxyService.proxy cfg service options

/-! ## the services -/

/-- the white space and line ends that `trim` takes off -/
def isSpace (c : Char) : Bool :=
  c ∈ [' ', '\t', '\n', '\r', Char.ofNat 0x0b, Char.ofNat 0x0c, Char.ofNat 0xa0, Char.ofNat 0x1680,
    Char.ofNat 0x2028, Char.ofNat 0x2029, Char.ofNat 0x202f, Char.ofNat 0x205f, Char.ofNat 0x3000,
    Char.ofNat 0xfeff] || decide (0x2000 ≤ c.toNat ∧ c.toNat ≤ 0x200a)

def trim (s : String) : String :=
  String.ofList ((s.toList.dropWhile isSpace).reverse.dropWhile isSpace).reverse

/-- `s.split(',')` -/
def splitComma (s : String) : List String := (s.toList.splitOn ',').map String.ofList

/-- a text that is in `Object.values(Role)` -/
def Role.ofText (s : String) : Option Role := [Role.user, .admin, .moderator].find? (·.text = s)

/-- the two controllers have the same function -/
def parseRoles (rolesHeader : Option String) : List Role :=
  match rolesHeader with
  | none => []
  | some "" => []
  | some header => (splitComma header).filterMap fun r => Role.ofText (trim r)

def UsersController.parseRoles : Option String → List Role := Shop.parseRoles
def WalletsController.parseRoles : Option String → List Role := Shop.parseRoles

/-- `rolesHeader ? rolesHeader.split(',') : []` -/
def splitRoles : Option String → List String
  | none => []
  | some "" => []
  | some header => splitComma header

def ProductsController.requireAdmin (rolesHeader : Option String) : Except HttpException Unit :=
  if (splitRoles rolesHeader).contains Role.admin.text then .ok ()
  else .error ⟨403, "Admin role required"⟩

/-- `InternalGuard` of every service, on a route that is not public -/
def InternalGuard.canActivate (expected : String) (headers : Headers) : Except HttpException Unit :=
  match headers.get HEADERS.internalSecret with
  | none => .error ⟨401, "Missing or invalid internal secret"⟩
  | some secret =>
    if secret = "" ∨ secret ≠ expected then .error ⟨401, "Missing or invalid internal secret"⟩
    else .ok ()

/-! ## the roles in the header -/

theorem comma_not_mem_text (role : Role) : ',' ∉ role.text.toList := by
  cases role <;> decide

theorem ofText_trim_text (role : Role) : Role.ofText (trim role.text) = some role := by
  cases role <;> decide

theorem text_ne_empty (role : Role) : role.text ≠ "" := by
  cases role <;> decide

/-- the text of a role list splits into the roles, if there is one -/
theorem splitComma_join {roles : List Role} (h : roles ≠ []) :
    splitComma (",".intercalate (roles.map Role.text)) = roles.map Role.text := by
  unfold splitComma
  rw [String.toList_intercalate]
  have hcomma : ∀ l ∈ (roles.map Role.text).map String.toList, ',' ∉ l := by
    intro l hl
    rw [List.map_map, List.mem_map] at hl
    obtain ⟨role, _, rfl⟩ := hl
    exact comma_not_mem_text role
  have hsplit := List.splitOn_intercalate ',' hcomma (by simpa using h)
  have hsep : ",".toList = [','] := rfl
  rw [hsep, hsplit, List.map_map]
  refine (List.map_congr_left fun s _ => ?_).trans (List.map_id _)
  exact String.ofList_toList

theorem join_ne_empty {roles : List Role} (h : roles ≠ []) :
    ",".intercalate (roles.map Role.text) ≠ "" := by
  intro hempty
  have hsplit := splitComma_join h
  rw [hempty] at hsplit
  cases roles with
  | nil => exact h rfl
  | cons role roles =>
    have hhead : splitComma "" = [""] := rfl
    rw [hhead, List.map_cons] at hsplit
    exact text_ne_empty role (List.cons.inj hsplit).1.symm

theorem splitRoles_join (roles : List Role) :
    splitRoles (some (",".intercalate (roles.map Role.text))) = roles.map Role.text := by
  by_cases h : roles = []
  · rw [h]
    rfl
  · have hne := join_ne_empty h
    unfold splitRoles
    split
    · rename_i heq
      cases heq
    · rename_i heq
      exact absurd (Option.some.inj heq) hne
    · rename_i header _ heq
      rw [← Option.some.inj heq]
      exact splitComma_join h

/-- the early return of `parseRoles` is the empty list of parts -/
theorem parseRoles_eq (rolesHeader : Option String) : parseRoles rolesHeader =
    (splitRoles rolesHeader).filterMap fun r => Role.ofText (trim r) := by
  unfold parseRoles splitRoles
  split <;> rfl

/-- **The roles come back**, for a list of any length, with repetitions and in order. -/
theorem parseRoles_join (roles : List Role) :
    parseRoles (some (",".intercalate (roles.map Role.text))) = roles := by
  rw [parseRoles_eq, splitRoles_join, List.filterMap_map]
  have hsome : (fun r => Role.ofText (trim r)) ∘ Role.text = some := by
    funext role
    exact ofText_trim_text role
  rw [hsome, List.filterMap_some]

/-- the plain split of product-service finds the same administrators -/
theorem requireAdmin_join (roles : List Role) :
    ProductsController.requireAdmin (some (",".intercalate (roles.map Role.text))) = .ok () ↔
      Role.admin ∈ roles := by
  have hmem : (roles.map Role.text).contains Role.admin.text = true ↔ Role.admin ∈ roles := by
    rw [List.contains_iff_mem, List.mem_map]
    constructor
    · rintro ⟨role, hrole, htext⟩
      rw [← Role.text_inj htext]
      exact hrole
    · exact fun hrole => ⟨_, hrole, rfl⟩
  unfold ProductsController.requireAdmin
  rw [splitRoles_join]
  by_cases hadmin : Role.admin ∈ roles
  · rw [if_pos (hmem.mpr hadmin)]
    exact ⟨fun _ => hadmin, fun _ => rfl⟩
  · rw [if_neg (fun hc => hadmin (hmem.mp hc))]
    exact ⟨nofun, fun hc => absurd hc hadmin⟩

theorem rolesGuard_admin (user : RequestUser) :
    RolesGuard.canActivate (some [.admin]) (some user) = .ok () ↔ Role.admin ∈ user.roles := by
  simp only [RolesGuard.canActivate, List.any_cons, List.any_nil, Bool.or_false, Option.map_some,
    Option.any_some, List.contains_iff_mem]
  by_cases h : Role.admin ∈ user.roles <;> simp [h]

/-! ## what is sent on -/

/-- the headers of a request that is sent for a user, by a handler that passes none of its own -/
theorem proxy_headers (cfg : GatewayConfig) (service : ServiceName) (options : ProxyRequestOptions)
    (user : RequestUser) (huser : options.user = some user) (hheaders : options.headers = []) :
    ∃ hs : Headers, (∀ h ∈ hs, h.1 ≠ HEADERS.userId ∧ h.1 ≠ HEADERS.userRoles) ∧
      (ProxyService.proxy cfg service options).headers = hs ++ [(HEADERS.userId, user.id),
        (HEADERS.userEmail, user.email),
        (HEADERS.userRoles, ",".intercalate (user.roles.map Role.text))] := by
  refine ⟨(if options.body.isSome then [("content-type", "application/json")] else []) ++
    [(HEADERS.internalSecret, cfg.internalSecret)] ++
    (match options.correlationId with
      | none => []
      | some "" => []
      | some id => [(HEADERS.correlationId, id)]), fun h hh => ?_, ?_⟩
  · rcases List.mem_append.mp hh with hh | hh
    · rcases List.mem_append.mp hh with hh | hh
      · split at hh
        · rw [List.mem_singleton.mp hh]
          decide
        · exact absurd hh List.not_mem_nil
      · rw [List.mem_singleton.mp hh]
        exact ⟨by show HEADERS.internalSecret ≠ _; decide, by show HEADERS.internalSecret ≠ _; decide⟩
    · split at hh
      · exact absurd hh List.not_mem_nil
      · exact absurd hh List.not_mem_nil
      · rw [List.mem_singleton.mp hh]
        exact ⟨by show HEADERS.correlationId ≠ _; decide, by show HEADERS.correlationId ≠ _; decide⟩
  · simp only [ProxyService.proxy, hheaders, huser, Headers.spread, List.foldl_nil]

theorem get_append {hs hs' : Headers} {name : String} (h : ∀ x ∈ hs, x.1 ≠ name) :
    Headers.get (hs ++ hs') name = Headers.get hs' name := by
  have hnone : hs.find? (·.1 = name) = none := by
    refine List.find?_eq_none.mpr fun x hx => ?_
    simpa using h x hx
  unfold Headers.get
  rw [List.find?_append, hnone, Option.none_or]

/-- the services receive the id and the roles of the user -/
theorem proxy_user (cfg : GatewayConfig) (service : ServiceName) (options : ProxyRequestOptions)
    (user : RequestUser) (huser : options.user = some user) (hheaders : options.headers = []) :
    (ProxyService.proxy cfg service options).headers.get HEADERS.userId = some user.id ∧
    (ProxyService.proxy cfg service options).headers.get HEADERS.userRoles =
      some (",".intercalate (user.roles.map Role.text)) := by
  obtain ⟨hs, hother, heq⟩ := proxy_headers cfg service options user huser hheaders
  rw [heq, get_append fun x hx => (hother x hx).1, get_append fun x hx => (hother x hx).2]
  exact ⟨rfl, rfl⟩

/-- every handler passes the verified user on, and no headers of its own -/
theorem options_user {route : GatewayRoute} (h : route.isPublic = false) (user : RequestUser)
    (correlationId body : Option String) :
    (route.options (some user) correlationId body).2.user = some user ∧
      (route.options (some user) correlationId body).2.headers = [] := by
  cases route <;> first | exact ⟨rfl, rfl⟩ | exact nomatch h

/-- the way of a request whose token has been verified -/
theorem handle_verified (cfg : GatewayConfig) (verify : Headers → Option RequestUser)
    (uuid : String) (req : ClientRequest) {user : RequestUser} (hpublic : req.route.isPublic = false)
    (h : verify req.headers = some user) :
    Gateway.handle cfg verify uuid req =
      (RolesGuard.canActivate req.route.roles (some user)).bind fun _ =>
        let call := req.route.options (some user) (some (correlationIdOf req.headers uuid)) req.body
        .ok (ProxyService.proxy cfg call.1 call.2) := by
  have hguard : JwtAuthGuard.canActivate verify req = .ok (some user) := by
    simp [JwtAuthGuard.canActivate, hpublic, h]
  unfold Gateway.handle
  rw [hguard]
  rfl

/-- **The services act on exactly the verified identity.**  Of two requests to one route with one
body, one user and one correlation id, whatever else their headers say, the same is sent on; and the
services read the user's id and roles off what is sent, and take the user for an administrator
exactly if `RolesGuard` does. -/
theorem identity_forwarded (cfg : GatewayConfig) (verify : Headers → Option RequestUser)
    (route : GatewayRoute) (body : Option String) (headers headers' : Headers)
    (uuid uuid' : String) (user : RequestUser) (hpublic : route.isPublic = false)
    (h : verify headers = some user) (h' : verify headers' = some user)
    (hcorrelation : correlationIdOf headers uuid = correlationIdOf headers' uuid') :
    Gateway.handle cfg verify uuid ⟨route, headers, body⟩ =
      Gateway.handle cfg verify uuid' ⟨route, headers', body⟩ ∧
    ((∃ sent, Gateway.handle cfg verify uuid ⟨route, headers, body⟩ = .ok sent) ↔
      RolesGuard.canActivate route.roles (some user) = .ok ()) ∧
    ∀ sent, Gateway.handle cfg verify uuid ⟨route, headers, body⟩ = .ok sent →
      let rolesHeader := sent.headers.get HEADERS.userRoles
      sent.headers.get HEADERS.userId = some user.id ∧
      UsersController.parseRoles rolesHeader = user.roles ∧
      WalletsController.parseRoles rolesHeader = user.roles ∧
      (Role.admin ∈ UsersController.parseRoles rolesHeader ↔
        RolesGuard.canActivate (some [.admin]) (some user) = .ok ()) ∧
      (Role.admin ∈ WalletsController.parseRoles rolesHeader ↔
        RolesGuard.canActivate (some [.admin]) (some user) = .ok ()) ∧
      (ProductsController.requireAdmin rolesHeader = .ok () ↔
        RolesGuard.canActivate (some [.admin]) (some user) = .ok ()) := by
  have hhandle := handle_verified cfg verify uuid ⟨route, headers, body⟩ hpublic h
  have hhandle' := handle_verified cfg verify uuid' ⟨route, headers', body⟩ hpublic h'
  refine ⟨?_, ?_, fun sent hsent => ?_⟩
  · rw [hhandle, hhandle']
    simp only [hcorrelation]
  · rw [hhandle]
    cases RolesGuard.canActivate route.roles (some user) with
    | error e =>
      constructor
      · rintro ⟨sent, hsent⟩
        cases hsent
      · intro hok
        cases hok
    | ok _ => exact ⟨fun _ => rfl, fun _ => ⟨_, rfl⟩⟩
  · rw [hhandle] at hsent
    cases hroles : RolesGuard.canActivate route.roles (some user) with
    | error e =>
      rw [hroles] at hsent
      cases hsent
    | ok _ =>
      rw [hroles] at hsent
      cases hsent
      obtain ⟨huser, hnone⟩ := options_user hpublic user (some (correlationIdOf headers uuid)) body
      obtain ⟨hid, hheader⟩ := proxy_user cfg _ _ user huser hnone
      intro rolesHeader
      have hparse : parseRoles rolesHeader = user.roles := by
        rw [show rolesHeader = _ from hheader]
        exact parseRoles_join user.roles
      have hadmin : Role.admin ∈ parseRoles rolesHeader ↔
          RolesGuard.canActivate (some [.admin]) (some user) = .ok () := by
        rw [hparse]
        exact (rolesGuard_admin user).symm
      refine ⟨hid, hparse, hparse, hadmin, hadmin, ?_⟩
      rw [show rolesHeader = _ from hheader]
      exact (requireAdmin_join user.roles).trans (rolesGuard_admin user).symm

/-- a client that forges the gateway's own headers -/
theorem identity_forwarded_forged :
    let cfg : GatewayConfig := ⟨fun _ => "http://service", "secret"⟩
    let user : RequestUser := ⟨"u1", "eve@example.com", [.user, .moderator, .user]⟩
    let verify : Headers → Option RequestUser := fun headers =>
      if headers.get "authorization" = some "Bearer token" then some user else none
    let plain : Headers := [("authorization", "Bearer token")]
    let forged : Headers := [("authorization", "Bearer token"), ("x-user-id", "u2"),
      ("x-roles", "admin"), ("x-internal-secret", "guess")]
    Gateway.handle cfg verify "c1" ⟨.getMe, plain, none⟩ =
        Gateway.handle cfg verify "c1" ⟨.getMe, forged, none⟩ ∧
      Gateway.handle cfg verify "c1" ⟨.getMe, forged, none⟩ = .ok ⟨"http://service/users/u1", "GET",
        [("x-internal-secret", "secret"), ("x-correlation-id", "c1"), ("x-user-id", "u1"),
          ("x-user-email", "eve@example.com"), ("x-roles", "user,moderator,user")], none⟩ :=
  ⟨(identity_forwarded _ _ .getMe none _ _ "c1" "c1"
      ⟨"u1", "eve@example.com", [.user, .moderator, .user]⟩ rfl (by decide) (by decide)
      (by decide)).1, by decide +kernel⟩

end Shop
