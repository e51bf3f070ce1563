import Shop.Gateway.Hop
import Shop.Payment.TopUp
import Shop.System.Callers
import Shop.System.Keys

/-!
# The shop behind its gateway

What clients ask for passes the gateway, the router of a service, the guard of the service and its
controller, and only then is one of the actions of the composed system.

* `ServiceRoute.handle`    the controllers of order-, product- and payment-service, up to the call
                           of the service;
* `served`                 a request that arrives at a service, up to that call;
* `Storefront.step`        a step of the front door, a request that does not come through the gateway,
                           or a step of the shop that nobody asks for;
* `Entitled`               a user of the table has presented a token that was issued for him, and may
                           ask for what is done: for an order in his own name, and for the rest if he
                           was an administrator from the start;
* `requests_entitled`      whatever clients ask for is done for somebody who is entitled to it;
* `orders_owned`           the orders and the payments of every reachable state belong to users of
                           the table.
-/

set_option linter.unusedSectionVars false

namespace Shop
open Lib

/-! ## the controllers -/

/-- what `ValidationPipe` makes of a body, if it lets it through; the amount is in cents -/
structure Bodies where
  createOrder : Option String → Option (List LineItem)
  createProduct : Option String → Option ProductDb.CreateProductInput
  updateProduct : Option String → Option ProductDb.UpdateProductInput
  reserveStock : Option String → Option (List LineItem)
  topUp : Option String → Option Nat

/-- what a database generates for one request -/
structure RequestIds where
  outbox : Uuid
  order : NewIds
  row : Uuid

def ValidationPipe.transform {α : Type} (dto : Option α) : Except HttpException α :=
  match dto with
  | none => .error ⟨400, "Bad Request Exception"⟩
  | some dto => .ok dto

def isUUID (s : String) : Bool :=
  let groups := s.toList.splitOn '-'
  groups.map List.length = [8, 4, 4, 4, 12] && groups.all fun g => g.all fun c =>
    (digitValue c).isSome

def ParseUUIDPipe.transform (id : String) : Except HttpException String :=
  if isUUID id then .ok id else .error ⟨400, "Validation failed (uuid is expected)"⟩

/-- Pipes come before the handler.  The call that a handler makes is an action of the shop; one that
changes none of its tables is none. -/
def ServiceRoute.handle (bodies : Bodies) (ids : RequestIds) (req : DownstreamRequest) :
    ServiceRoute → Except HttpException (Option Action)
  | .ordersCreate => do
    let items ← ValidationPipe.transform (bodies.createOrder req.body)
    let userEmail := req.headers.get HEADERS.userEmail
    let input ← OrdersController.create (req.headers.get HEADERS.userId) (userEmail.getD "")
      (req.headers.get HEADERS.correlationId) items
    -- the column is not nullable
    if userEmail.isNone then .error ⟨500, "Internal server error"⟩
    else return some (.order (.create ids.outbox ids.order input))
  | .productsCreate => do
    let input ← ValidationPipe.transform (bodies.createProduct req.body)
    ProductsController.requireAdmin (req.headers.get HEADERS.userRoles)
    return some (.createProduct ids.row input)
  | .productsUpdate id => do
    let id ← ParseUUIDPipe.transform id
    let input ← ValidationPipe.transform (bodies.updateProduct req.body)
    ProductsController.requireAdmin (req.headers.get HEADERS.userRoles)
    return some (.updateProduct id input)
  | .productsRemove id => do
    let id ← ParseUUIDPipe.transform id
    ProductsController.requireAdmin (req.headers.get HEADERS.userRoles)
    return some (.removeProduct id)
  | .productsReserveStock => do
    let items ← ValidationPipe.transform (bodies.reserveStock req.body)
    return some (.reserveProducts items)
  | .walletsTopUp userId => do
    let amount ← ValidationPipe.transform (bodies.topUp req.body)
    if Role.admin ∉ WalletsController.parseRoles (req.headers.get HEADERS.userRoles) then
      .error ⟨403, "Admin role required"⟩
    else return some (.topUp ids.row userId amount)
  | _ => .ok none

/-- the route that the router of the service finds, behind `InternalGuard` -/
def served (secret : String) (bodies : Bodies) (ids : RequestIds) (service : ServiceName)
    (req : DownstreamRequest) : Option Action :=
  (req.arrives service).bind fun found =>
    match (InternalGuard.canActivate secret req.headers).bind fun _ =>
        found.2.1.handle bodies ids req with
    | .ok action => action
    | .error _ => none

/-- the service that the handler of the gateway calls -/
def GatewayRoute.service (route : GatewayRoute) : ServiceName := (route.options none none none).1

/-! ## the shop and its front door -/

/-- what the gateway and the services are configured with, and the libraries they use -/
structure ShopConfig where
  auth : AuthConfig
  gateway : GatewayConfig
  bearer : Headers → Option String
  bodies : Bodies

structure Storefront where
  front : FrontDoor
  world : World

inductive StorefrontAction where
  | front (a : FrontAction) (ids : RequestIds)
  | direct (service : ServiceName) (req : DownstreamRequest) (ids : RequestIds)
  | inside (a : Action)

/-- what only a request brings about -/
def Action.isRequest : Action → Bool
  | .order (.create _ _ _) => true
  | .createProduct _ _ | .updateProduct _ _ | .removeProduct _ | .reserveProducts _ => true
  | .topUp _ _ _ => true
  | _ => false

namespace Storefront

def init (users₀ : List UserRow) (now : Nat) : Storefront := ⟨FrontDoor.init users₀, World.init now⟩

section
variable (cfg : ShopConfig)

/-- the action of the shop that is taken -/
def performs (s : Storefront) : StorefrontAction → Option Action
  | .front a ids =>
    (s.front.forwards cfg.auth cfg.gateway cfg.bearer a).bind fun f =>
      served cfg.gateway.internalSecret cfg.bodies ids f.1.request.route.service f.2
  | .direct service req ids => served cfg.gateway.internalSecret cfg.bodies ids service req
  | .inside a => if a.isRequest then none else some a

def frontStep (s : Storefront) : StorefrontAction → FrontDoor
  | .front a _ => s.front.step cfg.auth cfg.bearer a
  | _ => s.front

def step (s : Storefront) (a : StorefrontAction) : Storefront where
  front := s.frontStep cfg a
  world := (s.performs cfg a).elim s.world s.world.step

/-- no forged token, and nobody but the gateway knows the internal secret -/
def Genuine (s : Storefront) : StorefrontAction → Prop
  | .front a _ => s.front.Genuine cfg.auth cfg.bearer a
  | .direct _ req _ => req.headers.get HEADERS.internalSecret ≠ some cfg.gateway.internalSecret
  | .inside _ => True

end

end Storefront

/-- what a user may ask of the shop -/
def Permitted (users₀ : List UserRow) (u : UserRow) : Action → Prop
  | .order (.create _ _ input) => input.userId = u.id ∧ input.userEmail = u.email
  | .createProduct _ _ | .updateProduct _ _ | .removeProduct _ | .topUp _ _ _ =>
    Role.admin ∈ u.roles ∧ u.identity ∈ users₀.map UserRow.identity
  | _ => False

/-- a request of a user of the table, on a token that was issued for this row, for something that he
may ask for -/
def Storefront.Entitled (cfg : ShopConfig) (users₀ : List UserRow) (s : Storefront)
    (a : StorefrontAction) (act : Action) : Prop :=
  ∃ r ids token, a = .front (.request r) ids ∧ cfg.bearer r.request.headers = some token ∧
    ∃ u ∈ s.front.auth.db.users, s.front.Issued u.id token ∧ Permitted users₀ u act

/-! ## what the controllers check -/

/-- a text that product-service takes for an administrator's is one that the others take for it -/
theorem requireAdmin_ok {rolesHeader : Option String}
    (h : ProductsController.requireAdmin rolesHeader = .ok ()) :
    Role.admin ∈ parseRoles rolesHeader := by
  unfold ProductsController.requireAdmin at h
  split at h
  · rename_i hmem
    rw [parseRoles_eq]
    refine List.mem_filterMap.mpr ⟨Role.admin.text, List.contains_iff_mem.mp hmem, ?_⟩
    exact ofText_trim_text .admin
  · cases h

/-- what a controller asks for, and what it has checked -/
inductive Asks (headers : Headers) : ServiceRoute → Action → Prop where
  | order {userId userEmail : String} (u : Uuid) (ids : NewIds) (input : CreateOrderInput) :
      headers.get HEADERS.userId = some userId → headers.get HEADERS.userEmail = some userEmail →
      input.userId = userId → input.userEmail = userEmail →
      Asks headers .ordersCreate (.order (.create u ids input))
  | staff {route : ServiceRoute} {act : Action} :
      Role.admin ∈ parseRoles (headers.get HEADERS.userRoles) →
      (∀ u users₀, Role.admin ∈ u.roles → u.identity ∈ users₀.map UserRow.identity →
        Permitted users₀ u act) → Asks headers route act
  | reserve (items : List LineItem) : Asks headers .productsReserveStock (.reserveProducts items)

theorem handle_asks {bodies : Bodies} {ids : RequestIds} {req : DownstreamRequest}
    {route : ServiceRoute} {act : Action} (h : route.handle bodies ids req = .ok (some act)) :
    Asks req.headers route act := by
  cases route with
  | ordersCreate =>
    obtain ⟨items, _, h⟩ := bind_eq_ok h
    obtain ⟨input, hinput, h⟩ := bind_eq_ok h
    cases hemail : req.headers.get HEADERS.userEmail with
    | none =>
      rw [hemail] at h
      cases h
    | some userEmail =>
      rw [hemail] at h hinput
      cases h
      unfold OrdersController.create at hinput
      cases hid : req.headers.get HEADERS.userId with
      | none =>
        rw [hid] at hinput
        cases hinput
      | some userId =>
        rw [hid] at hinput
        split at hinput
        · cases hinput
        · cases hinput
        · rename_i id _ heq
          cases heq
          cases hinput
          exact .order _ _ _ hid hemail rfl rfl
  | productsCreate =>
    obtain ⟨input, _, h⟩ := bind_eq_ok h
    obtain ⟨_, hadmin, h⟩ := bind_eq_ok h
    cases h
    exact .staff (requireAdmin_ok hadmin) fun _ _ hu hold => ⟨hu, hold⟩
  | productsUpdate id =>
    obtain ⟨id, _, h⟩ := bind_eq_ok h
    obtain ⟨input, _, h⟩ := bind_eq_ok h
    obtain ⟨_, hadmin, h⟩ := bind_eq_ok h
    cases h
    exact .staff (requireAdmin_ok hadmin) fun _ _ hu hold => ⟨hu, hold⟩
  | productsRemove id =>
    obtain ⟨id, _, h⟩ := bind_eq_ok h
    obtain ⟨_, hadmin, h⟩ := bind_eq_ok h
    cases h
    exact .staff (requireAdmin_ok hadmin) fun _ _ hu hold => ⟨hu, hold⟩
  | productsReserveStock =>
    obtain ⟨items, _, h⟩ := bind_eq_ok h
    cases h
    exact .reserve items
  | walletsTopUp userId =>
    obtain ⟨amount, _, h⟩ := bind_eq_ok h
    by_cases hadmin : Role.admin ∈
        WalletsController.parseRoles (req.headers.get HEADERS.userRoles)
    · rw [if_neg (not_not.mpr hadmin)] at h
      cases h
      exact .staff hadmin fun _ _ hu hold => ⟨hu, hold⟩
    · rw [if_pos hadmin] at h
      cases h
  | _ => cases h

/-- a request that is served has the internal secret, and a route that the router has found -/
theorem served_asks {secret : String} {bodies : Bodies} {ids : RequestIds} {service : ServiceName}
    {req : DownstreamRequest} {act : Action}
    (h : served secret bodies ids service req = some act) :
    req.headers.get HEADERS.internalSecret = some secret ∧
      ∃ found, req.arrives service = some found ∧ Asks req.headers found.2.1 act := by
  obtain ⟨found, hfound, h⟩ := Option.bind_eq_some_iff.mp h
  cases hrun : (InternalGuard.canActivate secret req.headers).bind fun _ =>
      found.2.1.handle bodies ids req with
  | error e =>
    rw [hrun] at h
    cases h
  | ok action =>
    rw [hrun] at h
    cases h
    obtain ⟨_, hguard, hhandle⟩ := bind_eq_ok hrun
    refine ⟨?_, found, hfound, handle_asks hhandle⟩
    unfold InternalGuard.canActivate at hguard
    split at hguard
    · cases hguard
    · rename_i given hgiven
      split at hguard
      · cases hguard
      · rename_i hsame
        rw [hgiven, not_not.mp fun hne => hsame (Or.inr hne)]

/-! ## what the gateway sends -/

/-- whoever a request is for, `ProxyService` sends what the handler of its route asks for -/
theorem handle_options {gateway : GatewayConfig} {verify : Headers → Option RequestUser}
    {uuid : String} {req : ClientRequest} {sent : DownstreamRequest}
    (h : Gateway.handle gateway verify uuid req = .ok sent) :
    ∃ user correlationId, sent =
      let call := req.route.options user correlationId req.body
      ProxyService.proxy gateway call.1 call.2 := by
  obtain ⟨user, _, h⟩ := bind_eq_ok h
  obtain ⟨_, _, h⟩ := bind_eq_ok h
  cases h
  exact ⟨user, _, rfl⟩

/-- the services receive the email of the user -/
theorem proxy_email (gateway : GatewayConfig) (service : ServiceName)
    (options : ProxyRequestOptions) (user : RequestUser) (huser : options.user = some user)
    (hheaders : options.headers = []) :
    (ProxyService.proxy gateway service options).headers.get HEADERS.userEmail =
      some user.email := by
  have hbody : ∀ x ∈ (if options.body.isSome then [("content-type", "application/json")] else []),
      x.1 ≠ HEADERS.userEmail := by
    intro x hx
    split at hx
    · rw [List.mem_singleton.mp hx]
      show "content-type" ≠ HEADERS.userEmail
      decide
    · exact absurd hx List.not_mem_nil
  have hsecret : ∀ x ∈ [(HEADERS.internalSecret, gateway.internalSecret)],
      x.1 ≠ HEADERS.userEmail := by
    intro x hx
    rw [List.mem_singleton.mp hx]
    show HEADERS.internalSecret ≠ HEADERS.userEmail
    decide
  simp only [ProxyService.proxy, hheaders, huser, Headers.spread, List.foldl_nil,
    List.append_assoc]
  rw [get_append hbody, get_append hsecret]
  refine (get_append fun x hx => ?_).trans rfl
  split at hx
  · exact absurd hx List.not_mem_nil
  · exact absurd hx List.not_mem_nil
  · rw [List.mem_singleton.mp hx]
    show HEADERS.correlationId ≠ HEADERS.userEmail
    decide

/-! ## where a request arrives -/

theorem arrives_route {service : ServiceName} {req : DownstreamRequest}
    {found : String × ServiceRoute × String} (h : req.arrives service = some found) :
    ∃ route ∈ serviceRoutes service, route.method = req.method ∧
      ∃ value, route.handler value = found.2.1 := by
  rw [arrives_eq] at h
  obtain ⟨_, _, h⟩ := Option.bind_eq_some_iff.mp h
  obtain ⟨handler, hfirst, rfl⟩ := Option.map_eq_some_iff.mp h
  exact first_method hfirst

/-- auth-service changes nothing in the shop -/
theorem served_auth (secret : String) (bodies : Bodies) (ids : RequestIds)
    (req : DownstreamRequest) : served secret bodies ids .authService req = none := by
  refine Option.eq_none_iff_forall_ne_some.mpr fun act h => ?_
  obtain ⟨found, hfound, h⟩ := Option.bind_eq_some_iff.mp h
  obtain ⟨route, hroute, _, value, hvalue⟩ := arrives_route hfound
  have hnone : ∀ route ∈ serviceRoutes .authService, ∀ value,
      (route.handler value).handle bodies ids req = .ok none := by
    simp [serviceRoutes, ServiceRoute.handle]
  rw [← hvalue, hnone route hroute value] at h
  cases hguard : InternalGuard.canActivate secret req.headers with
  | error e =>
    rw [hguard] at h
    cases h
  | ok _ =>
    rw [hguard] at h
    cases h

/-- the only handler of the gateway that sends a `POST` to product-service creates a product -/
theorem createProduct_arrives {gateway : GatewayConfig} {authority : String}
    (horigin : IsOrigin (gateway.serviceUrls .productService) authority)
    (user : Option RequestUser) (correlationId body : Option String) :
    let call := GatewayRoute.createProduct.options user correlationId body
    (ProxyService.proxy gateway call.1 call.2).arrives .productService =
      some (authority, .productsCreate, "") := by
  intro call
  obtain ⟨scheme, hs, htext⟩ := origin_toList horigin
  have hurl : (ProxyService.proxy gateway call.1 call.2).url.toList =
      scheme ++ authority.toList ++ '/' :: "products".toList := by
    show (gateway.serviceUrls .productService ++ "/products").toList = _
    rw [String.toList_append, htext]
    rfl
  have hpieces : pieces "products".toList = ["products".toList] := pieces_word (by decide)
  rw [arrives_eq, hurl, hop_plain hs horigin.2 (by decide), hpieces]
  · simp only [Option.bind_some, String.ofList_toList]
    rfl
  · intro x hx
    rw [hpieces, List.mem_singleton] at hx
    rw [hx]
    decide
  · intro x hx
    rw [hpieces, List.mem_singleton] at hx
    rw [hx]
    decide

/-- **No request of a client reaches `POST /products/reserve`**, which asks for no role. -/
theorem reserve_unreached {gateway : GatewayConfig} {authority : String}
    (horigin : IsOrigin (gateway.serviceUrls .productService) authority)
    {verify : Headers → Option RequestUser} {uuid : String} {req : ClientRequest}
    {sent : DownstreamRequest} (h : Gateway.handle gateway verify uuid req = .ok sent)
    {found : String × ServiceRoute × String}
    (hfound : sent.arrives req.route.service = some found) :
    found.2.1 ≠ .productsReserveStock := by
  intro hreserve
  obtain ⟨route, hroute, hmethod, value, hvalue⟩ := arrives_route hfound
  have hpost : ∀ service, ∀ route ∈ serviceRoutes service, ∀ value,
      route.handler value = .productsReserveStock →
        service = .productService ∧ route.method = "POST" := by
    intro service
    cases service <;> simp [serviceRoutes]
  obtain ⟨hservice, hposted⟩ := hpost _ route hroute value (hvalue.trans hreserve)
  obtain ⟨user, correlationId, rfl⟩ := handle_options h
  rw [hposted] at hmethod
  have hcreate : req.route = .createProduct := by
    revert hmethod hservice
    cases req.route <;> simp [GatewayRoute.service, GatewayRoute.options, ProxyService.proxy]
  rw [hcreate] at hfound
  rw [show GatewayRoute.createProduct.service = .productService from rfl,
    createProduct_arrives horigin] at hfound
  cases hfound
  cases hreserve

/-! ## whom a request is for -/

namespace FrontDoor
variable {cfg : AuthConfig} {gateway : GatewayConfig} {bearer : Headers → Option String}
  {users₀ : List UserRow} {w : FrontDoor}

theorem forwards_request {a : FrontAction} {f : Arrival × DownstreamRequest}
    (h : w.forwards cfg gateway bearer a = some f) : a = .request f.1 ∧
      Gateway.handle gateway (w.verify cfg bearer f.1) f.1.uuid f.1.request = .ok f.2 := by
  cases a with
  | request r =>
    cases hsent : Gateway.handle gateway (w.verify cfg bearer r) r.uuid r.request with
    | error e =>
      simp only [forwards, hsent] at h
      cases h
    | ok sent =>
      simp only [forwards, hsent] at h
      cases h
      exact ⟨rfl, hsent⟩
  | _ => cases h

/-- whom the strategy finds is in the table -/
theorem Sound.verified (hverify : cfg.Verifies) (h : w.Sound cfg users₀) {r : Arrival}
    (hg : w.Genuine cfg bearer (.request r)) {user : RequestUser}
    (hv : w.verify cfg bearer r r.request.headers = some user) :
    user ∈ w.auth.db.identities := by
  obtain ⟨p, hp, rfl⟩ := Option.map_eq_some_iff.mp hv
  obtain ⟨hknown, _⟩ := h.payload_known hverify hg hp
  rw [validate_known h.auth.inv.ids h.cache hknown]
  exact hknown

/-- the email that is sent is the user's as well -/
theorem Sound.email (hverify : cfg.Verifies) (h : w.Sound cfg users₀) {r : Arrival}
    (hg : w.Genuine cfg bearer (.request r)) {sent : DownstreamRequest}
    (hpublic : r.request.route.isPublic = false)
    (hsent : Gateway.handle gateway (w.verify cfg bearer r) r.uuid r.request = .ok sent)
    {u : UserRow} (hu : u ∈ w.auth.db.users) (hfor : SentFor r sent u.identity) :
    sent.headers.get HEADERS.userEmail = some u.email := by
  obtain ⟨user, hv, hfor'⟩ := handle_sent hpublic hsent
  have hid : user.id = u.identity.id := Option.some.inj (hfor'.id.symm.trans hfor.id)
  have huser : user = u.identity :=
    key_inj h.auth.inv.ids (h.verified hverify hg hv) (mem_identities hu) hid
  rw [handle_verified gateway _ r.uuid r.request hpublic hv, hfor'.allowed] at hsent
  cases hsent
  obtain ⟨hoptions, hnone⟩ := options_user hpublic user
    (some (correlationIdOf r.request.headers r.uuid)) r.request.body
  rw [proxy_email gateway _ _ user hoptions hnone, huser]
  rfl

end FrontDoor

section
variable {cfg : ShopConfig} {users₀ : List UserRow} {s : Storefront} {a : StorefrontAction}
  {act : Action}

/-- what a request asks for is something that its user may ask for -/
theorem Asks.permitted {r : Arrival} {sent : DownstreamRequest} {u : UserRow}
    {route : ServiceRoute} (h : Asks sent.headers route act) (hfor : SentFor r sent u.identity)
    (hemail : sent.headers.get HEADERS.userEmail = some u.email)
    (hroles : u.identity ∈ users₀.map UserRow.identity ∨ u.roles = [.user])
    (hreserve : route ≠ .productsReserveStock) : Permitted users₀ u act := by
  cases h with
  | order _ _ input hid hmail hinput hinputmail =>
    refine ⟨hinput.trans ?_, hinputmail.trans ?_⟩
    · exact Option.some.inj (hid.symm.trans hfor.id)
    · exact Option.some.inj (hmail.symm.trans hemail)
  | staff hadmin hperm =>
    rw [hfor.roles] at hadmin
    have hadmin : Role.admin ∈ u.roles := hadmin
    rcases hroles with hold | hplain
    · exact hperm u users₀ hadmin hold
    · rw [hplain] at hadmin
      exact absurd hadmin (by decide)
  | reserve items => exact absurd rfl hreserve

/-- what is done at a client's request is done for a user who is entitled to it -/
theorem Storefront.entitled {authority : String} (hverify : cfg.auth.Verifies)
    (horigin : IsOrigin (cfg.gateway.serviceUrls .productService) authority)
    (hs : s.front.Sound cfg.auth users₀) (hg : s.Genuine cfg a)
    (h : s.performs cfg a = some act) (hact : act.isRequest = true) :
    s.Entitled cfg users₀ a act := by
  cases a with
  | front b ids =>
    obtain ⟨f, hf, hserved⟩ := Option.bind_eq_some_iff.mp h
    obtain ⟨rfl, hsent⟩ := FrontDoor.forwards_request hf
    have hg : s.front.Genuine cfg.auth cfg.bearer (.request f.1) := hg
    cases hpublic : f.1.request.route.isPublic with
    | true =>
      have hauth : f.1.request.route.service = .authService := by
        revert hpublic
        cases f.1.request.route <;> first | (intro _; rfl) | (intro hp; cases hp)
      rw [hauth, served_auth] at hserved
      cases hserved
    | false =>
      obtain ⟨_, found, hfound, hasks⟩ := served_asks hserved
      obtain ⟨u, hu, hfor, ⟨token, hbearer, hissued⟩, hroles⟩ :=
        hs.identified hverify hg hf hpublic
      have hemail := hs.email hverify hg hpublic hsent hu hfor
      exact ⟨f.1, ids, token, rfl, hbearer, u, hu, hissued,
        hasks.permitted hfor hemail hroles (reserve_unreached horigin hsent hfound)⟩
  | direct service req ids => exact absurd (served_asks h).1 hg
  | inside b =>
    have h : (if b.isRequest then none else some b) = some act := h
    cases hb : b.isRequest with
    | true =>
      rw [hb] at h
      cases h
    | false =>
      rw [hb] at h
      cases h
      rw [hb] at hact
      cases hact

end

/-! ## whose the orders are -/

/-- a user of the table, to whom a token has been issued -/
def FrontDoor.Customer (w : FrontDoor) (userId userEmail : String) : Prop :=
  ∃ i ∈ w.auth.db.identities, i.id = userId ∧ i.email = userEmail ∧ ∃ token, w.Issued i.id token

/-- a call keeps the identities, and a call that has returned stays as it is -/
theorem authPool_keeps (cfg : AuthConfig) (p : Pool AuthDb AuthTx) (a : AuthAction) :
    (∀ i ∈ p.db.identities, i ∈ (AuthPool.step cfg p a).db.identities) ∧
      ∀ call result, .returned call result ∈ p.txs →
        .returned call result ∈ (AuthPool.step cfg p a).txs := by
  rcases Pool.step_cases AuthTx.called (AuthTx.next cfg) AuthTx.held p a with
    ⟨c, _, heq⟩ | ⟨tx, choice, t, db', t', _, ht, hn, heq⟩ | heq
  · rw [AuthPool.step, heq]
    exact ⟨fun _ hi => hi, fun _ _ hmem => List.mem_append_left _ hmem⟩
  · rw [AuthPool.step, heq]
    refine ⟨identities_sub (auth_moves hn), fun call result hmem => ?_⟩
    obtain ⟨k, hk⟩ := List.getElem?_of_mem hmem
    refine List.mem_of_getElem? (i := k) ?_
    rw [List.getElem?_set_ne, hk]
    rintro rfl
    rw [ht] at hk
    cases hk
    cases auth_moves hn
  · rw [AuthPool.step, heq]
    exact ⟨fun _ hi => hi, fun _ _ hmem => hmem⟩

theorem FrontDoor.Customer.step {cfg : AuthConfig} {bearer : Headers → Option String}
    {w : FrontDoor} {userId userEmail : String} (h : w.Customer userId userEmail)
    (a : FrontAction) : (w.step cfg bearer a).Customer userId userEmail := by
  have hsame : ∀ w' : FrontDoor, w'.auth = w.auth → w'.Customer userId userEmail := by
    intro w' heq
    unfold Customer Issued
    rw [heq]
    exact h
  cases a with
  | auth a =>
    obtain ⟨i, hi, hid, hemail, token, call, result, hmem, hrest⟩ := h
    obtain ⟨hmore, hstays⟩ := authPool_keeps cfg w.auth a
    exact ⟨i, hmore i hi, hid, hemail, token, call, result, hstays call result hmem, hrest⟩
  | request r =>
    apply hsame
    simp only [FrontDoor.step]
    split
    · rfl
    · split <;> rfl
  | logout token => exact hsame _ rfl
  | evict key => exact hsame _ rfl

/-- the row of the order `x` is the one it was, as far as its owner goes -/
def SameOwner (t : List OrderRow) (x : OrderRow) : Prop :=
  ∃ o ∈ t, x.userId = o.userId ∧ x.userEmail = o.userEmail

theorem SameOwner.refl {t : List OrderRow} {x : OrderRow} (h : x ∈ t) : SameOwner t x :=
  ⟨x, h, rfl, rfl⟩

theorem Moved.sameOwner {db db' : OrderDb} {s s' : Saga} {o o' : OrderRow} {out : List OutboxRow}
    (m : Moved db db' s s' o o' out) {x : OrderRow} (hx : x ∈ db'.orders) :
    SameOwner db.orders x := by
  rcases m.mem_orders.mp hx with rfl | ⟨hx, _⟩
  · exact ⟨o, m.order_mem, m.order_same.2.1, m.order_same.2.2⟩
  · exact .refl hx

/-- an order keeps its owner, and a new one has that of its request -/
theorem order_owner {w : OrderSystem} (h : WF w.db) (a : OrderAction) {x : OrderRow}
    (hx : x ∈ (w.step a).db.orders) : SameOwner w.db.orders x ∨
      ∃ u ids input, a = .create u ids input ∧ x.userId = input.userId ∧
        x.userEmail = input.userEmail := by
  have hstep := order_step h a
  generalize (w.step a).db = db', gaveUp w a = gave at hstep hx
  cases hstep with
  | same a => exact Or.inl (.refl hx)
  | created u ids input hf =>
    rcases mem_created_orders.mp hx with hx | rfl
    · exact Or.inl (.refl hx)
    · exact Or.inr ⟨u, ids, input, rfl, rfl, rfl⟩
  | replied u q ev horder hf m => exact Or.inl (m.sameOwner hx)
  | retried k u q hrun ht m hgave => exact Or.inl (m.sameOwner hx)

theorem World.order_owner {w : World} (h : WF w.orders.db) (a : Action) {x : OrderRow}
    (hx : x ∈ (w.step a).orders.db.orders) : SameOwner w.orders.db.orders x ∨
      ∃ u ids input, a = .order (.create u ids input) ∧ x.userId = input.userId ∧
        x.userEmail = input.userEmail := by
  have hs := world_step w a
  generalize w.step a = w' at hs hx
  cases hs with
  | same _ => exact Or.inl (.refl hx)
  | acts b hb _ =>
    refine (Shop.order_owner h b hx).imp id ?_
    rintro ⟨u, ids, input, rfl, howner⟩
    exact ⟨u, ids, input, hb, howner⟩
  | publishes _ _ => exact Or.inl (.refl hx)
  | @marks service row f r _ _ _ _ =>
    refine Or.inl (.refl ?_)
    cases service <;> exact hx
  | delivers _ _ _ _ hw _ =>
    refine Or.inl ?_
    cases hw with
    | reply _ ev _ =>
      refine (Shop.order_owner h _ hx).resolve_right ?_
      rintro ⟨u, ids, input, heq, _⟩
      cases heq
    | _ => exact .refl hx
  | catalogue _ _ => exact Or.inl (.refl hx)
  | wallets t _ => exact Or.inl (.refl hx)

namespace Storefront
variable {cfg : ShopConfig} {users₀ : List UserRow} {s : Storefront}

/-- what every step keeps -/
structure Kept (cfg : ShopConfig) (users₀ : List UserRow) (s : Storefront) : Prop where
  front : s.front.Sound cfg.auth users₀
  world : ∃ xs, Joint s.world xs
  owned : ∀ o ∈ s.world.orders.db.orders, s.front.Customer o.userId o.userEmail

theorem Kept.init (hids : (users₀.map UserRow.id).Nodup) (now : Nat) :
    (init users₀ now).Kept cfg users₀ where
  front := .init hids
  world := ⟨[], Joint.init now⟩
  owned := fun _ h => absurd h List.not_mem_nil

theorem Entitled.customer {a : StorefrontAction} {u : Uuid} {ids : NewIds}
    {input : CreateOrderInput} (h : s.Entitled cfg users₀ a (.order (.create u ids input))) :
    s.front.Customer input.userId input.userEmail := by
  obtain ⟨r, _, token, _, _, row, hrow, hissued, hid, hemail⟩ := h
  exact ⟨row.identity, mem_identities hrow, hid.symm, hemail.symm, token, hissued⟩

theorem Kept.step {authority : String} (hverify : cfg.auth.Verifies)
    (horigin : IsOrigin (cfg.gateway.serviceUrls .productService) authority)
    (h : s.Kept cfg users₀) (a : StorefrontAction) (hg : s.Genuine cfg a) :
    (s.step cfg a).Kept cfg users₀ := by
  have hstays : ∀ {userId userEmail : String}, s.front.Customer userId userEmail →
      (s.step cfg a).front.Customer userId userEmail := by
    intro userId userEmail hcustomer
    cases a with
    | front b ids => exact hcustomer.step b
    | direct service req ids => exact hcustomer
    | inside b => exact hcustomer
  have hfront : (s.step cfg a).front.Sound cfg.auth users₀ := by
    cases a with
    | front b ids => exact h.front.step hverify b hg
    | direct service req ids => exact h.front
    | inside b => exact h.front
  obtain ⟨xs, hj⟩ := h.world
  cases hact : s.performs cfg a with
  | none =>
    have hworld : (s.step cfg a).world = s.world := by
      show (s.performs cfg a).elim s.world s.world.step = s.world
      rw [hact, Option.elim_none]
    exact ⟨hfront, hworld ▸ ⟨xs, hj⟩, fun o ho => hstays (h.owned o (hworld ▸ ho))⟩
  | some act =>
    have hworld : (s.step cfg a).world = s.world.step act := by
      show (s.performs cfg a).elim s.world s.world.step = s.world.step act
      rw [hact, Option.elim_some]
    refine ⟨hfront, ⟨_, hworld ▸ joint_step s.world xs act hj⟩, fun o ho => ?_⟩
    rw [hworld] at ho
    rcases World.order_owner hj.order.wf act ho with ⟨o₀, ho₀, hid, hemail⟩ | hnew
    · rw [hid, hemail]
      exact hstays (h.owned o₀ ho₀)
    · obtain ⟨u, ids, input, rfl, hid, hemail⟩ := hnew
      rw [hid, hemail]
      exact hstays (entitled hverify horigin h.front hg hact rfl).customer

end Storefront

/-- **Whatever clients ask for is done for somebody who may ask for it.**  Whatever auth-service is
doing, whatever the gateway's cache holds, whatever paths, headers and bodies the requests have, and
whatever the jobs of the shop are doing in between: an order is placed, a product changed or a wallet
topped up only at a request with a token that auth-service has issued for a row of `users`; an order
only under the id and the email of this row, and the rest only if the row was an administrator's from
the start.  Nobody reserves stock by a request. -/
theorem requests_entitled (cfg : ShopConfig) (hverify : cfg.auth.Verifies) (authority : String)
    (horigin : IsOrigin (cfg.gateway.serviceUrls .productService) authority)
    (users₀ : List UserRow) (hids : (users₀.map UserRow.id).Nodup) (now : Nat)
    (as : List StorefrontAction)
    (hgenuine : Along (Storefront.step cfg) (fun s a => s.Genuine cfg a)
      (Storefront.init users₀ now) as) :
    Along (Storefront.step cfg) (fun s a => ∀ act, s.performs cfg a = some act →
      act.isRequest = true → s.Entitled cfg users₀ a act) (Storefront.init users₀ now) as :=
  along_of_invariant _ (I := Storefront.Kept cfg users₀)
    (fun _ a h hg => h.step hverify horigin a hg)
    (fun _ _ h hg _ hact hrequest => Storefront.entitled hverify horigin h.front hg hact hrequest)
    _ as (.init hids now) hgenuine

/-! ## an order of a user who has just registered -/

/-- a body is not looked at: it orders two pens -/
def ShopConfig.sample : ShopConfig where
  auth := .sampleSigned
  gateway := ⟨fun _ => "http://service", "secret"⟩
  bearer := sampleBearer
  bodies := ⟨fun _ => some [⟨(Uuid.sample '7').val, 2⟩], fun _ => none, fun _ => none,
    fun _ => none, fun _ => none⟩

/-- Eve orders, and says that she is somebody else -/
def ordersPens : Arrival where
  request := ⟨.createOrder, [("authorization", "Bearer eve"), ("x-user-id", "ann")], some "pens"⟩
  now := 1000
  readFails := false
  writeFails := false
  uuid := "c1"

def pensIds : RequestIds := ⟨.sample 'a', ⟨.sample '1', [.sample '2'], .sample '3'⟩, .sample '4'⟩

def eveOrders : List StorefrontAction :=
  AuthAction.signUp.map (fun a => .front (.auth a) pensIds) ++ [.front (.request ordersPens) pensIds]

theorem eveOrders_genuine : Along (Storefront.step .sample) (fun s a => s.Genuine .sample a)
    (Storefront.init [] 0) eveOrders := by
  refine (along_append _ _ _ _).mpr ⟨⟨trivial, trivial, trivial, trivial⟩, ?_, trivial⟩
  intro token hbearer _
  have htoken : token = "eve" := Option.some.inj (hbearer.symm.trans (by decide))
  let user := newUser .sampleSigned ⟨"eve@example.com", "pass1234"⟩ (.sample '9') ""
  refine ⟨user.id, .register ⟨"eve@example.com", "pass1234"⟩,
    issueTokens .sampleSigned user (.sample '1') 0, ?_, rfl, ?_⟩
  · exact List.mem_singleton.mpr rfl
  · rw [htoken]
    decide

theorem sample_origin (service : ServiceName) :
    IsOrigin (ShopConfig.sample.gateway.serviceUrls service) "service" :=
  ⟨Or.inl rfl, by decide +kernel⟩

theorem requests_entitled_order :
    let s := run (Storefront.step .sample) (Storefront.init [] 0)
      (AuthAction.signUp.map fun a => .front (.auth a) pensIds)
    let a : StorefrontAction := .front (.request ordersPens) pensIds
    ∃ act, s.performs .sample a = some act ∧ act.isRequest = true ∧
      s.Entitled .sample [] a act := by
  intro s a
  have h := requests_entitled .sample sampleSigned_verifies "service"
    (sample_origin .productService) [] List.nodup_nil 0 eveOrders eveOrders_genuine
  have hlast := ((along_append _ _ _ _).mp h).2.1
  let sent : DownstreamRequest := ⟨"http://service/orders", "POST",
    [("content-type", "application/json"), ("x-internal-secret", "secret"),
      ("x-correlation-id", "c1"), ("x-user-id", (Uuid.sample '9').val),
      ("x-user-email", "eve@example.com"), ("x-roles", "user")], some "pens"⟩
  have hsent : s.front.forwards .sampleSigned ShopConfig.sample.gateway sampleBearer
      (.request ordersPens) = some (ordersPens, sent) := by
    rfl
  have harrives : sent.arrives .orderService = some ("service", .ordersCreate, "") := by
    decide +kernel
  have hperforms : s.performs .sample a = some (.order (.create (.sample 'a')
      ⟨.sample '1', [.sample '2'], .sample '3'⟩
      ⟨(Uuid.sample '9').val, "eve@example.com", "c1", [⟨(Uuid.sample '7').val, 2⟩]⟩)) := by
    have hserved : served "secret" ShopConfig.sample.bodies pensIds .orderService sent = _ :=
      congrArg (Option.bind · _) harrives
    simp only [a, Storefront.performs]
    rw [show s.front.forwards ShopConfig.sample.auth ShopConfig.sample.gateway
      ShopConfig.sample.bearer (.request ordersPens) = _ from hsent, Option.bind_some]
    exact hserved
  exact ⟨_, hperforms, rfl, hlast _ hperforms rfl⟩

/-- **Orders and payments belong to users of the table.**  In every state that such a run reaches,
each order has the id and the email of a row of `users` to which a token has been issued, and each
payment is one for an order, charged to the user who placed it, of the order's total. -/
theorem orders_owned (cfg : ShopConfig) (hverify : cfg.auth.Verifies) (authority : String)
    (horigin : IsOrigin (cfg.gateway.serviceUrls .productService) authority)
    (users₀ : List UserRow) (hids : (users₀.map UserRow.id).Nodup) (now : Nat)
    (as : List StorefrontAction)
    (hgenuine : Along (Storefront.step cfg) (fun s a => s.Genuine cfg a)
      (Storefront.init users₀ now) as) :
    let s := run (Storefront.step cfg) (Storefront.init users₀ now) as
    (∀ o ∈ s.world.orders.db.orders, ∃ u ∈ s.front.auth.db.users, o.userId = u.id ∧
      o.userEmail = u.email ∧ ∃ token, s.front.Issued u.id token) ∧
    ∀ p ∈ s.world.payments.payments, ∃ o ∈ s.world.orders.db.orders, o.id = p.orderId ∧
      o.userId = p.userId ∧ o.total = p.amount := by
  intro s
  have h : s.Kept cfg users₀ := invariant_along _ (I := Storefront.Kept cfg users₀)
    (fun _ a h hg => h.step hverify horigin a hg) _ as (.init hids now) hgenuine
  refine ⟨fun o ho => ?_, fun p hp => ?_⟩
  · obtain ⟨i, hi, hid, hemail, htoken⟩ := h.owned o ho
    obtain ⟨u, hu, rfl⟩ := List.mem_map.mp hi
    exact ⟨u, hu, hid.symm, hemail.symm, htoken⟩
  · obtain ⟨xs, hj⟩ := h.world
    obtain ⟨c, hc, horder, huser, hamount, _⟩ := hj.payment.payment p hp
    obtain ⟨sg, _, o, ho, hos, _, hco, hcu, hca, _⟩ := hj.order.ofPay hc
    refine ⟨o, ho, ?_, ?_, ?_⟩
    · rw [hos, ← hco, horder]
    · rw [← hcu, huser]
    · rw [← hca, hamount]

theorem orders_owned_eve :
    let s := run (Storefront.step .sample) (Storefront.init [] 0) eveOrders
    s.world.orders.db.orders.map (fun o => (o.userId, o.userEmail)) =
      [((Uuid.sample '9').val, "eve@example.com")] ∧
    ∀ o ∈ s.world.orders.db.orders, ∃ u ∈ s.front.auth.db.users, o.userId = u.id ∧
      o.userEmail = u.email ∧ ∃ token, s.front.Issued u.id token :=
  ⟨by decide +kernel, (orders_owned .sample sampleSigned_verifies "service"
    (sample_origin .productService) [] List.nodup_nil 0 eveOrders eveOrders_genuine).1⟩

end Shop
