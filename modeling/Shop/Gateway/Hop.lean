import Shop.Gateway.Proxy
import Shop.Lib.Url

/-!
# Path parameters on the way through the gateway

The gateway's router takes a parameter off the path of a request and decodes it; the handler writes
it, as it is, into the path that `ProxyService` appends to the URL of the service; `fetch` parses
that URL, and the router of the service reads the request target.  Neither router's limit on the
length of a parameter is modelled.

* `ParamRoute`              the handlers with a path parameter;
* `serviceRoutes`           the tables of the services' routers;
* `arrives`                 the handler of the service that is reached, with its parameter;
* `route_param_survives_iff`  for which parameters that is the handler that was meant.
-/

set_option linter.unusedSectionVars false

namespace Shop

open Lib

/-! ## the routers -/

/-- the handlers of the services' controllers, with the parameters of their paths -/
inductive ServiceRoute where
  | healthCheck
  | authRegister | authLogin | authRefresh | authLogout | authHealth
  | usersHealth | usersFindAll | usersGetUser (id : String) | usersUpdateUser (id : String)
  | usersDeleteUser (id : String)
  | productsFindAll | productsFindById (id : String) | productsCreate
  | productsUpdate (id : String) | productsRemove (id : String) | productsReserveStock
  | ordersCreate | ordersFindAll | ordersFindById (id : String)
  | walletsGetWallet (userId : String) | walletsTopUp (userId : String)
deriving DecidableEq, Repr

def ServiceRoute.param : ServiceRoute → Option String
  | .usersGetUser id => some id
  | .usersUpdateUser id => some id
  | .usersDeleteUser id => some id
  | .productsFindById id => some id
  | .productsUpdate id => some id
  | .productsRemove id => some id
  | .ordersFindById id => some id
  | .walletsGetWallet userId => some userId
  | .walletsTopUp userId => some userId
  | _ => none

open ServiceRoute in
/-- a text is looked for before a parameter; every service has a `HealthController` as well -/
def serviceRoutes : ServiceName → List (Route ServiceRoute)
  | .authService => [⟨"GET", [.text "health"], fun _ => healthCheck⟩,
      ⟨"POST", [.text "auth", .text "register"], fun _ => authRegister⟩,
      ⟨"POST", [.text "auth", .text "login"], fun _ => authLogin⟩,
      ⟨"POST", [.text "auth", .text "refresh"], fun _ => authRefresh⟩,
      ⟨"POST", [.text "auth", .text "logout"], fun _ => authLogout⟩,
      ⟨"GET", [.text "auth", .text "health"], fun _ => authHealth⟩]
  | .userService => [⟨"GET", [.text "health"], fun _ => healthCheck⟩,
      ⟨"GET", [.text "users", .text "health"], fun _ => usersHealth⟩,
      ⟨"GET", [.text "users"], fun _ => usersFindAll⟩,
      ⟨"GET", [.text "users", .param], usersGetUser⟩,
      ⟨"PATCH", [.text "users", .param], usersUpdateUser⟩,
      ⟨"DELETE", [.text "users", .param], usersDeleteUser⟩]
  | .productService => [⟨"GET", [.text "health"], fun _ => healthCheck⟩,
      ⟨"GET", [.text "products"], fun _ => productsFindAll⟩,
      ⟨"GET", [.text "products", .param], productsFindById⟩,
      ⟨"POST", [.text "products"], fun _ => productsCreate⟩,
      ⟨"PATCH", [.text "products", .param], productsUpdate⟩,
      ⟨"DELETE", [.text "products", .param], productsRemove⟩,
      ⟨"POST", [.text "products", .text "reserve"], fun _ => productsReserveStock⟩]
  | .orderService => [⟨"GET", [.text "health"], fun _ => healthCheck⟩,
      ⟨"POST", [.text "orders"], fun _ => ordersCreate⟩,
      ⟨"GET", [.text "orders"], fun _ => ordersFindAll⟩,
      ⟨"GET", [.text "orders", .param], ordersFindById⟩]
  | .paymentService => [⟨"GET", [.text "health"], fun _ => healthCheck⟩,
      ⟨"GET", [.text "wallets", .param], walletsGetWallet⟩,
      ⟨"POST", [.text "wallets", .param, .text "top-up"], walletsTopUp⟩]

/-- the handlers of the proxy controllers with a parameter in their path -/
inductive ParamRoute where
  | getUser | updateUser | deleteUser
  | findProductById | updateProduct | removeProduct
  | findOrderById
  | getWallet | topUp
deriving DecidableEq, Repr

namespace ParamRoute

def gateway : ParamRoute → String → GatewayRoute
  | .getUser => .getUser
  | .updateUser => .updateUser
  | .deleteUser => .deleteUser
  | .findProductById => .findProductById
  | .updateProduct => .updateProduct
  | .removeProduct => .removeProduct
  | .findOrderById => .findOrderById
  | .getWallet => .getWallet
  | .topUp => .topUp

/-- the handler of the service that the gateway means to call -/
def service : ParamRoute → String → ServiceRoute
  | .getUser => .usersGetUser
  | .updateUser => .usersUpdateUser
  | .deleteUser => .usersDeleteUser
  | .findProductById => .productsFindById
  | .updateProduct => .productsUpdate
  | .removeProduct => .productsRemove
  | .findOrderById => .ordersFindById
  | .getWallet => .walletsGetWallet
  | .topUp => .walletsTopUp

def method : ParamRoute → String
  | .updateUser => "PATCH"
  | .updateProduct => "PATCH"
  | .deleteUser => "DELETE"
  | .removeProduct => "DELETE"
  | .topUp => "POST"
  | _ => "GET"

/-- the path of the proxy controller's handler -/
def path : ParamRoute → List Segment
  | .getUser => [.text "users", .param]
  | .updateUser => [.text "users", .param]
  | .deleteUser => [.text "users", .param]
  | .findProductById => [.text "products", .param]
  | .updateProduct => [.text "products", .param]
  | .removeProduct => [.text "products", .param]
  | .findOrderById => [.text "orders", .param]
  | .getWallet => [.text "payments", .text "wallet", .param]
  | .topUp => [.text "payments", .text "wallet", .param, .text "top-up"]

def all : List ParamRoute := [.getUser, .updateUser, .deleteUser, .findProductById, .updateProduct,
  .removeProduct, .findOrderById, .getWallet, .topUp]

end ParamRoute

/-- the gateway's own table, with nothing for `getMe` and `getMyWallet` -/
def gatewayRoutes : List (Route (Option (ParamRoute × String))) :=
  [⟨"GET", [.text "users", .text "me"], fun _ => none⟩,
    ⟨"GET", [.text "payments", .text "wallet", .text "me"], fun _ => none⟩] ++
  ParamRoute.all.map fun r => ⟨r.method, r.path, fun id => some (r, id)⟩

/-- the handler with a parameter that the gateway calls, and what it is given -/
def Gateway.delivers (method target : String) : Option (ParamRoute × String) :=
  (Route.find gatewayRoutes method target.toList).join

/-- what the request comes to at the service: the authority it is sent to, the handler and the
query string -/
def DownstreamRequest.arrives (service : ServiceName) (req : DownstreamRequest) :
    Option (String × ServiceRoute × String) :=
  (URL.parse req.url.toList).bind fun url =>
    (Route.find (serviceRoutes service) req.method url.target).map fun route =>
      (String.ofList url.authority, route, String.ofList (querystring url.target))

/-- `url` is `http://` or `https://` and the authority -/
def IsOrigin (url authority : String) : Prop :=
  (url = "http://" ++ authority ∨ url = "https://" ++ authority) ∧ IsAuthority authority.toList

instance (url authority : String) : Decidable (IsOrigin url authority) :=
  inferInstanceAs (Decidable (_ ∧ _))

/-- the request that `ProxyService` sends for the handler -/
def ParamRoute.sent (cfg : GatewayConfig) (user : Option RequestUser)
    (correlationId body : Option String) (r : ParamRoute) (id : String) :
    ServiceName × DownstreamRequest :=
  let call := (r.gateway id).options user correlationId body
  (call.1, ProxyService.proxy cfg call.1 call.2)

/-- the handler that was meant is called with the parameter, and with no query -/
def ParamRoute.Survives (cfg : GatewayConfig) (authority : ServiceName → String)
    (user : Option RequestUser) (correlationId body : Option String) (r : ParamRoute)
    (id : String) : Prop :=
  let sent := r.sent cfg user correlationId body id
  sent.2.arrives sent.1 = some (authority sent.1, r.service id, "")

/-! ## the parameters that survive -/

/-- parameters that the parser of URLs leaves as they are where the handler has put them -/
def PlainText (r : ParamRoute) (id : String) : Prop :=
  (∀ c ∈ id.toList, c ∉ ['/', '\\', '?', '#', '%', '\t', '\n', '\r']) ∧ id ≠ "." ∧ id ≠ ".." ∧
    (r ≠ .topUp → ∀ c ∈ id.toList.getLast?, 0x20 < c.toNat)

/-- user-service has a route of its own for `GET /users/health` -/
def PlainParam (r : ParamRoute) (id : String) : Prop :=
  PlainText r id ∧ (r = .getUser → id ≠ "health")

namespace ParamRoute

/-- the controller's path at the service -/
def base : ParamRoute → String
  | .getUser => "users"
  | .updateUser => "users"
  | .deleteUser => "users"
  | .findProductById => "products"
  | .updateProduct => "products"
  | .removeProduct => "products"
  | .findOrderById => "orders"
  | .getWallet => "wallets"
  | .topUp => "wallets"

/-- what the handler writes after the parameter -/
def suffix : ParamRoute → String
  | .topUp => "/top-up"
  | _ => ""

/-- the segments that the service's router has to see -/
def segments (r : ParamRoute) (id : String) : List (List Char) :=
  match r with
  | .topUp => [r.base.toList, id.toList, "top-up".toList]
  | _ => [r.base.toList, id.toList]

end ParamRoute

section hop
variable (cfg : GatewayConfig) (user : Option RequestUser) (correlationId body : Option String)

theorem sent_url (r : ParamRoute) (id : String) :
    (r.sent cfg user correlationId body id).2.url.toList =
      (cfg.serviceUrls (r.sent cfg user correlationId body id).1).toList ++
        '/' :: (r.base.toList ++ '/' :: (id.toList ++ r.suffix.toList)) := by
  cases r <;> simp [ParamRoute.sent, ParamRoute.gateway, GatewayRoute.options, ProxyService.proxy,
    ParamRoute.base, ParamRoute.suffix]

theorem sent_method (r : ParamRoute) (id : String) :
    (r.sent cfg user correlationId body id).2.method = r.method := by
  cases r <;> rfl

theorem arrives_eq (service : ServiceName) (req : DownstreamRequest) :
    req.arrives service = (hop req.url.toList).bind fun h =>
      (Route.first (serviceRoutes service) req.method h.2.1).map fun route =>
        (String.ofList h.1, route, String.ofList h.2.2) := by
  unfold DownstreamRequest.arrives hop Route.find
  cases URL.parse req.url.toList with
  | none => rfl
  | some url =>
    simp only [Option.bind_some]
    cases requestSegments url.target with
    | none => rfl
    | some segs => rfl

/-- the service's router calls the handler that was meant, unless it has a text in the place of the
parameter -/
theorem first_segments (r : ParamRoute) (id : String) :
    Route.first (serviceRoutes (r.sent cfg user correlationId body id).1) r.method
      (r.segments id) =
    some (if r = .getUser ∧ id = "health" then .usersHealth else r.service id) := by
  by_cases hid : id = "health"
  · subst hid
    cases r <;> rfl
  · have hlit : "health".toList = ['h', 'e', 'a', 'l', 't', 'h'] := by decide
    have hne : ¬['h', 'e', 'a', 'l', 't', 'h'] = id.toList :=
      fun h => hid (String.toList_inj.mp (hlit.trans h)).symm
    cases r <;>
      simp [ParamRoute.sent, ParamRoute.gateway, GatewayRoute.options, serviceRoutes, Route.first,
        ParamRoute.segments, ParamRoute.base, ParamRoute.method, ParamRoute.service, matchSegments,
        hid, hne, String.ofList_toList]

/-- a handler is given the parameter of its path, if there is one -/
theorem handler_param (service : ServiceName) : ∀ route ∈ serviceRoutes service,
    (∀ value, (route.handler value).param = none) ∨
      .param ∈ route.path ∧ ∀ value, (route.handler value).param = some value := by
  cases service <;> simp [serviceRoutes, ServiceRoute.param]

theorem mem_of_first {service : ServiceName} {method : String} {r : ParamRoute} {id : String}
    {segs : List (List Char)}
    (h : Route.first (serviceRoutes service) method segs = some (r.service id)) :
    id.toList ∈ segs := by
  obtain ⟨route, hroute, value, hmatch, hhandler⟩ := first_some h
  have hparam : (route.handler (String.ofList value)).param = some id := by
    rw [hhandler]
    cases r <;> rfl
  rcases handler_param service route hroute with hnone | ⟨hpath, hvalue⟩
  · rw [hnone] at hparam
    cases hparam
  · rw [hvalue] at hparam
    rw [← Option.some.inj hparam, String.toList_ofList]
    exact (matchSegments_mem hmatch).resolve_right fun hnone => hnone.2 hpath

theorem suffix_topUp : ParamRoute.topUp.suffix.toList = '/' :: "top-up".toList := by decide

/-- the letters and hyphens of the handlers' own texts -/
def isWord (s : List Char) : Bool := s.all fun c => c.isAlpha || decide (c = '-')

theorem isWord_sublist {s t : List Char} (h : isWord t = true) (hsub : s.Sublist t) :
    isWord s = true :=
  List.all_eq_true.mpr fun c hc => List.all_eq_true.mp h c (hsub.subset hc)

theorem word_char {s : List Char} (h : isWord s = true) {c : Char} (hc : c ∈ s) :
    c ∉ ['/', '\\', '?', '#', '%', '\t', '\n', '\r', '.'] ∧ 0x20 < c.toNat := by
  have hc' := List.all_eq_true.mp h c hc
  have hother : (['/', '\\', '?', '#', '%', '\t', '\n', '\r', '.'].all fun d =>
      !(d.isAlpha || decide (d = '-'))) = true := by decide
  refine ⟨fun hmem => ?_, ?_⟩
  · have := List.all_eq_true.mp hother c hmem
    rw [hc'] at this
    cases this
  · have hlow : ∀ n < 0x21, ((Char.ofNat n).isAlpha || decide (Char.ofNat n = '-')) = false := by
      decide
    refine Nat.lt_of_not_le fun hle => ?_
    have := hlow c.toNat (Nat.lt_succ_of_le hle)
    rw [Char.ofNat_toNat, hc'] at this
    cases this

/-- a part of the texts that the handlers write themselves, or of the parameter -/
theorem mem_pieces_cases {r : ParamRoute} {id : String} {s : List Char}
    (h : s ∈ pieces (r.base.toList ++ '/' :: (id.toList ++ r.suffix.toList))) :
    isWord s = true ∨ s.Sublist id.toList ∧ (r ≠ .topUp → s ∈ pieces id.toList) := by
  rcases mem_pieces_slash h with hbase | hrest
  · exact Or.inl (isWord_sublist (by cases r <;> decide) hbase)
  · by_cases htop : r = .topUp
    · subst htop
      rw [suffix_topUp] at hrest
      rcases mem_pieces_slash hrest with hid | hlast
      · exact Or.inr ⟨hid, fun hne => absurd rfl hne⟩
      · have hsub := (mem_splitOnP hlast).1.trans
          ((pathText_sublist _).trans (cleanEnd_sublist _))
        exact Or.inl (isWord_sublist (by decide) hsub)
    · have hnil : r.suffix.toList = [] := by
        cases r <;> first | rfl | exact absurd rfl htop
      rw [hnil, List.append_nil] at hrest
      exact Or.inr ⟨(mem_splitOnP hrest).1.trans
        ((pathText_sublist _).trans (cleanEnd_sublist _)), fun _ => hrest⟩

/-- the handlers' own texts are plain -/
theorem plainText_word (r : ParamRoute) {id : String} (h : isWord id.toList = true) :
    PlainText r id := by
  refine ⟨fun c hc => ?_, ?_, ?_, fun _ c hc => (word_char h (List.mem_of_getLast? hc)).2⟩
  · have := (word_char h hc).1
    simp only [List.mem_cons, not_or] at this ⊢
    tauto
  · rintro rfl
    exact absurd h (by decide)
  · rintro rfl
    exact absurd h (by decide)

theorem plainChar_of_not_mem {c : Char} :
    plainChar c = true ∧ c ≠ '%' ↔ c ∉ ['/', '\\', '?', '#', '%', '\t', '\n', '\r'] := by
  simp [plainChar_iff, isSlash, isTabOrNewline]
  tauto

theorem plainText_chars {r : ParamRoute} {id : String} (h : PlainText r id) :
    (∀ c ∈ id.toList, plainChar c = true) ∧ '%' ∉ id.toList :=
  ⟨fun c hc => (plainChar_of_not_mem.mpr (h.1 c hc)).1, fun hc => h.1 '%' hc (by decide)⟩

theorem plainText_dot {r : ParamRoute} {id : String} (h : PlainText r id) :
    isDot id.toList = false := by
  refine Bool.eq_false_iff.mpr fun hdot => ?_
  rcases (isDot_iff (plainText_chars h).2).mp hdot with heq | heq
  · exact h.2.1 (String.toList_inj.mp (heq.trans (by decide)))
  · exact h.2.2.1 (String.toList_inj.mp (heq.trans (by decide)))

theorem pieces_word {s : List Char} (h : isWord s = true) : pieces s = [s] := by
  have hplain : ∀ c ∈ s, plainChar c = true ∧ c ≠ '%' := fun c hc => plainChar_of_not_mem.mpr
    fun hmem => (word_char h hc).1 (List.mem_append_left ['.'] hmem)
  refine pieces_last (fun c hc => (hplain c hc).1) fun hne => ?_
  have := (word_char h (List.getLast_mem hne)).2
  simp [isC0OrSpace]
  omega

/-- the parameter is a segment of its own in what the handler writes -/
theorem pieces_of_plain {r : ParamRoute} {id : String} (h : PlainText r id) :
    pieces (r.base.toList ++ '/' :: (id.toList ++ r.suffix.toList)) = r.segments id := by
  have hchars := (plainText_chars h).1
  have hbase : r.base.toList.all plainChar = true := by cases r <;> decide
  rw [pieces_slash (List.all_eq_true.mp hbase)]
  by_cases htop : r = .topUp
  · subst htop
    have hlast := pieces_word (s := "top-up".toList) (by decide)
    rw [suffix_topUp, pieces_slash hchars, hlast]
    rfl
  · have hend : pieces id.toList = [id.toList] := by
      refine pieces_last hchars fun hne => ?_
      have hlt := h.2.2.2 htop _ (List.getLast?_eq_some_getLast hne)
      simp [isC0OrSpace]
      omega
    cases r <;> first
      | exact absurd rfl htop
      | simp only [ParamRoute.suffix, String.toList_empty, List.append_nil, hend]; rfl

theorem mem_segments {r : ParamRoute} {id : String} (h : PlainText r id) :
    ∀ s ∈ r.segments id, ∃ text : String, s = text.toList ∧ PlainText r text := by
  have hbase : PlainText r r.base := plainText_word r (by cases r <;> decide)
  have htop : PlainText r "top-up" := plainText_word r (by decide)
  intro s hs
  have hmem : s = r.base.toList ∨ s = id.toList ∨ s = "top-up".toList := by
    cases r <;> simp only [ParamRoute.segments, List.mem_cons, List.not_mem_nil, or_false] at hs <;>
      tauto
  rcases hmem with rfl | rfl | rfl
  · exact ⟨_, rfl, hbase⟩
  · exact ⟨_, rfl, h⟩
  · exact ⟨_, rfl, htop⟩

theorem origin_toList {url authority : String} (h : IsOrigin url authority) :
    ∃ scheme, (scheme = "http://".toList ∨ scheme = "https://".toList) ∧
      url.toList = scheme ++ authority.toList := by
  rcases h.1 with heq | heq
  · exact ⟨_, Or.inl rfl, by rw [heq, String.toList_append]⟩
  · exact ⟨_, Or.inr rfl, by rw [heq, String.toList_append]⟩

/-- a plain parameter is a segment of its own in the request that arrives -/
theorem hop_of_plain {authority : String} {r : ParamRoute} {id : String}
    (horigin : IsOrigin (cfg.serviceUrls (r.sent cfg user correlationId body id).1) authority)
    (h : PlainText r id) : hop (r.sent cfg user correlationId body id).2.url.toList =
      some (authority.toList, r.segments id, []) := by
  obtain ⟨scheme, hs, htext⟩ := origin_toList horigin
  have hquery : '?' ∉ r.base.toList ++ '/' :: (id.toList ++ r.suffix.toList) := by
    have hown : '?' ∉ r.base.toList ∧ '?' ∉ r.suffix.toList := by cases r <;> decide
    have hid : '?' ∉ id.toList := fun hmem => h.1 '?' hmem (by decide)
    simp [hown.1, hown.2, hid]
  have hpieces := pieces_of_plain h
  rw [sent_url, htext, hop_plain hs horigin.2 hquery, hpieces]
  · intro s hmem
    rw [hpieces] at hmem
    obtain ⟨text, rfl, hplain⟩ := mem_segments h s hmem
    exact plainText_dot hplain
  · intro s hmem
    rw [hpieces] at hmem
    obtain ⟨text, rfl, hplain⟩ := mem_segments h s hmem
    exact (plainText_chars hplain).2

/-- what arrives at the handler that was meant, with the parameter, was plain -/
theorem plain_of_survives {authority : ServiceName → String}
    (horigin : ∀ service, IsOrigin (cfg.serviceUrls service) (authority service))
    {r : ParamRoute} {id : String} (h : r.Survives cfg authority user correlationId body id) :
    PlainText r id := by
  unfold ParamRoute.Survives at h
  dsimp only at h
  rw [arrives_eq, sent_method, sent_url] at h
  obtain ⟨⟨host, segs, query⟩, hhop, hmap⟩ := Option.bind_eq_some_iff.mp h
  obtain ⟨route, hfirst, heq⟩ := Option.map_eq_some_iff.mp hmap
  have hroute : route = r.service id := congrArg (fun x => x.2.1) heq
  rw [hroute] at hfirst
  have hmem := mem_of_first hfirst
  obtain ⟨scheme, hs, htext⟩ := origin_toList (horigin (r.sent cfg user correlationId body id).1)
  rw [htext] at hhop
  rcases mem_hop hs (horigin _).2 hhop hmem with hnil | ⟨s, hpiece, hdot, hcase⟩
  · have hempty : isWord id.toList = true := by
      rw [hnil]
      rfl
    exact plainText_word r hempty
  · rcases mem_pieces_cases hpiece with hword | ⟨hsub, hlast⟩
    · have hpercent : '%' ∉ s := fun hc => (word_char hword hc).1 (by decide)
      obtain ⟨hid, _⟩ := hcase.resolve_right fun hlt => hpercent hlt.1
      rw [← hid] at hword
      exact plainText_word r hword
    · have hle := utf8_length_mono hsub
      obtain ⟨hid, hpercent⟩ := hcase.resolve_right fun hlt => by omega
      subst hid
      have hplain := plain_of_mem_pieces hpiece
      refine ⟨fun c hc => plainChar_of_not_mem.mp ⟨hplain c hc, ?_⟩, ?_, ?_, fun htop c hc => ?_⟩
      · rintro rfl
        exact hpercent hc
      · rintro rfl
        exact absurd hdot (by decide)
      · rintro rfl
        exact absurd hdot (by decide)
      · -- the end of the path is the end of the URL, which is stripped
        have hwhole : pathText (cleanEnd id.toList) = id.toList :=
          ((pathText_sublist _).trans (cleanEnd_sublist _)).antisymm (mem_splitOnP (hlast htop)).1
        have hne : id.toList ≠ [] := by
          intro hnil
          rw [hnil] at hc
          cases hc
        have hend := getLast_of_cleanEnd hwhole hne
        rw [Option.mem_def, List.getLast?_eq_some_getLast hne] at hc
        rw [← Option.some.inj hc]
        simpa [isC0OrSpace] using hend

end hop

/-- the authorities of the services in `docker-compose.yml` -/
def composeAuthority : ServiceName → String
  | .authService => "auth-service:3001"
  | .userService => "user-service:3002"
  | .productService => "product-service:3003"
  | .orderService => "order-service:3004"
  | .paymentService => "payment-service:3007"

def composeConfig : GatewayConfig := ⟨fun service => "http://" ++ composeAuthority service, "secret"⟩

/-- **A parameter survives the hop exactly if it is plain**: no separator, percent sign, tab or line
end, no dot segment, no control character or space at the end of the URL, and not the name of a
route of its own. -/
theorem route_param_survives_iff (cfg : GatewayConfig) (authority : ServiceName → String)
    (horigin : ∀ service, IsOrigin (cfg.serviceUrls service) (authority service))
    (user : Option RequestUser) (correlationId body : Option String) (r : ParamRoute)
    (id : String) :
    r.Survives cfg authority user correlationId body id ↔ PlainParam r id := by
  have harrives : PlainText r id → (r.Survives cfg authority user correlationId body id ↔
      (if r = .getUser ∧ id = "health" then .usersHealth else r.service id) = r.service id) := by
    intro hplain
    unfold ParamRoute.Survives
    dsimp only
    rw [arrives_eq, hop_of_plain cfg user correlationId body (horigin _) hplain, Option.bind_some,
      sent_method, first_segments, Option.map_some, Option.some.injEq]
    simp [String.ofList_toList]
  constructor
  · intro h
    have hplain := plain_of_survives cfg user correlationId body horigin h
    refine ⟨hplain, ?_⟩
    rintro rfl rfl
    exact absurd ((harrives hplain).mp h) (by decide)
  · rintro ⟨hplain, hhealth⟩
    refine (harrives hplain).mpr (if_neg ?_)
    rintro ⟨hr, hid⟩
    exact hhealth hr hid

theorem route_param_survives_uuid : PlainParam .getUser "8f14e45f-ceea-467f-a1c2-9d3b1c0a7e55" ∧
    ParamRoute.Survives composeConfig composeAuthority none none none .getUser
      "8f14e45f-ceea-467f-a1c2-9d3b1c0a7e55" := by
  have hplain : PlainParam .getUser "8f14e45f-ceea-467f-a1c2-9d3b1c0a7e55" := by
    have hlast : "8f14e45f-ceea-467f-a1c2-9d3b1c0a7e55".toList.getLast? = some '5' := by
      decide +kernel
    have hchars : ("8f14e45f-ceea-467f-a1c2-9d3b1c0a7e55".toList.all fun c => decide
        (c ∉ ['/', '\\', '?', '#', '%', '\t', '\n', '\r'])) = true := by decide +kernel
    refine ⟨⟨fun c hc => of_decide_eq_true (List.all_eq_true.mp hchars c hc), by decide +kernel,
      by decide +kernel, fun _ c hc => ?_⟩, by decide +kernel⟩
    rw [Option.mem_def, hlast] at hc
    rw [← Option.some.inj hc]
    decide
  refine ⟨hplain, (route_param_survives_iff composeConfig composeAuthority (fun service => ?_)
    none none none .getUser _).mpr hplain⟩
  cases service <;> exact ⟨Or.inl rfl, by decide +kernel⟩

/-- a customer, who may not list the users -/
def customer : RequestUser := ⟨"u1", "eve@example.com", [.user]⟩

/-- a customer's request for one user that reaches the listing of all users, with a query -/
theorem route_param_reaches_listing :
    Gateway.delivers "GET" "/users/..%2Fusers%3Fpage=2" = some (.getUser, "../users?page=2") ∧
    (ParamRoute.sent composeConfig (some customer) none none .getUser "../users?page=2").2.url =
      "http://user-service:3002/users/../users?page=2" ∧
    (ParamRoute.sent composeConfig (some customer) none none .getUser
      "../users?page=2").2.arrives .userService =
        some ("user-service:3002", .usersFindAll, "page=2") ∧
    ¬ParamRoute.Survives composeConfig composeAuthority (some customer) none none .getUser
      "../users?page=2" := by
  have harrives : (ParamRoute.sent composeConfig (some customer) none none .getUser
      "../users?page=2").2.arrives .userService =
        some ("user-service:3002", .usersFindAll, "page=2") := by decide +kernel
  refine ⟨by decide +kernel, by decide +kernel, harrives, fun h => ?_⟩
  have heq := harrives.symm.trans h
  exact absurd (congrArg (fun x => x.map fun y => y.2.1) heq) (by decide)

/-! ## what the gateway delivers -/

/-- the segments of a request for the handler -/
def ParamRoute.request (r : ParamRoute) (id : String) : List (List Char) :=
  r.path.map fun
    | .text s => s.toList
    | .param => id.toList

/-- a client that encodes the segments with `encodeURIComponent` -/
def ParamRoute.clientTarget (r : ParamRoute) (id : String) : String :=
  String.ofList (URL.target ⟨[], (r.request id).map (encode componentSet), none⟩)

/-- **Every text is delivered** by some request, but `me` to the two handlers that have another
beside them for it.  The router's limit on the length of a parameter, 100 characters, is left
out. -/
theorem delivers_clientTarget (r : ParamRoute) {id : String}
    (h : id = "me" → r ≠ .getUser ∧ r ≠ .getWallet) :
    Gateway.delivers r.method (r.clientTarget id) = some (r, id) := by
  have hne : (r.request id).map (encode componentSet) ≠ [] := by
    cases r <;> exact List.cons_ne_nil _ _
  have hsegs : requestSegments (URL.target ⟨[], (r.request id).map (encode componentSet), none⟩) =
      some (r.request id) := by
    rw [requestSegments_target hne]
    · exact decodeAll_encode fun _ _ _ => by decide
    · intro x hx
      obtain ⟨s, _, rfl⟩ := List.mem_map.mp hx
      refine encode_ne fun c _ hc => ?_
      constructor <;> rintro rfl <;> exact absurd hc (by decide)
  have hfirst : Route.first gatewayRoutes r.method (r.request id) = some (some (r, id)) := by
    by_cases hid : id = "me"
    · subst hid
      obtain ⟨huser, hwallet⟩ := h rfl
      cases r <;> first | rfl | exact absurd rfl huser | exact absurd rfl hwallet
    · have hlit : "me".toList = ['m', 'e'] := by decide
      have hme : ¬['m', 'e'] = id.toList := fun h => hid (String.toList_inj.mp (hlit.trans h)).symm
      cases r <;>
        simp [gatewayRoutes, ParamRoute.all, Route.first, ParamRoute.request, ParamRoute.path,
          ParamRoute.method, matchSegments, hme, String.ofList_toList]
  unfold Gateway.delivers Route.find ParamRoute.clientTarget
  rw [String.toList_ofList, hsegs, Option.bind_some, hfirst]
  rfl

end Shop
