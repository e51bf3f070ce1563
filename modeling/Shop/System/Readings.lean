import Shop.Product.Inflight
import Shop.System.Listing
import Shop.System.Storefront

/-!
# What a customer can read

The handlers that read: what they answer a request that the gateway has sent on.

* `Tables`                  what the services read their answers from;
* `ServiceRoute.read`       the handlers that read, `readAt` with the router and the guard before
                            them;
* `SeenBy u t t'`           two sets of tables with the same catalogue, the same orders, wallet and
                            profile of the user `u`, and active profiles of the same ids;
* `foreign_profile`         a profile of somebody else is refused in one way if it is there, and in
                            another if it is not;
* `readings_own`            a user who is no administrator is answered the same from both.
-/

set_option linter.unusedSectionVars false

namespace Shop
open Lib

/-! ## the handlers -/

/-- `cached` is what Redis answers for a key -/
structure Tables where
  orders : OrderDb
  products : List Product
  cached : String → Option ProductResult
  wallets : List Wallet
  profiles : List Profile

/-- the orders of rows that the databases choose for one request; `uuid` is the id that the column
`profiles.id` makes of a text, if the query does not fail -/
structure ReadChoice where
  orders : OrderChoice
  products : SortedOrder Product.createdAt
  profiles : SortedOrder Profile.createdAt
  uuid : String → Option String

inductive ServiceAnswer where
  | order (result : OrderResult)
  | orders (result : PaginatedResult OrderResult)
  | product (result : ProductResult)
  | products (result : PaginatedResult ProductResult)
  | wallet (view : WalletView)
  | profile (result : ProfileResult)
  | profiles (result : PaginatedResult ProfileResult)

/-- `rowId` is the id that `id` is in the column; `profiles` has no pipe for it -/
def UsersService.findById (profiles : List Profile) (rowId id requesterId : String)
    (requesterRoles : List Role) : Except UsersError ProfileResult :=
  match activeProfile (selectBy Profile.id rowId profiles) with
  | none => .error (.notFound id)
  | some profile =>
    if mayAccess id requesterId requesterRoles then .ok (UsersService.toResult profile)
    else .error (.forbidden "Access denied")

/-- `NotFoundException` and `ForbiddenException` -/
def UsersError.exception (e : UsersError) : HttpException :=
  match e with
  | .notFound _ => ⟨404, e.message⟩
  | .forbidden _ => ⟨403, e.message⟩

def ProductsService.findById (cached : String → Option ProductResult) (products : List Product)
    (id : String) : Except ProductsError ProductResult :=
  match cached (keyOne id) with
  | some result => .ok result
  | none =>
    match findActive id products with
    | none => .error (.productNotFound id)
    | some product => .ok (ProductsService.toResult product)

/-- `if (!userId) throw new UnauthorizedException(...)` -/
def OrdersController.requester (userId : Option String) : Except HttpException String :=
  match userId with
  | none => .error ⟨401, "Missing user id"⟩
  | some "" => .error ⟨401, "Missing user id"⟩
  | some userId => .ok userId

/-- The handlers that read.  `paging` is what the pipe makes of the query string; a request without
`x-user-id` has the requester `""`. -/
def ServiceRoute.read (paging : String → Option (Nat × Nat)) (q : ReadChoice) (t : Tables)
    (headers : Headers) (query : String) :
    ServiceRoute → Except HttpException (Option ServiceAnswer)
  | .ordersFindAll => do
    let (page, limit) ← ValidationPipe.transform (paging query)
    let userId ← OrdersController.requester (headers.get HEADERS.userId)
    return some (.orders (GetUserOrdersUseCase.execute q.orders t.orders userId page limit))
  | .ordersFindById id => do
    let id ← ParseUUIDPipe.transform id
    let userId ← OrdersController.requester (headers.get HEADERS.userId)
    match GetOrderUseCase.execute q.orders t.orders id userId with
    | .ok order => return some (.order order)
    | .error e => .error ⟨404, e.message⟩
  | .productsFindAll => do
    let (page, limit) ← ValidationPipe.transform (paging query)
    return some (.products (ProductsService.findAll q.products t.products page limit))
  | .productsFindById id => do
    let id ← ParseUUIDPipe.transform id
    match ProductsService.findById t.cached t.products id with
    | .ok product => return some (.product product)
    | .error e => .error ⟨404, e.message⟩
  | .walletsGetWallet userId => do
    let view ← WalletsController.getWallet t.wallets userId
      ((headers.get HEADERS.userId).getD "") (headers.get HEADERS.userRoles)
    return some (.wallet view)
  | .usersFindAll => do
    let (page, limit) ← ValidationPipe.transform (paging query)
    let roles := UsersController.parseRoles (headers.get HEADERS.userRoles)
    match UsersService.findAll q.profiles t.profiles page limit roles with
    | .ok profiles => return some (.profiles profiles)
    | .error e => .error e.exception
  | .usersGetUser id =>
    let roles := UsersController.parseRoles (headers.get HEADERS.userRoles)
    match q.uuid id with
    | none => .error ⟨500, "Internal server error"⟩
    | some rowId =>
      match UsersService.findById t.profiles rowId id ((headers.get HEADERS.userId).getD "")
        roles with
      | .ok profile => .ok (some (.profile profile))
      | .error e => .error e.exception
  | _ => .ok none

/-- what the service answers, if its router finds a route -/
def readAt (secret : String) (paging : String → Option (Nat × Nat)) (q : ReadChoice) (t : Tables)
    (service : ServiceName) (req : DownstreamRequest) :
    Option (Except HttpException (Option ServiceAnswer)) :=
  (req.arrives service).map fun found =>
    (InternalGuard.canActivate secret req.headers).bind fun _ =>
      found.2.1.read paging q t req.headers found.2.2

/-- it is the call of the model with concurrent calls -/
theorem findById_find (profiles : List Profile) (rowId id requesterId : String)
    (roles : List Role) :
    (UserCall.findById requesterId roles).find id (selectBy Profile.id rowId profiles) =
      match UsersService.findById profiles rowId id requesterId roles with
      | .ok profile => .answer profile.toObject
      | .error e => .refuse e := by
  unfold UsersService.findById UserCall.find
  cases activeProfile (selectBy Profile.id rowId profiles) with
  | none => rfl
  | some profile =>
    simp only
    by_cases h : mayAccess id requesterId roles = true
    · rw [if_pos h, if_pos h]
      rfl
    · rw [if_neg h, if_neg h]

/-! ## what a user sees -/

structure SeenBy (u : String) (t t' : Tables) : Prop where
  keys : t.orders.Keyed ∧ t'.orders.Keyed
  orders : SameOrders u t.orders t'.orders
  products : t.products = t'.products
  cached : t.cached = t'.cached
  wallet : WalletService.getBalance t.wallets u = WalletService.getBalance t'.wallets u
  profile : selectBy Profile.id u t.profiles = selectBy Profile.id u t'.profiles
  active : ∀ id, (activeProfile (selectBy Profile.id id t.profiles)).isSome =
    (activeProfile (selectBy Profile.id id t'.profiles)).isSome

/-- **A profile of somebody else is never shown**, but whether there is an active one is. -/
theorem foreign_profile (profiles : List Profile) (rowId : String) {id requesterId : String}
    {roles : List Role} (hid : requesterId ≠ id) (hroles : Role.admin ∉ roles) :
    UsersService.findById profiles rowId id requesterId roles =
      .error (if (activeProfile (selectBy Profile.id rowId profiles)).isSome then
        .forbidden "Access denied" else .notFound id) := by
  have hdenied : mayAccess id requesterId roles = false := by
    simp [mayAccess, hid, hroles]
  unfold UsersService.findById
  cases activeProfile (selectBy Profile.id rowId profiles) with
  | none => rfl
  | some profile => simp only [hdenied, Bool.false_eq_true, if_false, Option.isSome_some, if_true]

theorem requester_some {u userId : String}
    (hid : OrdersController.requester (some u) = .ok userId) : userId = u := by
  unfold OrdersController.requester at hid
  split at hid
  · cases hid
  · cases hid
  · rename_i id _ heq
    cases heq
    cases hid
    rfl

section
variable {u : String} {t t' : Tables} (h : SeenBy u t t')
include h

theorem SeenBy.getUser {rowId id : String} (hown : u = id → rowId = u) {roles : List Role}
    (hroles : Role.admin ∉ roles) :
    UsersService.findById t.profiles rowId id u roles =
      UsersService.findById t'.profiles rowId id u roles := by
  by_cases hid : u = id
  · rw [hown hid]
    unfold UsersService.findById
    rw [h.profile]
  · rw [foreign_profile _ _ hid hroles, foreign_profile _ _ hid hroles, h.active rowId]

theorem SeenBy.getWallet (userId : String) {rolesHeader : Option String}
    (hroles : Role.admin ∉ parseRoles rolesHeader) :
    WalletsController.getWallet t.wallets userId u rolesHeader =
      WalletsController.getWallet t'.wallets userId u rolesHeader := by
  unfold WalletsController.getWallet
  by_cases hid : u = userId
  · subst hid
    rw [h.wallet]
  · rw [if_pos ⟨hid, hroles⟩, if_pos ⟨hid, hroles⟩]

theorem SeenBy.getOrder (q : OrderChoice) (id : String) :
    GetOrderUseCase.execute q t.orders id u = GetOrderUseCase.execute q t'.orders id u :=
  OrderAnswer.order.inj (h.orders.answer h.keys.1 h.keys.2 q (.getOrder id))

theorem SeenBy.getUserOrders (q : OrderChoice) (page limit : Nat) :
    GetUserOrdersUseCase.execute q t.orders u page limit =
      GetUserOrdersUseCase.execute q t'.orders u page limit :=
  OrderAnswer.orders.inj (h.orders.answer h.keys.1 h.keys.2 q (.getUserOrders page limit))

/-- **Every handler that reads** answers the same. -/
theorem SeenBy.read (paging : String → Option (Nat × Nat)) (q : ReadChoice)
    (huuid : q.uuid u = some u) {headers : Headers} (hid : headers.get HEADERS.userId = some u)
    (hroles : Role.admin ∉ parseRoles (headers.get HEADERS.userRoles)) (query : String)
    (route : ServiceRoute) :
    route.read paging q t headers query = route.read paging q t' headers query := by
  cases route with
  | ordersFindAll =>
    refine bind_congr fun p => ?_
    rw [hid]
    cases hu : OrdersController.requester (some u) with
    | error e => rfl
    | ok userId =>
      cases requester_some hu
      exact congrArg (fun r => Except.ok (some (ServiceAnswer.orders r)))
        (h.getUserOrders q.orders p.1 p.2)
  | ordersFindById id =>
    refine bind_congr fun id => ?_
    rw [hid]
    cases hu : OrdersController.requester (some u) with
    | error e => rfl
    | ok userId =>
      cases requester_some hu
      simp only [bind, Except.bind]
      rw [h.getOrder]
  | productsFindAll =>
    simp only [ServiceRoute.read, h.products]
  | productsFindById id =>
    simp only [ServiceRoute.read, h.products, h.cached]
  | walletsGetWallet userId =>
    simp only [ServiceRoute.read, hid, Option.getD_some]
    rw [h.getWallet userId hroles]
  | usersFindAll =>
    refine bind_congr fun p => ?_
    have hno : Role.admin ∉ UsersController.parseRoles (headers.get HEADERS.userRoles) := hroles
    simp only [UsersService.findAll, if_pos hno]
  | usersGetUser id =>
    have hno : Role.admin ∉ UsersController.parseRoles (headers.get HEADERS.userRoles) := hroles
    simp only [ServiceRoute.read, hid, Option.getD_some]
    cases hrow : q.uuid id with
    | none => rfl
    | some rowId =>
      have hown : u = id → rowId = u := by
        rintro rfl
        exact Option.some.inj (hrow.symm.trans huuid)
      simp only
      rw [h.getUser hown hno]
  | _ => rfl

end

/-- Eve asks for her orders -/
def asksForOrders : Arrival where
  request := ⟨.findAllOrders "", [("authorization", "Bearer eve"), ("x-user-id", "bob")], none⟩
  now := 1000
  readFails := false
  writeFails := false
  uuid := "c1"

def Tables.ofOrders (orders : OrderDb) : Tables := ⟨orders, [], fun _ => none, [], []⟩

def ReadChoice.stored : ReadChoice := ⟨.stored, .stored _, .stored _, fun id => some (uuidOf id)⟩

theorem seenBy_eve : SeenBy (Uuid.sample '9').val (.ofOrders OrderDb.empty.withEve)
    (.ofOrders OrderDb.empty.withBob.withEve) where
  keys := ⟨by unfold OrderDb.Keyed; decide +kernel, by unfold OrderDb.Keyed; decide +kernel⟩
  orders := sameOrders_eve
  products := rfl
  cached := rfl
  wallet := rfl
  profile := rfl
  active := fun _ => rfl

end Shop
