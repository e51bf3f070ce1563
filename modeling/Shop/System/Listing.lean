import Shop.Order.Queries
import Shop.Product.Service
import Shop.User.Service

/-!
# The paginated listings

`ProductsService.findAll`, `UsersService.findAll` and `GetUserOrdersUseCase.execute` cut their pages
out of the rows that a query sorts by `createdAt`.

* `ProductsService.findAll`, `UsersService.findAll`  the listings of active rows;
* `Partitioned`              what the pages of a listing are for: every row once, newest first;
* `partitioned_iff`          when they are, whatever the queries choose;
* `listings_partition_iff`   the three listings.
-/

set_option linter.unusedSectionVars false

namespace Shop
open Lib

/-! ## the listings -/

abbrev ProfileResult := Profile

def UsersService.toResult (profile : Profile) : ProfileResult where
  id := profile.id
  email := profile.email
  name := profile.name
  avatarUrl := profile.avatarUrl
  phone := profile.phone
  dateOfBirth := profile.dateOfBirth
  addressLine := profile.addressLine
  city := profile.city
  country := profile.country
  postalCode := profile.postalCode
  isActive := profile.isActive
  createdAt := profile.createdAt

/-- `page` is from 1 -/
def ProductsService.findAll (q : SortedOrder Product.createdAt) (products : List Product)
    (page limit : Nat) : PaginatedResult ProductResult :=
  let rows := products.filter Product.isActive
  { data := (Lib.page limit page (q.apply rows)).map ProductsService.toResult
    page := page
    limit := limit
    total := rows.length
    totalPages := totalPages limit rows.length }

def UsersService.findAll (q : SortedOrder Profile.createdAt) (profiles : List Profile)
    (page limit : Nat) (requesterRoles : List Role) :
    Except UsersError (PaginatedResult ProfileResult) :=
  if Role.admin ∉ requesterRoles then .error (.forbidden "Only admins can list users")
  else
    let rows := profiles.filter Profile.isActive
    .ok { data := (Lib.page limit page (q.apply rows)).map UsersService.toResult
          page := page
          limit := limit
          total := rows.length
          totalPages := totalPages limit rows.length }

/-! ## what the pages are for -/

/-- Pages 1 to `totalPages` show every row exactly once, the newest first, each page says how many
rows there are, and what comes after is empty.  `Shows r x` if `x` is a result made of `r`. -/
structure Partitioned {ρ R : Type} (rows : List ρ) (Shows : ρ → R → Prop) (createdAt : R → Nat)
    (list : Nat → PaginatedResult R) : Prop where
  once : ∃ l, l.Perm rows ∧
    List.Forall₂ Shows l ((List.range (list 1).totalPages).flatMap fun k => (list (k + 1)).data)
  newest : Descending createdAt
    ((List.range (list 1).totalPages).flatMap fun k => (list (k + 1)).data)
  total : ∀ number, (list number).total = rows.length
  rest : ∀ number, (list 1).totalPages < number → (list number).data = []

section
variable {ρ R : Type} {key : ρ → Nat} {rows : List ρ} {limit : Nat}

/-- a page of the rows, shown by `f` -/
def listing (f : Nat → ρ → R) (q : Nat → SortedOrder key) (limit : Nat) (rows : List ρ)
    (number : Nat) : PaginatedResult R where
  data := (Lib.page limit number ((q number).apply rows)).map (f number)
  page := number
  limit := limit
  total := rows.length
  totalPages := totalPages limit rows.length

variable {f : Nat → ρ → R} {Shows : ρ → R → Prop} {createdAt : R → Nat}

theorem forall₂_pages (hself : ∀ number r, Shows r (f number r)) (q : Nat → SortedOrder key)
    (n : Nat) : List.Forall₂ Shows (pages q limit n rows)
      ((List.range n).flatMap fun k => (listing f q limit rows (k + 1)).data) := by
  induction n with
  | zero => exact List.Forall₂.nil
  | succ n ih =>
    rw [pages_succ, List.range_succ, List.flatMap_append, List.flatMap_singleton]
    refine List.rel_append ih ?_
    refine List.forall₂_map_right_iff.mpr (List.forall₂_same.mpr fun r _ => hself (n + 1) r)

/-- results show one list of rows only -/
theorem forall₂_unique {l l' : List ρ} {out : List R} (h : List.Forall₂ Shows l out)
    (h' : List.Forall₂ Shows l' out) (hinj : ∀ r r' x, Shows r x → Shows r' x → r = r') :
    l = l' := by
  induction h generalizing l' with
  | nil =>
    cases h'
    rfl
  | cons hx _ ih =>
    cases h' with
    | cons hx' htail => rw [hinj _ _ _ hx hx', ih htail]

theorem descending_forall₂ {l : List ρ} {out : List R} (h : List.Forall₂ Shows l out)
    (hcreated : ∀ r x, Shows r x → createdAt x = key r) (hsorted : Descending key l) :
    Descending createdAt out := by
  have hmap : out.map createdAt = l.map key := by
    induction h with
    | nil => rfl
    | cons hx _ ih =>
      rw [List.map_cons, List.map_cons, hcreated _ _ hx, ih (List.pairwise_cons.mp hsorted).2]
  rw [descending_map, hmap, ← descending_map]
  exact hsorted

/-- **The pages partition the rows, whatever the queries choose, exactly if no page ends between two
rows of one time.** -/
theorem partitioned_iff (hself : ∀ number r, Shows r (f number r))
    (hinj : ∀ r r' x, Shows r x → Shows r' x → r = r')
    (hcreated : ∀ r x, Shows r x → createdAt x = key r) (hnodup : rows.Nodup)
    (hlimit : 1 ≤ limit) :
    (∀ q : Nat → SortedOrder key,
      Partitioned rows Shows createdAt (listing f q limit rows)) ↔ ¬Straddled key limit rows := by
  rw [← pages_perm_iff hnodup hlimit]
  constructor
  · intro h q
    obtain ⟨l, hperm, hshows⟩ := (h q).once
    have heq := forall₂_unique hshows (forall₂_pages hself q _) hinj
    rw [heq] at hperm
    exact hperm
  · intro h q
    have hcut := (pages_perm_iff hnodup hlimit).mp h
    have hshows : List.Forall₂ Shows (pages q limit (totalPages limit rows.length) rows)
        ((List.range (totalPages limit rows.length)).flatMap fun k =>
          (listing f q limit rows (k + 1)).data) := forall₂_pages hself q _
    refine ⟨⟨_, h q, hshows⟩, ?_, fun _ => rfl, fun number hlast => ?_⟩
    · exact descending_forall₂ hshows hcreated (pages_sorted hcut q _)
    · have hlen := ((q number).perm rows).length_eq
      have hempty := page_empty (l := (q number).apply rows) hlimit (by rw [hlen]; exact hlast)
      exact congrArg (List.map (f number)) hempty

end

/-! ## the three listings -/

theorem toDomain_row {db : OrderDb} {q q' : RowOrder OrderItemRow} {r r' : OrderRow}
    (h : db.toDomain q r = db.toDomain q' r') : r = r' := by
  obtain ⟨id, userId, userEmail, status, total, createdAt⟩ := r
  obtain ⟨id', userId', userEmail', status', total', createdAt'⟩ := r'
  simp only [OrderDb.toDomain, Order.mk.injEq] at h
  obtain ⟨rfl, rfl, rfl, rfl, rfl, _, rfl⟩ := h
  rfl

theorem products_partition_iff (products : List Product)
    (hkeyed : (products.map Product.id).Nodup) {limit : Nat} (hlimit : 1 ≤ limit) :
    (∀ q : Nat → SortedOrder Product.createdAt,
      Partitioned (products.filter Product.isActive) (fun p x => x = ProductsService.toResult p)
        Product.createdAt (fun n => ProductsService.findAll (q n) products n limit)) ↔
      ¬Straddled Product.createdAt limit (products.filter Product.isActive) := by
  refine partitioned_iff (f := fun _ => ProductsService.toResult) (fun _ _ => rfl) ?_ ?_
    (hkeyed.of_map _ |>.filter _) hlimit
  · intro p p' x h h'
    exact h.symm.trans h'
  · rintro p x rfl
    rfl

theorem users_partition_iff (profiles : List Profile) (hkeyed : (profiles.map Profile.id).Nodup)
    {requesterRoles : List Role} (hadmin : Role.admin ∈ requesterRoles) {limit : Nat}
    (hlimit : 1 ≤ limit) :
    (∀ q : Nat → SortedOrder Profile.createdAt, ∃ list,
      (∀ n, UsersService.findAll (q n) profiles n limit requesterRoles = .ok (list n)) ∧
      Partitioned (profiles.filter Profile.isActive) (fun p x => x = UsersService.toResult p)
        Profile.createdAt list) ↔
      ¬Straddled Profile.createdAt limit (profiles.filter Profile.isActive) := by
  have hiff : (∀ q : Nat → SortedOrder Profile.createdAt, Partitioned
      (profiles.filter Profile.isActive) (fun p x => x = UsersService.toResult p) Profile.createdAt
      (listing (fun _ => UsersService.toResult) q limit (profiles.filter Profile.isActive))) ↔
      ¬Straddled Profile.createdAt limit (profiles.filter Profile.isActive) :=
    partitioned_iff (fun _ _ => rfl) (fun p p' x h h' => h.symm.trans h')
      (fun p x h => by rw [h]; rfl) ((hkeyed.of_map _).filter Profile.isActive) hlimit
  have hok : ∀ (q : Nat → SortedOrder Profile.createdAt) n,
      UsersService.findAll (q n) profiles n limit requesterRoles =
        .ok (listing (fun _ => UsersService.toResult) q limit
          (profiles.filter Profile.isActive) n) :=
    fun q n => if_neg fun hne => hne hadmin
  rw [← hiff]
  constructor
  · intro h q
    obtain ⟨list, hlist, hpart⟩ := h q
    have heq : list = listing (fun _ => UsersService.toResult) q limit
        (profiles.filter Profile.isActive) :=
      funext fun n => Except.ok.inj ((hlist n).symm.trans (hok q n))
    rw [← heq]
    exact hpart
  · exact fun h q => ⟨_, hok q, h q⟩

theorem orders_partition_iff (db : OrderDb) (hkeyed : db.Keyed) (userId : String) {limit : Nat}
    (hlimit : 1 ≤ limit) :
    (∀ q : Nat → OrderChoice,
      Partitioned (db.ordersOf userId) (fun r x => ∃ items, x = db.toDomain items r)
        Order.createdAt (fun n => GetUserOrdersUseCase.execute (q n) db userId n limit)) ↔
      ¬Straddled OrderRow.createdAt limit (db.ordersOf userId) := by
  have hiff : ∀ items : Nat → RowOrder OrderItemRow,
      (∀ q : Nat → SortedOrder OrderRow.createdAt, Partitioned (db.ordersOf userId)
        (fun r x => ∃ items, x = db.toDomain items r) Order.createdAt
        (listing (fun n r => db.toDomain (items n) r) q limit (db.ordersOf userId))) ↔
        ¬Straddled OrderRow.createdAt limit (db.ordersOf userId) := fun items =>
    partitioned_iff (fun n r => ⟨items n, rfl⟩)
      (fun r r' x h h' => toDomain_row (h.choose_spec.symm.trans h'.choose_spec))
      (fun r x h => by rw [h.choose_spec]; rfl)
      (hkeyed.of_map _ |>.filter fun r : OrderRow => decide (r.userId = userId)) hlimit
  have hexecute : ∀ q : Nat → OrderChoice,
      (fun n => GetUserOrdersUseCase.execute (q n) db userId n limit) =
        listing (fun n r => db.toDomain (q n).items r) (fun n => (q n).rows) limit
          (db.ordersOf userId) := by
    intro q
    funext n
    unfold GetUserOrdersUseCase.execute OrderDb.findByUser listing
    simp only [List.map_map, PaginatedResult.mk.injEq, and_self, and_true]
    exact List.map_congr_left fun r _ => toOrderResult_eq _
  constructor
  · intro h
    refine (hiff fun _ => .stored _).mp fun q => ?_
    have hq := h fun n => ⟨q n, .stored _⟩
    rw [hexecute] at hq
    exact hq
  · intro h q
    rw [hexecute]
    exact (hiff fun n => (q n).items).mpr h fun n => (q n).rows

/-- **The pages of a listing partition it exactly if no page ends between two rows of one
`createdAt`**: for the listings of active products, of active users (by an admin) and of a user's
orders, and for everything that the database may choose for each query. -/
theorem listings_partition_iff (products : List Product) (profiles : List Profile) (db : OrderDb)
    (hproducts : (products.map Product.id).Nodup) (hprofiles : (profiles.map Profile.id).Nodup)
    (hdb : db.Keyed) (userId : String) (requesterRoles : List Role)
    (hadmin : Role.admin ∈ requesterRoles) (limit : Nat) (hlimit : 1 ≤ limit) :
    ((∀ q : Nat → SortedOrder Product.createdAt,
      Partitioned (products.filter Product.isActive) (fun p x => x = ProductsService.toResult p)
        Product.createdAt (fun n => ProductsService.findAll (q n) products n limit)) ↔
      ¬Straddled Product.createdAt limit (products.filter Product.isActive)) ∧
    ((∀ q : Nat → SortedOrder Profile.createdAt, ∃ list,
      (∀ n, UsersService.findAll (q n) profiles n limit requesterRoles = .ok (list n)) ∧
      Partitioned (profiles.filter Profile.isActive) (fun p x => x = UsersService.toResult p)
        Profile.createdAt list) ↔
      ¬Straddled Profile.createdAt limit (profiles.filter Profile.isActive)) ∧
    ((∀ q : Nat → OrderChoice,
      Partitioned (db.ordersOf userId) (fun r x => ∃ items, x = db.toDomain items r)
        Order.createdAt (fun n => GetUserOrdersUseCase.execute (q n) db userId n limit)) ↔
      ¬Straddled OrderRow.createdAt limit (db.ordersOf userId)) :=
  ⟨products_partition_iff products hproducts hlimit,
    users_partition_iff profiles hprofiles hadmin hlimit,
    orders_partition_iff db hdb userId hlimit⟩

/-! ## two products of one time -/

def Product.sample (c : Char) (createdAt : Nat) : Product :=
  ⟨(Uuid.sample c).val, "Pen", none, 100, 5, true, createdAt⟩

/-- pages of two, with two products of one time on the first page -/
theorem listings_partition_of_three : ¬Straddled Product.createdAt 2
      [Product.sample '1' 7, .sample '2' 7, .sample '3' 4] ∧
    Partitioned [Product.sample '1' 7, .sample '2' 7, .sample '3' 4]
      (fun p x => x = ProductsService.toResult p) Product.createdAt (fun n =>
        ProductsService.findAll (.reversed _) [.sample '1' 7, .sample '2' 7, .sample '3' 4]
          n 2) := by
  have hcut : ¬Straddled Product.createdAt 2
      [Product.sample '1' 7, .sample '2' 7, .sample '3' 4] := by
    rintro ⟨r, hr, k, hlo, hhi⟩
    simp only [List.mem_cons, List.not_mem_nil, or_false] at hr
    rcases hr with rfl | rfl | rfl <;>
      simp [newer, upTo, Product.sample] at hlo hhi <;> omega
  have hall := listings_partition_iff [Product.sample '1' 7, .sample '2' 7, .sample '3' 4] []
    OrderDb.empty (by decide) (by decide) List.nodup_nil "eve" [.admin] (by decide) 2 (by decide)
  exact ⟨hcut, hall.1.mpr hcut fun _ => .reversed _⟩

/-- the choice of a database that returns products of one time the other way round from the second
page on -/
def secondPageReversed (number : Nat) : SortedOrder Product.createdAt :=
  if number = 1 then .stored _ else .reversed _

/-- **A product that is on two pages, and one that is on none.** -/
theorem listing_repeats : (∀ n, (ProductsService.findAll (secondPageReversed n)
      [.sample '1' 7, .sample '2' 7] n 1).totalPages = 2) ∧
    (ProductsService.findAll (secondPageReversed 1) [.sample '1' 7, .sample '2' 7] 1 1).data =
      [.sample '1' 7] ∧
    (ProductsService.findAll (secondPageReversed 2) [.sample '1' 7, .sample '2' 7] 2 1).data =
      [.sample '1' 7] ∧
    ¬Partitioned [Product.sample '1' 7, .sample '2' 7]
      (fun p x => x = ProductsService.toResult p) Product.createdAt (fun n =>
        ProductsService.findAll (secondPageReversed n) [.sample '1' 7, .sample '2' 7] n 1) := by
  have hfirst : (ProductsService.findAll (secondPageReversed 1)
      [.sample '1' 7, .sample '2' 7] 1 1).data = [.sample '1' 7] := by decide +kernel
  have hsecond : (ProductsService.findAll (secondPageReversed 2)
      [.sample '1' 7, .sample '2' 7] 2 1).data = [.sample '1' 7] := by decide +kernel
  refine ⟨fun _ => rfl, hfirst, hsecond, fun h => ?_⟩
  obtain ⟨l, hperm, hshows⟩ := h.once
  have hpages : (List.range (ProductsService.findAll (secondPageReversed 1)
      [.sample '1' 7, .sample '2' 7] 1 1).totalPages).flatMap (fun k =>
        (ProductsService.findAll (secondPageReversed (k + 1)) [.sample '1' 7, .sample '2' 7]
          (k + 1) 1).data) = [.sample '1' 7, .sample '1' 7] := by decide +kernel
  rw [hpages] at hshows
  have hmem : Product.sample '2' 7 ∈ l := hperm.mem_iff.mpr (by decide)
  match l, hshows with
  | [a, b], .cons ha (.cons hb .nil) =>
    have ha' : Product.sample '1' 7 = a := ha
    have hb' : Product.sample '1' 7 = b := hb
    rw [← ha', ← hb'] at hmem
    exact absurd hmem (by decide)

end Shop
