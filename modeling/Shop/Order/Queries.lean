import Shop.Order.Repository
import Shop.Lib.Page

/-!
# The orders that a user sees

`GetOrderUseCase` and `GetUserOrdersUseCase`, with the two queries of `TypeOrmOrderRepository` that
they make.

* `OrderDb.findByUser`               a page of the user's orders, and their number;
* `GetOrderUseCase.execute`, `GetUserOrdersUseCase.execute`  the use cases;
* `SameOrders`                       two databases with the same orders of one user;
* `foreign_orders_invisible`         every sequence of requests of that user has the same answers
  in both.
-/

set_option linter.unusedSectionVars false

namespace Shop
open Lib

/-- `page`, `limit`, `total` and `totalPages` are the fields of `meta` -/
structure PaginatedResult (R : Type) where
  data : List R
  page : Nat
  limit : Nat
  total : Nat
  totalPages : Nat
deriving DecidableEq, Repr

/-- the result of a use case has the fields of the order -/
abbrev OrderResult := Order

/-- both use cases have this function -/
def toOrderResult (order : Order) : OrderResult where
  id := order.id
  userId := order.userId
  userEmail := order.userEmail
  status := order.status
  total := order.total
  items := order.items.map fun i => ⟨i.id, i.productId, i.productName, i.quantity, i.unitPrice⟩
  createdAt := order.createdAt

/-- what the database chooses for one query: the order of rows with one `createdAt`, and that of the
items of an order -/
structure OrderChoice where
  rows : SortedOrder OrderRow.createdAt
  items : RowOrder OrderItemRow

namespace OrderDb

def ordersOf (db : OrderDb) (userId : String) : List OrderRow :=
  db.orders.filter fun r => decide (r.userId = userId)

/-- `findByUser`, with `page` from 1 -/
def findByUser (q : OrderChoice) (db : OrderDb) (userId : String) (page limit : Nat) :
    List Order × Nat :=
  ((Lib.page limit page (q.rows.apply (db.ordersOf userId))).map (db.toDomain q.items),
    (db.ordersOf userId).length)

end OrderDb

/-- the uuid column has the row of `id` in any spelling -/
def GetOrderUseCase.execute (q : OrderChoice) (db : OrderDb) (id userId : String) :
    Except OrdersError OrderResult :=
  match db.findOrder q.items (uuidOf id) with
  | none => .error (.orderNotFound id)
  | some order =>
    if order.userId ≠ userId then .error (.orderNotFound id) else .ok (toOrderResult order)

def GetUserOrdersUseCase.execute (q : OrderChoice) (db : OrderDb) (userId : String)
    (page limit : Nat) : PaginatedResult OrderResult where
  data := (db.findByUser q userId page limit).1.map toOrderResult
  page := page
  limit := limit
  total := (db.findByUser q userId page limit).2
  totalPages := totalPages limit (db.findByUser q userId page limit).2

theorem toOrderResult_eq (order : Order) : toOrderResult order = order := by
  have hitems : (order.items.map fun i =>
      (⟨i.id, i.productId, i.productName, i.quantity, i.unitPrice⟩ : OrderItem)) = order.items :=
    List.map_id _
  unfold toOrderResult
  rw [hitems]

/-! ## what a user sees of a database -/

inductive OrderRequest where
  | getOrder (id : String)
  | getUserOrders (page limit : Nat)
deriving DecidableEq, Repr

inductive OrderAnswer where
  | order (result : Except OrdersError OrderResult)
  | orders (result : PaginatedResult OrderResult)

/-- the answer to a request of the user -/
def OrderDb.answer (db : OrderDb) (userId : String) (q : OrderChoice) : OrderRequest → OrderAnswer
  | .getOrder id => .order (GetOrderUseCase.execute q db id userId)
  | .getUserOrders page limit => .orders (GetUserOrdersUseCase.execute q db userId page limit)

/-- the orders of one user with their items; what other users have ordered may differ -/
structure SameOrders (userId : String) (db db' : OrderDb) : Prop where
  orders : db.ordersOf userId = db'.ordersOf userId
  items : ∀ r ∈ db.ordersOf userId,
    db.orderItems.filter (fun i => decide (i.orderId = r.id)) =
      db'.orderItems.filter fun i => decide (i.orderId = r.id)

/-- `id` is the primary key of `orders` -/
def OrderDb.Keyed (db : OrderDb) : Prop := (db.orders.map OrderRow.id).Nodup

theorem mem_ordersOf {db : OrderDb} {userId : String} {r : OrderRow} :
    r ∈ db.ordersOf userId ↔ r ∈ db.orders ∧ r.userId = userId := by
  rw [OrderDb.ordersOf, List.mem_filter, decide_eq_true_eq]

section
variable {userId : String} {db db' : OrderDb}

theorem SameOrders.symm (h : SameOrders userId db db') : SameOrders userId db' db :=
  ⟨h.orders.symm, fun r hr => (h.items r (h.orders ▸ hr)).symm⟩

theorem SameOrders.toDomain (h : SameOrders userId db db') (q : RowOrder OrderItemRow)
    {r : OrderRow} (hr : r ∈ db.ordersOf userId) : db.toDomain q r = db'.toDomain q r := by
  unfold OrderDb.toDomain
  rw [h.items r hr]

/-- the use case finds an order of the user -/
theorem getOrder_own (hdb : db.Keyed) (q : OrderChoice) {r : OrderRow} {id : String}
    (hr : r ∈ db.ordersOf userId) (hid : r.id = uuidOf id) :
    GetOrderUseCase.execute q db id userId = .ok (toOrderResult (db.toDomain q.items r)) := by
  obtain ⟨hmem, huser⟩ := mem_ordersOf.mp hr
  have hfind : db.findOrder q.items (uuidOf id) = some (db.toDomain q.items r) := by
    rw [OrderDb.findOrder, ← hid, selectBy_mem hdb hmem]
    rfl
  unfold GetOrderUseCase.execute
  rw [hfind]
  exact if_neg fun hne => hne huser

/-- **An order of somebody else is not found**, in the same words as one that nobody has. -/
theorem getOrder_foreign (q : OrderChoice) {id : String}
    (h : ∀ r ∈ db.ordersOf userId, r.id ≠ uuidOf id) :
    GetOrderUseCase.execute q db id userId = .error (.orderNotFound id) := by
  unfold GetOrderUseCase.execute OrderDb.findOrder
  cases hfind : selectBy OrderRow.id (uuidOf id) db.orders with
  | none => rfl
  | some r =>
    obtain ⟨hmem, hid⟩ := selectBy_some hfind
    have huser : r.userId ≠ userId := fun huser => h r (mem_ordersOf.mpr ⟨hmem, huser⟩) hid
    exact if_pos huser

theorem SameOrders.findByUser (h : SameOrders userId db db') (q : OrderChoice) (page limit : Nat) :
    db.findByUser q userId page limit = db'.findByUser q userId page limit := by
  unfold OrderDb.findByUser
  rw [← h.orders]
  refine Prod.ext (List.map_congr_left fun r hr => h.toDomain q.items ?_) rfl
  exact (q.rows.perm _).mem_iff.mp (List.mem_of_mem_drop (List.mem_of_mem_take hr))

theorem SameOrders.answer (h : SameOrders userId db db') (hdb : db.Keyed) (hdb' : db'.Keyed)
    (q : OrderChoice) (request : OrderRequest) :
    db.answer userId q request = db'.answer userId q request := by
  cases request with
  | getOrder id =>
    refine congrArg OrderAnswer.order ?_
    by_cases hown : ∃ r ∈ db.ordersOf userId, r.id = uuidOf id
    · obtain ⟨r, hr, hid⟩ := hown
      rw [getOrder_own hdb q hr hid, getOrder_own hdb' q (h.orders ▸ hr) hid,
        h.toDomain q.items hr]
    · have hforeign : ∀ r ∈ db.ordersOf userId, r.id ≠ uuidOf id :=
        fun r hr hid => hown ⟨r, hr, hid⟩
      rw [getOrder_foreign q hforeign, getOrder_foreign q (h.orders ▸ hforeign)]
  | getUserOrders page limit =>
    refine congrArg OrderAnswer.orders ?_
    unfold GetUserOrdersUseCase.execute
    rw [h.findByUser q page limit]

end

/-- **Orders of other users are invisible.**  In two databases with the same orders of a user, every
sequence of that user's requests has the same answers, errors and totals included; and an order of
somebody else, by whichever spelling of its id, gives the error of one that does not exist. -/
theorem foreign_orders_invisible (userId : String) (db db' : OrderDb) (hdb : db.Keyed)
    (hdb' : db'.Keyed) (h : SameOrders userId db db')
    (requests : List (OrderChoice × OrderRequest)) :
    (requests.map fun r => db.answer userId r.1 r.2) =
      (requests.map fun r => db'.answer userId r.1 r.2) ∧
    ∀ q id, (∀ r ∈ db.ordersOf userId, r.id ≠ uuidOf id) →
      db.answer userId q (.getOrder id) = .order (.error (.orderNotFound id)) ∧
      db'.answer userId q (.getOrder id) = .order (.error (.orderNotFound id)) := by
  refine ⟨List.map_congr_left fun r _ => h.answer hdb hdb' r.1 r.2, fun q id hforeign => ?_⟩
  exact ⟨congrArg OrderAnswer.order (getOrder_foreign q hforeign),
    congrArg OrderAnswer.order (getOrder_foreign q (h.orders ▸ hforeign))⟩

/-! ## two databases -/

def OrderChoice.stored : OrderChoice := ⟨.stored _, .stored _⟩

/-- an order of one item -/
def OrderDb.withOrder (id item : Uuid) (userId : String) (createdAt : Nat) (db : OrderDb) :
    OrderDb :=
  { db with
    orders := db.orders ++ [⟨id.val, userId, userId ++ "@example.com", .pending, 500, createdAt⟩]
    orderItems := db.orderItems ++
      [⟨item.val, id.val, (Uuid.sample '7').val, "Pen", 1, 500⟩] }

/-- Eve's order -/
def OrderDb.withEve : OrderDb → OrderDb :=
  OrderDb.withOrder (.sample '1') (.sample '2') (Uuid.sample '9').val 1

/-- Bob's order -/
def OrderDb.withBob : OrderDb → OrderDb :=
  OrderDb.withOrder (.sample '3') (.sample '4') (Uuid.sample '8').val 5

theorem sameOrders_eve :
    SameOrders (Uuid.sample '9').val OrderDb.empty.withEve OrderDb.empty.withBob.withEve := by
  have hone : OrderDb.empty.withEve.ordersOf (Uuid.sample '9').val =
      [⟨(Uuid.sample '1').val, (Uuid.sample '9').val, (Uuid.sample '9').val ++ "@example.com",
        .pending, 500, 1⟩] := by
    decide +kernel
  refine ⟨by decide +kernel, fun r hr => ?_⟩
  rw [hone] at hr
  rw [List.mem_singleton.mp hr]
  decide +kernel

/-- Eve asks for an order of Bob's, and for her own orders, beside Bob's order and without it -/
theorem foreign_orders_invisible_bob :
    let db := OrderDb.empty.withEve
    let db' := OrderDb.empty.withBob.withEve
    let eve := (Uuid.sample '9').val
    let id := (Uuid.sample '3').val
    db'.answer eve .stored (.getOrder id) = .order (.error (.orderNotFound id)) ∧
    db.answer eve .stored (.getUserOrders 1 20) =
      db'.answer eve .stored (.getUserOrders 1 20) := by
  intro db db' eve id
  obtain ⟨hall, herror⟩ := foreign_orders_invisible eve db db'
    (by unfold OrderDb.Keyed; decide +kernel) (by unfold OrderDb.Keyed; decide +kernel)
    sameOrders_eve [(.stored, .getUserOrders 1 20)]
  exact ⟨(herror .stored id (by decide +kernel)).2, (List.cons.inj hall).1⟩

end Shop
