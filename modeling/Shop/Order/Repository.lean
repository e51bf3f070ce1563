import Shop.Order.Saga
import Shop.Lib.Table

/-!
# The tables of order-service and their repositories

`infrastructure/persistence`: `orders`, `order_items`, `saga_states` and `outbox`, with the queries
of the three TypeORM repositories.  A query sees the tables and gives a new value of them; that the
whole transaction commits or rolls back is `Except`.

* `OrderDb.findOrder`, `saveOrder`, `updateOrder`   `TypeOrmOrderRepository`;
* `OrderDb.findSaga`, `findSagaRunning`, `findStuck`, `saveSaga`, `updateSaga`
                                                   `TypeOrmSagaRepository`;
* `OrderDb.write`                                  `TypeOrmOutboxRepository.write`;
* `OrderDb.linesOf`   the (product, quantity) lines that the item rows of an order hold.
-/

set_option linter.unusedSectionVars false

namespace Shop
open Lib

structure OrderRow where
  id : String
  userId : String
  userEmail : String
  status : OrderStatus
  total : Int
  createdAt : Nat
deriving DecidableEq, Repr

structure OrderItemRow where
  id : String
  orderId : String
  productId : String
  productName : String
  quantity : Int
  unitPrice : Int
deriving DecidableEq, Repr

structure OrderDb where
  orders : List OrderRow
  orderItems : List OrderItemRow
  sagas : List Saga
  outbox : List OutboxRow
deriving DecidableEq, Repr

namespace OrderDb

def empty : OrderDb := ⟨[], [], [], []⟩

/-! ## orders -/

def toItem (r : OrderItemRow) : OrderItem :=
  ⟨r.id, r.productId, r.productName, r.quantity, r.unitPrice⟩

/-- `OrderMapper.toDomain`; the eager join brings the item rows in an order of its own -/
def toDomain (q : RowOrder OrderItemRow) (db : OrderDb) (r : OrderRow) : Order where
  id := r.id
  userId := r.userId
  userEmail := r.userEmail
  status := r.status
  total := r.total
  items := (q.apply (db.orderItems.filter fun i => decide (i.orderId = r.id))).map toItem
  createdAt := r.createdAt

def findOrder (q : RowOrder OrderItemRow) (db : OrderDb) (id : String) : Option Order :=
  (selectBy OrderRow.id id db.orders).map (db.toDomain q)

/-- the item rows of a new order, with their generated ids -/
def newItemRows (orderId : String) (ids : List Uuid) (items : List OrderItem) : List OrderItemRow :=
  ids.zipWith (fun id i => ⟨id.val, orderId, i.productId, i.productName, i.quantity, i.unitPrice⟩)
    items

/-- the insert of a new order with its items; the database generates the ids -/
def saveOrder (db : OrderDb) (id : Uuid) (itemIds : List Uuid) (o : Order) : OrderDb :=
  { db with
    orders := db.orders ++ [⟨id.val, o.userId, o.userEmail, o.status, o.total, o.createdAt⟩]
    orderItems := db.orderItems ++ newItemRows id.val itemIds o.items }

def updateItem (rows : List OrderItemRow) (item : OrderItem) :
    Except OrdersError (List OrderItemRow) :=
  if item.id = "" then .ok rows
  else if fitsDecimal 10 item.unitPrice then
    .ok (updateBy OrderItemRow.id item.id
      (fun r => { r with productName := item.productName, unitPrice := item.unitPrice }) rows)
  else .error .queryFailed

def updateItems (rows : List OrderItemRow) : List OrderItem → Except OrdersError (List OrderItemRow)
  | [] => .ok rows
  | item :: items =>
    match updateItem rows item with
    | .error e => .error e
    | .ok rows' => updateItems rows' items

/-- `TypeOrmOrderRepository.update` -/
def updateOrder (db : OrderDb) (o : Order) : Except OrdersError OrderDb :=
  if fitsDecimal 10 o.total then
    match updateItems db.orderItems o.items with
    | .error e => .error e
    | .ok rows => .ok { db with
        orders := updateBy OrderRow.id o.id
          (fun r => { r with status := o.status, total := o.total }) db.orders
        orderItems := rows }
  else .error .queryFailed

/-! ## sagas -/

/-- `findByOrderIdWithLock` -/
def findSaga (db : OrderDb) (orderId : String) : Option Saga :=
  selectBy Saga.orderId orderId db.sagas

/-- `findByIdSkipLocked`, on a row that no other transaction holds -/
def findSagaRunning (db : OrderDb) (id : String) : Option Saga :=
  db.sagas.find? fun s => decide (s.id = id) && decide (s.status = .running)

def isStuck (now : Nat) (s : Saga) : Bool :=
  decide (s.status = .running) &&
    match s.nextRetryAt with
    | some t => decide (t ≤ now)
    | none => false

def findStuck (q : RowOrder Saga) (db : OrderDb) (now limit : Nat) : List Saga :=
  (q.apply (db.sagas.filter (isStuck now))).take limit

/-- the insert of a new saga; the database generates the id -/
def saveSaga (db : OrderDb) (id : Uuid) (s : Saga) : OrderDb :=
  { db with sagas := db.sagas ++ [{ s with id := id.val }] }

/-- the five columns that `TypeOrmSagaRepository.update` writes -/
def setSaga (s r : Saga) : Saga :=
  { r with
    currentStep := s.currentStep
    status := s.status
    retryCount := s.retryCount
    lastError := s.lastError
    nextRetryAt := s.nextRetryAt }

def updateSaga (db : OrderDb) (s : Saga) : OrderDb :=
  { db with sagas := updateBy Saga.id s.id (setSaga s) db.sagas }

/-! ## outbox -/

def write (db : OrderDb) (g : RowDefaults) (aggregateId : String) (topic : Topic) (key : String)
    (payload : Payload) : OrderDb :=
  { db with outbox := db.outbox ++ [OutboxRow.write g aggregateId topic key payload] }

/-! ## what an update of items leaves alone -/

/-- the columns of an item row that no update writes -/
def core (r : OrderItemRow) : String × String × String × Int :=
  (r.id, r.orderId, r.productId, r.quantity)

theorem updateItem_core {rows rows' : List OrderItemRow} {item : OrderItem}
    (h : updateItem rows item = .ok rows') : rows'.map core = rows.map core := by
  unfold updateItem at h
  split at h
  · cases h; rfl
  · split at h
    · cases h
      apply map_updateBy
      intro _
      rfl
    · cases h

theorem updateItems_core {items : List OrderItem} {rows rows' : List OrderItemRow}
    (h : updateItems rows items = .ok rows') : rows'.map core = rows.map core := by
  induction items generalizing rows with
  | nil => cases h; rfl
  | cons item items ih =>
    unfold updateItems at h
    cases h1 : updateItem rows item with
    | error e => rw [h1] at h; cases h
    | ok r =>
      rw [h1] at h
      rw [ih h, updateItem_core h1]

/-- rows that are none of the updated items stay as they are -/
theorem updateItems_frame {items : List OrderItem} {rows rows' : List OrderItemRow}
    (h : updateItems rows items = .ok rows') (P : OrderItemRow → Bool)
    (hP : ∀ r r' : OrderItemRow, core r = core r' → P r = P r')
    (hout : ∀ r ∈ rows, P r = true → ∀ i ∈ items, i.id ≠ r.id) :
    rows'.filter P = rows.filter P := by
  induction items generalizing rows with
  | nil => cases h; rfl
  | cons item items ih =>
    unfold updateItems at h
    cases h1 : updateItem rows item with
    | error e => rw [h1] at h; cases h
    | ok mid =>
      rw [h1] at h
      have hmid : mid.filter P = rows.filter P := by
        unfold updateItem at h1
        split at h1
        · cases h1; rfl
        · split at h1
          · cases h1
            unfold updateBy
            rw [List.filter_map]
            have hcomp : ∀ r ∈ rows, (P ∘ fun r : OrderItemRow => if r.id = item.id then
                { r with productName := item.productName, unitPrice := item.unitPrice } else r) r
                = P r := by
              intro r _
              by_cases hr : r.id = item.id
              · simp only [Function.comp, if_pos hr]
                exact hP _ _ rfl
              · simp only [Function.comp, if_neg hr]
            rw [List.filter_congr hcomp]
            conv_rhs => rw [← List.map_id (rows.filter P)]
            apply List.map_congr_left
            intro r hr
            obtain ⟨hmem, hPr⟩ := List.mem_filter.mp hr
            rw [if_neg (fun e => hout r hmem hPr item List.mem_cons_self e.symm), id]
          · cases h1
      rw [ih h ?_, hmid]
      intro r hr hPr i hi
      have hr' : r ∈ rows.filter P := by
        rw [← hmid]
        exact List.mem_filter.mpr ⟨hr, hPr⟩
      exact hout r (List.mem_filter.mp hr').1 hPr i (List.mem_cons_of_mem _ hi)

/-- the (product, quantity) lines of an order, as its item rows hold them -/
def linesOf (db : OrderDb) (orderId : String) : List LineItem :=
  (db.orderItems.filter fun i => decide (i.orderId = orderId)).map fun i => ⟨i.productId, i.quantity⟩

/-- the lines are read off the columns that no update writes -/
theorem linesOf_core {db db' : OrderDb} (h : db'.orderItems.map core = db.orderItems.map core)
    (o : String) : db'.linesOf o = db.linesOf o := by
  have key : ∀ l : List OrderItemRow,
      (l.filter fun i => decide (i.orderId = o)).map (fun i => (⟨i.productId, i.quantity⟩ : LineItem))
        = ((l.map core).filter fun c => decide (c.2.1 = o)).map fun c => ⟨c.2.2.1, c.2.2.2⟩ := by
    intro l
    rw [List.filter_map, List.map_map]
    rfl
  show (List.filter _ db'.orderItems).map _ = (List.filter _ db.orderItems).map _
  rw [key, key, h]

theorem findSagaRunning_some {db : OrderDb} {id : String} {s : Saga}
    (h : db.findSagaRunning id = some s) : s ∈ db.sagas ∧ s.id = id ∧ s.status = .running := by
  unfold findSagaRunning at h
  have h2 := List.find?_some h
  rw [Bool.and_eq_true, decide_eq_true_eq, decide_eq_true_eq] at h2
  exact ⟨List.mem_of_find?_eq_some h, h2⟩

theorem isStuck_iff {now : Nat} {s : Saga} :
    isStuck now s = true ↔ s.status = .running ∧ ∃ t, s.nextRetryAt = some t ∧ t ≤ now := by
  unfold isStuck
  cases h : s.nextRetryAt <;> simp

/-- every saga of the batch is running and overdue -/
theorem findStuck_mem {q : RowOrder Saga} {db : OrderDb} {now limit : Nat} {s : Saga}
    (h : s ∈ db.findStuck q now limit) : s ∈ db.sagas ∧ isStuck now s = true := by
  unfold findStuck at h
  have h1 := (q.perm _).mem_iff.mp (List.mem_of_mem_take h)
  exact List.mem_filter.mp h1

end OrderDb

end Shop
