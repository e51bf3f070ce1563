import Shop.Shared.Idempotency
import Mathlib.Algebra.BigOperators.Group.List.Basic

/-!
# product-service

`products.service.ts` and `products-saga.controller.ts`: the catalogue with its stock, and the two
handlers of the saga.  Every handler is the body of one database transaction.

* `reserveItems t items`      the loop of `reserveStock`; when it throws, the lines before the one
                              that failed have been written, and the caller's transaction keeps them;
* `releaseItems t items`      the loop of `releaseStock`;
* `handleReserveStock`, `handleReleaseStock`   the handlers, replay of a recorded reply included;
* `create`, `update`, `remove`, `reserveStock`   the HTTP endpoints that write.
-/

set_option linter.unusedSectionVars false

namespace Shop
open Lib

structure Product where
  id : String
  name : String
  description : Option String
  price : Int
  stock : Int
  isActive : Bool
  createdAt : Nat
deriving DecidableEq, Repr

/-- what the endpoints answer with has the fields of the row -/
abbrev ProductResult := Product

def ProductsService.toResult (product : Product) : ProductResult where
  id := product.id
  name := product.name
  description := product.description
  price := product.price
  stock := product.stock
  isActive := product.isActive
  createdAt := product.createdAt

inductive ProductsError where
  | productNotFound (id : String)
  | insufficientStock (productId : String) (requested available : Int)
  -- the database rejected a statement
  | queryFailed
deriving DecidableEq, Repr

def ProductsError.message : ProductsError → String
  | .productNotFound id => "Product " ++ id ++ " not found"
  | .insufficientStock productId requested available =>
    "Insufficient stock for product " ++ productId ++ ": requested " ++ toString requested ++
      ", available " ++ toString available
  | .queryFailed => "query failed"

/-! ## stock -/

/-- `findOne` by id among the active products -/
def findActive (id : String) (t : List Product) : Option Product :=
  t.find? fun p => decide (p.id = uuidOf id) && p.isActive

def Product.withStock (n : Int) (p : Product) : Product := { p with stock := n }

def Product.addStock (n : Int) (p : Product) : Product := { p with stock := p.stock + n }

def Product.deactivate (p : Product) : Product := { p with isActive := false }

theorem Product.withStock_id (n : Int) (p : Product) : (p.withStock n).id = p.id := rfl
theorem Product.addStock_id (n : Int) (p : Product) : (p.addStock n).id = p.id := rfl

/-- `save` of a product whose stock has changed -/
def setStock (id : String) (stock : Int) (t : List Product) : List Product :=
  updateBy Product.id id (Product.withStock stock) t

/-- one turn of the loop of `reserveStock`: the row that is saved -/
def reserveRow (t : List Product) (item : LineItem) : Except ProductsError Product :=
  match findActive item.productId t with
  | none => .error (.productNotFound item.productId)
  | some product =>
    if product.stock < item.quantity then
      .error (.insufficientStock item.productId item.quantity product.stock)
    else .ok (product.withStock (product.stock - item.quantity))

def reservedItem (item : LineItem) (product : Product) : OrderCreatedEventItem :=
  ⟨product.id, product.name, item.quantity, product.price⟩

def reserveItem (t : List Product) (item : LineItem) :
    Except ProductsError (List Product × OrderCreatedEventItem) :=
  match reserveRow t item with
  | .error e => .error e
  | .ok product => .ok (setStock product.id product.stock t, reservedItem item product)

/-- the loop of `reserveStock`: the table it leaves behind, and its result -/
def reserveItems (t : List Product) :
    List LineItem → List Product × Except ProductsError (List OrderCreatedEventItem)
  | [] => (t, .ok [])
  | item :: items =>
    match reserveItem t item with
    | .error e => (t, .error e)
    | .ok (t', reserved) =>
      match reserveItems t' items with
      | (t'', .error e) => (t'', .error e)
      | (t'', .ok rest) => (t'', .ok (reserved :: rest))

/-- `increment`, whether the product is active or not -/
def releaseItem (t : List Product) (item : LineItem) : List Product :=
  updateBy Product.id item.product (Product.addStock item.quantity) t

def releaseItems (t : List Product) (items : List LineItem) : List Product :=
  items.foldl releaseItem t

/-! ## the handlers -/

structure ProductDb where
  products : List Product
  idempotencyKeys : List IdempotencyKey
  outbox : List OutboxRow
deriving DecidableEq, Repr

namespace ProductDb

def empty : ProductDb := ⟨[], [], []⟩

def write (db : ProductDb) (g : RowDefaults) (orderId : String) (r : StoredResult) : ProductDb :=
  { db with outbox := db.outbox ++ [OutboxRow.write g orderId r.replyTopic orderId r.replyPayload] }

/-- the reply to a reserve-stock command, from what the loop returned -/
def reserveReply (command : ReserveStockCommand) :
    Except ProductsError (List OrderCreatedEventItem) → StoredResult
  | .ok items =>
    { replyTopic := .stockReserved
      replyPayload := .stockReserved
        { commandId := command.commandId
          orderId := command.orderId
          correlationId := command.correlationId
          items := items
          total := (items.map fun i => i.unitPrice * i.quantity).sum } }
  | .error e =>
    { replyTopic := .stockReservationFailed
      replyPayload := .stockReservationFailed
        { commandId := command.commandId
          orderId := command.orderId
          correlationId := command.correlationId
          reason := e.message } }

def releaseReply (command : ReleaseStockCommand) : StoredResult where
  replyTopic := .stockReleased
  replyPayload := .stockReleased
    { commandId := command.commandId
      orderId := command.orderId
      correlationId := command.correlationId }

def handleReserveStock (g : RowDefaults) (db : ProductDb) (command : ReserveStockCommand) :
    ProductDb :=
  match findKey command.commandId db.idempotencyKeys with
  | some existing => db.write g command.orderId existing
  | none =>
    let (products, result) := reserveItems db.products command.items
    let reply := reserveReply command result
    let db := { db with
      products := products
      idempotencyKeys := saveKey command.commandId reply db.idempotencyKeys }
    db.write g command.orderId reply

def handleReleaseStock (g : RowDefaults) (db : ProductDb) (command : ReleaseStockCommand) :
    ProductDb :=
  match findKey command.commandId db.idempotencyKeys with
  | some existing => db.write g command.orderId existing
  | none =>
    let reply := releaseReply command
    let db := { db with
      products := releaseItems db.products command.items
      idempotencyKeys := saveKey command.commandId reply db.idempotencyKeys }
    db.write g command.orderId reply

/-! ## the endpoints -/

structure CreateProductInput where
  name : String
  description : Option String
  price : Int
  stock : Int

/-- a field that is absent keeps its value; `@IsOptional()` lets an explicit null through -/
structure UpdateProductInput where
  name : Option (Option String)
  description : Option (Option String)
  price : Option (Option Int)
  stock : Option (Option Int)
deriving DecidableEq, Repr

/-- the columns `price` and `stock` take the values -/
def CreateProductInput.storable (input : CreateProductInput) : Bool :=
  fitsDecimal 10 input.price && fitsInt input.stock

/-- the same for the fields that are given; `description` is the only column that takes null -/
def UpdateProductInput.storable (input : UpdateProductInput) : Bool :=
  decide (input.name ≠ some none) && input.price.all (fun price => price.any (fitsDecimal 10)) &&
    input.stock.all (fun stock => stock.any fitsInt)

def create (g : RowDefaults) (db : ProductDb) (input : CreateProductInput) :
    Except ProductsError ProductDb :=
  if g.id.val ∈ db.products.map Product.id ∨ input.storable = false then .error .queryFailed
  else .ok { db with products := db.products ++
    [⟨g.id.val, input.name, input.description, input.price, input.stock, true, g.now⟩] }

/-- `Object.assign`, of fields that are not null where their column takes none -/
def assign (input : UpdateProductInput) (p : Product) : Product :=
  { p with
    name := input.name.join.getD p.name
    description := input.description.getD p.description
    price := input.price.join.getD p.price
    stock := input.stock.join.getD p.stock }

def update (db : ProductDb) (id : String) (input : UpdateProductInput) :
    Except ProductsError ProductDb :=
  match findActive id db.products with
  | none => .error (.productNotFound id)
  | some product =>
    if input.storable then
      .ok { db with
        products := updateBy Product.id product.id (fun _ => assign input product) db.products }
    else .error .queryFailed

def remove (db : ProductDb) (id : String) : Except ProductsError ProductDb :=
  match findActive id db.products with
  | none => .error (.productNotFound id)
  | some product =>
    .ok { db with products := updateBy Product.id product.id Product.deactivate db.products }

/-- `reserveStock` in a transaction of its own -/
def reserveStock (db : ProductDb) (items : List LineItem) : Except ProductsError ProductDb :=
  match reserveItems db.products items with
  | (_, .error e) => .error e
  | (products, .ok _) => .ok { db with products := products }

end ProductDb

/-! ## what the loops do to the stock -/

/-- the stock of a product, nothing if there is none -/
def stockOf (t : List Product) (id : String) : Int :=
  match selectBy Product.id id t with
  | some p => p.stock
  | none => 0

/-- how many of a product a list of lines asks for -/
def quantityOf (items : List LineItem) (id : String) : Int :=
  ((items.filter fun i => decide (i.product = id)).map LineItem.quantity).sum

theorem quantityOf_nil (id : String) : quantityOf [] id = 0 := rfl

theorem quantityOf_cons (i : LineItem) (items : List LineItem) (id : String) :
    quantityOf (i :: items) id = (if i.product = id then i.quantity else 0) +
      quantityOf items id := by
  unfold quantityOf
  by_cases h : i.product = id <;> simp [h]

theorem quantityOf_perm {xs ys : List LineItem} (h : xs.Perm ys) (id : String) :
    quantityOf xs id = quantityOf ys id := List.Perm.sum_eq ((h.filter _).map _)

theorem findActive_some {id : String} {t : List Product} {p : Product}
    (h : findActive id t = some p) : p ∈ t ∧ p.id = uuidOf id ∧ p.isActive = true := by
  have h2 := List.find?_some h
  rw [Bool.and_eq_true, decide_eq_true_eq] at h2
  exact ⟨List.mem_of_find?_eq_some h, h2⟩

theorem stockOf_mem {t : List Product} (hnd : (t.map Product.id).Nodup) {p : Product} (h : p ∈ t) :
    stockOf t p.id = p.stock := by
  unfold stockOf
  rw [selectBy_mem hnd h]

theorem setStock_ids (id : String) (n : Int) (t : List Product) :
    (setStock id n t).map Product.id = t.map Product.id := map_updateBy _ (Product.withStock_id n) t

theorem stockOf_setStock {t : List Product} (hnd : (t.map Product.id).Nodup) {p : Product}
    (h : p ∈ t) (n : Int) (id : String) :
    stockOf (setStock p.id n t) id = if p.id = id then n else stockOf t id := by
  unfold stockOf setStock
  by_cases he : p.id = id
  · rw [← he, if_pos rfl, selectBy_updateBy_self (Product.withStock_id n), selectBy_mem hnd h]
    rfl
  · rw [if_neg he, selectBy_updateBy_ne (Product.withStock_id n) (fun e => he e.symm)]

theorem reserveRow_ok {t : List Product} {i : LineItem} {r : Product} (h : reserveRow t i = .ok r) :
    ∃ p ∈ t, p.id = i.product ∧ r = p.withStock (p.stock - i.quantity) := by
  unfold reserveRow at h
  split at h
  · cases h
  · rename_i p hp
    obtain ⟨hm, hid, _⟩ := findActive_some hp
    split at h
    · cases h
    · cases h
      exact ⟨p, hm, hid, rfl⟩

theorem reserveItem_ok {t t' : List Product} {i : LineItem} {r : OrderCreatedEventItem}
    (h : reserveItem t i = .ok (t', r)) :
    ∃ p ∈ t, p.id = i.product ∧ t' = setStock p.id (p.stock - i.quantity) t := by
  unfold reserveItem at h
  split at h
  · cases h
  · rename_i row hrow
    cases h
    obtain ⟨p, hm, hid, rfl⟩ := reserveRow_ok hrow
    exact ⟨p, hm, hid, rfl⟩

theorem reserveItem_ids {t t' : List Product} {i : LineItem} {r : OrderCreatedEventItem}
    (h : reserveItem t i = .ok (t', r)) :
    t'.map Product.id = t.map Product.id ∧ i.product ∈ t.map Product.id := by
  obtain ⟨p, hm, hid, rfl⟩ := reserveItem_ok h
  exact ⟨setStock_ids _ _ _, hid ▸ List.mem_map_of_mem hm⟩

/-- a line that is reserved takes its quantity off its product, and nothing else -/
theorem reserveItem_stock {t t' : List Product} (hnd : (t.map Product.id).Nodup) {i : LineItem}
    {r : OrderCreatedEventItem} (h : reserveItem t i = .ok (t', r)) (id : String) :
    stockOf t' id = stockOf t id - if i.product = id then i.quantity else 0 := by
  obtain ⟨p, hm, hid, rfl⟩ := reserveItem_ok h
  rw [stockOf_setStock hnd hm, ← hid]
  by_cases he : p.id = id
  · rw [if_pos he, if_pos he, ← he, stockOf_mem hnd hm]
  · rw [if_neg he, if_neg he, Int.sub_zero]

theorem reserveItems_ids (items : List LineItem) (t : List Product) :
    (reserveItems t items).1.map Product.id = t.map Product.id := by
  induction items generalizing t with
  | nil => rfl
  | cons i items ih =>
    unfold reserveItems
    cases h : reserveItem t i with
    | error e => rfl
    | ok p =>
      obtain ⟨t', r⟩ := p
      have h1 := ih t'
      rw [(reserveItem_ids h).1] at h1
      show (match reserveItems t' items with
        | (t'', .error e) => (t'', Except.error e)
        | (t'', .ok rest) => (t'', Except.ok (r :: rest))).1.map Product.id = _
      split <;> rename_i hr <;> rw [hr] at h1 <;> exact h1

/-- **A reservation takes the quantity of every line off the stock of its product.** -/
theorem reserveItems_stock {items : List LineItem} {t t' : List Product}
    {evs : List OrderCreatedEventItem} (hnd : (t.map Product.id).Nodup)
    (h : reserveItems t items = (t', .ok evs)) :
    (∀ id, stockOf t' id = stockOf t id - quantityOf items id) ∧
      ∀ i ∈ items, i.product ∈ t.map Product.id := by
  induction items generalizing t evs with
  | nil =>
    cases h
    exact ⟨fun id => by rw [quantityOf_nil, Int.sub_zero], fun i hi => absurd hi List.not_mem_nil⟩
  | cons i items ih =>
    unfold reserveItems at h
    cases h1 : reserveItem t i with
    | error e => rw [h1] at h; cases h
    | ok p =>
      obtain ⟨t₁, r⟩ := p
      rw [h1] at h
      cases h2 : reserveItems t₁ items with
      | mk t₂ res =>
        cases res with
        | error e => simp only [h2] at h; cases h
        | ok rest =>
          simp only [h2] at h
          cases h
          obtain ⟨hids, hmem⟩ := reserveItem_ids h1
          obtain ⟨hstock, hin⟩ := ih (hids ▸ hnd) h2
          constructor
          · intro id
            rw [hstock id, reserveItem_stock hnd h1 id, quantityOf_cons]
            omega
          · intro j hj
            rcases List.mem_cons.mp hj with rfl | hj
            · exact hmem
            · exact hids ▸ hin j hj

theorem releaseItems_ids (items : List LineItem) (t : List Product) :
    (releaseItems t items).map Product.id = t.map Product.id := by
  induction items generalizing t with
  | nil => rfl
  | cons i items ih =>
    show (releaseItems (releaseItem t i) items).map Product.id = _
    rw [ih]
    exact map_updateBy _ (Product.addStock_id i.quantity) t

theorem releaseItem_stock {t : List Product} {i : LineItem}
    (hm : i.product ∈ t.map Product.id) (id : String) :
    stockOf (releaseItem t i) id = stockOf t id + if i.product = id then i.quantity else 0 := by
  unfold stockOf releaseItem
  by_cases he : i.product = id
  · rw [← he, if_pos rfl, selectBy_updateBy_self (Product.addStock_id i.quantity)]
    cases h : selectBy Product.id i.product t with
    | none =>
      obtain ⟨p, hp, hid⟩ := List.mem_map.mp hm
      exact absurd hid (selectBy_none.mp h p hp)
    | some p => rfl
  · rw [if_neg he, Int.add_zero,
      selectBy_updateBy_ne (Product.addStock_id i.quantity) (fun e => he e.symm)]

/-- **A release puts the quantity of every line back, on products that exist.** -/
theorem releaseItems_stock {items : List LineItem} {t : List Product}
    (hm : ∀ i ∈ items, i.product ∈ t.map Product.id) (id : String) :
    stockOf (releaseItems t items) id = stockOf t id + quantityOf items id := by
  induction items generalizing t with
  | nil => rw [quantityOf_nil, Int.add_zero]; rfl
  | cons i items ih =>
    show stockOf (releaseItems (releaseItem t i) items) id = _
    have hids : (releaseItem t i).map Product.id = t.map Product.id :=
      map_updateBy _ (Product.addStock_id i.quantity) t
    rw [ih (fun j hj => hids ▸ hm j (List.mem_cons_of_mem _ hj)),
      releaseItem_stock (hm i List.mem_cons_self), quantityOf_cons]
    omega

/-! ## samples -/

def Product.pens : Product := ⟨(Uuid.sample 'a').val, "Pen", none, 250, 5, true, 0⟩

def Product.ink : Product := ⟨(Uuid.sample 'b').val, "Ink", none, 400, 3, true, 0⟩

end Shop
