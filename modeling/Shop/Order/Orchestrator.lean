import Shop.Order.Repository

/-!
# The use case that creates an order, and the saga orchestrator

`create-order.use-case.ts` and `saga-orchestrator.service.ts`.  Every function is the body of one
database transaction: `.ok db'` commits `db'`, `.error` rolls it back.  The clock, the generated
outbox id (`RowDefaults`) and the order of the item rows (`RowOrder`) are arguments.

* `createOrder`                     `CreateOrderUseCase.execute`;
* `onStockReserved`, `onStockReservationFailed`, `onPaymentProcessed`, `onPaymentFailed`,
  `onStockReleased`, and `handleReply`, which picks the one that is subscribed to the reply;
* `retrySaga`                       the transaction of `retryStuckSagas` for one saga.
-/

namespace Shop
open Lib

/-! ## creating an order -/

structure CreateOrderInput where
  userId : String
  userEmail : String
  correlationId : String
  items : List LineItem

/-- the ids that the database generates for a new order -/
structure NewIds where
  order : Uuid
  items : List Uuid
  saga : Uuid

/-- no primary key is violated -/
def NewIds.fresh (ids : NewIds) (db : OrderDb) (input : CreateOrderInput) : Bool :=
  decide (ids.order.val ∉ db.orders.map OrderRow.id) &&
  decide (ids.saga.val ∉ db.sagas.map Saga.id) &&
  decide (ids.items.length = input.items.length) &&
  decide ((db.orderItems.map OrderItemRow.id ++ ids.items.map Uuid.val).Nodup)

namespace OrderDb

/-- `CreateOrderUseCase.execute` -/
def createOrder (g : RowDefaults) (ids : NewIds) (db : OrderDb) (input : CreateOrderInput) :
    Except OrdersError OrderDb :=
  if ids.fresh db input then
    let db := db.saveOrder ids.order ids.items
      (Order.create g.now input.userId input.userEmail input.items)
    let db := db.saveSaga ids.saga (Saga.create g.now ids.order.val input.correlationId)
    let command : ReserveStockCommand :=
      { commandId := ids.saga.val
        orderId := ids.order.val
        correlationId := input.correlationId
        items := input.items }
    .ok (db.write g ids.order.val .reserveStock ids.order.val (.reserveStock command))
  else .error .queryFailed

/-! ## the reply handlers -/

def loadSagaForStep (db : OrderDb) (orderId : String) (step : SagaStep) : Option Saga :=
  match db.findSaga orderId with
  | some saga => if saga.canHandle step then some saga else none
  | none => none

/-- `orderRepo.findById`, where a missing order throws -/
def getOrder (q : RowOrder OrderItemRow) (db : OrderDb) (id : String) : Except OrdersError Order :=
  match db.findOrder q id with
  | some order => .ok order
  | none => .error (.orderNotFound id)

def itemsOf (order : Order) : List LineItem := order.items.map fun i => ⟨i.productId, i.quantity⟩

def performCancellation (g : RowDefaults) (q : RowOrder OrderItemRow) (db : OrderDb) (saga : Saga)
    (orderId reason : String) : Except OrdersError OrderDb := do
  let order ← db.getOrder q orderId
  let cancelled ← order.compensate
  let db ← db.updateOrder cancelled
  let db := db.updateSaga (saga.fail reason)
  let cancelledEvent : OrderCancelledEvent :=
    { orderId := order.id
      userId := order.userId
      userEmail := order.userEmail
      correlationId := saga.correlationId
      reason := reason
      cancelledAt := g.now }
  return db.write g orderId .orderCancelled orderId (.orderCancelled cancelledEvent)

def onStockReserved (g : RowDefaults) (q : RowOrder OrderItemRow) (db : OrderDb)
    (event : StockReservedEvent) : Except OrdersError OrderDb :=
  match db.loadSagaForStep event.orderId .reserveStock with
  | none => .ok db
  | some saga => do
    let order ← db.getOrder q event.orderId
    let confirmed ← order.confirm event.total event.items
    let db ← db.updateOrder confirmed
    let advanced ← saga.advance g.now
    let db := db.updateSaga advanced
    let command : ProcessPaymentCommand :=
      { commandId := payId saga.id
        orderId := event.orderId
        correlationId := saga.correlationId
        userId := order.userId
        amount := event.total }
    return db.write g event.orderId .processPayment event.orderId (.processPayment command)

def onStockReservationFailed (g : RowDefaults) (q : RowOrder OrderItemRow) (db : OrderDb)
    (event : StockReservationFailedEvent) : Except OrdersError OrderDb :=
  match db.loadSagaForStep event.orderId .reserveStock with
  | none => .ok db
  | some saga => db.performCancellation g q saga event.orderId event.reason

def onPaymentProcessed (g : RowDefaults) (q : RowOrder OrderItemRow) (db : OrderDb)
    (event : PaymentProcessedEvent) : Except OrdersError OrderDb :=
  match db.loadSagaForStep event.orderId .processPayment with
  | none => .ok db
  | some saga => do
    let advanced ← saga.advance g.now
    let db := db.updateSaga advanced
    let order ← db.getOrder q event.orderId
    let confirmedEvent : OrderConfirmedEvent :=
      { orderId := order.id
        userId := order.userId
        userEmail := order.userEmail
        correlationId := saga.correlationId
        items := order.items.map fun i => ⟨i.productId, i.productName, i.quantity, i.unitPrice⟩
        total := order.total
        confirmedAt := g.now }
    return db.write g event.orderId .orderConfirmed event.orderId (.orderConfirmed confirmedEvent)

def onPaymentFailed (g : RowDefaults) (q : RowOrder OrderItemRow) (db : OrderDb)
    (event : PaymentFailedEvent) : Except OrdersError OrderDb :=
  match db.loadSagaForStep event.orderId .processPayment with
  | none => .ok db
  | some saga => do
    let db := db.updateSaga (saga.startCompensation g.now event.reason)
    let order ← db.getOrder q event.orderId
    let command : ReleaseStockCommand :=
      { commandId := releaseId saga.id
        orderId := event.orderId
        correlationId := saga.correlationId
        items := itemsOf order }
    return db.write g event.orderId .releaseStock event.orderId (.releaseStock command)

def onStockReleased (g : RowDefaults) (q : RowOrder OrderItemRow) (db : OrderDb)
    (event : StockReleasedEvent) : Except OrdersError OrderDb :=
  match db.loadSagaForStep event.orderId .releaseStock with
  | none => .ok db
  | some saga =>
    db.performCancellation g q saga event.orderId (saga.lastError.getD "Payment failed")

/-! ## the retry job -/

def resendCommand (g : RowDefaults) (db : OrderDb) (saga : Saga) (order : Order) : OrderDb :=
  match saga.currentStep with
  | .reserveStock =>
    let command : ReserveStockCommand :=
      { commandId := saga.id
        orderId := saga.orderId
        correlationId := saga.correlationId
        items := itemsOf order }
    db.write g saga.orderId .reserveStock saga.orderId (.reserveStock command)
  | .processPayment =>
    let command : ProcessPaymentCommand :=
      { commandId := payId saga.id
        orderId := saga.orderId
        correlationId := saga.correlationId
        userId := order.userId
        amount := order.total }
    db.write g saga.orderId .processPayment saga.orderId (.processPayment command)
  | .releaseStock =>
    let command : ReleaseStockCommand :=
      { commandId := releaseId saga.id
        orderId := saga.orderId
        correlationId := saga.correlationId
        items := itemsOf order }
    db.write g saga.orderId .releaseStock saga.orderId (.releaseStock command)
  | _ => db

/-- the transaction of `retryStuckSagas` for the saga `sagaId` of its batch -/
def retrySaga (g : RowDefaults) (q : RowOrder OrderItemRow) (db : OrderDb) (sagaId : String) :
    Except OrdersError OrderDb :=
  match db.findSagaRunning sagaId with
  | none => .ok db
  | some freshSaga =>
    if freshSaga.hasExceededMaxRetries then
      .ok (db.updateSaga (freshSaga.fail "Max retries exceeded"))
    else do
      let db := db.updateSaga (freshSaga.scheduleRetry g.now)
      let order ← db.getOrder q freshSaga.orderId
      return db.resendCommand g freshSaga order

end OrderDb

/-! ## the replies -/

inductive ReplyEvent where
  | stockReserved (e : StockReservedEvent)
  | stockReservationFailed (e : StockReservationFailedEvent)
  | paymentProcessed (e : PaymentProcessedEvent)
  | paymentFailed (e : PaymentFailedEvent)
  | stockReleased (e : StockReleasedEvent)

inductive ReplyKind where
  | stockReserved | stockReservationFailed | paymentProcessed | paymentFailed | stockReleased
deriving DecidableEq, Repr

def ReplyEvent.kind : ReplyEvent → ReplyKind
  | .stockReserved _ => .stockReserved
  | .stockReservationFailed _ => .stockReservationFailed
  | .paymentProcessed _ => .paymentProcessed
  | .paymentFailed _ => .paymentFailed
  | .stockReleased _ => .stockReleased

def ReplyEvent.orderId : ReplyEvent → String
  | .stockReserved e => e.orderId
  | .stockReservationFailed e => e.orderId
  | .paymentProcessed e => e.orderId
  | .paymentFailed e => e.orderId
  | .stockReleased e => e.orderId

/-- the handler that `SagaReplyController` registers for the reply's topic -/
def OrderDb.handleReply (g : RowDefaults) (q : RowOrder OrderItemRow) (db : OrderDb) :
    ReplyEvent → Except OrdersError OrderDb
  | .stockReserved e => db.onStockReserved g q e
  | .stockReservationFailed e => db.onStockReservationFailed g q e
  | .paymentProcessed e => db.onPaymentProcessed g q e
  | .paymentFailed e => db.onPaymentFailed g q e
  | .stockReleased e => db.onStockReleased g q e

end Shop
