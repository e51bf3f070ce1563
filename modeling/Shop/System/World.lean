import Shop.Order.Phases
import Shop.Product.Service
import Shop.Payment.Service
import Shop.Shared.Outbox

/-!
# The three services and the messages between them

* `World`          the databases of order-, product- and payment-service, the messages that have
                   been published, and those that Kafka still has to deliver;
* `Action`         what can happen: the jobs of order-service, the relays of the three outboxes,
                   a delivery (of any message in flight, once more or for the last time), and what
                   the users do to the catalogue and to the wallets;
* `World.step`     what it does;
* `World.settled`  no row is unsent and no message is in flight;
* `executions w a` the command that a delivery handles, and what it measurably changes;
* `abandons w a`   the order whose saga is given up before its payment has been refused.

A delivery is one transaction of the consumer.  One that throws leaves the tables alone, and the
message goes to the dead letters.
-/

set_option linter.unusedSectionVars false

namespace Shop
open Lib

inductive Service where
  | order | product | payment
deriving DecidableEq, Repr

structure World where
  orders : OrderSystem
  products : ProductDb
  payments : PaymentDb
  published : List Message
  inflight : List Message

/-- what the databases generate during one delivery -/
structure DeliveryIds where
  outbox : Uuid
  payment : PaymentIds
  rows : RowOrder OrderItemRow

inductive Action where
  | order (a : OrderAction)
  | publish (service : Service) (row : Nat)
  | markPublished (service : Service) (row : Nat)
  | markFailed (service : Service) (row : Nat) (error : String)
  | deliver (index : Nat) (again : Bool) (ids : DeliveryIds)
  | createProduct (id : Uuid) (input : ProductDb.CreateProductInput)
  | updateProduct (id : String) (input : ProductDb.UpdateProductInput)
  | removeProduct (id : String)
  | reserveProducts (items : List LineItem)
  | userRegistered (walletId : Uuid) (initialBalance : Nat) (userId : String)
  | topUp (walletId : Uuid) (userId : String) (amount : Nat)

/-- the reply that order-service subscribes to under the topic of the message -/
def Message.reply : Message → Option ReplyEvent
  | ⟨.stockReserved, .stockReserved e⟩ => some (.stockReserved e)
  | ⟨.stockReservationFailed, .stockReservationFailed e⟩ => some (.stockReservationFailed e)
  | ⟨.paymentProcessed, .paymentProcessed e⟩ => some (.paymentProcessed e)
  | ⟨.paymentFailed, .paymentFailed e⟩ => some (.paymentFailed e)
  | ⟨.stockReleased, .stockReleased e⟩ => some (.stockReleased e)
  | _ => none

def OrderAction.isReply : OrderAction → Bool
  | .reply _ _ _ => true
  | _ => false

namespace World

def init (now : Nat) : World := ⟨OrderSystem.init now, ProductDb.empty, PaymentDb.empty, [], []⟩

def clock (w : World) : Nat := w.orders.clock

def outbox (w : World) : Service → List OutboxRow
  | .order => w.orders.db.outbox
  | .product => w.products.outbox
  | .payment => w.payments.outbox

/-- an update of one row of a service's outbox -/
def setRow (w : World) (service : Service) (row : Nat) (f : OutboxRow → OutboxRow) : World :=
  match service with
  | .order => { w with orders := { w.orders with db := { w.orders.db with
      outbox := w.orders.db.outbox.modify row f } } }
  | .product => { w with products := { w.products with outbox := w.products.outbox.modify row f } }
  | .payment => { w with payments := { w.payments with outbox := w.payments.outbox.modify row f } }

/-- the handler that is subscribed to the topic of the message -/
def handle (w : World) (ids : DeliveryIds) (m : Message) : World :=
  match m with
  | ⟨.reserveStock, .reserveStock c⟩ =>
    { w with products := w.products.handleReserveStock ⟨ids.outbox, w.clock⟩ c }
  | ⟨.releaseStock, .releaseStock c⟩ =>
    { w with products := w.products.handleReleaseStock ⟨ids.outbox, w.clock⟩ c }
  | ⟨.processPayment, .processPayment c⟩ =>
    { w with
      payments := commit w.payments
        (w.payments.handleProcessPayment ⟨ids.outbox, w.clock⟩ ids.payment c) }
  | m =>
    match m.reply with
    | some ev => { w with orders := w.orders.step (.reply ids.outbox ids.rows ev) }
    | none => w

def step (w : World) : Action → World
  -- a reply reaches order-service by delivery only
  | .order a => if a.isReply then w else { w with orders := w.orders.step a }
  | .publish service row =>
    match (w.outbox service)[row]? with
    | some r =>
      if r.due w.clock then
        { w with published := w.published ++ [r.message], inflight := w.inflight ++ [r.message] }
      else w
    | none => w
  | .markPublished service row =>
    match (w.outbox service)[row]? with
    | some r =>
      if r.due w.clock ∧ r.message ∈ w.published then
        w.setRow service row (OutboxRow.markPublished w.clock)
      else w
    | none => w
  | .markFailed service row error =>
    match (w.outbox service)[row]? with
    | some r =>
      if r.due w.clock then w.setRow service row (OutboxRow.markFailed w.clock error) else w
    | none => w
  | .deliver index again ids =>
    match w.inflight[index]? with
    | some m =>
      let w := if again then w else { w with inflight := w.inflight.eraseIdx index }
      w.handle ids m
    | none => w
  | .createProduct id input =>
    { w with products := commit w.products (w.products.create ⟨id, w.clock⟩ input) }
  | .updateProduct id input =>
    { w with products := commit w.products (w.products.update id input) }
  | .removeProduct id => { w with products := commit w.products (w.products.remove id) }
  | .reserveProducts items => { w with products := commit w.products (w.products.reserveStock items) }
  | .userRegistered walletId initialBalance userId =>
    { w with
      payments := commit w.payments
        (w.payments.handleUserRegistered walletId initialBalance userId) }
  | .topUp walletId userId amount =>
    { w with payments := commit w.payments (w.payments.topUp walletId userId amount) }

/-- every outbox row has been published, and every message has been delivered -/
def settled (w : World) : Prop :=
  w.inflight = [] ∧ ∀ service, ∀ r ∈ w.outbox service, r.status = .published

end World

/-! ## what the deliveries of commands do -/

inductive CommandKind where
  | reserveStock | releaseStock | processPayment
deriving DecidableEq, Repr

/-- one delivery of a command: whether its id was recorded, and by how much the stock of each product
(or, for a payment, the balance of each user) has changed -/
structure Execution where
  kind : CommandKind
  commandId : String
  orderId : String
  executed : Bool
  delta : String → Int

def stockDelta (w w' : World) (id : String) : Int :=
  stockOf w'.products.products id - stockOf w.products.products id

def balanceDelta (w w' : World) (userId : String) : Int :=
  balanceOf w'.payments.wallets userId - balanceOf w.payments.wallets userId

/-- the execution that the delivery of a message is -/
def executionOf (w w' : World) : Message → List Execution
  | ⟨.reserveStock, .reserveStock c⟩ =>
    [⟨.reserveStock, c.commandId, c.orderId,
      newKey c.commandId w.products.idempotencyKeys w'.products.idempotencyKeys, stockDelta w w'⟩]
  | ⟨.releaseStock, .releaseStock c⟩ =>
    [⟨.releaseStock, c.commandId, c.orderId,
      newKey c.commandId w.products.idempotencyKeys w'.products.idempotencyKeys, stockDelta w w'⟩]
  | ⟨.processPayment, .processPayment c⟩ =>
    [⟨.processPayment, c.commandId, c.orderId,
      newKey c.commandId w.payments.idempotencyKeys w'.payments.idempotencyKeys, balanceDelta w w'⟩]
  | _ => []

def executions (w : World) (a : Action) : List Execution :=
  match a with
  | .deliver index _ _ =>
    match w.inflight[index]? with
    | some m => executionOf w (w.step a) m
    | none => []
  | _ => []

/-! ## sagas that are given up -/

/-- the order whose saga a retry gives up at RESERVE_STOCK or PROCESS_PAYMENT -/
def abandons (w : World) : Action → List String
  | .order a => ((gaveUp w.orders a).filter fun s => decide (s.currentStep ≠ .releaseStock)).map
      Saga.orderId
  | _ => []

/-- a reply of a command has been recorded under its id -/
def Recorded (t : List IdempotencyKey) (commandId : String) (topic : Topic) : Prop :=
  ∃ r ∈ t, r.key = commandId ∧ r.result.replyTopic = topic

instance (t : List IdempotencyKey) (commandId : String) (topic : Topic) :
    Decidable (Recorded t commandId topic) := inferInstanceAs (Decidable (∃ r ∈ t, _ ∧ _))

end Shop
