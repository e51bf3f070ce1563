import Mathlib.Data.Rat.Floor
import Mathlib.Data.String.Basic
import Mathlib.Data.List.Basic

/-!
# What the services send each other

`packages/shared`: the Kafka topics, the commands of the orchestrator, the replies of the
participants and the two domain events, with the tables through which all of them travel
(`OutboxRow`, and `StoredResult`, the reply an idempotency key remembers).

Amounts are whole cents (the `decimal(.., 2)` columns), ids are strings.  A generated id is a
`Uuid`: 36 characters, which is why the three command ids that are derived from one saga id, and
those derived from two, never coincide.  A client may spell an id in capital letters (`uuidOf`).
-/

namespace Shop

/-- `KAFKA_TOPICS` -/
inductive Topic where
  | reserveStock | releaseStock | processPayment
  | stockReserved | stockReservationFailed | stockReleased | paymentProcessed | paymentFailed
  | orderConfirmed | orderCancelled
  | pdfGenerated | userRegistered
deriving DecidableEq, Repr

/-! ## generated ids -/

/-- a `uuid` column takes a text in any case, and answers in lower case -/
def uuidOf (text : String) : String := text.toLower

theorem toLower_toLower (c : Char) : c.toLower.toLower = c.toLower := by
  unfold Char.toLower
  grind

theorem uuidOf_uuidOf (text : String) : uuidOf (uuidOf text) = uuidOf text := by
  have hchar : Char.toLower ∘ Char.toLower = Char.toLower := funext toLower_toLower
  unfold uuidOf String.toLower
  rw [String.map_map, hchar]

/-- `@PrimaryGeneratedColumn('uuid')` -/
structure Uuid where
  val : String
  len : val.length = 36
  lower : uuidOf val = val

/-- the ids that concrete runs use, by a hexadecimal digit -/
def Uuid.sample (c : Char) : Uuid where
  val := String.ofList (List.replicate 8 c.toLower) ++ "-0000-4000-8000-000000000000"
  len := by
    rw [String.length_append, String.length_ofList, List.length_replicate]
    decide
  lower := by
    apply String.toList_injective
    unfold uuidOf String.toLower
    rw [String.toList_map, String.toList_append, String.toList_ofList, List.map_append,
      List.map_replicate, toLower_toLower]
    exact congrArg _ (by decide)

/-- `${saga.id}-pay` -/
def payId (sagaId : String) : String := sagaId ++ "-pay"

/-- `${saga.id}-release` -/
def releaseId (sagaId : String) : String := sagaId ++ "-release"

theorem payId_inj {a b : String} : payId a = payId b ↔ a = b := String.append_left_inj _

theorem releaseId_inj {a b : String} : releaseId a = releaseId b ↔ a = b :=
  String.append_left_inj _

/-- a saga id and a release command's id are never the same string -/
theorem ne_releaseId {a b : String} (ha : a.length = 36) (hb : b.length = 36) :
    a ≠ releaseId b := by
  intro h
  have hl : a.length = (releaseId b).length := by rw [← h]
  have hr : (releaseId b).length = 44 := by
    show (b ++ "-release").length = 44
    rw [String.length_append, hb]
    decide
  omega

/-! ## amounts -/

/-- a value that a `decimal(precision, 2)` column takes, in cents -/
def fitsDecimal (precision : Nat) (cents : Int) : Bool :=
  decide (-10 ^ precision < cents) && decide (cents < 10 ^ precision)

theorem fitsDecimal_iff {n : Nat} {cents : Int} :
    fitsDecimal n cents = true ↔ -10 ^ n < cents ∧ cents < 10 ^ n := by
  unfold fitsDecimal
  rw [Bool.and_eq_true, decide_eq_true_eq, decide_eq_true_eq]

/-- a value that an `int` column takes -/
def fitsInt (n : Int) : Bool := decide (-2 ^ 31 ≤ n) && decide (n < 2 ^ 31)

theorem fitsInt_iff {n : Int} : fitsInt n = true ↔ -2 ^ 31 ≤ n ∧ n < 2 ^ 31 := by
  unfold fitsInt
  rw [Bool.and_eq_true, decide_eq_true_eq, decide_eq_true_eq]

/-! ## commands -/

/-- a line, with the product id as the client has spelled it -/
structure LineItem where
  productId : String
  quantity : Int
deriving DecidableEq, Repr

/-- the product that the line names -/
def LineItem.product (i : LineItem) : String := uuidOf i.productId

structure ReserveStockCommand where
  commandId : String
  orderId : String
  correlationId : String
  items : List LineItem
deriving DecidableEq, Repr

structure ReleaseStockCommand where
  commandId : String
  orderId : String
  correlationId : String
  items : List LineItem
deriving DecidableEq, Repr

structure ProcessPaymentCommand where
  commandId : String
  orderId : String
  correlationId : String
  userId : String
  amount : Int
deriving DecidableEq, Repr

/-! ## replies -/

structure OrderCreatedEventItem where
  productId : String
  name : String
  quantity : Int
  unitPrice : Int
deriving DecidableEq, Repr

structure StockReservedEvent where
  commandId : String
  orderId : String
  correlationId : String
  items : List OrderCreatedEventItem
  total : Int
deriving DecidableEq, Repr

structure StockReservationFailedEvent where
  commandId : String
  orderId : String
  correlationId : String
  reason : String
deriving DecidableEq, Repr

structure StockReleasedEvent where
  commandId : String
  orderId : String
  correlationId : String
deriving DecidableEq, Repr

structure PaymentProcessedEvent where
  commandId : String
  orderId : String
  correlationId : String
  transactionId : String
deriving DecidableEq, Repr

structure PaymentFailedEvent where
  commandId : String
  orderId : String
  correlationId : String
  reason : String
deriving DecidableEq, Repr

/-! ## domain events -/

structure OrderConfirmedEvent where
  orderId : String
  userId : String
  userEmail : String
  correlationId : String
  items : List OrderCreatedEventItem
  total : Int
  confirmedAt : Nat
deriving DecidableEq, Repr

structure OrderCancelledEvent where
  orderId : String
  userId : String
  userEmail : String
  correlationId : String
  reason : String
  cancelledAt : Nat
deriving DecidableEq, Repr

/-- the JSON documents that are written to an outbox -/
inductive Payload where
  | reserveStock (c : ReserveStockCommand)
  | releaseStock (c : ReleaseStockCommand)
  | processPayment (c : ProcessPaymentCommand)
  | stockReserved (e : StockReservedEvent)
  | stockReservationFailed (e : StockReservationFailedEvent)
  | stockReleased (e : StockReleasedEvent)
  | paymentProcessed (e : PaymentProcessedEvent)
  | paymentFailed (e : PaymentFailedEvent)
  | orderConfirmed (e : OrderConfirmedEvent)
  | orderCancelled (e : OrderCancelledEvent)
deriving DecidableEq, Repr

/-- the command that a document is, or answers -/
def Payload.commandId : Payload → Option String
  | .reserveStock c => some c.commandId
  | .releaseStock c => some c.commandId
  | .processPayment c => some c.commandId
  | .stockReserved e => some e.commandId
  | .stockReservationFailed e => some e.commandId
  | .stockReleased e => some e.commandId
  | .paymentProcessed e => some e.commandId
  | .paymentFailed e => some e.commandId
  | .orderConfirmed _ => none
  | .orderCancelled _ => none

/-! ## the outbox and the idempotency keys -/

inductive OutboxStatus where
  | pending | published | failed
deriving DecidableEq, Repr

/-- a row of an `outbox` table -/
structure OutboxRow where
  id : String
  aggregateId : String
  topic : Topic
  messageKey : String
  payload : Payload
  status : OutboxStatus
  retryCount : Nat
  lastError : Option String
  scheduledAt : Nat
  publishedAt : Option Nat
deriving DecidableEq, Repr

/-- what the database adds to a row it inserts into an outbox -/
structure RowDefaults where
  id : Uuid
  now : Nat

/-- the insert of `OutboxService.write` and `TypeOrmOutboxRepository.write`, with the column
defaults -/
def OutboxRow.write (g : RowDefaults) (aggregateId : String) (topic : Topic) (key : String)
    (payload : Payload) : OutboxRow where
  id := g.id.val
  aggregateId := aggregateId
  topic := topic
  messageKey := key
  payload := payload
  status := .pending
  retryCount := 0
  lastError := none
  scheduledAt := g.now
  publishedAt := none

/-- `StoredResult`: the reply that an idempotency key remembers -/
structure StoredResult where
  replyTopic : Topic
  replyPayload : Payload
deriving DecidableEq, Repr

/-- a row of an `idempotency_keys` table -/
structure IdempotencyKey where
  key : String
  result : StoredResult
deriving DecidableEq, Repr

end Shop
