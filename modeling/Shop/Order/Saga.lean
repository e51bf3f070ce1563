import Shop.Shared.Messages

/-!
# The entities of order-service

`domain/entities/saga.ts`, `domain/entities/order.ts` and `domain/errors/orders.errors.ts`.

* `Saga.canHandle`, `Saga.advance`, `Saga.startCompensation`, `Saga.fail`, `Saga.scheduleRetry`,
  `Saga.hasExceededMaxRetries`;
* `Order.confirm`, `Order.cancel`, `Order.compensate`.

Both entities are immutable: a transition returns a new value or throws.
-/

namespace Shop

inductive SagaStep where
  | reserveStock | processPayment | releaseStock | completed | failed
deriving DecidableEq, Repr

inductive SagaStatus where
  | running | completed | failed
deriving DecidableEq, Repr

inductive OrderStatus where
  | pending | confirmed | cancelled | completed
deriving DecidableEq, Repr

/-! ## errors -/

/-- the enum's text, as the error messages print it -/
def SagaStep.text : SagaStep → String
  | .reserveStock => "reserve_stock"
  | .processPayment => "process_payment"
  | .releaseStock => "release_stock"
  | .completed => "completed"
  | .failed => "failed"

def OrderStatus.text : OrderStatus → String
  | .pending => "pending"
  | .confirmed => "confirmed"
  | .cancelled => "cancelled"
  | .completed => "completed"

/-- what a transaction of order-service can throw; `queryFailed` is the database's own error (a
constraint or a column range) -/
inductive OrdersError where
  | orderNotFound (id : String)
  | invalidOrderTransition (source target : OrderStatus)
  | invalidSagaTransition (currentStep : SagaStep)
  | queryFailed
deriving DecidableEq, Repr

def OrdersError.message : OrdersError → String
  | .orderNotFound id => s!"Order {id} not found"
  | .invalidOrderTransition source target =>
      s!"Cannot transition order from {source.text} to {target.text}"
  | .invalidSagaTransition currentStep => s!"Cannot advance saga from step {currentStep.text}"
  | .queryFailed => "QueryFailedError"

/-! ## the saga -/

structure Saga where
  id : String
  orderId : String
  correlationId : String
  currentStep : SagaStep
  status : SagaStatus
  retryCount : Nat
  lastError : Option String
  nextRetryAt : Option Nat
deriving DecidableEq, Repr

/-- `ADVANCE_MAP` -/
def advanceMap : SagaStep → Option SagaStep
  | .reserveStock => some .processPayment
  | .processPayment => some .completed
  | _ => none

namespace Saga

def RETRY_TIMEOUT_MS : Nat := 30000
def MAX_RETRIES : Nat := 3

def create (now : Nat) (orderId correlationId : String) : Saga where
  id := ""
  orderId := orderId
  correlationId := correlationId
  currentStep := .reserveStock
  status := .running
  retryCount := 0
  lastError := none
  nextRetryAt := some (now + RETRY_TIMEOUT_MS)

def canHandle (s : Saga) (step : SagaStep) : Bool :=
  decide (s.status = .running) && decide (s.currentStep = step)

def advance (s : Saga) (now : Nat) : Except OrdersError Saga :=
  match advanceMap s.currentStep with
  | none => .error (.invalidSagaTransition s.currentStep)
  | some next =>
    let isCompleted := decide (next = .completed)
    .ok { s with
      currentStep := next
      status := if isCompleted then .completed else .running
      nextRetryAt := if isCompleted then none else some (now + RETRY_TIMEOUT_MS) }

def startCompensation (s : Saga) (now : Nat) (reason : String) : Saga :=
  { s with
    currentStep := .releaseStock
    status := .running
    lastError := some reason
    nextRetryAt := some (now + RETRY_TIMEOUT_MS) }

def fail (s : Saga) (reason : String) : Saga :=
  { s with
    currentStep := .failed
    status := .failed
    lastError := some reason
    nextRetryAt := none }

def scheduleRetry (s : Saga) (now : Nat) : Saga :=
  { s with
    retryCount := s.retryCount + 1
    nextRetryAt := some (now + RETRY_TIMEOUT_MS * 2 ^ (s.retryCount + 1)) }

def hasExceededMaxRetries (s : Saga) : Bool := decide (s.retryCount ≥ MAX_RETRIES)

theorem canHandle_iff {s : Saga} {step : SagaStep} :
    s.canHandle step = true ↔ s.status = .running ∧ s.currentStep = step := by
  simp [canHandle]

theorem hasExceededMaxRetries_iff {s : Saga} :
    s.hasExceededMaxRetries = true ↔ MAX_RETRIES ≤ s.retryCount := by
  simp [hasExceededMaxRetries]

theorem advance_reserveStock {s : Saga} (now : Nat) (h : s.currentStep = .reserveStock) :
    s.advance now = .ok { s with
      currentStep := .processPayment
      status := .running
      nextRetryAt := some (now + RETRY_TIMEOUT_MS) } := by
  simp [advance, advanceMap, h]

theorem advance_processPayment {s : Saga} (now : Nat) (h : s.currentStep = .processPayment) :
    s.advance now = .ok { s with
      currentStep := .completed
      status := .completed
      nextRetryAt := none } := by
  simp [advance, advanceMap, h]

end Saga

/-! ## the order -/

structure OrderItem where
  id : String
  productId : String
  productName : String
  quantity : Int
  unitPrice : Int
deriving DecidableEq, Repr

structure Order where
  id : String
  userId : String
  userEmail : String
  status : OrderStatus
  total : Int
  items : List OrderItem
  createdAt : Nat
deriving DecidableEq, Repr

namespace Order

def create (now : Nat) (userId userEmail : String) (items : List LineItem) : Order where
  id := ""
  userId := userId
  userEmail := userEmail
  status := .pending
  total := 0
  items := items.map fun i => ⟨"", i.productId, "", i.quantity, 0⟩
  createdAt := now

/-- the line with the name and the price of the first detail of its product -/
def withDetail (details : List OrderCreatedEventItem) (item : OrderItem) : OrderItem :=
  match details.find? fun d => decide (d.productId = item.productId) with
  | some detail => ⟨item.id, item.productId, detail.name, item.quantity, detail.unitPrice⟩
  | none => item

def confirm (o : Order) (total : Int) (itemDetails : List OrderCreatedEventItem) :
    Except OrdersError Order :=
  if o.status ≠ .pending then .error (.invalidOrderTransition o.status .confirmed)
  else .ok { o with
    status := .confirmed
    total := total
    items := o.items.map (withDetail itemDetails) }

def cancel (o : Order) : Except OrdersError Order :=
  if o.status = .confirmed ∨ o.status = .completed then
    .error (.invalidOrderTransition o.status .cancelled)
  else .ok { o with status := .cancelled }

/-- used by saga compensation: may cancel from PENDING or CONFIRMED, not after COMPLETED -/
def compensate (o : Order) : Except OrdersError Order :=
  if o.status = .completed ∨ o.status = .cancelled then
    .error (.invalidOrderTransition o.status .cancelled)
  else .ok { o with status := .cancelled }

theorem withDetail_id (ds : List OrderCreatedEventItem) (i : OrderItem) :
    (withDetail ds i).id = i.id := by
  unfold withDetail
  split <;> rfl

theorem confirm_pending {o : Order} (h : o.status = .pending) (total : Int)
    (ds : List OrderCreatedEventItem) : o.confirm total ds = .ok { o with
      status := .confirmed
      total := total
      items := o.items.map (withDetail ds) } := by
  simp [confirm, h]

theorem compensate_open {o : Order} (h : o.status = .pending ∨ o.status = .confirmed) :
    o.compensate = .ok { o with status := .cancelled } := by
  unfold compensate
  rcases h with h | h <;> simp [h]

end Order

end Shop
