import Shop.Shared.Idempotency

/-!
# payment-service

`payments.service.ts`, `wallet.service.ts`, `payments-saga.controller.ts` and
`wallet-events.consumer.ts`: payments, wallets and the handlers that write them, each the body of
one database transaction.

* `insertPayment`, `deduct`, `completePayment`   the three writes of `processPayment`;
* `handleProcessPayment`                         the handler, replay of a recorded reply included;
* `handleUserRegistered`, `topUp`                the two ways a wallet is credited.

A payment that the wallet cannot cover is answered with PAYMENT_FAILED by a transaction that
commits: its row stays, as PENDING.
-/

set_option linter.unusedSectionVars false

namespace Shop
open Lib

inductive PaymentStatus where
  | pending | completed | failed
deriving DecidableEq, Repr

structure Payment where
  id : String
  orderId : String
  userId : String
  amount : Int
  status : PaymentStatus
  transactionId : Option String
  failureReason : Option String
  createdAt : Nat
deriving DecidableEq, Repr

structure Wallet where
  id : String
  userId : String
  balance : Int
deriving DecidableEq, Repr

/-! ## errors -/

inductive PaymentsError where
  | insufficientFunds (available required : Int)
  -- the database rejected a statement
  | queryFailed
deriving DecidableEq, Repr

/-- the cents after the point, as a number prints them -/
def centsText (c : Nat) : String :=
  if c = 0 then ""
  else if c % 10 = 0 then "." ++ toString (c / 10)
  else if c < 10 then ".0" ++ toString c
  else "." ++ toString c

def amountText (cents : Int) : String :=
  (if cents < 0 then "-" else "") ++ toString (cents.natAbs / 100) ++ centsText (cents.natAbs % 100)

def PaymentsError.message : PaymentsError → String
  | .insufficientFunds available required =>
    "Insufficient funds: available " ++ amountText available ++ ", required " ++ amountText required
  | .queryFailed => "query failed"

example : (PaymentsError.insufficientFunds 1250 2005).message
    = "Insufficient funds: available 12.5, required 20.05" := by decide +kernel

/-! ## payments and wallets -/

structure ProcessPaymentInput where
  orderId : String
  userId : String
  amount : Int

/-- the ids that a payment is given: of its row, and of its transaction -/
structure PaymentIds where
  payment : Uuid
  transaction : Uuid

def transactionId (ids : PaymentIds) : String := "txn-" ++ ids.transaction.val

def newPayment (now : Nat) (ids : PaymentIds) (input : ProcessPaymentInput) : Payment where
  id := ids.payment.val
  orderId := input.orderId
  userId := input.userId
  amount := input.amount
  status := .pending
  transactionId := none
  failureReason := none
  createdAt := now

/-- the insert of the PENDING payment; one payment an order -/
def insertPayment (now : Nat) (ids : PaymentIds) (t : List Payment) (input : ProcessPaymentInput) :
    Except PaymentsError (List Payment) :=
  if ids.payment.val ∈ t.map Payment.id ∨ input.orderId ∈ t.map Payment.orderId ∨
      fitsDecimal 10 input.amount = false then .error .queryFailed
  else .ok (t ++ [newPayment now ids input])

def Payment.complete (transactionId : String) (p : Payment) : Payment :=
  { p with status := .completed, transactionId := some transactionId }

def completePayment (ids : PaymentIds) (t : List Payment) : List Payment :=
  updateBy Payment.id ids.payment.val (Payment.complete (transactionId ids)) t

def Wallet.withBalance (n : Int) (w : Wallet) : Wallet := { w with balance := n }

def setBalance (userId : String) (n : Int) (t : List Wallet) : List Wallet :=
  updateBy Wallet.userId userId (Wallet.withBalance n) t

def newWallet (id : Uuid) (userId : String) (balance : Int) : Wallet := ⟨id.val, userId, balance⟩

/-- the insert of a wallet; one wallet a user -/
def insertWallet (id : Uuid) (userId : String) (balance : Int) (t : List Wallet) :
    Except PaymentsError (List Wallet) :=
  if id.val ∈ t.map Wallet.id ∨ userId ∈ t.map Wallet.userId ∨ fitsDecimal 12 balance = false then
    .error .queryFailed
  else .ok (t ++ [newWallet id userId balance])

/-- `WalletService.deduct`, from the row that it reads under the lock: the new balance -/
def charge (wallet : Option Wallet) (amount : Int) : Except PaymentsError Int :=
  match wallet with
  | none => .error (.insufficientFunds 0 amount)
  | some wallet =>
    if wallet.balance < amount then .error (.insufficientFunds wallet.balance amount)
    else .ok (wallet.balance - amount)

def deduct (userId : String) (amount : Int) (t : List Wallet) :
    Except PaymentsError (List Wallet) :=
  match charge (selectBy Wallet.userId userId t) amount with
  | .error e => .error e
  | .ok balance => .ok (setBalance userId balance t)

/-! ## the handlers -/

structure PaymentDb where
  payments : List Payment
  wallets : List Wallet
  idempotencyKeys : List IdempotencyKey
  outbox : List OutboxRow
deriving DecidableEq, Repr

namespace PaymentDb

def empty : PaymentDb := ⟨[], [], [], []⟩

def write (db : PaymentDb) (g : RowDefaults) (orderId : String) (r : StoredResult) : PaymentDb :=
  { db with outbox := db.outbox ++ [OutboxRow.write g orderId r.replyTopic orderId r.replyPayload] }

def processedReply (command : ProcessPaymentCommand) (transactionId : String) : StoredResult where
  replyTopic := .paymentProcessed
  replyPayload := .paymentProcessed
    { commandId := command.commandId
      orderId := command.orderId
      correlationId := command.correlationId
      transactionId := transactionId }

def failedReply (command : ProcessPaymentCommand) (e : PaymentsError) : StoredResult where
  replyTopic := .paymentFailed
  replyPayload := .paymentFailed
    { commandId := command.commandId
      orderId := command.orderId
      correlationId := command.correlationId
      reason := e.message }

/-- the record and the reply that end a payment, whatever it came to -/
def reply (db : PaymentDb) (g : RowDefaults) (command : ProcessPaymentCommand) (r : StoredResult) :
    PaymentDb :=
  { db with idempotencyKeys := saveKey command.commandId r db.idempotencyKeys }.write g
    command.orderId r

def handleProcessPayment (g : RowDefaults) (ids : PaymentIds) (db : PaymentDb)
    (command : ProcessPaymentCommand) : Except PaymentsError PaymentDb :=
  match findKey command.commandId db.idempotencyKeys with
  | some existing => .ok (db.write g command.orderId existing)
  | none => do
    let payments ← insertPayment g.now ids db.payments
      ⟨command.orderId, command.userId, command.amount⟩
    match deduct command.userId command.amount db.wallets with
    | .ok wallets =>
      let db := { db with payments := completePayment ids payments, wallets := wallets }
      return db.reply g command (processedReply command (transactionId ids))
    | .error e =>
      let db := { db with payments := payments }
      return db.reply g command (failedReply command e)

/-- `WalletService.findOrCreate`, for a user that has just registered -/
def handleUserRegistered (db : PaymentDb) (walletId : Uuid) (initialBalance : Nat)
    (userId : String) : Except PaymentsError PaymentDb :=
  match selectBy Wallet.userId userId db.wallets with
  | some _ => .ok db
  | none => do
    let wallets ← insertWallet walletId userId initialBalance db.wallets
    return { db with wallets := wallets }

/-- `WalletService.topUp`; the endpoint takes positive amounts only -/
def topUp (db : PaymentDb) (walletId : Uuid) (userId : String) (amount : Nat) :
    Except PaymentsError PaymentDb :=
  match selectBy Wallet.userId userId db.wallets with
  | some wallet =>
    if fitsDecimal 12 (wallet.balance + amount) then
      .ok { db with wallets := setBalance userId (wallet.balance + amount) db.wallets }
    else .error .queryFailed
  | none => do
    let wallets ← insertWallet walletId userId amount db.wallets
    return { db with wallets := wallets }

end PaymentDb

/-! ## what the writes do -/

theorem insertPayment_ok {now : Nat} {ids : PaymentIds} {t t' : List Payment}
    {input : ProcessPaymentInput} (h : insertPayment now ids t input = .ok t') :
    t' = t ++ [newPayment now ids input] ∧
      ids.payment.val ∉ t.map Payment.id ∧ input.orderId ∉ t.map Payment.orderId := by
  unfold insertPayment at h
  split at h
  · cases h
  · rename_i hn
    cases h
    exact ⟨rfl, fun e => hn (Or.inl e), fun e => hn (Or.inr (Or.inl e))⟩

/-- the payment that was inserted is the one that is completed -/
theorem completePayment_append {ids : PaymentIds} {t : List Payment} {p : Payment}
    (hid : p.id = ids.payment.val) (hfresh : ids.payment.val ∉ t.map Payment.id) :
    completePayment ids (t ++ [p]) = t ++ [p.complete (transactionId ids)] := by
  have h : updateBy Payment.id ids.payment.val (Payment.complete (transactionId ids)) t = t :=
    updateBy_of_not_mem fun r hr e => hfresh (e ▸ List.mem_map_of_mem hr)
  unfold completePayment updateBy at *
  rw [List.map_append, h, List.map_singleton, if_pos hid]

/-- the balance of a user, nothing if there is no wallet -/
def balanceOf (t : List Wallet) (userId : String) : Int :=
  match selectBy Wallet.userId userId t with
  | some w => w.balance
  | none => 0

theorem Wallet.withBalance_userId (n : Int) (w : Wallet) :
    (w.withBalance n).userId = w.userId := rfl

theorem balanceOf_setBalance {t : List Wallet} {userId : String} {w : Wallet}
    (h : selectBy Wallet.userId userId t = some w) (n : Int) (u : String) :
    balanceOf (setBalance userId n t) u = if userId = u then n else balanceOf t u := by
  unfold balanceOf setBalance
  by_cases he : userId = u
  · rw [← he, if_pos rfl, selectBy_updateBy_self (Wallet.withBalance_userId n), h]
    rfl
  · rw [if_neg he, selectBy_updateBy_ne (Wallet.withBalance_userId n) (fun e => he e.symm)]

/-- a deduction takes the amount off the user's wallet, and nothing else -/
theorem deduct_balance {t t' : List Wallet} {userId : String} {amount : Int}
    (h : deduct userId amount t = .ok t') (u : String) :
    balanceOf t' u = balanceOf t u - if userId = u then amount else 0 := by
  unfold deduct at h
  cases hw : selectBy Wallet.userId userId t with
  | none => rw [hw] at h; cases h
  | some w =>
    rw [hw] at h
    unfold charge at h
    by_cases hlt : w.balance < amount
    · simp only [if_pos hlt] at h
      cases h
    · simp only [if_neg hlt] at h
      cases h
      rw [balanceOf_setBalance hw]
      by_cases he : userId = u
      · rw [if_pos he, if_pos he, ← he]
        unfold balanceOf
        rw [hw]
      · rw [if_neg he, if_neg he, Int.sub_zero]

end Shop
