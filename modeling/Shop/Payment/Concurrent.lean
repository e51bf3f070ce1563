import Shop.Payment.Service
import Shop.Shared.Outbox
import Shop.Lib.Pool
import Mathlib.Logic.Relation

/-!
# Concurrent transactions of payment-service

The handlers of payment-service as sequences of database accesses, under READ COMMITTED.  A read
sees what has been committed and what its own transaction has written; the insert of a row waits for
a transaction that has inserted the same key of a unique index, and a row that is read for update or
updated is locked until the transaction ends.

* `PaymentTx`, `PaymentTx.next`   a transaction that is under way, and its next access;
* `PaymentTx.alone`               a transaction that runs alone does what the handler does;
* `Ledger`                        the committed tables, with the credits and the debits so far;
* `Ledger.Balanced D l`           what the books say, after deliveries of the commands `D`;
* `wallet_ledger`                 every reachable ledger is balanced;
* `replies_differ`                two orders under one command id, and two replies to it.

One charge an order rests on the unique index: two payments of an order exclude each other from
their insert on.
-/

set_option linter.unusedSectionVars false

namespace Shop
open Lib

inductive PaymentRequest where
  | process (c : ProcessPaymentCommand)
  | register (userId : String) (initialBalance : Nat)
  | topUp (userId : String) (amount : Nat)

inductive PaymentLock where
  | order (orderId : String)
  | payment (id : String)
  | user (userId : String)
  | wallet (id : String)
  | key (k : String)
deriving DecidableEq, Repr

/-- what a payment has written, before its record: its row, the new balance if the wallet is
charged, and the rows and keys that it has locked -/
structure Settlement where
  payment : Payment
  balance : Option Int
  locks : List PaymentLock
deriving DecidableEq, Repr

/-- A transaction by its next access.  A payment looks up the record (`started`); it queues the
recorded reply again and commits (`replaying`), or inserts its row (`paying`), deducts from the
wallet (`charging`), selects the key (`saving`), inserts or updates the record, queues the reply and
commits (`finishing`).  `findOrCreate` and `topUp` select the wallet (`registering`, `toppingUp`);
one that is not there is inserted (`creating`), and the wallet that has been inserted or updated is
committed (`created`, `raised`). -/
inductive PaymentTx where
  | started (c : ProcessPaymentCommand)
  | replaying (c : ProcessPaymentCommand) (r : StoredResult)
  | paying (c : ProcessPaymentCommand)
  | charging (c : ProcessPaymentCommand) (payment : Payment)
  | saving (c : ProcessPaymentCommand) (r : StoredResult) (x : Settlement)
  | inserting (c : ProcessPaymentCommand) (r : StoredResult) (x : Settlement)
  | updating (c : ProcessPaymentCommand) (r : StoredResult) (x : Settlement)
  | finishing (c : ProcessPaymentCommand) (r : StoredResult) (x : Settlement)
  | registering (userId : String) (initialBalance : Nat)
  | toppingUp (userId : String) (amount : Nat)
  | creating (userId : String) (amount : Nat)
  | created (w : Wallet)
  | raised (userId : String) (amount : Nat) (balance : Int)
  | ended
deriving DecidableEq, Repr

/-- what the database and `randomUUID` generate for an access -/
structure Generated where
  row : RowDefaults
  ids : PaymentIds
  wallet : Uuid

inductive PaymentAccess where
  | go (g : Generated)
  | abort

/-! ## the ledger -/

structure Credit where
  userId : String
  amount : Int
deriving DecidableEq, Repr

structure Debit where
  orderId : String
  userId : String
  amount : Int
deriving DecidableEq, Repr

def Settlement.charged (x : Settlement) (userId : String) (t : List Wallet) : List Wallet :=
  match x.balance with
  | some balance => setBalance userId balance t
  | none => t

def Settlement.debits (x : Settlement) (c : ProcessPaymentCommand) : List Debit :=
  match x.balance with
  | some _ => [⟨c.orderId, c.userId, c.amount⟩]
  | none => []

/-- the committed tables, and what committed transactions have credited and debited -/
structure Ledger where
  db : PaymentDb
  credits : List Credit
  debits : List Debit
deriving DecidableEq, Repr

namespace Ledger

def empty : Ledger := ⟨.empty, [], []⟩

/-- a commit that queues a recorded reply again -/
def replay (l : Ledger) (g : RowDefaults) (c : ProcessPaymentCommand) (r : StoredResult) : Ledger :=
  { l with db := l.db.write g c.orderId r }

/-- the commit of a payment, whatever it came to -/
def settle (l : Ledger) (g : RowDefaults) (c : ProcessPaymentCommand) (r : StoredResult)
    (x : Settlement) : Ledger :=
  { l with
    db := { l.db with
      payments := l.db.payments ++ [x.payment]
      wallets := x.charged c.userId l.db.wallets }.reply g c r
    debits := l.debits ++ x.debits c }

/-- the commit of a new wallet -/
def create (l : Ledger) (w : Wallet) : Ledger :=
  { l with
    db := { l.db with wallets := l.db.wallets ++ [w] }
    credits := l.credits ++ [⟨w.userId, w.balance⟩] }

/-- the commit of a top-up -/
def raise (l : Ledger) (userId : String) (amount : Nat) (balance : Int) : Ledger :=
  { l with
    db := { l.db with wallets := setBalance userId balance l.db.wallets }
    credits := l.credits ++ [⟨userId, amount⟩] }

end Ledger

/-! ## transactions -/

namespace PaymentTx

def start : PaymentRequest → PaymentTx
  | .process c => .started c
  | .register userId initialBalance => .registering userId initialBalance
  | .topUp userId amount => .toppingUp userId amount

/-- the keys of a row that has been inserted -/
def inserted (c : ProcessPaymentCommand) (payment : Payment) : List PaymentLock :=
  [.order c.orderId, .payment payment.id]

/-- `deduct` reads the wallet under its lock, writes the new balance and completes the payment -/
def deducted (g : Generated) (wallet : Option Wallet) (c : ProcessPaymentCommand)
    (payment : Payment) : PaymentTx :=
  let locks := inserted c payment ++ wallet.toList.map fun w => .user w.userId
  match charge wallet c.amount with
  | .ok balance =>
    .saving c (PaymentDb.processedReply c (transactionId g.ids))
      ⟨payment.complete (transactionId g.ids), some balance, locks⟩
  | .error e => .saving c (PaymentDb.failedReply c e) ⟨payment, none, locks⟩

def advance (g : Generated) (l : Ledger) : PaymentTx → Option (Ledger × PaymentTx)
  | .started c =>
    match findKey c.commandId l.db.idempotencyKeys with
    | some existing => some (l, .replaying c existing)
    | none => some (l, .paying c)
  | .replaying c r => some (l.replay g.row c r, .ended)
  | .paying c =>
    let input := ⟨c.orderId, c.userId, c.amount⟩
    match insertPayment g.row.now g.ids l.db.payments input with
    | .error _ => some (l, .ended)
    | .ok _ => some (l, .charging c (newPayment g.row.now g.ids input))
  | .charging c payment =>
    some (l, deducted g (selectBy Wallet.userId c.userId l.db.wallets) c payment)
  | .saving c r x =>
    match findKey c.commandId l.db.idempotencyKeys with
    | none => some (l, .inserting c r x)
    | some _ => some (l, .updating c r x)
  | .inserting c r x =>
    match findKey c.commandId l.db.idempotencyKeys with
    | none => some (l, .finishing c r x)
    -- the primary key is violated
    | some _ => some (l, .ended)
  | .updating c r x => some (l, .finishing c r x)
  | .finishing c r x => some (l.settle g.row c r x, .ended)
  | .registering userId initialBalance =>
    match selectBy Wallet.userId userId l.db.wallets with
    | some _ => some (l, .ended)
    | none => some (l, .creating userId initialBalance)
  | .toppingUp userId amount =>
    match selectBy Wallet.userId userId l.db.wallets with
    | some w =>
      if fitsDecimal 12 (w.balance + amount) then
        some (l, .raised userId amount (w.balance + amount))
      else some (l, .ended)
    | none => some (l, .creating userId amount)
  | .creating userId amount =>
    match insertWallet g.wallet userId amount l.db.wallets with
    | .error _ => some (l, .ended)
    | .ok _ => some (l, .created (newWallet g.wallet userId amount))
  | .created w => some (l.create w, .ended)
  | .raised userId amount balance => some (l.raise userId amount balance, .ended)
  | .ended => none

def next (b : PaymentAccess) (l : Ledger) (t : PaymentTx) : Option (Ledger × PaymentTx) :=
  match b with
  | .go g => t.advance g l
  | .abort => some (l, .ended)

def held : PaymentTx → List PaymentLock
  | .charging c payment => inserted c payment
  | .saving _ _ x => x.locks
  | .inserting _ _ x => x.locks
  | .updating _ _ x => x.locks
  | .finishing c _ x => .key c.commandId :: x.locks
  | .created w => [.user w.userId, .wallet w.id]
  | .raised userId _ _ => [.user userId]
  | _ => []

end PaymentTx

/-- requests that arrive, and accesses of the transactions under way -/
abbrev PaymentAction := PoolAction PaymentRequest PaymentAccess

def PaymentPool.step : Pool Ledger PaymentTx → PaymentAction → Pool Ledger PaymentTx :=
  Pool.step PaymentTx.start PaymentTx.next PaymentTx.held

def commandsOf (as : List PaymentAction) : List ProcessPaymentCommand :=
  as.filterMap fun a => match a with
    | .start (.process c) => some c
    | _ => none

/-! ## a transaction that runs alone -/

/-- the serial handler of a request -/
def PaymentRequest.handle (g : Generated) (db : PaymentDb) :
    PaymentRequest → Except PaymentsError PaymentDb
  | .process c => db.handleProcessPayment g.row g.ids c
  | .register userId initialBalance => db.handleUserRegistered g.wallet initialBalance userId
  | .topUp userId amount => db.topUp g.wallet userId amount

namespace PaymentTx

/-- one access, with nobody else about -/
def goes (g : Generated) (p p' : Ledger × PaymentTx) : Prop := p.2.advance g p.1 = some p'

/-- the transaction ends, and leaves `db` -/
def Leads (g : Generated) (l : Ledger) (t : PaymentTx) (db : PaymentDb) : Prop :=
  ∃ l', Relation.ReflTransGen (goes g) (l, t) (l', .ended) ∧ l'.db = db

theorem Leads.head {g : Generated} {l : Ledger} {t t' : PaymentTx} {db : PaymentDb}
    (h : t.advance g l = some (l, t')) (h' : t'.Leads g l db) : t.Leads g l db := by
  obtain ⟨l', hrun, hdb⟩ := h'
  exact ⟨l', .head h hrun, hdb⟩

theorem Leads.last {g : Generated} {l l' : Ledger} {t : PaymentTx}
    (h : t.advance g l = some (l', .ended)) : t.Leads g l l'.db := ⟨l', .single h, rfl⟩

/-- a record that is not there is inserted -/
theorem Leads.saving (g : Generated) {l : Ledger} {c : ProcessPaymentCommand}
    (h : findKey c.commandId l.db.idempotencyKeys = none) (r : StoredResult) (x : Settlement) :
    (PaymentTx.saving c r x).Leads g l (l.settle g.row c r x).db := by
  have hsave : (PaymentTx.saving c r x).advance g l = some (l, .inserting c r x) := by
    simp only [advance, h]
  have hinsert : (PaymentTx.inserting c r x).advance g l = some (l, .finishing c r x) := by
    simp only [advance, h]
  exact .head hsave (.head hinsert (.last rfl))

theorem Leads.creating (g : Generated) (l : Ledger) (userId : String) (amount : Nat) :
    (PaymentTx.creating userId amount).Leads g l
      (commit l.db (do
        let wallets ← insertWallet g.wallet userId amount l.db.wallets
        return { l.db with wallets := wallets })) := by
  cases h : insertWallet g.wallet userId amount l.db.wallets with
  | error e => exact .last (by simp only [advance, h])
  | ok wallets =>
    have hcreate : (PaymentTx.creating userId amount).advance g l =
        some (l, .created (newWallet g.wallet userId amount)) := by
      simp only [advance, h]
    have hw : wallets = l.db.wallets ++ [newWallet g.wallet userId amount] := by
      unfold insertWallet at h
      split at h
      · cases h
      · cases h
        rfl
    have hlast : (PaymentTx.created (newWallet g.wallet userId amount)).Leads g l
        (l.create (newWallet g.wallet userId amount)).db := .last rfl
    rw [hw]
    exact .head hcreate hlast

theorem Leads.paying (g : Generated) {l : Ledger} {c : ProcessPaymentCommand}
    (h : findKey c.commandId l.db.idempotencyKeys = none) :
    (PaymentTx.paying c).Leads g l (commit l.db (l.db.handleProcessPayment g.row g.ids c)) := by
  unfold PaymentDb.handleProcessPayment
  simp only [h]
  cases hins : insertPayment g.row.now g.ids l.db.payments ⟨c.orderId, c.userId, c.amount⟩ with
  | error e =>
    rw [bind_error]
    exact .last (by simp only [advance, hins])
  | ok payments =>
    obtain ⟨rfl, hid, _⟩ := insertPayment_ok hins
    rw [bind_ok]
    have hpay : (PaymentTx.paying c).advance g l = some (l, .charging c
        (newPayment g.row.now g.ids ⟨c.orderId, c.userId, c.amount⟩)) := by
      simp only [advance, hins]
    refine .head hpay (.head rfl ?_)
    unfold deduct deducted
    cases hc : charge (selectBy Wallet.userId c.userId l.db.wallets) c.amount with
    | error e => exact .saving g h _ _
    | ok balance =>
      have hdone := completePayment_append
        (p := newPayment g.row.now g.ids ⟨c.orderId, c.userId, c.amount⟩) rfl hid
      simp only [hdone]
      exact .saving g h _ _

/-- **A transaction that runs alone does what the handler does.** -/
theorem alone (g : Generated) (l : Ledger) (request : PaymentRequest) :
    (start request).Leads g l (commit l.db (request.handle g l.db)) := by
  cases request with
  | process c =>
    show (PaymentTx.started c).Leads g l (commit l.db (l.db.handleProcessPayment g.row g.ids c))
    cases h : findKey c.commandId l.db.idempotencyKeys with
    | none => exact .head (by simp only [advance, h]) (.paying g h)
    | some r =>
      have hr : l.db.handleProcessPayment g.row g.ids c = .ok (l.db.write g.row c.orderId r) := by
        unfold PaymentDb.handleProcessPayment
        rw [h]
      have hlook : (PaymentTx.started c).advance g l = some (l, .replaying c r) := by
        simp only [advance, h]
      have hlast : (PaymentTx.replaying c r).Leads g l (l.replay g.row c r).db := .last rfl
      rw [hr]
      exact .head hlook hlast
  | register userId initialBalance =>
    show (PaymentTx.registering userId initialBalance).Leads g l
      (commit l.db (l.db.handleUserRegistered g.wallet initialBalance userId))
    unfold PaymentDb.handleUserRegistered
    cases h : selectBy Wallet.userId userId l.db.wallets with
    | some w => exact .last (by simp only [advance, h])
    | none => exact .head (by simp only [advance, h]) (.creating g l userId initialBalance)
  | topUp userId amount =>
    show (PaymentTx.toppingUp userId amount).Leads g l
      (commit l.db (l.db.topUp g.wallet userId amount))
    unfold PaymentDb.topUp
    cases h : selectBy Wallet.userId userId l.db.wallets with
    | some w =>
      by_cases hfit : fitsDecimal 12 (w.balance + amount) = true
      · have hread : (PaymentTx.toppingUp userId amount).advance g l =
            some (l, .raised userId amount (w.balance + amount)) := by
          simp only [advance, h, if_pos hfit]
        have hlast : (PaymentTx.raised userId amount (w.balance + amount)).Leads g l
            (l.raise userId amount (w.balance + amount)).db := .last rfl
        simp only [if_pos hfit]
        exact .head hread hlast
      · simp only [if_neg hfit]
        exact .last (by simp only [advance, h, if_neg hfit])
    | none => exact .head (by simp only [advance, h]) (.creating g l userId amount)

end PaymentTx

/-! ## what the books say -/

def creditedTo (credits : List Credit) (userId : String) : Int :=
  ((credits.filter fun c => decide (c.userId = userId)).map Credit.amount).sum

def debitedFrom (debits : List Debit) (userId : String) : Int :=
  ((debits.filter fun d => decide (d.userId = userId)).map Debit.amount).sum

def completed (payments : List Payment) : List Payment :=
  payments.filter fun p => decide (p.status = .completed)

/-- the COMPLETED payments of a user -/
def paidBy (payments : List Payment) (userId : String) : Int :=
  (((completed payments).filter fun p => decide (p.userId = userId)).map Payment.amount).sum

/-- all commands with this id are for one order, as those of the orchestrator are -/
def OneOrder (D : List ProcessPaymentCommand) (k : String) : Prop :=
  ∀ c ∈ D, ∀ c' ∈ D, c.commandId = k → c'.commandId = k → c.orderId = c'.orderId

/-- all replies to the command id are the same -/
def Ledger.SameReply (l : Ledger) (k : String) : Prop :=
  ∀ r ∈ l.db.outbox, ∀ r' ∈ l.db.outbox,
    r.payload.commandId = some k → r'.payload.commandId = some k → r.message = r'.message

structure Ledger.Balanced (D : List ProcessPaymentCommand) (l : Ledger) : Prop where
  nonneg : ∀ u, 0 ≤ balanceOf l.db.wallets u
  paid : ∀ u, balanceOf l.db.wallets u + paidBy l.db.payments u = creditedTo l.credits u
  debited : ∀ u, balanceOf l.db.wallets u + debitedFrom l.debits u = creditedTo l.credits u
  onePayment : (l.db.payments.map Payment.orderId).Nodup
  oneDebit : (l.debits.map Debit.orderId).Nodup
  oneReply : ∀ k, OneOrder D k → l.SameReply k

/-! ## sums -/

theorem creditedTo_append (t : List Credit) (c : Credit) (u : String) :
    creditedTo (t ++ [c]) u = creditedTo t u + if c.userId = u then c.amount else 0 := by
  unfold creditedTo
  by_cases h : c.userId = u <;> simp [h]

theorem completed_append (t : List Payment) (p : Payment) :
    completed (t ++ [p]) = completed t ++ if p.status = .completed then [p] else [] := by
  unfold completed
  by_cases h : p.status = .completed <;> simp [h]

theorem paidBy_pending {p : Payment} (h : p.status ≠ .completed) (t : List Payment) (u : String) :
    paidBy (t ++ [p]) u = paidBy t u := by
  unfold paidBy
  rw [completed_append, if_neg h, List.append_nil]

theorem paidBy_completed {p : Payment} (h : p.status = .completed) (t : List Payment) (u : String) :
    paidBy (t ++ [p]) u = paidBy t u + if p.userId = u then p.amount else 0 := by
  unfold paidBy
  rw [completed_append, if_pos h]
  by_cases hu : p.userId = u <;> simp [hu]

def Debit.ofPayment (p : Payment) : Debit := ⟨p.orderId, p.userId, p.amount⟩

theorem debitedFrom_payments (t : List Payment) (u : String) :
    debitedFrom (t.map Debit.ofPayment) u =
      ((t.filter fun p => decide (p.userId = u)).map Payment.amount).sum := by
  unfold debitedFrom
  rw [List.filter_map, List.map_map]
  rfl

theorem balanceOf_append {t : List Wallet} {w : Wallet}
    (h : selectBy Wallet.userId w.userId t = none) (u : String) :
    balanceOf (t ++ [w]) u = if w.userId = u then w.balance else balanceOf t u := by
  unfold balanceOf
  by_cases he : w.userId = u
  · rw [if_pos he, selectBy_append, ← he, h, if_pos rfl]
    rfl
  · rw [if_neg he, selectBy_append_ne he]

theorem balanceOf_some {t : List Wallet} {u : String} {w : Wallet}
    (h : selectBy Wallet.userId u t = some w) : balanceOf t u = w.balance := by
  unfold balanceOf
  rw [h]

theorem mem_setBalance {t : List Wallet} {u : String} {n : Int} {w : Wallet}
    (h : w ∈ setBalance u n t) : w.balance = n ∨ w ∈ t := by
  obtain ⟨w₀, hw₀, ⟨_, rfl⟩ | ⟨_, rfl⟩⟩ := mem_updateBy.mp h
  · exact Or.inl rfl
  · exact Or.inr hw₀

/-! ## the invariant -/

/-- a payment that is not committed: its order has none yet, and its wallet is as it was read -/
structure Settles (l : Ledger) (c : ProcessPaymentCommand) (x : Settlement) : Prop where
  orderId : x.payment.orderId = c.orderId
  userId : x.payment.userId = c.userId
  amount : x.payment.amount = c.amount
  newOrder : c.orderId ∉ l.db.payments.map Payment.orderId
  lockOrder : .order c.orderId ∈ x.locks
  refused : x.balance = none → x.payment.status ≠ .completed
  charged : ∀ n, x.balance = some n → x.payment.status = .completed ∧ .user c.userId ∈ x.locks ∧
    0 ≤ n ∧ ∃ w, selectBy Wallet.userId c.userId l.db.wallets = some w ∧ n = w.balance - c.amount

/-- a payment with its reply, on behalf of one of the commands `D` -/
structure Saves (D : List ProcessPaymentCommand) (l : Ledger) (c : ProcessPaymentCommand)
    (r : StoredResult) (x : Settlement) : Prop where
  mem : c ∈ D
  answers : r.replyPayload.commandId = some c.commandId
  settles : Settles l c x

/-- what holds of a transaction, while deliveries of the commands `D` are under way -/
def PaymentTx.Sound (D : List ProcessPaymentCommand) (l : Ledger) : PaymentTx → Prop
  | .started c => c ∈ D
  | .replaying c r => r.replyPayload.commandId = some c.commandId ∧
    (OneOrder D c.commandId → findKey c.commandId l.db.idempotencyKeys = some r)
  | .paying c => c ∈ D
  | .charging c payment => c ∈ D ∧ Settles l c ⟨payment, none, inserted c payment⟩
  | .saving c r x => Saves D l c r x
  | .inserting c r x => Saves D l c r x
  | .updating c r x => Saves D l c r x
  | .finishing c r x => Saves D l c r x
  | .created w => 0 ≤ w.balance ∧ selectBy Wallet.userId w.userId l.db.wallets = none
  | .raised userId amount balance =>
    ∃ w, selectBy Wallet.userId userId l.db.wallets = some w ∧ balance = w.balance + amount
  | _ => True

/-- what holds of the committed tables -/
structure Ledger.Inv (D : List ProcessPaymentCommand) (l : Ledger) : Prop where
  wallets : ∀ w ∈ l.db.wallets, 0 ≤ w.balance
  orders : (l.db.payments.map Payment.orderId).Nodup
  debits : l.debits = (completed l.db.payments).map Debit.ofPayment
  paid : ∀ u, balanceOf l.db.wallets u + paidBy l.db.payments u = creditedTo l.credits u
  -- a record has been written together with a payment of its order
  records : ∀ k r, findKey k l.db.idempotencyKeys = some r → r.replyPayload.commandId = some k ∧
    ∃ c ∈ D, c.commandId = k ∧ c.orderId ∈ l.db.payments.map Payment.orderId
  replies : ∀ k, OneOrder D k → ∀ row ∈ l.db.outbox, row.payload.commandId = some k →
    ∃ r, findKey k l.db.idempotencyKeys = some r ∧ row.message = r.message

theorem Ledger.Inv.empty (D : List ProcessPaymentCommand) : Ledger.Inv D Ledger.empty where
  wallets := fun _ h => absurd h List.not_mem_nil
  orders := List.nodup_nil
  debits := rfl
  paid := fun _ => rfl
  records := fun _ _ h => by cases h
  replies := fun _ _ _ h => absurd h List.not_mem_nil

section
variable {D : List ProcessPaymentCommand} {l l' : Ledger} {g : Generated} {t t' u : PaymentTx}
  {c : ProcessPaymentCommand} {r : StoredResult} {x : Settlement} {w : Wallet}

theorem Ledger.Inv.balanced (h : l.Inv D) : l.Balanced D where
  nonneg := by
    intro u
    unfold balanceOf
    cases hw : selectBy Wallet.userId u l.db.wallets with
    | none => exact Int.le_refl 0
    | some w => exact h.wallets w (selectBy_some hw).1
  paid := h.paid
  debited := by
    intro u
    rw [h.debits, debitedFrom_payments]
    exact h.paid u
  onePayment := h.orders
  oneDebit := by
    rw [h.debits, List.map_map]
    exact List.Nodup.sublist (List.Sublist.map Payment.orderId List.filter_sublist) h.orders
  oneReply := by
    intro k hone row hrow row' hrow' hk hk'
    obtain ⟨r, hr, hm⟩ := h.replies k hone row hrow hk
    obtain ⟨r', hr', hm'⟩ := h.replies k hone row' hrow' hk'
    obtain rfl : r = r' := Option.some.inj (hr.symm.trans hr')
    rw [hm, hm']

/-! ## commits -/

/-- as long as its payment is not committed, a command has no record -/
theorem Settles.unrecorded (h : l.Inv D) (hx : Settles l c x) (hc : c ∈ D)
    (hone : OneOrder D c.commandId) : findKey c.commandId l.db.idempotencyKeys = none := by
  cases hr : findKey c.commandId l.db.idempotencyKeys with
  | none => rfl
  | some r =>
    obtain ⟨_, c', hc', hk, ho⟩ := h.records _ _ hr
    exact absurd (hone c hc c' hc' rfl hk ▸ ho) hx.newOrder

theorem Ledger.Inv.replay (h : l.Inv D) (hid : r.replyPayload.commandId = some c.commandId)
    (hr : OneOrder D c.commandId → findKey c.commandId l.db.idempotencyKeys = some r)
    (g : RowDefaults) : (l.replay g c r).Inv D where
  wallets := h.wallets
  orders := h.orders
  debits := h.debits
  paid := h.paid
  records := h.records
  replies := by
    intro k hone row hrow hk
    rcases List.mem_append.mp hrow with hrow | hrow
    · exact h.replies k hone row hrow hk
    · obtain rfl := List.mem_singleton.mp hrow
      obtain rfl : c.commandId = k := Option.some.inj (hid.symm.trans hk)
      exact ⟨r, hr hone, rfl⟩

theorem Ledger.Inv.create (h : l.Inv D) (hw : 0 ≤ w.balance)
    (hnew : selectBy Wallet.userId w.userId l.db.wallets = none) : (l.create w).Inv D where
  wallets := by
    intro w' hw'
    rcases List.mem_append.mp hw' with hw' | hw'
    · exact h.wallets w' hw'
    · rw [List.mem_singleton.mp hw']
      exact hw
  orders := h.orders
  debits := h.debits
  paid := by
    intro u
    show balanceOf (l.db.wallets ++ [w]) u + paidBy l.db.payments u
      = creditedTo (l.credits ++ [_]) u
    have hu := h.paid u
    rw [balanceOf_append hnew, creditedTo_append]
    by_cases he : w.userId = u
    · have h0 : balanceOf l.db.wallets u = 0 := by
        unfold balanceOf
        rw [← he, hnew]
      rw [if_pos he, if_pos he]
      show w.balance + _ = creditedTo l.credits u + w.balance
      omega
    · rw [if_neg he, if_neg he]
      omega
  records := h.records
  replies := h.replies

theorem Ledger.Inv.raise (h : l.Inv D) {userId : String} (amount : Nat)
    (hw : selectBy Wallet.userId userId l.db.wallets = some w) :
    (l.raise userId amount (w.balance + amount)).Inv D where
  wallets := by
    intro w' hw'
    rcases mem_setBalance hw' with he | hw'
    · have hpos := h.wallets w (selectBy_some hw).1
      omega
    · exact h.wallets w' hw'
  orders := h.orders
  debits := h.debits
  paid := by
    intro u
    show balanceOf (setBalance userId (w.balance + amount) l.db.wallets) u + paidBy l.db.payments u
      = creditedTo (l.credits ++ [_]) u
    have hu := h.paid u
    rw [balanceOf_setBalance hw, creditedTo_append]
    by_cases he : userId = u
    · rw [if_pos he, if_pos he]
      rw [← he, balanceOf_some hw] at hu
      show w.balance + amount + _ = creditedTo l.credits u + amount
      rw [← he]
      omega
    · rw [if_neg he, if_neg he]
      omega
  records := h.records
  replies := h.replies

theorem Settles.paid (hx : Settles l c x)
    (h : ∀ u, balanceOf l.db.wallets u + paidBy l.db.payments u = creditedTo l.credits u)
    (u : String) : balanceOf (x.charged c.userId l.db.wallets) u +
      paidBy (l.db.payments ++ [x.payment]) u = creditedTo l.credits u := by
  have hu := h u
  cases hb : x.balance with
  | none =>
    rw [paidBy_pending (hx.refused hb)]
    simp only [Settlement.charged, hb]
    exact hu
  | some n =>
    obtain ⟨hdone, _, _, w, hw, rfl⟩ := hx.charged n hb
    rw [paidBy_completed hdone, hx.userId, hx.amount]
    simp only [Settlement.charged, hb]
    rw [balanceOf_setBalance hw]
    by_cases he : c.userId = u
    · rw [if_pos he, if_pos he]
      rw [← he, balanceOf_some hw] at hu
      rw [← he]
      omega
    · rw [if_neg he, if_neg he]
      omega

theorem Settles.debits (hx : Settles l c x) : (completed (l.db.payments ++ [x.payment])).map
    Debit.ofPayment = (completed l.db.payments).map Debit.ofPayment ++ x.debits c := by
  rw [completed_append, List.map_append]
  cases hb : x.balance with
  | none =>
    rw [if_neg (hx.refused hb)]
    simp only [Settlement.debits, hb]
    rfl
  | some n =>
    rw [if_pos (hx.charged n hb).1]
    simp only [Settlement.debits, hb]
    show _ ++ [(⟨x.payment.orderId, x.payment.userId, x.payment.amount⟩ : Debit)] = _
    rw [hx.orderId, hx.userId, hx.amount]

theorem Settles.nonneg (hx : Settles l c x) (h : ∀ w ∈ l.db.wallets, 0 ≤ w.balance) :
    ∀ w ∈ x.charged c.userId l.db.wallets, 0 ≤ w.balance := by
  intro w hw
  cases hb : x.balance with
  | none =>
    simp only [Settlement.charged, hb] at hw
    exact h w hw
  | some n =>
    simp only [Settlement.charged, hb] at hw
    rcases mem_setBalance hw with he | hw
    · rw [he]
      exact (hx.charged n hb).2.2.1
    · exact h w hw

theorem Ledger.Inv.settle (h : l.Inv D) (hx : Settles l c x) (hc : c ∈ D)
    (hid : r.replyPayload.commandId = some c.commandId) (g : RowDefaults) :
    (l.settle g c r x).Inv D where
  wallets := hx.nonneg h.wallets
  orders := by
    show ((l.db.payments ++ [x.payment]).map Payment.orderId).Nodup
    rw [List.map_append, List.map_singleton, hx.orderId]
    exact h.orders.append (List.nodup_singleton _) (by simpa using hx.newOrder)
  debits := by
    show l.debits ++ x.debits c = _
    rw [h.debits]
    exact hx.debits.symm
  paid := hx.paid h.paid
  records := by
    intro k r' hr'
    have hmono : ∀ o ∈ l.db.payments.map Payment.orderId,
        o ∈ (l.db.payments ++ [x.payment]).map Payment.orderId := by
      intro o ho
      rw [List.map_append]
      exact List.mem_append_left _ ho
    have hr' : findKey k (saveKey c.commandId r l.db.idempotencyKeys) = some r' := hr'
    by_cases hk : k = c.commandId
    · rw [hk, findKey_saveKey] at hr'
      obtain rfl := Option.some.inj hr'
      refine ⟨hk ▸ hid, c, hc, hk.symm, ?_⟩
      show c.orderId ∈ (l.db.payments ++ [x.payment]).map Payment.orderId
      rw [List.map_append, List.map_singleton, hx.orderId]
      exact List.mem_append_right _ (List.mem_singleton.mpr rfl)
    · rw [findKey_saveKey_ne hk] at hr'
      obtain ⟨hid', c', hc', hk', ho⟩ := h.records k r' hr'
      exact ⟨hid', c', hc', hk', hmono _ ho⟩
  replies := by
    intro k hone row hrow hk
    show ∃ r', findKey k (saveKey c.commandId r l.db.idempotencyKeys) = some r' ∧ _
    rcases List.mem_append.mp hrow with hrow | hrow
    · obtain ⟨r', hr', hm⟩ := h.replies k hone row hrow hk
      have hne : k ≠ c.commandId := by
        rintro rfl
        rw [hx.unrecorded h hc hone] at hr'
        cases hr'
      exact ⟨r', (findKey_saveKey_ne hne r _).trans hr', hm⟩
    · obtain rfl := List.mem_singleton.mp hrow
      obtain rfl : c.commandId = k := Option.some.inj (hid.symm.trans hk)
      exact ⟨r, findKey_saveKey _ _ _, rfl⟩

/-! ## what a commit leaves alone -/

/-- the rows under `locks` are the same in both ledgers -/
structure Leaves (locks : List PaymentLock) (l l' : Ledger) : Prop where
  order : ∀ o, .order o ∈ locks → o ∉ l.db.payments.map Payment.orderId →
    o ∉ l'.db.payments.map Payment.orderId
  user : ∀ u, .user u ∈ locks →
    selectBy Wallet.userId u l'.db.wallets = selectBy Wallet.userId u l.db.wallets

theorem Leaves.settle {locks : List PaymentLock} (hx : Settles l c x)
    (hlocks : ∀ k ∈ x.locks, k ∉ locks) (g : RowDefaults) :
    Leaves locks l (l.settle g c r x) where
  order := by
    intro o ho hnew
    show o ∉ (l.db.payments ++ [x.payment]).map Payment.orderId
    have hne : o ≠ c.orderId := by
      rintro rfl
      exact hlocks _ hx.lockOrder ho
    rw [List.map_append, List.map_singleton, hx.orderId]
    intro hm
    rcases List.mem_append.mp hm with hm | hm
    · exact hnew hm
    · exact hne (List.mem_singleton.mp hm)
  user := by
    intro u hu
    show selectBy Wallet.userId u (x.charged c.userId l.db.wallets) = _
    cases hb : x.balance with
    | none => simp only [Settlement.charged, hb]
    | some n =>
      obtain ⟨_, hlock, _⟩ := hx.charged n hb
      have hne : u ≠ c.userId := by
        rintro rfl
        exact hlocks _ hlock hu
      simp only [Settlement.charged, hb]
      exact selectBy_updateBy_ne (Wallet.withBalance_userId n) hne _

theorem Leaves.create {locks : List PaymentLock} (hw : .user w.userId ∉ locks) :
    Leaves locks l (l.create w) where
  order := fun _ _ hnew => hnew
  user := by
    intro u hu
    have hne : w.userId ≠ u := by
      rintro rfl
      exact hw hu
    exact selectBy_append_ne hne

theorem Leaves.raise {locks : List PaymentLock} {userId : String} (hw : .user userId ∉ locks)
    (amount : Nat) (balance : Int) : Leaves locks l (l.raise userId amount balance) where
  order := fun _ _ hnew => hnew
  user := by
    intro u hu
    have hne : u ≠ userId := by
      rintro rfl
      exact hw hu
    exact selectBy_updateBy_ne (Wallet.withBalance_userId balance) hne _

theorem Settles.leaves {locks : List PaymentLock} (hx : Settles l c x)
    (hsub : ∀ k ∈ x.locks, k ∈ locks) (h : Leaves locks l l') : Settles l' c x where
  orderId := hx.orderId
  userId := hx.userId
  amount := hx.amount
  newOrder := h.order _ (hsub _ hx.lockOrder) hx.newOrder
  lockOrder := hx.lockOrder
  refused := hx.refused
  charged := by
    intro n hn
    obtain ⟨hdone, hlock, hpos, hw⟩ := hx.charged n hn
    exact ⟨hdone, hlock, hpos, by rw [h.user _ (hsub _ hlock)]; exact hw⟩

theorem Saves.leaves {locks : List PaymentLock} (h : Saves D l c r x)
    (hsub : ∀ k ∈ x.locks, k ∈ locks) (hl : Leaves locks l l') : Saves D l' c r x where
  mem := h.mem
  answers := h.answers
  settles := h.settles.leaves hsub hl

/-- a transaction whose locks were left alone does not notice the commit -/
theorem PaymentTx.Sound.leaves (hu : u.Sound D l) (h : Leaves u.held l l')
    (hkeys : ∀ k r, OneOrder D k → findKey k l.db.idempotencyKeys = some r →
      findKey k l'.db.idempotencyKeys = some r) : u.Sound D l' := by
  cases u with
  | replaying c r => exact ⟨hu.1, fun hone => hkeys _ r hone (hu.2 hone)⟩
  | charging c payment => exact ⟨hu.1, hu.2.leaves (fun _ hk => hk) h⟩
  | saving c r x => exact Saves.leaves hu (fun _ hk => hk) h
  | inserting c r x => exact Saves.leaves hu (fun _ hk => hk) h
  | updating c r x => exact Saves.leaves hu (fun _ hk => hk) h
  | finishing c r x => exact Saves.leaves hu (fun _ hk => List.mem_cons_of_mem _ hk) h
  | created w => exact ⟨hu.1, (h.user _ List.mem_cons_self).trans hu.2⟩
  | raised userId amount balance =>
    obtain ⟨w, hw, hn⟩ := hu
    exact ⟨w, (h.user _ List.mem_cons_self).trans hw, hn⟩
  | _ => exact hu

/-! ## accesses -/

/-- the accesses that change the committed tables -/
inductive PaymentTx.Commits (g : Generated) (l : Ledger) : PaymentTx → Ledger → Prop where
  | replays (c : ProcessPaymentCommand) (r : StoredResult) :
    Commits g l (.replaying c r) (l.replay g.row c r)
  | settles (c : ProcessPaymentCommand) (r : StoredResult) (x : Settlement) :
    Commits g l (.finishing c r x) (l.settle g.row c r x)
  | creates (w : Wallet) : Commits g l (.created w) (l.create w)
  | raises (userId : String) (amount : Nat) (balance : Int) :
    Commits g l (.raised userId amount balance) (l.raise userId amount balance)

/-- the unique index on the order: the payment is the first -/
theorem PaymentTx.Sound.inserted (hc : c ∈ D) {payments : List Payment}
    (h : insertPayment g.row.now g.ids l.db.payments ⟨c.orderId, c.userId, c.amount⟩ =
      .ok payments) :
    PaymentTx.Sound D l
      (.charging c (newPayment g.row.now g.ids ⟨c.orderId, c.userId, c.amount⟩)) := by
  obtain ⟨_, _, hnew⟩ := insertPayment_ok h
  refine ⟨hc, rfl, rfl, rfl, hnew, List.mem_cons_self, fun _ => ?_, fun n hn => ?_⟩
  · show PaymentStatus.pending ≠ .completed
    decide
  · cases hn

/-- `deduct` leaves a payment that is charged, or refused -/
theorem PaymentTx.Sound.deducted {payment : Payment} (hc : c ∈ D)
    (hx : Settles l c ⟨payment, none, PaymentTx.inserted c payment⟩) (g : Generated) :
    (PaymentTx.deducted g (selectBy Wallet.userId c.userId l.db.wallets) c payment).Sound D l := by
  have hrefused : ∀ locks, (∀ k ∈ PaymentTx.inserted c payment, k ∈ locks) →
      Settles l c ⟨payment, none, locks⟩ := by
    intro locks hsub
    refine ⟨hx.orderId, hx.userId, hx.amount, hx.newOrder, hsub _ hx.lockOrder, hx.refused, ?_⟩
    intro n hn
    cases hn
  unfold PaymentTx.deducted charge
  cases hw : selectBy Wallet.userId c.userId l.db.wallets with
  | none => exact ⟨hc, rfl, hrefused _ fun k hk => List.mem_append_left _ hk⟩
  | some w =>
    by_cases hlt : w.balance < c.amount
    · simp only [if_pos hlt]
      exact ⟨hc, rfl, hrefused _ fun k hk => List.mem_append_left _ hk⟩
    · simp only [if_neg hlt]
      have huser : PaymentLock.user c.userId ∈
          PaymentTx.inserted c payment ++ [PaymentLock.user w.userId] := by
        rw [(selectBy_some hw).2]
        exact List.mem_append_right _ (List.mem_singleton.mpr rfl)
      refine ⟨hc, rfl, hx.orderId, hx.userId, hx.amount, hx.newOrder,
        List.mem_append_left _ hx.lockOrder, fun hn => ?_, fun n hn => ?_⟩
      · cases hn
      · obtain rfl : w.balance - c.amount = n := Option.some.inj hn
        exact ⟨rfl, huser, by omega, w, hw, rfl⟩

theorem insertWallet_ok {id : Uuid} {userId : String} {balance : Int} {t t' : List Wallet}
    (h : insertWallet id userId balance t = .ok t') : selectBy Wallet.userId userId t = none := by
  refine selectBy_none.mpr fun w hw e => ?_
  have hmem : userId ∈ t.map Wallet.userId := List.mem_map.mpr ⟨w, hw, e⟩
  unfold insertWallet at h
  rw [if_pos (Or.inr (Or.inl hmem))] at h
  cases h

/-- an access commits, or leaves a transaction whose assertion holds -/
theorem PaymentTx.Sound.advance (hinv : l.Inv D) (ht : t.Sound D l)
    (ha : t.advance g l = some (l', t')) :
    (l' = l ∧ t'.Sound D l) ∨ (t.Commits g l l' ∧ t' = .ended) := by
  cases t with
  | started c =>
    simp only [PaymentTx.advance] at ha
    cases hr : findKey c.commandId l.db.idempotencyKeys with
    | none =>
      rw [hr] at ha
      cases ha
      exact Or.inl ⟨rfl, ht⟩
    | some r =>
      rw [hr] at ha
      cases ha
      exact Or.inl ⟨rfl, (hinv.records _ _ hr).1, fun _ => hr⟩
  | replaying c r => cases ha; exact Or.inr ⟨.replays c r, rfl⟩
  | paying c =>
    simp only [PaymentTx.advance] at ha
    split at ha
    · cases ha
      exact Or.inl ⟨rfl, trivial⟩
    · rename_i payments hins
      cases ha
      exact Or.inl ⟨rfl, .inserted ht hins⟩
  | charging c payment =>
    cases ha
    exact Or.inl ⟨rfl, .deducted ht.1 ht.2 g⟩
  | saving c r x =>
    simp only [PaymentTx.advance] at ha
    split at ha <;> cases ha <;> exact Or.inl ⟨rfl, ht⟩
  | inserting c r x =>
    simp only [PaymentTx.advance] at ha
    split at ha
    · cases ha
      exact Or.inl ⟨rfl, ht⟩
    · cases ha
      exact Or.inl ⟨rfl, trivial⟩
  | updating c r x =>
    cases ha
    exact Or.inl ⟨rfl, ht⟩
  | finishing c r x => cases ha; exact Or.inr ⟨.settles c r x, rfl⟩
  | registering userId amount =>
    simp only [PaymentTx.advance] at ha
    split at ha <;> cases ha <;> exact Or.inl ⟨rfl, trivial⟩
  | toppingUp userId amount =>
    simp only [PaymentTx.advance] at ha
    split at ha
    · rename_i w hw
      split at ha
      · cases ha
        exact Or.inl ⟨rfl, w, hw, rfl⟩
      · cases ha
        exact Or.inl ⟨rfl, trivial⟩
    · cases ha
      exact Or.inl ⟨rfl, trivial⟩
  | creating userId amount =>
    simp only [PaymentTx.advance] at ha
    split at ha
    · cases ha
      exact Or.inl ⟨rfl, trivial⟩
    · rename_i wallets hins
      cases ha
      exact Or.inl ⟨rfl, Int.natCast_nonneg amount, insertWallet_ok hins⟩
  | created w => cases ha; exact Or.inr ⟨.creates w, rfl⟩
  | raised userId amount balance => cases ha; exact Or.inr ⟨.raises userId amount balance, rfl⟩
  | ended => cases ha

/-- a commit keeps the tables -/
theorem PaymentTx.Commits.inv (hinv : l.Inv D) (ht : t.Sound D l) (h : t.Commits g l l') :
    l'.Inv D := by
  cases h with
  | replays c r => exact hinv.replay ht.1 ht.2 g.row
  | settles c r x => exact hinv.settle ht.settles ht.mem ht.answers g.row
  | creates w => exact hinv.create ht.1 ht.2
  | raises userId amount balance =>
    obtain ⟨w, hw, rfl⟩ := ht
    exact hinv.raise amount hw

/-- a commit leaves alone the transactions that hold other locks -/
theorem PaymentTx.Commits.other (hinv : l.Inv D) (ht : t.Sound D l) (h : t.Commits g l l')
    (hu : u.Sound D l) (hlocks : ∀ k ∈ t.held, k ∉ u.held) : u.Sound D l' := by
  cases h with
  | replays c r => exact hu.leaves ⟨fun _ _ hn => hn, fun _ _ => rfl⟩ fun _ _ _ hr => hr
  | settles c r x =>
    have hx := ht.settles
    refine hu.leaves (.settle hx (fun k hk => hlocks k (List.mem_cons_of_mem _ hk)) g.row) ?_
    intro k r' hone hr'
    have hne : k ≠ c.commandId := by
      rintro rfl
      rw [hx.unrecorded hinv ht.mem hone] at hr'
      cases hr'
    exact (findKey_saveKey_ne hne r _).trans hr'
  | creates w => exact hu.leaves (.create (hlocks _ List.mem_cons_self)) fun _ _ _ hr => hr
  | raises userId amount balance =>
    exact hu.leaves (.raise (hlocks _ List.mem_cons_self) amount balance) fun _ _ _ hr => hr

theorem stable_ledger (D : List ProcessPaymentCommand) : Stable PaymentTx.start PaymentTx.next
    PaymentTx.held (fun request => ∀ c, request = .process c → c ∈ D) (fun _ _ _ => True)
    (Ledger.Inv D) (PaymentTx.Sound D) where
  start_held := fun request => by cases request <;> rfl
  start_loc := by
    intro request l hD _
    cases request with
    | process c => exact hD c rfl
    | register userId amount => trivial
    | topUp userId amount => trivial
  own := by
    intro b l t l' t' hinv ht _ hn
    cases b with
    | abort =>
      cases hn
      exact ⟨hinv, trivial⟩
    | go g =>
      rcases ht.advance hinv hn with ⟨rfl, ht'⟩ | ⟨hcommit, rfl⟩
      · exact ⟨hinv, ht'⟩
      · exact ⟨hcommit.inv hinv ht, trivial⟩
  other := by
    intro b l t l' t' u hinv ht hu _ hn hlocks
    cases b with
    | abort =>
      cases hn
      exact hu
    | go g =>
      rcases ht.advance hinv hn with ⟨rfl, _⟩ | ⟨hcommit, _⟩
      · exact hu
      · exact hcommit.other hinv ht hu hlocks

end

theorem mem_commandsOf {as : List PaymentAction} {c : ProcessPaymentCommand}
    (h : .start (.process c) ∈ as) : c ∈ commandsOf as :=
  List.mem_filterMap.mpr ⟨_, h, rfl⟩

/-- **The books balance in every state that payment-service can reach.** -/
theorem wallet_ledger (as : List PaymentAction) :
    (run PaymentPool.step ⟨.empty, []⟩ as).db.Balanced (commandsOf as) := by
  have hgood := (stable_ledger (commandsOf as)).run (Ledger.Inv.empty _) as
    (fun request h c e => mem_commandsOf (e ▸ h)) (along_intro _ Pool.allows_true _ as)
  exact hgood.inv.balanced

/-- `n` accesses of a transaction -/
def PaymentAction.accesses (tx n : Nat) (payment : Char) : List PaymentAction :=
  let g : Generated := ⟨⟨.sample 'a', 0⟩, ⟨.sample payment, .sample 'd'⟩, .sample 'e'⟩
  List.replicate n (.access tx (.go g))

/-- **Two orders under one command id can get two replies.**  Their payments do not exclude each
other, both deliveries find no record, and the second updates the record of the first. -/
theorem replies_differ : ¬ ∀ as : List PaymentAction, (∀ c ∈ commandsOf as, 0 ≤ c.amount) →
    (run PaymentPool.step ⟨.empty, []⟩ as).db.Balanced (commandsOf as) ∧
      ∀ k, (run PaymentPool.step ⟨.empty, []⟩ as).db.SameReply k := by
  intro h
  let as : List PaymentAction := [.start (.register "user" 10000)] ++
    PaymentAction.accesses 0 3 'b' ++
    [.start (.process ⟨"command", "order-1", "corr", "user", 500⟩),
      .start (.process ⟨"command", "order-2", "corr", "user", 700⟩)] ++
    PaymentAction.accesses 1 1 'b' ++ PaymentAction.accesses 2 1 'c' ++
    PaymentAction.accesses 1 5 'b' ++ PaymentAction.accesses 2 5 'c'
  have hno : ¬ (run PaymentPool.step ⟨.empty, []⟩ as).db.SameReply "command" := by
    unfold Ledger.SameReply
    decide +kernel
  exact hno ((h as (by decide +kernel)).2 "command")

end Shop
