import Shop.Payment.Concurrent

/-!
# What a settled payment leaves behind

`processPayment` inserts the payment as PENDING and completes it once the wallet has been charged.
A charge that is refused is answered with PAYMENT_FAILED one level up, in a transaction that
commits, and nothing writes FAILED into the row.

* `SettledRow t reply`  what the reply says of the payment row of its order;
* `Covered t c`         the wallet covers the payment;
* `settled_covered`     a new payment is settled if and only if it is covered;
* `Ledger.AllSettled`   no order with a recorded reply has a payment that is still PENDING;
* `payments_settled`    both, for one transaction and for every run whose charges are covered.
-/

set_option linter.unusedSectionVars false

namespace Shop
open Lib

/-- the payment rows of an order -/
def rowsOf (t : List Payment) (orderId : String) : List Payment :=
  t.filter fun p => decide (p.orderId = orderId)

theorem mem_rowsOf {t : List Payment} {orderId : String} {p : Payment} :
    p ∈ rowsOf t orderId ↔ p ∈ t ∧ p.orderId = orderId := by
  unfold rowsOf
  rw [List.mem_filter, decide_eq_true_eq]

/-- the payment row of the order is what the reply says: COMPLETED under its transaction id, or
FAILED if there is one -/
def SettledRow (t : List Payment) : Payload → Prop
  | .paymentProcessed e => rowsOf t e.orderId ≠ [] ∧
    ∀ p ∈ rowsOf t e.orderId, p.status = .completed ∧ p.transactionId = some e.transactionId
  | .paymentFailed e => ∀ p ∈ rowsOf t e.orderId, p.status = .failed
  | _ => True

instance SettledRow.decidable (t : List Payment) :
    ∀ reply : Payload, Decidable (SettledRow t reply)
  | .paymentProcessed _ => inferInstanceAs (Decidable (_ ∧ _))
  | .paymentFailed e => inferInstanceAs (Decidable (∀ p ∈ rowsOf t e.orderId, p.status = .failed))
  | .reserveStock _ => .isTrue trivial
  | .releaseStock _ => .isTrue trivial
  | .processPayment _ => .isTrue trivial
  | .stockReserved _ => .isTrue trivial
  | .stockReservationFailed _ => .isTrue trivial
  | .stockReleased _ => .isTrue trivial
  | .orderConfirmed _ => .isTrue trivial
  | .orderCancelled _ => .isTrue trivial

/-- the wallet of the command's user is there, and its balance is enough -/
def Covered (t : List Wallet) (c : ProcessPaymentCommand) : Prop :=
  ∃ w ∈ selectBy Wallet.userId c.userId t, c.amount ≤ w.balance

instance (t : List Wallet) (c : ProcessPaymentCommand) : Decidable (Covered t c) :=
  inferInstanceAs (Decidable (∃ w ∈ selectBy Wallet.userId c.userId t, _))

/-! ## one transaction -/

section
variable {db db' : PaymentDb} {g : RowDefaults} {ids : PaymentIds} {c : ProcessPaymentCommand}

theorem charge_covered {t : List Wallet} (h : Covered t c) :
    ∃ balance, charge (selectBy Wallet.userId c.userId t) c.amount = .ok balance := by
  obtain ⟨w, hw, hle⟩ := h
  have hw : selectBy Wallet.userId c.userId t = some w := hw
  exact ⟨w.balance - c.amount, by rw [hw]; exact if_neg (Int.not_lt.mpr hle)⟩

theorem charge_uncovered {t : List Wallet} (h : ¬ Covered t c) :
    ∃ e, charge (selectBy Wallet.userId c.userId t) c.amount = .error e := by
  cases hw : selectBy Wallet.userId c.userId t with
  | none => exact ⟨.insufficientFunds 0 c.amount, rfl⟩
  | some w =>
    have hlt : w.balance < c.amount := Int.not_le.mp fun hle => h ⟨w, hw, hle⟩
    exact ⟨.insufficientFunds w.balance c.amount, if_pos hlt⟩

/-- the payment that a new command inserts -/
def PaymentDb.paymentOf (g : RowDefaults) (ids : PaymentIds) (c : ProcessPaymentCommand) : Payment :=
  newPayment g.now ids ⟨c.orderId, c.userId, c.amount⟩

/-- the row of the order after an insert: the one that was inserted -/
theorem rowsOf_append {t : List Payment} {p : Payment} {orderId : String}
    (hnew : orderId ∉ t.map Payment.orderId) (hp : p.orderId = orderId) :
    rowsOf (t ++ [p]) orderId = [p] := by
  have hnil : rowsOf t orderId = [] := by
    refine List.filter_eq_nil_iff.mpr fun q hq e => ?_
    exact hnew (of_decide_eq_true e ▸ List.mem_map_of_mem hq)
  have hone : rowsOf [p] orderId = [p] := List.filter_cons_of_pos (by simpa using hp)
  have happ : rowsOf (t ++ [p]) orderId = rowsOf t orderId ++ rowsOf [p] orderId :=
    List.filter_append t [p]
  rw [happ, hnil, hone, List.nil_append]

/-- what a new command that commits has written: its payment, and its reply -/
theorem handleProcessPayment_new (hnew : findKey c.commandId db.idempotencyKeys = none)
    (h : db.handleProcessPayment g ids c = .ok db') :
    c.orderId ∉ db.payments.map Payment.orderId ∧
    ((Covered db.wallets c ∧
      db'.payments = db.payments ++ [(PaymentDb.paymentOf g ids c).complete (transactionId ids)] ∧
      findKey c.commandId db'.idempotencyKeys =
        some (PaymentDb.processedReply c (transactionId ids))) ∨
    (¬ Covered db.wallets c ∧ db'.payments = db.payments ++ [PaymentDb.paymentOf g ids c] ∧
      ∃ e, findKey c.commandId db'.idempotencyKeys = some (PaymentDb.failedReply c e))) := by
  unfold PaymentDb.handleProcessPayment at h
  simp only [hnew] at h
  obtain ⟨payments, hins, h⟩ := bind_eq_ok h
  obtain ⟨rfl, hid, horder⟩ := insertPayment_ok hins
  refine ⟨horder, ?_⟩
  by_cases hc : Covered db.wallets c
  · obtain ⟨balance, hb⟩ := charge_covered hc
    have hdone := completePayment_append (p := PaymentDb.paymentOf g ids c) rfl hid
    simp only [deduct, hb] at h
    cases h
    exact Or.inl ⟨hc, hdone, findKey_saveKey _ _ _⟩
  · obtain ⟨e, he⟩ := charge_uncovered hc
    simp only [deduct, he] at h
    cases h
    exact Or.inr ⟨hc, rfl, e, findKey_saveKey _ _ _⟩

/-- the reply to the command has been recorded, and is what the payment row of the order says; the
row is not PENDING -/
def PaymentDb.Settles (db : PaymentDb) (c : ProcessPaymentCommand) : Prop :=
  ∃ r ∈ findKey c.commandId db.idempotencyKeys, SettledRow db.payments r.replyPayload ∧
    ∀ p ∈ rowsOf db.payments c.orderId, p.status ≠ .pending

/-- **A new command settles the payment of its order exactly if the wallet covers it.** -/
theorem settled_covered (hnew : findKey c.commandId db.idempotencyKeys = none)
    (h : db.handleProcessPayment g ids c = .ok db') :
    db'.Settles c ↔ Covered db.wallets c := by
  obtain ⟨horder, ⟨hc, hpay, hr⟩ | ⟨hc, hpay, e, hr⟩⟩ := handleProcessPayment_new hnew h
  · refine iff_of_true ⟨_, hr, ?_⟩ hc
    have hrow := rowsOf_append
      (p := (PaymentDb.paymentOf g ids c).complete (transactionId ids)) horder rfl
    rw [hpay, hrow]
    refine ⟨?_, fun p hp => ?_⟩
    · show rowsOf _ c.orderId ≠ [] ∧ ∀ p ∈ rowsOf _ c.orderId, _
      rw [hrow]
      refine ⟨List.cons_ne_nil _ _, fun p hp => ?_⟩
      rw [List.mem_singleton.mp hp]
      exact ⟨rfl, rfl⟩
    · rw [List.mem_singleton.mp hp]
      show PaymentStatus.completed ≠ .pending
      decide
  · refine iff_of_false ?_ hc
    rintro ⟨r, _, _, hpending⟩
    rw [hpay, rowsOf_append (p := PaymentDb.paymentOf g ids c) horder rfl] at hpending
    exact hpending _ List.mem_cons_self rfl

end

/-! ## every run -/

/-- the order that a reply of payment-service is for -/
def paidOrder : Payload → Option String
  | .paymentProcessed e => some e.orderId
  | .paymentFailed e => some e.orderId
  | _ => none

/-- every recorded reply is what the payment row of its order says, and no order with a recorded
reply has a payment that is still PENDING -/
def Ledger.AllSettled (l : Ledger) : Prop :=
  ∀ row ∈ l.db.idempotencyKeys, SettledRow l.db.payments row.result.replyPayload ∧
    ∀ p ∈ l.db.payments, paidOrder row.result.replyPayload = some p.orderId → p.status ≠ .pending

instance (l : Ledger) : Decidable l.AllSettled :=
  inferInstanceAs (Decidable (∀ row ∈ l.db.idempotencyKeys, SettledRow _ _ ∧
    ∀ p ∈ l.db.payments, _))

/-- the payment whose wallet is charged next -/
def PaymentTx.charges : PaymentTx → List ProcessPaymentCommand
  | .charging c _ => [c]
  | _ => []

/-- an access that charges a wallet for a payment finds the payment covered -/
def covers : PaymentAccess → Ledger → PaymentTx → Prop
  | .go _, l, t => ∀ c ∈ t.charges, Covered l.db.wallets c
  | .abort, _, _ => True

instance : ∀ b l t, Decidable (covers b l t)
  | .go _, l, t => inferInstanceAs (Decidable (∀ c ∈ t.charges, Covered l.db.wallets c))
  | .abort, _, _ => .isTrue trivial

/-- a payment that has been charged, and the reply that says so -/
structure Paid (c : ProcessPaymentCommand) (r : StoredResult) (x : Settlement) : Prop where
  reply : ∃ txn, r = PaymentDb.processedReply c txn ∧ x.payment.transactionId = some txn
  completed : x.payment.status = .completed

/-- a payment that is about to be recorded has been charged -/
def PaymentTx.Pays : PaymentTx → Prop
  | .saving c r x => Paid c r x
  | .inserting c r x => Paid c r x
  | .updating c r x => Paid c r x
  | .finishing c r x => Paid c r x
  | _ => True

/-- all committed payments are complete, and the replies are those of committed payments -/
structure Ledger.Clear (l : Ledger) : Prop where
  completed : ∀ p ∈ l.db.payments, p.status = .completed
  recorded : ∀ row ∈ l.db.idempotencyKeys, ∃ c txn,
    row.result = PaymentDb.processedReply c txn ∧
      ∃ p ∈ l.db.payments, p.orderId = c.orderId ∧ p.transactionId = some txn

section
variable {D : List ProcessPaymentCommand} {l l' : Ledger} {g : Generated} {t t' : PaymentTx}
  {c : ProcessPaymentCommand} {r : StoredResult} {x : Settlement}

theorem Ledger.Clear.allSettled (h : l.Clear)
    (horders : (l.db.payments.map Payment.orderId).Nodup) : l.AllSettled := by
  intro row hrow
  obtain ⟨c, txn, hr, p, hp, ho, htxn⟩ := h.recorded row hrow
  rw [hr]
  refine ⟨⟨?_, ?_⟩, fun q hq _ => ?_⟩
  · exact List.ne_nil_of_mem (mem_rowsOf.mpr ⟨hp, ho⟩)
  · intro q hq
    obtain ⟨hq, hqo⟩ := mem_rowsOf.mp hq
    obtain rfl : q = p := key_inj horders hq hp (hqo.trans ho.symm)
    exact ⟨h.completed q hq, htxn⟩
  · rw [h.completed q hq]
    decide

/-- the commit of a payment that has been charged -/
theorem Ledger.Clear.settle (h : l.Clear) (hx : Settles l c x) (hpaid : Paid c r x)
    (g : RowDefaults) : (l.settle g c r x).Clear where
  completed := by
    intro p hp
    rcases List.mem_append.mp hp with hp | hp
    · exact h.completed p hp
    · rw [List.mem_singleton.mp hp]
      exact hpaid.completed
  recorded := by
    intro row hrow
    rcases saveKey_result hrow with hr | hrow
    · obtain ⟨txn, hreply, htxn⟩ := hpaid.reply
      exact ⟨c, txn, hr.trans hreply, x.payment,
        List.mem_append_right _ (List.mem_singleton.mpr rfl), hx.orderId, htxn⟩
    · obtain ⟨c', txn, hr, p, hp, ho⟩ := h.recorded row hrow
      exact ⟨c', txn, hr, p, List.mem_append_left _ hp, ho⟩

theorem PaymentTx.Commits.clear (h : l.Clear) (ht : t.Sound D l) (hpays : t.Pays)
    (hcommit : t.Commits g l l') : l'.Clear := by
  cases hcommit with
  | replays c r => exact ⟨h.completed, h.recorded⟩
  | settles c r x => exact h.settle ht.settles hpays g.row
  | creates w => exact ⟨h.completed, h.recorded⟩
  | raises userId amount balance => exact ⟨h.completed, h.recorded⟩

/-- only a charge decides whether a payment is paid -/
theorem PaymentTx.Pays.advance (hpays : t.Pays) (hc : covers (.go g) l t)
    (ha : t.advance g l = some (l', t')) : t'.Pays := by
  cases t with
  | charging c payment =>
    cases ha
    obtain ⟨balance, hb⟩ := charge_covered (hc c List.mem_cons_self)
    simp only [PaymentTx.deducted, hb]
    exact ⟨⟨transactionId g.ids, rfl, rfl⟩, rfl⟩
  | saving c r x =>
    simp only [PaymentTx.advance] at ha
    split at ha <;> cases ha <;> exact hpays
  | inserting c r x =>
    simp only [PaymentTx.advance] at ha
    split at ha <;> cases ha
    · exact hpays
    · trivial
  | updating c r x =>
    cases ha
    exact hpays
  | toppingUp userId amount =>
    simp only [PaymentTx.advance] at ha
    split at ha
    · split at ha <;> cases ha <;> trivial
    · cases ha
      trivial
  | started c =>
    simp only [PaymentTx.advance] at ha
    split at ha <;> cases ha <;> trivial
  | paying c =>
    simp only [PaymentTx.advance] at ha
    split at ha <;> cases ha <;> trivial
  | registering userId amount =>
    simp only [PaymentTx.advance] at ha
    split at ha <;> cases ha <;> trivial
  | creating userId amount =>
    simp only [PaymentTx.advance] at ha
    split at ha <;> cases ha <;> trivial
  | replaying c r => cases ha; trivial
  | finishing c r x => cases ha; trivial
  | created w => cases ha; trivial
  | raised userId amount balance => cases ha; trivial
  | ended => cases ha

theorem stable_clear (D : List ProcessPaymentCommand) : Stable PaymentTx.start PaymentTx.next
    PaymentTx.held (fun request => ∀ c, request = .process c → c ∈ D) covers
    (fun l => l.Inv D ∧ l.Clear) (fun l t => t.Sound D l ∧ t.Pays) where
  start_held := (stable_ledger D).start_held
  start_loc := by
    intro request l hD hinv
    refine ⟨(stable_ledger D).start_loc request l hD hinv.1, ?_⟩
    cases request <;> trivial
  own := by
    intro b l t l' t' hinv ht hc hn
    obtain ⟨hinv', ht'⟩ := (stable_ledger D).own b l t l' t' hinv.1 ht.1 trivial hn
    cases b with
    | abort =>
      cases hn
      exact ⟨hinv, trivial, trivial⟩
    | go g =>
      have hpays := ht.2.advance hc hn
      rcases ht.1.advance hinv.1 hn with ⟨rfl, _⟩ | ⟨hcommit, rfl⟩
      · exact ⟨hinv, ht', hpays⟩
      · exact ⟨⟨hinv', hcommit.clear hinv.2 ht.1 ht.2⟩, ht', hpays⟩
  other := by
    intro b l t l' t' u hinv ht hu _ hn hlocks
    exact ⟨(stable_ledger D).other b l t l' t' u hinv.1 ht.1 hu.1 trivial hn hlocks, hu.2⟩

end

/-- **A payment command leaves a settled payment exactly if the wallet covers it, and in every run
in which the wallets cover the payments that are charged no payment with a reply is PENDING.** -/
theorem payments_settled (g : RowDefaults) (ids : PaymentIds) (db db' : PaymentDb)
    (c : ProcessPaymentCommand) (as : List PaymentAction) :
    (findKey c.commandId db.idempotencyKeys = none → db.handleProcessPayment g ids c = .ok db' →
      (db'.Settles c ↔ Covered db.wallets c)) ∧
    (Along PaymentPool.step (Pool.allows covers) ⟨.empty, []⟩ as →
      (run PaymentPool.step ⟨.empty, []⟩ as).db.AllSettled) := by
  refine ⟨fun hnew h => settled_covered hnew h, fun hc => ?_⟩
  have hempty : Ledger.empty.Clear :=
    ⟨fun _ h => absurd h List.not_mem_nil, fun _ h => absurd h List.not_mem_nil⟩
  have hgood := (stable_clear (commandsOf as)).run ⟨Ledger.Inv.empty _, hempty⟩ as
    (fun request h c e => mem_commandsOf (e ▸ h)) hc
  exact hgood.inv.2.allSettled hgood.inv.1.orders

/-- a user registers with 100.00 and pays 5.00 -/
theorem payments_settled_paid :
    let g : RowDefaults := ⟨.sample 'a', 0⟩
    let ids : PaymentIds := ⟨.sample 'b', .sample 'd'⟩
    let c : ProcessPaymentCommand := ⟨"command", "order", "corr", "user", 500⟩
    let as : List PaymentAction := [.start (.register "user" 10000)] ++
      PaymentAction.accesses 0 3 'b' ++ [.start (.process c)] ++ PaymentAction.accesses 1 6 'b'
    let db : PaymentDb := { PaymentDb.empty with wallets := [⟨"w", "user", 10000⟩] }
    (commit db (db.handleProcessPayment g ids c)).Settles c ∧
      (run PaymentPool.step ⟨.empty, []⟩ as).db.AllSettled := by
  intro g ids c as db
  have hok : db.handleProcessPayment g ids c =
      .ok (commit db (db.handleProcessPayment g ids c)) := by decide +kernel
  have h := payments_settled g ids db (commit db (db.handleProcessPayment g ids c)) c as
  exact ⟨(h.1 rfl hok).mpr (by decide +kernel), h.2 (by decide +kernel)⟩

/-- **A payment that is refused stays PENDING.**  The user has no wallet: the reply is
PAYMENT_FAILED. -/
theorem payments_pending : ¬ ∀ as : List PaymentAction,
    (run PaymentPool.step ⟨.empty, []⟩ as).db.AllSettled := by
  intro h
  let as : List PaymentAction := [.start (.process ⟨"command", "order", "corr", "user", 500⟩)] ++
    PaymentAction.accesses 0 6 'b'
  have hno : ¬ (run PaymentPool.step ⟨.empty, []⟩ as).db.AllSettled := by decide +kernel
  exact hno (h as)

end Shop
