import Shop.Payment.Concurrent
import Shop.Lib.Serial

/-!
# Transactions of payment-service are serializable

* `Same a b`          the same tables, up to the order of the payments and of the replies;
* `outcome`           what a payment comes to on the wallet that it finds: its reply, its row and the
                      new balance;
* `Ahead e a b`       `b` is `a` with a payment that was refused for want of a wallet in front;
* `PaymentTx.Serves`  what a transaction that is under way would commit, for the request that it
                      serves;
* `payments_serial`   the committed tables are those that the handlers leave, one by one, in some order
                      of the requests.

A payment reads its wallet under a lock, so it may take its place when it commits.  One that finds no
wallet locks none, and the wallet may be there when it commits; it takes its place before all others,
where there are no wallets yet.
-/

set_option linter.unusedSectionVars false

namespace Shop
open Lib

/-! ## the handlers -/

/-- a request with what is generated for it -/
abbrev PaymentEvent := Generated × PaymentRequest

def PaymentEvent.handle (e : PaymentEvent) (db : PaymentDb) : PaymentDb :=
  Lib.commit db (e.2.handle e.1 db)

/-- the same tables, up to the order of the payments and of the replies -/
structure Same (a b : PaymentDb) : Prop where
  payments : a.payments.Perm b.payments
  wallets : a.wallets = b.wallets
  records : ∀ k, findKey k a.idempotencyKeys = findKey k b.idempotencyKeys
  outbox : (messages a.outbox).Perm (messages b.outbox)

theorem Same.refl (a : PaymentDb) : Same a a := ⟨.refl _, rfl, fun _ => rfl, .refl _⟩

def ProcessPaymentCommand.input (c : ProcessPaymentCommand) : ProcessPaymentInput :=
  ⟨c.orderId, c.userId, c.amount⟩

/-- what a payment comes to: its reply, its row and the new balance of the wallet -/
def outcome (now : Nat) (ids : PaymentIds) (c : ProcessPaymentCommand) (wallet : Option Wallet) :
    StoredResult × Payment × Option Int :=
  match charge wallet c.amount with
  | .ok balance => (PaymentDb.processedReply c (transactionId ids),
      (newPayment now ids c.input).complete (transactionId ids), some balance)
  | .error e => (PaymentDb.failedReply c e, newPayment now ids c.input, none)

/-- the tables after a payment that came to `o` -/
def PaymentDb.settled (db : PaymentDb) (g : RowDefaults) (c : ProcessPaymentCommand)
    (o : StoredResult × Payment × Option Int) : PaymentDb :=
  { db with
    payments := db.payments ++ [o.2.1]
    wallets := o.2.2.elim db.wallets fun balance => setBalance c.userId balance db.wallets }.reply g
      c o.1

/-- a payment can be inserted: neither its id nor its order is there, and the amount fits -/
def Insertable (db : PaymentDb) (ids : PaymentIds) (c : ProcessPaymentCommand) : Prop :=
  ids.payment.val ∉ db.payments.map Payment.id ∧ c.orderId ∉ db.payments.map Payment.orderId ∧
    fitsDecimal 10 c.amount = true

section
variable {db : PaymentDb} {g : RowDefaults} {ids : PaymentIds} {c : ProcessPaymentCommand}

theorem insertPayment_insertable (now : Nat) (h : Insertable db ids c) :
    insertPayment now ids db.payments c.input = .ok (db.payments ++ [newPayment now ids c.input]) := by
  unfold insertPayment
  rw [if_neg]
  rintro (hid | ho | hfit)
  · exact h.1 hid
  · exact h.2.1 ho
  · rw [show c.input.amount = c.amount from rfl, h.2.2] at hfit
    cases hfit

theorem insertPayment_refused (now : Nat) (h : ¬ Insertable db ids c) :
    insertPayment now ids db.payments c.input = .error .queryFailed := by
  unfold insertPayment
  rw [if_pos]
  by_contra hno
  refine h ⟨fun e => hno (Or.inl e), fun e => hno (Or.inr (Or.inl e)), ?_⟩
  cases hfit : fitsDecimal 10 c.amount with
  | true => rfl
  | false => exact absurd (Or.inr (Or.inr hfit)) hno

theorem handle_replay {r : StoredResult} (h : findKey c.commandId db.idempotencyKeys = some r) :
    Lib.commit db (db.handleProcessPayment g ids c) = db.write g c.orderId r := by
  unfold PaymentDb.handleProcessPayment
  rw [h]
  rfl

theorem handle_violation (hk : findKey c.commandId db.idempotencyKeys = none)
    (h : ¬ Insertable db ids c) : Lib.commit db (db.handleProcessPayment g ids c) = db := by
  unfold PaymentDb.handleProcessPayment
  simp only [hk]
  rw [show insertPayment g.now ids db.payments ⟨c.orderId, c.userId, c.amount⟩ = _ from
    insertPayment_refused g.now h]
  rfl

theorem handle_new (hk : findKey c.commandId db.idempotencyKeys = none) (h : Insertable db ids c) :
    Lib.commit db (db.handleProcessPayment g ids c) =
      db.settled g c (outcome g.now ids c (selectBy Wallet.userId c.userId db.wallets)) := by
  unfold PaymentDb.handleProcessPayment
  simp only [hk]
  rw [show insertPayment g.now ids db.payments ⟨c.orderId, c.userId, c.amount⟩ = _ from
    insertPayment_insertable g.now h, bind_ok]
  unfold deduct outcome
  cases charge (selectBy Wallet.userId c.userId db.wallets) c.amount with
  | error e => rfl
  | ok balance =>
    have hdone := completePayment_append (p := newPayment g.now ids c.input) rfl h.1
    simp only [hdone]
    rfl

end

/-! ## the same tables give the same tables -/

section
variable {a b : PaymentDb} {c : ProcessPaymentCommand}

theorem Same.insertable (h : Same a b) (ids : PaymentIds) :
    Insertable a ids c ↔ Insertable b ids c := by
  unfold Insertable
  rw [(h.payments.map Payment.id).mem_iff, (h.payments.map Payment.orderId).mem_iff]

theorem Same.write (h : Same a b) (g g' : RowDefaults) (x : String) (r : StoredResult) :
    Same (a.write g x r) (b.write g' x r) where
  payments := h.payments
  wallets := h.wallets
  records := h.records
  outbox := by
    show (messages (a.outbox ++ [_])).Perm (messages (b.outbox ++ [_]))
    rw [messages_append, messages_append]
    exact h.outbox.append (.refl _)

theorem records_saveKey {t t' : List IdempotencyKey} (h : ∀ k, findKey k t = findKey k t')
    (k : String) (r : StoredResult) :
    ∀ k', findKey k' (saveKey k r t) = findKey k' (saveKey k r t') := by
  intro k'
  by_cases hk : k' = k
  · rw [hk, findKey_saveKey, findKey_saveKey]
  · rw [findKey_saveKey_ne hk, findKey_saveKey_ne hk, h]

theorem Same.reply (h : Same a b) (g g' : RowDefaults) (c : ProcessPaymentCommand)
    (r : StoredResult) : Same (a.reply g c r) (b.reply g' c r) := by
  have hkeys : Same { a with idempotencyKeys := saveKey c.commandId r a.idempotencyKeys }
      { b with idempotencyKeys := saveKey c.commandId r b.idempotencyKeys } :=
    ⟨h.payments, h.wallets, records_saveKey h.records _ _, h.outbox⟩
  exact hkeys.write g g' c.orderId r

theorem Same.settled (h : Same a b) (g g' : RowDefaults) (c : ProcessPaymentCommand)
    (o : StoredResult × Payment × Option Int) : Same (a.settled g c o) (b.settled g' c o) := by
  have hrow : Same { a with
      payments := a.payments ++ [o.2.1]
      wallets := o.2.2.elim a.wallets fun balance => setBalance c.userId balance a.wallets } { b with
      payments := b.payments ++ [o.2.1]
      wallets := o.2.2.elim b.wallets fun balance => setBalance c.userId balance b.wallets } :=
    ⟨h.payments.append (.refl _), by rw [h.wallets], h.records, h.outbox⟩
  exact hrow.reply g g' c o.1

theorem Same.withWallets (h : Same a b) (t : List Wallet) :
    Same { a with wallets := t } { b with wallets := t } := ⟨h.payments, rfl, h.records, h.outbox⟩

/-- the wallets after a request that credits one -/
def PaymentRequest.credit (g : Generated) (t : List Wallet) : PaymentRequest → List Wallet
  | .process _ => t
  | .register u n =>
    match selectBy Wallet.userId u t with
    | some _ => t
    | none => Lib.commit t (insertWallet g.wallet u n t)
  | .topUp u n =>
    match selectBy Wallet.userId u t with
    | some w => if fitsDecimal 12 (w.balance + n) then setBalance u (w.balance + n) t else t
    | none => Lib.commit t (insertWallet g.wallet u n t)

/-- it reads and writes the wallets only -/
theorem handle_credit (g : Generated) {request : PaymentRequest} (h : ∀ c, request ≠ .process c)
    (db : PaymentDb) : PaymentEvent.handle (g, request) db =
      { db with wallets := request.credit g db.wallets } := by
  cases request with
  | process c => exact absurd rfl (h c)
  | register u n =>
    show Lib.commit db (db.handleUserRegistered g.wallet n u) = _
    cases hs : selectBy Wallet.userId u db.wallets with
    | some w =>
      simp only [PaymentDb.handleUserRegistered, PaymentRequest.credit, hs]
      rfl
    | none =>
      cases hw : insertWallet g.wallet u n db.wallets <;>
        simp only [PaymentDb.handleUserRegistered, PaymentRequest.credit, hs, hw] <;> rfl
  | topUp u n =>
    show Lib.commit db (db.topUp g.wallet u n) = _
    cases hs : selectBy Wallet.userId u db.wallets with
    | some w =>
      simp only [PaymentDb.topUp, PaymentRequest.credit, hs]
      split <;> rfl
    | none =>
      cases hw : insertWallet g.wallet u n db.wallets <;>
        simp only [PaymentDb.topUp, PaymentRequest.credit, hs, hw] <;> rfl

end

/-! ## a payment in front of the others -/

theorem outcome_row (now : Nat) (ids : PaymentIds) (c : ProcessPaymentCommand)
    (wallet : Option Wallet) : (outcome now ids c wallet).2.1.id = ids.payment.val ∧
      (outcome now ids c wallet).2.1.orderId = c.orderId := by
  unfold outcome
  cases charge wallet c.amount <;> exact ⟨rfl, rfl⟩

/-- payments are appended, never changed -/
theorem handle_payments (e : PaymentEvent) (db : PaymentDb) :
    ∃ more, (e.handle db).payments = db.payments ++ more := by
  obtain ⟨g, request⟩ := e
  by_cases hp : ∀ c, request ≠ .process c
  · rw [handle_credit g hp]
    exact ⟨[], (List.append_nil _).symm⟩
  · obtain ⟨c, rfl⟩ := not_forall_not.mp hp
    show ∃ more, (Lib.commit db (db.handleProcessPayment g.row g.ids c)).payments = _
    cases hk : findKey c.commandId db.idempotencyKeys with
    | some r =>
      rw [handle_replay hk]
      exact ⟨[], (List.append_nil _).symm⟩
    | none =>
      by_cases hi : Insertable db g.ids c
      · rw [handle_new hk hi]
        exact ⟨_, rfl⟩
      · rw [handle_violation hk hi]
        exact ⟨[], (List.append_nil _).symm⟩

theorem serially_payments (es : List PaymentEvent) (db : PaymentDb) :
    ∃ more, (serially PaymentEvent.handle db es).payments = db.payments ++ more := by
  induction es generalizing db with
  | nil => exact ⟨[], (List.append_nil _).symm⟩
  | cons e es ih =>
    obtain ⟨m, hm⟩ := handle_payments e db
    obtain ⟨n, hn⟩ := ih (e.handle db)
    refine ⟨m ++ n, ?_⟩
    show (serially PaymentEvent.handle (e.handle db) es).payments = _
    rw [hn, hm, List.append_assoc]

/-- `b` is `a` with the payment `p` of the command `c`, and the reply `r` -/
structure Ahead (c : ProcessPaymentCommand) (p : Payment) (r : StoredResult) (a b : PaymentDb) :
    Prop where
  payments : b.payments.Perm (p :: a.payments)
  wallets : b.wallets = a.wallets
  records : ∀ k, findKey k b.idempotencyKeys =
    if k = c.commandId then some r else findKey k a.idempotencyKeys
  outbox : (messages b.outbox).Perm (⟨r.replyTopic, r.replyPayload⟩ :: messages a.outbox)

section
variable {a b : PaymentDb} {c : ProcessPaymentCommand} {p : Payment} {r : StoredResult}

theorem Ahead.write (h : Ahead c p r a b) (g : RowDefaults) (x : String) (r' : StoredResult) :
    Ahead c p r (a.write g x r') (b.write g x r') where
  payments := h.payments
  wallets := h.wallets
  records := h.records
  outbox := by
    show (messages (b.outbox ++ [_])).Perm (_ :: messages (a.outbox ++ [_]))
    rw [messages_append, messages_append, ← List.cons_append]
    exact h.outbox.append (.refl _)

theorem Ahead.settled (h : Ahead c p r a b) (g : RowDefaults) {c' : ProcessPaymentCommand}
    (hne : c'.commandId ≠ c.commandId) (o : StoredResult × Payment × Option Int) :
    Ahead c p r (a.settled g c' o) (b.settled g c' o) := by
  refine Ahead.write (a := { a with
    payments := a.payments ++ [o.2.1]
    wallets := o.2.2.elim a.wallets fun balance => setBalance c'.userId balance a.wallets
    idempotencyKeys := saveKey c'.commandId o.1 a.idempotencyKeys }) (b := { b with
    payments := b.payments ++ [o.2.1]
    wallets := o.2.2.elim b.wallets fun balance => setBalance c'.userId balance b.wallets
    idempotencyKeys := saveKey c'.commandId o.1 b.idempotencyKeys })
    ⟨h.payments.append (.refl [o.2.1]), by rw [h.wallets], fun k => ?_, h.outbox⟩ g c'.orderId o.1
  by_cases hk : k = c'.commandId
  · rw [if_neg fun e => hne (hk.symm.trans e), hk, findKey_saveKey, findKey_saveKey]
  · rw [findKey_saveKey_ne hk, findKey_saveKey_ne hk, h.records]

/-- a handler that runs after the payment does what it would do without it, unless it serves the same
command, or inserts a payment of the same id or for the same order -/
theorem Ahead.handle (h : Ahead c p r a b) (e : PaymentEvent)
    (hne : ∀ c', e.2 = .process c' → c'.commandId ≠ c.commandId)
    (hid : p.id ∉ (e.handle a).payments.map Payment.id)
    (ho : p.orderId ∉ (e.handle a).payments.map Payment.orderId) :
    Ahead c p r (e.handle a) (e.handle b) := by
  obtain ⟨g, request⟩ := e
  by_cases hp : ∀ c, request ≠ .process c
  · rw [handle_credit g hp, handle_credit g hp, h.wallets]
    exact ⟨h.payments, rfl, h.records, h.outbox⟩
  · obtain ⟨c', rfl⟩ := not_forall_not.mp hp
    have hc' := hne c' rfl
    have hrec : findKey c'.commandId b.idempotencyKeys = findKey c'.commandId a.idempotencyKeys := by
      rw [h.records, if_neg hc']
    change p.id ∉ (Lib.commit a (a.handleProcessPayment g.row g.ids c')).payments.map _ at hid
    change p.orderId ∉ (Lib.commit a (a.handleProcessPayment g.row g.ids c')).payments.map _ at ho
    show Ahead c p r (Lib.commit a (a.handleProcessPayment g.row g.ids c'))
      (Lib.commit b (b.handleProcessPayment g.row g.ids c'))
    cases hk : findKey c'.commandId a.idempotencyKeys with
    | some r' =>
      rw [handle_replay hk, handle_replay (hrec.trans hk)]
      exact h.write _ _ _
    | none =>
      have hmem : ∀ x, x ∈ b.payments ↔ x = p ∨ x ∈ a.payments := fun x => by
        rw [h.payments.mem_iff, List.mem_cons]
      by_cases hi : Insertable a g.ids c'
      · rw [handle_new hk hi] at hid ho ⊢
        obtain ⟨hrid, hro⟩ := outcome_row g.row.now g.ids c'
          (selectBy Wallet.userId c'.userId a.wallets)
        have hib : Insertable b g.ids c' := by
          refine ⟨fun hx => ?_, fun hx => ?_, hi.2.2⟩
          · obtain ⟨x, hx, hxid⟩ := List.mem_map.mp hx
            rcases (hmem x).mp hx with rfl | hx
            · exact hid (List.mem_map.mpr ⟨_, List.mem_append_right _ (List.mem_singleton_self _),
                hrid.trans hxid.symm⟩)
            · exact hi.1 (hxid ▸ List.mem_map_of_mem hx)
          · obtain ⟨x, hx, hxo⟩ := List.mem_map.mp hx
            rcases (hmem x).mp hx with rfl | hx
            · exact ho (List.mem_map.mpr ⟨_, List.mem_append_right _ (List.mem_singleton_self _),
                hro.trans hxo.symm⟩)
            · exact hi.2.1 (hxo ▸ List.mem_map_of_mem hx)
        rw [handle_new (hrec.trans hk) hib, h.wallets]
        exact h.settled _ hc' _
      · have hib : ¬ Insertable b g.ids c' := by
          intro hib
          refine hi ⟨fun hx => hib.1 ?_, fun hx => hib.2.1 ?_, hib.2.2⟩
          · exact List.map_subset _ (fun x hx => (hmem x).mpr (Or.inr hx)) hx
          · exact List.map_subset _ (fun x hx => (hmem x).mpr (Or.inr hx)) hx
        rw [handle_violation hk hi, handle_violation (hrec.trans hk) hib]
        exact h

/-- the same for the handlers that run after it -/
theorem Ahead.serially (h : Ahead c p r a b) (es : List PaymentEvent)
    (hne : ∀ e ∈ es, ∀ c', e.2 = .process c' → c'.commandId ≠ c.commandId)
    (hid : p.id ∉ (serially PaymentEvent.handle a es).payments.map Payment.id)
    (ho : p.orderId ∉ (serially PaymentEvent.handle a es).payments.map Payment.orderId) :
    Ahead c p r (serially PaymentEvent.handle a es) (serially PaymentEvent.handle b es) := by
  induction es generalizing a b with
  | nil => exact h
  | cons e es ih =>
    obtain ⟨more, hmore⟩ := serially_payments es (e.handle a)
    change p.id ∉ (Lib.serially PaymentEvent.handle (e.handle a) es).payments.map _ at hid
    change p.orderId ∉ (Lib.serially PaymentEvent.handle (e.handle a) es).payments.map _ at ho
    refine ih (h.handle e (hne e List.mem_cons_self) (fun hx => hid ?_) fun hx => ho ?_)
      (fun f hf => hne f (List.mem_cons_of_mem _ hf)) hid ho
    · rw [hmore, List.map_append]
      exact List.mem_append_left _ hx
    · rw [hmore, List.map_append]
      exact List.mem_append_left _ hx

end

/-- a payment that comes first finds no wallet -/
theorem Ahead.first (g : Generated) {c : ProcessPaymentCommand}
    (hfit : fitsDecimal 10 c.amount = true) :
    Ahead c (newPayment g.row.now g.ids c.input)
      (PaymentDb.failedReply c (.insufficientFunds 0 c.amount)) .empty
      (PaymentEvent.handle (g, .process c) .empty) := by
  have hi : Insertable .empty g.ids c := ⟨List.not_mem_nil, List.not_mem_nil, hfit⟩
  have hnew : PaymentEvent.handle (g, .process c) .empty =
      PaymentDb.empty.settled g.row c (outcome g.row.now g.ids c none) := handle_new rfl hi
  rw [hnew]
  refine ⟨.refl _, rfl, fun k => ?_, .refl _⟩
  show findKey k (saveKey c.commandId _ []) = _
  by_cases hk : k = c.commandId
  · rw [if_pos hk, hk, findKey_saveKey]
    rfl
  · rw [if_neg hk, findKey_saveKey_ne hk]
    rfl

/-! ## what a transaction is about to commit -/

/-- a payment that has been inserted, and has come to `(r, x)` on the wallet that it found: the one
that is there, under its lock, or none -/
structure Settling (l : Ledger) (c : ProcessPaymentCommand) (r : StoredResult) (x : Settlement)
    (now : Nat) (ids : PaymentIds) (wallet : Option Wallet) : Prop where
  insertable : Insertable l.db ids c
  locks : ∀ k ∈ PaymentTx.inserted c (newPayment now ids c.input), k ∈ x.locks
  outcome : (r, x.payment, x.balance) = outcome now ids c wallet
  found : wallet = none ∨ (PaymentLock.user c.userId ∈ x.locks ∧
    selectBy Wallet.userId c.userId l.db.wallets = wallet)

/-- the two requests that credit a wallet -/
def Credits (request : PaymentRequest) (userId : String) (n : Nat) : Prop :=
  request = .register userId n ∨ request = .topUp userId n

/-- the wallet can be inserted: neither its id nor its user is there, and the balance fits -/
structure NewWallet (l : Ledger) (id : Uuid) (userId : String) (n : Nat) : Prop where
  user : selectBy Wallet.userId userId l.db.wallets = none
  id : id.val ∉ l.db.wallets.map Wallet.id
  fits : fitsDecimal 12 n = true

/-- what holds of a transaction that serves the request -/
def PaymentTx.Serves (l : Ledger) (request : PaymentRequest) : PaymentTx → Prop
  | .started c => request = .process c
  | .replaying c r => request = .process c ∧ findKey c.commandId l.db.idempotencyKeys = some r
  | .paying c => request = .process c
  | .charging c payment => request = .process c ∧ ∃ now ids,
      payment = newPayment now ids c.input ∧ Insertable l.db ids c
  | .saving c r x => request = .process c ∧ ∃ now ids wallet, Settling l c r x now ids wallet
  | .inserting c r x => request = .process c ∧ ∃ now ids wallet, Settling l c r x now ids wallet
  | .updating _ _ _ => False
  | .finishing c r x => request = .process c ∧ findKey c.commandId l.db.idempotencyKeys = none ∧
      ∃ now ids wallet, Settling l c r x now ids wallet
  | .registering userId n => request = .register userId n
  | .toppingUp userId n => request = .topUp userId n
  | .creating userId n => Credits request userId n
  | .created w => ∃ id, ∃ n : Nat, w = newWallet id w.userId n ∧ Credits request w.userId n ∧
      NewWallet l id w.userId n
  | .raised userId n balance => request = .topUp userId n ∧ ∃ w,
      selectBy Wallet.userId userId l.db.wallets = some w ∧ fitsDecimal 12 (w.balance + n) = true ∧
      balance = w.balance + n
  | .ended => True

theorem insertPayment_ok_insertable {now : Nat} {ids : PaymentIds} {db : PaymentDb}
    {c : ProcessPaymentCommand} {t : List Payment}
    (h : insertPayment now ids db.payments c.input = .ok t) : Insertable db ids c := by
  by_contra hno
  rw [insertPayment_refused now hno] at h
  cases h

theorem insertWallet_ok_new {l : Ledger} {id : Uuid} {userId : String} {n : Nat}
    {t : List Wallet} (h : insertWallet id userId n l.db.wallets = .ok t) :
    NewWallet l id userId n := by
  refine ⟨insertWallet_ok h, ?_, ?_⟩
  · intro hid
    unfold insertWallet at h
    rw [if_pos (Or.inl hid)] at h
    cases h
  · cases hfit : fitsDecimal 12 (n : Int) with
    | true => rfl
    | false =>
      unfold insertWallet at h
      rw [if_pos (Or.inr (Or.inr hfit))] at h
      cases h

section
variable {D : List ProcessPaymentCommand} {g : Generated} {l l' : Ledger} {t t' u : PaymentTx}
  {request : PaymentRequest}

/-- `deduct` reads the wallet, if there is one, under its lock -/
theorem PaymentTx.Serves.deducted {c : ProcessPaymentCommand} {now : Nat} {ids : PaymentIds}
    (hr : request = .process c) (hi : Insertable l.db ids c) :
    (PaymentTx.deducted g (selectBy Wallet.userId c.userId l.db.wallets) c
      (newPayment now ids c.input)).Serves l request := by
  have hfound : selectBy Wallet.userId c.userId l.db.wallets = none ∨
      PaymentLock.user c.userId ∈ PaymentTx.inserted c (newPayment now ids c.input) ++
        (selectBy Wallet.userId c.userId l.db.wallets).toList.map fun w => .user w.userId := by
    cases hw : selectBy Wallet.userId c.userId l.db.wallets with
    | none => exact Or.inl rfl
    | some w =>
      refine Or.inr (List.mem_append_right _ ?_)
      rw [← (selectBy_some hw).2]
      exact List.mem_singleton_self _
  generalize hw : selectBy Wallet.userId c.userId l.db.wallets = wallet at hfound ⊢
  have hsettling : ∀ r payment balance, (r, payment, balance) =
      outcome now ⟨ids.payment, g.ids.transaction⟩ c wallet →
      Settling l c r ⟨payment, balance, PaymentTx.inserted c (newPayment now ids c.input) ++
        wallet.toList.map fun w => .user w.userId⟩ now ⟨ids.payment, g.ids.transaction⟩ wallet :=
    fun r payment balance ho => ⟨hi, fun k hk => List.mem_append_left _ hk, ho,
      hfound.imp_right fun h => ⟨h, hw⟩⟩
  unfold PaymentTx.deducted
  cases hc : charge wallet c.amount with
  | ok balance =>
    exact ⟨hr, _, _, _, hsettling _ _ _ (by simp only [outcome, hc]; rfl)⟩
  | error e =>
    exact ⟨hr, _, _, _, hsettling _ _ _ (by simp only [outcome, hc]; rfl)⟩

theorem PaymentTx.Serves.advance (hone : ∀ k, OneOrder D k) (hinv : l.Inv D) (hs : t.Sound D l)
    (h : t.Serves l request) (ha : t.advance g l = some (l, t')) : t'.Serves l request := by
  cases t with
  | started c =>
    simp only [PaymentTx.advance] at ha
    cases hr : findKey c.commandId l.db.idempotencyKeys with
    | none =>
      rw [hr] at ha
      cases ha
      exact h
    | some r =>
      rw [hr] at ha
      cases ha
      exact ⟨h, hr⟩
  | replaying c r =>
    simp only [PaymentTx.advance, Option.some.injEq, Prod.mk.injEq] at ha
    rw [← ha.2]
    trivial
  | paying c =>
    simp only [PaymentTx.advance] at ha
    split at ha
    · cases ha
      trivial
    · rename_i payments hins
      cases ha
      exact ⟨h, _, _, rfl, insertPayment_ok_insertable hins⟩
  | charging c payment =>
    obtain ⟨hr, now, ids, rfl, hi⟩ := h
    cases ha
    exact .deducted hr hi
  | saving c r x =>
    have hnone := hs.settles.unrecorded hinv hs.mem (hone _)
    simp only [PaymentTx.advance, hnone] at ha
    cases ha
    exact h
  | inserting c r x =>
    simp only [PaymentTx.advance] at ha
    split at ha
    · rename_i hnone
      cases ha
      exact ⟨h.1, hnone, h.2⟩
    · cases ha
      trivial
  | updating c r x => exact absurd h not_false
  | finishing c r x =>
    simp only [PaymentTx.advance, Option.some.injEq, Prod.mk.injEq] at ha
    rw [← ha.2]
    trivial
  | registering userId n =>
    simp only [PaymentTx.advance] at ha
    split at ha
    · cases ha
      trivial
    · cases ha
      exact Or.inl h
  | toppingUp userId n =>
    simp only [PaymentTx.advance] at ha
    split at ha
    · rename_i w hw
      split at ha
      · rename_i hfit
        cases ha
        exact ⟨h, w, hw, hfit, rfl⟩
      · cases ha
        trivial
    · cases ha
      exact Or.inr h
  | creating userId n =>
    simp only [PaymentTx.advance] at ha
    split at ha
    · cases ha
      trivial
    · rename_i wallets hins
      cases ha
      exact ⟨g.wallet, n, rfl, h, insertWallet_ok_new hins⟩
  | created w =>
    simp only [PaymentTx.advance, Option.some.injEq, Prod.mk.injEq] at ha
    rw [← ha.2]
    trivial
  | raised userId n balance =>
    simp only [PaymentTx.advance, Option.some.injEq, Prod.mk.injEq] at ha
    rw [← ha.2]
    trivial
  | ended => cases ha

end

/-! ## what a commit leaves alone -/

/-- `l'` is `l` after a commit of another transaction, for whoever holds `locks` -/
structure Spares (locks : List PaymentLock) (l l' : Ledger) : Prop where
  rows : Leaves locks l l'
  payment : ∀ id, .payment id ∈ locks → id ∉ l.db.payments.map Payment.id →
    id ∉ l'.db.payments.map Payment.id
  wallet : ∀ id, .wallet id ∈ locks → id ∉ l.db.wallets.map Wallet.id →
    id ∉ l'.db.wallets.map Wallet.id
  records : ∀ k r, findKey k l.db.idempotencyKeys = some r → findKey k l'.db.idempotencyKeys = some r
  key : ∀ k, .key k ∈ locks → findKey k l.db.idempotencyKeys = none →
    findKey k l'.db.idempotencyKeys = none

theorem setBalance_ids (userId : String) (n : Int) (t : List Wallet) :
    (setBalance userId n t).map Wallet.id = t.map Wallet.id :=
  map_updateBy (f := Wallet.withBalance n) Wallet.id (fun _ => rfl) t

section
variable {D : List ProcessPaymentCommand} {g : Generated} {l l' : Ledger} {t t' u : PaymentTx}
  {request : PaymentRequest} {locks : List PaymentLock} {c : ProcessPaymentCommand}

theorem Spares.insertable (h : Spares locks l l') {ids : PaymentIds} {now : Nat}
    (hl : ∀ k ∈ PaymentTx.inserted c (newPayment now ids c.input), k ∈ locks)
    (hi : Insertable l.db ids c) : Insertable l'.db ids c :=
  ⟨h.payment _ (hl _ (List.mem_cons_of_mem _ List.mem_cons_self)) hi.1,
    h.rows.order _ (hl _ List.mem_cons_self) hi.2.1, hi.2.2⟩

theorem Spares.settling (h : Spares locks l l') {r : StoredResult} {x : Settlement} {now : Nat}
    {ids : PaymentIds} {wallet : Option Wallet} (hl : ∀ k ∈ x.locks, k ∈ locks)
    (hx : Settling l c r x now ids wallet) : Settling l' c r x now ids wallet where
  insertable := h.insertable (fun k hk => hl k (hx.locks k hk)) hx.insertable
  locks := hx.locks
  outcome := hx.outcome
  found := hx.found.imp_right fun hw => ⟨hw.1, (h.rows.user _ (hl _ hw.1)).trans hw.2⟩

theorem PaymentTx.Serves.spares (hu : u.Serves l request) (h : Spares u.held l l') :
    u.Serves l' request := by
  cases u with
  | replaying c r => exact ⟨hu.1, h.records _ _ hu.2⟩
  | charging c payment =>
    obtain ⟨hr, now, ids, rfl, hi⟩ := hu
    exact ⟨hr, now, ids, rfl, h.insertable (fun _ hk => hk) hi⟩
  | saving c r x =>
    obtain ⟨hr, now, ids, wallet, hx⟩ := hu
    exact ⟨hr, now, ids, wallet, h.settling (fun _ hk => hk) hx⟩
  | inserting c r x =>
    obtain ⟨hr, now, ids, wallet, hx⟩ := hu
    exact ⟨hr, now, ids, wallet, h.settling (fun _ hk => hk) hx⟩
  | finishing c r x =>
    obtain ⟨hr, hnone, now, ids, wallet, hx⟩ := hu
    exact ⟨hr, h.key _ List.mem_cons_self hnone, now, ids, wallet,
      h.settling (fun _ hk => List.mem_cons_of_mem _ hk) hx⟩
  | created w =>
    obtain ⟨id, n, hw, hr, hnew⟩ := hu
    refine ⟨id, n, hw, hr, (h.rows.user _ List.mem_cons_self).trans hnew.user, ?_, hnew.fits⟩
    refine h.wallet _ (List.mem_cons_of_mem _ ?_) hnew.id
    rw [hw]
    exact List.mem_singleton_self _
  | raised userId n balance =>
    obtain ⟨hr, w, hw, hfit⟩ := hu
    exact ⟨hr, w, (h.rows.user _ List.mem_cons_self).trans hw, hfit⟩
  | _ => exact hu

/-- a commit leaves alone what is under the locks of others -/
theorem PaymentTx.Commits.spares (hs : t.Sound D l) (h : t.Serves l request) (hc : t.Commits g l l')
    (hlocks : ∀ k ∈ t.held, k ∉ locks) : Spares locks l l' := by
  cases hc with
  | replays c r =>
    exact ⟨⟨fun _ _ hn => hn, fun _ _ => rfl⟩, fun _ _ hn => hn, fun _ _ hn => hn,
      fun _ _ hr => hr, fun _ _ hn => hn⟩
  | settles c r x =>
    obtain ⟨_, hnone, now, ids, wallet, hx⟩ := h
    have hmine : ∀ k ∈ x.locks, k ∉ locks := fun k hk => hlocks k (List.mem_cons_of_mem _ hk)
    have hid : x.payment.id = ids.payment.val := by
      have ho := (outcome_row now ids c wallet).1
      rw [← hx.outcome] at ho
      exact ho
    refine ⟨.settle hs.settles hmine g.row, fun id hk hn hin => ?_, fun id _ hn hin => hn ?_,
      fun k r' hr' => ?_, fun k hk hn => ?_⟩
    · change id ∈ (l.db.payments ++ [x.payment]).map Payment.id at hin
      rw [List.map_append] at hin
      rcases List.mem_append.mp hin with hin | hin
      · exact hn hin
      · have he : id = ids.payment.val := (List.mem_singleton.mp hin).trans hid
        refine hmine (.payment ids.payment.val) (hx.locks _ ?_) (he ▸ hk)
        exact List.mem_cons_of_mem _ List.mem_cons_self
    · change id ∈ (x.charged c.userId l.db.wallets).map Wallet.id at hin
      unfold Settlement.charged at hin
      cases hb : x.balance with
      | none => simpa only [hb] using hin
      | some n =>
        simp only [hb] at hin
        rwa [setBalance_ids] at hin
    · have hne : k ≠ c.commandId := fun e => nomatch (e ▸ hr').symm.trans hnone
      exact (findKey_saveKey_ne hne r _).trans hr'
    · have hne : k ≠ c.commandId := fun e => hlocks (.key c.commandId) List.mem_cons_self (e ▸ hk)
      exact (findKey_saveKey_ne hne r _).trans hn
  | creates w =>
    refine ⟨.create (hlocks _ List.mem_cons_self), fun _ _ hn => hn, fun id hk hn hin => ?_,
      fun _ _ hr => hr, fun _ _ hn => hn⟩
    change id ∈ (l.db.wallets ++ [w]).map Wallet.id at hin
    rw [List.map_append] at hin
    rcases List.mem_append.mp hin with hin | hin
    · exact hn hin
    · refine hlocks (.wallet w.id) (List.mem_cons_of_mem _ List.mem_cons_self) ?_
      exact List.mem_singleton.mp hin ▸ hk
  | raises userId amount balance =>
    refine ⟨.raise (hlocks _ List.mem_cons_self) amount balance, fun _ _ hn => hn,
      fun id _ hn hin => hn ?_, fun _ _ hr => hr, fun _ _ hn => hn⟩
    change id ∈ (setBalance userId balance l.db.wallets).map Wallet.id at hin
    rwa [setBalance_ids] at hin

end

/-- what holds of a transaction together with the request that it serves -/
def Served (D : List ProcessPaymentCommand) (l : Ledger) (t : PaymentRequest × PaymentTx) : Prop :=
  t.2.Sound D l ∧ t.2.Serves l t.1

theorem stable_served {D : List ProcessPaymentCommand} (hone : ∀ k, OneOrder D k) :
    Stable (tagStart PaymentTx.start) (tagNext PaymentTx.next) (tagHeld PaymentTx.held)
      (fun request => ∀ c, request = .process c → c ∈ D) (fun _ _ _ => True)
      (Ledger.Inv D) (Served D) where
  start_held := fun request => (stable_ledger D).start_held request
  start_loc := by
    intro request l hD hinv
    refine ⟨(stable_ledger D).start_loc request l hD hinv, ?_⟩
    cases request <;> rfl
  own := by
    intro b l t l' t' hinv ht _ hn
    obtain ⟨⟨_, tx'⟩, hn', he⟩ := Option.map_eq_some_iff.mp hn
    cases he
    obtain ⟨hinv', hs'⟩ := (stable_ledger D).own b l t.2 _ tx' hinv ht.1 trivial hn'
    refine ⟨hinv', hs', ?_⟩
    cases b with
    | abort =>
      cases hn'
      trivial
    | go g =>
      rcases ht.1.advance hinv hn' with ⟨rfl, _⟩ | ⟨_, rfl⟩
      · exact ht.2.advance hone hinv ht.1 hn'
      · trivial
  other := by
    intro b l t l' t' u hinv ht hu _ hn hlocks
    obtain ⟨⟨_, tx'⟩, hn', he⟩ := Option.map_eq_some_iff.mp hn
    cases he
    refine ⟨(stable_ledger D).other b l t.2 _ tx' u.2 hinv ht.1 hu.1 trivial hn' hlocks, ?_⟩
    cases b with
    | abort =>
      cases hn'
      exact hu.2
    | go g =>
      rcases ht.1.advance hinv hn' with ⟨rfl, _⟩ | ⟨hcommit, _⟩
      · exact hu.2
      · exact hu.2.spares (hcommit.spares ht.1 ht.2 hlocks)

/-! ## a serial order -/

/-- the request that an access commits -/
def PaymentTx.commit : PaymentAccess → PaymentRequest × PaymentTx → Option PaymentRequest
  | .go _, (request, .replaying _ _) => some request
  | .go _, (request, .finishing _ _ _) => some request
  | .go _, (request, .created _) => some request
  | .go _, (request, .raised _ _ _) => some request
  | _, _ => none

/-- the requests `es`, in some order and with what was generated for them, lead to the ledger `l` -/
structure Placed (l : Ledger) (es : List PaymentRequest) (H : List PaymentEvent) : Prop where
  requests : (H.map Prod.snd).Perm es
  same : Same l.db (serially PaymentEvent.handle .empty H)
  recorded : ∀ e ∈ H, ∀ c, e.2 = .process c → findKey c.commandId l.db.idempotencyKeys ≠ none

section
variable {D : List ProcessPaymentCommand} {g : Generated} {l l' : Ledger} {t t' : PaymentTx}
  {request : PaymentRequest} {es : List PaymentRequest} {H : List PaymentEvent}

/-- a commit that takes its place at the end -/
theorem Placed.last (h : Placed l es H) (e : PaymentEvent)
    (hsame : ∀ b, Same l.db b → Same l'.db (e.handle b))
    (hkeys : ∀ k, findKey k l.db.idempotencyKeys ≠ none → findKey k l'.db.idempotencyKeys ≠ none)
    (hmine : ∀ c, e.2 = .process c → findKey c.commandId l'.db.idempotencyKeys ≠ none) :
    Placed l' (es ++ [e.2]) (H ++ [e]) where
  requests := by
    rw [List.map_append]
    exact h.requests.append (.refl [e.2])
  same := by
    rw [serially_append]
    exact hsame _ h.same
  recorded := by
    intro f hf c hc
    rcases List.mem_append.mp hf with hf | hf
    · exact hkeys _ (h.recorded f hf c hc)
    · rw [List.mem_singleton.mp hf] at hc
      exact hmine c hc

/-- a payment that has found no wallet takes its place before all others -/
theorem Placed.first (h : Placed l es H) {c : ProcessPaymentCommand} {r : StoredResult}
    {x : Settlement} {now : Nat} {ids : PaymentIds}
    (hx : Settling l c r x now ids none)
    (hnone : findKey c.commandId l.db.idempotencyKeys = none) (g : Generated) :
    Placed (l.settle g.row c r x) (es ++ [.process c])
      ((⟨⟨g.row.id, now⟩, ids, g.wallet⟩, .process c) :: H) := by
  have hfirst := Ahead.first ⟨⟨g.row.id, now⟩, ids, g.wallet⟩ hx.insertable.2.2
  have hout : (r, x.payment, x.balance) = (PaymentDb.failedReply c (.insufficientFunds 0 c.amount),
      newPayment now ids c.input, none) := hx.outcome
  obtain ⟨hr, hout⟩ := Prod.mk.inj hout
  obtain ⟨hp, hb⟩ := Prod.mk.inj hout
  have hids := (h.same.payments.map Payment.id).mem_iff (a := ids.payment.val)
  have horders := (h.same.payments.map Payment.orderId).mem_iff (a := c.orderId)
  have hahead := hfirst.serially H (fun e he c' hc' hk => h.recorded e he c' hc' (hk ▸ hnone))
    (fun hin => hx.insertable.1 (hids.mpr hin)) (fun hin => hx.insertable.2.1 (horders.mpr hin))
  refine ⟨?_, ⟨?_, ?_, fun k => ?_, ?_⟩, fun e he c' hc' => ?_⟩
  · exact (h.requests.cons _).trans (List.perm_append_singleton _ _).symm
  · show (l.db.payments ++ [x.payment]).Perm _
    rw [hp]
    exact (List.perm_append_singleton _ _).trans ((h.same.payments.cons _).trans hahead.payments.symm)
  · show x.charged c.userId l.db.wallets = _
    unfold Settlement.charged
    simp only [hb]
    exact h.same.wallets.trans hahead.wallets.symm
  · show findKey k (saveKey c.commandId r l.db.idempotencyKeys) = _
    refine Eq.trans ?_ (hahead.records k).symm
    by_cases hk : k = c.commandId
    · rw [if_pos hk, hk, findKey_saveKey, hr]
    · rw [if_neg hk, findKey_saveKey_ne hk, h.same.records]
  · show (messages (l.db.outbox ++ [_])).Perm _
    rw [messages_append]
    refine (List.perm_append_singleton _ _).trans ((h.same.outbox.cons _).trans ?_)
    rw [hr]
    exact hahead.outbox.symm
  · show findKey c'.commandId (saveKey c.commandId r l.db.idempotencyKeys) ≠ none
    by_cases hk : c'.commandId = c.commandId
    · rw [hk, findKey_saveKey]
      exact Option.some_ne_none r
    · rw [findKey_saveKey_ne hk]
      rcases List.mem_cons.mp he with rfl | he
      · exact absurd (congrArg ProcessPaymentCommand.commandId (PaymentRequest.process.inj hc')).symm hk
      · exact h.recorded e he c' hc'

/-- a payment that has found a wallet, or none where there is none, takes its place at the end -/
theorem Placed.settle (h : Placed l es H) {c : ProcessPaymentCommand} {r : StoredResult}
    {x : Settlement} {now : Nat} {ids : PaymentIds} {wallet : Option Wallet}
    (hx : Settling l c r x now ids wallet) (hw : selectBy Wallet.userId c.userId l.db.wallets = wallet)
    (hnone : findKey c.commandId l.db.idempotencyKeys = none) (g : Generated) :
    Placed (l.settle g.row c r x) (es ++ [.process c])
      (H ++ [(⟨⟨g.row.id, now⟩, ids, g.wallet⟩, .process c)]) := by
  have hsettle : (l.settle g.row c r x).db = l.db.settled g.row c (r, x.payment, x.balance) := by
    unfold Ledger.settle PaymentDb.settled Settlement.charged
    cases x.balance <;> rfl
  refine h.last (_, .process c) (fun b hb => ?_) (fun k hk => ?_) fun c' hc' => ?_
  · have hnone' := (hb.records c.commandId).symm.trans hnone
    have hnew : PaymentEvent.handle (⟨⟨g.row.id, now⟩, ids, g.wallet⟩, .process c) b =
        b.settled ⟨g.row.id, now⟩ c (r, x.payment, x.balance) := by
      rw [hx.outcome, ← hw, hb.wallets]
      exact handle_new hnone' ((hb.insertable ids).mp hx.insertable)
    rw [hsettle, hnew]
    exact hb.settled _ _ _ _
  · show findKey k (saveKey c.commandId r l.db.idempotencyKeys) ≠ none
    by_cases he : k = c.commandId
    · rw [he, findKey_saveKey]
      exact Option.some_ne_none r
    · rwa [findKey_saveKey_ne he]
  · cases hc'
    show findKey c.commandId (saveKey c.commandId r l.db.idempotencyKeys) ≠ none
    rw [findKey_saveKey]
    exact Option.some_ne_none r

/-- a new wallet takes its place at the end -/
theorem Placed.create (h : Placed l es H) {w : Wallet} {id : Uuid} {n : Nat}
    (hw : w = newWallet id w.userId n) (hr : Credits request w.userId n)
    (hnew : NewWallet l id w.userId n) (g : Generated) :
    Placed (l.create w) (es ++ [request]) (H ++ [(⟨g.row, g.ids, id⟩, request)]) := by
  have hno : ∀ c, request ≠ .process c := by
    rintro c rfl
    rcases hr with e | e <;> cases e
  refine h.last (_, request) (fun b hb => ?_) (fun k hk => hk) fun c hc => absurd hc (hno c)
  have hfree : ∀ v ∈ l.db.wallets, v.userId ≠ w.userId := selectBy_none.mp hnew.user
  have hins : insertWallet id w.userId n l.db.wallets = .ok (l.db.wallets ++ [w]) := by
    unfold insertWallet
    rw [if_neg, ← hw]
    rintro (hid | hu | hfit)
    · exact hnew.id hid
    · obtain ⟨v, hv, he⟩ := List.mem_map.mp hu
      exact hfree v hv he
    · rw [hnew.fits] at hfit
      cases hfit
  have hcredit : request.credit ⟨g.row, g.ids, id⟩ l.db.wallets = l.db.wallets ++ [w] := by
    rcases hr with rfl | rfl <;> simp only [PaymentRequest.credit, hnew.user, hins] <;> rfl
  rw [handle_credit _ hno, ← hb.wallets, hcredit]
  exact hb.withWallets _

/-- so does a top-up -/
theorem Placed.raise (h : Placed l es H) {userId : String} {n : Nat} {w : Wallet}
    (hw : selectBy Wallet.userId userId l.db.wallets = some w)
    (hfit : fitsDecimal 12 (w.balance + n) = true) (g : Generated) :
    Placed (l.raise userId n (w.balance + n)) (es ++ [.topUp userId n])
      (H ++ [(g, .topUp userId n)]) := by
  refine h.last (_, .topUp userId n) (fun b hb => ?_) (fun k hk => hk) fun c hc => by cases hc
  have hno : ∀ c, PaymentRequest.topUp userId n ≠ .process c := fun c hc => by cases hc
  rw [handle_credit g hno, ← hb.wallets]
  simp only [PaymentRequest.credit, hw, if_pos hfit]
  exact hb.withWallets _

/-- **Every commit takes its place.** -/
theorem Placed.access (h : Placed l es H) (hinv : l.Inv D) (ht : Served D l (request, t))
    (hn : t.advance g l = some (l', t')) :
    ∃ H', Placed l' (es ++ (PaymentTx.commit (.go g) (request, t)).toList) H' := by
  have hcases := ht.1.advance hinv hn
  have hserves := ht.2
  cases t with
  | replaying c r =>
    obtain ⟨rfl, hk⟩ := hserves
    cases hn
    refine ⟨_, h.last (g, .process c) (fun b hb => ?_) (fun k hk => hk) fun c' hc' => ?_⟩
    · have hreplay : PaymentEvent.handle (g, .process c) b = b.write g.row c.orderId r :=
        handle_replay ((hb.records _).symm.trans hk)
      rw [hreplay]
      exact hb.write _ _ _ _
    · cases hc'
      exact fun e => nomatch hk.symm.trans e
  | finishing c r x =>
    obtain ⟨rfl, hnone, now, ids, wallet, hx⟩ := hserves
    cases hn
    rcases hx.found with rfl | ⟨_, hw⟩
    · exact ⟨_, h.first hx hnone g⟩
    · exact ⟨_, h.settle hx hw hnone g⟩
  | created w =>
    obtain ⟨id, n, hw, hr, hnew⟩ := hserves
    cases hn
    exact ⟨_, h.create hw hr hnew g⟩
  | raised userId n balance =>
    obtain ⟨rfl, w, hw, hfit, rfl⟩ := hserves
    cases hn
    exact ⟨_, h.raise hw hfit g⟩
  | _ =>
    rcases hcases with ⟨rfl, _⟩ | ⟨hcommit, _⟩
    · exact ⟨H, by rwa [show PaymentTx.commit (.go g) (request, _) = none from rfl,
        Option.toList_none, List.append_nil]⟩
    · cases hcommit

end

/-- the request that a transaction has not committed yet -/
def PaymentTx.asks : PaymentRequest × PaymentTx → List PaymentRequest
  | (_, .ended) => []
  | (request, _) => [request]

theorem asks_sub (request : PaymentRequest) (t : PaymentTx) :
    (PaymentTx.asks (request, t)).Subperm [request] := by
  cases t with
  | ended => exact List.nil_subperm
  | _ => exact List.Subperm.refl _

theorem payments_commitsOnce : CommitsOnce (tagStart PaymentTx.start) (tagNext PaymentTx.next)
    PaymentTx.commit id PaymentTx.asks where
  start_asks := fun request => by cases request <;> rfl
  next_asks := by
    intro b l t l' t' hn
    obtain ⟨request, tx⟩ := t
    obtain ⟨⟨_, tx'⟩, hn', he⟩ := Option.map_eq_some_iff.mp hn
    cases he
    cases b with
    | abort =>
      cases hn'
      exact List.nil_subperm
    | go g =>
      cases tx with
      | replaying c r =>
        cases hn'
        exact List.Subperm.refl _
      | finishing c r x =>
        cases hn'
        exact List.Subperm.refl _
      | created w =>
        cases hn'
        exact List.Subperm.refl _
      | raised userId n balance =>
        cases hn'
        exact List.Subperm.refl _
      | ended => cases hn'
      | _ => exact asks_sub request tx'

end Shop
