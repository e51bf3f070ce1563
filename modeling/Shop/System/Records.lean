import Shop.System.World

/-!
# What product-service and payment-service have recorded

The participants see the orchestrator only through the messages `M` that it has written, so each of
them has a book of its own, over `M`, its tables and the executions so far.

* `StockBook M db xs`     every record answers a command of `M`, every reply in the outbox is a
                          record, each record was executed once, and by how much;
* `PaymentBook M db xs`   the same for payments, with the payment rows;
* `StockBook.reserve`, `StockBook.release`, `PaymentBook.pay`   one handler keeps its book.
-/

set_option linter.unusedSectionVars false

namespace Shop
open Lib

/-! ## records -/

theorem Recorded.mono {t t' : List IdempotencyKey} (h : ∀ r ∈ t, r ∈ t') {k : String} {topic : Topic}
    (hr : Recorded t k topic) : Recorded t' k topic := by
  obtain ⟨r, hm, he⟩ := hr
  exact ⟨r, h r hm, he⟩

/-- one record a key -/
theorem Recorded.topic_unique {t : List IdempotencyKey} (hnd : (t.map IdempotencyKey.key).Nodup)
    {k : String} {a b : Topic} (ha : Recorded t k a) (hb : Recorded t k b) : a = b := by
  obtain ⟨r, hr, hk, rfl⟩ := ha
  obtain ⟨r', hr', hk', rfl⟩ := hb
  rw [key_inj hnd hr hr' (hk.trans hk'.symm)]

/-- a reply in an outbox is the result of a record -/
def Replies (t : List IdempotencyKey) (outbox : List OutboxRow) : Prop :=
  ∀ m ∈ messages outbox, ∃ r ∈ t, r.result = ⟨m.topic, m.payload⟩

theorem Replies.mono {t t' : List IdempotencyKey} {outbox : List OutboxRow}
    (h : Replies t outbox) (ht : ∀ r ∈ t, r ∈ t') : Replies t' outbox := by
  intro m hm
  obtain ⟨r, hr, he⟩ := h m hm
  exact ⟨r, ht r hr, he⟩

theorem Replies.write {t : List IdempotencyKey} {outbox : List OutboxRow} (h : Replies t outbox)
    {k : String} {r : StoredResult} (hr : (⟨k, r⟩ : IdempotencyKey) ∈ t) (g : RowDefaults)
    (x : String) :
    Replies t (outbox ++ [OutboxRow.write g x r.replyTopic x r.replyPayload]) := by
  intro m hm
  rw [messages_append] at hm
  rcases List.mem_append.mp hm with hm | hm
  · exact h m hm
  · rw [List.mem_singleton.mp hm]
    exact ⟨_, hr, rfl⟩

/-- the commands of `M` -/
def Reserves (M : List Message) (c : ReserveStockCommand) : Prop :=
  (⟨.reserveStock, .reserveStock c⟩ : Message) ∈ M

def Releases (M : List Message) (c : ReleaseStockCommand) : Prop :=
  (⟨.releaseStock, .releaseStock c⟩ : Message) ∈ M

def Pays (M : List Message) (c : ProcessPaymentCommand) : Prop :=
  (⟨.processPayment, .processPayment c⟩ : Message) ∈ M

/-- the ids of the commands that were executed, in order -/
def executedIds (xs : List Execution) : List String :=
  (xs.filter Execution.executed).map Execution.commandId

theorem executedIds_replayed (xs : List Execution) {e : Execution} (he : e.executed = false) :
    executedIds (xs ++ [e]) = executedIds xs := by
  unfold executedIds
  rw [List.filter_append, List.filter_cons_of_neg (by rw [he]; decide), List.filter_nil,
    List.append_nil]

theorem executedIds_executed (xs : List Execution) {e : Execution} (he : e.executed = true) :
    executedIds (xs ++ [e]) = executedIds xs ++ [e.commandId] := by
  unfold executedIds
  rw [List.filter_append, List.filter_cons_of_pos he, List.filter_nil, List.map_append]
  rfl

/-! ## the book of product-service -/

inductive StockRecord (M : List Message) (t : List Product) : IdempotencyKey → Prop where
  | reserved (c : ReserveStockCommand) (items : List OrderCreatedEventItem) : Reserves M c →
      (∀ i ∈ c.items, i.product ∈ t.map Product.id) →
      StockRecord M t ⟨c.commandId, ProductDb.reserveReply c (.ok items)⟩
  | notReserved (c : ReserveStockCommand) (e : ProductsError) : Reserves M c →
      StockRecord M t ⟨c.commandId, ProductDb.reserveReply c (.error e)⟩
  | released (c : ReleaseStockCommand) : Releases M c →
      StockRecord M t ⟨c.commandId, ProductDb.releaseReply c⟩

inductive StockExecution (M : List Message) (t : List IdempotencyKey) : Execution → Prop where
  | reserved (c : ReserveStockCommand) (delta : String → Int) : Reserves M c →
      (Recorded t c.commandId .stockReservationFailed ∨ ∀ id, delta id = -quantityOf c.items id) →
      StockExecution M t ⟨.reserveStock, c.commandId, c.orderId, true, delta⟩
  | released (c : ReleaseStockCommand) (delta : String → Int) : Releases M c →
      (∀ id, delta id = quantityOf c.items id) →
      StockExecution M t ⟨.releaseStock, c.commandId, c.orderId, true, delta⟩
  | replayed (x : Execution) : x.executed = false → (∀ id, x.delta id = 0) → StockExecution M t x

structure StockBook (M : List Message) (db : ProductDb) (xs : List Execution) : Prop where
  productIds : (db.products.map Product.id).Nodup
  keys : (db.idempotencyKeys.map IdempotencyKey.key).Nodup
  record : ∀ r ∈ db.idempotencyKeys, StockRecord M db.products r
  replies : Replies db.idempotencyKeys db.outbox
  executed : executedIds xs = db.idempotencyKeys.map IdempotencyKey.key
  execution : ∀ x ∈ xs, StockExecution M db.idempotencyKeys x

theorem StockBook.empty : StockBook [] ProductDb.empty [] where
  productIds := List.nodup_nil
  keys := List.nodup_nil
  record := fun _ h => absurd h List.not_mem_nil
  replies := fun _ h => absurd h List.not_mem_nil
  executed := rfl
  execution := fun _ h => absurd h List.not_mem_nil

theorem StockRecord.mono {M M' : List Message} {t t' : List Product} {r : IdempotencyKey}
    (h : StockRecord M t r) (hM : ∀ m ∈ M, m ∈ M')
    (ht : ∀ x ∈ t.map Product.id, x ∈ t'.map Product.id) : StockRecord M' t' r := by
  cases h with
  | reserved c items hc hi => exact .reserved c items (hM _ hc) fun i hm => ht _ (hi i hm)
  | notReserved c e hc => exact .notReserved c e (hM _ hc)
  | released c hc => exact .released c (hM _ hc)

theorem StockExecution.mono {M M' : List Message} {t t' : List IdempotencyKey} {x : Execution}
    (h : StockExecution M t x) (hM : ∀ m ∈ M, m ∈ M') (ht : ∀ r ∈ t, r ∈ t') :
    StockExecution M' t' x := by
  cases h with
  | reserved c delta hc hd => exact .reserved c delta (hM _ hc) (hd.imp_left fun h => h.mono ht)
  | released c delta hc hd => exact .released c delta (hM _ hc) hd
  | replayed _ hx hd => exact .replayed _ hx hd

/-- the orchestrator writes more messages, the catalogue changes, the relay marks rows -/
theorem StockBook.mono {M M' : List Message} {db db' : ProductDb} {xs : List Execution}
    (h : StockBook M db xs) (hM : ∀ m ∈ M, m ∈ M') (hids : (db'.products.map Product.id).Nodup)
    (hold : ∀ x ∈ db.products.map Product.id, x ∈ db'.products.map Product.id)
    (hkeys : db'.idempotencyKeys = db.idempotencyKeys)
    (hout : messages db'.outbox = messages db.outbox) : StockBook M' db' xs where
  productIds := hids
  keys := hkeys ▸ h.keys
  record := fun r hr => (h.record r (hkeys ▸ hr)).mono hM hold
  replies := by
    intro m hm
    rw [hkeys]
    exact h.replies m (hout ▸ hm)
  executed := by rw [hkeys]; exact h.executed
  execution := by
    intro x hx
    rw [hkeys]
    exact (h.execution x hx).mono hM fun _ hr => hr

section
variable {M : List Message} {db : ProductDb} {xs : List Execution} (h : StockBook M db xs)
include h

/-- a command that has a record is answered from it -/
theorem StockBook.replay {k : String} {r : StoredResult} (hk : findKey k db.idempotencyKeys = some r)
    (g : RowDefaults) (x : String) (e : Execution) (he : e.executed = false)
    (hd : ∀ id, e.delta id = 0) : StockBook M (db.write g x r) (xs ++ [e]) where
  productIds := h.productIds
  keys := h.keys
  record := h.record
  replies := h.replies.write (findKey_some hk) g x
  executed := by
    rw [executedIds_replayed xs he]
    exact h.executed
  execution := by
    intro y hy
    rcases List.mem_append.mp hy with hy | hy
    · exact h.execution y hy
    · rw [List.mem_singleton.mp hy]
      exact .replayed e he hd

/-- a command without a record adds its record, its reply and its execution -/
theorem StockBook.execute {k : String} (hk : findKey k db.idempotencyKeys = none)
    (g : RowDefaults) (x : String) {t : List Product} (r : StoredResult)
    (hids : t.map Product.id = db.products.map Product.id) (hr : StockRecord M t ⟨k, r⟩)
    {kind : CommandKind} {orderId : String} {delta : String → Int}
    (hx : StockExecution M (db.idempotencyKeys ++ [⟨k, r⟩]) ⟨kind, k, orderId, true, delta⟩) :
    StockBook M (ProductDb.write
      { db with products := t, idempotencyKeys := saveKey k r db.idempotencyKeys } g x r)
      (xs ++ [⟨kind, k, orderId, newKey k db.idempotencyKeys (saveKey k r db.idempotencyKeys),
        delta⟩]) := by
  rw [newKey_saveKey hk, saveKey_none hk]
  have hsub : ∀ y ∈ db.idempotencyKeys, y ∈ db.idempotencyKeys ++ [(⟨k, r⟩ : IdempotencyKey)] :=
    fun y hy => List.mem_append_left _ hy
  constructor
  · show (t.map Product.id).Nodup
    rw [hids]
    exact h.productIds
  · exact nodup_append_key h.keys hk
  · intro y hy
    rcases List.mem_append.mp hy with hy | hy
    · exact (h.record y hy).mono (fun _ hm => hm) fun z hz => hids ▸ hz
    · rw [List.mem_singleton.mp hy]
      exact hr
  · exact (h.replies.mono hsub).write (List.mem_append_right _ (List.mem_singleton.mpr rfl)) g x
  · show _ = List.map _ (db.idempotencyKeys ++ [_])
    rw [executedIds_executed xs rfl, h.executed, List.map_append]
    rfl
  · intro y hy
    rcases List.mem_append.mp hy with hy | hy
    · exact (h.execution y hy).mono (fun _ hm => hm) hsub
    · rw [List.mem_singleton.mp hy]
      exact hx

/-- **A delivery of a reserve-stock command keeps the book.** -/
theorem StockBook.reserve (g : RowDefaults) {c : ReserveStockCommand} (hc : Reserves M c)
    {delta : String → Int} (hdelta : ∀ id, delta id =
      stockOf (db.handleReserveStock g c).products id - stockOf db.products id) :
    StockBook M (db.handleReserveStock g c) (xs ++ [⟨.reserveStock, c.commandId, c.orderId,
      newKey c.commandId db.idempotencyKeys (db.handleReserveStock g c).idempotencyKeys, delta⟩]) := by
  unfold ProductDb.handleReserveStock at hdelta ⊢
  cases hk : findKey c.commandId db.idempotencyKeys with
  | some r =>
    simp only [hk] at hdelta ⊢
    exact h.replay hk g c.orderId _ (newKey_some hk _) fun id => (hdelta id).trans (Int.sub_self _)
  | none =>
    cases hres : reserveItems db.products c.items with
    | mk t res =>
      simp only [hk, hres] at hdelta ⊢
      have hids : t.map Product.id = db.products.map Product.id := by
        rw [← reserveItems_ids c.items db.products, hres]
      cases res with
      | ok items =>
        obtain ⟨hstock, hin⟩ := reserveItems_stock h.productIds hres
        refine h.execute hk g c.orderId _ hids (.reserved c items hc fun i hi => hids ▸ hin i hi)
          (.reserved c delta hc (Or.inr ?_))
        intro id
        have hs := hstock id
        rw [hdelta id]
        show stockOf t id - _ = _
        omega
      | error e =>
        refine h.execute hk g c.orderId _ hids (.notReserved c e hc)
          (.reserved c delta hc (Or.inl ?_))
        exact ⟨_, List.mem_append_right _ (List.mem_singleton.mpr rfl), rfl, rfl⟩

/-- **A delivery of a release-stock command for products that exist keeps the book.** -/
theorem StockBook.release (g : RowDefaults) {c : ReleaseStockCommand} (hc : Releases M c)
    (hin : ∀ i ∈ c.items, i.product ∈ db.products.map Product.id)
    {delta : String → Int} (hdelta : ∀ id, delta id =
      stockOf (db.handleReleaseStock g c).products id - stockOf db.products id) :
    StockBook M (db.handleReleaseStock g c) (xs ++ [⟨.releaseStock, c.commandId, c.orderId,
      newKey c.commandId db.idempotencyKeys (db.handleReleaseStock g c).idempotencyKeys, delta⟩]) := by
  unfold ProductDb.handleReleaseStock at hdelta ⊢
  cases hk : findKey c.commandId db.idempotencyKeys with
  | some r =>
    simp only [hk] at hdelta ⊢
    exact h.replay hk g c.orderId _ (newKey_some hk _) fun id => (hdelta id).trans (Int.sub_self _)
  | none =>
    simp only [hk] at hdelta ⊢
    refine h.execute hk g c.orderId _ (releaseItems_ids c.items db.products) (.released c hc)
      (.released c delta hc ?_)
    intro id
    have hs := releaseItems_stock hin id
    rw [hdelta id]
    show stockOf (releaseItems db.products c.items) id - _ = _
    omega

end

/-! ## the book of payment-service -/

inductive PaymentRecord (M : List Message) (t : List Payment) : IdempotencyKey → Prop where
  | processed (c : ProcessPaymentCommand) (transactionId : String) : Pays M c →
      c.orderId ∈ t.map Payment.orderId →
      PaymentRecord M t ⟨c.commandId, PaymentDb.processedReply c transactionId⟩
  | failed (c : ProcessPaymentCommand) (e : PaymentsError) : Pays M c →
      c.orderId ∈ t.map Payment.orderId →
      PaymentRecord M t ⟨c.commandId, PaymentDb.failedReply c e⟩

/-- a payment row has the values of its command, and the status of its command's record -/
def PaymentRow (M : List Message) (t : List IdempotencyKey) (y : Payment) : Prop :=
  ∃ c, Pays M c ∧ y.orderId = c.orderId ∧ y.userId = c.userId ∧ y.amount = c.amount ∧
    ((y.status = .completed ∧ Recorded t c.commandId .paymentProcessed) ∨
     (y.status = .pending ∧ Recorded t c.commandId .paymentFailed))

inductive PaymentExecution (M : List Message) (t : List IdempotencyKey) : Execution → Prop where
  | charged (c : ProcessPaymentCommand) (delta : String → Int) : Pays M c →
      Recorded t c.commandId .paymentProcessed →
      (∀ u, delta u = if c.userId = u then -c.amount else 0) →
      PaymentExecution M t ⟨.processPayment, c.commandId, c.orderId, true, delta⟩
  | refused (c : ProcessPaymentCommand) (delta : String → Int) : Pays M c →
      Recorded t c.commandId .paymentFailed → (∀ u, delta u = 0) →
      PaymentExecution M t ⟨.processPayment, c.commandId, c.orderId, true, delta⟩
  | replayed (x : Execution) : x.executed = false → (∀ u, x.delta u = 0) → PaymentExecution M t x

structure PaymentBook (M : List Message) (db : PaymentDb) (xs : List Execution) : Prop where
  orderIds : (db.payments.map Payment.orderId).Nodup
  keys : (db.idempotencyKeys.map IdempotencyKey.key).Nodup
  record : ∀ r ∈ db.idempotencyKeys, PaymentRecord M db.payments r
  replies : Replies db.idempotencyKeys db.outbox
  payment : ∀ y ∈ db.payments, PaymentRow M db.idempotencyKeys y
  executed : executedIds xs = db.idempotencyKeys.map IdempotencyKey.key
  execution : ∀ x ∈ xs, PaymentExecution M db.idempotencyKeys x

theorem PaymentBook.empty : PaymentBook [] PaymentDb.empty [] where
  orderIds := List.nodup_nil
  keys := List.nodup_nil
  record := fun _ h => absurd h List.not_mem_nil
  replies := fun _ h => absurd h List.not_mem_nil
  payment := fun _ h => absurd h List.not_mem_nil
  executed := rfl
  execution := fun _ h => absurd h List.not_mem_nil

theorem PaymentRecord.mono {M M' : List Message} {t t' : List Payment} {r : IdempotencyKey}
    (h : PaymentRecord M t r) (hM : ∀ m ∈ M, m ∈ M')
    (ht : ∀ x ∈ t.map Payment.orderId, x ∈ t'.map Payment.orderId) : PaymentRecord M' t' r := by
  cases h with
  | processed c txn hc ho => exact .processed c txn (hM _ hc) (ht _ ho)
  | failed c e hc ho => exact .failed c e (hM _ hc) (ht _ ho)

theorem PaymentRow.mono {M M' : List Message} {t t' : List IdempotencyKey} {y : Payment}
    (h : PaymentRow M t y) (hM : ∀ m ∈ M, m ∈ M') (ht : ∀ r ∈ t, r ∈ t') : PaymentRow M' t' y := by
  obtain ⟨c, hc, ho, hu, ha, hst⟩ := h
  exact ⟨c, hM _ hc, ho, hu, ha,
    hst.imp (fun h => ⟨h.1, h.2.mono ht⟩) (fun h => ⟨h.1, h.2.mono ht⟩)⟩

theorem PaymentExecution.mono {M M' : List Message} {t t' : List IdempotencyKey} {x : Execution}
    (h : PaymentExecution M t x) (hM : ∀ m ∈ M, m ∈ M') (ht : ∀ r ∈ t, r ∈ t') :
    PaymentExecution M' t' x := by
  cases h with
  | charged c delta hc hr hd => exact .charged c delta (hM _ hc) (hr.mono ht) hd
  | refused c delta hc hr hd => exact .refused c delta (hM _ hc) (hr.mono ht) hd
  | replayed _ hx hd => exact .replayed _ hx hd

/-- the orchestrator writes more messages, wallets are credited, the relay marks rows -/
theorem PaymentBook.mono {M M' : List Message} {db db' : PaymentDb} {xs : List Execution}
    (h : PaymentBook M db xs) (hM : ∀ m ∈ M, m ∈ M') (hpay : db'.payments = db.payments)
    (hkeys : db'.idempotencyKeys = db.idempotencyKeys)
    (hout : messages db'.outbox = messages db.outbox) : PaymentBook M' db' xs where
  orderIds := hpay ▸ h.orderIds
  keys := hkeys ▸ h.keys
  record := by
    intro r hr
    rw [hpay]
    exact (h.record r (hkeys ▸ hr)).mono hM fun _ hx => hx
  replies := by
    intro m hm
    rw [hkeys]
    exact h.replies m (hout ▸ hm)
  payment := by
    intro y hy
    rw [hkeys]
    exact (h.payment y (hpay ▸ hy)).mono hM fun _ hr => hr
  executed := by rw [hkeys]; exact h.executed
  execution := by
    intro x hx
    rw [hkeys]
    exact (h.execution x hx).mono hM fun _ hr => hr

section
variable {M : List Message} {db : PaymentDb} {xs : List Execution} (h : PaymentBook M db xs)
include h

/-- a transaction that rolls back is an execution of nothing -/
theorem PaymentBook.nothing (e : Execution) (he : e.executed = false) (hd : ∀ u, e.delta u = 0) :
    PaymentBook M db (xs ++ [e]) where
  orderIds := h.orderIds
  keys := h.keys
  record := h.record
  replies := h.replies
  payment := h.payment
  executed := by
    rw [executedIds_replayed xs he]
    exact h.executed
  execution := by
    intro y hy
    rcases List.mem_append.mp hy with hy | hy
    · exact h.execution y hy
    · rw [List.mem_singleton.mp hy]
      exact .replayed e he hd

/-- a command that has a record is answered from it -/
theorem PaymentBook.replay {k : String} {r : StoredResult}
    (hk : findKey k db.idempotencyKeys = some r) (g : RowDefaults) (x : String) (e : Execution)
    (he : e.executed = false) (hd : ∀ u, e.delta u = 0) :
    PaymentBook M (db.write g x r) (xs ++ [e]) :=
  { h.nothing e he hd with replies := h.replies.write (findKey_some hk) g x }

/-- a command without a record adds its payment, its record, its reply and its execution -/
theorem PaymentBook.execute {c : ProcessPaymentCommand}
    (hk : findKey c.commandId db.idempotencyKeys = none) (g : RowDefaults) (w : List Wallet)
    (y : Payment) (r : StoredResult) (hy : y.orderId = c.orderId)
    (hfresh : c.orderId ∉ db.payments.map Payment.orderId)
    (hr : PaymentRecord M (db.payments ++ [y]) ⟨c.commandId, r⟩)
    (hrow : PaymentRow M (db.idempotencyKeys ++ [⟨c.commandId, r⟩]) y)
    {delta : String → Int} (hx : PaymentExecution M (db.idempotencyKeys ++ [⟨c.commandId, r⟩])
      ⟨.processPayment, c.commandId, c.orderId, true, delta⟩) :
    PaymentBook M (PaymentDb.reply { db with payments := db.payments ++ [y], wallets := w } g c r)
      (xs ++ [⟨.processPayment, c.commandId, c.orderId, newKey c.commandId db.idempotencyKeys
        (saveKey c.commandId r db.idempotencyKeys), delta⟩]) := by
  unfold PaymentDb.reply
  rw [newKey_saveKey hk, saveKey_none hk]
  have hsub : ∀ z ∈ db.idempotencyKeys,
      z ∈ db.idempotencyKeys ++ [(⟨c.commandId, r⟩ : IdempotencyKey)] :=
    fun z hz => List.mem_append_left _ hz
  have hpays : ∀ x ∈ db.payments.map Payment.orderId,
      x ∈ (db.payments ++ [y]).map Payment.orderId := by
    intro x hx
    rw [List.map_append]
    exact List.mem_append_left _ hx
  constructor
  · show ((db.payments ++ [y]).map Payment.orderId).Nodup
    rw [List.map_append]
    exact h.orderIds.append (List.nodup_singleton _) (by simpa [hy] using hfresh)
  · exact nodup_append_key h.keys hk
  · intro z hz
    rcases List.mem_append.mp hz with hz | hz
    · exact (h.record z hz).mono (fun _ hm => hm) hpays
    · rw [List.mem_singleton.mp hz]
      exact hr
  · exact (h.replies.mono hsub).write (List.mem_append_right _ (List.mem_singleton.mpr rfl)) g _
  · intro z hz
    rcases List.mem_append.mp hz with hz | hz
    · exact (h.payment z hz).mono (fun _ hm => hm) hsub
    · rw [List.mem_singleton.mp hz]
      exact hrow
  · show _ = List.map _ (db.idempotencyKeys ++ [_])
    rw [executedIds_executed xs rfl, h.executed, List.map_append]
    rfl
  · intro z hz
    rcases List.mem_append.mp hz with hz | hz
    · exact (h.execution z hz).mono (fun _ hm => hm) hsub
    · rw [List.mem_singleton.mp hz]
      exact hx

/-- **A delivery of a process-payment command that commits keeps the book.** -/
theorem PaymentBook.pay (g : RowDefaults) (ids : PaymentIds) {c : ProcessPaymentCommand}
    (hc : Pays M c) {db' : PaymentDb} (hok : db.handleProcessPayment g ids c = .ok db')
    {delta : String → Int}
    (hdelta : ∀ u, delta u = balanceOf db'.wallets u - balanceOf db.wallets u) :
    PaymentBook M db' (xs ++ [⟨.processPayment, c.commandId, c.orderId,
      newKey c.commandId db.idempotencyKeys db'.idempotencyKeys, delta⟩]) := by
  unfold PaymentDb.handleProcessPayment at hok
  cases hk : findKey c.commandId db.idempotencyKeys with
  | some r =>
    simp only [hk] at hok
    cases hok
    exact h.replay hk g c.orderId _ (newKey_some hk _) fun u => (hdelta u).trans (Int.sub_self _)
  | none =>
    simp only [hk] at hok
    obtain ⟨payments, hins, hok⟩ := bind_eq_ok hok
    obtain ⟨rfl, hid, hord⟩ := insertPayment_ok hins
    have hnew : ∀ r : IdempotencyKey, r ∈ db.idempotencyKeys ++ [r] :=
      fun r => List.mem_append_right _ (List.mem_singleton.mpr rfl)
    cases hded : deduct c.userId c.amount db.wallets with
    | ok wallets =>
      rw [hded] at hok
      have hdone := completePayment_append
        (p := newPayment g.now ids ⟨c.orderId, c.userId, c.amount⟩) rfl hid
      simp only [hdone] at hok
      cases hok
      refine h.execute hk g wallets (Payment.complete (transactionId ids) _) _ rfl hord
        (.processed c _ hc ?_)
        ⟨c, hc, rfl, rfl, rfl, Or.inl ⟨rfl, _, hnew _, rfl, rfl⟩⟩
        (.charged c delta hc ⟨_, hnew _, rfl, rfl⟩ ?_)
      · rw [List.map_append]
        exact List.mem_append_right _ (List.mem_singleton.mpr rfl)
      · intro u
        have hb := deduct_balance hded u
        rw [hdelta u]
        show balanceOf wallets u - _ = _
        by_cases he : c.userId = u
        · rw [if_pos he] at hb ⊢
          omega
        · rw [if_neg he] at hb ⊢
          omega
    | error e =>
      rw [hded] at hok
      cases hok
      refine h.execute hk g db.wallets _ _ rfl hord (.failed c e hc ?_)
        ⟨c, hc, rfl, rfl, rfl, Or.inr ⟨rfl, _, hnew _, rfl, rfl⟩⟩
        (.refused c delta hc ⟨_, hnew _, rfl, rfl⟩ ?_)
      · rw [List.map_append]
        exact List.mem_append_right _ (List.mem_singleton.mpr rfl)
      · intro u
        rw [hdelta u]
        exact Int.sub_self _

/-- the same for a delivery that may roll back: it is an execution of nothing then -/
theorem PaymentBook.deliver (g : RowDefaults) (ids : PaymentIds) {c : ProcessPaymentCommand}
    (hc : Pays M c) {delta : String → Int} (hdelta : ∀ u, delta u =
      balanceOf (commit db (db.handleProcessPayment g ids c)).wallets u - balanceOf db.wallets u) :
    PaymentBook M (commit db (db.handleProcessPayment g ids c))
      (xs ++ [⟨.processPayment, c.commandId, c.orderId, newKey c.commandId db.idempotencyKeys
        (commit db (db.handleProcessPayment g ids c)).idempotencyKeys, delta⟩]) := by
  cases hok : db.handleProcessPayment g ids c with
  | error e =>
    rw [hok, commit_error] at hdelta
    rw [commit_error]
    exact h.nothing _ (newKey_self _ _) fun u => (hdelta u).trans (Int.sub_self _)
  | ok db' =>
    rw [hok, commit_ok] at hdelta
    rw [commit_ok]
    exact h.pay g ids hc hok hdelta

end

end Shop
