import Shop.Gateway.Proxy
import Shop.Kafka.Producer
import Shop.System.Joint

/-!
# The Kafka keys of an order's messages

Every row that is written for an order has its id as `messageKey`.  The relays publish it under the
correlation id in its payload, which is that of the request (`OrdersController.create`), or under
its own id where that is empty.

* `OutboxRow.sent env r`      what is sent for a row, `OutboxRow.sent_key` its key;
* `publications_sent`         the relays send just that for the rows they publish;
* `Requested db k c`          the order `k` was requested with the correlation id `c`;
* `Keyed w`                   the payload of every row has the correlation id of its order;
* `keyed_run`                 in every reachable state;
* `one_key_iff`               the rows of an order share a key in every run if and only if its
  request had a correlation id.
-/

set_option linter.unusedSectionVars false

namespace Shop
open Lib

/-! ## what a row is sent under -/

def Payload.correlationId : Payload → String
  | .reserveStock c => c.correlationId
  | .releaseStock c => c.correlationId
  | .processPayment c => c.correlationId
  | .stockReserved e => e.correlationId
  | .stockReservationFailed e => e.correlationId
  | .stockReleased e => e.correlationId
  | .paymentProcessed e => e.correlationId
  | .paymentFailed e => e.correlationId
  | .orderConfirmed e => e.correlationId
  | .orderCancelled e => e.correlationId

/-- the call of the producer for a row, by the relay of any of the three services -/
def OutboxRow.sent (env : ProducerEnv) (r : OutboxRow) : ProducerRecord Payload :=
  (r.record.publication fun p => some p.correlationId).sent env

theorem OutboxRow.sent_key (env : ProducerEnv) (r : OutboxRow) : (r.sent env).key =
    if r.payload.correlationId = "" then r.id else r.payload.correlationId := rfl

/-- what a tick of the service's relay publishes -/
def Service.publications (service : Service) (tick : Tick Payload) (t : List OutboxRow) :
    List (Publication Payload) :=
  let correlationId (p : Payload) := some p.correlationId
  match service with
  | .order => (OutboxProcessor.processPending correlationId OutboxRow.maxRetries tick
      (t.map OutboxRow.record)).published
  | _ => (AbstractOutboxProcessor.processPending correlationId OutboxRow.maxRetries tick
      (t.map OutboxRow.record)).published

/-- the relays send rows of their outbox, each as it is -/
theorem publications_sent {service : Service} {tick : Tick Payload} {t : List OutboxRow}
    {p : Publication Payload} (h : p ∈ service.publications tick t) :
    ∃ r ∈ t, ∀ env, p.sent env = r.sent env := by
  have hrow : ∃ x ∈ t.map OutboxRow.record, p = x.publication fun p => some p.correlationId := by
    cases service with
    | order => exact OutboxProcessor.published_of_row h
    | product => exact published_of_row h
    | payment => exact published_of_row h
  obtain ⟨x, hx, rfl⟩ := hrow
  obtain ⟨r, hr, rfl⟩ := List.mem_map.mp hx
  exact ⟨r, hr, fun _ => rfl⟩

/-! ## the correlation id of an order -/

/-- the saga of the order `k` has the correlation id `c` -/
def Requested (db : OrderDb) (k c : String) : Prop :=
  ∃ s ∈ db.sagas, s.orderId = k ∧ s.correlationId = c

section
variable {db db' : OrderDb} {P K : List IdempotencyKey} {k c c' : String}

theorem Requested.unique (hwf : WF db) (h : Requested db k c) (h' : Requested db k c') :
    c = c' := by
  obtain ⟨s, hs, hk, rfl⟩ := h
  obtain ⟨s', hs', hk', rfl⟩ := h'
  rw [hwf.saga_inj hs hs' (hk.trans hk'.symm)]

theorem Moved.requested {s s' : Saga} {o o' : OrderRow} {out : List OutboxRow} (hwf : WF db)
    (m : Moved db db' s s' o o' out) (h : Requested db k c) : Requested db' k c := by
  obtain ⟨x, hx, hk, hc⟩ := h
  by_cases he : x.id = s.id
  · rw [hwf.saga_id_inj hx m.saga_mem he] at hk hc
    exact ⟨s', m.mem_sagas.mpr (Or.inl rfl), m.saga_keep.2.1.trans hk, m.saga_keep.2.2.trans hc⟩
  · exact ⟨x, m.mem_sagas.mpr (Or.inr ⟨hx, he⟩), hk, hc⟩

theorem DbStep.requested (hwf : WF db) (hs : DbStep db db') (h : Requested db k c) :
    Requested db' k c := by
  cases hs with
  | same => exact h
  | created g ids input hf =>
    obtain ⟨s, hs, he⟩ := h
    exact ⟨s, mem_created_sagas.mpr (Or.inl hs), he⟩
  | replied g q ev ho hf m => exact m.requested hwf h
  | retried g q hr ht m => exact m.requested hwf h

theorem Fires.correlationId {g : RowDefaults} {q : RowOrder OrderItemRow} {ev : ReplyEvent}
    {s s' : Saga} {o o' : OrderRow} {t : Topic} {p : Payload} (h : Fires g q db ev s s' o o' t p) :
    p.correlationId = s.correlationId := by
  cases h <;> rfl

theorem Resends.correlationId {q : RowOrder OrderItemRow} {s : Saga} {o : OrderRow} {t : Topic}
    {p : Payload} (h : Resends q db s o t p) : p.correlationId = s.correlationId := by
  cases h <;> rfl

/-- a transaction of order-service writes the correlation id of the saga that it is about -/
theorem DbStep.rows (hs : DbStep db db') : ∀ r ∈ db'.outbox,
    r ∈ db.outbox ∨ Requested db' r.messageKey r.payload.correlationId := by
  intro r hr
  cases hs with
  | same => exact Or.inl hr
  | created g ids input hf =>
    rcases List.mem_append.mp hr with hr | hr
    · exact Or.inl hr
    · rw [List.mem_singleton.mp hr]
      exact Or.inr ⟨_, mem_created_sagas.mpr (Or.inr rfl), rfl, rfl⟩
  | replied g q ev ho hf m =>
    rw [m.outbox] at hr
    rcases List.mem_append.mp hr with hr | hr
    · exact Or.inl hr
    · rw [List.mem_singleton.mp hr]
      exact Or.inr ⟨_, m.mem_sagas.mpr (Or.inl rfl), m.saga_keep.2.1.trans ho,
        m.saga_keep.2.2.trans hf.correlationId.symm⟩
  | retried g q hrun ht m =>
    rw [m.outbox] at hr
    rcases List.mem_append.mp hr with hr | hr
    · exact Or.inl hr
    · cases ht with
      | exhausted _ => exact absurd hr List.not_mem_nil
      | resent _ hsend =>
        rw [List.mem_singleton.mp hr]
        exact Or.inr ⟨_, m.mem_sagas.mpr (Or.inl rfl), rfl, hsend.correlationId.symm⟩

end

/-! ## commands and their replies -/

/-- the three ids of the commands of a saga -/
def CommandOf (sagaId k : String) : Prop := k = sagaId ∨ k = payId sagaId ∨ k = releaseId sagaId

/-- a command id belongs to one saga: it begins with the 36 characters of its id -/
theorem CommandOf.saga_eq {a b k : String} (ha : a.length = 36) (hb : b.length = 36)
    (h : CommandOf a k) (h' : CommandOf b k) : a = b := by
  have htake : ∀ {x : String}, x.length = 36 → CommandOf x k → k.toList.take 36 = x.toList := by
    intro x hx hk
    have hlen : x.toList.length = 36 := by rw [String.length_toList]; exact hx
    rcases hk with rfl | rfl | rfl
    · exact List.take_of_length_le hlen.le
    · unfold payId
      rw [String.toList_append, List.take_left' hlen]
    · unfold releaseId
      rw [String.toList_append, List.take_left' hlen]
  exact String.toList_inj.mp ((htake ha h).symm.trans (htake hb h'))

/-- the order that a document is about -/
def Payload.orderId : Payload → String
  | .reserveStock c => c.orderId
  | .releaseStock c => c.orderId
  | .processPayment c => c.orderId
  | .stockReserved e => e.orderId
  | .stockReservationFailed e => e.orderId
  | .stockReleased e => e.orderId
  | .paymentProcessed e => e.orderId
  | .paymentFailed e => e.orderId
  | .orderConfirmed e => e.orderId
  | .orderCancelled e => e.orderId

theorem Command.saga {db : OrderDb} {P K : List IdempotencyKey} {m : Message}
    (h : Command db P K m) {k : String} (hk : m.payload.commandId = some k) :
    ∃ s ∈ db.sagas, s.orderId = m.payload.orderId ∧ s.correlationId = m.payload.correlationId ∧
      CommandOf s.id k := by
  cases h with
  | reserve s items hs _ => exact ⟨s, hs, rfl, rfl, Or.inl (Option.some.inj hk).symm⟩
  | pay s o hs _ _ _ _ => exact ⟨s, hs, rfl, rfl, Or.inr (Or.inl (Option.some.inj hk).symm)⟩
  | release s items hs _ _ _ => exact ⟨s, hs, rfl, rfl, Or.inr (Or.inr (Option.some.inj hk).symm)⟩
  | confirmed e => cases hk
  | cancelled e => cases hk

section
variable {db : OrderDb} {P K : List IdempotencyKey}

/-- two commands of one id carry one correlation id, that of their order -/
theorem OrderBook.requested (h : OrderBook db P K) {m m' : Message}
    (hm : m ∈ messages db.outbox) (hm' : m' ∈ messages db.outbox) {k : String}
    (hk : m.payload.commandId = some k) (hk' : m'.payload.commandId = some k) :
    Requested db m.payload.orderId m'.payload.correlationId := by
  obtain ⟨s, hs, ho, hc, hid⟩ := (h.command m hm).saga hk
  obtain ⟨s', hs', ho', hc', hid'⟩ := (h.command m' hm').saga hk'
  have he : s = s' :=
    h.wf.saga_id_inj hs hs' (hid.saga_eq (h.wf.uuid s hs) (h.wf.uuid s' hs') hid')
  exact ⟨s, hs, ho, he ▸ hc'⟩

end

/-- the command that a record of product-service answers -/
theorem StockRecord.command {M : List Message} {t : List Product} {r : IdempotencyKey}
    (h : StockRecord M t r) : ∃ m ∈ M, m.payload.commandId = some r.key ∧
      m.payload.correlationId = r.result.replyPayload.correlationId := by
  cases h with
  | reserved c items hc _ => exact ⟨_, hc, rfl, rfl⟩
  | notReserved c e hc => exact ⟨_, hc, rfl, rfl⟩
  | released c hc => exact ⟨_, hc, rfl, rfl⟩

/-- and of payment-service -/
theorem PaymentRecord.command {M : List Message} {t : List Payment} {r : IdempotencyKey}
    (h : PaymentRecord M t r) : ∃ m ∈ M, m.payload.commandId = some r.key ∧
      m.payload.correlationId = r.result.replyPayload.correlationId := by
  cases h with
  | processed c txn hc _ => exact ⟨_, hc, rfl, rfl⟩
  | failed c e hc _ => exact ⟨_, hc, rfl, rfl⟩

/-- the reply to a command, first or replayed, is its record under the command's order -/
theorem reserve_row (g : RowDefaults) (db : ProductDb) (c : ReserveStockCommand) :
    ∃ r, (⟨c.commandId, r⟩ : IdempotencyKey) ∈ (db.handleReserveStock g c).idempotencyKeys ∧
      (db.handleReserveStock g c).outbox =
        db.outbox ++ [OutboxRow.write g c.orderId r.replyTopic c.orderId r.replyPayload] := by
  unfold ProductDb.handleReserveStock
  cases hk : findKey c.commandId db.idempotencyKeys with
  | some existing => exact ⟨existing, findKey_some hk, rfl⟩
  | none => exact ⟨ProductDb.reserveReply c (reserveItems db.products c.items).2, saveKey_mem _ _ _, rfl⟩

theorem release_row (g : RowDefaults) (db : ProductDb) (c : ReleaseStockCommand) :
    ∃ r, (⟨c.commandId, r⟩ : IdempotencyKey) ∈ (db.handleReleaseStock g c).idempotencyKeys ∧
      (db.handleReleaseStock g c).outbox =
        db.outbox ++ [OutboxRow.write g c.orderId r.replyTopic c.orderId r.replyPayload] := by
  unfold ProductDb.handleReleaseStock
  cases hk : findKey c.commandId db.idempotencyKeys with
  | some existing => exact ⟨existing, findKey_some hk, rfl⟩
  | none => exact ⟨ProductDb.releaseReply c, saveKey_mem _ _ _, rfl⟩

/-- a payment command that throws writes none -/
theorem pay_row (g : RowDefaults) (ids : PaymentIds) (db : PaymentDb) (c : ProcessPaymentCommand) :
    commit db (db.handleProcessPayment g ids c) = db ∨
    ∃ r, (⟨c.commandId, r⟩ : IdempotencyKey) ∈
        (commit db (db.handleProcessPayment g ids c)).idempotencyKeys ∧
      (commit db (db.handleProcessPayment g ids c)).outbox =
        db.outbox ++ [OutboxRow.write g c.orderId r.replyTopic c.orderId r.replyPayload] := by
  unfold PaymentDb.handleProcessPayment
  cases hk : findKey c.commandId db.idempotencyKeys with
  | some existing => exact Or.inr ⟨existing, findKey_some hk, rfl⟩
  | none =>
    simp only
    cases insertPayment g.now ids db.payments ⟨c.orderId, c.userId, c.amount⟩ with
    | error e => exact Or.inl rfl
    | ok payments =>
      rw [bind_ok]
      split
      · exact Or.inr ⟨_, saveKey_mem _ _ _, rfl⟩
      · exact Or.inr ⟨_, saveKey_mem _ _ _, rfl⟩

/-! ## every row -/

/-- the payload of a row has the correlation id of the order whose id is its `messageKey` -/
def Keyed (w : World) : Prop :=
  ∀ service, ∀ r ∈ w.outbox service, Requested w.orders.db r.messageKey r.payload.correlationId

/-- the sagas stay, and what is new in an outbox is keyed -/
theorem Keyed.grow {w w' : World} (h : Keyed w)
    (hreq : ∀ k c, Requested w.orders.db k c → Requested w'.orders.db k c)
    (hrows : ∀ service, ∀ r ∈ w'.outbox service,
      (∃ r₀ ∈ w.outbox service, r.messageKey = r₀.messageKey ∧ r.payload = r₀.payload) ∨
        Requested w'.orders.db r.messageKey r.payload.correlationId) : Keyed w' := by
  intro service r hr
  rcases hrows service r hr with ⟨r₀, hr₀, hkey, hpayload⟩ | hnew
  · rw [hkey, hpayload]
    exact hreq _ _ (h service r₀ hr₀)
  · exact hnew

theorem Keyed.orders {w : World} (hwf : WF w.orders.db) (h : Keyed w) (b : OrderAction)
    (inflight : List Message) :
    Keyed { w with orders := w.orders.step b, inflight := inflight } := by
  have hs := step_db hwf b
  refine h.grow (fun _ _ => hs.requested hwf) fun service r hr => ?_
  cases service with
  | order => exact (hs.rows r hr).imp_left fun hr => ⟨r, hr, rfl, rfl⟩
  | product => exact Or.inl ⟨r, hr, rfl, rfl⟩
  | payment => exact Or.inl ⟨r, hr, rfl, rfl⟩

/-- the relay's marks are on the other columns -/
theorem Keyed.setRow {w : World} (h : Keyed w) (service : Service) (row : Nat)
    {f : OutboxRow → OutboxRow}
    (hf : ∀ r, (f r).messageKey = r.messageKey ∧ (f r).payload = r.payload) :
    Keyed (w.setRow service row f) := by
  refine h.grow (fun k c hk => ?_) fun service' r hr => Or.inl ?_
  · cases service <;> exact hk
  · rw [outbox_setRow] at hr
    split at hr
    · obtain ⟨i, hi⟩ := List.mem_iff_getElem?.mp hr
      rw [List.getElem?_modify] at hi
      obtain ⟨r₀, hr₀, he⟩ := Option.map_eq_some_iff.mp hi
      refine ⟨r₀, List.mem_of_getElem? hr₀, ?_⟩
      by_cases hrow : row = i
      · rw [if_pos hrow] at he
        exact he ▸ hf r₀
      · rw [if_neg hrow] at he
        exact he ▸ ⟨rfl, rfl⟩
    · exact ⟨r, hr, rfl, rfl⟩

/-- the row of a reply, whose record answers a command of the same id -/
theorem Keyed.reply {db : OrderDb} {P K : List IdempotencyKey} (hbook : OrderBook db P K)
    {m : Message} (hm : m ∈ messages db.outbox) {k : String} (hk : m.payload.commandId = some k)
    {r : StoredResult} (hr : ∃ m' ∈ messages db.outbox, m'.payload.commandId = some k ∧
      m'.payload.correlationId = r.replyPayload.correlationId) :
    Requested db m.payload.orderId r.replyPayload.correlationId := by
  obtain ⟨m', hm', hk', hc⟩ := hr
  rw [← hc]
  exact hbook.requested hm hm' hk hk'

/-- no more than a row is written, and it is keyed -/
theorem Keyed.write {w w' : World} (h : Keyed w) (horders : w'.orders.db = w.orders.db)
    {row : OutboxRow} (hrow : Requested w.orders.db row.messageKey row.payload.correlationId)
    (hrows : ∀ service, w'.outbox service = w.outbox service ∨
      w'.outbox service = w.outbox service ++ [row]) : Keyed w' := by
  refine h.grow (fun _ _ hk => horders ▸ hk) fun service r hr => ?_
  rcases hrows service with hsame | hmore
  · rw [hsame] at hr
    exact Or.inl ⟨r, hr, rfl, rfl⟩
  · rw [hmore] at hr
    rcases List.mem_append.mp hr with hr | hr
    · exact Or.inl ⟨r, hr, rfl, rfl⟩
    · rw [List.mem_singleton.mp hr, horders]
      exact Or.inr hrow

/-- product-service writes one more row -/
theorem Keyed.inProducts {w : World} (h : Keyed w) {db : ProductDb} (inflight : List Message)
    {g : RowDefaults} {k : String} {t : Topic} {p : Payload}
    (hout : db.outbox = w.products.outbox ++ [OutboxRow.write g k t k p])
    (hk : Requested w.orders.db k p.correlationId) :
    Keyed { w with products := db, inflight := inflight } := by
  have hrow : Requested w.orders.db (OutboxRow.write g k t k p).messageKey p.correlationId := hk
  refine h.write rfl hrow fun service => ?_
  cases service with
  | order => exact Or.inl rfl
  | product => exact Or.inr hout
  | payment => exact Or.inl rfl

theorem Keyed.inPayments {w : World} (h : Keyed w) {db : PaymentDb} (inflight : List Message)
    {g : RowDefaults} {k : String} {t : Topic} {p : Payload}
    (hout : db.outbox = w.payments.outbox ++ [OutboxRow.write g k t k p])
    (hk : Requested w.orders.db k p.correlationId) :
    Keyed { w with payments := db, inflight := inflight } := by
  have hrow : Requested w.orders.db (OutboxRow.write g k t k p).messageKey p.correlationId := hk
  refine h.write rfl hrow fun service => ?_
  cases service with
  | order => exact Or.inl rfl
  | product => exact Or.inl rfl
  | payment => exact Or.inr hout

/-- the catalogue has no rows of its own -/
theorem Keyed.catalogue {w : World} (h : Keyed w) {db : ProductDb}
    (hout : db.outbox = w.products.outbox) : Keyed { w with products := db } := by
  refine h.grow (fun _ _ hk => hk) fun service r hr => Or.inl ⟨r, ?_, rfl, rfl⟩
  cases service with
  | order => exact hr
  | product =>
    change r ∈ db.outbox at hr
    rw [hout] at hr
    exact hr
  | payment => exact hr

/-- **A delivery writes the correlation id of the order that it is about.** -/
theorem Keyed.deliver {w : World} {xs : List Execution} (hj : Joint w xs) (h : Keyed w)
    {m : Message} (hm : m ∈ w.inflight) {inflight : List Message} {ids : DeliveryIds} {w' : World}
    (hw' : Handled { w with inflight := inflight } ids m w') {ys : List Execution}
    (hj' : Joint w' ys) : Keyed w' := by
  have hpub := hj.wire.inflight m hm
  cases hw' with
  | reserveStock c =>
    have hc := hj.origin hpub (Or.inl rfl)
    obtain ⟨r, hr, hout⟩ := reserve_row ⟨ids.outbox, w.clock⟩ w.products c
    exact h.inProducts inflight hout (Keyed.reply hj.order hc rfl (hj'.stock.record _ hr).command)
  | releaseStock c =>
    have hc := hj.origin hpub (Or.inr (Or.inl rfl))
    obtain ⟨r, hr, hout⟩ := release_row ⟨ids.outbox, w.clock⟩ w.products c
    exact h.inProducts inflight hout (Keyed.reply hj.order hc rfl (hj'.stock.record _ hr).command)
  | processPayment c =>
    have hc := hj.origin hpub (Or.inr (Or.inr rfl))
    rcases pay_row ⟨ids.outbox, w.clock⟩ ids.payment w.payments c with he | ⟨r, hr, hout⟩
    · show Keyed { w with
        payments := commit w.payments
          (w.payments.handleProcessPayment ⟨ids.outbox, w.clock⟩ ids.payment c)
        inflight := inflight }
      rw [he]
      exact h
    · exact h.inPayments inflight hout
        (Keyed.reply hj.order hc rfl (hj'.payment.record _ hr).command)
  | reply _ ev hev => exact h.orders hj.order.wf _ inflight
  | ignored _ hno hx => exact h

theorem keyed_step (w : World) (xs : List Execution) (a : Action) (hj : Joint w xs)
    (h : Keyed w) : Keyed (w.step a) := by
  have hj' := joint_step w xs a hj
  cases a with
  | order b =>
    simp only [World.step]
    split
    · exact h
    · exact h.orders hj.order.wf b w.inflight
  | publish service row =>
    simp only [World.step]
    split
    · split <;> exact h
    · exact h
  | markPublished service row =>
    simp only [World.step]
    split
    · split
      · exact h.setRow service row fun _ => ⟨rfl, rfl⟩
      · exact h
    · exact h
  | markFailed service row error =>
    simp only [World.step]
    split
    · split
      · exact h.setRow service row fun _ => ⟨rfl, rfl⟩
      · exact h
    · exact h
  | deliver index again ids =>
    simp only [World.step] at hj' ⊢
    split
    · rename_i m hm
      simp only [hm] at hj'
      cases again with
      | true => exact Keyed.deliver hj h (List.mem_of_getElem? hm) (handled w ids m) hj'
      | false => exact Keyed.deliver hj h (List.mem_of_getElem? hm) (handled _ ids m) hj'
    · exact h
  | createProduct id input =>
    have hout := (create_change ⟨id, w.clock⟩ w.products input).outbox
    exact h.catalogue hout
  | updateProduct id input => exact h.catalogue (update_change w.products id input).outbox
  | removeProduct id => exact h.catalogue (remove_change w.products id).outbox
  | reserveProducts items => exact h.catalogue (reserveStock_change w.products items).outbox
  | userRegistered walletId initialBalance userId =>
    obtain ⟨t, ht⟩ := registered_frame w.payments walletId initialBalance userId
    simp only [World.step, ht]
    exact h
  | topUp walletId userId amount =>
    obtain ⟨t, ht⟩ := topUp_frame w.payments walletId userId amount
    simp only [World.step, ht]
    exact h

/-- **Every row of every reachable state is keyed.** -/
theorem keyed_run (now : Nat) (as : List Action) : Keyed (run World.step (World.init now) as) :=
  invariant_joint (fun _ _ => ([] : List Unit)) (I := fun w _ => Keyed w)
    (fun w ys _ a hj h => keyed_step w ys a hj h) (Joint.init now)
    (fun service r hr => by cases service <;> exact absurd hr List.not_mem_nil) as

/-! ## from the request to the rows -/

/-- `OrdersController.create`, up to the call of the use case -/
def OrdersController.create (userId : Option String) (userEmail : String)
    (correlationId : Option String) (items : List LineItem) :
    Except HttpException CreateOrderInput :=
  match userId with
  | none => .error ⟨401, "Missing user id"⟩
  | some "" => .error ⟨401, "Missing user id"⟩
  | some userId => .ok ⟨userId, userEmail, correlationId.getD "", items⟩

theorem create_input {userId : Option String} {userEmail : String} {correlationId : Option String}
    {items : List LineItem} {input : CreateOrderInput}
    (h : OrdersController.create userId userEmail correlationId items = .ok input) :
    input.correlationId = correlationId.getD "" := by
  unfold OrdersController.create at h
  split at h
  · cases h
  · cases h
  · cases h
    rfl

/-- an empty correlation id is left out, which comes to the same -/
theorem proxy_correlation (cfg : GatewayConfig) (service : ServiceName)
    (options : ProxyRequestOptions) (hheaders : options.headers = []) :
    ((ProxyService.proxy cfg service options).headers.get HEADERS.correlationId).getD "" =
      options.correlationId.getD "" := by
  simp only [ProxyService.proxy, hheaders, Headers.spread, List.foldl_nil, List.append_assoc]
  rw [get_append]
  · rw [get_append (by simpa using show HEADERS.internalSecret ≠ HEADERS.correlationId by decide)]
    split
    · rename_i hid
      rw [List.nil_append, hid]
      cases options.user <;> rfl
    · rename_i hid
      rw [List.nil_append, hid]
      cases options.user <;> rfl
    · rename_i hid
      rw [hid]
      rfl
  · intro x hx
    split at hx
    · rw [List.mem_singleton.mp hx]
      show "content-type" ≠ HEADERS.correlationId
      decide
    · exact absurd hx List.not_mem_nil

/-- order-service gets the client's correlation id, or a new one if the client has sent none; one
that the client has sent empty stays empty -/
theorem forwarded_correlation {cfg : GatewayConfig} {verify : Headers → Option RequestUser}
    {uuid : String} {req : ClientRequest} {sent : DownstreamRequest}
    (hroute : req.route = .createOrder) (h : Gateway.handle cfg verify uuid req = .ok sent) :
    (sent.headers.get HEADERS.correlationId).getD "" = correlationIdOf req.headers uuid := by
  unfold Gateway.handle at h
  cases hauth : JwtAuthGuard.canActivate verify req with
  | error e => rw [hauth] at h; cases h
  | ok user =>
    rw [hauth, bind_ok, hroute] at h
    cases h
    exact proxy_correlation cfg _ _ rfl

/-! ## one key an order -/

/-- any two rows of the order `k` are sent under one key -/
def OneKey (w : World) (k : String) : Prop :=
  ∀ service, ∀ r ∈ w.outbox service, ∀ service', ∀ r' ∈ w.outbox service',
    r.messageKey = k → r'.messageKey = k → ∀ env env', (r.sent env).key = (r'.sent env').key

theorem requested_step {w : World} {xs : List Execution} (hj : Joint w xs) (a : Action)
    {k c : String} (h : Requested w.orders.db k c) : Requested (w.step a).orders.db k c := by
  have hs := world_step w a
  generalize w.step a = w' at hs
  cases hs with
  | same _ => exact h
  | acts b _ _ => exact (step_db hj.order.wf b).requested hj.order.wf h
  | publishes _ _ => exact h
  | @marks service row f r _ _ _ _ => cases service <;> exact h
  | delivers _ _ _ _ hw' _ =>
    cases hw' with
    | reserveStock c => exact h
    | releaseStock c => exact h
    | processPayment c => exact h
    | reply m ev hev => exact (step_db hj.order.wf _).requested hj.order.wf h
    | ignored m _ _ => exact h
  | catalogue _ _ => exact h
  | wallets t _ => exact h

/-- a reachable state: the joint invariant, and keyed rows -/
structure Reached (w : World) : Prop where
  joint : ∃ xs, Joint w xs
  keyed : Keyed w

theorem reached_step (w : World) (a : Action) (h : Reached w) : Reached (w.step a) := by
  obtain ⟨⟨xs, hj⟩, hk⟩ := h
  exact ⟨⟨_, joint_step w xs a hj⟩, keyed_step w xs a hj hk⟩

theorem reached_run (now : Nat) (as : List Action) : Reached (run World.step (World.init now) as) :=
  ⟨⟨_, joint_run now as⟩, keyed_run now as⟩

theorem Reached.wf {w : World} (h : Reached w) : WF w.orders.db := by
  obtain ⟨xs, hj⟩ := h.joint
  exact hj.order.wf

/-- the order stays as it was requested -/
theorem requested_run {w : World} (h : Reached w) (as : List Action) {k c : String}
    (hk : Requested w.orders.db k c) :
    Reached (run World.step w as) ∧ Requested (run World.step w as).orders.db k c := by
  refine invariant_run (I := fun w => Reached w ∧ Requested w.orders.db k c) World.step ?_ w as
    ⟨h, hk⟩
  rintro w a ⟨h, hk⟩
  obtain ⟨xs, hj⟩ := h.joint
  exact ⟨reached_step w a h, requested_step hj a hk⟩

/-- the rows of an order carry its correlation id -/
theorem Reached.correlationId {w : World} (h : Reached w) {k c : String}
    (hk : Requested w.orders.db k c) {service : Service} {r : OutboxRow}
    (hr : r ∈ w.outbox service) (hrk : r.messageKey = k) : r.payload.correlationId = c :=
  (hrk ▸ h.keyed service r hr).unique h.wf hk

theorem Reached.oneKey {w : World} (h : Reached w) {k c : String} (hc : c ≠ "")
    (hk : Requested w.orders.db k c) : OneKey w k := by
  intro service r hr service' r' hr' hrk hrk' env env'
  rw [OutboxRow.sent_key, OutboxRow.sent_key, h.correlationId hk hr hrk,
    h.correlationId hk hr' hrk', if_neg hc, if_neg hc]

theorem step_publish {w : World} {service : Service} {i : Nat} {r : OutboxRow}
    (h : (w.outbox service)[i]? = some r) (hdue : r.due w.clock = true) :
    w.step (.publish service i) =
      { w with published := w.published ++ [r.message]
               inflight := w.inflight ++ [r.message] } := by
  simp only [World.step, h, hdue, if_true]

theorem step_deliver {w : World} {i : Nat} {m : Message} (h : w.inflight[i]? = some m)
    (ids : DeliveryIds) : w.step (.deliver i true ids) = w.handle ids m := by
  simp only [World.step, h, if_true]

theorem step_create {w : World} (u : Uuid) {ids : NewIds} {input : CreateOrderInput}
    (hfresh : ids.fresh w.orders.db input = true) : w.step (.order (.create u ids input)) =
      { w with orders := { w.orders with db := created ⟨u, w.clock⟩ ids w.orders.db input } } := by
  have hok : w.orders.db.createOrder ⟨u, w.clock⟩ ids input =
      .ok (created ⟨u, w.clock⟩ ids w.orders.db input) := by
    unfold OrderDb.createOrder
    rw [if_pos hfresh]
    rfl
  show { w with orders := { w.orders with
    db := commit w.orders.db (w.orders.db.createOrder ⟨u, w.clock⟩ ids input) } } = _
  rw [hok]
  rfl

theorem requested_create {w : World} (u : Uuid) {ids : NewIds} {input : CreateOrderInput}
    (hfresh : ids.fresh w.orders.db input = true) :
    Requested (w.step (.order (.create u ids input))).orders.db ids.order.val
      input.correlationId := by
  rw [step_create u hfresh]
  exact ⟨_, mem_created_sagas.mpr (Or.inr rfl), rfl, rfl⟩

/-- a new order has a second row as soon as its command has been delivered, with any id -/
theorem second_row {w : World} (u u' : Uuid) {ids : NewIds} {input : CreateOrderInput}
    (hfresh : ids.fresh w.orders.db input = true) : ∃ post w',
      run World.step w (.order (.create u ids input) :: post) = w' ∧
      (∃ r ∈ w'.outbox .order, r.messageKey = ids.order.val ∧ r.id = u.val) ∧
        ∃ r ∈ w'.outbox .product, r.messageKey = ids.order.val ∧ r.id = u'.val := by
  let command : ReserveStockCommand :=
    ⟨ids.saga.val, ids.order.val, input.correlationId, input.items⟩
  let row := OutboxRow.write ⟨u, w.clock⟩ ids.order.val .reserveStock ids.order.val
    (.reserveStock command)
  let w₁ := w.step (.order (.create u ids input))
  have hw₁ : w₁ = { w with orders := { w.orders with
      db := created ⟨u, w.clock⟩ ids w.orders.db input } } := step_create u hfresh
  have hrow : (w₁.outbox .order)[w.orders.db.outbox.length]? = some row := by
    rw [hw₁]
    exact List.getElem?_concat_length
  have hdue : row.due w₁.clock = true := by
    rw [hw₁]
    show (decide (OutboxStatus.pending = .pending) && decide (w.clock ≤ w.clock)) = true
    simp
  have hrun : run World.step w [.order (.create u ids input),
      .publish .order w.orders.db.outbox.length,
      .deliver w₁.inflight.length true ⟨u', ⟨u', u'⟩, RowOrder.stored _⟩] =
      { w₁ with
        published := w₁.published ++ [row.message]
        inflight := w₁.inflight ++ [row.message]
        products := w₁.products.handleReserveStock ⟨u', w₁.clock⟩ command } := by
    have hlast : (w₁.inflight ++ [row.message])[w₁.inflight.length]? = some row.message :=
      List.getElem?_concat_length
    have hpublish := step_publish hrow hdue
    rw [run_cons, run_cons, run_cons, run_nil]
    rw [hpublish, step_deliver (m := row.message) hlast]
    rfl
  obtain ⟨r, -, hout⟩ := reserve_row ⟨u', w₁.clock⟩ w₁.products command
  refine ⟨_, _, hrun, ⟨row, List.mem_of_getElem? hrow, rfl, rfl⟩,
    OutboxRow.write ⟨u', w₁.clock⟩ ids.order.val r.replyTopic ids.order.val r.replyPayload, ?_,
    rfl, rfl⟩
  show _ ∈ (w₁.products.handleReserveStock ⟨u', w₁.clock⟩ command).outbox
  rw [hout]
  exact List.mem_append_right _ (List.mem_singleton.mpr rfl)

theorem exists_other (u : Uuid) : ∃ u' : Uuid, u'.val ≠ u.val := by
  by_cases h : (Uuid.sample 'a').val = u.val
  · refine ⟨Uuid.sample 'b', fun hb => ?_⟩
    exact absurd (h.trans hb.symm) (by decide +kernel)
  · exact ⟨Uuid.sample 'a', h⟩

/-- **The messages of an order share a Kafka key, whatever happens, if and only if the request that
created it carried a correlation id that is not empty.** -/
theorem one_key_iff (now : Nat) (pre : List Action) (u : Uuid) {ids : NewIds}
    {input : CreateOrderInput} {userId : Option String} {userEmail : String}
    {correlationId : Option String} {items : List LineItem}
    (hrequest : OrdersController.create userId userEmail correlationId items = .ok input)
    (hfresh : ids.fresh (run World.step (World.init now) pre).orders.db input = true) :
    (∀ post, OneKey (run World.step (World.init now)
        (pre ++ .order (.create u ids input) :: post)) ids.order.val) ↔
      ∃ c, correlationId = some c ∧ c ≠ "" := by
  let w := run World.step (World.init now) pre
  have hrun : ∀ post, run World.step (World.init now) (pre ++ .order (.create u ids input) :: post)
      = run World.step w (.order (.create u ids input) :: post) := fun post => run_append _ _ _ _
  have hreached : ∀ post,
      Reached (run World.step w (.order (.create u ids input) :: post)) ∧
      Requested (run World.step w (.order (.create u ids input) :: post)).orders.db ids.order.val
        input.correlationId := fun post =>
    requested_run (reached_step w _ (reached_run now pre)) post (requested_create u hfresh)
  have hinput := create_input hrequest
  constructor
  · intro h
    -- without a correlation id the row of the command and that of its reply keep their own ids
    by_contra hno
    have hempty : input.correlationId = "" := by
      rw [hinput]
      cases correlationId with
      | none => rfl
      | some c => exact not_not.mp fun hc => hno ⟨c, rfl, hc⟩
    obtain ⟨u', hu'⟩ := exists_other u
    obtain ⟨post, w', hw', ⟨r, hr, hkey, hid⟩, r', hr', hkey', hid'⟩ := second_row u u' hfresh
    have hone := h post
    obtain ⟨hw, hk⟩ := hreached post
    rw [hrun post, hw'] at hone
    rw [hw'] at hw hk
    rw [hempty] at hk
    have heq := hone .order r hr .product r' hr' hkey hkey' ⟨fun _ => none, "", "", ""⟩
      ⟨fun _ => none, "", "", ""⟩
    rw [OutboxRow.sent_key, OutboxRow.sent_key, if_pos (hw.correlationId hk hr hkey),
      if_pos (hw.correlationId hk hr' hkey'), hid, hid'] at heq
    exact hu' heq.symm
  · rintro ⟨c, rfl, hc⟩ post
    rw [hrun post]
    obtain ⟨hw, hk⟩ := hreached post
    exact hw.oneKey (by rw [hinput]; exact hc) hk

/-- a request with a correlation id -/
theorem one_key_correlated :
    (∀ post, OneKey (run World.step (World.init 0)
        ([] ++ .order (.create (.sample 'a') ⟨.sample 'b', [.sample 'd'], .sample 'c'⟩
          ⟨"u1", "u1@shop", "corr-1", [⟨(Uuid.sample '7').val, 1⟩]⟩) :: post)) (Uuid.sample 'b').val) ↔
      ∃ c, some "corr-1" = some c ∧ c ≠ "" :=
  one_key_iff 0 [] (.sample 'a')
    (show OrdersController.create (some "u1") "u1@shop" (some "corr-1")
      [⟨(Uuid.sample '7').val, 1⟩] = .ok _ from rfl)
    (by decide +kernel)

/-- a request without one: the command and its retry have one id and two keys -/
theorem retry_changes_key :
    let env : ProducerEnv := ⟨fun _ => none, "", "", "order-service"⟩
    let w := run World.step (World.init 0)
      [.order (.create (.sample 'a') ⟨.sample 'b', [.sample 'd'], .sample 'c'⟩
          ⟨"u1", "u1@shop", (none : Option String).getD "", [⟨(Uuid.sample '7').val, 1⟩]⟩),
        .order (.wait 30001), .order (.findStuck (RowOrder.stored _)),
        .order (.retry 0 (.sample 'e') (RowOrder.stored _))]
    (w.outbox .order).map OutboxRow.messageKey = [(Uuid.sample 'b').val, (Uuid.sample 'b').val] ∧
    (w.outbox .order).map (fun r => r.payload.commandId) =
      [some (Uuid.sample 'c').val, some (Uuid.sample 'c').val] ∧
    (w.outbox .order).map (fun r => (r.sent env).key) =
      [(Uuid.sample 'a').val, (Uuid.sample 'e').val] ∧
    (Uuid.sample 'a').val ≠ (Uuid.sample 'e').val := by
  decide +kernel

end Shop
