import Shop.System.Commands

/-!
# The joint invariant of the three services

* `Wire w`        every message comes from an outbox row, every marked row was published, and a
                  release that was published is in flight or has been recorded;
* `Joint w xs`    the three books and the wire, for the executions `xs` so far;
* `WorldStep w a w'`   what an action can do; `world_step`: every action does one of these things;
* `joint_step`    every action keeps the invariant; `joint_run`: it holds in every reachable state;
* `invariant_joint`   the induction over a run for the invariants that are built on this one.

No later proof opens `World.step`.
-/

set_option linter.unusedSectionVars false

namespace Shop
open Lib

structure Wire (w : World) : Prop where
  published : ∀ m ∈ w.published, ∃ service, m ∈ messages (w.outbox service)
  inflight : ∀ m ∈ w.inflight, m ∈ w.published
  marked : ∀ service, ∀ r ∈ w.outbox service, r.status = .published → r.message ∈ w.published
  released : ∀ c, Releases w.published c →
    Releases w.inflight c ∨ c.commandId ∈ w.products.idempotencyKeys.map IdempotencyKey.key

def Execution.isPayment (x : Execution) : Bool := decide (x.kind = .processPayment)

def stockExecutions (xs : List Execution) : List Execution := xs.filter fun x => !x.isPayment

def paymentExecutions (xs : List Execution) : List Execution := xs.filter Execution.isPayment

structure Joint (w : World) (xs : List Execution) : Prop where
  order : OrderBook w.orders.db w.products.idempotencyKeys w.payments.idempotencyKeys
  stock : StockBook (messages w.orders.db.outbox) w.products (stockExecutions xs)
  payment : PaymentBook (messages w.orders.db.outbox) w.payments (paymentExecutions xs)
  wire : Wire w

/-! ## reading the books together -/

section
variable {db : OrderDb} {P K : List IdempotencyKey} (h : OrderBook db P K)
include h

theorem OrderBook.ofReserve {c : ReserveStockCommand} (hc : Reserves (messages db.outbox) c) :
    ∃ s ∈ db.sagas, c.commandId = s.id ∧ c.orderId = s.orderId ∧
      c.items.Perm (db.linesOf s.orderId) := by
  cases h.command _ hc with
  | reserve s items hs hp => exact ⟨s, hs, rfl, rfl, hp⟩

theorem OrderBook.ofPay {c : ProcessPaymentCommand} (hc : Pays (messages db.outbox) c) :
    ∃ s ∈ db.sagas, ∃ o ∈ db.orders, o.id = s.orderId ∧ c.commandId = payId s.id ∧
      c.orderId = s.orderId ∧ c.userId = o.userId ∧ c.amount = o.total ∧
      Recorded P s.id .stockReserved := by
  cases h.command _ hc with
  | pay s o hs ho hos hst hr => exact ⟨s, hs, o, ho, hos, rfl, rfl, rfl, rfl, hr⟩

theorem OrderBook.ofRelease {c : ReleaseStockCommand} (hc : Releases (messages db.outbox) c) :
    ∃ s ∈ db.sagas, c.commandId = releaseId s.id ∧ c.orderId = s.orderId ∧
      c.items.Perm (db.linesOf s.orderId) ∧
      (s.currentStep = .releaseStock ∨ s.currentStep = .failed) ∧
      Recorded K (payId s.id) .paymentFailed := by
  cases h.command _ hc with
  | release s items hs hp hst hr => exact ⟨s, hs, rfl, rfl, hp, hst, hr⟩

end

/-- the command behind a record -/
theorem StockBook.ofReserved {M : List Message} {db : ProductDb} {xs : List Execution}
    (h : StockBook M db xs) {k : String} (hr : Recorded db.idempotencyKeys k .stockReserved) :
    ∃ c, Reserves M c ∧ c.commandId = k ∧
      ∀ i ∈ c.items, i.product ∈ db.products.map Product.id := by
  obtain ⟨r, hr, rfl, ht⟩ := hr
  cases h.record r hr with
  | reserved c items hc hi => exact ⟨c, hc, rfl, hi⟩
  | notReserved c e hc => cases ht
  | released c hc => cases ht

theorem PaymentBook.ofRecorded {M : List Message} {db : PaymentDb} {xs : List Execution}
    (h : PaymentBook M db xs) {k : String} {t : Topic} (hr : Recorded db.idempotencyKeys k t) :
    ∃ c, Pays M c ∧ c.commandId = k ∧ c.orderId ∈ db.payments.map Payment.orderId := by
  obtain ⟨r, hr, rfl, _⟩ := hr
  cases h.record r hr with
  | processed c txn hc ho => exact ⟨c, hc, rfl, ho⟩
  | failed c e hc ho => exact ⟨c, hc, rfl, ho⟩

section
variable {w : World} {xs : List Execution} (h : Joint w xs)
include h

/-- a payment is asked for only once the stock is reserved -/
theorem Joint.reserved_of_paid {s : Saga} (hs : s ∈ w.orders.db.sagas) {t : Topic}
    (hr : Recorded w.payments.idempotencyKeys (payId s.id) t) :
    Recorded w.products.idempotencyKeys s.id .stockReserved := by
  obtain ⟨c, hc, hid, _⟩ := h.payment.ofRecorded hr
  obtain ⟨s', hs', o, _, _, hid', _, _, _, hres⟩ := h.order.ofPay hc
  rw [hid] at hid'
  rw [h.order.wf.saga_id_inj hs hs' (payId_inj.mp hid')]
  exact hres

/-- the products of a release command exist -/
theorem Joint.release_products {c : ReleaseStockCommand}
    (hc : Releases (messages w.orders.db.outbox) c) :
    ∀ i ∈ c.items, i.product ∈ w.products.products.map Product.id := by
  obtain ⟨s, hs, _, _, hp, _, hpay⟩ := h.order.ofRelease hc
  obtain ⟨c₀, hc₀, hid₀, hin⟩ := h.stock.ofReserved (h.reserved_of_paid hs hpay)
  obtain ⟨s₀, hs₀, hid, _, hp₀⟩ := h.order.ofReserve hc₀
  have he : s₀ = s := h.order.wf.saga_id_inj hs₀ hs (hid.symm.trans hid₀)
  rw [he] at hp₀
  intro i hi
  exact hin i ((hp.trans hp₀.symm).mem_iff.mp hi)

/-- a reply that was published answers the saga of its order -/
theorem Joint.answered {m : Message} (hm : m ∈ w.published) {ev : ReplyEvent}
    (hev : m.reply = some ev) {s : Saga} (hs : s ∈ w.orders.db.sagas) (ho : s.orderId = ev.orderId) :
    Answered w.products.idempotencyKeys w.payments.idempotencyKeys s ev := by
  obtain ⟨service, hmem⟩ := h.wire.published m hm
  obtain ⟨t, p⟩ := m
  cases service with
  | order => cases h.order.command _ hmem <;> cases hev
  | product =>
    obtain ⟨r, hr, he⟩ := h.stock.replies _ hmem
    cases h.stock.record r hr with
    | reserved c items hc _ =>
      obtain ⟨s', hs', hid, hord, _⟩ := h.order.ofReserve hc
      cases he
      cases hev
      have hss : s = s' := h.order.wf.saga_inj hs hs' (ho.trans hord)
      exact ⟨_, hr, by rw [hss]; exact hid, rfl⟩
    | notReserved c e hc =>
      obtain ⟨s', hs', hid, hord, _⟩ := h.order.ofReserve hc
      cases he
      cases hev
      have hss : s = s' := h.order.wf.saga_inj hs hs' (ho.trans hord)
      exact ⟨_, hr, by rw [hss]; exact hid, rfl⟩
    | released c hc =>
      obtain ⟨s', hs', hid, hord, _⟩ := h.order.ofRelease hc
      cases he
      cases hev
      have hss : s = s' := h.order.wf.saga_inj hs hs' (ho.trans hord)
      exact ⟨_, hr, by rw [hss]; exact hid, rfl⟩
  | payment =>
    obtain ⟨r, hr, he⟩ := h.payment.replies _ hmem
    cases h.payment.record r hr with
    | processed c txn hc _ =>
      obtain ⟨s', hs', _, _, _, hid, hord, _⟩ := h.order.ofPay hc
      cases he
      cases hev
      have hss : s = s' := h.order.wf.saga_inj hs hs' (ho.trans hord)
      exact ⟨_, hr, by rw [hss]; exact hid, rfl⟩
    | failed c e hc _ =>
      obtain ⟨s', hs', _, _, _, hid, hord, _⟩ := h.order.ofPay hc
      cases he
      cases hev
      have hss : s = s' := h.order.wf.saga_inj hs hs' (ho.trans hord)
      exact ⟨_, hr, by rw [hss]; exact hid, rfl⟩

end

/-! ## what the handlers add to the tables -/

/-- an outbox that stays grows by nothing -/
theorem grows_of_eq {t t' : List OutboxRow} (h : t' = t) :
    ∃ out, t' = t ++ out ∧ ∀ r ∈ out, r.status = .pending :=
  ⟨[], h.trans (List.append_nil t).symm, fun _ hr => absurd hr List.not_mem_nil⟩

theorem grows_refl (t : List OutboxRow) : ∃ out, t = t ++ out ∧ ∀ r ∈ out, r.status = .pending :=
  grows_of_eq rfl

theorem reserve_outbox (g : RowDefaults) (db : ProductDb) (c : ReserveStockCommand) :
    ∃ out, (db.handleReserveStock g c).outbox = db.outbox ++ out ∧ ∀ r ∈ out, r.status = .pending := by
  unfold ProductDb.handleReserveStock
  split
  · exact ⟨_, rfl, fun r hr => by rw [List.mem_singleton.mp hr]; rfl⟩
  · exact ⟨_, rfl, fun r hr => by rw [List.mem_singleton.mp hr]; rfl⟩

theorem release_outbox (g : RowDefaults) (db : ProductDb) (c : ReleaseStockCommand) :
    ∃ out, (db.handleReleaseStock g c).outbox = db.outbox ++ out ∧ ∀ r ∈ out, r.status = .pending := by
  unfold ProductDb.handleReleaseStock
  split
  · exact ⟨_, rfl, fun r hr => by rw [List.mem_singleton.mp hr]; rfl⟩
  · exact ⟨_, rfl, fun r hr => by rw [List.mem_singleton.mp hr]; rfl⟩

theorem pay_outbox (g : RowDefaults) (ids : PaymentIds) (db : PaymentDb)
    (c : ProcessPaymentCommand) :
    ∃ out, (commit db (db.handleProcessPayment g ids c)).outbox = db.outbox ++ out ∧
      ∀ r ∈ out, r.status = .pending := by
  unfold PaymentDb.handleProcessPayment
  split
  · exact ⟨_, rfl, fun r hr => by rw [List.mem_singleton.mp hr]; rfl⟩
  · cases insertPayment g.now ids db.payments ⟨c.orderId, c.userId, c.amount⟩ with
    | error e => exact grows_refl _
    | ok payments =>
      rw [bind_ok]
      split
      · exact ⟨_, rfl, fun r hr => by rw [List.mem_singleton.mp hr]; rfl⟩
      · exact ⟨_, rfl, fun r hr => by rw [List.mem_singleton.mp hr]; rfl⟩

/-- saving the key of a command that has none keeps the other keys -/
theorem mem_saveKey {k : String} {r : StoredResult} {t : List IdempotencyKey}
    (h : findKey k t = none) : (∀ x ∈ t, x ∈ saveKey k r t) ∧
      k ∈ (saveKey k r t).map IdempotencyKey.key := by
  refine ⟨fun x hx => ?_, List.mem_map_of_mem (saveKey_mem k r t)⟩
  rw [saveKey_none h]
  exact List.mem_append_left _ hx

theorem reserve_keys (g : RowDefaults) (db : ProductDb) (c : ReserveStockCommand) :
    ∀ r ∈ db.idempotencyKeys, r ∈ (db.handleReserveStock g c).idempotencyKeys := by
  unfold ProductDb.handleReserveStock
  split
  · exact fun r hr => hr
  · rename_i hk
    exact (mem_saveKey hk).1

theorem release_keys (g : RowDefaults) (db : ProductDb) (c : ReleaseStockCommand) :
    (∀ r ∈ db.idempotencyKeys, r ∈ (db.handleReleaseStock g c).idempotencyKeys) ∧
      c.commandId ∈ (db.handleReleaseStock g c).idempotencyKeys.map IdempotencyKey.key := by
  unfold ProductDb.handleReleaseStock
  split
  · rename_i hk
    exact ⟨fun r hr => hr, List.mem_map_of_mem (findKey_some hk)⟩
  · rename_i hk
    exact mem_saveKey hk

theorem pay_keys (g : RowDefaults) (ids : PaymentIds) (db : PaymentDb)
    (c : ProcessPaymentCommand) :
    ∀ r ∈ db.idempotencyKeys,
      r ∈ (commit db (db.handleProcessPayment g ids c)).idempotencyKeys := by
  unfold PaymentDb.handleProcessPayment
  split
  · exact fun r hr => hr
  · rename_i hk
    cases insertPayment g.now ids db.payments ⟨c.orderId, c.userId, c.amount⟩ with
    | error e => exact fun r hr => hr
    | ok payments =>
      rw [bind_ok]
      split
      · exact (mem_saveKey hk).1
      · exact (mem_saveKey hk).1

theorem DbStep.outbox {db db' : OrderDb} (hs : DbStep db db') :
    ∃ out, db'.outbox = db.outbox ++ out ∧ ∀ r ∈ out, r.status = .pending := by
  cases hs with
  | same => exact grows_refl _
  | created g ids input hf => exact ⟨_, rfl, fun r hr => by rw [List.mem_singleton.mp hr]; rfl⟩
  | replied g q ev ho hf hm => exact ⟨_, hm.outbox, fun r hr => by rw [List.mem_singleton.mp hr]; rfl⟩
  | retried g q hr ht hm =>
    refine ⟨_, hm.outbox, ?_⟩
    cases ht with
    | exhausted _ => exact fun _ h => absurd h List.not_mem_nil
    | resent _ _ => exact fun r hr => by rw [List.mem_singleton.mp hr]; rfl

/-! ## the wire -/

/-- rows are added to the outboxes, records to product-service, and messages are taken off the wire
once they are handled -/
theorem Wire.grow {w w' : World} (h : Wire w) (hpub : w'.published = w.published)
    (hin : ∀ m ∈ w'.inflight, m ∈ w.inflight)
    (hrel : ∀ c, Releases w.inflight c → Releases w'.inflight c ∨
      c.commandId ∈ w'.products.idempotencyKeys.map IdempotencyKey.key)
    (hout : ∀ service, ∃ out, w'.outbox service = w.outbox service ++ out ∧
      ∀ r ∈ out, r.status = .pending)
    (hkeys : ∀ r ∈ w.products.idempotencyKeys, r ∈ w'.products.idempotencyKeys) : Wire w' where
  published := by
    intro m hm
    rw [hpub] at hm
    obtain ⟨service, hs⟩ := h.published m hm
    obtain ⟨out, ho, _⟩ := hout service
    refine ⟨service, ?_⟩
    rw [ho, messages_append]
    exact List.mem_append_left _ hs
  inflight := by
    intro m hm
    rw [hpub]
    exact h.inflight m (hin m hm)
  marked := by
    intro service r hr hst
    obtain ⟨out, ho, hpend⟩ := hout service
    rw [hpub]
    rw [ho] at hr
    rcases List.mem_append.mp hr with hr | hr
    · exact h.marked service r hr hst
    · rw [hpend r hr] at hst
      cases hst
  released := by
    intro c hc
    rw [hpub] at hc
    rcases h.released c hc with hc | hc
    · exact hrel c hc
    · obtain ⟨r, hr, he⟩ := List.mem_map.mp hc
      exact Or.inr (List.mem_map.mpr ⟨r, hkeys r hr, he⟩)

/-- the tables of one service change, the wire does not -/
theorem Wire.tables {w w' : World} (h : Wire w) (hpub : w'.published = w.published)
    (hin : w'.inflight = w.inflight)
    (hout : ∀ service, ∃ out, w'.outbox service = w.outbox service ++ out ∧
      ∀ r ∈ out, r.status = .pending)
    (hkeys : w'.products.idempotencyKeys = w.products.idempotencyKeys) : Wire w' :=
  h.grow hpub (fun _ hm => hin ▸ hm) (fun _ hc => Or.inl (hin ▸ hc)) hout
    (fun _ hr => hkeys.symm ▸ hr)

/-- a row's message goes on the wire -/
theorem Wire.publish {w : World} (h : Wire w) {service : Service} {r : OutboxRow}
    (hr : r ∈ w.outbox service) :
    Wire { w with
      published := w.published ++ [r.message]
      inflight := w.inflight ++ [r.message] } where
  published := by
    intro m hm
    rcases List.mem_append.mp hm with hm | hm
    · exact h.published m hm
    · rw [List.mem_singleton.mp hm]
      exact ⟨service, List.mem_map_of_mem hr⟩
  inflight := by
    intro m hm
    rcases List.mem_append.mp hm with hm | hm
    · exact List.mem_append_left _ (h.inflight m hm)
    · exact List.mem_append_right _ hm
  marked := fun service r hr hst => List.mem_append_left _ (h.marked service r hr hst)
  released := by
    intro c hc
    rcases List.mem_append.mp hc with hc | hc
    · exact (h.released c hc).imp_left fun hc => List.mem_append_left _ hc
    · exact Or.inl (List.mem_append_right _ hc)

theorem outbox_setRow (w : World) (service : Service) (row : Nat) (f : OutboxRow → OutboxRow)
    (service' : Service) : (w.setRow service row f).outbox service'
      = if service = service' then (w.outbox service').modify row f else w.outbox service' := by
  cases service <;> cases service' <;> rfl

/-- a row is marked as published only when its message was -/
theorem Wire.setRow {w : World} (h : Wire w) {service : Service} {row : Nat}
    {f : OutboxRow → OutboxRow} (hf : ∀ r, (f r).message = r.message) {r₀ : OutboxRow}
    (hr₀ : (w.outbox service)[row]? = some r₀)
    (hmark : (f r₀).status = .published → r₀.message ∈ w.published) :
    Wire (w.setRow service row f) := by
  have hpub : (w.setRow service row f).published = w.published := by cases service <;> rfl
  have hin : (w.setRow service row f).inflight = w.inflight := by cases service <;> rfl
  have hkeys : (w.setRow service row f).products.idempotencyKeys = w.products.idempotencyKeys := by
    cases service <;> rfl
  have hmsg : ∀ service', messages ((w.setRow service row f).outbox service')
      = messages (w.outbox service') := by
    intro service'
    rw [outbox_setRow]
    split
    · exact messages_modify hf row _
    · rfl
  constructor
  · intro m hm
    rw [hpub] at hm
    obtain ⟨service', hs⟩ := h.published m hm
    exact ⟨service', (hmsg service').symm ▸ hs⟩
  · intro m hm
    rw [hin] at hm
    rw [hpub]
    exact h.inflight m hm
  · intro service' r hr hst
    rw [hpub]
    rw [outbox_setRow] at hr
    by_cases he : service = service'
    · subst he
      rw [if_pos rfl] at hr
      obtain ⟨i, hi⟩ := List.mem_iff_getElem?.mp hr
      rw [List.getElem?_modify] at hi
      by_cases hrow : row = i
      · rw [← hrow, hr₀] at hi
        simp only [if_true, Option.map_eq_map, Option.map_some, Option.some.injEq] at hi
        rw [← hi, hf]
        exact hmark (hi ▸ hst)
      · simp only [if_neg hrow] at hi
        exact h.marked service r (List.mem_of_getElem? (by simpa using hi)) hst
    · rw [if_neg he] at hr
      exact h.marked service' r hr hst
  · intro c hc
    rw [hpub] at hc
    rw [hin, hkeys]
    exact h.released c hc

/-! ## the jobs of order-service and the replies to it -/

/-- an action of order-service keeps its book, if a reply among them has been recorded -/
theorem OrderBook.step {w : OrderSystem} {P K : List IdempotencyKey} (h : OrderBook w.db P K)
    {a : OrderAction} (hans : ∀ u q ev, a = .reply u q ev → ∀ s ∈ w.db.sagas,
      s.orderId = ev.orderId → Answered P K s ev) {db' : OrderDb} {gave : List Saga}
    (hs : OrderStep w a db' gave) : OrderBook db' P K := by
  cases hs with
  | same a => exact h
  | created u ids input hf => exact h.created hf
  | replied u q ev ho hf m => exact h.replied ho hf m (hans u q ev rfl _ m.saga_mem ho)
  | retried k u q hrun ht m _ => exact h.retried hrun ht m

/-- more messages, more rows: the rest of the system does not move -/
theorem Joint.orders {w : World} {xs : List Execution} (h : Joint w xs) (a : OrderAction)
    (hans : ∀ u q ev, a = .reply u q ev → ∀ s ∈ w.orders.db.sagas, s.orderId = ev.orderId →
      Answered w.products.idempotencyKeys w.payments.idempotencyKeys s ev)
    {inflight : List Message} (hin : ∀ m ∈ inflight, m ∈ w.inflight)
    (hrel : ∀ c, Releases w.inflight c → Releases inflight c) :
    Joint { w with orders := w.orders.step a, inflight := inflight } xs := by
  obtain ⟨out, hout, hpend⟩ := (step_db h.order.wf a).outbox
  have hM : ∀ m ∈ messages w.orders.db.outbox, m ∈ messages (w.orders.step a).db.outbox := by
    intro m hm
    rw [hout, messages_append]
    exact List.mem_append_left _ hm
  refine ⟨h.order.step hans (order_step h.order.wf a), ?_, ?_, ?_⟩
  · exact h.stock.mono hM h.stock.productIds (fun _ hx => hx) rfl rfl
  · exact h.payment.mono hM rfl rfl rfl
  · refine h.wire.grow rfl hin (fun c hc => Or.inl (hrel c hc)) ?_ (fun _ hr => hr)
    intro service
    cases service with
    | order => exact ⟨out, hout, hpend⟩
    | product => exact grows_refl _
    | payment => exact grows_refl _

/-! ## deliveries -/

/-- the handlers, one for each kind of message -/
inductive Handled (w : World) (ids : DeliveryIds) : Message → World → Prop where
  | reserveStock (c : ReserveStockCommand) : Handled w ids ⟨.reserveStock, .reserveStock c⟩
      { w with products := w.products.handleReserveStock ⟨ids.outbox, w.clock⟩ c }
  | releaseStock (c : ReleaseStockCommand) : Handled w ids ⟨.releaseStock, .releaseStock c⟩
      { w with products := w.products.handleReleaseStock ⟨ids.outbox, w.clock⟩ c }
  | processPayment (c : ProcessPaymentCommand) : Handled w ids ⟨.processPayment, .processPayment c⟩
      { w with
        payments := commit w.payments
          (w.payments.handleProcessPayment ⟨ids.outbox, w.clock⟩ ids.payment c) }
  | reply (m : Message) (ev : ReplyEvent) : m.reply = some ev →
      Handled w ids m { w with orders := w.orders.step (.reply ids.outbox ids.rows ev) }
  | ignored (m : Message) : (∀ c, m ≠ ⟨.releaseStock, .releaseStock c⟩) →
      (∀ v v', executionOf v v' m = []) →
      Handled w ids m w

theorem executionOf_nil {m : Message} (h₁ : ∀ c, m ≠ ⟨.reserveStock, .reserveStock c⟩)
    (h₂ : ∀ c, m ≠ ⟨.releaseStock, .releaseStock c⟩)
    (h₃ : ∀ c, m ≠ ⟨.processPayment, .processPayment c⟩) (v v' : World) :
    executionOf v v' m = [] := by
  unfold executionOf
  split
  · exact absurd rfl (h₁ _)
  · exact absurd rfl (h₂ _)
  · exact absurd rfl (h₃ _)
  · rfl

theorem handled (w : World) (ids : DeliveryIds) (m : Message) : Handled w ids m (w.handle ids m) := by
  unfold World.handle
  split
  · exact .reserveStock _
  · exact .releaseStock _
  · exact .processPayment _
  · rename_i h₁ h₂ h₃
    cases hev : m.reply with
    | none => exact .ignored m h₂ (executionOf_nil h₁ h₂ h₃)
    | some ev => exact .reply m ev hev

/-- a reply is no command -/
theorem reply_executionOf {m : Message} {ev : ReplyEvent} (h : m.reply = some ev) (v v' : World) :
    executionOf v v' m = [] := by
  apply executionOf_nil
  · rintro c rfl
    cases h
  · rintro c rfl
    cases h
  · rintro c rfl
    cases h

theorem stockExecutions_append (xs : List Execution) {x : Execution} (hx : x.isPayment = false) :
    stockExecutions (xs ++ [x]) = stockExecutions xs ++ [x] ∧
      paymentExecutions (xs ++ [x]) = paymentExecutions xs := by
  unfold stockExecutions paymentExecutions
  rw [List.filter_append, List.filter_append]
  simp [hx]

theorem paymentExecutions_append (xs : List Execution) {x : Execution} (hx : x.isPayment = true) :
    paymentExecutions (xs ++ [x]) = paymentExecutions xs ++ [x] ∧
      stockExecutions (xs ++ [x]) = stockExecutions xs := by
  unfold stockExecutions paymentExecutions
  rw [List.filter_append, List.filter_append]
  simp [hx]

section
variable {w : World} {xs : List Execution} (h : Joint w xs)
include h

/-- commands come from order-service -/
theorem Joint.origin {m : Message} (hm : m ∈ w.published)
    (ht : m.topic = .reserveStock ∨ m.topic = .releaseStock ∨ m.topic = .processPayment) :
    m ∈ messages w.orders.db.outbox := by
  obtain ⟨service, hmem⟩ := h.wire.published m hm
  obtain ⟨t, p⟩ := m
  cases service with
  | order => exact hmem
  | product =>
    obtain ⟨r, hr, he⟩ := h.stock.replies _ hmem
    cases h.stock.record r hr <;> cases he <;> exact absurd ht (by simp)
  | payment =>
    obtain ⟨r, hr, he⟩ := h.payment.replies _ hmem
    cases h.payment.record r hr <;> cases he <;> exact absurd ht (by simp)

/-- a message that is handled and is no release may leave the wire -/
theorem Joint.keep_releases {m : Message} {inflight : List Message}
    (hkeep : ∀ x ∈ w.inflight, x ≠ m → x ∈ inflight)
    (hm : ∀ c, m ≠ ⟨.releaseStock, .releaseStock c⟩) (c : ReleaseStockCommand)
    (hc : Releases w.inflight c) : Releases inflight c := hkeep _ hc fun e => hm c e.symm

/-- a delivery that product-service commits -/
theorem Joint.inProducts {db' : ProductDb} {x : Execution} (hx : x.isPayment = false)
    (hstock : StockBook (messages w.orders.db.outbox) db' (stockExecutions xs ++ [x]))
    (hkeys : ∀ r ∈ w.products.idempotencyKeys, r ∈ db'.idempotencyKeys)
    (hout : ∃ out, db'.outbox = w.products.outbox ++ out ∧ ∀ r ∈ out, r.status = .pending)
    {inflight : List Message} (hin : ∀ m ∈ inflight, m ∈ w.inflight)
    (hrel : ∀ c, Releases w.inflight c → Releases inflight c ∨
      c.commandId ∈ db'.idempotencyKeys.map IdempotencyKey.key) :
    Joint { w with products := db', inflight := inflight } (xs ++ [x]) where
  order := h.order.mono hkeys fun _ hr => hr
  stock := (stockExecutions_append xs hx).1 ▸ hstock
  payment := (stockExecutions_append xs hx).2 ▸ h.payment
  wire := by
    refine h.wire.grow rfl hin hrel (fun service => ?_) hkeys
    cases service with
    | order => exact grows_refl _
    | product => exact hout
    | payment => exact grows_refl _

/-- a delivery that payment-service commits, or rolls back -/
theorem Joint.inPayments {db' : PaymentDb} {x : Execution} (hx : x.isPayment = true)
    (hpay : PaymentBook (messages w.orders.db.outbox) db' (paymentExecutions xs ++ [x]))
    (hkeys : ∀ r ∈ w.payments.idempotencyKeys, r ∈ db'.idempotencyKeys)
    (hout : ∃ out, db'.outbox = w.payments.outbox ++ out ∧ ∀ r ∈ out, r.status = .pending)
    {inflight : List Message} (hin : ∀ m ∈ inflight, m ∈ w.inflight)
    (hrel : ∀ c, Releases w.inflight c → Releases inflight c) :
    Joint { w with payments := db', inflight := inflight } (xs ++ [x]) where
  order := h.order.mono (fun _ hr => hr) hkeys
  stock := (paymentExecutions_append xs hx).2 ▸ h.stock
  payment := (paymentExecutions_append xs hx).1 ▸ hpay
  wire := by
    refine h.wire.grow rfl hin (fun c hc => Or.inl (hrel c hc)) (fun service => ?_) fun _ hr => hr
    cases service with
    | order => exact grows_refl _
    | product => exact grows_refl _
    | payment => exact hout

/-- **A delivery keeps the joint invariant**, whether the message stays in flight or not. -/
theorem Joint.deliver {m : Message} (hm : m ∈ w.inflight) {inflight : List Message}
    (hin : ∀ x ∈ inflight, x ∈ w.inflight) (hkeep : ∀ x ∈ w.inflight, x ≠ m → x ∈ inflight)
    {ids : DeliveryIds} {w' : World} (hw' : Handled { w with inflight := inflight } ids m w') :
    Joint w' (xs ++ executionOf w w' m) := by
  have hpub := h.wire.inflight m hm
  cases hw' with
  | reserveStock c =>
    have hc : Reserves (messages w.orders.db.outbox) c := h.origin hpub (Or.inl rfl)
    have hb := h.stock.reserve ⟨ids.outbox, w.clock⟩ hc (fun _ => rfl)
    exact h.inProducts rfl hb (reserve_keys _ _ c) (reserve_outbox _ _ c) hin
      fun c' hc' => Or.inl (h.keep_releases hkeep nofun c' hc')
  | releaseStock c =>
    have hc : Releases (messages w.orders.db.outbox) c := h.origin hpub (Or.inr (Or.inl rfl))
    have hb := h.stock.release ⟨ids.outbox, w.clock⟩ hc (h.release_products hc) (fun _ => rfl)
    refine h.inProducts rfl hb (release_keys _ _ c).1 (release_outbox _ _ c) hin fun c' hc' => ?_
    by_cases he : c' = c
    · rw [he]
      exact Or.inr (release_keys _ _ c).2
    · exact Or.inl (hkeep _ hc' fun e => he (by cases e; rfl))
  | processPayment c =>
    have hc : Pays (messages w.orders.db.outbox) c := h.origin hpub (Or.inr (Or.inr rfl))
    exact h.inPayments rfl (h.payment.deliver ⟨ids.outbox, w.clock⟩ ids.payment hc fun _ => rfl)
      (pay_keys _ _ _ c) (pay_outbox _ _ _ c) hin (h.keep_releases hkeep nofun)
  | reply _ ev hev =>
    rw [reply_executionOf hev, List.append_nil]
    refine h.orders _ ?_ hin (h.keep_releases hkeep ?_)
    · intro u q ev' he s hs ho
      cases he
      exact h.answered hpub hev hs ho
    · rintro c rfl
      cases hev
  | ignored _ hno hx =>
    rw [hx, List.append_nil]
    refine ⟨h.order, h.stock, h.payment, h.wire.grow rfl hin ?_ (fun service => grows_refl _)
      (fun _ hr => hr)⟩
    exact fun c hc => Or.inl (h.keep_releases hkeep hno c hc)

/-- the catalogue changes: products are added or rewritten, the rest of the service stays -/
theorem Joint.catalogue {db : ProductDb} (hids : (db.products.map Product.id).Nodup)
    (hold : ∀ x ∈ w.products.products.map Product.id, x ∈ db.products.map Product.id)
    (hkeys : db.idempotencyKeys = w.products.idempotencyKeys)
    (hout : db.outbox = w.products.outbox) : Joint { w with products := db } xs := by
  refine ⟨?_, h.stock.mono (fun _ hm => hm) hids hold hkeys (congrArg messages hout), h.payment,
    h.wire.tables rfl rfl ?_ hkeys⟩
  · show OrderBook w.orders.db db.idempotencyKeys w.payments.idempotencyKeys
    rw [hkeys]
    exact h.order
  · intro service
    cases service with
    | order => exact grows_refl _
    | product => exact grows_of_eq hout
    | payment => exact grows_refl _

/-- the wallets change, the rest of the service stays -/
theorem Joint.wallets {db : PaymentDb} (hpay : db.payments = w.payments.payments)
    (hkeys : db.idempotencyKeys = w.payments.idempotencyKeys)
    (hout : db.outbox = w.payments.outbox) : Joint { w with payments := db } xs := by
  refine ⟨?_, h.stock, h.payment.mono (fun _ hm => hm) hpay hkeys (congrArg messages hout),
    h.wire.tables rfl rfl ?_ rfl⟩
  · show OrderBook w.orders.db w.products.idempotencyKeys db.idempotencyKeys
    rw [hkeys]
    exact h.order
  · intro service
    cases service with
    | order => exact grows_refl _
    | product => exact grows_refl _
    | payment => exact grows_of_eq hout

/-- the relay marks a row -/
theorem Joint.setRow {service : Service} {row : Nat} {f : OutboxRow → OutboxRow}
    (hf : ∀ r, (f r).message = r.message) {r₀ : OutboxRow}
    (hr₀ : (w.outbox service)[row]? = some r₀)
    (hmark : (f r₀).status = .published → r₀.message ∈ w.published) :
    Joint (w.setRow service row f) xs := by
  have hwire := h.wire.setRow hf hr₀ hmark
  cases service with
  | order =>
    have hm := messages_modify hf row w.orders.db.outbox
    refine ⟨h.order.outbox hm, ?_, ?_, hwire⟩
    · exact h.stock.mono (fun _ hx => hm.symm ▸ hx) h.stock.productIds (fun _ hx => hx) rfl rfl
    · exact h.payment.mono (fun _ hx => hm.symm ▸ hx) rfl rfl rfl
  | product =>
    exact ⟨h.order, h.stock.mono (fun _ hx => hx) h.stock.productIds (fun _ hx => hx) rfl
      (messages_modify hf row _), h.payment, hwire⟩
  | payment =>
    exact ⟨h.order, h.stock, h.payment.mono (fun _ hx => hx) rfl rfl (messages_modify hf row _),
      hwire⟩

end

/-! ## the endpoints -/

/-- an endpoint of the catalogue changes the products only, and forgets none of them -/
structure CatalogueChange (db db' : ProductDb) : Prop where
  ids : (db.products.map Product.id).Nodup → (db'.products.map Product.id).Nodup
  old : ∀ x ∈ db.products.map Product.id, x ∈ db'.products.map Product.id
  keys : db'.idempotencyKeys = db.idempotencyKeys
  outbox : db'.outbox = db.outbox

theorem CatalogueChange.refl (db : ProductDb) : CatalogueChange db db :=
  ⟨fun h => h, fun _ h => h, rfl, rfl⟩

/-- the ids stay as they are -/
theorem CatalogueChange.sameIds {db : ProductDb} {t : List Product}
    (h : t.map Product.id = db.products.map Product.id) :
    CatalogueChange db { db with products := t } :=
  ⟨fun hnd => h.symm ▸ hnd, fun _ hx => h.symm ▸ hx, rfl, rfl⟩

theorem create_change (g : RowDefaults) (db : ProductDb) (input : ProductDb.CreateProductInput) :
    CatalogueChange db (commit db (db.create g input)) := by
  unfold ProductDb.create
  split
  · exact .refl db
  · rename_i hn
    refine ⟨fun hnd => ?_, fun x hx => ?_, rfl, rfl⟩
    · show ((db.products ++ [_]).map Product.id).Nodup
      rw [List.map_append]
      exact hnd.append (List.nodup_singleton _) (by simpa using (not_or.mp hn).1)
    · show x ∈ (db.products ++ [_]).map Product.id
      rw [List.map_append]
      exact List.mem_append_left _ hx

theorem update_change (db : ProductDb) (id : String) (input : ProductDb.UpdateProductInput) :
    CatalogueChange db (commit db (db.update id input)) := by
  unfold ProductDb.update
  split
  · exact .refl db
  · split
    · apply CatalogueChange.sameIds
      apply map_updateBy_of
      intro r _ hr
      exact hr.symm
    · exact .refl db

theorem remove_change (db : ProductDb) (id : String) :
    CatalogueChange db (commit db (db.remove id)) := by
  unfold ProductDb.remove
  split
  · exact .refl db
  · apply CatalogueChange.sameIds
    apply map_updateBy
    intro _
    rfl

theorem reserveStock_change (db : ProductDb) (items : List LineItem) :
    CatalogueChange db (commit db (db.reserveStock items)) := by
  unfold ProductDb.reserveStock
  cases h : reserveItems db.products items with
  | mk t res =>
    cases res with
    | error e => exact .refl db
    | ok evs =>
      apply CatalogueChange.sameIds
      rw [← reserveItems_ids items db.products, h]

/-- an endpoint of the wallets changes the wallets only -/
theorem registered_frame (db : PaymentDb) (u : Uuid) (n : Nat) (userId : String) :
    ∃ t, commit db (db.handleUserRegistered u n userId) = { db with wallets := t } := by
  unfold PaymentDb.handleUserRegistered
  split
  · exact ⟨_, rfl⟩
  · cases h : insertWallet u userId n db.wallets with
    | error e => exact ⟨_, rfl⟩
    | ok t => exact ⟨t, rfl⟩

theorem topUp_frame (db : PaymentDb) (u : Uuid) (userId : String) (n : Nat) :
    ∃ t, commit db (db.topUp u userId n) = { db with wallets := t } := by
  unfold PaymentDb.topUp
  split
  · split
    · exact ⟨_, rfl⟩
    · exact ⟨_, rfl⟩
  · cases h : insertWallet u userId n db.wallets with
    | error e => exact ⟨_, rfl⟩
    | ok t => exact ⟨t, rfl⟩

/-! ## every action -/

/-- what is left on the wire when one message is taken off it -/
theorem mem_eraseIdx_of_ne {l : List Message} {i : Nat} {m : Message} (hm : l[i]? = some m) :
    ∀ x ∈ l, x ≠ m → x ∈ l.eraseIdx i := by
  intro x hx hne
  obtain ⟨j, hj⟩ := List.mem_iff_getElem?.mp hx
  apply List.mem_eraseIdx_iff_getElem?.mpr
  refine ⟨j, ?_, hj⟩
  rintro rfl
  exact hne (Option.some.inj (hj.symm.trans hm))

/-- an action that handles no command and gives up no saga -/
def Quiet (w : World) (a : Action) : Prop := executions w a = [] ∧ abandons w a = []

/-- what an action can do: nothing, a job of order-service, a publication, a mark on an outbox row, a
delivery, a change of the catalogue or of the wallets -/
inductive WorldStep (w : World) (a : Action) : World → Prop where
  | same : Quiet w a → WorldStep w a w
  | acts (b : OrderAction) : a = .order b → b.isReply = false →
      WorldStep w a { w with orders := w.orders.step b }
  | publishes {service : Service} {r : OutboxRow} : Quiet w a → r ∈ w.outbox service →
      WorldStep w a { w with
        published := w.published ++ [r.message]
        inflight := w.inflight ++ [r.message] }
  | marks {service : Service} {row : Nat} {f : OutboxRow → OutboxRow} {r : OutboxRow} :
      Quiet w a → (∀ r, (f r).message = r.message) → (w.outbox service)[row]? = some r →
      ((f r).status = .published → r.message ∈ w.published) →
      WorldStep w a (w.setRow service row f)
  | delivers {index : Nat} {again : Bool} {ids : DeliveryIds} {m : Message}
      {inflight : List Message} {w' : World} :
      a = .deliver index again ids → w.inflight[index]? = some m →
      (∀ x ∈ inflight, x ∈ w.inflight) → (∀ x ∈ w.inflight, x ≠ m → x ∈ inflight) →
      Handled { w with inflight := inflight } ids m w' → executions w a = executionOf w w' m →
      WorldStep w a w'
  | catalogue {db : ProductDb} : Quiet w a → CatalogueChange w.products db →
      WorldStep w a { w with products := db }
  | wallets (t : List Wallet) : Quiet w a →
      WorldStep w a { w with payments := { w.payments with wallets := t } }

/-- **Every action does one of these things.** -/
theorem world_step (w : World) (a : Action) : WorldStep w a (w.step a) := by
  cases a with
  | order b =>
    simp only [World.step]
    split
    · rename_i hb
      cases b <;> first | exact .same ⟨rfl, rfl⟩ | cases hb
    · rename_i hb
      exact .acts b rfl (by simpa using hb)
  | publish service row =>
    simp only [World.step]
    split
    · rename_i r hr
      split
      · exact .publishes ⟨rfl, rfl⟩ (List.mem_of_getElem? hr)
      · exact .same ⟨rfl, rfl⟩
    · exact .same ⟨rfl, rfl⟩
  | markPublished service row =>
    simp only [World.step]
    split
    · rename_i r hr
      split
      · rename_i hdue
        exact .marks ⟨rfl, rfl⟩ (fun _ => rfl) hr fun _ => hdue.2
      · exact .same ⟨rfl, rfl⟩
    · exact .same ⟨rfl, rfl⟩
  | markFailed service row error =>
    simp only [World.step]
    split
    · rename_i r hr
      split
      · refine .marks ⟨rfl, rfl⟩ (fun _ => rfl) hr fun hst => ?_
        unfold OutboxRow.markFailed at hst
        by_cases hm : OutboxRow.maxRetries ≤ r.retryCount + 1
        · simp [hm] at hst
        · simp [hm] at hst
      · exact .same ⟨rfl, rfl⟩
    · exact .same ⟨rfl, rfl⟩
  | deliver index again ids =>
    cases hm : w.inflight[index]? with
    | none =>
      have hidle : w.step (.deliver index again ids) = w := by simp only [World.step, hm]
      rw [hidle]
      exact .same ⟨by simp only [executions, hm], rfl⟩
    | some m =>
      have hx : executions w (.deliver index again ids) =
          executionOf w (w.step (.deliver index again ids)) m := by simp only [executions, hm]
      cases again with
      | true =>
        have hstep : w.step (.deliver index true ids) = w.handle ids m := by
          simp only [World.step, hm, if_true]
        rw [hstep] at hx ⊢
        exact .delivers rfl hm (fun _ h => h) (fun _ h _ => h) (handled w ids m) hx
      | false =>
        have hstep : w.step (.deliver index false ids)
            = World.handle { w with inflight := w.inflight.eraseIdx index } ids m := by
          simp only [World.step, hm, Bool.false_eq_true, if_false]
        rw [hstep] at hx ⊢
        exact .delivers rfl hm (fun _ h => List.mem_of_mem_eraseIdx h) (mem_eraseIdx_of_ne hm)
          (handled _ ids m) hx
  | createProduct id input =>
    exact .catalogue ⟨rfl, rfl⟩ (create_change ⟨id, w.clock⟩ w.products input)
  | updateProduct id input => exact .catalogue ⟨rfl, rfl⟩ (update_change w.products id input)
  | removeProduct id => exact .catalogue ⟨rfl, rfl⟩ (remove_change w.products id)
  | reserveProducts items => exact .catalogue ⟨rfl, rfl⟩ (reserveStock_change w.products items)
  | userRegistered walletId initialBalance userId =>
    obtain ⟨t, ht⟩ := registered_frame w.payments walletId initialBalance userId
    simp only [World.step, ht]
    exact .wallets t ⟨rfl, rfl⟩
  | topUp walletId userId amount =>
    obtain ⟨t, ht⟩ := topUp_frame w.payments walletId userId amount
    simp only [World.step, ht]
    exact .wallets t ⟨rfl, rfl⟩

/-- a job of order-service is no reply -/
theorem not_reply {b : OrderAction} (hb : b.isReply = false) {u : Uuid}
    {q : RowOrder OrderItemRow} {ev : ReplyEvent} : b ≠ .reply u q ev := by
  rintro rfl
  cases hb

/-- **Every action keeps the joint invariant.** -/
theorem joint_step (w : World) (xs : List Execution) (a : Action) (h : Joint w xs) :
    Joint (w.step a) (xs ++ executions w a) := by
  have hquiet : ∀ v, Quiet w a → Joint v xs → Joint v (xs ++ executions w a) := by
    intro v hq hv
    rw [hq.1, List.append_nil]
    exact hv
  have hs := world_step w a
  generalize w.step a = w' at hs
  cases hs with
  | same hq => exact hquiet _ hq h
  | acts b ha hb =>
    rw [ha, show executions w (.order b) = [] from rfl, List.append_nil]
    exact h.orders b (fun u q ev he => absurd he (not_reply hb)) (fun _ hm => hm) (fun _ hc => hc)
  | publishes hq hr => exact hquiet _ hq ⟨h.order, h.stock, h.payment, h.wire.publish hr⟩
  | marks hq hf hr hmark => exact hquiet _ hq (h.setRow hf hr hmark)
  | delivers _ hm hin hkeep hw' hx =>
    rw [hx]
    exact h.deliver (List.mem_of_getElem? hm) hin hkeep hw'
  | catalogue hq hc =>
    exact hquiet _ hq (h.catalogue (hc.ids h.stock.productIds) hc.old hc.keys hc.outbox)
  | wallets t hq => exact hquiet _ hq (h.wallets rfl rfl rfl)

theorem Joint.init (now : Nat) : Joint (World.init now) [] where
  order := OrderBook.empty
  stock := StockBook.empty
  payment := PaymentBook.empty
  wire := by
    refine ⟨fun _ h => absurd h List.not_mem_nil, fun _ h => absurd h List.not_mem_nil, ?_,
      fun _ h => absurd h List.not_mem_nil⟩
    intro service r hr
    cases service <;> exact absurd hr List.not_mem_nil

/-- **The joint invariant holds in every reachable state.** -/
theorem joint_run (now : Nat) (as : List Action) :
    Joint (run World.step (World.init now) as)
      (emits World.step executions (World.init now) as) :=
  invariant_emits World.step joint_step (World.init now) as (Joint.init now)

/-- **Invariant rule for the outputs of a run**, on top of the joint invariant. -/
theorem invariant_joint {β : Type} (out : World → Action → List β) {I : World → List β → Prop}
    (hstep : ∀ w ys bs a, Joint w ys → I w bs → I (w.step a) (bs ++ out w a)) {w : World}
    {ys : List Execution} (hj : Joint w ys) (h : I w []) (as : List Action) :
    I (run World.step w as) (emits World.step out w as) := by
  refine (invariant_emits (I := fun w bs => (∃ ys, Joint w ys) ∧ I w bs) World.step
    (fun w bs a hw => ?_) w as ⟨⟨ys, hj⟩, h⟩).2
  obtain ⟨⟨ys, hj⟩, h⟩ := hw
  exact ⟨⟨_, joint_step w ys a hj⟩, hstep w ys bs a hj h⟩

end Shop
