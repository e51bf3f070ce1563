import Shop.System.Totals

/-!
# Totals that overflow their column

The total of an order is a sum of prices times quantities, in a column of the width of one price.
product-service commits the reservation before anyone stores the total.

* `Advances g q db e`   `onStockReserved` commits, and the saga of the order is at PROCESS_PAYMENT;
* `onStockReserved_advances_iff`   it does if and only if the total fits;
* `totals_fit`          every total that is stored fits;
* `HasReserved db P c items`   the command has been executed, and its outcome recorded;
* `CostFits t items`    the lines cost less than 10^8 at the prices of the table;
* `reservation_storable_iff`   what becomes of a reservation that has succeeded.
-/

set_option linter.unusedSectionVars false

namespace Shop
open Lib

/-! ## `onStockReserved` -/

/-- `onStockReserved` commits, and moves the saga of its order to the payment -/
def Advances (g : RowDefaults) (q : RowOrder OrderItemRow) (db : OrderDb) (e : StockReservedEvent) :
    Prop :=
  ∃ db', db.onStockReserved g q e = .ok db' ∧
    ∃ s ∈ db'.sagas, s.orderId = e.orderId ∧ s.currentStep = .processPayment

/-- the price of a new line, detailed: that of a detail, or nothing -/
theorem detailed_unitPrice {ds : List OrderCreatedEventItem} {r : OrderItemRow} (hr : r.Blank)
    (hfit : ∀ d ∈ ds, fitsDecimal 10 d.unitPrice = true) :
    fitsDecimal 10 (OrderDb.toItem (detailed ds r)).unitPrice = true := by
  show fitsDecimal 10 (detailed ds r).unitPrice = true
  rcases hr.joined ds with ⟨d, hd, _, _, hprice⟩ | ⟨_, _, hprice⟩
  · rw [← hprice]
    exact hfit d hd
  · rw [hprice]
    decide

/-- **A saga that waits moves on if and only if the total fits**, where its lines have no prices yet
and all details have prices that fit. -/
theorem onStockReserved_advances_iff {db : OrderDb} (hwf : WF db) (g : RowDefaults)
    (q : RowOrder OrderItemRow) {e : StockReservedEvent} {s : Saga}
    (hl : db.loadSagaForStep e.orderId .reserveStock = some s) (hblank : Unpriced db e.orderId)
    (hfit : ∀ d ∈ e.items, fitsDecimal 10 d.unitPrice = true) :
    Advances g q db e ↔ fitsDecimal 10 e.total = true := by
  obtain ⟨o, ho, hoe, heq⟩ := onStockReserved_waiting g q hl hwf
  have hprices : ∀ i ∈ (detailedOrder q db o .confirmed e.total e.items).items,
      i.id ≠ "" → fitsDecimal 10 i.unitPrice = true := by
    intro i hi _
    rw [detailedOrder_items] at hi
    obtain ⟨r, hr, rfl⟩ := List.mem_map.mp hi
    obtain ⟨hr, hro⟩ := List.mem_filter.mp (q.mem_apply.mp hr)
    have hrx : r.orderId = e.orderId := (of_decide_eq_true hro).trans hoe
    exact detailed_unitPrice (hblank r hr hrx) hfit
  have hupdate : (∃ mid, db.updateOrder (detailedOrder q db o .confirmed e.total e.items) = .ok mid)
      ↔ fitsDecimal 10 e.total = true :=
    updateOrder_ok_iff.trans ⟨fun h => h.1, fun h => ⟨h, hprices⟩⟩
  rw [← hupdate]
  unfold Advances
  rw [heq]
  constructor
  · rintro ⟨db', hok, _⟩
    obtain ⟨mid, hu, _⟩ := bind_eq_ok hok
    exact ⟨mid, hu⟩
  · rintro ⟨mid, hu⟩
    obtain ⟨hs, hso, _, _⟩ := loadSagaForStep_some hl
    rw [hu, bind_ok]
    refine ⟨_, rfl, ?_⟩
    refine ⟨_, mem_updateBy.mpr ⟨s, updateOrder_sagas hu ▸ hs, Or.inl ⟨rfl, rfl⟩⟩, hso, rfl⟩

/-! ## the totals that are stored -/

/-- a transaction that confirms an order has stored the total of the event -/
theorem onStockReserved_fits {db : OrderDb} (hwf : WF db) {g : RowDefaults}
    {q : RowOrder OrderItemRow} {e : StockReservedEvent} {s : Saga}
    (hl : db.loadSagaForStep e.orderId .reserveStock = some s)
    (hmoved : commit db (db.onStockReserved g q e) ≠ db) : fitsDecimal 10 e.total = true := by
  cases hok : db.onStockReserved g q e with
  | error err =>
    rw [hok] at hmoved
    exact absurd rfl hmoved
  | ok db' =>
    obtain ⟨o, _, _, mid, hu, _⟩ := onStockReserved_ok g q hl hwf hok
    exact (updateOrder_ok_iff.mp ⟨mid, hu⟩).1

/-- the totals in the table fit their column -/
def TotalsFit (db : OrderDb) : Prop := ∀ o ∈ db.orders, fitsDecimal 10 o.total = true

theorem TotalsFit.moved {db db' : OrderDb} {s s' : Saga} {o o' : OrderRow} {out : List OutboxRow}
    (h : TotalsFit db) (m : Moved db db' s s' o o' out) (hfit : fitsDecimal 10 o'.total = true) :
    TotalsFit db' := by
  intro y hy
  rcases m.mem_orders.mp hy with rfl | ⟨hy, _⟩
  · exact hfit
  · exact h y hy

theorem totalsFit_step (v : OrderSystem) (b : OrderAction) (hwf : WF v.db) (h : TotalsFit v.db) :
    TotalsFit (v.step b).db := by
  have hs := order_step hwf b
  generalize hdb : (v.step b).db = db' at hs ⊢
  generalize gaveUp v b = gave at hs
  cases hs with
  | same => exact h
  | created u ids input hf =>
    intro y hy
    rcases mem_created_orders.mp hy with hy | rfl
    · exact h y hy
    · show fitsDecimal 10 0 = true
      decide
  | @replied u q ev _ s s' o o' t p ho hf m =>
    have hkept : fitsDecimal 10 o.total = true := h o m.order_mem
    cases hf with
    | stockReserved e s o hstep =>
      have ho : s.orderId = e.orderId := ho
      exact h.moved m (onStockReserved_fits (g := ⟨u, v.clock⟩) (q := q) hwf
        (ho ▸ hwf.waiting m.saga_mem hstep) fun hsame => m.changed (hdb.symm.trans hsame))
    | stockReservationFailed e s o hstep => exact h.moved m hkept
    | paymentProcessed e s o hstep => exact h.moved m hkept
    | paymentFailed e s o hstep => exact h.moved m hkept
    | stockReleased e s o hstep => exact h.moved m hkept
  | @retried k u q _ s s' o out gave hrun ht m _ => exact h.moved m (h o m.order_mem)

/-- **Every total that is stored fits its column.** -/
theorem totals_fit (now : Nat) (as : List Action) :
    TotalsFit (run World.step (World.init now) as).orders.db :=
  invariant_orders (fun _ _ _ h => h) totalsFit_step (Joint.init now)
    (fun _ h => absurd h List.not_mem_nil) as

/-! ## after a reservation -/

/-- the event that a successful reservation writes -/
def reservedEvent (c : ReserveStockCommand) (items : List OrderCreatedEventItem) :
    StockReservedEvent :=
  ⟨c.commandId, c.orderId, c.correlationId, items, amountOf items⟩

/-- the command has been sent, and executed with this outcome -/
structure HasReserved (db : OrderDb) (P : List IdempotencyKey) (c : ReserveStockCommand)
    (items : List OrderCreatedEventItem) : Prop where
  command : Reserves (messages db.outbox) c
  record : (⟨c.commandId, ProductDb.reserveReply c (.ok items)⟩ : IdempotencyKey) ∈ P

section
variable {w : World} {xs : List Execution} (hj : Joint w xs) {c : ReserveStockCommand}
  {items : List OrderCreatedEventItem}
include hj

/-- a delivery that reserves -/
theorem Joint.hasReserved {index : Nat} (again : Bool) (ids : DeliveryIds)
    (hm : w.inflight[index]? = some ⟨.reserveStock, .reserveStock c⟩)
    (hnew : findKey c.commandId w.products.idempotencyKeys = none)
    (hres : (reserveItems w.products.products c.items).2 = .ok items) :
    HasReserved (w.step (.deliver index again ids)).orders.db
      (w.step (.deliver index again ids)).products.idempotencyKeys c items ∧
    (⟨.stockReserved, .stockReserved (reservedEvent c items)⟩ : Message) ∈
      messages (w.step (.deliver index again ids)).products.outbox := by
  have hc : Reserves (messages w.orders.db.outbox) c :=
    hj.origin (hj.wire.inflight _ (List.mem_of_getElem? hm)) (Or.inl rfl)
  have horders : (w.step (.deliver index again ids)).orders = w.orders := by
    cases again <;> simp only [World.step, hm] <;> rfl
  have hproducts : (w.step (.deliver index again ids)).products =
      w.products.handleReserveStock ⟨ids.outbox, w.clock⟩ c := by
    cases again <;> simp only [World.step, hm] <;> rfl
  rw [horders, hproducts]
  unfold ProductDb.handleReserveStock
  rw [hnew]
  dsimp only
  rw [hres]
  refine ⟨⟨hc, saveKey_mem _ _ _⟩, ?_⟩
  · show _ ∈ messages (w.products.outbox ++ [_])
    rw [messages_append]
    exact List.mem_append_right _ (List.mem_singleton.mpr rfl)

variable (h : HasReserved w.orders.db w.products.idempotencyKeys c items)
include h

/-- what has been sent and recorded stays -/
theorem HasReserved.run (as : List Action) :
    HasReserved (run World.step w as).orders.db (run World.step w as).products.idempotencyKeys c
      items := by
  refine invariant_tables (I := fun db P => HasReserved db P c items)
    (fun v a db' P' hwf hs h => ?_) hj h as
  cases hs with
  | same out hout => exact ⟨hout.symm ▸ h.command, h.record⟩
  | acts b _ =>
    obtain ⟨out, hout, _⟩ := (step_db hwf b).outbox
    refine ⟨?_, h.record⟩
    unfold Reserves
    rw [hout, messages_append]
    exact List.mem_append_left _ h.command
  | records k _ => exact ⟨h.command, List.mem_append_left _ h.record⟩

/-- no other reservation of the order has been recorded -/
theorem HasReserved.unique {r : IdempotencyKey} (hr : r ∈ w.products.idempotencyKeys)
    {e : StockReservedEvent} (he : r.result.replyPayload = .stockReserved e)
    (horder : e.orderId = c.orderId) : e = reservedEvent c items := by
  cases hj.stock.record r hr with
  | reserved c' items' hc' _ =>
    cases he
    obtain ⟨s, hs, hid, hso, _⟩ := hj.order.ofReserve h.command
    obtain ⟨s', hs', hid', hso', _⟩ := hj.order.ofReserve hc'
    obtain rfl := hj.order.wf.saga_inj hs hs' (hso.symm.trans (horder.symm.trans hso'))
    have hrow := key_inj hj.stock.keys hr h.record (hid'.trans hid.symm)
    injection hrow with _ hreply
    injection hreply with _ hpayload
    injection hpayload
  | notReserved c' e' _ => cases he
  | released c' _ => cases he

/-- a saga whose total does not fit waits for ever, or is given up -/
theorem HasReserved.stranded (hbook : TallyBook w.orders.db w.products.idempotencyKeys)
    (hfits : TotalsFit w.orders.db) (hno : ¬ fitsDecimal 10 (amountOf items) = true) {s : Saga}
    (hs : s ∈ w.orders.db.sagas) (hso : s.orderId = c.orderId) :
    s.currentStep = .reserveStock ∨ s.currentStep = .failed := by
  by_contra hstep
  obtain ⟨h1, h2⟩ := not_or.mp hstep
  obtain ⟨e, ht⟩ := hbook.step s hs h1 h2
  obtain ⟨r, hr, he⟩ := ht.record
  obtain rfl := h.unique hj hr he (ht.order.trans hso)
  obtain ⟨o, ho, hox⟩ := List.mem_map.mp ht.known
  have htotal : o.total = amountOf items := ht.total o ho hox
  exact hno (htotal ▸ hfits o ho)

end

/-- the insert of a payment for an order that has none -/
theorem insertPayment_ok_iff (now : Nat) (ids : PaymentIds) {t : List Payment}
    (input : ProcessPaymentInput) (hid : ids.payment.val ∉ t.map Payment.id)
    (horder : input.orderId ∉ t.map Payment.orderId) :
    (∃ t', insertPayment now ids t input = .ok t') ↔ fitsDecimal 10 input.amount = true := by
  unfold insertPayment
  by_cases hfit : fitsDecimal 10 input.amount = true
  · rw [if_neg (by simp [hid, horder, hfit])]
    exact ⟨fun _ => hfit, fun _ => ⟨_, rfl⟩⟩
  · rw [if_pos (Or.inr (Or.inr (Bool.not_eq_true _ ▸ hfit)))]
    exact ⟨fun ⟨_, h⟩ => (by cases h), fun h => absurd h hfit⟩

/-- the lines cost less than 10^8 at the prices of the table -/
def CostFits (t : List Product) (items : List LineItem) : Prop :=
  -10 ^ 10 < priceSum t items ∧ priceSum t items < 10 ^ 10

instance (t : List Product) (items : List LineItem) : Decidable (CostFits t items) :=
  inferInstanceAs (Decidable (_ ∧ _))

/-- **Which reservations can be paid for.**  A delivery has reserved the stock of an order.  Its
reply moves the saga, and its total can be stored as an amount, if and only if the lines cost less
than 10^8 at the prices of the catalogue.  Where they cost more, the saga never gets beyond its
reservation. -/
theorem reservation_storable_iff (now : Nat) (as : List Action) (index : Nat) (again : Bool)
    (ids : DeliveryIds) (c : ReserveStockCommand) (items : List OrderCreatedEventItem)
    (hm : (run World.step (World.init now) as).inflight[index]?
      = some ⟨.reserveStock, .reserveStock c⟩)
    (hnew : findKey c.commandId (run World.step (World.init now) as).products.idempotencyKeys
      = none)
    (hprices : ∀ p ∈ (run World.step (World.init now) as).products.products,
      fitsDecimal 10 p.price = true)
    (hres : (reserveItems (run World.step (World.init now) as).products.products c.items).2
      = .ok items) :
    let w := run World.step (World.init now) as
    let w' := w.step (.deliver index again ids)
    let e := reservedEvent c items
    (⟨.stockReserved, .stockReserved e⟩ : Message) ∈ messages w'.products.outbox ∧
    (∀ later g q s, (run World.step w' later).orders.db.loadSagaForStep c.orderId .reserveStock
        = some s →
      (Advances g q (run World.step w' later).orders.db e ↔ CostFits w.products.products c.items)) ∧
    (∀ (t : List Payment) (clock : Nat) (pids : PaymentIds) (userId : String),
      pids.payment.val ∉ t.map Payment.id → c.orderId ∉ t.map Payment.orderId →
      ((∃ t', insertPayment clock pids t ⟨c.orderId, userId, e.total⟩ = .ok t') ↔
        CostFits w.products.products c.items)) ∧
    (¬ CostFits w.products.products c.items → ∀ later,
      ∀ s ∈ (run World.step w' later).orders.db.sagas, s.orderId = c.orderId →
        s.currentStep = .reserveStock ∨ s.currentStep = .failed) := by
  intro w w' e
  have hj : Joint w _ := joint_run now as
  have hj' := joint_step w _ (.deliver index again ids) hj
  obtain ⟨hreserved, hwritten⟩ := hj.hasReserved again ids hm hnew hres
  have hlisted : List.Forall₂ (Listed w.products.products) c.items items := by
    cases hloop : reserveItems w.products.products c.items with
    | mk t' res =>
      obtain rfl : res = .ok items := (congrArg Prod.snd hloop).symm.trans hres
      exact reserveItems_listed hloop
  have hfit : ∀ d ∈ items, fitsDecimal 10 d.unitPrice = true := by
    intro d hd
    obtain ⟨_, _, p, hp, _, _, rfl⟩ := line_of_listed hlisted hd
    exact hprices p hp
  have hcost : fitsDecimal 10 (amountOf items) = true ↔ CostFits w.products.products c.items := by
    rw [amountOf_listed hj.stock.productIds hlisted]
    exact fitsDecimal_iff
  have hrun : ∀ later, run World.step (World.init now) (as ++ .deliver index again ids :: later)
      = run World.step w' later := fun later => by rw [run_append, run_cons]
  refine ⟨hwritten, fun later g q s hl => ?_, fun t clock pids userId hid horder => ?_,
    fun hno later s hs hso => ?_⟩
  · have hj₂ := joint_run now (as ++ .deliver index again ids :: later)
    have hbook := (tally_run now (as ++ .deliver index again ids :: later)).book
    rw [hrun] at hj₂ hbook
    obtain ⟨hs, hso, _, hstep⟩ := loadSagaForStep_some hl
    have hblank := hbook.blank s hs hstep
    rw [hso] at hblank
    exact (onStockReserved_advances_iff hj₂.order.wf g q (e := e) hl hblank hfit).trans hcost
  · exact (insertPayment_ok_iff clock pids ⟨c.orderId, userId, e.total⟩ hid horder).trans hcost
  · have hj₂ := joint_run now (as ++ .deliver index again ids :: later)
    have hbook := (tally_run now (as ++ .deliver index again ids :: later)).book
    have hfits := totals_fit now (as ++ .deliver index again ids :: later)
    rw [hrun] at hj₂ hbook hfits
    exact (hreserved.run hj' later).stranded hj₂ hbook hfits (fun h => hno (hcost.mp h)) hs hso

/-- two pens have been ordered, and the command that reserves them is on the wire -/
def pensOrdered : List Action := oneSale 2 ++ [.publish .order 0]

def reservePens : ReserveStockCommand :=
  ⟨(Uuid.sample '3').val, (Uuid.sample '1').val, "corr", [⟨(Uuid.sample '7').val, 2⟩]⟩

def sampleIds : DeliveryIds := ⟨.sample 'a', ⟨.sample '4', .sample '5'⟩, .stored _⟩

theorem reservation_storable_iff_pens :
    let w' := (run World.step (World.init 0) pensOrdered).step (.deliver 0 false sampleIds)
    ∀ g q, Advances g q w'.orders.db
      (reservedEvent reservePens [⟨(Uuid.sample '7').val, "Pen", 2, 250⟩]) := by
  intro w' g q
  have hl : w'.orders.db.loadSagaForStep reservePens.orderId .reserveStock = some
      { Saga.create 0 (Uuid.sample '1').val "corr" with id := (Uuid.sample '3').val } := by
    decide +kernel
  have h := reservation_storable_iff 0 pensOrdered 0 false sampleIds reservePens
    [⟨(Uuid.sample '7').val, "Pen", 2, 250⟩] (by decide +kernel) (by decide +kernel)
    (by decide +kernel) (by decide +kernel)
  exact (h.2.1 [] g q _ hl).mpr (by decide +kernel)

/-- two of a product whose price is the highest that its column takes -/
def dearSale : List Action :=
  [.createProduct (.sample '7') ⟨"Ring", none, 9999999999, 2⟩,
    .order (.create (.sample 'a') ⟨.sample '1', [.sample '2'], .sample '3'⟩
      ⟨"user", "user@shop", "corr", [⟨(Uuid.sample '7').val, 2⟩]⟩)]

/-- the rings have been reserved, and the reply has been delivered -/
def ringsTaken : World :=
  run World.step (World.init 0) (dearSale ++ send .order 0 'a' ++ send .product 0 'b')

/-- **A total that no column takes.**  Two rings can be reserved, their total cannot be stored: once
the reply has been delivered, the rings are gone and the saga still waits. -/
theorem overflow_strands :
    (¬ ∀ (as : List Action) (index : Nat) (c : ReserveStockCommand)
        (items : List OrderCreatedEventItem),
      let w := run World.step (World.init 0) as
      w.inflight[index]? = some ⟨.reserveStock, .reserveStock c⟩ →
      (∀ p ∈ w.products.products,
        fitsDecimal 10 p.price = true ∧ 0 ≤ p.stock ∧ p.stock < 2 ^ 31) →
      c.items ≠ [] → (∀ i ∈ c.items, 0 < i.quantity) →
      (reserveItems w.products.products c.items).2 = .ok items →
      fitsDecimal 10 (amountOf items) = true) ∧
    ringsTaken.settled ∧ stockOf ringsTaken.products.products (Uuid.sample '7').val = 0 ∧
      ringsTaken.orders.db.sagas.map Saga.currentStep = [.reserveStock] := by
  constructor
  · intro h
    have hfits := h (dearSale ++ [.publish .order 0]) 0 reservePens
      [⟨(Uuid.sample '7').val, "Ring", 2, 9999999999⟩] (by decide +kernel) (by decide +kernel)
      (by decide) (by decide) (by decide +kernel)
    exact absurd hfits (by decide)
  · refine ⟨⟨by decide +kernel, fun service => ?_⟩, by decide +kernel, by decide +kernel⟩
    cases service <;> decide +kernel

end Shop
