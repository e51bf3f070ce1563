import Shop.Order.Details
import Shop.Product.Specification
import Shop.System.Compensation

/-!
# Totals and lines of the confirmed orders

The details of an order are taken from the product table by the reservation, travel in its reply,
are joined to the item rows by product id, and are read back for ORDER_CONFIRMED; the total is
summed up in product-service.  The reply spells a product id as the product table does, the item row
as the client has.

* `ReservedBy p c e`     the delivery `p` has reserved the stock of the command `c`, with reply `e`;
* `Tallied db P x e`     the order `x` has the total of the recorded reply `e`, and its details where
                         they can be joined;
* `ReadBack db e`        an ORDER_CONFIRMED event says what the tables say;
* `TallyBook db P`       the order of every payment command is tallied, every event is read back;
* `Recording w a db P`   what an action adds to the tables that the book is about;
* `tally_run`            the book holds in every reachable state;
* `Priced db x items t`  the order has these lines at the prices of these products, everywhere;
* `totals_agree_iff`     an order that is to be paid does, if its lines spell the ids of the products
                         as the table does, and otherwise not.
-/

set_option linter.unusedSectionVars false

namespace Shop
open Lib

def Confirms (M : List Message) (e : OrderConfirmedEvent) : Prop :=
  (⟨.orderConfirmed, .orderConfirmed e⟩ : Message) ∈ M

/-- the order `x` has been confirmed with the total of a recorded reply, and with its details on all
lines that they were joined to -/
structure Tallied (db : OrderDb) (P : List IdempotencyKey) (x : String) (e : StockReservedEvent) :
    Prop where
  record : ∃ r ∈ P, r.result.replyPayload = .stockReserved e
  order : e.orderId = x
  known : x ∈ db.orders.map OrderRow.id
  rows : ∀ r ∈ db.orderItems, r.orderId = x → Joined e.items r
  total : ∀ o ∈ db.orders, o.id = x → o.total = e.total

/-- the event says what the tables say of its order, which is completed -/
structure ReadBack (db : OrderDb) (e : OrderConfirmedEvent) : Prop where
  completed : ∃ s ∈ db.sagas, s.orderId = e.orderId ∧ s.currentStep = .completed
  items : e.items.Perm (db.detailsOf e.orderId)
  total : ∀ o ∈ db.orders, o.id = e.orderId → e.total = o.total

/-- the item rows of the order `x` are as they were created -/
def Unpriced (db : OrderDb) (x : String) : Prop :=
  ∀ r ∈ db.orderItems, r.orderId = x → r.Blank

structure TallyBook (db : OrderDb) (P : List IdempotencyKey) : Prop where
  blank : ∀ s ∈ db.sagas, s.currentStep = .reserveStock → Unpriced db s.orderId
  step : ∀ s ∈ db.sagas, s.currentStep ≠ .reserveStock → s.currentStep ≠ .failed →
    ∃ e, Tallied db P s.orderId e
  pays : ∀ c, Pays (messages db.outbox) c → ∃ e, Tallied db P c.orderId e
  confirmed : ∀ e, Confirms (messages db.outbox) e → ReadBack db e

theorem TallyBook.empty : TallyBook OrderDb.empty [] where
  blank := fun _ h => absurd h List.not_mem_nil
  step := fun _ h => absurd h List.not_mem_nil
  pays := fun _ h => absurd h List.not_mem_nil
  confirmed := fun _ h => absurd h List.not_mem_nil

theorem Tallied.mono {db : OrderDb} {P P' : List IdempotencyKey} {x : String}
    {e : StockReservedEvent} (h : Tallied db P x e) (hP : ∀ r ∈ P, r ∈ P') : Tallied db P' x e where
  record := by
    obtain ⟨r, hr, he⟩ := h.record
    exact ⟨r, hP r hr, he⟩
  order := h.order
  known := h.known
  rows := h.rows
  total := h.total

theorem TallyBook.mono {db : OrderDb} {P P' : List IdempotencyKey} (h : TallyBook db P)
    (hP : ∀ r ∈ P, r ∈ P') : TallyBook db P' where
  blank := h.blank
  step := fun s hs h1 h2 => (h.step s hs h1 h2).imp fun _ ht => ht.mono hP
  pays := fun c hc => (h.pays c hc).imp fun _ ht => ht.mono hP
  confirmed := h.confirmed

/-- marks on the outbox are not part of the book -/
theorem TallyBook.outbox {db : OrderDb} {P : List IdempotencyKey} (h : TallyBook db P)
    {out : List OutboxRow} (hout : messages out = messages db.outbox) :
    TallyBook { db with outbox := out } P where
  blank := h.blank
  step := fun s hs h1 h2 => (h.step s hs h1 h2).imp fun _ ht =>
    ⟨ht.record, ht.order, ht.known, ht.rows, ht.total⟩
  pays := fun c hc => (h.pays c (hout ▸ hc)).imp fun _ ht =>
    ⟨ht.record, ht.order, ht.known, ht.rows, ht.total⟩
  confirmed := fun e he =>
    have hr := h.confirmed e (hout ▸ he)
    ⟨hr.completed, hr.items, hr.total⟩

/-! ## moves -/

section
variable {db db' : OrderDb} {P : List IdempotencyKey} {s s' : Saga} {o o' : OrderRow}
  {out : List OutboxRow}

/-- what stays as it is: the rows of the order, and its total -/
theorem Tallied.keep {x : String} {e : StockReservedEvent} (h : Tallied db P x e)
    (hids : ∀ x ∈ db.orders.map OrderRow.id, x ∈ db'.orders.map OrderRow.id)
    (hrows : ∀ r ∈ db'.orderItems, r.orderId = x → r ∈ db.orderItems)
    (htotal : ∀ y ∈ db'.orders, y.id = x → ∃ z ∈ db.orders, z.id = x ∧ y.total = z.total) :
    Tallied db' P x e where
  record := h.record
  order := h.order
  known := hids x h.known
  rows := fun r hr hx => h.rows r (hrows r hr hx) hx
  total := by
    intro y hy hyx
    obtain ⟨z, hz, hzx, he⟩ := htotal y hy hyx
    rw [he]
    exact h.total z hz hzx

/-- a move that keeps the total keeps the totals of all orders -/
theorem Moved.total_kept (m : Moved db db' s s' o o' out) (ht : o'.total = o.total) {y : OrderRow}
    (hy : y ∈ db'.orders) : ∃ z ∈ db.orders, z.id = y.id ∧ y.total = z.total := by
  rcases m.mem_orders.mp hy with rfl | ⟨hy, _⟩
  · exact ⟨o, m.order_mem, m.order_same.1.symm, ht⟩
  · exact ⟨y, hy, rfl, rfl⟩

/-- another order than the one that moves -/
theorem Moved.order_other (m : Moved db db' s s' o o' out) {y : OrderRow} (hy : y ∈ db'.orders)
    (hne : y.id ≠ s.orderId) : y ∈ db.orders := by
  rcases m.mem_orders.mp hy with rfl | ⟨hy, _⟩
  · exact absurd (m.order_same.1.trans m.order_id) hne
  · exact hy

theorem Moved.orderIds_sub (m : Moved db db' s s' o o' out) :
    ∀ x ∈ db.orders.map OrderRow.id, x ∈ db'.orders.map OrderRow.id :=
  fun _ hx => m.orderIds_eq.symm ▸ hx

theorem Tallied.moved {x : String} {e : StockReservedEvent} (h : Tallied db P x e)
    (m : Moved db db' s s' o o' out) (ht : o'.total = o.total)
    (hi : db'.orderItems = db.orderItems) : Tallied db' P x e :=
  h.keep m.orderIds_sub (fun r hr _ => hi ▸ hr) fun y hy hyx => by
    obtain ⟨z, hz, hzy, he⟩ := m.total_kept ht hy
    exact ⟨z, hz, hzy.trans hyx, he⟩

/-- the rows of an order that is not detailed -/
theorem mem_priceRows_other {x y : String} (h : x ≠ y) {ds : List OrderCreatedEventItem}
    {rows : List OrderItemRow} {r : OrderItemRow} (hr : r ∈ priceRows ds y rows)
    (hx : r.orderId = x) : r ∈ rows := by
  have hf : r ∈ (priceRows ds y rows).filter fun r => decide (r.orderId = x) :=
    List.mem_filter.mpr ⟨hr, decide_eq_true hx⟩
  rw [filter_priceRows h] at hf
  exact (List.mem_filter.mp hf).1

theorem Unpriced.other {x : String} (h : Unpriced db x) {ds : List OrderCreatedEventItem}
    (hne : x ≠ s.orderId) (hi : db'.orderItems = priceRows ds s.orderId db.orderItems) :
    Unpriced db' x :=
  fun r hr hx => h r (mem_priceRows_other hne (hi ▸ hr) hx) hx

theorem Tallied.other {x : String} {e e' : StockReservedEvent} (h : Tallied db P x e)
    (m : Moved db db' s s' o o' out) (hne : x ≠ s.orderId)
    (hi : db'.orderItems = priceRows e'.items s.orderId db.orderItems) : Tallied db' P x e :=
  h.keep m.orderIds_sub (fun _ hr hx => mem_priceRows_other hne (hi ▸ hr) hx) fun y hy hyx =>
    ⟨y, m.order_other hy (hyx ▸ hne), hyx, rfl⟩

/-- a move that sends a message -/
theorem Moved.changed {r : OutboxRow} (m : Moved db db' s s' o o' [r]) : db' ≠ db := by
  intro he
  have hlen := congrArg List.length m.outbox
  rw [he, List.length_append] at hlen
  exact absurd hlen (by simp)

/-- a completed saga that does not move -/
theorem Moved.completed_kept (m : Moved db db' s s' o o' out) (hdone : s.currentStep ≠ .completed)
    {x : String} (h : ∃ y ∈ db.sagas, y.orderId = x ∧ y.currentStep = .completed) (hwf : WF db) :
    x ≠ s.orderId ∧ ∃ y ∈ db'.sagas, y.orderId = x ∧ y.currentStep = .completed := by
  obtain ⟨y, hy, hyx, hstep⟩ := h
  have hne : y ≠ s := fun e => hdone (e ▸ hstep)
  refine ⟨fun e => hne (hwf.saga_inj hy m.saga_mem (hyx.trans e)), y, ?_, hyx, hstep⟩
  exact m.mem_sagas.mpr (Or.inr ⟨hy, fun e => hne (hwf.saga_id_inj hy m.saga_mem e)⟩)

end

/-! ## the transactions of order-service -/

section
variable {db db' : OrderDb} {P : List IdempotencyKey} {s s' : Saga} {o o' : OrderRow}
  {out : List OutboxRow} (h : TallyBook db P) (hwf : WF db) (m : Moved db db' s s' o o' out)
include h hwf m

/-- a move that leaves the item rows and the total alone -/
theorem TallyBook.moved (hi : db'.orderItems = db.orderItems) (ht : o'.total = o.total)
    (hdone : s.currentStep ≠ .completed)
    (hback : s'.currentStep = .reserveStock → s.currentStep = .reserveStock)
    (hstep : s'.currentStep ≠ .reserveStock → s'.currentStep ≠ .failed →
      s.currentStep ≠ .reserveStock ∧ s.currentStep ≠ .failed)
    (hpay : ∀ c, Pays (messages out) c → c.orderId = s.orderId ∧ s.currentStep = .processPayment)
    (hconf : ∀ e, Confirms (messages out) e → e.orderId = s.orderId ∧
      s'.currentStep = .completed ∧ e.items.Perm (db.detailsOf s.orderId) ∧ e.total = o.total) :
    TallyBook db' P where
  blank := by
    intro x hx hs
    have hkept : ∀ y, Unpriced db y → Unpriced db' y := fun y h r hr => h r (hi ▸ hr)
    rcases m.mem_sagas.mp hx with rfl | ⟨hx, _⟩
    · exact hkept _ (m.saga_keep.2.1 ▸ h.blank s m.saga_mem (hback hs))
    · exact hkept _ (h.blank x hx hs)
  step := by
    intro x hx h1 h2
    rcases m.mem_sagas.mp hx with rfl | ⟨hx, _⟩
    · obtain ⟨e, he⟩ := h.step s m.saga_mem (hstep h1 h2).1 (hstep h1 h2).2
      exact ⟨e, m.saga_keep.2.1 ▸ he.moved m ht hi⟩
    · exact (h.step x hx h1 h2).imp fun _ he => he.moved m ht hi
  pays := by
    intro c hc
    unfold Pays at hc
    rw [m.outbox, messages_append] at hc
    rcases List.mem_append.mp hc with hc | hc
    · exact (h.pays c hc).imp fun _ he => he.moved m ht hi
    · obtain ⟨hco, hs⟩ := hpay c hc
      obtain ⟨e, he⟩ := h.step s m.saga_mem (by rw [hs]; decide) (by rw [hs]; decide)
      exact ⟨e, hco.symm ▸ he.moved m ht hi⟩
  confirmed := by
    intro e he
    unfold Confirms at he
    rw [m.outbox, messages_append] at he
    have hdetails : db'.detailsOf e.orderId = db.detailsOf e.orderId := by
      unfold OrderDb.detailsOf
      rw [hi]
    rcases List.mem_append.mp he with he | he
    · have hr := h.confirmed e he
      obtain ⟨_, hcompleted⟩ := m.completed_kept hdone hr.completed hwf
      refine ⟨hcompleted, hdetails ▸ hr.items, fun y hy hye => ?_⟩
      obtain ⟨z, hz, hzy, htot⟩ := m.total_kept ht hy
      rw [htot]
      exact hr.total z hz (hzy.trans hye)
    · obtain ⟨heo, hs', hitems, htot⟩ := hconf e he
      refine ⟨⟨s', m.mem_sagas.mpr (Or.inl rfl), m.saga_keep.2.1.trans heo.symm, hs'⟩, ?_, ?_⟩
      · rw [hdetails, heo]
        exact hitems
      · intro y hy hye
        rcases m.mem_orders.mp hy with rfl | ⟨_, hne⟩
        · exact htot.trans ht.symm
        · exact absurd (hye.trans (heo.trans m.order_id.symm)) hne

/-- the order that is confirmed -/
theorem TallyBook.tallied {e : StockReservedEvent} (hs : s.currentStep = .reserveStock)
    (hrec : ∃ r ∈ P, r.result.replyPayload = .stockReserved e) (he : e.orderId = s.orderId)
    (hi : db'.orderItems = priceRows e.items s.orderId db.orderItems) (ht : o'.total = e.total) :
    Tallied db' P s.orderId e := by
  refine ⟨hrec, he, ?_, fun r hr hro => ?_, fun y hy hye => ?_⟩
  · rw [m.orderIds_eq, ← m.order_id]
    exact List.mem_map_of_mem m.order_mem
  · rw [hi] at hr
    obtain ⟨r₀, hr₀, rfl⟩ := List.mem_map.mp hr
    by_cases ho : r₀.orderId = s.orderId
    · rw [if_pos ho]
      exact (h.blank s m.saga_mem hs r₀ hr₀ ho).joined e.items
    · rw [if_neg ho] at hro
      exact absurd hro ho
  · rcases m.mem_orders.mp hy with rfl | ⟨_, hne⟩
    · exact ht
    · exact absurd (hye.trans m.order_id.symm) hne

/-- the confirmation of an order, with the details and the total of a recorded reply -/
theorem TallyBook.reserved {e : StockReservedEvent} (hs : s.currentStep = .reserveStock)
    (hs' : s'.currentStep ≠ .reserveStock)
    (hrec : ∃ r ∈ P, r.result.replyPayload = .stockReserved e) (he : e.orderId = s.orderId)
    (hi : db'.orderItems = priceRows e.items s.orderId db.orderItems) (ht : o'.total = e.total)
    (hpay : ∀ c, Pays (messages out) c → c.orderId = s.orderId)
    (hconf : ∀ e, ¬ Confirms (messages out) e) : TallyBook db' P := by
  have hdone : s.currentStep ≠ .completed := by rw [hs]; decide
  have hnew : Tallied db' P s.orderId e := h.tallied hwf m hs hrec he hi ht
  have hothers : ∀ x ∈ db.sagas, x.id ≠ s.id → x.orderId ≠ s.orderId := fun x hx hne e =>
    hne (congrArg Saga.id (hwf.saga_inj hx m.saga_mem e))
  refine ⟨fun x hx hstep => ?_, fun x hx h1 h2 => ?_, fun c hc => ?_, fun e' he' => ?_⟩
  · rcases m.mem_sagas.mp hx with rfl | ⟨hx, hne⟩
    · exact absurd hstep hs'
    · exact (h.blank x hx hstep).other (hothers x hx hne) hi
  · rcases m.mem_sagas.mp hx with rfl | ⟨hx, hne⟩
    · exact ⟨e, m.saga_keep.2.1.symm ▸ hnew⟩
    · have hxs := hothers x hx hne
      exact (h.step x hx h1 h2).imp fun _ ht => ht.other m hxs hi
  · unfold Pays at hc
    rw [m.outbox, messages_append] at hc
    by_cases hco : c.orderId = s.orderId
    · exact ⟨e, hco.symm ▸ hnew⟩
    · rcases List.mem_append.mp hc with hc | hc
      · exact (h.pays c hc).imp fun _ ht => ht.other m hco hi
      · exact absurd (hpay c hc) hco
  · unfold Confirms at he'
    rw [m.outbox, messages_append] at he'
    rcases List.mem_append.mp he' with he' | he'
    · have hr := h.confirmed e' he'
      obtain ⟨hne, hcompleted⟩ := m.completed_kept hdone hr.completed hwf
      refine ⟨hcompleted, ?_, fun y hy hye => hr.total y (m.order_other hy (hye ▸ hne)) hye⟩
      unfold OrderDb.detailsOf
      rw [hi, filter_priceRows hne]
      exact hr.items
    · exact absurd he' (hconf e')

end

section
variable {db db' : OrderDb} {P : List IdempotencyKey}

/-- the item rows of an order that is there when another one is created -/
theorem mem_created_items {g : RowDefaults} {ids : NewIds} {input : CreateOrderInput}
    {r : OrderItemRow} (hne : r.orderId ≠ ids.order.val) :
    r ∈ (created g ids db input).orderItems ↔ r ∈ db.orderItems := by
  show r ∈ db.orderItems ++ _ ↔ _
  rw [List.mem_append]
  exact or_iff_left fun hr => hne (newItemRows_owner _ _ _ r hr)

theorem detailsOf_created (g : RowDefaults) (ids : NewIds) (db : OrderDb)
    (input : CreateOrderInput) {x : String} (hne : x ≠ ids.order.val) :
    (created g ids db input).detailsOf x = db.detailsOf x := by
  unfold OrderDb.detailsOf
  show List.map _ (List.filter _ (db.orderItems ++ _)) = _
  rw [List.filter_append]
  have hnil : ∀ l : List OrderItemRow, (∀ r ∈ l, r.orderId = ids.order.val) →
      (l.filter fun r => decide (r.orderId = x)) = [] := fun l hl =>
    List.filter_eq_nil_iff.mpr fun r hr he => hne ((of_decide_eq_true he).symm.trans (hl r hr))
  rw [hnil _ (newItemRows_owner _ _ _), List.append_nil]

theorem Tallied.created {g : RowDefaults} {ids : NewIds} {input : CreateOrderInput} {x : String}
    {e : StockReservedEvent} (h : Tallied db P x e)
    (hnew : ids.order.val ∉ db.orders.map OrderRow.id) :
    Tallied (created g ids db input) P x e := by
  have hne : x ≠ ids.order.val := fun he => hnew (he ▸ h.known)
  refine h.keep (fun y hy => ?_) (fun r hr hx => ?_) fun y hy hyx => ?_
  · show y ∈ (db.orders ++ [_]).map OrderRow.id
    rw [List.map_append]
    exact List.mem_append_left _ hy
  · exact (mem_created_items (hx ▸ hne)).mp hr
  · rcases mem_created_orders.mp hy with hy | rfl
    · exact ⟨y, hy, hyx, rfl⟩
    · exact absurd hyx.symm hne

theorem TallyBook.created {g : RowDefaults} {ids : NewIds} {input : CreateOrderInput}
    (h : TallyBook db P) (hwf : WF db) (hf : ids.fresh db input = true) :
    TallyBook (created g ids db input) P := by
  obtain ⟨hnew, _⟩ := fresh_iff.mp hf
  have hmsg : ∀ m ∈ messages (Shop.created g ids db input).outbox, m.topic ≠ .reserveStock →
      m ∈ messages db.outbox := by
    intro m hm ht
    have hm : m ∈ messages (db.outbox ++ [_]) := hm
    rw [messages_append] at hm
    rcases List.mem_append.mp hm with hm | hm
    · exact hm
    · rw [List.mem_singleton.mp hm] at ht
      exact absurd rfl ht
  refine ⟨fun s hs hstep r hr hx => ?_, fun s hs h1 h2 => ?_, fun c hc => ?_, fun e he => ?_⟩
  · rcases List.mem_append.mp hr with hr | hr
    · rcases mem_created_sagas.mp hs with hs | rfl
      · exact h.blank s hs hstep r hr hx
      · have hx : r.orderId = ids.order.val := hx
        exact absurd (hx ▸ hwf.itemOwner r hr) hnew
    · exact newItemRows_blank _ _ _ _ _ _ r hr
  · rcases mem_created_sagas.mp hs with hs | rfl
    · exact (h.step s hs h1 h2).imp fun _ ht => ht.created hnew
    · exact absurd rfl h1
  · exact (h.pays c (hmsg _ hc nofun)).imp fun _ ht => ht.created hnew
  · have hr := h.confirmed e (hmsg _ he nofun)
    obtain ⟨s, hs, hso, hstep⟩ := hr.completed
    have hne : e.orderId ≠ ids.order.val := by
      intro hx
      apply hnew
      rw [← hwf.paired, ← hx, ← hso]
      exact List.mem_map_of_mem hs
    refine ⟨⟨s, mem_created_sagas.mpr (Or.inl hs), hso, hstep⟩, ?_, fun y hy hye => ?_⟩
    · rw [detailsOf_created g ids db input hne]
      exact hr.items
    · rcases mem_created_orders.mp hy with hy | rfl
      · exact hr.total y hy hye
      · exact absurd hye.symm hne

/-- a saga that is waiting for its reservation is the one that the reply loads -/
theorem WF.waiting (hwf : WF db) {s : Saga} (hs : s ∈ db.sagas)
    (hstep : s.currentStep = .reserveStock) :
    db.loadSagaForStep s.orderId .reserveStock = some s := by
  obtain ⟨o, ho, hos⟩ := hwf.order_of hs
  have hp := hwf.phase s hs o ho hos
  rw [Phase, hstep] at hp
  unfold OrderDb.loadSagaForStep OrderDb.findSaga
  rw [selectBy_mem hwf.sagaOrderIds hs]
  exact if_pos (Saga.canHandle_iff.mpr ⟨hp.1, hstep⟩)

/-- **One action of order-service keeps the book**, if a STOCK_RESERVED among them was recorded. -/
theorem TallyBook.act {w : OrderSystem} {a : OrderAction} {gave : List Saga}
    (h : TallyBook w.db P) (hwf : WF w.db) (hs : OrderStep w a db' gave)
    (hi : ItemsStep w.db db' a)
    (hrep : ∀ u q e, a = .reply u q (.stockReserved e) →
      ∃ r ∈ P, r.result.replyPayload = .stockReserved e) : TallyBook db' P := by
  cases hs with
  | same a => exact h
  | created u ids input hf => exact h.created hwf hf
  | @replied u q ev _ s s' o o' t p ho hf m =>
    have hitems : db'.orderItems = itemsAfter w.db ev := hi.resolve_left m.changed
    cases hf with
    | stockReserved e s o hstep =>
      have ho : s.orderId = e.orderId := ho
      simp only [itemsAfter, ← ho, hwf.waiting m.saga_mem hstep] at hitems
      refine h.reserved hwf m hstep (fun h => by cases h) (hrep u q e rfl) ho.symm hitems rfl
        (fun c hc => ?_) fun e' he' => ?_
      · cases List.mem_singleton.mp hc
        exact ho.symm
      · cases List.mem_singleton.mp he'
    | stockReservationFailed e s o hstep =>
      refine h.moved hwf m hitems rfl (by rw [hstep]; decide) (fun h => by cases h)
        (fun _ h2 => absurd rfl h2) (fun c hc => ?_) fun e' he' => ?_
      · cases List.mem_singleton.mp hc
      · cases List.mem_singleton.mp he'
    | paymentProcessed e s o hstep =>
      refine h.moved hwf m hitems rfl (by rw [hstep]; decide) (fun h => by cases h)
        (fun _ _ => by rw [hstep]; decide) (fun c hc => ?_) fun e' he' => ?_
      · cases List.mem_singleton.mp hc
      · cases List.mem_singleton.mp he'
        exact ⟨m.order_id, rfl, m.order_id ▸ toDomain_details q w.db o, rfl⟩
    | paymentFailed e s o hstep =>
      refine h.moved hwf m hitems rfl (by rw [hstep]; decide) (fun h => by cases h)
        (fun _ _ => by rw [hstep]; decide) (fun c hc => ?_) fun e' he' => ?_
      · cases List.mem_singleton.mp hc
      · cases List.mem_singleton.mp he'
    | stockReleased e s o hstep =>
      refine h.moved hwf m hitems rfl (by rw [hstep]; decide) (fun h => by cases h)
        (fun _ h2 => absurd rfl h2) (fun c hc => ?_) fun e' he' => ?_
      · cases List.mem_singleton.mp hc
      · cases List.mem_singleton.mp he'
  | @retried k u q _ s s' o out gave hrun ht m _ =>
    have hdone : s.currentStep ≠ .completed := by
      intro hstep
      have hp := hwf.phase s m.saga_mem o m.order_mem m.order_id
      rw [Phase, hstep] at hp
      exact absurd (hrun.symm.trans hp.1) (by decide)
    cases ht with
    | exhausted _ =>
      exact h.moved hwf m hi rfl hdone (fun h => by cases h) (fun _ h2 => absurd rfl h2)
        (fun c hc => absurd hc List.not_mem_nil) fun e he => absurd he List.not_mem_nil
    | resent _ hsend =>
      refine h.moved hwf m hi rfl hdone (fun hs => hs) (fun h1 h2 => ⟨h1, h2⟩) (fun c hc => ?_)
        fun e he => ?_
      · cases hsend with
        | reserveStock _ => cases List.mem_singleton.mp hc
        | processPayment hstep =>
          cases List.mem_singleton.mp hc
          exact ⟨rfl, hstep⟩
        | releaseStock _ => cases List.mem_singleton.mp hc
      · cases hsend <;> cases List.mem_singleton.mp he

end

/-! ## reservations -/

/-- the delivery `p.2`, in the state `p.1`, of a command that had no record; its reply is `e` -/
structure ReservedBy (p : World × Action) (c : ReserveStockCommand) (e : StockReservedEvent) :
    Prop where
  delivery : ∃ index again ids, p.2 = .deliver index again ids ∧
    p.1.inflight[index]? = some ⟨.reserveStock, .reserveStock c⟩
  unanswered : findKey c.commandId p.1.products.idempotencyKeys = none
  products : (p.1.products.products.map Product.id).Nodup
  listed : (reserveItems p.1.products.products c.items).2 = .ok e.items
  reply : ProductDb.reserveReply c (.ok e.items) = ⟨.stockReserved, .stockReserved e⟩

section
variable {p : World × Action} {c : ReserveStockCommand} {e : StockReservedEvent}
  (h : ReservedBy p c e)
include h

theorem ReservedBy.lines : List.Forall₂ (Listed p.1.products.products) c.items e.items := by
  cases hres : reserveItems p.1.products.products c.items with
  | mk t' res =>
    have hl := h.listed
    rw [hres] at hl
    have hl : res = .ok e.items := hl
    rw [hl] at hres
    exact reserveItems_listed hres

theorem ReservedBy.event : e = ⟨c.commandId, c.orderId, c.correlationId, e.items,
    amountOf e.items⟩ :=
  (Payload.stockReserved.inj (StoredResult.mk.inj h.reply).2).symm

theorem ReservedBy.orderId : e.orderId = c.orderId := congrArg StockReservedEvent.orderId h.event

theorem ReservedBy.total : e.total = amountOf e.items := congrArg StockReservedEvent.total h.event

end

/-- the tables of order-service and the records of product-service, after the actions `past` -/
structure TallyState (db : OrderDb) (P : List IdempotencyKey) (past : List (World × Action)) :
    Prop where
  itemIds : ∀ r ∈ db.orderItems, r.id ≠ ""
  reserved : ∀ r ∈ P, ∀ e, r.result.replyPayload = .stockReserved e →
    ∃ p ∈ past, ∃ c, Reserves (messages db.outbox) c ∧ ReservedBy p c e
  book : TallyBook db P

section
variable {db : OrderDb} {P K : List IdempotencyKey} {past : List (World × Action)}

theorem TallyState.later (h : TallyState db P past) (p : World × Action) :
    TallyState db P (past ++ [p]) where
  itemIds := h.itemIds
  reserved := by
    intro r hr e he
    obtain ⟨x, hx, c, hc, hb⟩ := h.reserved r hr e he
    exact ⟨x, List.mem_append_left _ hx, c, hc, hb⟩
  book := h.book

theorem TallyState.outbox (h : TallyState db P past) {out : List OutboxRow}
    (hout : messages out = messages db.outbox) : TallyState { db with outbox := out } P past where
  itemIds := h.itemIds
  reserved := by
    intro r hr e he
    obtain ⟨x, hx, c, hc, hb⟩ := h.reserved r hr e he
    exact ⟨x, hx, c, hout.symm ▸ hc, hb⟩
  book := h.book.outbox hout

/-- a record that is added, of a reservation only if it was the last action -/
theorem TallyState.record (h : TallyState db P past) {p : World × Action} {k : IdempotencyKey}
    (hk : ∀ e, k.result.replyPayload = .stockReserved e →
      ∃ c, Reserves (messages db.outbox) c ∧ ReservedBy p c e) :
    TallyState db (P ++ [k]) (past ++ [p]) where
  itemIds := h.itemIds
  reserved := by
    intro r hr e he
    rcases List.mem_append.mp hr with hr | hr
    · exact (h.later p).reserved r hr e he
    · rw [List.mem_singleton.mp hr] at he
      obtain ⟨c, hc, hb⟩ := hk e he
      exact ⟨p, List.mem_append_right _ (List.mem_singleton.mpr rfl), c, hc, hb⟩
  book := h.book.mono fun _ hr => List.mem_append_left _ hr

theorem TallyState.act {w : OrderSystem} (h : TallyState w.db P past) (hb : OrderBook w.db P K)
    (a : OrderAction) (hrep : ∀ u q e, a = .reply u q (.stockReserved e) →
      ∃ r ∈ P, r.result.replyPayload = .stockReserved e) :
    TallyState (w.step a).db P past where
  itemIds := (step_db hb.wf a).itemIds h.itemIds
  reserved := by
    intro r hr e he
    obtain ⟨x, hx, c, hc, hres⟩ := h.reserved r hr e he
    obtain ⟨out, hout, _⟩ := (step_db hb.wf a).outbox
    refine ⟨x, hx, c, ?_, hres⟩
    unfold Reserves
    rw [hout, messages_append]
    exact List.mem_append_left _ hc
  book := h.book.act hb.wf (order_step hb.wf a) (step_items hb.wf h.itemIds a) hrep

end

/-! ## one action of the system -/

/-- the tables of order-service and the records of product-service after the action `a` -/
inductive Recording (w : World) (a : Action) : OrderDb → List IdempotencyKey → Prop where
  | same (out : List OutboxRow) : messages out = messages w.orders.db.outbox →
      Recording w a { w.orders.db with outbox := out } w.products.idempotencyKeys
  | acts (b : OrderAction) :
      (∀ u q ev, b = .reply u q ev → ∃ m ∈ w.inflight, m.reply = some ev) →
      Recording w a (w.orders.step b).db w.products.idempotencyKeys
  | records (k : IdempotencyKey) : (∀ e, k.result.replyPayload = .stockReserved e →
      ∃ c, Reserves w.inflight c ∧ ReservedBy (w, a) c e) →
      Recording w a w.orders.db (w.products.idempotencyKeys ++ [k])

theorem Recording.refl (w : World) (a : Action) :
    Recording w a w.orders.db w.products.idempotencyKeys := .same _ rfl

theorem Recording.setRow (w : World) (a : Action) (service : Service) (row : Nat)
    {f : OutboxRow → OutboxRow} (hf : ∀ r, (f r).message = r.message) :
    Recording w a (w.setRow service row f).orders.db
      (w.setRow service row f).products.idempotencyKeys := by
  cases service with
  | order => exact .same _ (messages_modify hf row _)
  | product => exact .refl w a
  | payment => exact .refl w a

/-- a catalogue endpoint records nothing -/
theorem Recording.catalogue (w : World) (a : Action) {db : ProductDb}
    (h : CatalogueChange w.products db) : Recording w a w.orders.db db.idempotencyKeys :=
  h.keys.symm ▸ .refl w a

/-- the delivery of a reserve-stock command is recorded, if it was not before -/
theorem reserve_recording {w : World} (hids : (w.products.products.map Product.id).Nodup)
    {index : Nat} {again : Bool} {ids : DeliveryIds} {c : ReserveStockCommand}
    (hm : w.inflight[index]? = some ⟨.reserveStock, .reserveStock c⟩) (g : RowDefaults) :
    Recording w (.deliver index again ids) w.orders.db
      (w.products.handleReserveStock g c).idempotencyKeys := by
  unfold ProductDb.handleReserveStock
  split
  · exact .refl w _
  · rename_i hk
    show Recording w _ _ (saveKey c.commandId _ w.products.idempotencyKeys)
    rw [saveKey_none hk]
    refine .records _ fun e he => ⟨c, List.mem_of_getElem? hm, ?_⟩
    cases hres : reserveItems w.products.products c.items with
    | mk t res =>
      rw [hres] at he
      cases res with
      | error err => cases he
      | ok items =>
        cases he
        exact ⟨⟨index, again, ids, rfl, hm⟩, hk, hids, by rw [hres], rfl⟩

/-- a release is recorded as what it is -/
theorem release_recording (w : World) (a : Action) (g : RowDefaults) (c : ReleaseStockCommand) :
    Recording w a w.orders.db (w.products.handleReleaseStock g c).idempotencyKeys := by
  unfold ProductDb.handleReleaseStock
  split
  · exact .refl w a
  · rename_i hk
    show Recording w _ _ (saveKey c.commandId _ w.products.idempotencyKeys)
    rw [saveKey_none hk]
    exact .records _ fun e he => by cases he

/-- **What an action adds**: rows to the tables of order-service, or one record to those of
product-service. -/
theorem World.recording {w : World} (hids : (w.products.products.map Product.id).Nodup)
    (a : Action) : Recording w a (w.step a).orders.db (w.step a).products.idempotencyKeys := by
  have hs := world_step w a
  generalize w.step a = w' at hs ⊢
  cases hs with
  | same _ => exact .refl w a
  | acts b _ hb => exact .acts b fun u q ev he => absurd he (not_reply hb)
  | publishes _ _ => exact .refl w a
  | @marks service row f r _ hf _ _ => exact .setRow w a service row hf
  | @delivers index again ids m inflight w' ha hm _ _ hw' _ =>
    rw [ha]
    cases hw' with
    | reserveStock c => exact reserve_recording hids hm _
    | releaseStock c => exact release_recording w _ _ c
    | processPayment c => exact .refl w _
    | reply _ ev hev =>
      refine .acts (.reply ids.outbox ids.rows ev) fun u q ev' he => ?_
      cases he
      exact ⟨m, List.mem_of_getElem? hm, hev⟩
    | ignored _ _ _ => exact .refl w _
  | catalogue _ hc => exact .catalogue w a hc
  | wallets t _ => exact .refl w a

/-- a STOCK_RESERVED on the wire has been recorded -/
theorem Joint.reserved_recorded {w : World} {xs : List Execution} (h : Joint w xs) {m : Message}
    (hm : m ∈ w.inflight) {e : StockReservedEvent} (hev : m.reply = some (.stockReserved e)) :
    ∃ r ∈ w.products.idempotencyKeys, r.result.replyPayload = .stockReserved e := by
  obtain ⟨service, hmem⟩ := h.wire.published m (h.wire.inflight m hm)
  obtain ⟨t, p⟩ := m
  cases service with
  | order => cases h.order.command _ hmem <;> cases hev
  | product =>
    obtain ⟨r, hr, he⟩ := h.stock.replies _ hmem
    cases h.stock.record r hr with
    | reserved c items _ _ =>
      cases he
      cases hev
      exact ⟨_, hr, rfl⟩
    | notReserved c e _ =>
      cases he
      cases hev
    | released c _ =>
      cases he
      cases hev
  | payment =>
    obtain ⟨r, hr, he⟩ := h.payment.replies _ hmem
    cases h.payment.record r hr with
    | processed c txn _ _ =>
      cases he
      cases hev
    | failed c e _ _ =>
      cases he
      cases hev

theorem TallyState.step {w : World} {xs : List Execution} {past : List (World × Action)}
    (hj : Joint w xs) (h : TallyState w.orders.db w.products.idempotencyKeys past) {a : Action}
    {db' : OrderDb} {P' : List IdempotencyKey} (hs : Recording w a db' P') :
    TallyState db' P' (past ++ [(w, a)]) := by
  cases hs with
  | same out hout => exact (h.outbox hout).later (w, a)
  | acts b hrep =>
    refine (h.act hj.order b fun u q e he => ?_).later (w, a)
    obtain ⟨m, hm, hev⟩ := hrep u q _ he
    exact hj.reserved_recorded hm hev
  | records k hk =>
    refine h.record fun e he => ?_
    obtain ⟨c, hc, hb⟩ := hk e he
    exact ⟨c, hj.origin (hj.wire.inflight _ hc) (Or.inl rfl), hb⟩

/-! ## runs -/

/-- the action and the state in which it is taken -/
def visit (w : World) (a : Action) : List (World × Action) := [(w, a)]

theorem tally_run (now : Nat) (as : List Action) :
    TallyState (run World.step (World.init now) as).orders.db
      (run World.step (World.init now) as).products.idempotencyKeys
      (emits World.step visit (World.init now) as) :=
  invariant_joint (I := fun w past => TallyState w.orders.db w.products.idempotencyKeys past) visit
    (fun _ _ _ a hj h => h.step hj (World.recording hj.stock.productIds a)) (Joint.init now)
    ⟨fun _ h => absurd h List.not_mem_nil, fun _ h => absurd h List.not_mem_nil, TallyBook.empty⟩ as

/-- **Invariant rule for the tables that are recorded.**  What every action keeps, of the tables of
order-service and the records of product-service, holds after every run. -/
theorem invariant_tables {I : OrderDb → List IdempotencyKey → Prop}
    (hstep : ∀ (v : World) a db' P', WF v.orders.db → Recording v a db' P' →
      I v.orders.db v.products.idempotencyKeys → I db' P') {w : World} {xs : List Execution}
    (hj : Joint w xs) (h : I w.orders.db w.products.idempotencyKeys) (as : List Action) :
    I (run World.step w as).orders.db (run World.step w as).products.idempotencyKeys :=
  invariant_joint (I := fun v (_ : List Unit) => I v.orders.db v.products.idempotencyKeys)
    (fun _ _ => []) (fun v _ _ a hj h =>
      hstep v a _ _ hj.order.wf (World.recording hj.stock.productIds a) h) hj h as

/-- the same for the tables of order-service alone: its actions, and the marks on its outbox -/
theorem invariant_orders {I : OrderDb → Prop}
    (hmark : ∀ db out, messages out = messages db.outbox → I db → I { db with outbox := out })
    (hact : ∀ (v : OrderSystem) b, WF v.db → I v.db → I (v.step b).db) {w : World}
    {xs : List Execution} (hj : Joint w xs) (h : I w.orders.db) (as : List Action) :
    I (run World.step w as).orders.db := by
  refine invariant_tables (I := fun db _ => I db) (fun v a db' P' hwf hs h => ?_) hj h as
  cases hs with
  | same out hout => exact hmark _ out hout h
  | acts b _ => exact hact v.orders b hwf h
  | records k _ => exact h

/-- a transaction does not touch the lines of an order that is there -/
theorem DbStep.lines {db db' : OrderDb} (hs : DbStep db db') {x : String}
    (hx : x ∈ db.orders.map OrderRow.id) :
    x ∈ db'.orders.map OrderRow.id ∧ db'.linesOf x = db.linesOf x := by
  cases hs with
  | same => exact ⟨hx, rfl⟩
  | created g ids input hf =>
    refine ⟨?_, linesOf_created_old fun he => (fresh_iff.mp hf).1 (he ▸ hx)⟩
    show x ∈ (db.orders ++ [_]).map OrderRow.id
    rw [List.map_append]
    exact List.mem_append_left _ hx
  | replied g q ev ho hf m => exact ⟨m.orderIds_sub x hx, m.linesOf x⟩
  | retried g q hrun ht m => exact ⟨m.orderIds_sub x hx, m.linesOf x⟩

/-- nor does a whole run -/
theorem lines_run {w : World} {xs : List Execution} (hj : Joint w xs) {x : String}
    (hx : x ∈ w.orders.db.orders.map OrderRow.id) (as : List Action) :
    (run World.step w as).orders.db.linesOf x = w.orders.db.linesOf x := by
  refine (invariant_orders (I := fun db => x ∈ db.orders.map OrderRow.id ∧
    db.linesOf x = w.orders.db.linesOf x) (fun _ _ _ h => h) (fun v b hwf h => ?_) hj ⟨hx, rfl⟩
    as).2
  obtain ⟨hx', hlines⟩ := (step_db hwf b).lines h.1
  exact ⟨hx', hlines.trans h.2⟩

/-! ## what an order costs -/

/-- the lines of an order that has been read, as its ORDER_CONFIRMED carries them -/
def Order.details (order : Order) : List OrderCreatedEventItem :=
  order.items.map fun i => ⟨i.productId, i.productName, i.quantity, i.unitPrice⟩

/-- the line as an order keeps it: spelled by the client, with the name and the price of its product -/
def Detailed (t : List Product) (i : LineItem) (ev : OrderCreatedEventItem) : Prop :=
  ∃ p ∈ t, p.id = i.product ∧ p.isActive = true ∧ ev = ⟨i.productId, p.name, i.quantity, p.price⟩

theorem Detailed.costs {t : List Product} {i : LineItem} {ev : OrderCreatedEventItem}
    (h : Detailed t i ev) : Costs t i ev := by
  obtain ⟨p, hp, hid, _, rfl⟩ := h
  exact ⟨p, hp, hid, rfl, rfl⟩

/-- the lines spell the ids of their products as the product table does -/
def Canonical (items : List LineItem) : Prop := ∀ i ∈ items, i.productId = i.product

instance (items : List LineItem) : Decidable (Canonical items) :=
  inferInstanceAs (Decidable (∀ i ∈ items, _ = _))

/-- the order `x` has the lines `items` with the names and the prices of the products `t`, and what
they cost is its total, the amount of its payment and the total of its confirmation -/
structure Priced (db : OrderDb) (x : String) (items : List LineItem) (t : List Product) : Prop where
  stored : List.Forall₂ (Detailed t) items (db.detailsOf x)
  read : ∀ q, ∃ order, db.getOrder q x = .ok order ∧ order.details.Perm (db.detailsOf x) ∧
    order.total = amountOf order.details
  paid : ∀ c, Pays (messages db.outbox) c → c.orderId = x → c.amount = amountOf (db.detailsOf x)
  confirmed : ∀ e, Confirms (messages db.outbox) e → e.orderId = x →
    e.items.Perm (db.detailsOf x) ∧ e.total = amountOf (db.detailsOf x)

theorem amountOf_perm {xs ys : List OrderCreatedEventItem} (h : xs.Perm ys) :
    amountOf xs = amountOf ys := (h.map _).sum_eq

/-- the lines of an order beside their details: row by row -/
theorem detailed_iff {db : OrderDb} {x : String} {t : List Product} :
    List.Forall₂ (Detailed t) (db.linesOf x) (db.detailsOf x) ↔
      ∀ r ∈ db.orderItems, r.orderId = x →
        Detailed t ⟨r.productId, r.quantity⟩ (OrderDb.lineOf r) := by
  unfold OrderDb.linesOf OrderDb.detailsOf
  rw [List.forall₂_map_left_iff, List.forall₂_map_right_iff, List.forall₂_same]
  refine forall_congr' fun r => ⟨fun h hr hx => ?_, fun h hr => ?_⟩
  · exact h (List.mem_filter.mpr ⟨hr, decide_eq_true hx⟩)
  · obtain ⟨hr, hx⟩ := List.mem_filter.mp hr
    exact h hr (of_decide_eq_true hx)

section
variable {db : OrderDb} {P K : List IdempotencyKey} {x : String} {e : StockReservedEvent}
  (ht : Tallied db P x e) {p : World × Action} {c : ReserveStockCommand} (hres : ReservedBy p c e)
include ht hres

/-- the lines of the command are those of the order -/
theorem Tallied.ordered (hb : OrderBook db P K) (hc : Reserves (messages db.outbox) c) :
    c.items.Perm (db.linesOf x) := by
  obtain ⟨s, _, _, hso, hperm⟩ := hb.ofReserve hc
  rw [← hso, ← hres.orderId, ht.order] at hperm
  exact hperm

/-- item rows that spell their products as the table does carry the details of the products when the
stock was reserved -/
theorem Tallied.stored (hb : OrderBook db P K) (hc : Reserves (messages db.outbox) c)
    (hcan : Canonical (db.linesOf x)) :
    List.Forall₂ (Detailed p.1.products.products) (db.linesOf x) (db.detailsOf x) := by
  refine detailed_iff.mpr fun r hr hx => ?_
  have hline : (⟨r.productId, r.quantity⟩ : LineItem) ∈ db.linesOf x :=
    List.mem_map.mpr ⟨r, List.mem_filter.mpr ⟨hr, decide_eq_true hx⟩, rfl⟩
  have hspelled : r.productId = _ := hcan _ hline
  rcases ht.rows r hr hx with ⟨d, hd, hid, hname, hprice⟩ | ⟨hno, _⟩
  · obtain ⟨i, _, y, hy, _, ha, rfl⟩ := line_of_listed hres.lines hd
    have hid : y.id = r.productId := hid
    refine ⟨y, hy, hid.trans hspelled, ha, ?_⟩
    unfold OrderDb.lineOf
    rw [← hname, ← hprice]
    rfl
  · -- its product has been reserved, so the event has a detail for it
    have hin := (ht.ordered hres hb hc).mem_iff.mpr hline
    obtain ⟨d, hd, y, _, hid, _, rfl⟩ := exists_listed hres.lines hin
    exact absurd (hid.trans hspelled.symm) (hno _ hd)

/-- and only those: a row that no detail was joined to has kept its price of nothing -/
theorem Tallied.canonical
    (hstored : List.Forall₂ (Detailed p.1.products.products) (db.linesOf x) (db.detailsOf x))
    (hprices : ∀ y ∈ p.1.products.products, 0 < y.price) : Canonical (db.linesOf x) := by
  intro i hi
  obtain ⟨r, hr, rfl⟩ := List.mem_map.mp hi
  obtain ⟨hr, hx⟩ := List.mem_filter.mp hr
  have hx := of_decide_eq_true hx
  rcases ht.rows r hr hx with ⟨d, hd, hid, _⟩ | ⟨_, _, hzero⟩
  · obtain ⟨j, _, y, _, hy, _, rfl⟩ := line_of_listed hres.lines hd
    have hid : y.id = r.productId := hid
    have hcan : uuidOf j.productId = r.productId := hy.symm.trans hid
    show r.productId = uuidOf r.productId
    rw [← hcan, uuidOf_uuidOf]
  · obtain ⟨y, hy, _, _, he⟩ := detailed_iff.mp hstored r hr hx
    have hprice : r.unitPrice = y.price := congrArg OrderCreatedEventItem.unitPrice he
    have hpos := hprices y hy
    omega

/-- product-service has summed up what the lines cost at its prices -/
theorem Tallied.amount (hb : OrderBook db P K) (hc : Reserves (messages db.outbox) c) :
    e.total = priceSum p.1.products.products (db.linesOf x) :=
  calc e.total = amountOf e.items := hres.total
    _ = priceSum p.1.products.products c.items := amountOf_listed hres.products hres.lines
    _ = priceSum p.1.products.products (db.linesOf x) := priceSum_perm _ (ht.ordered hres hb hc)

/-- and so much is to be paid -/
theorem Tallied.due (hb : OrderBook db P K) (hc : Reserves (messages db.outbox) c)
    {pay : ProcessPaymentCommand} (hpay : Pays (messages db.outbox) pay) (hpx : pay.orderId = x) :
    pay.amount = priceSum p.1.products.products (db.linesOf x) := by
  obtain ⟨_, _, y, hy, hys, _, hpo, _, hamount, _⟩ := hb.ofPay hpay
  have hyx : y.id = x := hys.trans (hpo.symm.trans hpx)
  exact hamount.trans ((ht.total y hy hyx).trans (ht.amount hres hb hc))

theorem Tallied.priced (hb : OrderBook db P K) (hbook : TallyBook db P)
    (hc : Reserves (messages db.outbox) c) (hcan : Canonical (db.linesOf x)) :
    Priced db x (db.linesOf x) p.1.products.products := by
  have hstored := ht.stored hres hb hc hcan
  have hamount : priceSum p.1.products.products (db.linesOf x) = amountOf (db.detailsOf x) :=
    (amountOf_costs hres.products (hstored.imp fun _ _ hl => hl.costs)).symm
  obtain ⟨o, ho, hox⟩ := List.mem_map.mp ht.known
  have hothers : ∀ y ∈ db.orders, y.id = x → y.total = amountOf (db.detailsOf x) :=
    fun y hy hyx => (ht.total y hy hyx).trans ((ht.amount hres hb hc).trans hamount)
  refine ⟨hstored, fun q => ?_, fun pay hpay hpx => ?_, fun ev hev hevx => ?_⟩
  · have hread := toDomain_details q db o
    rw [hox] at hread
    refine ⟨db.toDomain q o, hox ▸ hb.wf.getOrder q ho, hread, ?_⟩
    exact (hothers o ho hox).trans (amountOf_perm hread).symm
  · exact (ht.due hres hb hc hpay hpx).trans hamount
  · have hback := hbook.confirmed ev hev
    refine ⟨hevx ▸ hback.items, ?_⟩
    exact (hback.total o ho (hox.trans hevx.symm)).trans (hothers o ho hox)

end

/-- an `onStockReserved` that moves its saga sends the payment command -/
theorem onStockReserved_pays {db db' : OrderDb} (hwf : WF db) {g : RowDefaults}
    {q : RowOrder OrderItemRow} {e : StockReservedEvent} {s : Saga}
    (hl : db.loadSagaForStep e.orderId .reserveStock = some s)
    (hok : db.onStockReserved g q e = .ok db') :
    ∃ c, Pays (messages db'.outbox) c ∧ c.orderId = e.orderId := by
  obtain ⟨o, _, _, mid, _, rfl⟩ := onStockReserved_ok g q hl hwf hok
  refine ⟨⟨payId s.id, e.orderId, s.correlationId, o.userId, e.total⟩, ?_, rfl⟩
  unfold Pays
  show _ ∈ messages (mid.outbox ++ [_])
  rw [messages_append]
  exact List.mem_append_right _ (List.mem_singleton.mpr rfl)

/-- a new order keeps the lines that it was created with -/
theorem lines_created (now : Nat) (before later : List Action) {u : Uuid} {ids : NewIds}
    {input : CreateOrderInput}
    (hfresh : ids.fresh (run World.step (World.init now) before).orders.db input = true) :
    (run World.step (World.init now)
      (before ++ .order (.create u ids input) :: later)).orders.db.linesOf ids.order.val
      = input.items := by
  have hj := joint_run now before
  rw [run_append, run_cons]
  generalize run World.step (World.init now) before = w at hfresh hj
  have hcreated : (w.step (.order (.create u ids input))).orders.db =
      created ⟨u, w.clock⟩ ids w.orders.db input := by
    show commit w.orders.db (w.orders.db.createOrder ⟨u, w.clock⟩ ids input) = _
    unfold OrderDb.createOrder
    rw [if_pos hfresh]
    rfl
  have hnew : ids.order.val ∈
      (w.step (.order (.create u ids input))).orders.db.orders.map OrderRow.id := by
    rw [hcreated]
    exact List.mem_map_of_mem (mem_created_orders.mpr (Or.inr rfl))
  rw [lines_run (joint_step w _ (.order (.create u ids input)) hj) hnew, hcreated,
    linesOf_created_new hj.order.wf hfresh]

/-! ## the prices of the catalogue -/

/-- the prices that an action gives to the catalogue -/
def Action.prices : Action → List Int
  | .createProduct _ input => [input.price]
  | .updateProduct _ input => input.price.join.toList
  | _ => []

/-- every price was there before -/
def PricesFrom (t t' : List Product) : Prop := ∀ p' ∈ t', ∃ p ∈ t, p.price = p'.price

theorem PricesFrom.refl (t : List Product) : PricesFrom t t := fun p hp => ⟨p, hp, rfl⟩

theorem PricesFrom.trans {t t' t'' : List Product} (h : PricesFrom t t') (h' : PricesFrom t' t'') :
    PricesFrom t t'' := by
  intro p'' hp''
  obtain ⟨p', hp', he'⟩ := h' p'' hp''
  obtain ⟨p, hp, he⟩ := h p' hp'
  exact ⟨p, hp, he.trans he'⟩

theorem pricesFrom_updateBy (id : String) (f : Product → Product)
    (hf : ∀ p, (f p).price = p.price) (t : List Product) :
    PricesFrom t (updateBy Product.id id f t) := by
  intro p' hp'
  obtain ⟨p, hp, ⟨_, rfl⟩ | ⟨_, rfl⟩⟩ := mem_updateBy.mp hp'
  · exact ⟨p, hp, (hf p).symm⟩
  · exact ⟨_, hp, rfl⟩

theorem PricesFrom.reserveItems (items : List LineItem) (t : List Product) :
    PricesFrom t (reserveItems t items).1 := by
  induction items generalizing t with
  | nil => exact .refl t
  | cons i items ih =>
    cases hi : reserveItem t i with
    | error e =>
      unfold Shop.reserveItems
      rw [hi]
      exact .refl t
    | ok r =>
      obtain ⟨t₁, ev⟩ := r
      obtain ⟨p, _, _, _, rfl, _⟩ := reserveItem_listed hi
      rw [reserveItems_cons_ok hi]
      exact (pricesFrom_updateBy p.id (Product.withStock _) (fun _ => rfl) t).trans (ih _)

theorem PricesFrom.releaseItems (items : List LineItem) (t : List Product) :
    PricesFrom t (releaseItems t items) := by
  induction items generalizing t with
  | nil => exact .refl t
  | cons i items ih =>
    exact (pricesFrom_updateBy i.product (Product.addStock i.quantity) (fun _ => rfl) t).trans
      (ih (releaseItem t i))

theorem PricesFrom.handled {v v' : World} {ids : DeliveryIds} {m : Message}
    (h : Handled v ids m v') : PricesFrom v.products.products v'.products.products := by
  cases h with
  | reserveStock c =>
    show PricesFrom _ (v.products.handleReserveStock _ c).products
    unfold ProductDb.handleReserveStock
    split
    · exact .refl _
    · exact .reserveItems c.items _
  | releaseStock c =>
    show PricesFrom _ (v.products.handleReleaseStock _ c).products
    unfold ProductDb.handleReleaseStock
    split
    · exact .refl _
    · exact .releaseItems c.items _
  | processPayment c => exact .refl _
  | reply _ ev _ => exact .refl _
  | ignored _ _ _ => exact .refl _

/-- a delivery is handled by tables that are as they were -/
theorem deliver_handle {w : World} {index : Nat} {m : Message} (hm : w.inflight[index]? = some m)
    (again : Bool) (ids : DeliveryIds) : ∃ v : World, v.products = w.products ∧
      w.step (.deliver index again ids) = v.handle ids m := by
  refine ⟨if again then w else { w with inflight := w.inflight.eraseIdx index }, ?_, ?_⟩
  · split <;> rfl
  · simp only [World.step, hm]

/-- the endpoints of the catalogue, by the prices that they write -/
theorem prices_commit {db : ProductDb} {prices : List Int} {r : Except ProductsError ProductDb}
    (hr : ∀ db', r = .ok db' → ∀ p' ∈ db'.products,
      p'.price ∈ prices ∨ ∃ p ∈ db.products, p.price = p'.price) :
    ∀ p' ∈ (commit db r).products, p'.price ∈ prices ∨ ∃ p ∈ db.products, p.price = p'.price := by
  cases r with
  | error e => exact fun p' hp' => Or.inr ⟨p', hp', rfl⟩
  | ok db' => exact hr db' rfl

theorem prices_create (g : RowDefaults) (db : ProductDb) (input : ProductDb.CreateProductInput) :
    ∀ p' ∈ (commit db (db.create g input)).products,
      p'.price ∈ [input.price] ∨ ∃ p ∈ db.products, p.price = p'.price := by
  refine prices_commit fun db' he p' hp' => ?_
  unfold ProductDb.create at he
  split at he
  · cases he
  · cases he
    rcases List.mem_append.mp hp' with hp' | hp'
    · exact Or.inr ⟨p', hp', rfl⟩
    · rw [List.mem_singleton.mp hp']
      exact Or.inl List.mem_cons_self

theorem prices_update (db : ProductDb) (id : String) (input : ProductDb.UpdateProductInput) :
    ∀ p' ∈ (commit db (db.update id input)).products,
      p'.price ∈ input.price.join.toList ∨ ∃ p ∈ db.products, p.price = p'.price := by
  refine prices_commit fun db' he p' hp' => ?_
  unfold ProductDb.update at he
  cases hf : findActive id db.products with
  | none =>
    rw [hf] at he
    cases he
  | some p =>
    rw [hf] at he
    dsimp only at he
    split at he
    · cases he
      obtain ⟨q, hq, ⟨_, rfl⟩ | ⟨_, rfl⟩⟩ := mem_updateBy.mp hp'
      · show input.price.join.getD p.price ∈ _ ∨
          ∃ y ∈ db.products, y.price = input.price.join.getD p.price
        cases input.price.join with
        | none => exact Or.inr ⟨p, (findActive_some hf).1, rfl⟩
        | some price => exact Or.inl (Option.mem_toList.mpr rfl)
      · exact Or.inr ⟨_, hq, rfl⟩
    · cases he

theorem prices_remove (db : ProductDb) (id : String) :
    PricesFrom db.products (commit db (db.remove id)).products := by
  unfold ProductDb.remove
  split
  · exact .refl _
  · exact pricesFrom_updateBy _ Product.deactivate (fun _ => rfl) _

theorem prices_reserve (db : ProductDb) (items : List LineItem) :
    PricesFrom db.products (commit db (db.reserveStock items)).products := by
  have hres := PricesFrom.reserveItems items db.products
  unfold ProductDb.reserveStock
  cases hr : reserveItems db.products items with
  | mk t res =>
    rw [hr] at hres
    cases res with
    | error e => exact .refl _
    | ok evs => exact hres

theorem price_step (w : World) (a : Action) : ∀ p' ∈ (w.step a).products.products,
    p'.price ∈ a.prices ∨ ∃ p ∈ w.products.products, p.price = p'.price := by
  have hkept : ∀ {t' : List Product}, PricesFrom w.products.products t' → ∀ p' ∈ t',
      p'.price ∈ a.prices ∨ ∃ p ∈ w.products.products, p.price = p'.price :=
    fun h p' hp' => Or.inr (h p' hp')
  cases a with
  | createProduct id input => exact prices_create _ _ input
  | updateProduct id input => exact prices_update _ id input
  | removeProduct id => exact hkept (prices_remove _ id)
  | reserveProducts items => exact hkept (prices_reserve _ items)
  | deliver index again ids =>
    cases hm : w.inflight[index]? with
    | none =>
      simp only [World.step, hm]
      exact hkept (.refl _)
    | some m =>
      obtain ⟨v, hv, hstep⟩ := deliver_handle hm again ids
      rw [hstep]
      exact hkept (hv ▸ .handled (handled v ids m))
  | order b =>
    simp only [World.step]
    split <;> exact hkept (.refl _)
  | publish service row =>
    simp only [World.step]
    repeat' split
    all_goals exact hkept (.refl _)
  | markPublished service row =>
    simp only [World.step]
    repeat' split
    all_goals cases service <;> exact hkept (.refl _)
  | markFailed service row error =>
    simp only [World.step]
    repeat' split
    all_goals cases service <;> exact hkept (.refl _)
  | userRegistered walletId initialBalance userId => exact hkept (.refl _)
  | topUp walletId userId amount => exact hkept (.refl _)

theorem price_run (w : World) (as : List Action) : ∀ p' ∈ (run World.step w as).products.products,
    (∃ a ∈ as, p'.price ∈ a.prices) ∨ ∃ p ∈ w.products.products, p.price = p'.price := by
  induction as generalizing w with
  | nil => exact fun p' hp' => Or.inr ⟨p', hp', rfl⟩
  | cons a as ih =>
    intro p' hp'
    rcases ih (w.step a) p' hp' with ⟨b, hb, hprice⟩ | ⟨p, hp, hprice⟩
    · exact Or.inl ⟨b, List.mem_cons_of_mem _ hb, hprice⟩
    · rw [← hprice]
      exact (price_step w a p hp).imp_left fun h => ⟨a, List.mem_cons_self, h⟩

/-- **Every price in the catalogue was given to it**, by an action of the run. -/
theorem prices_given (now : Nat) (as : List Action) :
    ∀ p ∈ (run World.step (World.init now) as).products.products, ∃ a ∈ as, p.price ∈ a.prices :=
  fun p hp => (price_run (World.init now) as p hp).resolve_right fun ⟨_, hq, _⟩ =>
    absurd hq List.not_mem_nil

/-! ## totals and lines -/

/-- **When totals agree with lines.**  Once `onStockReserved` has sent the payment command of an
order, its stock has been reserved by some delivery.  The order has kept its lines, and is to pay
what they cost at the prices that the products had at this delivery.  The tables, the payment
commands and the ORDER_CONFIRMED events carry these names and prices line by line if and only if
every line spells the id of its product as the product table does. -/
theorem totals_agree_iff (now : Nat) (before later : List Action) (u : Uuid) (ids : NewIds)
    (input : CreateOrderInput)
    (hfresh : ids.fresh (run World.step (World.init now) before).orders.db input = true)
    (hprices : ∀ a ∈ before ++ .order (.create u ids input) :: later, ∀ price ∈ a.prices,
      0 < price) :
    let as := before ++ .order (.create u ids input) :: later
    let db := (run World.step (World.init now) as).orders.db
    (∀ g q e s db', db.loadSagaForStep e.orderId .reserveStock = some s →
      db.onStockReserved g q e = .ok db' →
      ∃ c, Pays (messages db'.outbox) c ∧ c.orderId = e.orderId) ∧
    db.linesOf ids.order.val = input.items ∧
    ∀ pay, Pays (messages db.outbox) pay → pay.orderId = ids.order.val →
      ∃ pre a post c e, as = pre ++ a :: post ∧
        ReservedBy (run World.step (World.init now) pre, a) c e ∧ e.orderId = ids.order.val ∧
        c.items.Perm input.items ∧
        pay.amount = priceSum (run World.step (World.init now) pre).products.products input.items ∧
        (Priced db ids.order.val input.items
            (run World.step (World.init now) pre).products.products ↔ Canonical input.items) := by
  intro as db
  have hj : Joint (run World.step (World.init now) as) _ := joint_run now as
  have hstate := tally_run now as
  have hlines : db.linesOf ids.order.val = input.items := lines_created now before later hfresh
  refine ⟨fun g q e s db' hl hok => onStockReserved_pays hj.order.wf hl hok, hlines,
    fun pay hpay hpx => ?_⟩
  obtain ⟨e, he⟩ := hstate.book.pays pay hpay
  rw [hpx] at he
  obtain ⟨r, hr, hre⟩ := he.record
  obtain ⟨p, hp, c, hc, hres⟩ := hstate.reserved r hr e hre
  obtain ⟨pre, a, post, has, hmem⟩ := mem_emits World.step hp
  obtain rfl := List.mem_singleton.mp hmem
  refine ⟨pre, a, post, c, e, has, hres, he.order, hlines ▸ he.ordered hres hj.order hc,
    hlines ▸ he.due hres hj.order hc hpay hpx, fun hpriced => ?_, fun hcan => ?_⟩
  · have hpositive : ∀ y ∈ (run World.step (World.init now) pre).products.products, 0 < y.price := by
      intro y hy
      obtain ⟨b, hb, hprice⟩ := prices_given now pre y hy
      exact hprices b (show b ∈ as from has ▸ List.mem_append_left _ hb) y.price hprice
    have hstored := hpriced.stored
    rw [← hlines] at hstored
    exact hlines ▸ he.canonical hres hstored hpositive
  · have hpriced := he.priced hres hj.order hstate.book hc (hlines.symm ▸ hcan)
    rw [hlines] at hpriced
    exact hpriced

/-- two products in the catalogue -/
def pensAndInk : List Action :=
  [.userRegistered (.sample '6') 10000 "user",
    .createProduct (.sample '7') ⟨"Pen", none, 250, 5⟩,
    .createProduct (.sample '8') ⟨"Ink", none, 400, 3⟩]

/-- pens, ink, and pens once more -/
def threeLines : CreateOrderInput :=
  ⟨"user", "user@shop", "corr",
    [⟨(Uuid.sample '7').val, 2⟩, ⟨(Uuid.sample '8').val, 1⟩, ⟨(Uuid.sample '7').val, 1⟩]⟩

def threeLinesIds : NewIds := ⟨.sample '1', [.sample '2', .sample '9', .sample 'f'], .sample '3'⟩

/-- the order is created, its stock reserved and its payment processed -/
def pensSold : List Action :=
  pensAndInk ++ .order (.create (.sample 'a') threeLinesIds threeLines) ::
    (send .order 0 'a' ++ send .product 0 'b' ++ send .order 1 'c' ++ send .payment 0 'd')

theorem totals_agree_iff_pens : ∃ pre a post c e, pensSold = pre ++ a :: post ∧
    ReservedBy (run World.step (World.init 0) pre, a) c e ∧
    e.orderId = threeLinesIds.order.val ∧ c.items.Perm threeLines.items ∧
    (1150 : Int) = priceSum (run World.step (World.init 0) pre).products.products threeLines.items ∧
    (Priced (run World.step (World.init 0) pensSold).orders.db threeLinesIds.order.val
      threeLines.items (run World.step (World.init 0) pre).products.products ↔
        Canonical threeLines.items) := by
  have hpay : Pays (messages (run World.step (World.init 0) pensSold).orders.db.outbox)
      ⟨payId (Uuid.sample '3').val, threeLinesIds.order.val, "corr", "user", 1150⟩ := by
    unfold Pays
    decide +kernel
  exact (totals_agree_iff 0 pensAndInk _ (.sample 'a') threeLinesIds threeLines
    (by decide +kernel) (by decide +kernel)).2.2 _ hpay rfl

/-- two pens, ordered in capital letters -/
def capitals : CreateOrderInput :=
  ⟨"user", "user@shop", "corr", [⟨"AAAAAAAA-0000-4000-8000-000000000000", 2⟩]⟩

def capitalsIds : NewIds := ⟨.sample '1', [.sample '2'], .sample '3'⟩

/-- a catalogue, before the order -/
def pensOnly : List Action := [.createProduct (.sample 'a') ⟨"Pen", none, 250, 5⟩]

/-- the order is created and its stock reserved -/
def capitalsReserved : List Action :=
  pensOnly ++ .order (.create (.sample 'a') capitalsIds capitals) ::
    (send .order 0 'a' ++ send .product 0 'b')

/-- **A line that is spelled in capital letters keeps neither name nor price.**  Two pens are taken
off the stock and 5.00 are to be paid, and the order that is read costs nothing line by line. -/
theorem totals_disagree : ¬ ∀ (now : Nat) (before later : List Action) (u : Uuid) (ids : NewIds)
    (input : CreateOrderInput),
    ids.fresh (run World.step (World.init now) before).orders.db input = true →
    (∀ a ∈ before ++ .order (.create u ids input) :: later, ∀ price ∈ a.prices, 0 < price) →
    let as := before ++ .order (.create u ids input) :: later
    let db := (run World.step (World.init now) as).orders.db
    ∀ pay, Pays (messages db.outbox) pay → pay.orderId = ids.order.val →
      ∃ pre a post c e, as = pre ++ a :: post ∧
        ReservedBy (run World.step (World.init now) pre, a) c e ∧ e.orderId = ids.order.val ∧
        c.items.Perm input.items ∧
        Priced db ids.order.val input.items
          (run World.step (World.init now) pre).products.products := by
  intro h
  have hpay : Pays (messages (run World.step (World.init 0) capitalsReserved).orders.db.outbox)
      ⟨payId (Uuid.sample '3').val, capitalsIds.order.val, "corr", "user", 500⟩ := by
    unfold Pays
    decide +kernel
  obtain ⟨_, _, _, _, _, _, _, _, _, hpriced⟩ := h 0 pensOnly _ (.sample 'a') capitalsIds capitals
    (by decide +kernel) (by decide +kernel) _ hpay rfl
  have hamount : (500 : Int) = _ := hpriced.paid _ hpay rfl
  have hlines : amountOf ((run World.step (World.init 0) capitalsReserved).orders.db.detailsOf
      capitalsIds.order.val) = 0 := by
    decide +kernel
  exact absurd (hamount.trans hlines) (by decide)

end Shop
