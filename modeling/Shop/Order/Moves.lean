import Shop.Order.Orchestrator

/-!
# What one transaction of order-service can do

* `WF db`        the tables agree: every order has its own saga and, by the step of that saga
                 (`Phase`), its own status; ids are unique; item rows belong to orders;
* `Moved db db' s s' o o' out`   the only change a transaction makes: the saga `s` becomes `s'`,
                 its order row `o` becomes `o'`, and the rows `out` are added to the outbox;
* `Fires g q db ev s s' o o' t p`   the five transitions that a reply can cause;
* `Retries g q db s s' p`           the transitions of the retry job that send a command again.

`handleReply_cases`, `retrySaga_cases`, `createOrder_cases`: each transaction changes nothing,
rolls back with a database error, or makes one of these moves.  No later proof opens a handler.
-/

set_option linter.unusedSectionVars false

namespace Shop
open Lib

/-- the status of a saga and of its order at each step -/
def Phase (s : Saga) (st : OrderStatus) : Prop :=
  match s.currentStep with
  | .reserveStock => s.status = .running ∧ s.nextRetryAt ≠ none ∧ st = .pending
  | .processPayment => s.status = .running ∧ s.nextRetryAt ≠ none ∧ st = .confirmed
  | .releaseStock => s.status = .running ∧ s.nextRetryAt ≠ none ∧ st = .confirmed
  | .completed => s.status = .completed ∧ s.nextRetryAt = none ∧ st = .confirmed
  | .failed => s.status = .failed ∧ s.nextRetryAt = none

structure WF (db : OrderDb) : Prop where
  paired : db.sagas.map Saga.orderId = db.orders.map OrderRow.id
  orderIds : (db.orders.map OrderRow.id).Nodup
  sagaIds : (db.sagas.map Saga.id).Nodup
  uuid : ∀ s ∈ db.sagas, s.id.length = 36
  itemOwner : ∀ i ∈ db.orderItems, i.orderId ∈ db.orders.map OrderRow.id
  itemIds : (db.orderItems.map OrderItemRow.id).Nodup
  phase : ∀ s ∈ db.sagas, ∀ o ∈ db.orders, o.id = s.orderId → Phase s o.status

theorem WF.empty : WF OrderDb.empty where
  paired := rfl
  orderIds := List.nodup_nil
  sagaIds := List.nodup_nil
  uuid := fun _ h => absurd h List.not_mem_nil
  itemOwner := fun _ h => absurd h List.not_mem_nil
  itemIds := List.nodup_nil
  phase := fun _ h => absurd h List.not_mem_nil

section
variable {db : OrderDb} (h : WF db)
include h

theorem WF.sagaOrderIds : (db.sagas.map Saga.orderId).Nodup := by
  rw [h.paired]
  exact h.orderIds

theorem WF.order_of {s : Saga} (hs : s ∈ db.sagas) : ∃ o ∈ db.orders, o.id = s.orderId := by
  have hm : s.orderId ∈ db.orders.map OrderRow.id := by
    rw [← h.paired]
    exact List.mem_map_of_mem hs
  obtain ⟨o, ho, he⟩ := List.mem_map.mp hm
  exact ⟨o, ho, he⟩

theorem WF.saga_of {o : OrderRow} (ho : o ∈ db.orders) : ∃ s ∈ db.sagas, s.orderId = o.id := by
  have hm : o.id ∈ db.sagas.map Saga.orderId := by
    rw [h.paired]
    exact List.mem_map_of_mem ho
  obtain ⟨s, hs, he⟩ := List.mem_map.mp hm
  exact ⟨s, hs, he⟩

theorem WF.saga_inj {s s' : Saga} (hs : s ∈ db.sagas) (hs' : s' ∈ db.sagas)
    (he : s.orderId = s'.orderId) : s = s' := key_inj h.sagaOrderIds hs hs' he

theorem WF.saga_id_inj {s s' : Saga} (hs : s ∈ db.sagas) (hs' : s' ∈ db.sagas)
    (he : s.id = s'.id) : s = s' := key_inj h.sagaIds hs hs' he

theorem WF.order_inj {o o' : OrderRow} (ho : o ∈ db.orders) (ho' : o' ∈ db.orders)
    (he : o.id = o'.id) : o = o' := key_inj h.orderIds ho ho' he

theorem WF.getOrder (q : RowOrder OrderItemRow) {o : OrderRow} (ho : o ∈ db.orders) :
    db.getOrder q o.id = .ok (db.toDomain q o) := by
  unfold OrderDb.getOrder OrderDb.findOrder
  rw [selectBy_mem h.orderIds ho]
  rfl

end

theorem loadSagaForStep_some {db : OrderDb} {orderId : String} {step : SagaStep} {s : Saga}
    (h : db.loadSagaForStep orderId step = some s) :
    s ∈ db.sagas ∧ s.orderId = orderId ∧ s.status = .running ∧ s.currentStep = step := by
  unfold OrderDb.loadSagaForStep at h
  split at h
  · rename_i saga hf
    split at h
    · rename_i hc
      cases h
      obtain ⟨hm, ho⟩ := selectBy_some hf
      exact ⟨hm, ho, Saga.canHandle_iff.mp hc⟩
    · cases h
  · cases h

/-! ## moves -/

/-- the saga `s` becomes `s'`, its order `o` becomes `o'`, `out` is added to the outbox -/
structure Moved (db db' : OrderDb) (s s' : Saga) (o o' : OrderRow) (out : List OutboxRow) : Prop where
  saga_mem : s ∈ db.sagas
  order_mem : o ∈ db.orders
  order_id : o.id = s.orderId
  saga_keep : s'.id = s.id ∧ s'.orderId = s.orderId ∧ s'.correlationId = s.correlationId
  order_keep : o' = { o with status := o'.status, total := o'.total }
  sagas : db'.sagas = updateBy Saga.id s.id (fun _ => s') db.sagas
  orders : db'.orders = updateBy OrderRow.id o.id (fun _ => o') db.orders
  core : db'.orderItems.map OrderDb.core = db.orderItems.map OrderDb.core
  frame : ∀ x, x ≠ s.orderId → (db'.orderItems.filter fun i => decide (i.orderId = x))
    = db.orderItems.filter fun i => decide (i.orderId = x)
  outbox : db'.outbox = db.outbox ++ out

theorem updateItem_error {rows : List OrderItemRow} {item : OrderItem} {e : OrdersError}
    (h : OrderDb.updateItem rows item = .error e) : e = .queryFailed := by
  unfold OrderDb.updateItem at h
  split at h
  · cases h
  · split at h
    · cases h
    · cases h; rfl

theorem updateItems_error {items : List OrderItem} {rows : List OrderItemRow} {e : OrdersError}
    (h : OrderDb.updateItems rows items = .error e) : e = .queryFailed := by
  induction items generalizing rows with
  | nil => cases h
  | cons item items ih =>
    unfold OrderDb.updateItems at h
    cases h1 : OrderDb.updateItem rows item with
    | error e' =>
      rw [h1] at h
      cases h
      exact updateItem_error h1
    | ok r =>
      rw [h1] at h
      exact ih h

/-- the update of an order writes its row, leaves the lines of every order and the item rows of the
others, or fails on a column's range -/
theorem updateOrder_cases {db : OrderDb} (hids : (db.orderItems.map OrderItemRow.id).Nodup)
    (order : Order)
    (hitems : ∀ i ∈ order.items, ∃ r ∈ db.orderItems, r.id = i.id ∧ r.orderId = order.id) :
    db.updateOrder order = .error .queryFailed ∨
    ∃ rows, db.updateOrder order = .ok { db with
        orders := updateBy OrderRow.id order.id
          (fun r => { r with status := order.status, total := order.total }) db.orders
        orderItems := rows } ∧
      rows.map OrderDb.core = db.orderItems.map OrderDb.core ∧
      ∀ x, x ≠ order.id → (rows.filter fun i => decide (i.orderId = x))
        = db.orderItems.filter fun i => decide (i.orderId = x) := by
  unfold OrderDb.updateOrder
  split
  · cases hu : OrderDb.updateItems db.orderItems order.items with
    | error e =>
      rw [updateItems_error hu]
      exact Or.inl rfl
    | ok rows =>
      refine Or.inr ⟨rows, rfl, OrderDb.updateItems_core hu, fun x hx => ?_⟩
      apply OrderDb.updateItems_frame hu
      · intro r r' hc
        have ho : r.orderId = r'.orderId := congrArg (fun c => c.2.1) hc
        show decide (r.orderId = x) = decide (r'.orderId = x)
        rw [ho]
      · intro r hr hP i hi he
        obtain ⟨r', hr', hid, hown⟩ := hitems i hi
        have hrr : r' = r := key_inj hids hr' hr (hid.trans he)
        rw [hrr] at hown
        exact hx ((of_decide_eq_true hP).symm.trans hown)
  · exact Or.inl rfl

/-- the items of an order read from the tables are rows of it -/
theorem toDomain_items (q : RowOrder OrderItemRow) (db : OrderDb) (o : OrderRow) :
    ∀ i ∈ (db.toDomain q o).items, ∃ r ∈ db.orderItems, r.id = i.id ∧ r.orderId = o.id := by
  intro i hi
  obtain ⟨r, hr, rfl⟩ := List.mem_map.mp hi
  have hm := q.mem_apply.mp hr
  obtain ⟨h1, h2⟩ := List.mem_filter.mp hm
  exact ⟨r, h1, rfl, of_decide_eq_true h2⟩

/-- the lines of an order read from the tables -/
theorem itemsOf_lines (q : RowOrder OrderItemRow) (db : OrderDb) (o : OrderRow) :
    (OrderDb.itemsOf (db.toDomain q o)).Perm (db.linesOf o.id) := by
  show ((List.map OrderDb.toItem _).map _).Perm _
  rw [List.map_map]
  exact (q.perm _).map _

/-- a saga update, on unique saga ids, puts the new value in the old one's place -/
theorem updateSaga_eq {db : OrderDb} (hids : (db.sagas.map Saga.id).Nodup) {s s' : Saga}
    (hs : s ∈ db.sagas)
    (hk : s'.id = s.id ∧ s'.orderId = s.orderId ∧ s'.correlationId = s.correlationId) :
    db.updateSaga s' = { db with sagas := updateBy Saga.id s.id (fun _ => s') db.sagas } := by
  unfold OrderDb.updateSaga
  rw [hk.1]
  congr 1
  apply updateBy_congr
  intro r hr hrk
  rw [key_inj hids hr hs hrk]
  obtain ⟨h1, h2, h3⟩ := hk
  unfold OrderDb.setSaga
  rw [← h1, ← h2, ← h3]

/-! ## the transitions of the reply handlers -/

inductive Fires (g : RowDefaults) (q : RowOrder OrderItemRow) (db : OrderDb) :
    ReplyEvent → Saga → Saga → OrderRow → OrderRow → Topic → Payload → Prop where
  | stockReserved (e : StockReservedEvent) (s : Saga) (o : OrderRow) :
      s.currentStep = .reserveStock →
      Fires g q db (.stockReserved e) s
        { s with
          currentStep := .processPayment
          status := .running
          nextRetryAt := some (g.now + Saga.RETRY_TIMEOUT_MS) }
        o { o with status := .confirmed, total := e.total }
        .processPayment
        (.processPayment ⟨payId s.id, e.orderId, s.correlationId, o.userId, e.total⟩)
  | stockReservationFailed (e : StockReservationFailedEvent) (s : Saga) (o : OrderRow) :
      s.currentStep = .reserveStock →
      Fires g q db (.stockReservationFailed e) s (s.fail e.reason) o { o with status := .cancelled }
        .orderCancelled
        (.orderCancelled ⟨o.id, o.userId, o.userEmail, s.correlationId, e.reason, g.now⟩)
  | paymentProcessed (e : PaymentProcessedEvent) (s : Saga) (o : OrderRow) :
      s.currentStep = .processPayment →
      Fires g q db (.paymentProcessed e) s
        { s with currentStep := .completed, status := .completed, nextRetryAt := none } o o
        .orderConfirmed
        (.orderConfirmed ⟨o.id, o.userId, o.userEmail, s.correlationId,
          (db.toDomain q o).items.map fun i => ⟨i.productId, i.productName, i.quantity, i.unitPrice⟩,
          o.total, g.now⟩)
  | paymentFailed (e : PaymentFailedEvent) (s : Saga) (o : OrderRow) :
      s.currentStep = .processPayment →
      Fires g q db (.paymentFailed e) s (s.startCompensation g.now e.reason) o o
        .releaseStock
        (.releaseStock ⟨releaseId s.id, e.orderId, s.correlationId,
          OrderDb.itemsOf (db.toDomain q o)⟩)
  | stockReleased (e : StockReleasedEvent) (s : Saga) (o : OrderRow) :
      s.currentStep = .releaseStock →
      Fires g q db (.stockReleased e) s (s.fail (s.lastError.getD "Payment failed")) o
        { o with status := .cancelled }
        .orderCancelled
        (.orderCancelled ⟨o.id, o.userId, o.userEmail, s.correlationId,
          s.lastError.getD "Payment failed", g.now⟩)

/-- a saga update, an order that is written back as it was, and one outbox row -/
theorem moved_saga {db : OrderDb} (h : WF db) {s : Saga} {o : OrderRow} (hs : s ∈ db.sagas)
    (ho : o ∈ db.orders) (hos : o.id = s.orderId) (s' : Saga)
    (hk : s'.id = s.id ∧ s'.orderId = s.orderId ∧ s'.correlationId = s.correlationId)
    (out : List OutboxRow) :
    Moved db { db.updateSaga s' with outbox := db.outbox ++ out } s s' o o out where
  saga_mem := hs
  order_mem := ho
  order_id := hos
  saga_keep := hk
  order_keep := rfl
  sagas := by rw [updateSaga_eq h.sagaIds hs hk]
  orders := (updateBy_self h.orderIds ho).symm
  core := rfl
  frame := fun _ _ => rfl
  outbox := rfl

/-- an order update, a saga update and one outbox row -/
theorem moved_order {db : OrderDb} (h : WF db) {s : Saga} {o : OrderRow} (hs : s ∈ db.sagas)
    (ho : o ∈ db.orders) (hos : o.id = s.orderId) (s' : Saga)
    (hk : s'.id = s.id ∧ s'.orderId = s.orderId ∧ s'.correlationId = s.correlationId)
    (st : OrderStatus) (total : Int) (rows : List OrderItemRow)
    (hcore : rows.map OrderDb.core = db.orderItems.map OrderDb.core)
    (hframe : ∀ x, x ≠ o.id → (rows.filter fun i => decide (i.orderId = x))
      = db.orderItems.filter fun i => decide (i.orderId = x))
    (out : List OutboxRow) :
    Moved db
      { orders := updateBy OrderRow.id o.id (fun r => { r with status := st, total := total }) db.orders
        orderItems := rows
        sagas := (db.updateSaga s').sagas
        outbox := db.outbox ++ out }
      s s' o { o with status := st, total := total } out where
  saga_mem := hs
  order_mem := ho
  order_id := hos
  saga_keep := hk
  order_keep := rfl
  sagas := by rw [updateSaga_eq h.sagaIds hs hk]
  orders := by
    apply updateBy_congr
    intro r hr hrk
    rw [h.order_inj hr ho hrk]
  core := hcore
  frame := fun x hx => hframe x (fun e => hx (e.trans hos))
  outbox := rfl

/-- what a transaction leaves behind: nothing, a rollback, or a move -/
inductive Outcome (db : OrderDb) (T : Saga → Saga → OrderRow → OrderRow → List OutboxRow → Prop) :
    Except OrdersError OrderDb → Prop where
  | unchanged : Outcome db T (.ok db)
  | rollback : Outcome db T (.error .queryFailed)
  | moved {db' : OrderDb} {s s' : Saga} {o o' : OrderRow} {out : List OutboxRow} :
      Moved db db' s s' o o' out → T s s' o o' out → Outcome db T (.ok db')

theorem Outcome.mono {db : OrderDb} {r : Except OrdersError OrderDb}
    {T T' : Saga → Saga → OrderRow → OrderRow → List OutboxRow → Prop}
    (hT : ∀ s s' o o' out, T s s' o o' out → T' s s' o o' out) (h : Outcome db T r) :
    Outcome db T' r := by
  cases h with
  | unchanged => exact .unchanged
  | rollback => exact .rollback
  | moved hm ht => exact .moved hm (hT _ _ _ _ _ ht)

/-- a cancellation from a step whose order is still open -/
theorem performCancellation_cases {db : OrderDb} (h : WF db) (g : RowDefaults)
    (q : RowOrder OrderItemRow) {s : Saga} (hs : s ∈ db.sagas) {o : OrderRow} (ho : o ∈ db.orders)
    (hos : o.id = s.orderId) (hopen : o.status = .pending ∨ o.status = .confirmed)
    (reason : String) :
    Outcome db (fun s₁ s' o₁ o' out => s₁ = s ∧ o₁ = o ∧ s' = s.fail reason ∧
        o' = { o with status := .cancelled } ∧
        out = [OutboxRow.write g s.orderId .orderCancelled s.orderId (.orderCancelled
          ⟨o.id, o.userId, o.userEmail, s.correlationId, reason, g.now⟩)])
      (db.performCancellation g q s s.orderId reason) := by
  unfold OrderDb.performCancellation
  rw [← hos, h.getOrder q ho, bind_ok, Order.compensate_open hopen, bind_ok]
  rcases updateOrder_cases h.itemIds { db.toDomain q o with status := .cancelled }
    (toDomain_items q db o) with hu | ⟨rows, hu, hcore, hframe⟩
  · rw [hu, bind_error]
    exact .rollback
  · rw [hu, bind_ok]
    exact .moved (moved_order h hs ho hos (s.fail reason) ⟨rfl, rfl, rfl⟩ .cancelled o.total rows
      hcore hframe
      [OutboxRow.write g o.id .orderCancelled o.id (.orderCancelled
        ⟨o.id, o.userId, o.userEmail, s.correlationId, reason, g.now⟩)]) ⟨rfl, rfl, rfl, rfl, rfl⟩

/-- a transition that a reply fires, of the saga of its order, and its message -/
def Answers (g : RowDefaults) (q : RowOrder OrderItemRow) (db : OrderDb) (ev : ReplyEvent)
    (s s' : Saga) (o o' : OrderRow) (out : List OutboxRow) : Prop :=
  s.orderId = ev.orderId ∧ ∃ t p, Fires g q db ev s s' o o' t p ∧
    out = [OutboxRow.write g ev.orderId t ev.orderId p]

section
variable {db : OrderDb} (h : WF db)
include h

/-- the saga that a reply loads, with its order -/
theorem WF.loaded {orderId : String} {step : SagaStep} {s : Saga}
    (hl : db.loadSagaForStep orderId step = some s) :
    s ∈ db.sagas ∧ s.orderId = orderId ∧ s.currentStep = step ∧
      ∃ o ∈ db.orders, o.id = s.orderId ∧ Phase s o.status := by
  obtain ⟨hs, hso, _, hstep⟩ := loadSagaForStep_some hl
  obtain ⟨o, ho, hos⟩ := h.order_of hs
  exact ⟨hs, hso, hstep, o, ho, hos, h.phase s hs o ho hos⟩

/-- an update of a saga leaves the orders alone -/
theorem WF.getOrder_updateSaga (q : RowOrder OrderItemRow) {o : OrderRow} (ho : o ∈ db.orders)
    {orderId : String} (hid : o.id = orderId) (s : Saga) :
    (db.updateSaga s).getOrder q orderId = .ok (db.toDomain q o) := hid ▸ h.getOrder q ho

variable (g : RowDefaults) (q : RowOrder OrderItemRow)

theorem onStockReserved_cases (e : StockReservedEvent) :
    Outcome db (Answers g q db (.stockReserved e)) (db.onStockReserved g q e) := by
  unfold OrderDb.onStockReserved
  cases hl : db.loadSagaForStep e.orderId .reserveStock with
  | none => exact .unchanged
  | some s =>
    obtain ⟨hs, hso, hstep, o, ho, hos, hp⟩ := h.loaded hl
    rw [Phase, hstep] at hp
    have hdetail : ∀ i ∈ (db.toDomain q o).items.map (Order.withDetail e.items),
        ∃ r ∈ db.orderItems, r.id = i.id ∧ r.orderId = o.id := by
      intro i hi
      obtain ⟨i₀, hi₀, rfl⟩ := List.mem_map.mp hi
      rw [Order.withDetail_id]
      exact toDomain_items q db o i₀ hi₀
    show Outcome db _ (db.getOrder q e.orderId >>= _)
    rw [← hso, ← hos, h.getOrder q ho, bind_ok,
      Order.confirm_pending (o := db.toDomain q o) hp.2.2, bind_ok]
    rcases updateOrder_cases h.itemIds
        { db.toDomain q o with
          status := .confirmed
          total := e.total
          items := (db.toDomain q o).items.map (Order.withDetail e.items) }
        hdetail with hu | ⟨rows, hu, hcore, hframe⟩
    · rw [hu, bind_error]
      exact .rollback
    · rw [hu, bind_ok, Saga.advance_reserveStock g.now hstep, bind_ok]
      have hmoved := moved_order h hs ho hos
        { s with
          currentStep := .processPayment
          status := .running
          nextRetryAt := some (g.now + Saga.RETRY_TIMEOUT_MS) }
        ⟨rfl, rfl, rfl⟩ .confirmed e.total rows hcore hframe
      refine .moved (hmoved _) ⟨hso, _, _, Fires.stockReserved e s o hstep, ?_⟩
      show [OutboxRow.write g o.id .processPayment o.id (.processPayment
        ⟨payId s.id, o.id, s.correlationId, o.userId, e.total⟩)] = _
      rw [hos, hso]
      rfl

theorem onStockReservationFailed_cases (e : StockReservationFailedEvent) :
    Outcome db (Answers g q db (.stockReservationFailed e))
      (db.onStockReservationFailed g q e) := by
  unfold OrderDb.onStockReservationFailed
  cases hl : db.loadSagaForStep e.orderId .reserveStock with
  | none => exact .unchanged
  | some s =>
    obtain ⟨hs, hso, hstep, o, ho, hos, hp⟩ := h.loaded hl
    rw [Phase, hstep] at hp
    show Outcome db _ (db.performCancellation g q s e.orderId e.reason)
    rw [← hso]
    refine (performCancellation_cases h g q hs ho hos (Or.inl hp.2.2) e.reason).mono ?_
    rintro s₁ s' o₁ o' out ⟨rfl, rfl, rfl, rfl, rfl⟩
    refine ⟨hso, _, _, Fires.stockReservationFailed e s₁ o₁ hstep, ?_⟩
    rw [hso]
    rfl

theorem onPaymentProcessed_cases (e : PaymentProcessedEvent) :
    Outcome db (Answers g q db (.paymentProcessed e)) (db.onPaymentProcessed g q e) := by
  unfold OrderDb.onPaymentProcessed
  cases hl : db.loadSagaForStep e.orderId .processPayment with
  | none => exact .unchanged
  | some s =>
    obtain ⟨hs, hso, hstep, o, ho, hos, _⟩ := h.loaded hl
    show Outcome db _ (s.advance g.now >>= _)
    rw [Saga.advance_processPayment g.now hstep, bind_ok]
    show Outcome db _ ((OrderDb.updateSaga db _).getOrder q e.orderId >>= _)
    rw [h.getOrder_updateSaga q ho (hos.trans hso), bind_ok]
    have hmoved := moved_saga h hs ho hos
      { s with currentStep := .completed, status := .completed, nextRetryAt := none }
      ⟨rfl, rfl, rfl⟩
    exact .moved (hmoved _) ⟨hso, _, _, Fires.paymentProcessed e s o hstep, rfl⟩

theorem onPaymentFailed_cases (e : PaymentFailedEvent) :
    Outcome db (Answers g q db (.paymentFailed e)) (db.onPaymentFailed g q e) := by
  unfold OrderDb.onPaymentFailed
  cases hl : db.loadSagaForStep e.orderId .processPayment with
  | none => exact .unchanged
  | some s =>
    obtain ⟨hs, hso, hstep, o, ho, hos, _⟩ := h.loaded hl
    show Outcome db _ ((OrderDb.updateSaga db _).getOrder q e.orderId >>= _)
    rw [h.getOrder_updateSaga q ho (hos.trans hso), bind_ok]
    have hmoved := moved_saga h hs ho hos (s.startCompensation g.now e.reason) ⟨rfl, rfl, rfl⟩
    exact .moved (hmoved _) ⟨hso, _, _, Fires.paymentFailed e s o hstep, rfl⟩

theorem onStockReleased_cases (e : StockReleasedEvent) :
    Outcome db (Answers g q db (.stockReleased e)) (db.onStockReleased g q e) := by
  unfold OrderDb.onStockReleased
  cases hl : db.loadSagaForStep e.orderId .releaseStock with
  | none => exact .unchanged
  | some s =>
    obtain ⟨hs, hso, hstep, o, ho, hos, hp⟩ := h.loaded hl
    rw [Phase, hstep] at hp
    show Outcome db _ (db.performCancellation g q s e.orderId (s.lastError.getD "Payment failed"))
    rw [← hso]
    refine (performCancellation_cases h g q hs ho hos (Or.inr hp.2.2) _).mono ?_
    rintro s₁ s' o₁ o' out ⟨rfl, rfl, rfl, rfl, rfl⟩
    refine ⟨hso, _, _, Fires.stockReleased e s₁ o₁ hstep, ?_⟩
    rw [hso]
    rfl

/-- **A reply does nothing, rolls back, or fires one transition of its order's saga.** -/
theorem handleReply_cases (ev : ReplyEvent) :
    Outcome db (Answers g q db ev) (db.handleReply g q ev) := by
  cases ev with
  | stockReserved e => exact onStockReserved_cases h g q e
  | stockReservationFailed e => exact onStockReservationFailed_cases h g q e
  | paymentProcessed e => exact onPaymentProcessed_cases h g q e
  | paymentFailed e => exact onPaymentFailed_cases h g q e
  | stockReleased e => exact onStockReleased_cases h g q e

end

/-! ## the transitions of the retry job -/

/-- the command that is sent again at each step of a running saga -/
inductive Resends (q : RowOrder OrderItemRow) (db : OrderDb) (s : Saga) (o : OrderRow) :
    Topic → Payload → Prop where
  | reserveStock : s.currentStep = .reserveStock →
      Resends q db s o .reserveStock (.reserveStock
        ⟨s.id, s.orderId, s.correlationId, OrderDb.itemsOf (db.toDomain q o)⟩)
  | processPayment : s.currentStep = .processPayment →
      Resends q db s o .processPayment (.processPayment
        ⟨payId s.id, s.orderId, s.correlationId, o.userId, o.total⟩)
  | releaseStock : s.currentStep = .releaseStock →
      Resends q db s o .releaseStock (.releaseStock
        ⟨releaseId s.id, s.orderId, s.correlationId, OrderDb.itemsOf (db.toDomain q o)⟩)

/-- a retry either gives a saga up or sends its command again -/
inductive Retries (g : RowDefaults) (q : RowOrder OrderItemRow) (db : OrderDb) (s : Saga)
    (o : OrderRow) : Saga → List OutboxRow → Prop where
  | exhausted : Saga.MAX_RETRIES ≤ s.retryCount →
      Retries g q db s o (s.fail "Max retries exceeded") []
  | resent {t : Topic} {p : Payload} : s.retryCount < Saga.MAX_RETRIES → Resends q db s o t p →
      Retries g q db s o (s.scheduleRetry g.now) [OutboxRow.write g s.orderId t s.orderId p]

/-- `resendCommand` writes the command of the saga's step -/
theorem Resends.send {q : RowOrder OrderItemRow} {db : OrderDb} {s : Saga} {o : OrderRow}
    {t : Topic} {p : Payload} (h : Resends q db s o t p) (g : RowDefaults) (db' : OrderDb) :
    db'.resendCommand g s (db.toDomain q o) =
      { db' with outbox := db'.outbox ++ [OutboxRow.write g s.orderId t s.orderId p] } := by
  cases h with
  | reserveStock e => unfold OrderDb.resendCommand; rw [e]; rfl
  | processPayment e => unfold OrderDb.resendCommand; rw [e]; rfl
  | releaseStock e => unfold OrderDb.resendCommand; rw [e]; rfl

/-- a running saga has a command to send again -/
theorem resends_of_running {s : Saga} {st : OrderStatus} (hp : Phase s st)
    (hrun : s.status = .running) (q : RowOrder OrderItemRow) (db : OrderDb) (o : OrderRow) :
    ∃ t p, Resends q db s o t p := by
  cases hstep : s.currentStep with
  | reserveStock => exact ⟨_, _, .reserveStock hstep⟩
  | processPayment => exact ⟨_, _, .processPayment hstep⟩
  | releaseStock => exact ⟨_, _, .releaseStock hstep⟩
  | completed =>
    rw [Phase, hstep] at hp
    exact absurd (hrun.symm.trans hp.1) (by decide)
  | failed =>
    rw [Phase, hstep] at hp
    exact absurd (hrun.symm.trans hp.1) (by decide)

/-- **A retry transaction retries the saga if it finds it running, and never rolls back.** -/
theorem retrySaga_cases {db : OrderDb} (h : WF db) (g : RowDefaults) (q : RowOrder OrderItemRow)
    (id : String) :
    (db.findSagaRunning id = none ∧ db.retrySaga g q id = .ok db) ∨
    ∃ db' s s' o out, db.findSagaRunning id = some s ∧ db.retrySaga g q id = .ok db' ∧
      Moved db db' s s' o o out ∧ Retries g q db s o s' out := by
  unfold OrderDb.retrySaga
  cases hf : db.findSagaRunning id with
  | none => exact Or.inl ⟨rfl, rfl⟩
  | some s =>
    right
    obtain ⟨hs, hid, hrun⟩ := OrderDb.findSagaRunning_some hf
    obtain ⟨o, ho, hos⟩ := h.order_of hs
    by_cases hmax : s.hasExceededMaxRetries = true
    · have hm := moved_saga h hs ho hos (s.fail "Max retries exceeded") ⟨rfl, rfl, rfl⟩ []
      rw [List.append_nil] at hm
      refine ⟨_, s, _, o, _, rfl, ?_, hm, .exhausted (Saga.hasExceededMaxRetries_iff.mp hmax)⟩
      show (if s.hasExceededMaxRetries = true then _ else _) = _
      rw [if_pos hmax]
      rfl
    · have hlt : s.retryCount < Saga.MAX_RETRIES := by
        rw [Saga.hasExceededMaxRetries_iff] at hmax
        omega
      have hget : (db.updateSaga (s.scheduleRetry g.now)).getOrder q s.orderId
          = .ok (db.toDomain q o) := by
        rw [← hos]
        exact h.getOrder q ho
      obtain ⟨t, p, hr⟩ := resends_of_running (h.phase s hs o ho hos) hrun q db o
      refine ⟨_, s, _, o, _, rfl, ?_,
        moved_saga h hs ho hos (s.scheduleRetry g.now) ⟨rfl, rfl, rfl⟩ _, .resent hlt hr⟩
      show (if s.hasExceededMaxRetries = true then _ else _) = _
      rw [if_neg hmax]
      show ((db.updateSaga (s.scheduleRetry g.now)).getOrder q s.orderId >>= _) = _
      rw [hget, bind_ok, hr.send g]
      rfl

/-! ## the agreement of the tables is kept -/

theorem Fires.phase {g : RowDefaults} {q : RowOrder OrderItemRow} {db : OrderDb} {ev : ReplyEvent}
    {s s' : Saga} {o o' : OrderRow} {t : Topic} {p : Payload} (hf : Fires g q db ev s s' o o' t p)
    (h : Phase s o.status) : Phase s' o'.status := by
  cases hf with
  | stockReserved => exact ⟨rfl, Option.some_ne_none _, rfl⟩
  | stockReservationFailed => exact ⟨rfl, rfl⟩
  | paymentProcessed _ _ _ hs =>
    rw [Phase, hs] at h
    exact ⟨rfl, rfl, h.2.2⟩
  | paymentFailed _ _ _ hs =>
    rw [Phase, hs] at h
    exact ⟨rfl, Option.some_ne_none _, h.2.2⟩
  | stockReleased => exact ⟨rfl, rfl⟩

theorem phase_scheduleRetry {s : Saga} {st : OrderStatus} (now : Nat) (hr : s.status = .running)
    (h : Phase s st) : Phase (s.scheduleRetry now) st := by
  unfold Phase at h ⊢
  show match s.currentStep with
    | .reserveStock => s.status = .running ∧ some _ ≠ none ∧ st = .pending
    | .processPayment => s.status = .running ∧ some _ ≠ none ∧ st = .confirmed
    | .releaseStock => s.status = .running ∧ some _ ≠ none ∧ st = .confirmed
    | .completed => s.status = .completed ∧ some _ = none ∧ st = .confirmed
    | .failed => s.status = .failed ∧ some _ = none
  cases hstep : s.currentStep <;> rw [hstep] at h
  · exact ⟨h.1, Option.some_ne_none _, h.2.2⟩
  · exact ⟨h.1, Option.some_ne_none _, h.2.2⟩
  · exact ⟨h.1, Option.some_ne_none _, h.2.2⟩
  · exact absurd (hr.symm.trans h.1) (by decide)
  · exact absurd (hr.symm.trans h.1) (by decide)

theorem Retries.phase {g : RowDefaults} {q : RowOrder OrderItemRow} {db : OrderDb} {s s' : Saga}
    {o : OrderRow} {out : List OutboxRow} (hr : Retries g q db s o s' out)
    (hrun : s.status = .running) (h : Phase s o.status) : Phase s' o.status := by
  cases hr with
  | exhausted _ => exact ⟨rfl, rfl⟩
  | resent _ _ => exact phase_scheduleRetry g.now hrun h

section
variable {db db' : OrderDb} {s s' : Saga} {o o' : OrderRow} {out : List OutboxRow}
  (m : Moved db db' s s' o o' out)
include m

theorem Moved.order_same : o'.id = o.id ∧ o'.userId = o.userId ∧ o'.userEmail = o.userEmail := by
  have h := m.order_keep
  rw [h]
  exact ⟨rfl, rfl, rfl⟩

theorem Moved.mem_sagas {x : Saga} : x ∈ db'.sagas ↔ x = s' ∨ (x ∈ db.sagas ∧ x.id ≠ s.id) := by
  rw [m.sagas]
  exact mem_updateBy_const m.saga_mem

theorem Moved.mem_orders {x : OrderRow} :
    x ∈ db'.orders ↔ x = o' ∨ (x ∈ db.orders ∧ x.id ≠ o.id) := by
  rw [m.orders]
  exact mem_updateBy_const m.order_mem

theorem Moved.sagaIds_eq : db'.sagas.map Saga.id = db.sagas.map Saga.id := by
  rw [m.sagas]
  apply map_updateBy_of
  intro r _ hr
  rw [m.saga_keep.1, hr]

theorem Moved.orderIds_eq : db'.orders.map OrderRow.id = db.orders.map OrderRow.id := by
  rw [m.orders]
  apply map_updateBy_of
  intro r _ hr
  rw [m.order_same.1, hr]

/-- what is about known orders, and what a move adds about its own, is about known orders -/
theorem Moved.about {α : Type} (f : α → String) {xs ys : List α}
    (h : ∀ x ∈ xs, f x ∈ db.orders.map OrderRow.id) (hys : ∀ y ∈ ys, f y = o.id) :
    ∀ x ∈ xs ++ ys, f x ∈ db'.orders.map OrderRow.id := by
  intro x hx
  rw [m.orderIds_eq]
  rcases List.mem_append.mp hx with hx | hx
  · exact h x hx
  · rw [hys x hx]
    exact List.mem_map_of_mem m.order_mem

theorem Moved.sagaOrderIds_eq (h : WF db) :
    db'.sagas.map Saga.orderId = db.sagas.map Saga.orderId := by
  rw [m.sagas]
  apply map_updateBy_of
  intro r hr hk
  rw [m.saga_keep.2.1, h.saga_id_inj hr m.saga_mem hk]

/-- a saga and its order after the move: the two that it writes, or two that it leaves alone -/
theorem Moved.mem_pair (h : WF db) {x : Saga} {y : OrderRow} (hx : x ∈ db'.sagas)
    (hy : y ∈ db'.orders) (hxy : y.id = x.orderId) :
    (x = s' ∧ y = o') ∨ (x ∈ db.sagas ∧ y ∈ db.orders ∧ y.id ≠ o.id) := by
  rcases m.mem_sagas.mp hx with rfl | ⟨hx, hxs⟩
  · rcases m.mem_orders.mp hy with rfl | ⟨hy, hyo⟩
    · exact Or.inl ⟨rfl, rfl⟩
    · exact absurd (hxy.trans (m.saga_keep.2.1.trans m.order_id.symm)) hyo
  · rcases m.mem_orders.mp hy with rfl | ⟨hy, hyo⟩
    · have he : x.orderId = s.orderId := by
        rw [← hxy, m.order_same.1, m.order_id]
      exact absurd (congrArg Saga.id (h.saga_inj hx m.saga_mem he)) hxs
    · exact Or.inr ⟨hx, hy, hyo⟩

/-- the lines of every order survive every move -/
theorem Moved.linesOf (x : String) : db'.linesOf x = db.linesOf x := OrderDb.linesOf_core m.core x

/-- **A move keeps the tables in agreement** when it leaves its own saga and order in a phase. -/
theorem Moved.wf (h : WF db) (hp : Phase s' o'.status) : WF db' where
  paired := by rw [m.sagaOrderIds_eq h, m.orderIds_eq, h.paired]
  orderIds := by rw [m.orderIds_eq]; exact h.orderIds
  sagaIds := by rw [m.sagaIds_eq]; exact h.sagaIds
  uuid := by
    intro x hx
    rcases m.mem_sagas.mp hx with rfl | ⟨hx, _⟩
    · rw [m.saga_keep.1]
      exact h.uuid s m.saga_mem
    · exact h.uuid x hx
  itemOwner := by
    intro i hi
    have hc : OrderDb.core i ∈ db.orderItems.map OrderDb.core := by
      rw [← m.core]
      exact List.mem_map_of_mem hi
    obtain ⟨j, hj, hji⟩ := List.mem_map.mp hc
    have he : j.orderId = i.orderId := congrArg (fun c => c.2.1) hji
    rw [m.orderIds_eq, ← he]
    exact h.itemOwner j hj
  itemIds := by
    have key : ∀ l : List OrderItemRow, l.map OrderItemRow.id = (l.map OrderDb.core).map Prod.fst := by
      intro l
      rw [List.map_map]
      rfl
    rw [key, m.core, ← key]
    exact h.itemIds
  phase := by
    intro x hx y hy hxy
    rcases m.mem_pair h hx hy hxy with ⟨rfl, rfl⟩ | ⟨hx, hy, _⟩
    · exact hp
    · exact h.phase x hx y hy hxy

end

/-! ## a new order -/

/-- the tables after a new order -/
def created (g : RowDefaults) (ids : NewIds) (db : OrderDb) (input : CreateOrderInput) : OrderDb where
  orders := db.orders ++ [⟨ids.order.val, input.userId, input.userEmail, .pending, 0, g.now⟩]
  orderItems := db.orderItems ++ OrderDb.newItemRows ids.order.val ids.items
    (Order.create g.now input.userId input.userEmail input.items).items
  sagas := db.sagas ++
    [{ Saga.create g.now ids.order.val input.correlationId with id := ids.saga.val }]
  outbox := db.outbox ++ [OutboxRow.write g ids.order.val .reserveStock ids.order.val
    (.reserveStock ⟨ids.saga.val, ids.order.val, input.correlationId, input.items⟩)]

theorem createOrder_cases (g : RowDefaults) (ids : NewIds) (db : OrderDb)
    (input : CreateOrderInput) :
    db.createOrder g ids input = .error .queryFailed ∨
      (ids.fresh db input = true ∧ db.createOrder g ids input = .ok (created g ids db input)) := by
  unfold OrderDb.createOrder
  by_cases hf : ids.fresh db input = true
  · rw [if_pos hf]
    exact Or.inr ⟨hf, rfl⟩
  · rw [if_neg hf]
    exact Or.inl rfl

end Shop
