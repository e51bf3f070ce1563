import Shop.Order.Moves
import Shop.Lib.Run

/-!
# Runs of order-service

`OrderSystem` is the database, the clock, and the batches of the `retryStuckSagas` calls that are
under way (of any number of instances).  An `OrderAction` is one transaction or one query; a reply
may come at any time, in any order and any number of times.

* `OrderSystem.step`, `OrderSystem.init`;
* `DbStep`                one committed transaction: nothing, a new order, a reply, a retry;
* `wf_run`                the tables agree in every reachable state.
-/

set_option linter.unusedSectionVars false

namespace Shop
open Lib

/-! ## a new order keeps the tables in agreement -/

section
variable {g : RowDefaults} {ids : NewIds} {db : OrderDb} {input : CreateOrderInput}

theorem fresh_iff : ids.fresh db input = true ↔
    ids.order.val ∉ db.orders.map OrderRow.id ∧ ids.saga.val ∉ db.sagas.map Saga.id ∧
    ids.items.length = input.items.length ∧
    (db.orderItems.map OrderItemRow.id ++ ids.items.map Uuid.val).Nodup := by
  simp only [NewIds.fresh, Bool.and_eq_true, decide_eq_true_eq, and_assoc]

theorem newItemRows_id (o : String) {us : List Uuid} {items : List OrderItem}
    (h : us.length = items.length) :
    (OrderDb.newItemRows o us items).map OrderItemRow.id = us.map Uuid.val := by
  induction us generalizing items with
  | nil => rfl
  | cons u us ih =>
    cases items with
    | nil => cases h
    | cons i items =>
      show u.val :: (OrderDb.newItemRows o us items).map OrderItemRow.id = u.val :: us.map Uuid.val
      rw [ih (by simpa using h)]

theorem newItemRows_owner (o : String) (us : List Uuid) (items : List OrderItem) :
    ∀ r ∈ OrderDb.newItemRows o us items, r.orderId = o := by
  induction us generalizing items with
  | nil => intro r hr; exact absurd hr List.not_mem_nil
  | cons u us ih =>
    cases items with
    | nil => intro r hr; exact absurd hr List.not_mem_nil
    | cons i items =>
      intro r hr
      rcases List.mem_cons.mp hr with rfl | hr
      · rfl
      · exact ih items r hr

theorem newItemRows_lines (o : String) {us : List Uuid} {items : List LineItem} (now : Nat)
    (u e : String) (h : us.length = items.length) :
    (OrderDb.newItemRows o us (Order.create now u e items).items).map
      (fun i => (⟨i.productId, i.quantity⟩ : LineItem)) = items := by
  induction us generalizing items with
  | nil =>
    cases items with
    | nil => rfl
    | cons i items => cases h
  | cons x us ih =>
    cases items with
    | nil => cases h
    | cons i items =>
      show i :: List.map _ (OrderDb.newItemRows o us (Order.create now u e items).items) = i :: items
      rw [ih (by simpa using h)]

theorem mem_created_sagas {s : Saga} : s ∈ (created g ids db input).sagas ↔
    s ∈ db.sagas ∨
      s = { Saga.create g.now ids.order.val input.correlationId with id := ids.saga.val } := by
  show s ∈ db.sagas ++ [_] ↔ _
  rw [List.mem_append, List.mem_singleton]

theorem mem_created_orders {o : OrderRow} : o ∈ (created g ids db input).orders ↔
    o ∈ db.orders ∨
      o = ⟨ids.order.val, input.userId, input.userEmail, .pending, 0, g.now⟩ := by
  show o ∈ db.orders ++ [_] ↔ _
  rw [List.mem_append, List.mem_singleton]

theorem linesOf_created_new (h : WF db) (hf : ids.fresh db input = true) :
    (created g ids db input).linesOf ids.order.val = input.items := by
  obtain ⟨ho, _, hlen, _⟩ := fresh_iff.mp hf
  unfold OrderDb.linesOf
  show List.map _ (List.filter _ (db.orderItems ++ _)) = _
  have hold : (db.orderItems.filter fun i => decide (i.orderId = ids.order.val)) = [] := by
    apply List.filter_eq_nil_iff.mpr
    intro i hi he
    exact ho (of_decide_eq_true he ▸ h.itemOwner i hi)
  have hnew : ∀ l : List OrderItemRow, (∀ r ∈ l, r.orderId = ids.order.val) →
      (l.filter fun i => decide (i.orderId = ids.order.val)) = l := by
    intro l hl
    apply List.filter_eq_self.mpr
    intro r hr
    exact decide_eq_true (hl r hr)
  rw [List.filter_append, hold, List.nil_append, hnew _ (newItemRows_owner _ _ _),
    newItemRows_lines _ _ _ _ hlen]

theorem linesOf_created_old {x : String} (hx : x ≠ ids.order.val) :
    (created g ids db input).linesOf x = db.linesOf x := by
  unfold OrderDb.linesOf
  show List.map _ (List.filter _ (db.orderItems ++ _)) = _
  rw [List.filter_append]
  have hnew : ∀ l : List OrderItemRow, (∀ r ∈ l, r.orderId = ids.order.val) →
      (l.filter fun i => decide (i.orderId = x)) = [] := by
    intro l hl
    apply List.filter_eq_nil_iff.mpr
    intro r hr he
    exact hx ((of_decide_eq_true he).symm.trans (hl r hr))
  rw [hnew _ (newItemRows_owner _ _ _), List.append_nil]

/-- a saga and its order: the two that are new, or two that were there -/
theorem created_pair (h : WF db) (hf : ids.fresh db input = true) {s : Saga} {o : OrderRow}
    (hs : s ∈ (created g ids db input).sagas) (ho : o ∈ (created g ids db input).orders)
    (hos : o.id = s.orderId) : (s ∈ db.sagas ∧ o ∈ db.orders) ∨
      (s = { Saga.create g.now ids.order.val input.correlationId with id := ids.saga.val } ∧
        o = ⟨ids.order.val, input.userId, input.userEmail, .pending, 0, g.now⟩) := by
  obtain ⟨hnew, _⟩ := fresh_iff.mp hf
  rcases mem_created_sagas.mp hs with hs | rfl
  · rcases mem_created_orders.mp ho with ho | rfl
    · exact Or.inl ⟨hs, ho⟩
    · have he : ids.order.val = s.orderId := hos
      rw [← h.paired] at hnew
      exact absurd (he ▸ List.mem_map_of_mem hs) hnew
  · rcases mem_created_orders.mp ho with ho | rfl
    · have he : o.id = ids.order.val := hos
      exact absurd (he ▸ List.mem_map_of_mem ho) hnew
    · exact Or.inr ⟨rfl, rfl⟩

theorem created_wf (h : WF db) (hf : ids.fresh db input = true) :
    WF (created g ids db input) := by
  obtain ⟨ho, hs, hlen, hitems⟩ := fresh_iff.mp hf
  constructor
  · show (db.sagas ++ [_]).map Saga.orderId = (db.orders ++ [_]).map OrderRow.id
    rw [List.map_append, List.map_append, h.paired]
    rfl
  · show ((db.orders ++ [_]).map OrderRow.id).Nodup
    rw [List.map_append]
    exact h.orderIds.append (List.nodup_singleton _) (by simpa using ho)
  · show ((db.sagas ++ [_]).map Saga.id).Nodup
    rw [List.map_append]
    exact h.sagaIds.append (List.nodup_singleton _) (by simpa using hs)
  · intro s hmem
    rcases mem_created_sagas.mp hmem with hmem | rfl
    · exact h.uuid s hmem
    · exact ids.saga.len
  · intro i hi
    show i.orderId ∈ (db.orders ++ [_]).map OrderRow.id
    rw [List.map_append]
    rcases List.mem_append.mp hi with hi | hi
    · exact List.mem_append_left _ (h.itemOwner i hi)
    · rw [newItemRows_owner _ _ _ i hi]
      exact List.mem_append_right _ (List.mem_singleton.mpr rfl)
  · show ((db.orderItems ++ _).map OrderItemRow.id).Nodup
    rw [List.map_append, newItemRows_id]
    · exact hitems
    · rw [hlen]
      show input.items.length = (input.items.map _).length
      rw [List.length_map]
  · intro s hmem o homem hos
    rcases created_pair h hf hmem homem hos with ⟨hmem, homem⟩ | ⟨rfl, rfl⟩
    · exact h.phase s hmem o homem hos
    · exact ⟨rfl, Option.some_ne_none _, rfl⟩

end

/-! ## the system -/

structure OrderSystem where
  db : OrderDb
  clock : Nat
  ticks : List (List Saga)

inductive OrderAction where
  | wait (ms : Nat)
  | create (outboxId : Uuid) (ids : NewIds) (input : CreateOrderInput)
  | reply (outboxId : Uuid) (q : RowOrder OrderItemRow) (ev : ReplyEvent)
  | findStuck (q : RowOrder Saga)
  | retry (tick : Nat) (outboxId : Uuid) (q : RowOrder OrderItemRow)
  | skipLocked (tick : Nat)

namespace OrderSystem

def init (now : Nat) : OrderSystem := ⟨OrderDb.empty, now, []⟩

def step (w : OrderSystem) : OrderAction → OrderSystem
  | .wait ms => { w with clock := w.clock + ms }
  | .create u ids input =>
    { w with db := commit w.db (w.db.createOrder ⟨u, w.clock⟩ ids input) }
  | .reply u q ev => { w with db := commit w.db (w.db.handleReply ⟨u, w.clock⟩ q ev) }
  | .findStuck q => { w with ticks := w.ticks ++ [w.db.findStuck q w.clock 10] }
  | .retry k u q =>
    match w.ticks[k]? with
    | some (saga :: rest) =>
      { w with
        db := commit w.db (w.db.retrySaga ⟨u, w.clock⟩ q saga.id)
        ticks := w.ticks.set k rest }
    | _ => w
  -- the row of the next saga is held by another transaction
  | .skipLocked k =>
    match w.ticks[k]? with
    | some (_ :: rest) => { w with ticks := w.ticks.set k rest }
    | _ => w

end OrderSystem

/-! ## one committed transaction -/

theorem Outcome.commit {db : OrderDb} {r : Except OrdersError OrderDb}
    {T : Saga → Saga → OrderRow → OrderRow → List OutboxRow → Prop} (h : Outcome db T r) :
    Lib.commit db r = db ∨
      ∃ s s' o o' out, Moved db (Lib.commit db r) s s' o o' out ∧ T s s' o o' out := by
  cases h with
  | unchanged => exact Or.inl rfl
  | rollback => exact Or.inl rfl
  | moved hm ht => exact Or.inr ⟨_, _, _, _, _, hm, ht⟩

inductive DbStep (db : OrderDb) : OrderDb → Prop where
  | same : DbStep db db
  | created (g : RowDefaults) (ids : NewIds) (input : CreateOrderInput) :
      ids.fresh db input = true → DbStep db (created g ids db input)
  | replied {db' : OrderDb} (g : RowDefaults) (q : RowOrder OrderItemRow) (ev : ReplyEvent)
      {s s' : Saga} {o o' : OrderRow} {t : Topic} {p : Payload} :
      s.orderId = ev.orderId → Fires g q db ev s s' o o' t p →
      Moved db db' s s' o o' [OutboxRow.write g ev.orderId t ev.orderId p] → DbStep db db'
  | retried {db' : OrderDb} (g : RowDefaults) (q : RowOrder OrderItemRow) {s s' : Saga}
      {o : OrderRow} {out : List OutboxRow} :
      s.status = .running → Retries g q db s o s' out → Moved db db' s s' o o out → DbStep db db'

theorem DbStep.ofReply {db : OrderDb} (h : WF db) (g : RowDefaults) (q : RowOrder OrderItemRow)
    (ev : ReplyEvent) : DbStep db (commit db (db.handleReply g q ev)) := by
  rcases (handleReply_cases h g q ev).commit with he | ⟨s, s', o, o', out, hm, ho, t, p, hf, rfl⟩
  · rw [he]
    exact .same
  · exact .replied g q ev ho hf hm

theorem DbStep.ofRetry {db : OrderDb} (h : WF db) (g : RowDefaults) (q : RowOrder OrderItemRow)
    (id : String) : DbStep db (commit db (db.retrySaga g q id)) := by
  rcases retrySaga_cases h g q id with ⟨_, he⟩ | ⟨db', s, s', o, out, hf, he, hm, ht⟩
  · rw [he]
    exact .same
  · rw [he]
    exact .retried g q (OrderDb.findSagaRunning_some hf).2.2 ht hm

theorem DbStep.ofCreate {db : OrderDb} (g : RowDefaults) (ids : NewIds)
    (input : CreateOrderInput) : DbStep db (commit db (db.createOrder g ids input)) := by
  rcases createOrder_cases g ids db input with he | ⟨hf, he⟩
  · rw [he]
    exact .same
  · rw [he]
    exact .created g ids input hf

/-- every action of the system is at most one committed transaction -/
theorem step_db {w : OrderSystem} (h : WF w.db) (a : OrderAction) : DbStep w.db (w.step a).db := by
  cases a with
  | wait ms => exact .same
  | create u ids input => exact .ofCreate _ ids input
  | reply u q ev => exact .ofReply h _ q ev
  | findStuck q => exact .same
  | retry k u q =>
    simp only [OrderSystem.step]
    split
    · exact .ofRetry h _ q _
    · exact .same
  | skipLocked k =>
    simp only [OrderSystem.step]
    split <;> exact .same

theorem DbStep.wf {db db' : OrderDb} (h : WF db) (hs : DbStep db db') : WF db' := by
  cases hs with
  | same => exact h
  | created g ids input hf => exact created_wf h hf
  | replied g q ev ho hf hm =>
    exact hm.wf h (hf.phase (h.phase _ hm.saga_mem _ hm.order_mem hm.order_id))
  | retried g q hr ht hm =>
    exact hm.wf h (ht.phase hr (h.phase _ hm.saga_mem _ hm.order_mem hm.order_id))

theorem wf_run (now : Nat) (as : List OrderAction) :
    WF (run OrderSystem.step (OrderSystem.init now) as).db :=
  invariant_run (I := fun w => WF w.db) OrderSystem.step (fun _ a h => (step_db h a).wf h)
    (OrderSystem.init now) as WF.empty

end Shop
