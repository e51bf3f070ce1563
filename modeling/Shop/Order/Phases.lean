import Shop.Order.System

/-!
# The phases of orders and sagas, and their terminal states

* `phase_invariant`      in every reachable state each order has one saga, and step, status,
                         deadline and order status go together; no handler throws a transition
                         error;
* `Agree db s o`         the agreement of a saga, its order and the two domain events;
* `gaveUp w a`           the saga that the action `a` gives up after its last retry;
* `exhausts w a`         the order of that saga;
* `OrderStep w a db' xs` what an action does to the tables, and the sagas that it gives up;
* `agree_iff`            the agreement holds for exactly the orders that were never given up.

A saga that is given up becomes FAILED alone: its order is not cancelled and no ORDER_CANCELLED is
written (`agree_fails`).
-/

set_option linter.unusedSectionVars false

namespace Shop
open Lib

/-! ## the phase invariant -/

theorem phase_iff {s : Saga} {st : OrderStatus} (h : Phase s st) :
    (s.status = .running ↔ s.currentStep = .reserveStock ∨ s.currentStep = .processPayment ∨
      s.currentStep = .releaseStock) ∧
    (s.status = .running ↔ s.nextRetryAt ≠ none) ∧
    (s.status = .completed ↔ s.currentStep = .completed) ∧
    (s.status = .failed ↔ s.currentStep = .failed) := by
  unfold Phase at h
  cases hstep : s.currentStep <;> rw [hstep] at h <;> simp [h]

theorem phase_open {s : Saga} {st : OrderStatus} (h : Phase s st) :
    (s.currentStep = .reserveStock → st = .pending) ∧
    (s.currentStep = .processPayment ∨ s.currentStep = .releaseStock → st = .confirmed) := by
  unfold Phase at h
  cases hstep : s.currentStep <;> rw [hstep] at h <;> simp [h]

theorem Outcome.error {db : OrderDb} {r : Except OrdersError OrderDb}
    {T : Saga → Saga → OrderRow → OrderRow → List OutboxRow → Prop} (h : Outcome db T r)
    {e : OrdersError} (he : r = .error e) : e = .queryFailed := by
  cases h with
  | unchanged => cases he
  | rollback => cases he; rfl
  | moved _ _ => cases he

/-- **The phase invariant of the orchestrator.**  Every order has exactly one saga; step, status,
deadline and order status go together; a reply handler can only end with the database's own error,
and a retry with none. -/
theorem phase_invariant (now : Nat) (as : List OrderAction) :
    let w := run OrderSystem.step (OrderSystem.init now) as
    (∀ o ∈ w.db.orders, (w.db.sagas.filter fun s => decide (s.orderId = o.id)).length = 1) ∧
    (∀ s ∈ w.db.sagas,
      (s.status = .running ↔ s.currentStep = .reserveStock ∨ s.currentStep = .processPayment ∨
        s.currentStep = .releaseStock) ∧
      (s.status = .running ↔ s.nextRetryAt ≠ none) ∧
      (s.status = .completed ↔ s.currentStep = .completed) ∧
      (s.status = .failed ↔ s.currentStep = .failed)) ∧
    (∀ s ∈ w.db.sagas, ∀ o ∈ w.db.orders, o.id = s.orderId →
      (s.currentStep = .reserveStock → o.status = .pending) ∧
      (s.currentStep = .processPayment ∨ s.currentStep = .releaseStock → o.status = .confirmed)) ∧
    (∀ g q ev e, w.db.handleReply g q ev = .error e → e = .queryFailed) ∧
    (∀ g q id, ∃ db', w.db.retrySaga g q id = .ok db') := by
  intro w
  have h : WF w.db := wf_run now as
  refine ⟨?_, ?_, ?_, ?_, ?_⟩
  · intro o ho
    obtain ⟨s, hs, hso⟩ := h.saga_of ho
    rw [← hso, filter_key h.sagaOrderIds hs]
    rfl
  · intro s hs
    obtain ⟨o, ho, hos⟩ := h.order_of hs
    exact phase_iff (h.phase s hs o ho hos)
  · intro s hs o ho hos
    exact phase_open (h.phase s hs o ho hos)
  · intro g q ev e he
    exact (handleReply_cases h g q ev).error he
  · intro g q id
    rcases retrySaga_cases h g q id with ⟨_, he⟩ | ⟨db', _, _, _, _, _, he, _⟩
    · exact ⟨_, he⟩
    · exact ⟨db', he⟩

/-! ## terminal agreement -/

/-- the rows of a topic that have been written for an order -/
def written (db : OrderDb) (t : Topic) (orderId : String) : Nat :=
  db.outbox.countP fun r => decide (r.topic = t) && decide (r.aggregateId = orderId)

/-- a saga, its order and the domain events written for it agree -/
def Agree (db : OrderDb) (s : Saga) (o : OrderRow) : Prop :=
  (s.status = .failed ↔ o.status = .cancelled ∧ written db .orderCancelled o.id = 1) ∧
  (s.status = .completed ↔ o.status = .confirmed ∧ written db .orderConfirmed o.id = 1) ∧
  (s.status = .running → written db .orderCancelled o.id = 0 ∧ written db .orderConfirmed o.id = 0)

instance (db : OrderDb) (s : Saga) (o : OrderRow) : Decidable (Agree db s o) :=
  inferInstanceAs (Decidable (_ ∧ _ ∧ _))

/-- the saga that a retry transaction finds running with no retry left -/
def gaveUp (w : OrderSystem) : OrderAction → List Saga
  | .retry k _ _ =>
    match w.ticks[k]? with
    | some (saga :: _) =>
      match w.db.findSagaRunning saga.id with
      | some fresh => if fresh.hasExceededMaxRetries then [fresh] else []
      | none => []
    | _ => []
  | _ => []

/-- the order whose saga is given up -/
def exhausts (w : OrderSystem) (a : OrderAction) : List String := (gaveUp w a).map Saga.orderId

/-- what the outbox, the order and the orders given up so far say at each step of a saga -/
def Settled (db : OrderDb) (xs : List String) (s : Saga) (o : OrderRow) : Prop :=
  match s.currentStep with
  | .completed => o.id ∉ xs ∧ written db .orderCancelled o.id = 0 ∧
      written db .orderConfirmed o.id = 1
  | .failed => written db .orderConfirmed o.id = 0 ∧
      ((o.id ∉ xs ∧ o.status = .cancelled ∧ written db .orderCancelled o.id = 1) ∨
       (o.id ∈ xs ∧ o.status ≠ .cancelled ∧ written db .orderCancelled o.id = 0))
  | _ => o.id ∉ xs ∧ written db .orderCancelled o.id = 0 ∧ written db .orderConfirmed o.id = 0

structure Terminal (db : OrderDb) (xs : List String) : Prop where
  wf : WF db
  settled : ∀ s ∈ db.sagas, ∀ o ∈ db.orders, o.id = s.orderId → Settled db xs s o
  owner : ∀ r ∈ db.outbox, r.aggregateId ∈ db.orders.map OrderRow.id
  known : ∀ x ∈ xs, x ∈ db.orders.map OrderRow.id

theorem written_append (db : OrderDb) (out : List OutboxRow) {db' : OrderDb}
    (h : db'.outbox = db.outbox ++ out) (t : Topic) (x : String) : written db' t x = written db t x +
      out.countP fun r => decide (r.topic = t) && decide (r.aggregateId = x) := by
  unfold written
  rw [h, List.countP_append]

theorem written_row (g : RowDefaults) (t : Topic) (x k : String) (p : Payload) (t' : Topic)
    (x' : String) : List.countP (fun r => decide (r.topic = t') && decide (r.aggregateId = x'))
      [OutboxRow.write g x t k p] = if t = t' ∧ x = x' then 1 else 0 := by
  by_cases ht : t = t' <;> by_cases hx : x = x' <;> simp [OutboxRow.write, ht, hx]

/-- rows for one order do not count for another -/
theorem settled_other {db db' : OrderDb} {xs ys : List String} {s : Saga} {o : OrderRow}
    {out : List OutboxRow} (hout : db'.outbox = db.outbox ++ out)
    (hne : ∀ r ∈ out, r.aggregateId ≠ o.id) (hys : ∀ y ∈ ys, y ≠ o.id) (h : Settled db xs s o) :
    Settled db' (xs ++ ys) s o := by
  have hw : ∀ t, written db' t o.id = written db t o.id := by
    intro t
    rw [written_append db out hout]
    have h0 : out.countP (fun r => decide (r.topic = t) && decide (r.aggregateId = o.id)) = 0 := by
      apply List.countP_eq_zero.mpr
      intro r hr hc
      rw [Bool.and_eq_true, decide_eq_true_eq, decide_eq_true_eq] at hc
      exact hne r hr hc.2
    rw [h0, Nat.add_zero]
  have hx : o.id ∈ xs ++ ys ↔ o.id ∈ xs := by
    rw [List.mem_append]
    exact ⟨fun h => h.elim (fun h => h) (fun h => absurd rfl (hys _ h)), Or.inl⟩
  unfold Settled at h ⊢
  simp only [hw, hx]
  exact h

/-- a move settles its own order, as far as it says, and leaves the others settled -/
theorem Moved.terminal {db db' : OrderDb} {s s' : Saga} {o o' : OrderRow} {out : List OutboxRow}
    (m : Moved db db' s s' o o' out) {xs ys : List String} (h : Terminal db xs)
    (hp : Phase s' o'.status) (hout : ∀ r ∈ out, r.aggregateId = o.id)
    (hys : ∀ y ∈ ys, y = o.id) (hs : Settled db' (xs ++ ys) s' o') : Terminal db' (xs ++ ys) where
  wf := m.wf h.wf hp
  settled := by
    intro x hx y hy hxy
    rcases m.mem_pair h.wf hx hy hxy with ⟨rfl, rfl⟩ | ⟨hx, hy, hyo⟩
    · exact hs
    · exact settled_other m.outbox (fun r hr e => hyo (e.symm.trans (hout r hr)))
        (fun z hz e => hyo (e.symm.trans (hys z hz))) (h.settled x hx y hy hxy)
  owner := by
    rw [m.outbox]
    exact m.about OutboxRow.aggregateId h.owner hout
  known := m.about id h.known hys

/-- the five replies settle the order they are about -/
theorem Fires.settled {g : RowDefaults} {q : RowOrder OrderItemRow} {db db' : OrderDb}
    {ev : ReplyEvent} {s s' : Saga} {o o' : OrderRow} {t : Topic} {p : Payload}
    (hf : Fires g q db ev s s' o o' t p) {xs : List String} (ho : o.id = ev.orderId)
    (hout : db'.outbox = db.outbox ++ [OutboxRow.write g ev.orderId t ev.orderId p])
    (h : Settled db xs s o) : Settled db' xs s' o' := by
  have hw : ∀ t', written db' t' o.id = written db t' o.id + if t = t' then 1 else 0 := by
    intro t'
    rw [written_append db _ hout, written_row]
    simp [ho]
  cases hf with
  | stockReserved e _ _ hs =>
    rw [Settled, hs] at h
    show o.id ∉ xs ∧ written db' _ o.id = 0 ∧ written db' _ o.id = 0
    rw [hw, hw, h.2.1, h.2.2]
    exact ⟨h.1, rfl, rfl⟩
  | stockReservationFailed e _ _ hs =>
    rw [Settled, hs] at h
    show written db' _ o.id = 0 ∧ ((o.id ∉ xs ∧ OrderStatus.cancelled = .cancelled ∧
      written db' _ o.id = 1) ∨ _)
    rw [hw, hw, h.2.1, h.2.2]
    exact ⟨rfl, Or.inl ⟨h.1, rfl, rfl⟩⟩
  | paymentProcessed e _ _ hs =>
    rw [Settled, hs] at h
    show o.id ∉ xs ∧ written db' _ o.id = 0 ∧ written db' _ o.id = 1
    rw [hw, hw, h.2.1, h.2.2]
    exact ⟨h.1, rfl, rfl⟩
  | paymentFailed e _ _ hs =>
    rw [Settled, hs] at h
    show o.id ∉ xs ∧ written db' _ o.id = 0 ∧ written db' _ o.id = 0
    rw [hw, hw, h.2.1, h.2.2]
    exact ⟨h.1, rfl, rfl⟩
  | stockReleased e _ _ hs =>
    rw [Settled, hs] at h
    show written db' _ o.id = 0 ∧ ((o.id ∉ xs ∧ OrderStatus.cancelled = .cancelled ∧
      written db' _ o.id = 1) ∨ _)
    rw [hw, hw, h.2.1, h.2.2]
    exact ⟨rfl, Or.inl ⟨h.1, rfl, rfl⟩⟩

theorem Resends.topic {q : RowOrder OrderItemRow} {db : OrderDb} {s : Saga} {o : OrderRow}
    {t : Topic} {p : Payload} (h : Resends q db s o t p) :
    t ≠ .orderCancelled ∧ t ≠ .orderConfirmed := by
  cases h <;> exact ⟨by decide, by decide⟩

theorem Retries.owner {g : RowDefaults} {q : RowOrder OrderItemRow} {db : OrderDb} {s s' : Saga}
    {o : OrderRow} {out : List OutboxRow} (hr : Retries g q db s o s' out) :
    ∀ r ∈ out, r.aggregateId = s.orderId := by
  cases hr with
  | exhausted _ => exact fun _ h => absurd h List.not_mem_nil
  | resent _ _ =>
    intro r h
    rw [List.mem_singleton.mp h]
    rfl

/-- a retry that sends a command again changes none of what `Settled` says -/
theorem settled_resent {g : RowDefaults} {q : RowOrder OrderItemRow} {db db' : OrderDb} {s : Saga}
    {o : OrderRow} {t : Topic} {p : Payload} (hr : Resends q db s o t p) {xs : List String}
    (hout : db'.outbox = db.outbox ++ [OutboxRow.write g s.orderId t s.orderId p])
    (h : Settled db xs s o) : Settled db' xs (s.scheduleRetry g.now) o := by
  have hw : ∀ t', t' = .orderCancelled ∨ t' = .orderConfirmed →
      written db' t' o.id = written db t' o.id := by
    intro t' ht'
    rw [written_append db _ hout, written_row, if_neg, Nat.add_zero]
    rintro ⟨he, _⟩
    rcases ht' with e | e
    · exact hr.topic.1 (he.trans e)
    · exact hr.topic.2 (he.trans e)
  unfold Settled at h ⊢
  rw [hw _ (Or.inl rfl), hw _ (Or.inr rfl)]
  exact h

/-- giving a saga up leaves its order open and writes nothing -/
theorem settled_exhausted {db db' : OrderDb} {s : Saga} {o : OrderRow} {xs : List String}
    (hout : db'.outbox = db.outbox ++ []) (hrun : s.status = .running) (hp : Phase s o.status)
    (h : Settled db xs s o) :
    Settled db' (xs ++ [o.id]) (s.fail "Max retries exceeded") o := by
  have hw : ∀ t, written db' t o.id = written db t o.id := by
    intro t
    rw [written_append db _ hout, List.countP_nil, Nat.add_zero]
  have hmem : o.id ∈ xs ++ [o.id] := List.mem_append_right _ (List.mem_singleton.mpr rfl)
  show written db' _ o.id = 0 ∧ (_ ∨ (_ ∧ _ ∧ written db' _ o.id = 0))
  rw [hw, hw]
  unfold Settled at h
  unfold Phase at hp
  cases hstep : s.currentStep <;> rw [hstep] at h hp
  · exact ⟨h.2.2, Or.inr ⟨hmem, by rw [hp.2.2]; decide, h.2.1⟩⟩
  · exact ⟨h.2.2, Or.inr ⟨hmem, by rw [hp.2.2]; decide, h.2.1⟩⟩
  · exact ⟨h.2.2, Or.inr ⟨hmem, by rw [hp.2.2]; decide, h.2.1⟩⟩
  · exact absurd (hrun.symm.trans hp.1) (by decide)
  · exact absurd (hrun.symm.trans hp.1) (by decide)

/-- a new order has neither event and has not been given up -/
theorem created_terminal {g : RowDefaults} {ids : NewIds} {db : OrderDb} {input : CreateOrderInput}
    (hf : ids.fresh db input = true) {xs : List String} (h : Terminal db xs) :
    Terminal (created g ids db input) (xs ++ []) := by
  obtain ⟨ho, _⟩ := fresh_iff.mp hf
  have hids : ∀ x, x ∈ db.orders.map OrderRow.id →
      x ∈ (created g ids db input).orders.map OrderRow.id := by
    intro x hx
    show x ∈ (db.orders ++ [_]).map OrderRow.id
    rw [List.map_append]
    exact List.mem_append_left _ hx
  constructor
  · exact created_wf h.wf hf
  · intro s hmem o homem hos
    rcases created_pair h.wf hf hmem homem hos with ⟨hmem, homem⟩ | ⟨rfl, rfl⟩
    · apply settled_other rfl _ _ (h.settled s hmem o homem hos)
      · intro r hr e
        rw [List.mem_singleton.mp hr] at e
        have he : ids.order.val = o.id := e
        exact ho (he.symm ▸ List.mem_map_of_mem homem)
      · exact fun y hy => absurd hy List.not_mem_nil
    · have hw : ∀ t, t ≠ .reserveStock → written (created g ids db input) t ids.order.val = 0 := by
        intro t ht
        rw [written_append db _ (show (created g ids db input).outbox = _ from rfl), written_row,
          if_neg (fun e => ht e.1.symm), Nat.add_zero]
        apply List.countP_eq_zero.mpr
        intro r hr hc
        rw [Bool.and_eq_true, decide_eq_true_eq, decide_eq_true_eq] at hc
        exact ho (hc.2 ▸ h.owner r hr)
      refine ⟨fun hx => ?_, hw _ (by decide), hw _ (by decide)⟩
      rw [List.append_nil] at hx
      exact ho (h.known _ hx)
  · intro r hr
    rcases List.mem_append.mp hr with hr | hr
    · exact hids _ (h.owner r hr)
    · rw [List.mem_singleton.mp hr]
      show ids.order.val ∈ (db.orders ++ [_]).map OrderRow.id
      rw [List.map_append]
      exact List.mem_append_right _ (List.mem_singleton.mpr rfl)
  · intro x hx
    rw [List.append_nil] at hx
    exact hids x (h.known x hx)

/-- a retry action changes nothing, or retries one running saga and says whether it gave it up -/
theorem retry_cases {w : OrderSystem} (h : WF w.db) (k : Nat) (u : Uuid)
    (q : RowOrder OrderItemRow) :
    ((w.step (.retry k u q)).db = w.db ∧ gaveUp w (.retry k u q) = []) ∨
    ∃ s s' o out, s.status = .running ∧ Moved w.db (w.step (.retry k u q)).db s s' o o out ∧
      Retries ⟨u, w.clock⟩ q w.db s o s' out ∧
      gaveUp w (.retry k u q) = if Saga.MAX_RETRIES ≤ s.retryCount then [s] else [] := by
  cases hk : w.ticks[k]? with
  | none => exact Or.inl ⟨by simp only [OrderSystem.step, hk], by simp only [gaveUp, hk]⟩
  | some batch =>
    cases batch with
    | nil => exact Or.inl ⟨by simp only [OrderSystem.step, hk], by simp only [gaveUp, hk]⟩
    | cons saga rest =>
      have hdb : (w.step (.retry k u q)).db
          = commit w.db (w.db.retrySaga ⟨u, w.clock⟩ q saga.id) := by
        simp only [OrderSystem.step, hk]
      rw [hdb]
      rcases retrySaga_cases h ⟨u, w.clock⟩ q saga.id with
        ⟨hf, he⟩ | ⟨db', s, s', o, out, hf, he, hm, ht⟩
      · rw [he]
        exact Or.inl ⟨rfl, by simp only [gaveUp, hk, hf]⟩
      · rw [he]
        refine Or.inr ⟨s, s', o, out, (OrderDb.findSagaRunning_some hf).2.2, hm, ht, ?_⟩
        simp only [gaveUp, hk, hf, Saga.hasExceededMaxRetries_iff]

/-- what one action does to the tables, and the sagas that it gives up -/
inductive OrderStep (w : OrderSystem) : OrderAction → OrderDb → List Saga → Prop where
  | same (a : OrderAction) : OrderStep w a w.db []
  | created (u : Uuid) (ids : NewIds) (input : CreateOrderInput) : ids.fresh w.db input = true →
      OrderStep w (.create u ids input) (created ⟨u, w.clock⟩ ids w.db input) []
  | replied (u : Uuid) (q : RowOrder OrderItemRow) (ev : ReplyEvent) {db' : OrderDb} {s s' : Saga}
      {o o' : OrderRow} {t : Topic} {p : Payload} : s.orderId = ev.orderId →
      Fires ⟨u, w.clock⟩ q w.db ev s s' o o' t p →
      Moved w.db db' s s' o o' [OutboxRow.write ⟨u, w.clock⟩ ev.orderId t ev.orderId p] →
      OrderStep w (.reply u q ev) db' []
  | retried (k : Nat) (u : Uuid) (q : RowOrder OrderItemRow) {db' : OrderDb} {s s' : Saga}
      {o : OrderRow} {out : List OutboxRow} {gave : List Saga} : s.status = .running →
      Retries ⟨u, w.clock⟩ q w.db s o s' out → Moved w.db db' s s' o o out →
      gave = (if Saga.MAX_RETRIES ≤ s.retryCount then [s] else []) →
      OrderStep w (.retry k u q) db' gave

theorem order_step {w : OrderSystem} (h : WF w.db) (a : OrderAction) :
    OrderStep w a (w.step a).db (gaveUp w a) := by
  cases a with
  | wait ms => exact .same _
  | create u ids input =>
    show OrderStep w _ (commit w.db (w.db.createOrder ⟨u, w.clock⟩ ids input)) []
    rcases createOrder_cases ⟨u, w.clock⟩ ids w.db input with he | ⟨hf, he⟩
    · rw [he]
      exact .same _
    · rw [he]
      exact .created u ids input hf
  | reply u q ev =>
    show OrderStep w _ (commit w.db (w.db.handleReply ⟨u, w.clock⟩ q ev)) []
    rcases (handleReply_cases h ⟨u, w.clock⟩ q ev).commit with
      he | ⟨s, s', o, o', out, hm, ho, t, p, hf, rfl⟩
    · rw [he]
      exact .same _
    · exact .replied u q ev ho hf hm
  | findStuck q => exact .same _
  | retry k u q =>
    rcases retry_cases h k u q with ⟨he, hx⟩ | ⟨s, s', o, out, hrun, hm, ht, hx⟩
    · rw [he, hx]
      exact .same _
    · exact .retried k u q hrun ht hm hx
  | skipLocked k =>
    simp only [OrderSystem.step]
    split <;> exact .same _

theorem Terminal.step {w : OrderSystem} {xs : List String} (h : Terminal w.db xs) {a : OrderAction}
    {db' : OrderDb} {gave : List Saga} (hs : OrderStep w a db' gave) :
    Terminal db' (xs ++ gave.map Saga.orderId) := by
  cases hs with
  | same a =>
    rw [List.map_nil, List.append_nil]
    exact h
  | created u ids input hf => exact created_terminal hf h
  | @replied u q ev _ s s' o o' t p ho hf m =>
    have hset := h.settled s m.saga_mem o m.order_mem m.order_id
    have hp := h.wf.phase s m.saga_mem o m.order_mem m.order_id
    refine m.terminal h (hf.phase hp) ?_ (fun y hy => absurd hy List.not_mem_nil) ?_
    · intro r hr
      rw [List.mem_singleton.mp hr, m.order_id, ho]
      rfl
    · rw [List.map_nil, List.append_nil]
      exact hf.settled (m.order_id.trans ho) m.outbox hset
  | @retried k u q _ s s' o out gave hrun ht m hx =>
    have hset := h.settled s m.saga_mem o m.order_mem m.order_id
    have hp := h.wf.phase s m.saga_mem o m.order_mem m.order_id
    have hown : ∀ r ∈ out, r.aggregateId = o.id := by
      rw [m.order_id]
      exact ht.owner
    cases ht with
    | exhausted hmax =>
      rw [hx, if_pos hmax]
      show Terminal db' (xs ++ [s.orderId])
      rw [← m.order_id]
      exact m.terminal h ⟨rfl, rfl⟩ hown (fun y hy => List.mem_singleton.mp hy)
        (settled_exhausted m.outbox hrun hp hset)
    | resent hlt hr =>
      rw [hx, if_neg (by omega)]
      refine m.terminal h (phase_scheduleRetry w.clock hrun hp) hown
        (fun y hy => absurd hy List.not_mem_nil) ?_
      rw [List.map_nil, List.append_nil]
      exact settled_resent hr m.outbox hset

theorem terminal_run (now : Nat) (as : List OrderAction) :
    Terminal (run OrderSystem.step (OrderSystem.init now) as).db
      (emits OrderSystem.step exhausts (OrderSystem.init now) as) :=
  invariant_emits (I := fun w xs => Terminal w.db xs) OrderSystem.step
    (fun _ _ a h => h.step (order_step h.wf a)) (OrderSystem.init now) as
    { wf := WF.empty
      settled := fun _ h => absurd h List.not_mem_nil
      owner := fun _ h => absurd h List.not_mem_nil
      known := fun _ h => absurd h List.not_mem_nil }

/-- **Terminal agreement.**  In every reachable state a saga, its order and the domain events
written for it agree if and only if no retry has given that saga up. -/
theorem agree_iff (now : Nat) (as : List OrderAction) :
    ∀ s ∈ (run OrderSystem.step (OrderSystem.init now) as).db.sagas,
    ∀ o ∈ (run OrderSystem.step (OrderSystem.init now) as).db.orders, o.id = s.orderId →
      (Agree (run OrderSystem.step (OrderSystem.init now) as).db s o ↔
        o.id ∉ emits OrderSystem.step exhausts (OrderSystem.init now) as) := by
  intro s hs o ho hos
  have h := terminal_run now as
  have hp := h.wf.phase s hs o ho hos
  have hset := h.settled s hs o ho hos
  unfold Agree
  unfold Phase at hp
  unfold Settled at hset
  cases hstep : s.currentStep <;> rw [hstep] at hp hset
  · simp [hp, hset]
  · simp [hp, hset]
  · simp [hp, hset]
  · simp [hp, hset]
  · obtain ⟨h0, ⟨hx, hst, h1⟩ | ⟨hx, hst, h1⟩⟩ := hset
    · simp [hp, hx, hst, h0, h1]
    · simp [hp, hx, hst]

/-! ## a saga that is given up -/

/-- one tick of the retry job: its query, and the transaction of the one saga it finds -/
def tickAfter (ms tick : Nat) (outboxId : Char) : List OrderAction :=
  [.wait ms, .findStuck (.stored _), .retry tick (.sample outboxId) (.stored _)]

def oneOrder : OrderAction :=
  .create (.sample 'a') ⟨.sample '1', [.sample '2'], .sample '3'⟩
    ⟨"user", "user@shop", "corr", [⟨"p", 1⟩]⟩

/-- no reply ever comes; the fourth tick finds three retries made -/
def noReply : List OrderAction :=
  oneOrder :: (tickAfter 30000 0 'b' ++ tickAfter 60000 1 'c' ++ tickAfter 120000 2 'd' ++
    tickAfter 240000 3 'e')

theorem agree_iff_created :
    let w := run OrderSystem.step (OrderSystem.init 0) [oneOrder]
    let s := { Saga.create 0 (Uuid.sample '1').val "corr" with id := (Uuid.sample '3').val }
    let o : OrderRow := ⟨(Uuid.sample '1').val, "user", "user@shop", .pending, 0, 0⟩
    Agree w.db s o ↔ o.id ∉ emits OrderSystem.step exhausts (OrderSystem.init 0) [oneOrder] :=
  agree_iff 0 [oneOrder] _ (by decide +kernel) _ (by decide +kernel) rfl

/-- **A saga that is given up is FAILED while its order stays PENDING without an event.** -/
theorem agree_fails : ¬ ∀ (now : Nat) (as : List OrderAction),
    ∀ s ∈ (run OrderSystem.step (OrderSystem.init now) as).db.sagas,
    ∀ o ∈ (run OrderSystem.step (OrderSystem.init now) as).db.orders, o.id = s.orderId →
      Agree (run OrderSystem.step (OrderSystem.init now) as).db s o := by
  intro h
  have hno : ¬ ∀ s ∈ (run OrderSystem.step (OrderSystem.init 0) noReply).db.sagas,
      ∀ o ∈ (run OrderSystem.step (OrderSystem.init 0) noReply).db.orders, o.id = s.orderId →
        Agree (run OrderSystem.step (OrderSystem.init 0) noReply).db s o := by
    decide +kernel
  exact hno (h 0 noReply)

end Shop
