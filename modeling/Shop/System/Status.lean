import Shop.System.Compensation
import Shop.Lib.Change

/-!
# The status of an order, as a client reads it

The orchestrator confirms an order when its stock is reserved, one step before it learns of the
payment, and cancels it from there when the payment is refused.

* `statusChanges w a`   the order statuses that an action changes;
* `Lifecycle P K xs s o`   the changes `xs` so far account for the status of the order `o`, and the
                        participants have recorded the reason of the last one;
* `status_lifecycle`    an order of a completed saga is confirmed and paid; a status changes at
                        most twice, and the second time because the payment was refused.

`status_fails` reads CONFIRMED before there is a payment, and sees a status change twice.
-/

set_option linter.unusedSectionVars false

namespace Shop
open Lib

def statusChanges (w : World) (a : Action) : List (Change String OrderStatus) :=
  changes OrderRow.id OrderRow.status w.orders.db.orders (w.step a).orders.db.orders

def Lifecycle (P K : List IdempotencyKey) (xs : List (Change String OrderStatus)) (s : Saga)
    (o : OrderRow) : Prop :=
  match o.status with
  | .pending => changesOf o.id xs = []
  | .confirmed => changesOf o.id xs = [⟨o.id, .pending, .confirmed⟩] ∧
      Recorded P s.id .stockReserved
  | .cancelled =>
      (changesOf o.id xs = [⟨o.id, .pending, .cancelled⟩] ∧
        Recorded P s.id .stockReservationFailed) ∨
      (changesOf o.id xs = [⟨o.id, .pending, .confirmed⟩, ⟨o.id, .confirmed, .cancelled⟩] ∧
        Recorded K (payId s.id) .paymentFailed)
  | .completed => False

structure History (db : OrderDb) (P K : List IdempotencyKey)
    (xs : List (Change String OrderStatus)) : Prop where
  known : ∀ c ∈ xs, c.key ∈ db.orders.map OrderRow.id
  order : ∀ s ∈ db.sagas, ∀ o ∈ db.orders, o.id = s.orderId → Lifecycle P K xs s o

/-! ## one step of the orders -/

theorem Lifecycle.mono {P P' K K' : List IdempotencyKey} {xs : List (Change String OrderStatus)}
    {s : Saga} {o : OrderRow} (h : Lifecycle P K xs s o) (hP : ∀ r ∈ P, r ∈ P')
    (hK : ∀ r ∈ K, r ∈ K') : Lifecycle P' K' xs s o := by
  unfold Lifecycle at h ⊢
  cases hst : o.status <;> rw [hst] at h
  · exact h
  · exact h.imp_right fun hr => hr.mono hP
  · exact h.imp (And.imp_right fun hr => hr.mono hP) (And.imp_right fun hr => hr.mono hK)
  · exact h

theorem History.mono {db : OrderDb} {P P' K K' : List IdempotencyKey}
    {xs : List (Change String OrderStatus)} (h : History db P K xs) (hP : ∀ r ∈ P, r ∈ P')
    (hK : ∀ r ∈ K, r ∈ K') : History db P' K' xs where
  known := h.known
  order := fun s hs o ho hos => (h.order s hs o ho hos).mono hP hK

/-- what a saga's own moves do not touch: its id -/
theorem Lifecycle.saga {P K : List IdempotencyKey} {xs : List (Change String OrderStatus)}
    {s s' : Saga} {o : OrderRow} (h : Lifecycle P K xs s o) (hid : s'.id = s.id) :
    Lifecycle P K xs s' o := by
  unfold Lifecycle at h ⊢
  rw [hid]
  exact h

/-- changes of other orders do not count -/
theorem Lifecycle.other {P K : List IdempotencyKey} {xs ys : List (Change String OrderStatus)}
    {s : Saga} {o : OrderRow} (h : Lifecycle P K xs s o) (hys : ∀ c ∈ ys, c.key ≠ o.id) :
    Lifecycle P K (xs ++ ys) s o := by
  have he : changesOf o.id (xs ++ ys) = changesOf o.id xs := by
    rw [changesOf_append, changesOf_of_ne hys, List.append_nil]
  unfold Lifecycle at h ⊢
  rw [he]
  exact h

section
variable {db db' : OrderDb} {P K : List IdempotencyKey} {xs : List (Change String OrderStatus)}
  (h : History db P K xs) (hwf : WF db)
include h hwf

theorem History.same (horders : db'.orders = db.orders) (hsagas : db'.sagas = db.sagas) :
    History db' P K (xs ++ changes OrderRow.id OrderRow.status db.orders db'.orders) := by
  rw [horders, changes_self hwf.orderIds, List.append_nil]
  constructor
  · rw [horders]
    exact h.known
  · rw [horders, hsagas]
    exact h.order

/-- a new order is pending, and its id is in no change so far -/
theorem History.created {g : RowDefaults} {ids : NewIds} {input : CreateOrderInput}
    (hf : ids.fresh db input = true) : History (created g ids db input) P K
      (xs ++ changes OrderRow.id OrderRow.status db.orders
        (Shop.created g ids db input).orders) := by
  obtain ⟨hnew, _⟩ := fresh_iff.mp hf
  have hnone : changes OrderRow.id OrderRow.status db.orders
      (Shop.created g ids db input).orders = [] := changes_append hwf.orderIds _
  rw [hnone, List.append_nil]
  constructor
  · intro c hc
    obtain ⟨o, ho, he⟩ := List.mem_map.mp (h.known c hc)
    exact List.mem_map.mpr ⟨o, mem_created_orders.mpr (Or.inl ho), he⟩
  · intro s hs o ho hos
    rcases created_pair hwf hf hs ho hos with ⟨hs, ho⟩ | ⟨rfl, rfl⟩
    · exact h.order s hs o ho hos
    · apply changesOf_of_ne
      intro c hc he
      have hk := h.known c hc
      rw [he] at hk
      exact hnew hk

/-- a move changes the status of its own order at most -/
theorem History.moved {s s' : Saga} {o o' : OrderRow} {out : List OutboxRow}
    (m : Moved db db' s s' o o' out)
    (hl : ∀ ys, ys = (if o'.status = o.status then [] else [⟨o.id, o.status, o'.status⟩]) →
      Lifecycle P K (xs ++ ys) s' o') :
    History db' P K (xs ++ changes OrderRow.id OrderRow.status db.orders db'.orders) := by
  have hch : changes OrderRow.id OrderRow.status db.orders db'.orders
      = if o'.status = o.status then [] else [⟨o.id, o.status, o'.status⟩] := by
    rw [m.orders]
    exact changes_updateBy hwf.orderIds m.order_mem m.order_same.1
  have hown : ∀ c ∈ changes OrderRow.id OrderRow.status db.orders db'.orders, c.key = o.id := by
    intro c hc
    rw [hch] at hc
    split at hc
    · exact absurd hc List.not_mem_nil
    · rw [List.mem_singleton.mp hc]
  constructor
  · exact m.about _ h.known hown
  · intro x hx y hy hxy
    rcases m.mem_pair hwf hx hy hxy with ⟨rfl, rfl⟩ | ⟨hx, hy, hyo⟩
    · exact hl _ hch
    · exact (h.order x hx y hy hxy).other fun c hc e => hyo (e.symm.trans (hown c hc))

end

/-- the five replies, each with the change of status that it makes -/
theorem Fires.lifecycle {g : RowDefaults} {q : RowOrder OrderItemRow} {db : OrderDb}
    {ev : ReplyEvent} {s s' : Saga} {o o' : OrderRow} {t : Topic} {p : Payload}
    (hf : Fires g q db ev s s' o o' t p) {M : List Message} {P K : List IdempotencyKey}
    {xs ys : List (Change String OrderStatus)} (hp : Phase s o.status) (hst : Stage M P K s)
    (hev : Answered P K s ev) (hl : Lifecycle P K xs s o)
    (hys : ys = if o'.status = o.status then [] else [⟨o.id, o.status, o'.status⟩]) :
    Lifecycle P K (xs ++ ys) s' o' := by
  cases hf with
  | stockReserved e _ _ hs =>
    rw [Phase, hs] at hp
    rw [Lifecycle, hp.2.2] at hl
    rw [hp.2.2, if_neg (by simp)] at hys
    show changesOf o.id (xs ++ ys) = _ ∧ Recorded P s.id .stockReserved
    rw [changesOf_append, hl, hys, changesOf_own]
    exact ⟨rfl, hev⟩
  | stockReservationFailed e _ _ hs =>
    rw [Phase, hs] at hp
    rw [Lifecycle, hp.2.2] at hl
    rw [hp.2.2, if_neg (by simp)] at hys
    show (changesOf o.id (xs ++ ys) = _ ∧ Recorded P s.id .stockReservationFailed) ∨ _
    rw [changesOf_append, hl, hys, changesOf_own]
    exact Or.inl ⟨rfl, hev⟩
  | paymentProcessed e _ _ hs =>
    rw [if_pos rfl] at hys
    rw [hys, List.append_nil]
    exact hl.saga rfl
  | paymentFailed e _ _ hs =>
    rw [if_pos rfl] at hys
    rw [hys, List.append_nil]
    exact hl.saga rfl
  | stockReleased e _ _ hs =>
    rw [Phase, hs] at hp
    rw [Stage, hs] at hst
    rw [Lifecycle, hp.2.2] at hl
    rw [hp.2.2, if_neg (by simp)] at hys
    show _ ∨ (changesOf o.id (xs ++ ys) = _ ∧ Recorded K (payId s.id) .paymentFailed)
    rw [changesOf_append, hl.1, hys, changesOf_own]
    exact Or.inr ⟨rfl, hst.2.1⟩

/-! ## runs -/

theorem History.step {w : World} {xs : List (Change String OrderStatus)} {gs : List String}
    {ys : List Execution} (hj : Joint w ys)
    (h : History w.orders.db w.products.idempotencyKeys w.payments.idempotencyKeys xs)
    {db' : OrderDb} (hs : OrdersStep w db' gs) :
    History db' w.products.idempotencyKeys w.payments.idempotencyKeys
      (xs ++ changes OrderRow.id OrderRow.status w.orders.db.orders db'.orders) := by
  cases hs with
  | same horders hsagas _ => exact h.same hj.order.wf horders hsagas
  | created g ids input hf => exact h.created hj.order.wf hf
  | @replied _ g q ev s s' o o' t p hev hf m =>
    apply h.moved hj.order.wf m
    intro ys hys
    exact hf.lifecycle (hj.order.wf.phase s m.saga_mem o m.order_mem m.order_id)
      (hj.order.stage s m.saga_mem) hev (h.order s m.saga_mem o m.order_mem m.order_id) hys
  | @retried _ g q s s' o out _ _ _ m _ =>
    apply h.moved hj.order.wf m
    intro ys hys
    rw [if_pos rfl] at hys
    rw [hys, List.append_nil]
    exact (h.order s m.saga_mem o m.order_mem m.order_id).saga m.saga_keep.1

theorem history_run (now : Nat) (as : List Action) :
    History (run World.step (World.init now) as).orders.db
      (run World.step (World.init now) as).products.idempotencyKeys
      (run World.step (World.init now) as).payments.idempotencyKeys
      (emits World.step statusChanges (World.init now) as) := by
  refine invariant_joint (I := fun w xs =>
      History w.orders.db w.products.idempotencyKeys w.payments.idempotencyKeys xs) statusChanges
    (fun w ys xs a hj h => ?_) (Joint.init now) ⟨fun _ h => absurd h List.not_mem_nil,
      fun _ h => absurd h List.not_mem_nil⟩ as
  have hp := hj.progress a
  exact (h.step hj hp.orders).mono hp.stock hp.payments

/-- a cancelled order has no completed payment -/
theorem Joint.cancelled_uncharged {w : World} {ys : List Execution} (hj : Joint w ys)
    {xs : List (Change String OrderStatus)} {s : Saga} (hs : s ∈ w.orders.db.sagas) {o : OrderRow}
    (hl : Lifecycle w.products.idempotencyKeys w.payments.idempotencyKeys xs s o)
    (hst : o.status = .cancelled) :
    ¬ Recorded w.payments.idempotencyKeys (payId s.id) .paymentProcessed := by
  intro hpaid
  rw [Lifecycle, hst] at hl
  rcases hl with ⟨_, hr⟩ | ⟨_, hr⟩
  · exact absurd (hr.topic_unique hj.stock.keys (hj.reserved_of_paid hs hpaid)) (by decide)
  · exact absurd (hr.topic_unique hj.payment.keys hpaid) (by decide)

/-- **The lifecycle of an order.**  An order of a completed saga is confirmed and has a completed
payment for its total.  Along every run the status changes from PENDING to CONFIRMED, once the stock
is reserved, or to CANCELLED, because it could not be, and once more at most: from CONFIRMED to
CANCELLED, because the payment was refused.  A cancelled order has no completed payment. -/
theorem status_lifecycle (now : Nat) (as : List Action) :
    let w := run World.step (World.init now) as
    let xs := emits World.step statusChanges (World.init now) as
    ∀ o ∈ w.orders.db.orders, ∃ s ∈ w.orders.db.sagas, s.orderId = o.id ∧
      (s.status = .completed → o.status = .confirmed ∧
        ∃ y ∈ w.payments.payments, y.orderId = o.id ∧ y.status = .completed ∧
          y.amount = o.total) ∧
      ((o.status = .pending ∧ changesOf o.id xs = []) ∨
        (o.status = .confirmed ∧ changesOf o.id xs = [⟨o.id, .pending, .confirmed⟩] ∧
          Recorded w.products.idempotencyKeys s.id .stockReserved) ∨
        (o.status = .cancelled ∧ changesOf o.id xs = [⟨o.id, .pending, .cancelled⟩] ∧
          Recorded w.products.idempotencyKeys s.id .stockReservationFailed) ∨
        (o.status = .cancelled ∧
          changesOf o.id xs = [⟨o.id, .pending, .confirmed⟩, ⟨o.id, .confirmed, .cancelled⟩] ∧
          Recorded w.payments.idempotencyKeys (payId s.id) .paymentFailed)) ∧
      (o.status = .cancelled → ∀ y ∈ w.payments.payments, y.orderId = o.id →
        y.status ≠ .completed) := by
  intro w xs o ho
  have hj : Joint w _ := joint_run now as
  obtain ⟨s, hs, hso⟩ := hj.order.wf.saga_of ho
  have hl := (history_run now as).order s hs o ho hso.symm
  have hp := hj.order.wf.phase s hs o ho hso.symm
  refine ⟨s, hs, hso, ?_, ?_, ?_⟩
  · intro hdone
    have hstep := (phase_iff hp).2.2.1.mp hdone
    have hst := hj.order.stage s hs
    rw [Stage, hstep] at hst
    rw [Phase, hstep] at hp
    obtain ⟨⟨y, hy, hyst, ha, _⟩, _⟩ := hj.paid_once hs ho hso.symm hst.2
    have hmem : y ∈ w.payments.payments.filter fun y => decide (y.orderId = s.orderId) := by
      rw [hy]
      exact List.mem_singleton.mpr rfl
    obtain ⟨hmem, hyo⟩ := List.mem_filter.mp hmem
    exact ⟨hp.2.2, y, hmem, (of_decide_eq_true hyo).trans hso, hyst, ha⟩
  · rw [Lifecycle] at hl
    cases hst : o.status <;> rw [hst] at hl
    · exact Or.inl ⟨rfl, hl⟩
    · exact Or.inr (Or.inl ⟨rfl, hl⟩)
    · exact Or.inr (Or.inr (hl.imp (fun h => ⟨rfl, h⟩) fun h => ⟨rfl, h⟩))
    · exact absurd hl id
  · intro hst y hy hyo
    exact hj.no_charge hs (hj.cancelled_uncharged hs hl hst) y hy (hyo.trans hso.symm)

/-! ## a confirmed order before its payment, and after it was refused -/

/-- two pens are reserved, and the payment command has not been sent -/
def reservedSale : List Action := oneSale 2 ++ send .order 0 'a' ++ send .product 0 'b'

/-- the same for a user whose wallet does not hold the price -/
def refusedPayment : List Action :=
  .userRegistered (.sample '6') 100 "user" :: (oneSale 2).tail ++ send .order 0 'a' ++
    send .product 0 'b' ++ send .order 1 'c' ++ send .payment 0 '0' ++ send .order 2 'd' ++
    send .product 1 'e'

/-- **A confirmed order need not be paid, and its status can change twice.** -/
theorem status_fails :
    (¬ ∀ (now : Nat) (as : List Action),
      ∀ o ∈ (run World.step (World.init now) as).orders.db.orders, o.status = .confirmed →
        ∃ y ∈ (run World.step (World.init now) as).payments.payments, y.orderId = o.id ∧
          y.status = .completed ∧ y.amount = o.total) ∧
    ¬ ∀ (now : Nat) (as : List Action),
      ∀ o ∈ (run World.step (World.init now) as).orders.db.orders,
        changesOf o.id (emits World.step statusChanges (World.init now) as)
          ∈ [[], [⟨o.id, .pending, .confirmed⟩], [⟨o.id, .pending, .cancelled⟩]] := by
  constructor
  · intro h
    exact absurd (h 0 reservedSale) (by decide +kernel)
  · intro h
    exact absurd (h 0 refusedPayment) (by decide +kernel)

end Shop
