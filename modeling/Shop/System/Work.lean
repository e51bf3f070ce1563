import Shop.Lib.Rest
import Shop.Order.Accounting
import Shop.Order.Retry
import Shop.System.Joint

/-!
# The work that the shop has left

What the shop does by itself are the turns of its jobs: a relay handles a row of its outbox, whether
the broker takes the message or not, a consumer finishes a message, the retry job retries a saga.
In between the users change the catalogue and the wallets, and place orders, and time passes.  In a
turn nothing is published or delivered twice.

* `Turn`, `World.turn`     the turns, each a few actions of `World.step`;
* `World.moves w t`        the turn does something;
* `World.work w`           what is left to do: the steps and the retries that the running sagas have
                           left, the rows to be published, and the messages to be handled;
* `TurnStep`, `turn_step`  a turn leaves what there is to do, opens an order, or uses up work;
* `moves_bounded`          an order causes at most `orderWork` turns that do something.
-/

set_option linter.unusedSectionVars false

namespace Shop
open Lib

/-! ## turns -/

/-- nothing that is published, delivered or retried -/
def Action.isAside : Action → Bool
  | .order (.reply _ _ _) | .order (.retry _ _ _) => false
  | .order _ => true
  | .publish _ _ | .markPublished _ _ | .markFailed _ _ _ | .deliver _ _ _ => false
  | _ => true

inductive Turn where
  | relay (service : Service) (row : Nat) (error : Option String)
  | consume (index : Nat) (ids : DeliveryIds)
  | retry (tick : Nat) (outboxId : Uuid) (rows : RowOrder OrderItemRow)
  | aside (a : { a : Action // a.isAside = true })

namespace Turn

def actions : Turn → List Action
  | .relay service row none => [.publish service row, .markPublished service row]
  | .relay service row (some error) => [.markFailed service row error]
  | .consume index ids => [.deliver index false ids]
  | .retry tick outboxId rows => [.order (.retry tick outboxId rows)]
  | .aside a => [a.val]

/-- an order is placed -/
def opens : Turn → Bool
  | .aside ⟨.order (.create _ _ _), _⟩ => true
  | _ => false

end Turn

namespace World

def turn (w : World) (t : Turn) : World := run World.step w t.actions

def moves (w : World) : Turn → Bool
  | .relay service row _ => ((w.outbox service)[row]?).any (OutboxRow.due w.clock)
  | .consume index _ => decide (index < w.inflight.length)
  | .retry tick outboxId rows => (underLock w.orders (.retry tick outboxId rows)).isSome
  | .aside _ => false

/-- a run of turns is a run -/
theorem run_turn (w : World) (ts : List Turn) :
    run World.turn w ts = run World.step w (ts.flatMap Turn.actions) := by
  induction ts generalizing w with
  | nil => rfl
  | cons t ts ih =>
    rw [run_cons, ih, List.flatMap_cons, run_append]
    rfl

end World

/-! ## work -/

/-- a delivered command can cause a reply, and that one has to be published and delivered -/
def Message.work (m : Message) : Nat :=
  if m.topic ∈ Topic.commands then OutboxRow.maxRetries + 3 else 1

/-- the attempts that a row has left, and what its message causes -/
def OutboxRow.work (r : OutboxRow) : Nat :=
  if r.status = .pending then r.message.work + 1 + (OutboxRow.maxRetries - r.retryCount) else 0

/-- the work of a new row with a command -/
def commandWork : Nat := 2 * OutboxRow.maxRetries + 4

/-- the steps that a saga has to take at most -/
def SagaStep.left : SagaStep → Nat
  | .reserveStock => 3
  | .processPayment => 2
  | _ => 1

/-- a step sends at most one command, and so does a retry -/
def Saga.work (s : Saga) : Nat :=
  if s.status = .running then
    commandWork * s.currentStep.left +
      (commandWork + 1) * (Saga.MAX_RETRIES + 1 - s.retryCount)
  else 0

/-- the work of a new order: its saga and its first command -/
def orderWork : Nat :=
  commandWork * 3 + (commandWork + 1) * (Saga.MAX_RETRIES + 1) + commandWork

example : orderWork = 116 := rfl

namespace World

def work (w : World) : Nat :=
  total Saga.work w.orders.db.sagas + total OutboxRow.work w.orders.db.outbox +
    total OutboxRow.work w.products.outbox + total OutboxRow.work w.payments.outbox +
    total Message.work w.inflight

/-- the work that the orders have brought -/
def brought (w : World) : Nat := orderWork * w.orders.db.orders.length

end World

theorem Message.work_command {m : Message} (h : m.topic ∈ Topic.commands) :
    m.work = OutboxRow.maxRetries + 3 := if_pos h

theorem Message.work_pos (m : Message) : 0 < m.work := by
  unfold Message.work
  split
  · exact Nat.succ_pos _
  · exact Nat.one_pos

theorem Message.work_le (m : Message) : m.work ≤ OutboxRow.maxRetries + 3 := by
  unfold Message.work
  split
  · exact Nat.le_refl _
  · exact Nat.le_add_left 1 _

theorem OutboxRow.work_le (r : OutboxRow) : r.work ≤ r.message.work + 1 + OutboxRow.maxRetries := by
  unfold OutboxRow.work
  split
  · exact Nat.add_le_add_left (Nat.sub_le _ _) _
  · exact Nat.zero_le _

theorem OutboxRow.work_le_command (r : OutboxRow) : r.work ≤ commandWork := by
  have hrow := r.work_le
  have hmessage := r.message.work_le
  unfold commandWork
  omega

theorem OutboxRow.work_pending {r : OutboxRow} (h : r.status = .pending) :
    r.work = r.message.work + 1 + (OutboxRow.maxRetries - r.retryCount) := if_pos h

/-! ## what a saga's transitions cost -/

theorem Saga.work_running {s : Saga} (h : s.status = .running) :
    s.work = commandWork * s.currentStep.left +
      (commandWork + 1) * (Saga.MAX_RETRIES + 1 - s.retryCount) := if_pos h

theorem Saga.work_fail (s : Saga) (reason : String) : (s.fail reason).work = 0 := rfl

theorem SagaStep.left_pos (step : SagaStep) : 0 < step.left := by
  cases step <;> exact Nat.succ_pos _

/-- a saga that goes on has a step less to take, and sends one message -/
theorem Fires.spends {g : RowDefaults} {q : RowOrder OrderItemRow} {db : OrderDb} {ev : ReplyEvent}
    {s s' : Saga} {o o' : OrderRow} {t : Topic} {p : Payload} (hf : Fires g q db ev s s' o o' t p)
    (hrun : s.status = .running) (r : OutboxRow) : s'.work + r.work ≤ s.work := by
  have hrow := r.work_le_command
  rw [Saga.work_running hrun]
  cases hf with
  | stockReserved e _ _ hs =>
    rw [Saga.work_running rfl, hs]
    show commandWork * 2 + (commandWork + 1) * (Saga.MAX_RETRIES + 1 - s.retryCount) + _ ≤
      commandWork * 3 + _
    omega
  | stockReservationFailed e _ _ hs =>
    rw [Saga.work_fail, hs]
    show _ ≤ commandWork * 3 + _
    omega
  | paymentProcessed e _ _ hs =>
    rw [hs]
    show 0 + _ ≤ commandWork * 2 + _
    omega
  | paymentFailed e _ _ hs =>
    rw [Saga.work_running rfl, hs]
    show commandWork * 1 + (commandWork + 1) * (Saga.MAX_RETRIES + 1 - s.retryCount) + _ ≤
      commandWork * 2 + _
    omega
  | stockReleased e _ _ hs =>
    rw [Saga.work_fail, hs]
    show _ ≤ commandWork * 1 + _
    omega

/-- a retry costs an attempt, or is the last one -/
theorem Retries.spends {g : RowDefaults} {q : RowOrder OrderItemRow} {db : OrderDb} {s s' : Saga}
    {o : OrderRow} {out : List OutboxRow} (hr : Retries g q db s o s' out)
    (hrun : s.status = .running) : s'.work + total OutboxRow.work out + 1 ≤ s.work := by
  rw [Saga.work_running hrun]
  cases hr with
  | exhausted _ =>
    have hleft := s.currentStep.left_pos
    have hcommand : commandWork ≤ commandWork * s.currentStep.left :=
      Nat.le_mul_of_pos_right _ hleft
    have hpos : 0 < commandWork := Nat.succ_pos _
    rw [Saga.work_fail, total_nil]
    omega
  | @resent t p hlt _ =>
    have hrow := (OutboxRow.write g s.orderId t s.orderId p).work_le_command
    have hless : Saga.MAX_RETRIES + 1 - s.retryCount =
        (Saga.MAX_RETRIES + 1 - (s.retryCount + 1)) + 1 := by omega
    have hrun' : (s.scheduleRetry g.now).status = .running := hrun
    rw [Saga.work_running hrun', total_cons, total_nil, hless, Nat.mul_add, Nat.mul_one]
    show commandWork * s.currentStep.left +
      (commandWork + 1) * (Saga.MAX_RETRIES + 1 - (s.retryCount + 1)) + _ + 1 ≤ _
    omega

/-! ## what a turn does -/

/-- what the jobs look at is as it was, and time may have passed -/
structure Still (w w' : World) : Prop where
  orders : w'.orders.db = w.orders.db
  product : w'.outbox .product = w.outbox .product
  payment : w'.outbox .payment = w.outbox .payment
  inflight : w'.inflight = w.inflight
  clock : w.clock ≤ w'.clock

/-- a turn leaves everything as it is, opens an order, or does something and uses up work -/
inductive TurnStep (w : World) (t : Turn) (w' : World) : Bool → Prop where
  | still : Still w w' → TurnStep w t w' false
  | opened : t.opens = true → w'.work = w.work + orderWork →
      w'.orders.db.orders.length = w.orders.db.orders.length + 1 → TurnStep w t w' false
  | moved : w'.work + 1 ≤ w.work → w'.orders.db.orders.length = w.orders.db.orders.length →
      TurnStep w t w' true

namespace Still
variable {w w' w'' : World}

theorem refl (w : World) : Still w w := ⟨rfl, rfl, rfl, rfl, Nat.le_refl _⟩

theorem trans (h : Still w w') (h' : Still w' w'') : Still w w'' :=
  ⟨h'.orders.trans h.orders, h'.product.trans h.product, h'.payment.trans h.payment,
    h'.inflight.trans h.inflight, Nat.le_trans h.clock h'.clock⟩

theorem outbox (h : Still w w') (service : Service) : w'.outbox service = w.outbox service := by
  cases service with
  | order => exact congrArg OrderDb.outbox h.orders
  | product => exact h.product
  | payment => exact h.payment

theorem work (h : Still w w') : w'.work = w.work := by
  have hproduct : w'.products.outbox = w.products.outbox := h.product
  have hpayment : w'.payments.outbox = w.payments.outbox := h.payment
  simp only [World.work, h.orders, hproduct, hpayment, h.inflight]

end Still

/-! ## the relay -/

theorem OutboxRow.due_iff {now : Nat} {r : OutboxRow} :
    r.due now = true ↔ r.status = .pending ∧ r.scheduledAt ≤ now := by
  simp [OutboxRow.due]

theorem OutboxRow.work_markPublished (now : Nat) (r : OutboxRow) : (r.markPublished now).work = 0 :=
  rfl

/-- an attempt that fails is one less, or was the last -/
theorem OutboxRow.work_markFailed {r : OutboxRow} (h : r.status = .pending) (now : Nat)
    (error : String) : (r.markFailed now error).work + 1 ≤ r.work := by
  rw [OutboxRow.work_pending h]
  by_cases hlast : OutboxRow.maxRetries ≤ r.retryCount + 1
  · have hst : (r.markFailed now error).status = .failed := if_pos hlast
    have hwork : (r.markFailed now error).work = 0 := if_neg (by rw [hst]; exact nofun)
    omega
  · have hst : (r.markFailed now error).status = .pending := if_neg hlast
    rw [OutboxRow.work_pending hst]
    show r.message.work + 1 + (OutboxRow.maxRetries - (r.retryCount + 1)) + 1 ≤ _
    omega

theorem work_setRow {w : World} {service : Service} {row : Nat} {r : OutboxRow}
    (h : (w.outbox service)[row]? = some r) (f : OutboxRow → OutboxRow) :
    (w.setRow service row f).work + r.work = w.work + (f r).work := by
  have hrow := total_modify (f := OutboxRow.work) h f
  cases service <;> simp only [World.work, World.setRow, World.outbox] at hrow ⊢ <;> omega

theorem setRow_orders (w : World) (service : Service) (row : Nat) (f : OutboxRow → OutboxRow) :
    (w.setRow service row f).orders.db.orders = w.orders.db.orders := by
  cases service <;> rfl

/-- a row that is not due is left alone -/
theorem relay_idle {w : World} {service : Service} {row : Nat}
    (h : ∀ r, (w.outbox service)[row]? = some r → r.due w.clock = false) (error : Option String) :
    w.turn (.relay service row error) = w := by
  have hpublish : w.step (.publish service row) = w := by
    cases hr : (w.outbox service)[row]? with
    | none => simp only [World.step, hr]
    | some r => simp only [World.step, hr, h r hr, Bool.false_eq_true, if_false]
  cases error with
  | none =>
    show (w.step (.publish service row)).step (.markPublished service row) = w
    rw [hpublish]
    cases hr : (w.outbox service)[row]? with
    | none => simp only [World.step, hr]
    | some r => simp only [World.step, hr, h r hr, Bool.false_eq_true, false_and, if_false]
  | some error =>
    show w.step (.markFailed service row error) = w
    cases hr : (w.outbox service)[row]? with
    | none => simp only [World.step, hr]
    | some r => simp only [World.step, hr, h r hr, Bool.false_eq_true, if_false]

theorem turn_relay (w : World) (service : Service) (row : Nat) (error : Option String) :
    TurnStep w (.relay service row error) (w.turn (.relay service row error))
      (w.moves (.relay service row error)) := by
  cases hm : w.moves (.relay service row error) with
  | false =>
    rw [relay_idle (fun r hr => by simpa [World.moves, hr] using hm)]
    exact .still (.refl w)
  | true =>
    obtain ⟨r, hr, hdue⟩ : ∃ r, (w.outbox service)[row]? = some r ∧ r.due w.clock = true := by
      simpa [World.moves, Option.any_eq_true] using hm
    have hpending := (OutboxRow.due_iff.mp hdue).1
    have hwork := OutboxRow.work_pending hpending
    cases error with
    | some error =>
      have hturn : w.turn (.relay service row (some error)) =
          w.setRow service row (OutboxRow.markFailed w.clock error) := by
        simp only [World.turn, Turn.actions, run_cons, run_nil, World.step, hr, if_pos hdue]
      have hset := work_setRow hr (OutboxRow.markFailed w.clock error)
      have hless := OutboxRow.work_markFailed hpending w.clock error
      rw [hturn]
      exact .moved (by omega) (congrArg List.length (setRow_orders w service row _))
    | none =>
      let sent : World := { w with
        published := w.published ++ [r.message]
        inflight := w.inflight ++ [r.message] }
      have hsent : (sent.outbox service)[row]? = some r := by
        have hsame : sent.outbox service = w.outbox service := by cases service <;> rfl
        rw [hsame, hr]
      have hpublished : r.message ∈ sent.published := List.mem_append_right _ List.mem_cons_self
      have hturn : w.turn (.relay service row none) =
          sent.setRow service row (OutboxRow.markPublished w.clock) := by
        have hfirst : w.step (.publish service row) = sent := by
          simp only [World.step, hr, if_pos hdue]
          rfl
        have hsecond : sent.step (.markPublished service row) =
            sent.setRow service row (OutboxRow.markPublished w.clock) := by
          simp only [World.step, hsent]
          exact if_pos ⟨hdue, hpublished⟩
        show (w.step (.publish service row)).step (.markPublished service row) = _
        rw [hfirst, hsecond]
      have hset := work_setRow hsent (OutboxRow.markPublished w.clock)
      have hzero := r.work_markPublished w.clock
      have hflight : sent.work = w.work + r.message.work := by
        show _ + total Message.work (w.inflight ++ [r.message]) = _
        rw [total_concat, ← Nat.add_assoc]
        rfl
      rw [hturn]
      exact .moved (by omega) (congrArg List.length (setRow_orders sent service row _))

/-! ## a delivery -/

theorem reserve_one (g : RowDefaults) (db : ProductDb) (c : ReserveStockCommand) :
    ∃ out, (db.handleReserveStock g c).outbox = db.outbox ++ out ∧ out.length ≤ 1 := by
  unfold ProductDb.handleReserveStock
  split
  · exact ⟨_, rfl, Nat.le_refl _⟩
  · exact ⟨_, rfl, Nat.le_refl _⟩

theorem release_one (g : RowDefaults) (db : ProductDb) (c : ReleaseStockCommand) :
    ∃ out, (db.handleReleaseStock g c).outbox = db.outbox ++ out ∧ out.length ≤ 1 := by
  unfold ProductDb.handleReleaseStock
  split
  · exact ⟨_, rfl, Nat.le_refl _⟩
  · exact ⟨_, rfl, Nat.le_refl _⟩

theorem pay_one (g : RowDefaults) (ids : PaymentIds) (db : PaymentDb) (c : ProcessPaymentCommand) :
    ∃ out, (commit db (db.handleProcessPayment g ids c)).outbox = db.outbox ++ out ∧
      out.length ≤ 1 := by
  unfold PaymentDb.handleProcessPayment
  split
  · exact ⟨_, rfl, Nat.le_refl _⟩
  · cases insertPayment g.now ids db.payments ⟨c.orderId, c.userId, c.amount⟩ with
    | error e => exact ⟨[], (List.append_nil _).symm, Nat.zero_le _⟩
    | ok payments =>
      rw [bind_ok]
      split
      · exact ⟨_, rfl, Nat.le_refl _⟩
      · exact ⟨_, rfl, Nat.le_refl _⟩

/-- the messages of rows that were added -/
theorem messages_grown {t t' out : List OutboxRow} (h : t' = t ++ out) {m : Message}
    (hm : m ∈ messages out) : m ∈ messages t' := by
  rw [h, messages_append]
  exact List.mem_append_right _ hm

section
variable {w : World} {xs : List Execution} (h : Joint w xs)
include h

/-- what the participants send is a reply -/
theorem Joint.reply_work {m : Message}
    (hm : m ∈ messages (w.outbox .product) ∨ m ∈ messages (w.outbox .payment)) : m.work = 1 := by
  obtain ⟨t, p⟩ := m
  rcases hm with hm | hm
  · obtain ⟨r, hr, he⟩ := h.stock.replies _ hm
    cases h.stock.record r hr <;> cases he <;> rfl
  · obtain ⟨r, hr, he⟩ := h.payment.replies _ hm
    cases h.payment.record r hr <;> cases he <;> rfl

/-- the rows that a delivered command adds, one at most -/
theorem Joint.reply_rows {out : List OutboxRow} (hlen : out.length ≤ 1)
    (hout : ∀ m ∈ messages out,
      m ∈ messages (w.outbox .product) ∨ m ∈ messages (w.outbox .payment)) :
    total OutboxRow.work out + 1 ≤ OutboxRow.maxRetries + 3 := by
  have hrow : ∀ r ∈ out, r.work ≤ OutboxRow.maxRetries + 2 := by
    intro r hr
    have hmessage := h.reply_work (hout _ (List.mem_map_of_mem hr))
    have hle := r.work_le
    omega
  have hall := total_le hrow
  have hone := Nat.mul_le_mul_right (OutboxRow.maxRetries + 2) hlen
  omega

end

/-! ## the transactions of order-service -/

theorem Moved.orders_length {db db' : OrderDb} {s s' : Saga} {o o' : OrderRow}
    {out : List OutboxRow} (m : Moved db db' s s' o o' out) :
    db'.orders.length = db.orders.length := by
  have hids := congrArg List.length m.orderIds_eq
  rwa [List.length_map, List.length_map] at hids

theorem Moved.work {db db' : OrderDb} {s s' : Saga} {o o' : OrderRow} {out : List OutboxRow}
    (m : Moved db db' s s' o o' out) (h : WF db) :
    total Saga.work db'.sagas + total OutboxRow.work db'.outbox + s.work =
      total Saga.work db.sagas + total OutboxRow.work db.outbox + s'.work +
        total OutboxRow.work out := by
  have hsagas := total_updateBy (f := Saga.work) h.sagaIds m.saga_mem s'
  rw [m.sagas, m.outbox, total_append]
  omega

/-- a reply that is delivered moves its saga on, or does nothing -/
theorem reply_spends {w : OrderSystem} (h : WF w.db) (u : Uuid) (q : RowOrder OrderItemRow)
    (ev : ReplyEvent) :
    total Saga.work (w.step (.reply u q ev)).db.sagas +
        total OutboxRow.work (w.step (.reply u q ev)).db.outbox ≤
      total Saga.work w.db.sagas + total OutboxRow.work w.db.outbox ∧
    (w.step (.reply u q ev)).db.orders.length = w.db.orders.length := by
  have hs := order_step h (.reply u q ev)
  generalize (w.step (.reply u q ev)).db = db', gaveUp w (.reply u q ev) = gave at hs
  cases hs with
  | same => exact ⟨Nat.le_refl _, rfl⟩
  | @replied _ _ _ _ s s' o o' t p ho hf m =>
    have hrun := hf.running (h.phase _ m.saga_mem _ m.order_mem m.order_id)
    have hspends := hf.spends hrun (OutboxRow.write ⟨u, w.clock⟩ ev.orderId t ev.orderId p)
    have hwork := m.work h
    rw [total_cons, total_nil] at hwork
    exact ⟨by omega, m.orders_length⟩

/-- what a retry transaction locks is a running saga -/
theorem underLock_running {w : OrderSystem} {k : Nat} {u : Uuid} {q : RowOrder OrderItemRow}
    {p : Saga × Saga} (h : underLock w (.retry k u q) = some p) :
    p.2 ∈ w.db.sagas ∧ p.2.status = .running := by
  cases hk : w.ticks[k]? with
  | none => simp [underLock, hk] at h
  | some batch =>
    cases batch with
    | nil => simp [underLock, hk] at h
    | cons saga rest =>
      obtain ⟨s, hs, rfl⟩ : ∃ s, w.db.findSagaRunning saga.id = some s ∧ (saga, s) = p := by
        simpa [underLock, hk] using h
      obtain ⟨hmem, _, hrun⟩ := OrderDb.findSagaRunning_some hs
      exact ⟨hmem, hrun⟩

/-- a retry transaction that finds its saga running uses up work -/
theorem retry_spends {w : OrderSystem} (h : WF w.db) {k : Nat} {u : Uuid}
    {q : RowOrder OrderItemRow} (hm : (underLock w (.retry k u q)).isSome = true) :
    total Saga.work (w.step (.retry k u q)).db.sagas +
        total OutboxRow.work (w.step (.retry k u q)).db.outbox + 1 ≤
      total Saga.work w.db.sagas + total OutboxRow.work w.db.outbox ∧
    (w.step (.retry k u q)).db.orders.length = w.db.orders.length := by
  obtain ⟨saga, rest, hk, hfound⟩ : ∃ saga rest, w.ticks[k]? = some (saga :: rest) ∧
      w.db.findSagaRunning saga.id ≠ none := by
    cases hk : w.ticks[k]? with
    | none => simp [underLock, hk] at hm
    | some batch =>
      cases batch with
      | nil => simp [underLock, hk] at hm
      | cons saga rest =>
        refine ⟨saga, rest, rfl, fun hnone => ?_⟩
        simp [underLock, hk, hnone] at hm
  have hdb : (w.step (.retry k u q)).db = commit w.db (w.db.retrySaga ⟨u, w.clock⟩ q saga.id) := by
    simp only [OrderSystem.step, hk]
  rcases retrySaga_cases h ⟨u, w.clock⟩ q saga.id with
    ⟨hnone, _⟩ | ⟨db', s, s', o, out, hf, he, m, hr⟩
  · exact absurd hnone hfound
  · have hspends := hr.spends (OrderDb.findSagaRunning_some hf).2.2
    have hwork := m.work h
    rw [hdb, he]
    show total Saga.work db'.sagas + total OutboxRow.work db'.outbox + 1 ≤ _ ∧ _
    exact ⟨by omega, m.orders_length⟩

/-- one that does not leaves the tables alone -/
theorem retry_idle {w : OrderSystem} (h : WF w.db) {k : Nat} {u : Uuid} {q : RowOrder OrderItemRow}
    (hm : (underLock w (.retry k u q)).isSome = false) : (w.step (.retry k u q)).db = w.db := by
  cases hk : w.ticks[k]? with
  | none => simp only [OrderSystem.step, hk]
  | some batch =>
    cases batch with
    | nil => simp only [OrderSystem.step, hk]
    | cons saga rest =>
      have hnone : w.db.findSagaRunning saga.id = none := by
        simpa only [underLock, hk, Option.isSome_map, Option.isSome_eq_false_iff,
          Option.isNone_iff_eq_none] using hm
      simp only [OrderSystem.step, hk]
      rcases retrySaga_cases h ⟨u, w.clock⟩ q saga.id with ⟨_, he⟩ | ⟨_, _, _, _, _, hf, _⟩
      · exact congrArg (commit w.db) he
      · rw [hnone] at hf
        cases hf

/-- a new order -/
theorem create_spends {w : OrderSystem} (u : Uuid) (ids : NewIds) (input : CreateOrderInput) :
    (w.step (.create u ids input)).db = w.db ∨
    total Saga.work (w.step (.create u ids input)).db.sagas +
        total OutboxRow.work (w.step (.create u ids input)).db.outbox =
      total Saga.work w.db.sagas + total OutboxRow.work w.db.outbox + orderWork ∧
    (w.step (.create u ids input)).db.orders.length = w.db.orders.length + 1 := by
  have hdb : (w.step (.create u ids input)).db =
      commit w.db (w.db.createOrder ⟨u, w.clock⟩ ids input) := rfl
  rcases createOrder_cases ⟨u, w.clock⟩ ids w.db input with he | ⟨_, he⟩
  · left
    rw [hdb, he]
    rfl
  · right
    rw [hdb, he]
    constructor
    · show total Saga.work (w.db.sagas ++ [_]) + total OutboxRow.work (w.db.outbox ++ [_]) = _
      rw [total_concat, total_concat]
      show _ + (commandWork * 3 + (commandWork + 1) * (Saga.MAX_RETRIES + 1)) +
        (_ + commandWork) = _
      unfold orderWork
      omega
    · exact List.length_append

/-! ## the work of a changed world -/

section
variable (w : World)

theorem work_orders (o : OrderSystem) : ({ w with orders := o } : World).work +
      (total Saga.work w.orders.db.sagas + total OutboxRow.work w.orders.db.outbox) =
    w.work + (total Saga.work o.db.sagas + total OutboxRow.work o.db.outbox) := by
  simp only [World.work]
  omega

theorem work_products {db : ProductDb} {out : List OutboxRow}
    (h : db.outbox = w.products.outbox ++ out) :
    ({ w with products := db } : World).work = w.work + total OutboxRow.work out := by
  simp only [World.work, h, total_append]
  omega

theorem work_payments {db : PaymentDb} {out : List OutboxRow}
    (h : db.outbox = w.payments.outbox ++ out) :
    ({ w with payments := db } : World).work = w.work + total OutboxRow.work out := by
  simp only [World.work, h, total_append]
  omega

theorem work_taken {index : Nat} {m : Message} (h : w.inflight[index]? = some m) :
    ({ w with inflight := w.inflight.eraseIdx index } : World).work + m.work = w.work := by
  have herase := total_eraseIdx (f := Message.work) h
  simp only [World.work]
  omega

end

/-! ## every turn -/

theorem turn_consume {w : World} {xs : List Execution} (h : Joint w xs) (index : Nat)
    (ids : DeliveryIds) :
    TurnStep w (.consume index ids) (w.turn (.consume index ids))
      (w.moves (.consume index ids)) := by
  cases hm : w.inflight[index]? with
  | none =>
    have hidle : w.turn (.consume index ids) = w := by
      simp only [World.turn, Turn.actions, run_cons, run_nil, World.step, hm]
    have hmoves : w.moves (.consume index ids) = false :=
      decide_eq_false (Nat.not_lt.mpr (List.getElem?_eq_none_iff.mp hm))
    rw [hidle, hmoves]
    exact .still (.refl w)
  | some m =>
    have hmoves : w.moves (.consume index ids) = true :=
      decide_eq_true (List.getElem?_eq_some_iff.mp hm).1
    let taken : World := { w with inflight := w.inflight.eraseIdx index }
    have hturn : w.turn (.consume index ids) = taken.handle ids m := by
      simp only [World.turn, Turn.actions, run_cons, run_nil, World.step, hm, Bool.false_eq_true,
        if_false]
      rfl
    have htaken : taken.work + m.work = w.work := work_taken w hm
    have hpos := m.work_pos
    -- the replies are known from the books after the delivery
    have hafter : Joint (taken.handle ids m) (xs ++ executionOf w (taken.handle ids m) m) :=
      h.deliver (List.mem_of_getElem? hm) (fun _ hx => List.mem_of_mem_eraseIdx hx)
        (mem_eraseIdx_of_ne hm) (handled taken ids m)
    have hhandled := handled taken ids m
    rw [hturn, hmoves]
    generalize taken.handle ids m = w' at hafter hhandled
    cases hhandled with
    | reserveStock c =>
      obtain ⟨out, hout, hlen⟩ := reserve_one ⟨ids.outbox, taken.clock⟩ taken.products c
      have hrows := hafter.reply_rows hlen fun x hx => Or.inl (messages_grown hout hx)
      have hmessage := Message.work_command (m := ⟨.reserveStock, .reserveStock c⟩)
        (by simp [Topic.commands])
      have hwork := work_products taken hout
      exact .moved (by omega) rfl
    | releaseStock c =>
      obtain ⟨out, hout, hlen⟩ := release_one ⟨ids.outbox, taken.clock⟩ taken.products c
      have hrows := hafter.reply_rows hlen fun x hx => Or.inl (messages_grown hout hx)
      have hmessage := Message.work_command (m := ⟨.releaseStock, .releaseStock c⟩)
        (by simp [Topic.commands])
      have hwork := work_products taken hout
      exact .moved (by omega) rfl
    | processPayment c =>
      obtain ⟨out, hout, hlen⟩ := pay_one ⟨ids.outbox, taken.clock⟩ ids.payment taken.payments c
      have hrows := hafter.reply_rows hlen fun x hx => Or.inr (messages_grown hout hx)
      have hmessage := Message.work_command (m := ⟨.processPayment, .processPayment c⟩)
        (by simp [Topic.commands])
      have hwork := work_payments taken hout
      exact .moved (by omega) rfl
    | reply _ ev hev =>
      have hwf : WF taken.orders.db := h.order.wf
      obtain ⟨hless, hlength⟩ := reply_spends hwf ids.outbox ids.rows ev
      have hwork := work_orders taken (taken.orders.step (.reply ids.outbox ids.rows ev))
      exact .moved (by omega) hlength
    | ignored _ _ _ => exact .moved (by omega) rfl

theorem turn_retry {w : World} (h : WF w.orders.db) (k : Nat) (u : Uuid)
    (q : RowOrder OrderItemRow) :
    TurnStep w (.retry k u q) (w.turn (.retry k u q)) (w.moves (.retry k u q)) := by
  have hturn : w.turn (.retry k u q) = { w with orders := w.orders.step (.retry k u q) } := rfl
  have hclock : (w.orders.step (.retry k u q)).clock = w.orders.clock := by
    simp only [OrderSystem.step]
    split <;> rfl
  rw [hturn]
  cases hm : w.moves (.retry k u q) with
  | false => exact .still ⟨retry_idle h hm, rfl, rfl, rfl, Nat.le_of_eq hclock.symm⟩
  | true =>
    obtain ⟨hless, hlength⟩ := retry_spends h hm
    have hwork := work_orders w (w.orders.step (.retry k u q))
    exact .moved (by omega) hlength

theorem turn_aside (w : World) (a : { a : Action // a.isAside = true }) :
    TurnStep w (.aside a) (w.turn (.aside a)) false := by
  obtain ⟨a, ha⟩ := a
  have hcatalogue : ∀ {db : ProductDb}, CatalogueChange w.products db →
      TurnStep w (.aside ⟨a, ha⟩) { w with products := db } false := fun hc =>
    .still ⟨rfl, hc.outbox, rfl, rfl, Nat.le_refl _⟩
  cases a with
  | order b =>
    cases b with
    | wait ms => exact .still ⟨rfl, rfl, rfl, rfl, Nat.le_add_right _ _⟩
    | create u ids input =>
      have hturn : w.turn (.aside ⟨.order (.create u ids input), ha⟩) =
          { w with orders := w.orders.step (.create u ids input) } := rfl
      rw [hturn]
      rcases create_spends u ids input with hdb | ⟨hmore, hlength⟩
      · exact .still ⟨hdb, rfl, rfl, rfl, Nat.le_refl _⟩
      · have hwork := work_orders w (w.orders.step (.create u ids input))
        exact .opened rfl (by omega) hlength
    | reply u q ev => cases ha
    | findStuck q => exact .still ⟨rfl, rfl, rfl, rfl, Nat.le_refl _⟩
    | retry k u q => cases ha
    | skipLocked k =>
      have hsame : (w.orders.step (.skipLocked k)).db = w.orders.db ∧
          (w.orders.step (.skipLocked k)).clock = w.orders.clock := by
        simp only [OrderSystem.step]
        split <;> exact ⟨rfl, rfl⟩
      exact .still ⟨hsame.1, rfl, rfl, rfl, Nat.le_of_eq hsame.2.symm⟩
  | publish service row => cases ha
  | markPublished service row => cases ha
  | markFailed service row error => cases ha
  | deliver index again ids => cases ha
  | createProduct id input => exact hcatalogue (create_change ⟨id, w.clock⟩ w.products input)
  | updateProduct id input => exact hcatalogue (update_change w.products id input)
  | removeProduct id => exact hcatalogue (remove_change w.products id)
  | reserveProducts items => exact hcatalogue (reserveStock_change w.products items)
  | userRegistered walletId initialBalance userId =>
    obtain ⟨t, ht⟩ := registered_frame w.payments walletId initialBalance userId
    refine .still ⟨rfl, rfl, ?_, rfl, Nat.le_refl _⟩
    show (commit w.payments (w.payments.handleUserRegistered walletId initialBalance userId)).outbox
      = _
    rw [ht]
    rfl
  | topUp walletId userId amount =>
    obtain ⟨t, ht⟩ := topUp_frame w.payments walletId userId amount
    refine .still ⟨rfl, rfl, ?_, rfl, Nat.le_refl _⟩
    show (commit w.payments (w.payments.topUp walletId userId amount)).outbox = _
    rw [ht]
    rfl

/-- **Every turn does one of these things.** -/
theorem turn_step {w : World} {xs : List Execution} (h : Joint w xs) (t : Turn) :
    TurnStep w t (w.turn t) (w.moves t) := by
  cases t with
  | relay service row error => exact turn_relay w service row error
  | consume index ids => exact turn_consume h index ids
  | retry k u q => exact turn_retry h.order.wf k u q
  | aside a => exact turn_aside w a

/-! ## how many turns do something -/

/-- a state that the jobs can reach -/
def World.Known (w : World) : Prop := ∃ xs, Joint w xs

theorem World.Known.run {w : World} (h : w.Known) (as : List Action) :
    (run World.step w as).Known :=
  invariant_run (I := World.Known) World.step (fun w a ⟨_, hj⟩ => ⟨_, joint_step w _ a hj⟩) w as h

theorem World.known_run (now : Nat) (as : List Action) :
    (run World.step (World.init now) as).Known := ⟨_, joint_run now as⟩

theorem TurnStep.spends {w w' : World} {t : Turn} {b : Bool} (h : TurnStep w t w' b) :
    w'.work + b.toNat + w.brought ≤ w.work + w'.brought := by
  unfold World.brought
  cases h with
  | still h =>
    rw [h.work, h.orders]
    exact Nat.le_refl _
  | opened _ hwork hlength =>
    rw [hwork, hlength, Nat.mul_succ, Bool.toNat_false]
    omega
  | moved hwork hlength =>
    rw [hlength, Bool.toNat_true]
    omega

/-- **The turns that do something use up work**, and only orders bring new work. -/
theorem turns_spend : Spends World.turn World.Known World.work World.brought World.moves where
  inv := fun _ t h => h.run t.actions
  spend := fun _ t ⟨_, hj⟩ => (turn_step hj t).spends

/-- **An order causes at most `orderWork` turns that do something.**  That is 116, with the default of
five attempts at a row of the outbox (`OutboxRow.maxRetries`).  However the jobs take turns,
whatever the broker refuses, and whatever the users do in between: a shop in which nothing is sent
or delivered twice goes through no more such turns than that for each order. -/
theorem moves_bounded (now : Nat) (ts : List Turn) :
    (doing World.turn World.moves (World.init now) ts).length ≤
      orderWork * (run World.turn (World.init now) ts).orders.db.orders.length := by
  have hrun := turns_spend.run ⟨_, Joint.init now⟩ ts
  have hwork : (World.init now).work = 0 := rfl
  have hbrought : (run World.turn (World.init now) ts).brought =
      orderWork * (run World.turn (World.init now) ts).orders.db.orders.length := rfl
  omega

end Shop
