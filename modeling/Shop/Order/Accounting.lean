import Shop.Order.Phases
import Shop.Shared.Outbox

/-!
# The commands of a saga: which are written, and how often

A saga enters RESERVE_STOCK, PROCESS_PAYMENT and RELEASE_STOCK with one command each, and every
retry writes the command of the step once more.

* `OrderAttempt`, `OrderSystem.attempt`   an action whose transaction commits or is rolled back;
* `Entry`, `entries db db'`          the sagas that a transaction brings to a step, with the rows
                                     that it writes for their orders;
* `stepsOf es id`                    the three steps, as the saga has entered them;
* `Standing db s o`                  the command of the step at which a saga is;
* `Account db es s o`                the rows, the steps and the retries of a saga add up;
* `resend_same`, `retry_accounting`  what that means for retries.
-/

set_option linter.unusedSectionVars false

namespace Shop
open Lib

/-! ## transactions that are rolled back -/

/-- an action whose transaction commits, or is rolled back because the database fails -/
inductive OrderAttempt where
  | commits (a : OrderAction)
  | rollsBack (a : OrderAction)

def OrderSystem.attempt (w : OrderSystem) : OrderAttempt → OrderSystem
  | .commits a => w.step a
  | .rollsBack a => { w.step a with db := w.db }

theorem attempt_db {w : OrderSystem} (h : WF w.db) (f : OrderAttempt) :
    DbStep w.db (w.attempt f).db := by
  cases f with
  | commits a => exact step_db h a
  | rollsBack a => exact .same

theorem getOrder_missing {db d : OrderDb} {q : RowOrder OrderItemRow} {id : String}
    (h : db.findOrder q id = none) (hd : d.orders = db.orders) :
    d.getOrder q id = .error (.orderNotFound id) := by
  have hnone : selectBy OrderRow.id id db.orders = none := Option.map_eq_none_iff.mp h
  unfold OrderDb.getOrder OrderDb.findOrder
  rw [hd, hnone]
  rfl

/-- an order that is missing makes its handlers throw, if they do anything at all -/
theorem handleReply_missing {db : OrderDb} {ev : ReplyEvent} {q : RowOrder OrderItemRow}
    (h : db.findOrder q ev.orderId = none) (g : RowDefaults) :
    commit db (db.handleReply g q ev) = db := by
  have hcancel : ∀ s reason, commit db (db.performCancellation g q s ev.orderId reason) = db := by
    intro s reason
    unfold OrderDb.performCancellation
    rw [getOrder_missing h rfl]
    rfl
  cases ev with
  | stockReserved e =>
    have hget : db.getOrder q e.orderId = _ := getOrder_missing h rfl
    show commit db (db.onStockReserved g q e) = db
    unfold OrderDb.onStockReserved
    cases db.loadSagaForStep e.orderId .reserveStock with
    | none => rfl
    | some s => simp only [hget]; rfl
  | stockReservationFailed e =>
    show commit db (db.onStockReservationFailed g q e) = db
    unfold OrderDb.onStockReservationFailed
    cases db.loadSagaForStep e.orderId .reserveStock with
    | none => rfl
    | some s => exact hcancel s e.reason
  | paymentProcessed e =>
    show commit db (db.onPaymentProcessed g q e) = db
    unfold OrderDb.onPaymentProcessed
    cases db.loadSagaForStep e.orderId .processPayment with
    | none => rfl
    | some s =>
      cases hadv : s.advance g.now with
      | error _ => simp only [hadv]; rfl
      | ok advanced =>
        have hget : (db.updateSaga advanced).getOrder q e.orderId = _ := getOrder_missing h rfl
        simp only [hadv, bind_ok, hget]
        rfl
  | paymentFailed e =>
    show commit db (db.onPaymentFailed g q e) = db
    unfold OrderDb.onPaymentFailed
    cases db.loadSagaForStep e.orderId .processPayment with
    | none => rfl
    | some s =>
      have hget : (db.updateSaga (s.startCompensation g.now e.reason)).getOrder q e.orderId = _ :=
        getOrder_missing h rfl
      simp only [hget]
      rfl
  | stockReleased e =>
    show commit db (db.onStockReleased g q e) = db
    unfold OrderDb.onStockReleased
    cases db.loadSagaForStep e.orderId .releaseStock with
    | none => rfl
    | some s => exact hcancel s _

/-- a retry of a saga whose order is missing throws, and its increment is rolled back -/
theorem retrySaga_missing {db : OrderDb} {id : String} {s : Saga} {q : RowOrder OrderItemRow}
    (hs : db.findSagaRunning id = some s) (hlt : s.retryCount < Saga.MAX_RETRIES)
    (h : db.findOrder q s.orderId = none) (g : RowDefaults) :
    commit db (db.retrySaga g q id) = db := by
  have hmax : ¬ s.hasExceededMaxRetries = true := by
    rw [Saga.hasExceededMaxRetries_iff]
    omega
  have hget : (db.updateSaga (s.scheduleRetry g.now)).getOrder q s.orderId = _ :=
    getOrder_missing h rfl
  unfold OrderDb.retrySaga
  simp only [hs, if_neg hmax, hget]
  rfl

/-! ## entering a step -/

/-- a saga that has come to a step, with the rows that were written for its order -/
structure Entry where
  saga : Saga
  rows : List OutboxRow
deriving DecidableEq, Repr

def stepIn (db : OrderDb) (id : String) : Option SagaStep :=
  (selectBy Saga.id id db.sagas).map Saga.currentStep

/-- the sagas that are new or at another step, with the rows that have been added for them -/
def entries (db db' : OrderDb) : List Entry :=
  (db'.sagas.filter fun s => decide (stepIn db s.id ≠ some s.currentStep)).map fun s =>
    ⟨s, (db'.outbox.drop db.outbox.length).filter fun r => decide (r.aggregateId = s.orderId)⟩

def entered (w : OrderSystem) (f : OrderAttempt) : List Entry := entries w.db (w.attempt f).db

/-- the steps that are entered with a command -/
def SagaStep.sends : SagaStep → Bool
  | .reserveStock => true
  | .processPayment => true
  | .releaseStock => true
  | _ => false

/-- the steps with a command, as the saga has entered them -/
def stepsOf (es : List Entry) (id : String) : List SagaStep :=
  ((es.filter fun e => decide (e.saga.id = id)).map fun e => e.saga.currentStep).filter
    SagaStep.sends

theorem stepsOf_append (es fs : List Entry) (id : String) :
    stepsOf (es ++ fs) id = stepsOf es id ++ stepsOf fs id := by
  unfold stepsOf
  rw [List.filter_append, List.map_append, List.filter_append]

theorem stepsOf_single (s : Saga) (rows : List OutboxRow) (id : String) :
    stepsOf [⟨s, rows⟩] id =
      if s.id = id ∧ s.currentStep.sends = true then [s.currentStep] else [] := by
  unfold stepsOf
  by_cases hid : s.id = id
  · by_cases hs : s.currentStep.sends = true <;> simp [hid, hs]
  · simp [hid]

section
variable {db db' : OrderDb} {s s' : Saga} {o o' : OrderRow} {out : List OutboxRow}

theorem stepIn_mem (hids : (db.sagas.map Saga.id).Nodup) (hs : s ∈ db.sagas) :
    stepIn db s.id = some s.currentStep := by
  unfold stepIn
  rw [selectBy_mem hids hs]
  rfl

theorem entries_same (h : WF db) : entries db db = [] := by
  unfold entries
  rw [List.map_eq_nil_iff, List.filter_eq_nil_iff]
  intro s hs hne
  exact of_decide_eq_true hne (stepIn_mem h.sagaIds hs)

/-- the one saga that is at another step -/
theorem entries_one (hids : (db'.sagas.map Saga.id).Nodup) (hs' : s' ∈ db'.sagas)
    (hstep : stepIn db s'.id ≠ some s'.currentStep)
    (hothers : ∀ x ∈ db'.sagas, x.id ≠ s'.id → stepIn db x.id = some x.currentStep)
    (hout : db'.outbox = db.outbox ++ out) (hown : ∀ r ∈ out, r.aggregateId = s'.orderId) :
    entries db db' = [⟨s', out⟩] := by
  have hone : (db'.sagas.filter fun s => decide (stepIn db s.id ≠ some s.currentStep)) = [s'] := by
    rw [← filter_key hids hs']
    apply List.filter_congr
    intro x hx
    by_cases he : x.id = s'.id
    · rw [key_inj hids hx hs' he, decide_eq_true hstep, decide_eq_true rfl]
    · rw [decide_eq_false he, decide_eq_false fun hne => hne (hothers x hx he)]
  have hrows : ((db'.outbox.drop db.outbox.length).filter fun r =>
      decide (r.aggregateId = s'.orderId)) = out := by
    rw [hout, List.drop_left]
    exact List.filter_eq_self.mpr fun r hr => decide_eq_true (hown r hr)
  unfold entries
  rw [hone, List.map_singleton, hrows]

theorem Moved.stepIn_other (m : Moved db db' s s' o o' out) (h : WF db) {x : Saga}
    (hx : x ∈ db'.sagas) (hne : x.id ≠ s'.id) : stepIn db x.id = some x.currentStep := by
  rcases m.mem_sagas.mp hx with rfl | ⟨hx, _⟩
  · exact absurd rfl hne
  · exact stepIn_mem h.sagaIds hx

theorem Moved.entries_step (m : Moved db db' s s' o o' out) (h : WF db)
    (hstep : s'.currentStep ≠ s.currentStep) (hown : ∀ r ∈ out, r.aggregateId = s.orderId) :
    entries db db' = [⟨s', out⟩] := by
  refine entries_one (m.sagaIds_eq ▸ h.sagaIds) (m.mem_sagas.mpr (Or.inl rfl)) ?_
    (fun x hx hne => m.stepIn_other h hx hne) m.outbox
    (fun r hr => (hown r hr).trans m.saga_keep.2.1.symm)
  rw [m.saga_keep.1, stepIn_mem h.sagaIds m.saga_mem]
  exact fun e => hstep (Option.some.inj e).symm

theorem Moved.entries_stay (m : Moved db db' s s' o o' out) (h : WF db)
    (hstep : s'.currentStep = s.currentStep) : entries db db' = [] := by
  unfold entries
  rw [List.map_eq_nil_iff, List.filter_eq_nil_iff]
  intro x hx hne
  have hne := of_decide_eq_true hne
  by_cases he : x.id = s'.id
  · obtain rfl := key_inj (m.sagaIds_eq ▸ h.sagaIds) hx (m.mem_sagas.mpr (Or.inl rfl)) he
    rw [m.saga_keep.1, stepIn_mem h.sagaIds m.saga_mem, hstep] at hne
    exact hne rfl
  · exact hne (m.stepIn_other h hx he)

theorem entries_created {g : RowDefaults} {ids : NewIds} {input : CreateOrderInput} (h : WF db)
    (hf : ids.fresh db input = true) : entries db (created g ids db input) =
      [⟨{ Saga.create g.now ids.order.val input.correlationId with id := ids.saga.val },
        [OutboxRow.write g ids.order.val .reserveStock ids.order.val (.reserveStock
          ⟨ids.saga.val, ids.order.val, input.correlationId, input.items⟩)]⟩] := by
  obtain ⟨_, hs, _⟩ := fresh_iff.mp hf
  have hnone : stepIn db ids.saga.val = none := by
    unfold stepIn
    rw [Option.map_eq_none_iff, selectBy_none]
    exact fun r hr e => hs (e ▸ List.mem_map_of_mem hr)
  refine entries_one (created_wf h hf).sagaIds (mem_created_sagas.mpr (Or.inr rfl)) ?_ ?_ rfl ?_
  · show stepIn db ids.saga.val ≠ _
    rw [hnone]
    exact nofun
  · intro x hx hne
    rcases mem_created_sagas.mp hx with hx | rfl
    · exact stepIn_mem h.sagaIds hx
    · exact absurd rfl hne
  · intro r hr
    rw [List.mem_singleton.mp hr]
    rfl

end

/-! ## the command of a step -/

/-- the topics of the three commands -/
def Topic.commands : List Topic := [.reserveStock, .processPayment, .releaseStock]

/-- the rows that carry a command for the order -/
def commandRows (db : OrderDb) (orderId : String) : Nat :=
  db.outbox.countP fun r => decide (r.topic ∈ Topic.commands) && decide (r.aggregateId = orderId)

/-- the command that belongs to the step at which a saga is -/
inductive Standing (db : OrderDb) (s : Saga) (o : OrderRow) : Message → Prop where
  | reserveStock (items : List LineItem) : s.currentStep = .reserveStock →
      items.Perm (db.linesOf s.orderId) →
      Standing db s o ⟨.reserveStock, .reserveStock ⟨s.id, s.orderId, s.correlationId, items⟩⟩
  | processPayment : s.currentStep = .processPayment →
      Standing db s o ⟨.processPayment, .processPayment
        ⟨payId s.id, s.orderId, s.correlationId, o.userId, o.total⟩⟩
  | releaseStock (items : List LineItem) : s.currentStep = .releaseStock →
      items.Perm (db.linesOf s.orderId) →
      Standing db s o ⟨.releaseStock, .releaseStock
        ⟨releaseId s.id, s.orderId, s.correlationId, items⟩⟩

/-- the same command: its items are the same up to their order -/
inductive SameCommand : Message → Message → Prop where
  | reserveStock (commandId orderId correlationId : String) {xs ys : List LineItem} : xs.Perm ys →
      SameCommand ⟨.reserveStock, .reserveStock ⟨commandId, orderId, correlationId, xs⟩⟩
        ⟨.reserveStock, .reserveStock ⟨commandId, orderId, correlationId, ys⟩⟩
  | processPayment (c : ProcessPaymentCommand) :
      SameCommand ⟨.processPayment, .processPayment c⟩ ⟨.processPayment, .processPayment c⟩
  | releaseStock (commandId orderId correlationId : String) {xs ys : List LineItem} : xs.Perm ys →
      SameCommand ⟨.releaseStock, .releaseStock ⟨commandId, orderId, correlationId, xs⟩⟩
        ⟨.releaseStock, .releaseStock ⟨commandId, orderId, correlationId, ys⟩⟩

section
variable {db db' : OrderDb} {s s' : Saga} {o o' : OrderRow} {out : List OutboxRow} {m m' : Message}

/-- a step has one command, up to the order of its items -/
theorem Standing.same (h : Standing db s o m) (h' : Standing db s o m') : SameCommand m m' := by
  cases h with
  | reserveStock xs hs hx =>
    cases h' with
    | reserveStock ys _ hy => exact .reserveStock _ _ _ (hx.trans hy.symm)
    | processPayment hs' => exact absurd (hs.symm.trans hs') (by decide)
    | releaseStock _ hs' _ => exact absurd (hs.symm.trans hs') (by decide)
  | processPayment hs =>
    cases h' with
    | reserveStock _ hs' _ => exact absurd (hs.symm.trans hs') (by decide)
    | processPayment _ => exact .processPayment _
    | releaseStock _ hs' _ => exact absurd (hs.symm.trans hs') (by decide)
  | releaseStock xs hs hx =>
    cases h' with
    | reserveStock _ hs' _ => exact absurd (hs.symm.trans hs') (by decide)
    | processPayment hs' => exact absurd (hs.symm.trans hs') (by decide)
    | releaseStock ys _ hy => exact .releaseStock _ _ _ (hx.trans hy.symm)

theorem Standing.lines (h : Standing db s o m) (hl : db'.linesOf s.orderId = db.linesOf s.orderId) :
    Standing db' s o m := by
  cases h with
  | reserveStock items hs hp => exact .reserveStock items hs (by rw [hl]; exact hp)
  | processPayment hs => exact .processPayment hs
  | releaseStock items hs hp => exact .releaseStock items hs (by rw [hl]; exact hp)

/-- what is sent again is the command of the step -/
theorem Resends.standing {q : RowOrder OrderItemRow} {t : Topic} {p : Payload}
    (h : Resends q db s o t p) (hos : o.id = s.orderId) : Standing db s o ⟨t, p⟩ := by
  have hl := itemsOf_lines q db o
  rw [hos] at hl
  cases h with
  | reserveStock hs => exact .reserveStock _ hs hl
  | processPayment hs => exact .processPayment hs
  | releaseStock hs => exact .releaseStock _ hs hl

/-- the command with which a saga enters a step is the command of that step -/
theorem Fires.standing {g : RowDefaults} {q : RowOrder OrderItemRow} {ev : ReplyEvent} {t : Topic}
    {p : Payload} (hf : Fires g q db ev s s' o o' t p) (m : Moved db db' s s' o o' out)
    (hs : s.orderId = ev.orderId) (hrun : s'.status = .running) : Standing db' s' o' ⟨t, p⟩ := by
  cases hf with
  | stockReserved e _ _ _ =>
    have he : e.orderId = s.orderId := hs.symm
    rw [he]
    exact .processPayment rfl
  | stockReservationFailed e _ _ _ => cases hrun
  | paymentProcessed e _ _ _ => cases hrun
  | paymentFailed e _ _ _ =>
    have he : e.orderId = s.orderId := hs.symm
    rw [he]
    refine .releaseStock (s := s.startCompensation g.now e.reason) _ rfl ?_
    rw [m.linesOf]
    show (OrderDb.itemsOf (db.toDomain q o)).Perm (db.linesOf s.orderId)
    rw [← m.order_id]
    exact itemsOf_lines q db o
  | stockReleased e _ _ _ => cases hrun

/-! ## the account of a saga -/

/-- the steps with a command that a saga has been through, by the step at which it is -/
def Visited (steps : List SagaStep) : SagaStep → Prop
  | .reserveStock => steps = [.reserveStock]
  | .processPayment => steps = [.reserveStock, .processPayment]
  | .releaseStock => steps = [.reserveStock, .processPayment, .releaseStock]
  | .completed => steps = [.reserveStock, .processPayment]
  | .failed => steps = [.reserveStock] ∨ steps = [.reserveStock, .processPayment] ∨
      steps = [.reserveStock, .processPayment, .releaseStock]

theorem Visited.length_le {steps : List SagaStep} {step : SagaStep} (h : Visited steps step) :
    steps.length ≤ 3 := by
  cases step with
  | failed => rcases h with rfl | rfl | rfl <;> decide
  | _ => cases h; decide

/-- a saga that fails keeps the steps that it has been through -/
theorem Visited.fail {steps : List SagaStep} (h : Visited steps s.currentStep)
    (hsends : s.currentStep.sends = true) : Visited steps .failed := by
  cases hs : s.currentStep <;> rw [hs] at h hsends
  · exact Or.inl h
  · exact Or.inr (Or.inl h)
  · exact Or.inr (Or.inr h)
  · exact absurd hsends (by decide)
  · exact absurd hsends (by decide)

structure Account (db : OrderDb) (es : List Entry) (s : Saga) (o : OrderRow) : Prop where
  visited : Visited (stepsOf es s.id) s.currentStep
  retries : s.retryCount ≤ Saga.MAX_RETRIES
  rows : commandRows db s.orderId = (stepsOf es s.id).length + s.retryCount
  origin : ∀ e ∈ es, e.saga.id = s.id → e.saga.currentStep = s.currentStep → s.status = .running →
    ∃ row, e.rows = [row] ∧ Standing db s o row.message

structure Accounts (db : OrderDb) (es : List Entry) : Prop where
  wf : WF db
  account : ∀ s ∈ db.sagas, ∀ o ∈ db.orders, o.id = s.orderId → Account db es s o
  owner : ∀ r ∈ db.outbox, r.aggregateId ∈ db.orders.map OrderRow.id
  known : ∀ e ∈ es, e.saga.id ∈ db.sagas.map Saga.id

theorem mem_stepsOf {es : List Entry} {e : Entry} (he : e ∈ es)
    (hs : e.saga.currentStep.sends = true) : e.saga.currentStep ∈ stepsOf es e.saga.id :=
  List.mem_filter.mpr
    ⟨List.mem_map.mpr ⟨e, List.mem_filter.mpr ⟨he, decide_eq_true rfl⟩, rfl⟩, hs⟩

/-- entries of other sagas do not count -/
theorem stepsOf_other (es : List Entry) {fs : List Entry} {id : String}
    (h : ∀ e ∈ fs, e.saga.id ≠ id) : stepsOf (es ++ fs) id = stepsOf es id := by
  have hnil : stepsOf fs id = [] := by
    unfold stepsOf
    rw [List.filter_eq_nil_iff.mpr fun e he hid => h e he (of_decide_eq_true hid)]
    rfl
  rw [stepsOf_append, hnil, List.append_nil]

theorem commandRows_append (hout : db'.outbox = db.outbox ++ out) (x : String) :
    commandRows db' x = commandRows db x + out.countP fun r =>
      decide (r.topic ∈ Topic.commands) && decide (r.aggregateId = x) := by
  unfold commandRows
  rw [hout, List.countP_append]

theorem commandRows_write {g : RowDefaults} {x k : String} {t : Topic} {p : Payload}
    (hout : db'.outbox = db.outbox ++ [OutboxRow.write g x t k p]) :
    commandRows db' x = commandRows db x + if t ∈ Topic.commands then 1 else 0 := by
  rw [commandRows_append hout]
  by_cases ht : t ∈ Topic.commands <;> simp [OutboxRow.write, ht]

/-- rows of other orders do not count -/
theorem commandRows_other (hout : db'.outbox = db.outbox ++ out) {x : String}
    (h : ∀ r ∈ out, r.aggregateId ≠ x) : commandRows db' x = commandRows db x := by
  rw [commandRows_append hout, List.countP_eq_zero.mpr, Nat.add_zero]
  intro r hr hc
  rw [Bool.and_eq_true, decide_eq_true_eq, decide_eq_true_eq] at hc
  exact h r hr hc.2

/-- what is written and entered for another saga leaves the account as it is -/
theorem Account.other {es fs : List Entry} (h : Account db es s o)
    (hrows : commandRows db' s.orderId = commandRows db s.orderId)
    (hlines : db'.linesOf s.orderId = db.linesOf s.orderId) (hfs : ∀ e ∈ fs, e.saga.id ≠ s.id) :
    Account db' (es ++ fs) s o where
  visited := by
    rw [stepsOf_other es hfs]
    exact h.visited
  retries := h.retries
  rows := by
    rw [stepsOf_other es hfs, hrows]
    exact h.rows
  origin := by
    intro e he hid hstep hrun
    rcases List.mem_append.mp he with he | he
    · obtain ⟨row, hrow, hst⟩ := h.origin e he hid hstep hrun
      exact ⟨row, hrow, hst.lines hlines⟩
    · exact absurd hid (hfs e he)

/-- a move settles the account of its own saga, and leaves the others -/
theorem Accounts.moved {es fs : List Entry} (h : Accounts db es) (m : Moved db db' s s' o o' out)
    (hp : Phase s' o'.status) (hown : ∀ r ∈ out, r.aggregateId = s.orderId)
    (hfs : ∀ e ∈ fs, e.saga.id = s.id) (hs' : Account db' (es ++ fs) s' o') :
    Accounts db' (es ++ fs) where
  wf := m.wf h.wf hp
  account := by
    intro x hx y hy hxy
    rcases m.mem_pair h.wf hx hy hxy with ⟨rfl, rfl⟩ | ⟨hx, hy, hyo⟩
    · exact hs'
    · have hxo : x.orderId ≠ s.orderId := by
        rw [← hxy, ← m.order_id]
        exact hyo
      refine (h.account x hx y hy hxy).other
        (commandRows_other m.outbox fun r hr e => hxo (e.symm.trans (hown r hr)))
        (m.linesOf x.orderId) fun e he hid => ?_
      have hxs := h.wf.saga_id_inj hx m.saga_mem (hid.symm.trans (hfs e he))
      exact hxo (congrArg Saga.orderId hxs)
  owner := by
    rw [m.outbox]
    exact m.about OutboxRow.aggregateId h.owner fun r hr => (hown r hr).trans m.order_id.symm
  known := by
    intro e he
    rw [m.sagaIds_eq]
    rcases List.mem_append.mp he with he | he
    · exact h.known e he
    · rw [hfs e he]
      exact List.mem_map_of_mem m.saga_mem

/-- a reply brings its saga to a step where it has not been, with a command if it sends one there,
and makes no retry -/
theorem Fires.enters {g : RowDefaults} {q : RowOrder OrderItemRow} {ev : ReplyEvent} {t : Topic}
    {p : Payload} (hf : Fires g q db ev s s' o o' t p) {steps : List SagaStep}
    (h : Visited steps s.currentStep) :
    s'.currentStep ≠ s.currentStep ∧ s'.retryCount = s.retryCount ∧
    decide (t ∈ Topic.commands) = s'.currentStep.sends ∧
    Visited (steps ++ if s'.currentStep.sends = true then [s'.currentStep] else [])
      s'.currentStep ∧
    (s'.status = .running → s'.currentStep.sends = true ∧ s'.currentStep ∉ steps) := by
  cases hf with
  | stockReserved e _ _ hs =>
    rw [hs] at h ⊢
    obtain rfl : steps = [.reserveStock] := h
    have hnew : SagaStep.processPayment ∉ [SagaStep.reserveStock] := by decide
    exact ⟨nofun, rfl, rfl, rfl, fun _ => ⟨rfl, hnew⟩⟩
  | stockReservationFailed e _ _ hs =>
    rw [hs] at h ⊢
    obtain rfl : steps = [.reserveStock] := h
    exact ⟨nofun, rfl, rfl, Or.inl rfl, nofun⟩
  | paymentProcessed e _ _ hs =>
    rw [hs] at h ⊢
    obtain rfl : steps = [.reserveStock, .processPayment] := h
    exact ⟨nofun, rfl, rfl, rfl, nofun⟩
  | paymentFailed e _ _ hs =>
    rw [hs] at h ⊢
    obtain rfl : steps = [.reserveStock, .processPayment] := h
    have hnew : SagaStep.releaseStock ∉ [SagaStep.reserveStock, .processPayment] := by decide
    exact ⟨nofun, rfl, rfl, rfl, fun _ => ⟨rfl, hnew⟩⟩
  | stockReleased e _ _ hs =>
    rw [hs] at h ⊢
    obtain rfl : steps = [.reserveStock, .processPayment, .releaseStock] := h
    exact ⟨nofun, rfl, rfl, Or.inr (Or.inr rfl), nofun⟩

/-- a saga that is running is at a step with a command -/
theorem sends_of_running {st : OrderStatus} (h : Phase s st) (hrun : s.status = .running) :
    s.currentStep.sends = true := by
  unfold Phase at h
  cases hs : s.currentStep <;> rw [hs] at h
  · rfl
  · rfl
  · rfl
  · exact absurd (hrun.symm.trans h.1) (by decide)
  · exact absurd (hrun.symm.trans h.1) (by decide)

theorem Account.replied {g : RowDefaults} {q : RowOrder OrderItemRow} {ev : ReplyEvent} {t : Topic}
    {p : Payload} {es : List Entry} (h : Account db es s o) (hs : s.orderId = ev.orderId)
    (hf : Fires g q db ev s s' o o' t p)
    (m : Moved db db' s s' o o' [OutboxRow.write g ev.orderId t ev.orderId p]) :
    Account db' (es ++ [⟨s', [OutboxRow.write g ev.orderId t ev.orderId p]⟩]) s' o' := by
  obtain ⟨_, hretry, htopic, hvisited, hnew⟩ := hf.enters h.visited
  have hsteps : stepsOf (es ++ [⟨s', [OutboxRow.write g ev.orderId t ev.orderId p]⟩]) s'.id =
      stepsOf es s.id ++ if s'.currentStep.sends = true then [s'.currentStep] else [] := by
    rw [stepsOf_append, stepsOf_single, m.saga_keep.1]
    simp only [true_and]
  refine ⟨?_, ?_, ?_, ?_⟩
  · rw [hsteps]
    exact hvisited
  · rw [hretry]
    exact h.retries
  · have hrow := commandRows_write m.outbox
    rw [hsteps, hretry, m.saga_keep.2.1, hs, hrow, ← hs, h.rows, List.length_append]
    by_cases hsends : s'.currentStep.sends = true
    · rw [if_pos (of_decide_eq_true (htopic.trans hsends)), if_pos hsends, List.length_singleton]
      omega
    · rw [if_neg fun ht => hsends (htopic.symm.trans (decide_eq_true ht)), if_neg hsends,
        List.length_nil]
      omega
  · intro e he hid hstep hrun
    rcases List.mem_append.mp he with he | he
    · obtain ⟨hsends, hfresh⟩ := hnew hrun
      have hmem := mem_stepsOf he (hstep ▸ hsends)
      rw [hid, hstep, m.saga_keep.1] at hmem
      exact absurd hmem hfresh
    · rw [List.mem_singleton.mp he]
      exact ⟨_, rfl, hf.standing m hs hrun⟩

theorem Account.retried {g : RowDefaults} {t : Topic} {p : Payload} {es : List Entry}
    (h : Account db es s o) (hlt : s.retryCount < Saga.MAX_RETRIES) (ht : t ∈ Topic.commands)
    (m : Moved db db' s (s.scheduleRetry g.now) o o
      [OutboxRow.write g s.orderId t s.orderId p]) :
    Account db' (es ++ []) (s.scheduleRetry g.now) o := by
  rw [List.append_nil]
  refine ⟨h.visited, hlt, ?_, ?_⟩
  · show commandRows db' s.orderId = (stepsOf es s.id).length + (s.retryCount + 1)
    rw [commandRows_write m.outbox, if_pos ht, h.rows]
    omega
  · intro e he hid hstep hrun
    obtain ⟨row, hrow, hst⟩ := h.origin e he hid hstep hrun
    have hst' := hst.lines (m.linesOf s.orderId)
    refine ⟨row, hrow, ?_⟩
    generalize row.message = msg at hst'
    cases hst' with
    | reserveStock items hs hp => exact .reserveStock (s := s.scheduleRetry g.now) items hs hp
    | processPayment hs => exact .processPayment (s := s.scheduleRetry g.now) hs
    | releaseStock items hs hp => exact .releaseStock (s := s.scheduleRetry g.now) items hs hp

theorem Account.exhausted {es : List Entry} {reason : String} (h : Account db es s o)
    (hsends : s.currentStep.sends = true) (hout : db'.outbox = db.outbox) :
    Account db' (es ++ [⟨s.fail reason, []⟩]) (s.fail reason) o := by
  have hsteps : stepsOf (es ++ [⟨s.fail reason, []⟩]) s.id = stepsOf es s.id := by
    rw [stepsOf_append, stepsOf_single]
    show stepsOf es s.id ++ (if s.id = s.id ∧ false = true then _ else []) = _
    rw [if_neg fun e => absurd e.2 (by decide), List.append_nil]
  have hrows : commandRows db' s.orderId = commandRows db s.orderId := by
    unfold commandRows
    rw [hout]
  refine ⟨?_, h.retries, ?_, fun _ _ _ _ hrun => ?_⟩
  · show Visited (stepsOf _ s.id) .failed
    rw [hsteps]
    exact h.visited.fail hsends
  · show commandRows db' s.orderId = (stepsOf _ s.id).length + s.retryCount
    rw [hsteps, hrows]
    exact h.rows
  · cases hrun

theorem Resends.topic_commands {q : RowOrder OrderItemRow} {t : Topic} {p : Payload}
    (h : Resends q db s o t p) : t ∈ Topic.commands := by
  cases h <;> decide

/-- a new saga has one command, and it is at its first step -/
theorem Accounts.created {g : RowDefaults} {ids : NewIds} {input : CreateOrderInput}
    {es : List Entry} (h : Accounts db es) (hf : ids.fresh db input = true) :
    Accounts (created g ids db input) (es ++ entries db (created g ids db input)) := by
  obtain ⟨ho, hs, _⟩ := fresh_iff.mp hf
  rw [entries_created h.wf hf]
  have hids : ∀ x ∈ db.orders.map OrderRow.id, x ∈ (Shop.created g ids db input).orders.map
      OrderRow.id := by
    intro x hx
    show x ∈ (db.orders ++ [_]).map OrderRow.id
    rw [List.map_append]
    exact List.mem_append_left _ hx
  refine ⟨created_wf h.wf hf, fun s hmem o homem hos => ?_, fun r hr => ?_, fun e he => ?_⟩
  · rcases created_pair h.wf hf hmem homem hos with ⟨hmem, homem⟩ | ⟨rfl, rfl⟩
    · have hso : s.orderId ≠ ids.order.val := by
        intro e
        rw [← e, ← hos] at ho
        exact ho (List.mem_map_of_mem homem)
      refine (h.account s hmem o homem hos).other (commandRows_other rfl ?_)
        (linesOf_created_old hso) ?_
      · intro r hr
        rw [List.mem_singleton.mp hr]
        exact hso.symm
      · intro e he hid
        rw [List.mem_singleton.mp he] at hid
        have hid : ids.saga.val = s.id := hid
        exact hs (hid ▸ List.mem_map_of_mem hmem)
    · -- nothing has been entered or written under the new ids
      have hnone : stepsOf es ids.saga.val = [] :=
        stepsOf_other [] fun e he hid => hs (hid ▸ h.known e he)
      have hrows : commandRows db ids.order.val = 0 := by
        refine List.countP_eq_zero.mpr fun r hr hc => ?_
        rw [Bool.and_eq_true, decide_eq_true_eq, decide_eq_true_eq] at hc
        exact ho (hc.2 ▸ h.owner r hr)
      have hsteps : ∀ rows, stepsOf (es ++ [⟨{ Saga.create g.now ids.order.val input.correlationId
          with id := ids.saga.val }, rows⟩]) ids.saga.val = [.reserveStock] := by
        intro rows
        rw [stepsOf_append, hnone, stepsOf_single]
        exact if_pos ⟨rfl, rfl⟩
      refine ⟨hsteps _, Nat.zero_le _, ?_, fun e he hid _ _ => ?_⟩
      · show commandRows (Shop.created g ids db input) ids.order.val =
          (stepsOf _ ids.saga.val).length + 0
        have hout : (Shop.created g ids db input).outbox = db.outbox ++ [_] := rfl
        rw [commandRows_write hout, hrows, hsteps]
        rfl
      · rcases List.mem_append.mp he with he | he
        · have hid : e.saga.id = ids.saga.val := hid
          exact absurd (hid ▸ h.known e he) hs
        · rw [List.mem_singleton.mp he]
          refine ⟨_, rfl, .reserveStock _ rfl ?_⟩
          show input.items.Perm ((Shop.created g ids db input).linesOf ids.order.val)
          rw [linesOf_created_new h.wf hf]
  · rcases List.mem_append.mp hr with hr | hr
    · exact hids _ (h.owner r hr)
    · rw [List.mem_singleton.mp hr]
      show ids.order.val ∈ (db.orders ++ [_]).map OrderRow.id
      rw [List.map_append]
      exact List.mem_append_right _ (List.mem_singleton.mpr rfl)
  · show e.saga.id ∈ (db.sagas ++ [_]).map Saga.id
    rw [List.map_append]
    rcases List.mem_append.mp he with he | he
    · exact List.mem_append_left _ (h.known e he)
    · rw [List.mem_singleton.mp he]
      exact List.mem_append_right _ (List.mem_singleton.mpr rfl)

/-- **Every transaction keeps the accounts.** -/
theorem Accounts.step {es : List Entry} (h : Accounts db es) (hstep : DbStep db db') :
    Accounts db' (es ++ entries db db') := by
  cases hstep with
  | same =>
    rw [entries_same h.wf, List.append_nil]
    exact h
  | created g ids input hf => exact h.created hf
  | @replied _ g q ev s s' o o' t p ho hf m =>
    have haccount := h.account s m.saga_mem o m.order_mem m.order_id
    have hp := h.wf.phase s m.saga_mem o m.order_mem m.order_id
    have hown : ∀ r ∈ [OutboxRow.write g ev.orderId t ev.orderId p], r.aggregateId = s.orderId := by
      intro r hr
      rw [List.mem_singleton.mp hr, ho]
      rfl
    rw [m.entries_step h.wf (hf.enters haccount.visited).1 hown]
    refine h.moved m (hf.phase hp) hown (fun e he => ?_) (haccount.replied ho hf m)
    rw [List.mem_singleton.mp he]
    exact m.saga_keep.1
  | @retried _ g q s s' o out hrun hr m =>
    have haccount := h.account s m.saga_mem o m.order_mem m.order_id
    have hp := h.wf.phase s m.saga_mem o m.order_mem m.order_id
    have hsends := sends_of_running hp hrun
    cases hr with
    | exhausted hmax =>
      have hfailed : (s.fail "Max retries exceeded").currentStep ≠ s.currentStep := by
        intro e
        rw [← e] at hsends
        cases hsends
      have hnone : ∀ r ∈ ([] : List OutboxRow), r.aggregateId = s.orderId :=
        fun r hr => absurd hr List.not_mem_nil
      rw [m.entries_step h.wf hfailed hnone]
      have hout : db'.outbox = db.outbox := m.outbox.trans (List.append_nil _)
      refine h.moved m ⟨rfl, rfl⟩ hnone (fun e he => ?_) (haccount.exhausted hsends hout)
      rw [List.mem_singleton.mp he]
      rfl
    | resent hlt hsend =>
      rw [m.entries_stay h.wf rfl]
      refine h.moved m (phase_scheduleRetry g.now hrun hp) (fun r hr => ?_)
        (fun e he => absurd he List.not_mem_nil) (haccount.retried hlt hsend.topic_commands m)
      rw [List.mem_singleton.mp hr]
      rfl

end

theorem accounts_run (now : Nat) (fs : List OrderAttempt) :
    Accounts (run OrderSystem.attempt (OrderSystem.init now) fs).db
      (emits OrderSystem.attempt entered (OrderSystem.init now) fs) :=
  invariant_emits (I := fun w es => Accounts w.db es) OrderSystem.attempt
    (fun _ _ f h => h.step (attempt_db h.wf f)) (OrderSystem.init now) fs
    { wf := WF.empty
      account := fun _ h => absurd h List.not_mem_nil
      owner := fun _ h => absurd h List.not_mem_nil
      known := fun _ h => absurd h List.not_mem_nil }

/-! ## a command that is sent again -/

theorem Visited.mem {steps : List SagaStep} {step : SagaStep} (h : Visited steps step)
    (hsends : step.sends = true) : step ∈ steps := by
  cases step with
  | completed => cases hsends
  | failed => cases hsends
  | _ => cases h; decide

/-- **A command that is sent again is the command with which the saga entered its step.** -/
theorem resend_same (now : Nat) (fs : List OrderAttempt) :
    let w := run OrderSystem.attempt (OrderSystem.init now) fs
    let es := emits OrderSystem.attempt entered (OrderSystem.init now) fs
    ∀ s ∈ w.db.sagas, s.status = .running →
      (∃ e ∈ es, e.saga.id = s.id ∧ e.saga.currentStep = s.currentStep) ∧
      ∀ e ∈ es, e.saga.id = s.id → e.saga.currentStep = s.currentStep → ∀ g q,
        ∃ order original again, e.rows = [original] ∧ w.db.getOrder q s.orderId = .ok order ∧
          w.db.resendCommand g s order = { w.db with outbox := w.db.outbox ++ [again] } ∧
          SameCommand original.message again.message := by
  intro w es s hs hrun
  have h : Accounts w.db es := accounts_run now fs
  obtain ⟨o, ho, hos⟩ := h.wf.order_of hs
  have haccount := h.account s hs o ho hos
  have hp := h.wf.phase s hs o ho hos
  constructor
  · have hmem := haccount.visited.mem (sends_of_running hp hrun)
    obtain ⟨e, he, hstep⟩ := List.mem_map.mp (List.mem_filter.mp hmem).1
    obtain ⟨he, hid⟩ := List.mem_filter.mp he
    exact ⟨e, he, of_decide_eq_true hid, hstep⟩
  · intro e he hid hstep g q
    obtain ⟨original, hrows, hst⟩ := haccount.origin e he hid hstep hrun
    obtain ⟨t, p, hr⟩ := resends_of_running hp hrun q w.db o
    refine ⟨w.db.toDomain q o, original, _, hrows, ?_, hr.send g w.db, ?_⟩
    · rw [← hos]
      exact h.wf.getOrder q ho
    · exact hst.same (hr.standing hos)

/-- the saga of `oneOrder`, which has just been created -/
def oneSaga : Saga :=
  { Saga.create 0 (Uuid.sample '1').val "corr" with id := (Uuid.sample '3').val }

theorem resend_same_created :
    let w := run OrderSystem.attempt (OrderSystem.init 0) [.commits oneOrder]
    ∃ order again, w.db.getOrder (.stored _) oneSaga.orderId = .ok order ∧
      w.db.resendCommand ⟨.sample 'b', 0⟩ oneSaga order =
        { w.db with outbox := w.db.outbox ++ [again] } ∧
      SameCommand ⟨.reserveStock, .reserveStock ⟨oneSaga.id, oneSaga.orderId, "corr", [⟨"p", 1⟩]⟩⟩
        again.message := by
  let row := OutboxRow.write ⟨.sample 'a', 0⟩ oneSaga.orderId .reserveStock oneSaga.orderId
    (.reserveStock ⟨oneSaga.id, oneSaga.orderId, "corr", [⟨"p", 1⟩]⟩)
  obtain ⟨order, original, again, hrows, hrest⟩ :=
    (resend_same 0 [.commits oneOrder] oneSaga (by decide +kernel) rfl).2 ⟨oneSaga, [row]⟩
      (by decide +kernel) rfl rfl ⟨.sample 'b', 0⟩ (.stored _)
  obtain rfl : row = original := List.head_eq_of_cons_eq hrows
  exact ⟨order, again, hrest⟩

/-! ## the number of commands -/

theorem Fires.running {g : RowDefaults} {q : RowOrder OrderItemRow} {db : OrderDb} {ev : ReplyEvent}
    {s s' : Saga} {o o' : OrderRow} {t : Topic} {p : Payload} (hf : Fires g q db ev s s' o o' t p)
    (h : Phase s o.status) : s.status = .running := by
  cases hf with
  | stockReserved e _ _ hs => rw [Phase, hs] at h; exact h.1
  | stockReservationFailed e _ _ hs => rw [Phase, hs] at h; exact h.1
  | paymentProcessed e _ _ hs => rw [Phase, hs] at h; exact h.1
  | paymentFailed e _ _ hs => rw [Phase, hs] at h; exact h.1
  | stockReleased e _ _ hs => rw [Phase, hs] at h; exact h.1

/-- the saga `s` later: it has been retried as often or more often, and if it had ended it is as it
was, with the commands that it had -/
def Kept (s : Saga) (rows : Nat) (db : OrderDb) : Prop :=
  ∃ s' ∈ db.sagas, s'.id = s.id ∧ s.retryCount ≤ s'.retryCount ∧
    (s.status ≠ .running → s' = s ∧ commandRows db s.orderId = rows)

section
variable {db db' : OrderDb} {s s' : Saga} {o o' : OrderRow} {out : List OutboxRow}

theorem Moved.kept (m : Moved db db' s s' o o' out) (h : WF db) (hrun : s.status = .running)
    (hle : s.retryCount ≤ s'.retryCount) (hown : ∀ r ∈ out, r.aggregateId = s.orderId) {x : Saga}
    (hx : x ∈ db.sagas) : Kept x (commandRows db x.orderId) db' := by
  by_cases he : x.id = s.id
  · obtain rfl := h.saga_id_inj hx m.saga_mem he
    exact ⟨s', m.mem_sagas.mpr (Or.inl rfl), m.saga_keep.1, hle, fun hne => absurd hrun hne⟩
  · refine ⟨x, m.mem_sagas.mpr (Or.inr ⟨hx, he⟩), rfl, Nat.le_refl _, fun _ => ⟨rfl, ?_⟩⟩
    refine commandRows_other m.outbox fun r hr e => he ?_
    rw [h.saga_inj hx m.saga_mem (e.symm.trans (hown r hr))]

theorem DbStep.kept (h : WF db) (hstep : DbStep db db') {x : Saga} (hx : x ∈ db.sagas) :
    Kept x (commandRows db x.orderId) db' := by
  cases hstep with
  | same => exact ⟨x, hx, rfl, Nat.le_refl _, fun _ => ⟨rfl, rfl⟩⟩
  | created g ids input hf =>
    refine ⟨x, mem_created_sagas.mpr (Or.inl hx), rfl, Nat.le_refl _, fun _ => ⟨rfl, ?_⟩⟩
    refine commandRows_other rfl fun r hr e => (fresh_iff.mp hf).1 ?_
    rw [List.mem_singleton.mp hr] at e
    have e : ids.order.val = x.orderId := e
    rw [← h.paired, e]
    exact List.mem_map_of_mem hx
  | @replied _ g q ev s s' o o' t p ho hf m =>
    have hp := h.phase s m.saga_mem o m.order_mem m.order_id
    refine m.kept h (hf.running hp) ?_ (fun r hr => ?_) hx
    · cases hf <;> exact Nat.le_refl _
    · rw [List.mem_singleton.mp hr, ho]
      rfl
  | @retried _ g q s s' o out hrun hr m =>
    refine m.kept h hrun ?_ hr.owner hx
    cases hr with
    | exhausted _ => exact Nat.le_refl _
    | resent _ _ => exact Nat.le_succ _

theorem kept_run {w : OrderSystem} (h : WF w.db) {s : Saga} (hs : s ∈ w.db.sagas)
    (later : List OrderAttempt) :
    Kept s (commandRows w.db s.orderId) (run OrderSystem.attempt w later).db := by
  have hkept : WF w.db ∧ Kept s (commandRows w.db s.orderId) w.db :=
    ⟨h, s, hs, rfl, Nat.le_refl _, fun _ => ⟨rfl, rfl⟩⟩
  refine (invariant_run (I := fun w' => WF w'.db ∧ Kept s (commandRows w.db s.orderId) w'.db)
    OrderSystem.attempt (fun w' f hw => ?_) w later hkept).2
  obtain ⟨hwf, s₁, hs₁, hid, hle, hend⟩ := hw
  have hstep := attempt_db hwf f
  refine ⟨hstep.wf hwf, ?_⟩
  obtain ⟨s₂, hs₂, hid₂, hle₂, hend₂⟩ := hstep.kept hwf hs₁
  refine ⟨s₂, hs₂, hid₂.trans hid, Nat.le_trans hle hle₂, fun hne => ?_⟩
  obtain ⟨rfl, hrows⟩ := hend hne
  obtain ⟨hsame, hrows₂⟩ := hend₂ hne
  exact ⟨hsame, hrows₂.trans hrows⟩

/-- a committed retry of a running saga: one command more, or the end, if no retry is left -/
def Retried (db db' : OrderDb) (s : Saga) : Prop :=
  ∃ s' ∈ db'.sagas, s'.id = s.id ∧
    ((s.retryCount ≠ Saga.MAX_RETRIES ∧ s'.retryCount = s.retryCount + 1 ∧
        ∃ row, row.topic ∈ Topic.commands ∧ row.aggregateId = s.orderId ∧
          db'.outbox = db.outbox ++ [row]) ∨
      (s.retryCount = Saga.MAX_RETRIES ∧ s'.status = .failed ∧ db'.outbox = db.outbox))

theorem Retries.retried {g : RowDefaults} {q : RowOrder OrderItemRow}
    (hr : Retries g q db s o s' out) (m : Moved db db' s s' o o out)
    (hmax : s.retryCount ≤ Saga.MAX_RETRIES) : Retried db db' s := by
  refine ⟨s', m.mem_sagas.mpr (Or.inl rfl), m.saga_keep.1, ?_⟩
  cases hr with
  | exhausted hge =>
    exact Or.inr ⟨Nat.le_antisymm hmax hge, rfl, m.outbox.trans (List.append_nil _)⟩
  | resent hlt hsend =>
    exact Or.inl ⟨Nat.ne_of_lt hlt, rfl, _, hsend.topic_commands, rfl, m.outbox⟩

end

/-- **Retry accounting.**  The command rows of an order are one for each step that its saga has
entered with a command, and one for each retry; none is added once the saga has ended. -/
theorem retry_accounting (now : Nat) (fs : List OrderAttempt) :
    let w := run OrderSystem.attempt (OrderSystem.init now) fs
    let es := emits OrderSystem.attempt entered (OrderSystem.init now) fs
    (∀ s ∈ w.db.sagas, s.retryCount ≤ Saga.MAX_RETRIES ∧
      commandRows w.db s.orderId = (stepsOf es s.id).length + s.retryCount ∧
      commandRows w.db s.orderId ≤ 3 + Saga.MAX_RETRIES) ∧
    (∀ s ∈ w.db.sagas, ∀ later, Kept s (commandRows w.db s.orderId)
      (run OrderSystem.attempt w later).db) ∧
    (∀ g q id s db', w.db.findSagaRunning id = some s → w.db.retrySaga g q id = .ok db' →
      Retried w.db db' s) := by
  intro w es
  have h : Accounts w.db es := accounts_run now fs
  refine ⟨fun s hs => ?_, fun s hs later => kept_run h.wf hs later, fun g q id s db' hf hok => ?_⟩
  · obtain ⟨o, ho, hos⟩ := h.wf.order_of hs
    have haccount := h.account s hs o ho hos
    have hsteps := haccount.visited.length_le
    have hrows := haccount.rows
    have hretries := haccount.retries
    exact ⟨hretries, hrows, by omega⟩
  · rcases retrySaga_cases h.wf g q id with ⟨hnone, _⟩ | ⟨db₁, s₁, s', o, out, hf₁, he, m, hr⟩
    · rw [hnone] at hf
      cases hf
    · obtain rfl : s₁ = s := Option.some.inj (hf₁.symm.trans hf)
      obtain rfl : db₁ = db' := Except.ok.inj (he.symm.trans hok)
      exact hr.retried m (h.account s₁ m.saga_mem o m.order_mem m.order_id).retries

/-- three retries, and then the saga is given up: four commands in all -/
theorem retry_accounting_noReply :
    let fs := noReply.map OrderAttempt.commits
    let w := run OrderSystem.attempt (OrderSystem.init 0) fs
    let s := { oneSaga with retryCount := 3 }.fail "Max retries exceeded"
    let w₁ := run OrderSystem.attempt (OrderSystem.init 0) [.commits oneOrder]
    commandRows w.db s.orderId = (stepsOf (emits OrderSystem.attempt entered (OrderSystem.init 0) fs)
        s.id).length + 3 ∧
      Kept oneSaga 1 w.db ∧
      ∃ db', w₁.db.retrySaga ⟨.sample 'b', 0⟩ (.stored _) oneSaga.id = .ok db' ∧
        Retried w₁.db db' oneSaga := by
  intro fs w s w₁
  have hwf : WF w₁.db := (accounts_run 0 [.commits oneOrder]).wf
  have hf : w₁.db.findSagaRunning oneSaga.id = some oneSaga := by decide +kernel
  obtain ⟨hnone, _⟩ | ⟨db', _, _, _, _, _, hok, _⟩ :=
    retrySaga_cases hwf ⟨.sample 'b', 0⟩ (.stored _) oneSaga.id
  · rw [hnone] at hf
    cases hf
  · exact ⟨((retry_accounting 0 fs).1 s (by decide +kernel)).2.1,
      (retry_accounting 0 [.commits oneOrder]).2.1 oneSaga (by decide +kernel) (fs.drop 1),
      db', hok, (retry_accounting 0 [.commits oneOrder]).2.2 _ _ _ _ _ hf hok⟩

end Shop
