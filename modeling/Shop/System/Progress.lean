import Shop.System.Outcome

/-!
# What one action of the three services can do to the orders

* `OrdersStep w db' xs`   the orders become `db'` and the sagas of `xs` are given up: nothing, a new
                          order, a reply that a participant has recorded, or a retry;
* `Progress w w' xs`      the orders make such a step, and the participants forget no record;
* `Joint.progress`        every action makes progress, and `abandons` says which sagas it gives up.

The invariants over runs that follow are proved from `Joint.progress`, with one case for each kind
of step.
-/

set_option linter.unusedSectionVars false

namespace Shop
open Lib

inductive OrdersStep (w : World) : OrderDb → List String → Prop where
  | same {db' : OrderDb} : db'.orders = w.orders.db.orders → db'.sagas = w.orders.db.sagas →
      messages db'.outbox = messages w.orders.db.outbox → OrdersStep w db' []
  | created (g : RowDefaults) (ids : NewIds) (input : CreateOrderInput) :
      ids.fresh w.orders.db input = true → OrdersStep w (created g ids w.orders.db input) []
  | replied {db' : OrderDb} (g : RowDefaults) (q : RowOrder OrderItemRow) (ev : ReplyEvent)
      {s s' : Saga} {o o' : OrderRow} {t : Topic} {p : Payload} :
      Answered w.products.idempotencyKeys w.payments.idempotencyKeys s ev →
      Fires g q w.orders.db ev s s' o o' t p →
      Moved w.orders.db db' s s' o o' [OutboxRow.write g ev.orderId t ev.orderId p] →
      OrdersStep w db' []
  | retried {db' : OrderDb} (g : RowDefaults) (q : RowOrder OrderItemRow) {s s' : Saga}
      {o : OrderRow} {out : List OutboxRow} {gave : List Saga} :
      s.status = .running → Retries g q w.orders.db s o s' out →
      Moved w.orders.db db' s s' o o out →
      gave = (if Saga.MAX_RETRIES ≤ s.retryCount then [s] else []) →
      OrdersStep w db' ((gave.filter fun s => decide (s.currentStep ≠ .releaseStock)).map
        Saga.orderId)

theorem OrdersStep.refl (w : World) : OrdersStep w w.orders.db [] := .same rfl rfl rfl

/-- an action of order-service, a reply only if it has been recorded -/
theorem OrdersStep.ofStep {w : World} {a : OrderAction} {db' : OrderDb} {gave : List Saga}
    (hs : OrderStep w.orders a db' gave) (hans : ∀ u q ev, a = .reply u q ev →
      ∀ s ∈ w.orders.db.sagas, s.orderId = ev.orderId →
        Answered w.products.idempotencyKeys w.payments.idempotencyKeys s ev) :
    OrdersStep w db' ((gave.filter fun s => decide (s.currentStep ≠ .releaseStock)).map
      Saga.orderId) := by
  cases hs with
  | same a => exact .refl w
  | created u ids input hf => exact .created _ ids input hf
  | replied u q ev ho hf m => exact .replied _ q ev (hans u q ev rfl _ m.saga_mem ho) hf m
  | retried k u q hrun ht m hgave => exact .retried _ q hrun ht m hgave

/-- the orders make a step, and the participants forget no record -/
structure Progress (w w' : World) (xs : List String) : Prop where
  orders : OrdersStep w w'.orders.db xs
  stock : ∀ r ∈ w.products.idempotencyKeys, r ∈ w'.products.idempotencyKeys
  payments : ∀ r ∈ w.payments.idempotencyKeys, r ∈ w'.payments.idempotencyKeys

/-- an action that does not touch the orders -/
theorem Progress.elsewhere {w w' : World} (horders : w'.orders.db = w.orders.db)
    (hstock : ∀ r ∈ w.products.idempotencyKeys, r ∈ w'.products.idempotencyKeys)
    (hpayments : ∀ r ∈ w.payments.idempotencyKeys, r ∈ w'.payments.idempotencyKeys) :
    Progress w w' [] := ⟨horders.symm ▸ .refl w, hstock, hpayments⟩

theorem Progress.refl (w : World) : Progress w w [] := .elsewhere rfl (fun _ h => h) fun _ h => h

theorem Progress.setRow (w : World) (service : Service) (row : Nat) {f : OutboxRow → OutboxRow}
    (hf : ∀ r, (f r).message = r.message) : Progress w (w.setRow service row f) [] := by
  cases service
  · exact ⟨.same rfl rfl (messages_modify hf row _), fun _ h => h, fun _ h => h⟩
  · exact .elsewhere rfl (fun _ h => h) fun _ h => h
  · exact .elsewhere rfl (fun _ h => h) fun _ h => h

/-- a catalogue endpoint records nothing -/
theorem Progress.catalogue (w : World) {db : ProductDb} (h : CatalogueChange w.products db) :
    Progress w { w with products := db } [] :=
  .elsewhere rfl (fun _ hr => h.keys.symm ▸ hr) fun _ hr => hr

/-- nor does a wallet endpoint -/
theorem Progress.wallets (w : World) {db : PaymentDb} {t : List Wallet}
    (h : db = { w.payments with wallets := t }) : Progress w { w with payments := db } [] :=
  .elsewhere rfl (fun _ hr => hr) fun _ hr => h.symm ▸ hr

theorem Joint.progress {w : World} {ys : List Execution} (hj : Joint w ys) (a : Action) :
    Progress w (w.step a) (abandons w a) := by
  have hs := world_step w a
  generalize w.step a = w' at hs ⊢
  cases hs with
  | same hq => exact hq.2.symm ▸ .refl w
  | acts b ha hb =>
    rw [ha]
    refine ⟨.ofStep (order_step hj.order.wf b) ?_, fun _ h => h, fun _ h => h⟩
    exact fun u q ev he => absurd he (not_reply hb)
  | publishes hq hr => exact hq.2.symm ▸ .elsewhere rfl (fun _ h => h) fun _ h => h
  | @marks service row f r hq hf hr hmark => exact hq.2.symm ▸ .setRow w service row hf
  | @delivers index again ids m inflight w' ha hm _ _ hw' _ =>
    rw [ha, show abandons w (.deliver index again ids) = [] from rfl]
    have hpub := hj.wire.inflight m (List.mem_of_getElem? hm)
    -- the handlers do not look at the wire
    cases hw' with
    | reserveStock c => exact .elsewhere rfl (reserve_keys _ _ c) fun _ h => h
    | releaseStock c => exact .elsewhere rfl (release_keys _ _ c).1 fun _ h => h
    | processPayment c => exact .elsewhere rfl (fun _ h => h) (pay_keys _ _ _ c)
    | reply _ ev hev =>
      refine ⟨.ofStep (order_step hj.order.wf (.reply ids.outbox ids.rows ev)) ?_, fun _ h => h,
        fun _ h => h⟩
      intro u q ev' he s hs ho
      cases he
      exact hj.answered hpub hev hs ho
    | ignored _ _ _ => exact .elsewhere rfl (fun _ h => h) fun _ h => h
  | catalogue hq hc => exact hq.2.symm ▸ .catalogue w hc
  | wallets t hq => exact hq.2.symm ▸ .wallets w rfl

end Shop
