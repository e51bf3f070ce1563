import Shop.System.Progress

/-!
# How failed sagas are compensated

* `Compensated w s`    no charge for the saga's order, and no reservation without its release;
* `Ended db P xs`      a FAILED saga had its reservation refused, or has asked for a release, or is
                       one of the sagas `xs` that were given up before that;
* `compensated_iff`    once everything is delivered, a FAILED saga is compensated if and only if it
                       was not given up on a reservation that stands.

`compensated_fails` is a saga that is given up while its payment is under way: the payment goes
through, and the stock stays reserved.
-/

set_option linter.unusedSectionVars false

namespace Shop
open Lib

def Compensated (w : World) (s : Saga) : Prop :=
  (∀ y ∈ w.payments.payments, y.orderId = s.orderId → y.status ≠ .completed) ∧
  (Recorded w.products.idempotencyKeys s.id .stockReserved →
    Recorded w.products.idempotencyKeys (releaseId s.id) .stockReleased)

instance (w : World) (s : Saga) : Decidable (Compensated w s) :=
  inferInstanceAs (Decidable (_ ∧ (_ → _)))

/-- a release has been asked for on behalf of the saga -/
def AsksRelease (M : List Message) (s : Saga) : Prop :=
  ∃ c, Releases M c ∧ c.commandId = releaseId s.id

structure Ended (db : OrderDb) (P : List IdempotencyKey) (xs : List String) : Prop where
  failed : ∀ s ∈ db.sagas, s.currentStep = .failed →
    Recorded P s.id .stockReservationFailed ∨ AsksRelease (messages db.outbox) s ∨ s.orderId ∈ xs
  given : ∀ x ∈ xs, ∃ s ∈ db.sagas, s.orderId = x ∧ s.currentStep = .failed ∧
    ¬ AsksRelease (messages db.outbox) s

/-! ## the transactions of order-service -/

theorem Ended.mono {db : OrderDb} {P P' : List IdempotencyKey} {xs : List String}
    (h : Ended db P xs) (hP : ∀ r ∈ P, r ∈ P') : Ended db P' xs where
  failed := fun s hs hst => (h.failed s hs hst).imp_left fun hr => hr.mono hP
  given := h.given

/-- the sagas and the messages stay as they are -/
theorem Ended.same {db db' : OrderDb} {P : List IdempotencyKey} {xs : List String}
    (h : Ended db P xs) (hsagas : db'.sagas = db.sagas)
    (hout : messages db'.outbox = messages db.outbox) : Ended db' P xs := by
  constructor
  · intro s hs hst
    rw [hout]
    exact h.failed s (hsagas ▸ hs) hst
  · intro x hx
    rw [hsagas, hout]
    exact h.given x hx

theorem AsksRelease.append {M out : List Message} {s : Saga} (h : AsksRelease M s) :
    AsksRelease (M ++ out) s := by
  obtain ⟨c, hc, hid⟩ := h
  exact ⟨c, List.mem_append_left _ hc, hid⟩

theorem Ended.created {g : RowDefaults} {ids : NewIds} {db : OrderDb} {input : CreateOrderInput}
    {P : List IdempotencyKey} {xs : List String} (h : Ended db P xs) :
    Ended (created g ids db input) P xs := by
  have hM : messages (Shop.created g ids db input).outbox = messages db.outbox ++
      [⟨.reserveStock, .reserveStock ⟨ids.saga.val, ids.order.val, input.correlationId,
        input.items⟩⟩] := messages_append _ _
  constructor
  · intro s hs hst
    rw [hM]
    rcases mem_created_sagas.mp hs with hs | rfl
    · exact (h.failed s hs hst).imp_right fun hr => hr.imp_left AsksRelease.append
    · cases hst
  · intro x hx
    obtain ⟨s, hs, ho, hst, hno⟩ := h.given x hx
    refine ⟨s, mem_created_sagas.mpr (Or.inl hs), ho, hst, ?_⟩
    rintro ⟨c, hc, hid⟩
    rw [hM] at hc
    rcases List.mem_append.mp hc with hc | hc
    · exact hno ⟨c, hc, hid⟩
    · cases List.mem_singleton.mp hc

/-- a move of a saga that has not failed: it accounts for its own end, and asks for no release but
its own -/
theorem Ended.moved {db db' : OrderDb} {s s' : Saga} {o o' : OrderRow} {out : List OutboxRow}
    {P : List IdempotencyKey} {xs ys : List String} (hwf : WF db) (h : Ended db P xs)
    (m : Moved db db' s s' o o' out) (hopen : s.currentStep ≠ .failed)
    (hout : ∀ c, Releases (messages out) c → c.commandId = releaseId s.id)
    (hend : s'.currentStep = .failed → Recorded P s.id .stockReservationFailed ∨
      AsksRelease (messages db'.outbox) s ∨ s.orderId ∈ ys)
    (hys : ∀ y ∈ ys, y = s.orderId ∧ s'.currentStep = .failed ∧
      ¬ AsksRelease (messages db'.outbox) s) : Ended db' P (xs ++ ys) := by
  have hM : messages db'.outbox = messages db.outbox ++ messages out := by
    rw [m.outbox, messages_append]
  have hasks : ∀ M, AsksRelease M s' ↔ AsksRelease M s := by
    intro M
    unfold AsksRelease
    rw [m.saga_keep.1]
  constructor
  · intro x hx hst
    rcases m.mem_sagas.mp hx with rfl | ⟨hx, _⟩
    · rw [m.saga_keep.1, hasks, m.saga_keep.2.1]
      exact (hend hst).imp_right fun hr => hr.imp_right (List.mem_append_right xs)
    · rw [hM]
      exact (h.failed x hx hst).imp_right fun hr =>
        hr.imp AsksRelease.append (List.mem_append_left ys)
  · intro y hy
    rcases List.mem_append.mp hy with hy | hy
    · obtain ⟨x, hx, ho, hst, hno⟩ := h.given y hy
      have hne : x.id ≠ s.id := by
        intro e
        rw [hwf.saga_id_inj hx m.saga_mem e] at hst
        exact hopen hst
      refine ⟨x, m.mem_sagas.mpr (Or.inr ⟨hx, hne⟩), ho, hst, ?_⟩
      rintro ⟨c, hc, hid⟩
      rw [hM] at hc
      rcases List.mem_append.mp hc with hc | hc
      · exact hno ⟨c, hc, hid⟩
      · exact hne (releaseId_inj.mp (hid.symm.trans (hout c hc)))
    · obtain ⟨he, hst, hno⟩ := hys y hy
      refine ⟨s', m.mem_sagas.mpr (Or.inl rfl), m.saga_keep.2.1.trans he.symm, hst, ?_⟩
      rw [hasks]
      exact hno

/-- a release is asked for at RELEASE_STOCK and not before -/
theorem OrderBook.asks_release {db : OrderDb} {P K : List IdempotencyKey} (hb : OrderBook db P K)
    {s : Saga} (hs : s ∈ db.sagas) (ha : AsksRelease (messages db.outbox) s) :
    s.currentStep = .releaseStock ∨ s.currentStep = .failed := by
  obtain ⟨c, hc, hid⟩ := ha
  obtain ⟨s', hs', hid', _, _, hst, _⟩ := hb.ofRelease hc
  rwa [hb.wf.saga_id_inj hs' hs (releaseId_inj.mp (hid'.symm.trans hid))] at hst

section
variable {db db' : OrderDb} {P K : List IdempotencyKey} {xs : List String} (h : Ended db P xs)
  (hb : OrderBook db P K)
include h hb

theorem Ended.replied {g : RowDefaults} {q : RowOrder OrderItemRow} {ev : ReplyEvent}
    {s s' : Saga} {o o' : OrderRow} {t : Topic} {p : Payload} (hf : Fires g q db ev s s' o o' t p)
    (m : Moved db db' s s' o o' [OutboxRow.write g ev.orderId t ev.orderId p])
    (hev : Answered P K s ev) : Ended db' P (xs ++ []) := by
  have hM : messages db'.outbox = messages db.outbox ++ [⟨t, p⟩] := by
    rw [m.outbox, messages_append]
    rfl
  have hst := hb.stage s m.saga_mem
  refine h.moved hb.wf m ?_ ?_ ?_ (fun y hy => absurd hy List.not_mem_nil)
  · cases hf <;> rename_i hs <;> rw [hs] <;> decide
  · intro c hc
    have hc' := List.mem_singleton.mp hc
    cases hf <;> cases hc'
    rfl
  · intro hfail
    cases hf with
    | stockReserved _ _ _ _ => cases hfail
    | stockReservationFailed _ _ _ _ => exact Or.inl hev
    | paymentProcessed _ _ _ _ => cases hfail
    | paymentFailed _ _ _ _ => cases hfail
    | stockReleased _ _ _ hs =>
      rw [Stage, hs] at hst
      rw [hM]
      exact Or.inr (Or.inl (AsksRelease.append hst.2.2))

theorem Ended.retried {g : RowDefaults} {q : RowOrder OrderItemRow} {s s' : Saga} {o : OrderRow}
    {out : List OutboxRow} (hrun : s.status = .running) (hr : Retries g q db s o s' out)
    (m : Moved db db' s s' o o out) {gave : List Saga}
    (hgave : gave = if Saga.MAX_RETRIES ≤ s.retryCount then [s] else []) :
    Ended db' P (xs ++ (gave.filter fun s => decide (s.currentStep ≠ .releaseStock)).map
      Saga.orderId) := by
  have hM : messages db'.outbox = messages db.outbox ++ messages out := by
    rw [m.outbox, messages_append]
  have hopen : s.currentStep ≠ .failed := by
    intro e
    have hp := (phase_iff (hb.wf.phase s m.saga_mem o m.order_mem m.order_id)).2.2.2.mpr e
    rw [hrun] at hp
    cases hp
  have hst := hb.stage s m.saga_mem
  cases hr with
  | exhausted hmax =>
    rw [hgave, if_pos hmax]
    by_cases hrel : s.currentStep = .releaseStock
    · rw [Stage, hrel] at hst
      rw [List.filter_cons_of_neg (by simp [hrel])]
      refine h.moved hb.wf m hopen (fun c hc => absurd hc List.not_mem_nil) (fun _ => ?_)
        (fun y hy => absurd hy List.not_mem_nil)
      rw [hM]
      exact Or.inr (Or.inl (AsksRelease.append hst.2.2))
    · rw [List.filter_cons_of_pos (by simp [hrel])]
      refine h.moved hb.wf m hopen (fun c hc => absurd hc List.not_mem_nil)
        (fun _ => Or.inr (Or.inr (List.mem_singleton.mpr rfl))) ?_
      intro y hy
      refine ⟨List.mem_singleton.mp hy, rfl, ?_⟩
      rw [hM]
      rintro ⟨c, hc, hid⟩
      rcases List.mem_append.mp hc with hc | hc
      · rcases hb.asks_release m.saga_mem ⟨c, hc, hid⟩ with e | e
        · exact hrel e
        · exact hopen e
      · exact absurd hc List.not_mem_nil
  | resent hlt hsend =>
    rw [hgave, if_neg (by omega)]
    refine h.moved hb.wf m hopen ?_ (fun hfail => absurd hfail hopen)
      (fun y hy => absurd hy List.not_mem_nil)
    intro c hc
    have hc' := List.mem_singleton.mp hc
    cases hsend <;> cases hc'
    rfl

end

/-! ## every action -/

theorem Ended.step {w : World} {xs gs : List String} {ys : List Execution} (hj : Joint w ys)
    (h : Ended w.orders.db w.products.idempotencyKeys xs) {db' : OrderDb}
    (hs : OrdersStep w db' gs) : Ended db' w.products.idempotencyKeys (xs ++ gs) := by
  cases hs with
  | same _ hsagas hout =>
    rw [List.append_nil]
    exact h.same hsagas hout
  | created g ids input _ =>
    rw [List.append_nil]
    exact h.created
  | replied g q ev hev hf m => exact h.replied hj.order hf m hev
  | retried g q hrun ht m hgave => exact h.retried hj.order hrun ht m hgave

theorem ended_run (now : Nat) (as : List Action) :
    Ended (run World.step (World.init now) as).orders.db
      (run World.step (World.init now) as).products.idempotencyKeys
      (emits World.step abandons (World.init now) as) := by
  refine invariant_joint (I := fun w xs => Ended w.orders.db w.products.idempotencyKeys xs) abandons
    (fun w ys xs a hj h => ?_) (Joint.init now) ⟨fun _ h => absurd h List.not_mem_nil,
      fun _ h => absurd h List.not_mem_nil⟩ as
  have hp := hj.progress a
  exact (h.step hj hp.orders).mono hp.stock

/-- a release that was asked for has been recorded once everything is delivered -/
theorem Joint.released_of_settled {w : World} {ys : List Execution} (h : Joint w ys)
    (hset : w.settled) {s : Saga} (hs : s ∈ w.orders.db.sagas)
    (ha : AsksRelease (messages w.orders.db.outbox) s) :
    Recorded w.products.idempotencyKeys (releaseId s.id) .stockReleased := by
  obtain ⟨c, hc, hid⟩ := ha
  obtain ⟨r, hr, hmsg⟩ := List.mem_map.mp hc
  have hpub := h.wire.marked .order r hr (hset.2 .order r hr)
  rw [hmsg] at hpub
  rcases h.wire.released c hpub with hin | hkey
  · have hno : Releases [] c := hset.1 ▸ hin
    exact absurd hno List.not_mem_nil
  · exact (h.ofReleased hs (hid ▸ hkey)).2

/-- without a record that its payment was processed, an order has no completed payment -/
theorem Joint.no_charge {w : World} {ys : List Execution} (h : Joint w ys) {s : Saga}
    (hs : s ∈ w.orders.db.sagas)
    (hno : ¬ Recorded w.payments.idempotencyKeys (payId s.id) .paymentProcessed) :
    ∀ y ∈ w.payments.payments, y.orderId = s.orderId → y.status ≠ .completed := by
  intro y hy hyo hst
  obtain ⟨c, hc, ho, _, _, hcase⟩ := h.payment.payment y hy
  have hid : c.commandId = payId s.id := (h.pay_of_saga hs hc).mp (ho.symm.trans hyo)
  rw [hid] at hcase
  rcases hcase with ⟨_, hr⟩ | ⟨hp, _⟩
  · exact hno hr
  · rw [hst] at hp
    cases hp

/-- **No half-compensated failure, except after a retry gave up.**  Once every message has been
delivered, a failed saga is compensated if and only if the retry job did not give it up, at
RESERVE_STOCK or PROCESS_PAYMENT, on a reservation that stands. -/
theorem compensated_iff (now : Nat) (as : List Action)
    (hset : (run World.step (World.init now) as).settled) :
    ∀ s ∈ (run World.step (World.init now) as).orders.db.sagas, s.status = .failed →
      (Compensated (run World.step (World.init now) as) s ↔
        ¬ (s.orderId ∈ emits World.step abandons (World.init now) as ∧
          Recorded (run World.step (World.init now) as).products.idempotencyKeys s.id
            .stockReserved)) := by
  intro s hs hfail
  have hj := joint_run now as
  have he := ended_run now as
  obtain ⟨o, ho, hos⟩ := hj.order.wf.order_of hs
  have hstep := (phase_iff (hj.order.wf.phase s hs o ho hos)).2.2.2.mp hfail
  constructor
  · rintro ⟨_, hcomp⟩ ⟨hgiven, hres⟩
    obtain ⟨s', hs', ho', _, hno⟩ := he.given _ hgiven
    rw [hj.order.wf.saga_inj hs' hs ho'] at hno
    obtain ⟨r, hr, hk, _⟩ := hcomp hres
    exact hno (hj.ofReleased hs (hk ▸ List.mem_map_of_mem hr)).1
  · intro hn
    by_cases hasks : AsksRelease (messages (run World.step (World.init now) as).orders.db.outbox) s
    · obtain ⟨c, hc, hid⟩ := hasks
      obtain ⟨s', hs', hid', _, _, _, hpay⟩ := hj.order.ofRelease hc
      rw [hj.order.wf.saga_id_inj hs' hs (releaseId_inj.mp (hid'.symm.trans hid))] at hpay
      refine ⟨hj.no_charge hs fun hr => ?_, fun _ => hj.released_of_settled hset hs ⟨c, hc, hid⟩⟩
      exact absurd (hr.topic_unique hj.payment.keys hpay) (by decide)
    · have hno : ¬ Recorded (run World.step (World.init now) as).products.idempotencyKeys s.id
          .stockReserved := by
        intro hres
        rcases he.failed s hs hstep with hr | ha | hg
        · exact absurd (hr.topic_unique hj.stock.keys hres) (by decide)
        · exact hasks ha
        · exact hn ⟨hg, hres⟩
      exact ⟨hj.no_charge hs fun hr => hno (hj.reserved_of_paid hs hr), fun hr => absurd hr hno⟩

/-! ## a saga that is given up while its payment is under way -/

/-- the relay publishes a row, and its message is delivered once -/
def send (service : Service) (row : Nat) (outboxId : Char) : List Action :=
  [.publish service row, .markPublished service row,
    .deliver 0 false ⟨.sample outboxId, ⟨.sample '4', .sample '5'⟩, .stored _⟩]

def oneSale (quantity : Int) : List Action :=
  [.userRegistered (.sample '6') 10000 "user",
    .createProduct (.sample '7') ⟨"Pen", none, 250, 5⟩,
    .order (.create (.sample 'a') ⟨.sample '1', [.sample '2'], .sample '3'⟩
      ⟨"user", "user@shop", "corr", [⟨(Uuid.sample '7').val, quantity⟩]⟩)]

/-- six pens of five: the reservation is refused and the order is cancelled -/
def refusedSale : List Action :=
  oneSale 6 ++ send .order 0 'a' ++ send .product 0 'b' ++ send .order 1 '0'

/-- the payment command is delivered only after the retry job has given the saga up -/
def latePayment : List Action :=
  oneSale 2 ++ send .order 0 'a' ++ send .product 0 'b' ++
  (tickAfter 30000 0 'c' ++ tickAfter 60000 1 'd' ++ tickAfter 120000 2 'e' ++
    tickAfter 240000 3 'f').map .order ++
  send .order 1 'a' ++ send .order 2 'b' ++ send .order 3 'c' ++ send .order 4 'd' ++
  send .payment 0 '0' ++ send .payment 1 '0' ++ send .payment 2 '0' ++ send .payment 3 '0'

theorem refusedSale_settled : (run World.step (World.init 0) refusedSale).settled :=
  ⟨by decide +kernel, fun service => by cases service <;> decide +kernel⟩

theorem latePayment_settled : (run World.step (World.init 0) latePayment).settled :=
  ⟨by decide +kernel, fun service => by cases service <;> decide +kernel⟩

theorem compensated_iff_refused :
    let w := run World.step (World.init 0) refusedSale
    let s : Saga := ⟨(Uuid.sample '3').val, (Uuid.sample '1').val, "corr", .failed, .failed, 0,
      some ("Insufficient stock for product " ++ (Uuid.sample '7').val ++
        ": requested 6, available 5"), none⟩
    Compensated w s ↔ ¬ (s.orderId ∈ emits World.step abandons (World.init 0) refusedSale ∧
      Recorded w.products.idempotencyKeys s.id .stockReserved) :=
  compensated_iff 0 refusedSale refusedSale_settled _ (by decide +kernel) rfl

/-- **A saga that is given up can be FAILED with the user charged and the stock still reserved.** -/
theorem compensated_fails : ¬ ∀ (now : Nat) (as : List Action),
    (run World.step (World.init now) as).settled →
    ∀ s ∈ (run World.step (World.init now) as).orders.db.sagas, s.status = .failed →
      Compensated (run World.step (World.init now) as) s := by
  intro h
  have hno : ¬ ∀ s ∈ (run World.step (World.init 0) latePayment).orders.db.sagas,
      s.status = .failed → Compensated (run World.step (World.init 0) latePayment) s := by
    decide +kernel
  exact hno (h 0 latePayment latePayment_settled)

end Shop
