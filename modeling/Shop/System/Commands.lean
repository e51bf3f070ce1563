import Shop.System.Records

/-!
# What the orchestrator has written

`P` and `K` are the records of product-service and payment-service.

* `Command db P K m`   a message of order-service belongs to a saga, lists the lines of its order,
                       and was written only after the reply that calls for it was recorded;
* `Stage M P K s`      the records that the step of a saga rests on;
* `OrderBook db P K`   both, for all messages and sagas;
* `OrderBook.created`, `OrderBook.replied`, `OrderBook.retried`   what the transactions of
                       order-service do to it.
-/

set_option linter.unusedSectionVars false

namespace Shop
open Lib

inductive Command (db : OrderDb) (P K : List IdempotencyKey) : Message → Prop where
  | reserve (s : Saga) (items : List LineItem) : s ∈ db.sagas →
      items.Perm (db.linesOf s.orderId) →
      Command db P K ⟨.reserveStock, .reserveStock ⟨s.id, s.orderId, s.correlationId, items⟩⟩
  | pay (s : Saga) (o : OrderRow) : s ∈ db.sagas → o ∈ db.orders → o.id = s.orderId →
      s.currentStep ≠ .reserveStock → Recorded P s.id .stockReserved →
      Command db P K ⟨.processPayment, .processPayment
        ⟨payId s.id, s.orderId, s.correlationId, o.userId, o.total⟩⟩
  | release (s : Saga) (items : List LineItem) : s ∈ db.sagas →
      items.Perm (db.linesOf s.orderId) →
      s.currentStep = .releaseStock ∨ s.currentStep = .failed →
      Recorded K (payId s.id) .paymentFailed →
      Command db P K ⟨.releaseStock, .releaseStock ⟨releaseId s.id, s.orderId, s.correlationId, items⟩⟩
  | confirmed (e : OrderConfirmedEvent) : Command db P K ⟨.orderConfirmed, .orderConfirmed e⟩
  | cancelled (e : OrderCancelledEvent) : Command db P K ⟨.orderCancelled, .orderCancelled e⟩

/-- what has been recorded when a saga is at a step -/
def Stage (M : List Message) (P K : List IdempotencyKey) (s : Saga) : Prop :=
  match s.currentStep with
  | .processPayment => Recorded P s.id .stockReserved
  | .completed => Recorded P s.id .stockReserved ∧ Recorded K (payId s.id) .paymentProcessed
  | .releaseStock => Recorded P s.id .stockReserved ∧ Recorded K (payId s.id) .paymentFailed ∧
      ∃ c, Releases M c ∧ c.commandId = releaseId s.id
  | _ => True

structure OrderBook (db : OrderDb) (P K : List IdempotencyKey) : Prop where
  wf : WF db
  command : ∀ m ∈ messages db.outbox, Command db P K m
  stage : ∀ s ∈ db.sagas, Stage (messages db.outbox) P K s

theorem OrderBook.empty : OrderBook OrderDb.empty [] [] where
  wf := WF.empty
  command := fun _ h => absurd h List.not_mem_nil
  stage := fun _ h => absurd h List.not_mem_nil

/-! ## records are never taken back -/

theorem Stage.mono {M M' : List Message} {P P' K K' : List IdempotencyKey} {s : Saga}
    (h : Stage M P K s) (hM : ∀ m ∈ M, m ∈ M') (hP : ∀ r ∈ P, r ∈ P') (hK : ∀ r ∈ K, r ∈ K') :
    Stage M' P' K' s := by
  unfold Stage at h ⊢
  cases hs : s.currentStep <;> rw [hs] at h
  · exact trivial
  · exact h.mono hP
  · obtain ⟨h1, h2, c, hc, hid⟩ := h
    exact ⟨h1.mono hP, h2.mono hK, c, hM _ hc, hid⟩
  · exact ⟨h.1.mono hP, h.2.mono hK⟩
  · exact trivial

theorem Command.mono {db : OrderDb} {P P' K K' : List IdempotencyKey} {m : Message}
    (h : Command db P K m) (hP : ∀ r ∈ P, r ∈ P') (hK : ∀ r ∈ K, r ∈ K') : Command db P' K' m := by
  cases h with
  | reserve s items hs hp => exact .reserve s items hs hp
  | pay s o hs ho hos hst hr => exact .pay s o hs ho hos hst (hr.mono hP)
  | release s items hs hp hst hr => exact .release s items hs hp hst (hr.mono hK)
  | confirmed e => exact .confirmed e
  | cancelled e => exact .cancelled e

theorem OrderBook.mono {db : OrderDb} {P P' K K' : List IdempotencyKey} (h : OrderBook db P K)
    (hP : ∀ r ∈ P, r ∈ P') (hK : ∀ r ∈ K, r ∈ K') : OrderBook db P' K' where
  wf := h.wf
  command := fun m hm => (h.command m hm).mono hP hK
  stage := fun s hs => (h.stage s hs).mono (fun _ hm => hm) hP hK

/-- marks on the outbox are not part of the book -/
theorem OrderBook.outbox {db : OrderDb} {P K : List IdempotencyKey} (h : OrderBook db P K)
    {out : List OutboxRow} (hout : messages out = messages db.outbox) :
    OrderBook { db with outbox := out } P K where
  wf := ⟨h.wf.paired, h.wf.orderIds, h.wf.sagaIds, h.wf.uuid, h.wf.itemOwner, h.wf.itemIds,
    h.wf.phase⟩
  command := by
    intro m hm
    have hm' : m ∈ messages db.outbox := hout ▸ hm
    cases h.command m hm' with
    | reserve s items hs hp => exact .reserve s items hs hp
    | pay s o hs ho hos hst hr => exact .pay s o hs ho hos hst hr
    | release s items hs hp hst hr => exact .release s items hs hp hst hr
    | confirmed e => exact .confirmed e
    | cancelled e => exact .cancelled e
  stage := by
    intro s hs
    show Stage (messages out) P K s
    rw [hout]
    exact h.stage s hs

/-! ## what a move does -/

/-- what a saga never undoes: it leaves RESERVE_STOCK for good and with the final total, and a
release is followed by nothing but the end -/
structure Forward (s s' : Saga) (o o' : OrderRow) : Prop where
  left : s.currentStep ≠ .reserveStock → s'.currentStep ≠ .reserveStock ∧ o'.total = o.total
  release : s.currentStep = .releaseStock ∨ s.currentStep = .failed →
    s'.currentStep = .releaseStock ∨ s'.currentStep = .failed

theorem Fires.forward {g : RowDefaults} {q : RowOrder OrderItemRow} {db : OrderDb} {ev : ReplyEvent}
    {s s' : Saga} {o o' : OrderRow} {t : Topic} {p : Payload} (hf : Fires g q db ev s s' o o' t p) :
    Forward s s' o o' := by
  cases hf with
  | stockReserved e _ _ hs =>
    exact ⟨fun h => absurd hs h, fun h => by rw [hs] at h; exact absurd h (by decide)⟩
  | stockReservationFailed e _ _ hs => exact ⟨fun h => absurd hs h, fun _ => Or.inr rfl⟩
  | paymentProcessed e _ _ hs =>
    exact ⟨fun _ => ⟨nofun, rfl⟩, fun h => by rw [hs] at h; exact absurd h (by decide)⟩
  | paymentFailed e _ _ hs => exact ⟨fun _ => ⟨nofun, rfl⟩, fun _ => Or.inl rfl⟩
  | stockReleased e _ _ hs => exact ⟨fun _ => ⟨nofun, rfl⟩, fun _ => Or.inr rfl⟩

theorem Retries.forward {g : RowDefaults} {q : RowOrder OrderItemRow} {db : OrderDb} {s s' : Saga}
    {o : OrderRow} {out : List OutboxRow} (hr : Retries g q db s o s' out) : Forward s s' o o := by
  cases hr with
  | exhausted _ => exact ⟨fun _ => ⟨nofun, rfl⟩, fun _ => Or.inr rfl⟩
  | resent _ _ => exact ⟨fun h => ⟨h, rfl⟩, fun h => h⟩

section
variable {db db' : OrderDb} {s s' : Saga} {o o' : OrderRow} {out : List OutboxRow}
  {P K : List IdempotencyKey}

/-- what was written stays true of the sagas and orders after a move -/
theorem Command.moved (hwf : WF db) (m : Moved db db' s s' o o' out) (hf : Forward s s' o o')
    {msg : Message} (h : Command db P K msg) : Command db' P K msg := by
  cases h with
  | reserve x items hx hp =>
    rw [← m.linesOf] at hp
    by_cases he : x.id = s.id
    · rw [hwf.saga_id_inj hx m.saga_mem he] at hp ⊢
      rw [← m.saga_keep.1, ← m.saga_keep.2.1, ← m.saga_keep.2.2]
      exact .reserve s' items (m.mem_sagas.mpr (Or.inl rfl)) (by rw [m.saga_keep.2.1]; exact hp)
    · exact .reserve x items (m.mem_sagas.mpr (Or.inr ⟨hx, he⟩)) hp
  | pay x y hx hy hxy hst hr =>
    by_cases he : x.id = s.id
    · have hxs := hwf.saga_id_inj hx m.saga_mem he
      subst hxs
      have hyo := hwf.order_inj hy m.order_mem (hxy.trans m.order_id.symm)
      subst hyo
      obtain ⟨hst', htot⟩ := hf.left hst
      have hc := Command.pay (K := K) s' o' (m.mem_sagas.mpr (Or.inl rfl))
        (m.mem_orders.mpr (Or.inl rfl))
        (m.order_same.1.trans (m.order_id.trans m.saga_keep.2.1.symm)) hst'
        (by rw [m.saga_keep.1]; exact hr)
      rw [m.saga_keep.1, m.saga_keep.2.1, m.saga_keep.2.2, m.order_same.2.1, htot] at hc
      exact hc
    · have hyo : y.id ≠ o.id := by
        intro e
        have hxs := hwf.saga_inj hx m.saga_mem (hxy.symm.trans (e.trans m.order_id))
        exact he (congrArg Saga.id hxs)
      exact .pay x y (m.mem_sagas.mpr (Or.inr ⟨hx, he⟩)) (m.mem_orders.mpr (Or.inr ⟨hy, hyo⟩)) hxy
        hst hr
  | release x items hx hp hst hr =>
    rw [← m.linesOf] at hp
    by_cases he : x.id = s.id
    · have hxs := hwf.saga_id_inj hx m.saga_mem he
      subst hxs
      have hc := Command.release (P := P) s' items (m.mem_sagas.mpr (Or.inl rfl))
        (by rw [m.saga_keep.2.1]; exact hp) (hf.release hst) (by rw [m.saga_keep.1]; exact hr)
      rw [m.saga_keep.1, m.saga_keep.2.1, m.saga_keep.2.2] at hc
      exact hc
    · exact .release x items (m.mem_sagas.mpr (Or.inr ⟨hx, he⟩)) hp hst hr
  | confirmed e => exact .confirmed e
  | cancelled e => exact .cancelled e

theorem OrderBook.moved (h : OrderBook db P K) (m : Moved db db' s s' o o' out) (hwf : WF db')
    (hf : Forward s s' o o') (hout : ∀ msg ∈ messages out, Command db' P K msg)
    (hst : Stage (messages db'.outbox) P K s') : OrderBook db' P K where
  wf := hwf
  command := by
    intro msg hmsg
    rw [m.outbox, messages_append] at hmsg
    rcases List.mem_append.mp hmsg with hmsg | hmsg
    · exact (h.command msg hmsg).moved h.wf m hf
    · exact hout msg hmsg
  stage := by
    intro x hx
    rcases m.mem_sagas.mp hx with rfl | ⟨hx, _⟩
    · exact hst
    · apply (h.stage x hx).mono _ (fun _ hr => hr) (fun _ hr => hr)
      intro msg hmsg
      rw [m.outbox, messages_append]
      exact List.mem_append_left _ hmsg

end

/-! ## the transactions of order-service -/

/-- the record behind a reply to a saga -/
def Answered (P K : List IdempotencyKey) (s : Saga) : ReplyEvent → Prop
  | .stockReserved _ => Recorded P s.id .stockReserved
  | .stockReservationFailed _ => Recorded P s.id .stockReservationFailed
  | .paymentProcessed _ => Recorded K (payId s.id) .paymentProcessed
  | .paymentFailed _ => Recorded K (payId s.id) .paymentFailed
  | .stockReleased _ => Recorded P (releaseId s.id) .stockReleased

section
variable {db db' : OrderDb} {P K : List IdempotencyKey}

theorem OrderBook.created {g : RowDefaults} {ids : NewIds} {input : CreateOrderInput}
    (hf : ids.fresh db input = true) (h : OrderBook db P K) :
    OrderBook (created g ids db input) P K where
  wf := created_wf h.wf hf
  command := by
    intro m hm
    have hline : ∀ s ∈ db.sagas, (Shop.created g ids db input).linesOf s.orderId
        = db.linesOf s.orderId := by
      intro s hs
      apply linesOf_created_old
      intro e
      apply (fresh_iff.mp hf).1
      rw [← h.wf.paired, ← e]
      exact List.mem_map_of_mem hs
    have hm' : m ∈ messages (db.outbox ++ [_]) := hm
    rw [messages_append] at hm'
    rcases List.mem_append.mp hm' with hm | hm
    · cases h.command m hm with
      | reserve s items hs hp =>
        exact .reserve s items (mem_created_sagas.mpr (Or.inl hs)) (by rw [hline s hs]; exact hp)
      | pay s o hs ho hos hst hr =>
        exact .pay s o (mem_created_sagas.mpr (Or.inl hs)) (mem_created_orders.mpr (Or.inl ho)) hos
          hst hr
      | release s items hs hp hst hr =>
        exact .release s items (mem_created_sagas.mpr (Or.inl hs)) (by rw [hline s hs]; exact hp)
          hst hr
      | confirmed e => exact .confirmed e
      | cancelled e => exact .cancelled e
    · rw [List.mem_singleton.mp hm]
      refine Command.reserve
        { Saga.create g.now ids.order.val input.correlationId with id := ids.saga.val } input.items
        (mem_created_sagas.mpr (Or.inr rfl)) ?_
      show input.items.Perm ((Shop.created g ids db input).linesOf ids.order.val)
      rw [linesOf_created_new h.wf hf]
  stage := by
    intro s hs
    rcases mem_created_sagas.mp hs with hs | rfl
    · apply (h.stage s hs).mono _ (fun _ hr => hr) (fun _ hr => hr)
      intro m hm
      show m ∈ messages (db.outbox ++ [_])
      rw [messages_append]
      exact List.mem_append_left _ hm
    · exact trivial

/-- **A reply that has been recorded keeps the book of the orchestrator.** -/
theorem OrderBook.replied {g : RowDefaults} {q : RowOrder OrderItemRow} {ev : ReplyEvent}
    {s s' : Saga} {o o' : OrderRow} {t : Topic} {p : Payload} (h : OrderBook db P K)
    (hs : s.orderId = ev.orderId) (hf : Fires g q db ev s s' o o' t p)
    (m : Moved db db' s s' o o' [OutboxRow.write g ev.orderId t ev.orderId p])
    (hev : Answered P K s ev) : OrderBook db' P K := by
  have hwf := m.wf h.wf (hf.phase (h.wf.phase s m.saga_mem o m.order_mem m.order_id))
  have hs' : s' ∈ db'.sagas := m.mem_sagas.mpr (Or.inl rfl)
  have ho' : o' ∈ db'.orders := m.mem_orders.mpr (Or.inl rfl)
  have hlines : (OrderDb.itemsOf (db.toDomain q o)).Perm (db'.linesOf s'.orderId) := by
    rw [m.linesOf, m.saga_keep.2.1, ← m.order_id]
    exact itemsOf_lines q db o
  have hmem : (⟨t, p⟩ : Message) ∈ messages db'.outbox := by
    rw [m.outbox, messages_append]
    exact List.mem_append_right _ (List.mem_singleton.mpr rfl)
  have hst := h.stage s m.saga_mem
  refine h.moved m hwf hf.forward ?_ ?_
  · intro msg hmsg
    rw [List.mem_singleton.mp hmsg, OutboxRow.message_write]
    cases hf with
    | stockReserved e _ _ _ =>
      have he : e.orderId = s.orderId := hs.symm
      rw [he]
      exact .pay _ _ hs' ho' m.order_id nofun hev
    | stockReservationFailed e _ _ _ => exact .cancelled _
    | paymentProcessed e _ _ _ => exact .confirmed _
    | paymentFailed e _ _ _ =>
      have he : e.orderId = s.orderId := hs.symm
      rw [he]
      exact .release (s.startCompensation g.now e.reason) _ hs' hlines (Or.inl rfl) hev
    | stockReleased e _ _ _ => exact .cancelled _
  · cases hf with
    | stockReserved e _ _ _ => exact hev
    | stockReservationFailed e _ _ _ => exact trivial
    | paymentProcessed e _ _ hstep =>
      rw [Stage, hstep] at hst
      exact ⟨hst, hev⟩
    | paymentFailed e _ _ hstep =>
      rw [Stage, hstep] at hst
      exact ⟨hst, hev, _, hmem, rfl⟩
    | stockReleased e _ _ _ => exact trivial

/-- **A retry keeps the book of the orchestrator.** -/
theorem OrderBook.retried {g : RowDefaults} {q : RowOrder OrderItemRow} {s s' : Saga} {o : OrderRow}
    {out : List OutboxRow} (h : OrderBook db P K) (hrun : s.status = .running)
    (hr : Retries g q db s o s' out) (m : Moved db db' s s' o o out) : OrderBook db' P K := by
  have hwf := m.wf h.wf (hr.phase hrun (h.wf.phase s m.saga_mem o m.order_mem m.order_id))
  have hs' : s' ∈ db'.sagas := m.mem_sagas.mpr (Or.inl rfl)
  have ho' : o ∈ db'.orders := m.mem_orders.mpr (Or.inl rfl)
  have hlines : (OrderDb.itemsOf (db.toDomain q o)).Perm (db'.linesOf s'.orderId) := by
    rw [m.linesOf, m.saga_keep.2.1, ← m.order_id]
    exact itemsOf_lines q db o
  have hsub : ∀ msg ∈ messages db.outbox, msg ∈ messages db'.outbox := by
    intro msg hmsg
    rw [m.outbox, messages_append]
    exact List.mem_append_left _ hmsg
  have hst := (h.stage s m.saga_mem).mono hsub (fun _ hr => hr) (fun _ hr => hr)
  refine h.moved m hwf hr.forward ?_ ?_
  · intro msg hmsg
    cases hr with
    | exhausted _ => exact absurd hmsg List.not_mem_nil
    | resent _ hsend =>
      rw [List.mem_singleton.mp hmsg, OutboxRow.message_write]
      cases hsend with
      | reserveStock hstep => exact .reserve (s.scheduleRetry g.now) _ hs' hlines
      | processPayment hstep =>
        rw [Stage, hstep] at hst
        exact .pay (s.scheduleRetry g.now) _ hs' ho' m.order_id
          (by show s.currentStep ≠ _; rw [hstep]; decide) hst
      | releaseStock hstep =>
        rw [Stage, hstep] at hst
        exact .release (s.scheduleRetry g.now) _ hs' hlines (Or.inl hstep) hst.2.1
  · cases hr with
    | exhausted _ => exact trivial
    | resent _ _ => exact hst

end

end Shop
