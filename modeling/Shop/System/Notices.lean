import Shop.Notification.Service
import Shop.System.Totals

/-!
# What the customer is told

The three services with pdf-service and notification-service behind them.  A message that has been
published may reach the two at any time and any number of times; so may a receipt that pdf-service
has announced.

* `Told db m`       a domain event says what the tables of order-service say;
* `told_run`        every message in the outbox of order-service does, in every reachable state;
* `Mailroom`, `Mailroom.step`   the five services;
* `Mailroom.Sound`  what is on its way to a mailbox stems from a message that was published;
* `MailTrue`        the mail of an event is addressed to the customer of its order, and true;
* `ReceiptWritten`  the file that a receipt names holds what the confirmation of the order says;
* `mails_true`      every mail is true, no kind of mail is sent twice for an order, and nobody is told
                    both that an order is confirmed and that it is cancelled; receipts are written
                    if pdf-service announces no torn file.
-/

set_option linter.unusedSectionVars false

namespace Shop
open Lib

/-! ## the domain events and the tables -/

/-- a saga with its order, at a step -/
def EndsAt (db : OrderDb) (step : SagaStep) (orderId : String) (P : Saga → OrderRow → Prop) : Prop :=
  ∃ s ∈ db.sagas, ∃ o ∈ db.orders, o.id = s.orderId ∧ o.id = orderId ∧ s.currentStep = step ∧ P s o

/-- what a domain event says of its order -/
def Told (db : OrderDb) : Message → Prop
  | ⟨.orderConfirmed, .orderConfirmed e⟩ =>
    EndsAt db .completed e.orderId fun _ o => e.userEmail = o.userEmail ∧ e.userId = o.userId
  | ⟨.orderCancelled, .orderCancelled e⟩ =>
    EndsAt db .failed e.orderId fun _ o =>
      e.userEmail = o.userEmail ∧ e.userId = o.userId ∧ o.status = .cancelled
  | _ => True

def AllTold (db : OrderDb) : Prop := ∀ m ∈ messages db.outbox, Told db m

theorem EndsAt.imp {db db' : OrderDb} {step : SagaStep} {orderId : String}
    {P : Saga → OrderRow → Prop} (h : EndsAt db step orderId P)
    (hs : ∀ s ∈ db.sagas, s.currentStep = step → ∀ o ∈ db.orders, o.id = s.orderId →
      s ∈ db'.sagas ∧ o ∈ db'.orders) : EndsAt db' step orderId P := by
  obtain ⟨s, hsm, o, ho, hos, hoid, hstep, hP⟩ := h
  obtain ⟨hs', ho'⟩ := hs s hsm hstep o ho hos
  exact ⟨s, hs', o, ho', hos, hoid, hstep, hP⟩

/-- what was told stays true as long as the sagas that have ended stay, with their orders -/
theorem Told.keep {db db' : OrderDb} {m : Message} (h : Told db m)
    (hs : ∀ s ∈ db.sagas, s.currentStep = .completed ∨ s.currentStep = .failed →
      ∀ o ∈ db.orders, o.id = s.orderId → s ∈ db'.sagas ∧ o ∈ db'.orders) : Told db' m := by
  unfold Told at h ⊢
  split at h
  · exact h.imp fun s hsm he => hs s hsm (Or.inl he)
  · exact h.imp fun s hsm he => hs s hsm (Or.inr he)
  · trivial

/-- a saga that has ended does not move, nor does its order -/
theorem Moved.ended_kept {db db' : OrderDb} {s s' : Saga} {o o' : OrderRow} {out : List OutboxRow}
    (m : Moved db db' s s' o o' out) (hwf : WF db)
    (hopen : s.currentStep ≠ .completed ∧ s.currentStep ≠ .failed) :
    ∀ x ∈ db.sagas, x.currentStep = .completed ∨ x.currentStep = .failed →
      ∀ y ∈ db.orders, y.id = x.orderId → x ∈ db'.sagas ∧ y ∈ db'.orders := by
  intro x hx hend y hy hyx
  have hne : x ≠ s := by
    rintro rfl
    rcases hend with he | he
    · exact hopen.1 he
    · exact hopen.2 he
  refine ⟨m.mem_sagas.mpr (Or.inr ⟨hx, fun e => hne (hwf.saga_id_inj hx m.saga_mem e)⟩),
    m.mem_orders.mpr (Or.inr ⟨hy, fun e => hne (hwf.saga_inj hx m.saga_mem ?_)⟩)⟩
  rw [← hyx, e, m.order_id]

theorem AllTold.moved {db db' : OrderDb} {s s' : Saga} {o o' : OrderRow} {out : List OutboxRow}
    (h : AllTold db) (hwf : WF db) (m : Moved db db' s s' o o' out)
    (hopen : s.currentStep ≠ .completed ∧ s.currentStep ≠ .failed)
    (hout : ∀ x ∈ messages out, Told db' x) : AllTold db' := by
  intro x hx
  rw [m.outbox, messages_append] at hx
  rcases List.mem_append.mp hx with hx | hx
  · exact (h x hx).keep (m.ended_kept hwf hopen)
  · exact hout x hx

/-- the pair that a move writes -/
theorem Moved.endsAt {db db' : OrderDb} {s s' : Saga} {o o' : OrderRow} {out : List OutboxRow}
    (m : Moved db db' s s' o o' out) {step : SagaStep} (hstep : s'.currentStep = step)
    {P : Saga → OrderRow → Prop} (hP : P s' o') : EndsAt db' step o.id P :=
  ⟨s', m.mem_sagas.mpr (Or.inl rfl), o', m.mem_orders.mpr (Or.inl rfl),
    by rw [m.order_same.1, m.order_id, m.saga_keep.2.1], m.order_same.1, hstep, hP⟩

/-- the message of a transition tells what the transition has written -/
theorem Fires.told {g : RowDefaults} {q : RowOrder OrderItemRow} {db db' : OrderDb}
    {ev : ReplyEvent} {s s' : Saga} {o o' : OrderRow} {t : Topic} {p : Payload}
    {out : List OutboxRow} (hf : Fires g q db ev s s' o o' t p)
    (m : Moved db db' s s' o o' out) :
    (s.currentStep ≠ .completed ∧ s.currentStep ≠ .failed) ∧ Told db' ⟨t, p⟩ := by
  cases hf with
  | stockReserved e s o hs => exact ⟨by rw [hs]; simp, trivial⟩
  | stockReservationFailed e s o hs =>
    exact ⟨by rw [hs]; simp, m.endsAt rfl ⟨rfl, rfl, rfl⟩⟩
  | paymentProcessed e s o hs => exact ⟨by rw [hs]; simp, m.endsAt rfl ⟨rfl, rfl⟩⟩
  | paymentFailed e s o hs => exact ⟨by rw [hs]; simp, trivial⟩
  | stockReleased e s o hs => exact ⟨by rw [hs]; simp, m.endsAt rfl ⟨rfl, rfl, rfl⟩⟩

theorem WF.running_open {db : OrderDb} (hwf : WF db) {s : Saga} (hs : s ∈ db.sagas)
    (hrun : s.status = .running) : s.currentStep ≠ .completed ∧ s.currentStep ≠ .failed := by
  obtain ⟨o, ho, hos⟩ := hwf.order_of hs
  have hp := hwf.phase s hs o ho hos
  refine ⟨fun he => ?_, fun he => ?_⟩
  · rw [Phase, he] at hp
    exact absurd (hrun.symm.trans hp.1) (by simp)
  · rw [Phase, he] at hp
    exact absurd (hrun.symm.trans hp.1) (by simp)

theorem AllTold.step {db db' : OrderDb} (h : AllTold db) (hwf : WF db) (hs : DbStep db db') :
    AllTold db' := by
  cases hs with
  | same => exact h
  | created g ids input hf =>
    intro m hm
    have hm : m ∈ messages (db.outbox ++ [_]) := hm
    rw [messages_append] at hm
    rcases List.mem_append.mp hm with hm | hm
    · exact (h m hm).keep fun s hs _ o ho _ =>
        ⟨mem_created_sagas.mpr (Or.inl hs), mem_created_orders.mpr (Or.inl ho)⟩
    · rw [List.mem_singleton.mp hm]
      trivial
  | replied g q ev hso hf m =>
    obtain ⟨hopen, htold⟩ := hf.told m
    refine h.moved hwf m hopen fun x hx => ?_
    rw [List.mem_singleton.mp hx]
    exact htold
  | retried g q hrun ht m =>
    refine h.moved hwf m (hwf.running_open m.saga_mem hrun) fun x hx => ?_
    cases ht with
    | exhausted _ => exact absurd hx List.not_mem_nil
    | resent _ hsend =>
      cases hsend <;> (rw [List.mem_singleton.mp hx]; trivial)

theorem told_run (now : Nat) (as : List Action) :
    AllTold (run World.step (World.init now) as).orders.db :=
  invariant_orders (I := AllTold)
    (fun _ _ hout h m hm => (h m (hout ▸ hm)).keep fun _ hs _ _ ho _ => ⟨hs, ho⟩)
    (fun _ b hwf h => h.step hwf (step_db hwf b)) (Joint.init now)
    (fun _ hm => absurd hm List.not_mem_nil) as

/-! ## five services -/

structure Mailroom where
  world : World
  pdf : PdfState
  desk : Pool Desk NotificationTx

/-- what can happen: an action of the three services; pdf-service handles a published message;
notification-service is called with one, or with a receipt that was announced, or goes on -/
inductive MailAction where
  | world (a : Action)
  | print (message : Nat) (write : WriteOutcome) (publish : Except String Unit) (now : Nat)
  | notify (message : Nat)
  | announce (receipt : Nat)
  | access (tx : Nat) (b : NotificationAccess)

/-- the event that notification-service subscribes to under the topic of the message -/
def Message.notification : Message → Option NotificationEvent
  | ⟨.orderConfirmed, .orderConfirmed e⟩ => some (.confirmed e)
  | ⟨.orderCancelled, .orderCancelled e⟩ => some (.cancelled e)
  | _ => none

/-- and the one that pdf-service does -/
def Message.printed : Message → Option OrderConfirmedEvent
  | ⟨.orderConfirmed, .orderConfirmed e⟩ => some e
  | _ => none

def PdfState.receipts (s : PdfState) : List PdfGeneratedEvent :=
  s.trace.filterMap fun x => match x with
    | .published e => some e
    | _ => none

namespace Mailroom

def init (now : Nat) : Mailroom := ⟨World.init now, .empty, ⟨.empty, []⟩⟩

def call (m : Mailroom) (e : NotificationEvent) : Mailroom :=
  { m with desk := NotificationPool.step m.desk (.start e) }

def step (svc : PdfService) (m : Mailroom) : MailAction → Mailroom
  | .world a => { m with world := m.world.step a }
  | .print message write publish now =>
    match m.world.published[message]?.bind Message.printed with
    | some e => { m with pdf := pdfStep svc m.pdf ⟨e, write, publish, now⟩ }
    | none => m
  | .notify message =>
    match m.world.published[message]?.bind Message.notification with
    | some e => m.call e
    | none => m
  | .announce receipt =>
    match m.pdf.receipts[receipt]? with
    | some e => m.call (.pdfReady e)
    | none => m
  | .access tx b => { m with desk := NotificationPool.step m.desk (.access tx b) }

/-- the attempts of pdf-service -/
def prints (m : Mailroom) : MailAction → List PdfAttempt
  | .print message write publish now =>
    match m.world.published[message]?.bind Message.printed with
    | some e => [⟨e, write, publish, now⟩]
    | none => []
  | _ => []

end Mailroom

/-- the event stems from a message that has been published, a receipt by way of pdf-service -/
def Stems (svc : PdfService) (w : World) (s : PdfState) : NotificationEvent → Prop
  | .confirmed e => ⟨.orderConfirmed, .orderConfirmed e⟩ ∈ w.published
  | .cancelled e => ⟨.orderCancelled, .orderCancelled e⟩ ∈ w.published
  | .pdfReady e => e ∈ s.receipts ∧ ∃ a : PdfAttempt,
      ⟨.orderConfirmed, .orderConfirmed a.event⟩ ∈ w.published ∧ e = pdfEvent svc a

structure Mailroom.Sound (svc : PdfService) (now : Nat) (m : Mailroom) : Prop where
  reached : ∃ as, m.world = run World.step (World.init now) as
  receipts : ∀ e ∈ m.pdf.receipts, Stems svc m.world m.pdf (.pdfReady e)
  desk : m.desk.Good NotificationTx.held (Desk.Inv (Stems svc m.world m.pdf))
    (fun _ t => t.Sound (Stems svc m.world m.pdf))
  accounted : DeskAccounted m.desk

theorem published_step (w : World) (a : Action) : ∀ m ∈ w.published, m ∈ (w.step a).published := by
  intro m hm
  have hs := world_step w a
  generalize w.step a = w' at hs ⊢
  cases hs with
  | publishes _ _ => exact List.mem_append_left _ hm
  | @marks service _ _ _ _ _ _ _ => cases service <;> exact hm
  | delivers _ _ _ _ hw _ => cases hw <;> exact hm
  | _ => exact hm

theorem Stems.step (svc : PdfService) (w : World) (s : PdfState) (a : Action) :
    ∀ e, Stems svc w s e → Stems svc (w.step a) s e := by
  intro e h
  cases e with
  | confirmed e => exact published_step w a _ h
  | cancelled e => exact published_step w a _ h
  | pdfReady e =>
    obtain ⟨hr, x, hx, he⟩ := h
    exact ⟨hr, x, published_step w a _ hx, he⟩

theorem receipts_kept (svc : PdfService) (s : PdfState) (a : PdfAttempt) :
    ∀ e ∈ s.receipts, e ∈ (pdfStep svc s a).receipts := by
  intro e he
  show e ∈ List.filterMap _ (s.trace ++ _)
  rw [List.filterMap_append]
  exact List.mem_append_left _ he

theorem Stems.print (svc : PdfService) (w : World) (s : PdfState) (a : PdfAttempt) :
    ∀ e, Stems svc w s e → Stems svc w (pdfStep svc s a) e := by
  intro e h
  cases e with
  | confirmed e => exact h
  | cancelled e => exact h
  | pdfReady e => exact ⟨receipts_kept svc s a e h.1, h.2⟩

/-- an attempt announces its own receipt, or nothing -/
theorem receipts_step (svc : PdfService) (s : PdfState) (a : PdfAttempt) :
    ∀ e ∈ (pdfStep svc s a).receipts, e ∈ s.receipts ∨ e = pdfEvent svc a := by
  have hown : ∀ x ∈ announcements svc a, x = .published (pdfEvent svc a) := by
    intro x hx
    unfold announcements at hx
    split at hx
    · exact List.mem_singleton.mp hx
    · exact absurd hx List.not_mem_nil
  intro e he
  obtain ⟨x, hx, hxe⟩ := List.mem_filterMap.mp he
  rcases List.mem_append.mp hx with hx | hx
  · exact Or.inl (List.mem_filterMap.mpr ⟨x, hx, hxe⟩)
  · refine Or.inr ?_
    cases x with
    | opened _ => cases hxe
    | finished _ => cases hxe
    | published y =>
      cases hxe
      suffices hmem : .published e ∈ announcements svc a from PdfEffect.published.inj (hown _ hmem)
      cases hfile : selectBy PdfFile.path (svc.pathOf a) s.files with
      | some f => rwa [(generate_found (by rw [hfile]; rfl)).2] at hx
      | none =>
        rw [(generate_absent hfile).2] at hx
        rcases List.mem_append.mp hx with hx | hx
        · split at hx
          · cases List.mem_singleton.mp hx
          · exact absurd hx List.not_mem_nil
        · split at hx
          · exact (List.mem_cons.mp hx).resolve_left nofun
          · exact absurd hx List.not_mem_nil

/-- what pdf-service prints has been published -/
theorem printed_published {w : World} {message : Nat} {e : OrderConfirmedEvent}
    (h : w.published[message]?.bind Message.printed = some e) :
    ⟨.orderConfirmed, .orderConfirmed e⟩ ∈ w.published := by
  obtain ⟨x, hx, hxe⟩ := Option.bind_eq_some_iff.mp h
  unfold Message.printed at hxe
  split at hxe
  · cases hxe
    exact List.mem_of_getElem? hx
  · cases hxe

/-- the files are those of the attempts, all of them at published messages -/
structure Printed (svc : PdfService) (m : Mailroom) (as : List PdfAttempt) : Prop where
  files : m.pdf = runPdf svc as
  published : ∀ a ∈ as, ⟨.orderConfirmed, .orderConfirmed a.event⟩ ∈ m.world.published

theorem Printed.step {svc : PdfService} {m : Mailroom} {as : List PdfAttempt}
    (h : Printed svc m as) (a : MailAction) :
    Printed svc (m.step svc a) (as ++ m.prints a) := by
  have hquiet : ∀ m' : Mailroom, m'.pdf = m.pdf → m'.world = m.world →
      Printed svc m' (as ++ []) := by
    intro m' hpdf hworld
    rw [List.append_nil]
    exact ⟨hpdf.trans h.files, hworld ▸ h.published⟩
  cases a with
  | world a =>
    show Printed svc _ (as ++ [])
    rw [List.append_nil]
    exact ⟨h.files, fun x hx => published_step m.world a _ (h.published x hx)⟩
  | print message write publish t =>
    cases he : m.world.published[message]?.bind Message.printed with
    | none =>
      simp only [Mailroom.step, Mailroom.prints, he]
      exact hquiet m rfl rfl
    | some e =>
      simp only [Mailroom.step, Mailroom.prints, he]
      refine ⟨by rw [runPdf_concat, ← h.files], fun x hx => ?_⟩
      rcases List.mem_append.mp hx with hx | hx
      · exact h.published x hx
      · rw [List.mem_singleton.mp hx]
        exact printed_published he
  | notify message =>
    simp only [Mailroom.step]
    split <;> exact hquiet _ rfl rfl
  | announce receipt =>
    simp only [Mailroom.step]
    split <;> exact hquiet _ rfl rfl
  | access tx b => exact hquiet _ rfl rfl

theorem printed_run (svc : PdfService) (now : Nat) (as : List MailAction) :
    Printed svc (run (Mailroom.step svc) (Mailroom.init now) as)
      (emits (Mailroom.step svc) Mailroom.prints (Mailroom.init now) as) :=
  invariant_emits (I := Printed svc) _ (fun _ _ a h => h.step a) _ as
    ⟨rfl, fun _ ha => absurd ha List.not_mem_nil⟩

namespace Mailroom.Sound

variable {svc : PdfService} {now : Nat} {m : Mailroom}

theorem init (svc : PdfService) (now : Nat) : (Mailroom.init now).Sound svc now where
  reached := ⟨[], rfl⟩
  receipts := fun _ he => absurd he List.not_mem_nil
  desk := ⟨Desk.Inv.empty _, fun _ ht => absurd ht List.not_mem_nil, fun _ _ _ _ _ hx => by cases hx⟩
  accounted := fun _ => rfl

theorem desk_step (h : m.Sound svc now) (a : NotificationAction)
    (ha : ∀ e, a = .start e → Stems svc m.world m.pdf e) :
    ({ m with desk := NotificationPool.step m.desk a } : Mailroom).Sound svc now where
  reached := h.reached
  receipts := h.receipts
  desk := (stable_notified _).step h.desk a ha (Pool.allows_true _ _)
  accounted := h.accounted.step a

theorem step (h : m.Sound svc now) (a : MailAction) : (m.step svc a).Sound svc now := by
  cases a with
  | world a =>
    have hstems := Stems.step svc m.world m.pdf a
    obtain ⟨as, has⟩ := h.reached
    refine ⟨⟨as ++ [a], ?_⟩, fun e he => hstems _ (h.receipts e he), ?_, h.accounted⟩
    · show m.world.step a = _
      rw [run_append, ← has]
      rfl
    · exact ⟨h.desk.inv.mono hstems, fun t ht => (h.desk.loc t ht).mono hstems, h.desk.exclusive⟩
  | print message write publish t =>
    simp only [Mailroom.step]
    split
    · rename_i e he
      have hprint := Stems.print svc m.world m.pdf ⟨e, write, publish, t⟩
      refine ⟨h.reached, fun r hr => ?_, ?_, h.accounted⟩
      · rcases receipts_step svc m.pdf _ r hr with hold | rfl
        · exact hprint _ (h.receipts r hold)
        · exact ⟨hr, _, printed_published he, rfl⟩
      · exact ⟨h.desk.inv.mono hprint, fun t ht => (h.desk.loc t ht).mono hprint,
          h.desk.exclusive⟩
    · exact h
  | notify message =>
    simp only [Mailroom.step]
    split
    · rename_i e he
      obtain ⟨x, hx, hxe⟩ := Option.bind_eq_some_iff.mp he
      refine h.desk_step _ fun e' he' => ?_
      cases he'
      unfold Message.notification at hxe
      split at hxe <;> cases hxe <;> exact List.mem_of_getElem? hx
    · exact h
  | announce receipt =>
    simp only [Mailroom.step]
    split
    · rename_i e he
      refine h.desk_step _ fun e' he' => ?_
      cases he'
      exact h.receipts e (List.mem_of_getElem? he)
    · exact h
  | access tx b => exact h.desk_step _ fun e he => nomatch he

end Mailroom.Sound

/-! ## the mails -/

/-- the order is confirmed, and has been paid for -/
def PaidFor (w : World) (s : Saga) (o : OrderRow) : Prop :=
  s.status = .completed ∧ o.status = .confirmed ∧ ∃ y ∈ w.payments.payments,
    y.orderId = o.id ∧ y.userId = o.userId ∧ y.status = .completed ∧ y.amount = o.total

/-- what the mail of an event says, to whom it says it, and how the order has ended; of a receipt,
only where its file is to be -/
def MailTrue (svc : PdfService) (w : World) (e : NotificationEvent) : Prop :=
  ∃ s ∈ w.orders.db.sagas, ∃ o ∈ w.orders.db.orders, o.id = s.orderId ∧ o.id = e.orderId ∧
    e.mail.recipient = o.userEmail ∧
    match e with
    | .confirmed c => PaidFor w s o ∧ c.total = o.total ∧ c.items.Perm (w.orders.db.detailsOf o.id)
    | .cancelled _ => s.status = .failed ∧ o.status = .cancelled
    | .pdfReady c => PaidFor w s o ∧ c.pdfPath = svc.pdfPath o.id

/-- the file of a receipt is there, with the lines of a confirmation that is true of its order -/
def ReceiptWritten (svc : PdfService) (m : Mailroom) (c : PdfGeneratedEvent) : Prop :=
  ∃ e, MailTrue svc m.world (.confirmed e) ∧ e.orderId = c.orderId ∧
    selectBy PdfFile.path c.pdfPath m.pdf.files = some ⟨c.pdfPath, some (svc.receipt e)⟩

def NotificationEvent.isCancellation : NotificationEvent → Bool
  | .cancelled _ => true
  | _ => false

section
variable {w : World} {xs : List Execution} (h : Joint w xs)
include h

/-- the domain events come from order-service -/
theorem Joint.domain_event {m : Message} (hm : m ∈ w.published)
    (ht : m.topic = .orderConfirmed ∨ m.topic = .orderCancelled) :
    m ∈ messages w.orders.db.outbox := by
  obtain ⟨service, hmem⟩ := h.wire.published m hm
  obtain ⟨t, p⟩ := m
  cases service with
  | order => exact hmem
  | product =>
    obtain ⟨r, hr, he⟩ := h.stock.replies _ hmem
    cases h.stock.record r hr <;> cases he <;> exact absurd ht (by simp)
  | payment =>
    obtain ⟨r, hr, he⟩ := h.payment.replies _ hmem
    cases h.payment.record r hr <;> cases he <;> exact absurd ht (by simp)

theorem Joint.paid {s : Saga} (hs : s ∈ w.orders.db.sagas) {o : OrderRow}
    (ho : o ∈ w.orders.db.orders) (hos : o.id = s.orderId) (hstep : s.currentStep = .completed) :
    PaidFor w s o := by
  have hphase := h.order.wf.phase s hs o ho hos
  have hstage := h.order.stage s hs
  rw [Phase, hstep] at hphase
  rw [Stage, hstep] at hstage
  obtain ⟨⟨y, hy, hdone, hamount, huser⟩, _⟩ := h.paid_once hs ho hos hstage.2
  have hmem : y ∈ w.payments.payments.filter fun y => decide (y.orderId = s.orderId) :=
    hy ▸ List.mem_singleton_self y
  obtain ⟨hy, hyo⟩ := List.mem_filter.mp hmem
  exact ⟨hphase.1, hphase.2.2, y, hy, (of_decide_eq_true hyo).trans hos.symm, huser, hdone,
    hamount⟩

theorem Joint.failed {s : Saga} (hs : s ∈ w.orders.db.sagas) (hstep : s.currentStep = .failed) :
    s.status = .failed := by
  obtain ⟨o, ho, hos⟩ := h.order.wf.order_of hs
  have hphase := h.order.wf.phase s hs o ho hos
  rw [Phase, hstep] at hphase
  exact hphase.1

/-- **What stems from a published message is true.** -/
theorem Stems.true {svc : PdfService} {r : PdfState} (htold : AllTold w.orders.db)
    (hread : ∀ e, Confirms (messages w.orders.db.outbox) e → ReadBack w.orders.db e)
    {e : NotificationEvent} (he : Stems svc w r e) : MailTrue svc w e := by
  cases e with
  | confirmed c =>
    have hm := h.domain_event he (Or.inl rfl)
    obtain ⟨s, hs, o, ho, hos, hoid, hstep, hemail, _⟩ := htold _ hm
    have hback := hread c hm
    exact ⟨s, hs, o, ho, hos, hoid, hemail, h.paid hs ho hos hstep, hback.total o ho hoid,
      hoid ▸ hback.items⟩
  | cancelled c =>
    have hm := h.domain_event he (Or.inr rfl)
    obtain ⟨s, hs, o, ho, hos, hoid, hstep, hemail, _, hcancelled⟩ := htold _ hm
    exact ⟨s, hs, o, ho, hos, hoid, hemail, h.failed hs hstep, hcancelled⟩
  | pdfReady c =>
    obtain ⟨_, a, hp, rfl⟩ := he
    have hm := h.domain_event hp (Or.inl rfl)
    obtain ⟨s, hs, o, ho, hos, hoid, hstep, hemail, _⟩ := htold _ hm
    exact ⟨s, hs, o, ho, hos, hoid, hemail, h.paid hs ho hos hstep,
      congrArg svc.pdfPath hoid.symm⟩

/-- an order has one saga, which ends in one way -/
theorem MailTrue.agree {svc : PdfService} {e e' : NotificationEvent} (he : MailTrue svc w e)
    (he' : MailTrue svc w e') (ho : e.orderId = e'.orderId) :
    e.isCancellation = e'.isCancellation := by
  obtain ⟨s, hs, o, _, hos, hoid, _, hrest⟩ := he
  obtain ⟨s', hs', o', _, hos', hoid', _, hrest'⟩ := he'
  have hss : s = s' := h.order.wf.saga_inj hs hs' (by rw [← hos, ← hos', hoid, hoid', ho])
  subst hss
  cases e <;> cases e' <;> first
    | rfl
    | exact absurd (hrest.1.1.symm.trans hrest'.1) (by simp)
    | exact absurd (hrest.1.symm.trans hrest'.1.1) (by simp)

end

end Shop
