import Mathlib.Data.List.Induction
import Shop.Kafka.Consumer
import Shop.Lib.Run
import Shop.Lib.Table
import Shop.Shared.Messages

/-!
# The receipts of confirmed orders

`pdf.service.ts`: an order that was confirmed gets a receipt, `order-<id>.pdf`, and PDF_GENERATED
announces it.  A file that is there already is announced again without a look at it.

* `generateOrderPdf svc a files`   one attempt on the files of the directory;
* `runPdf`                         attempts one after the other, and what they have done so far;
* `opener svc p as`                the attempt that opened the file of a path;
* `AnnouncesFinished`              a file is announced after it was finished;
* `announced_iff`                  when a run of attempts does;
* `Delivery`, `deliver`            the attempts that the consumer makes of one message.

An attempt carries how far it gets: a stream that cannot be opened leaves no file, a write that
fails later (or a process that ends) leaves a torn one.
-/

set_option linter.unusedSectionVars false

namespace Shop
open Lib

/-! ## the receipt -/

def twoDigits (n : Nat) : String := if n < 10 then "0" ++ toString n else toString n

/-- `toFixed(2)` of an amount in cents -/
def toFixed2 (cents : Int) : String :=
  (if cents < 0 then "-" else "") ++ toString (cents.natAbs / 100) ++ "." ++
    twoDigits (cents.natAbs % 100)

structure PdfService where
  pdfDir : String
  localDate : Nat → String

def receiptLine (item : OrderCreatedEventItem) : String :=
  item.name ++ "  x" ++ toString item.quantity ++ "  @ $" ++ toFixed2 item.unitPrice ++ "  =  $" ++
    toFixed2 (item.unitPrice * item.quantity)

/-- the lines of the document that `writePdf` writes -/
def PdfService.receipt (svc : PdfService) (event : OrderConfirmedEvent) : List String :=
  ["Order Receipt", "Order ID: " ++ event.orderId, "Customer: " ++ event.userEmail,
    "Date: " ++ svc.localDate event.confirmedAt, "Items:"] ++
  event.items.map receiptLine ++ ["Total: $" ++ toFixed2 event.total]

def PdfService.pdfPath (svc : PdfService) (orderId : String) : String :=
  svc.pdfDir ++ "/order-" ++ orderId ++ ".pdf"

/-! ## one attempt -/

/-- a file of the directory; `lines` is what it holds if it was written completely -/
structure PdfFile where
  path : String
  lines : Option (List String)
deriving DecidableEq

structure PdfGeneratedEvent where
  orderId : String
  userId : String
  userEmail : String
  correlationId : String
  pdfPath : String
  createdAt : Nat
deriving DecidableEq

inductive PdfEffect where
  | opened (path : String)
  | finished (path : String)
  | published (event : PdfGeneratedEvent)
deriving DecidableEq

/-- how the write of a file ends -/
inductive WriteOutcome where
  | notOpened (err : String)
  | torn (err : String)
  | finished
deriving DecidableEq

/-- a call of `generateOrderPdf`: its event, and what it meets with -/
structure PdfAttempt where
  event : OrderConfirmedEvent
  write : WriteOutcome
  publish : Except String Unit
  now : Nat

structure PdfResult where
  files : List PdfFile
  effects : List PdfEffect
  result : Except String Unit

section
variable (svc : PdfService)

def PdfService.pathOf (a : PdfAttempt) : String := svc.pdfPath a.event.orderId

def writePdf (a : PdfAttempt) (files : List PdfFile) : PdfResult :=
  let pdfPath := svc.pathOf a
  match a.write with
  | .notOpened err => ⟨files, [], .error err⟩
  | .torn err => ⟨files ++ [⟨pdfPath, none⟩], [.opened pdfPath], .error err⟩
  | .finished => ⟨files ++ [⟨pdfPath, some (svc.receipt a.event)⟩],
      [.opened pdfPath, .finished pdfPath], .ok ()⟩

def pdfEvent (a : PdfAttempt) : PdfGeneratedEvent where
  orderId := a.event.orderId
  userId := a.event.userId
  userEmail := a.event.userEmail
  correlationId := a.event.correlationId
  pdfPath := svc.pathOf a
  createdAt := a.now

/-- the publication that ends an attempt -/
def announce (a : PdfAttempt) (g : PdfResult) : PdfResult :=
  match a.publish with
  | .error err => { g with result := .error err }
  | .ok () => { g with effects := g.effects ++ [.published (pdfEvent svc a)], result := .ok () }

def generateOrderPdf (a : PdfAttempt) (files : List PdfFile) : PdfResult :=
  if (selectBy PdfFile.path (svc.pathOf a) files).isSome then announce svc a ⟨files, [], .ok ()⟩
  else
    let g := writePdf svc a files
    match g.result with
    | .error _ => g
    | .ok () => announce svc a g

/-! ## attempts one after the other -/

/-- the files, and what has been done so far -/
structure PdfState where
  files : List PdfFile
  trace : List PdfEffect

def PdfState.empty : PdfState := ⟨[], []⟩

def pdfStep (s : PdfState) (a : PdfAttempt) : PdfState :=
  let g := generateOrderPdf svc a s.files
  ⟨g.files, s.trace ++ g.effects⟩

def runPdf (as : List PdfAttempt) : PdfState := run (pdfStep svc) .empty as

theorem runPdf_concat (as : List PdfAttempt) (a : PdfAttempt) :
    runPdf svc (as ++ [a]) = pdfStep svc (runPdf svc as) a := run_append (pdfStep svc) _ as [a]

def PdfAttempt.opens (a : PdfAttempt) : Bool :=
  match a.write with
  | .notOpened _ => false
  | _ => true

/-- the attempt that opened the file of a path: the first one that could -/
def opener (p : String) (as : List PdfAttempt) : Option PdfAttempt :=
  as.find? fun a => decide (svc.pathOf a = p) && a.opens

/-- what the file of the attempt holds, if the attempt has opened it -/
def PdfService.written (a : PdfAttempt) : Option (List String) :=
  match a.write with
  | .finished => some (svc.receipt a.event)
  | _ => none

/-- the publication of the attempt, as far as its producer is concerned -/
def announcements (a : PdfAttempt) : List PdfEffect :=
  match a.publish with
  | .ok () => [.published (pdfEvent svc a)]
  | .error _ => []

variable {svc} {as : List PdfAttempt} {a : PdfAttempt} {p : String}

theorem opener_concat : opener svc p (as ++ [a]) =
    (opener svc p as).or (if svc.pathOf a = p ∧ a.opens then some a else none) := by
  unfold opener
  rw [List.find?_append]
  congr 1
  by_cases h : svc.pathOf a = p ∧ a.opens
  · rw [if_pos h, List.find?_cons_of_pos (by simpa using h)]
  · rw [if_neg h, List.find?_cons_of_neg (by simpa using h), List.find?_nil]

theorem announce_eq (a : PdfAttempt) (g : PdfResult) :
    (announce svc a g).files = g.files ∧
    (announce svc a g).effects = g.effects ++ announcements svc a := by
  unfold announce announcements
  cases a.publish with
  | ok => exact ⟨rfl, rfl⟩
  | error err => exact ⟨rfl, (List.append_nil _).symm⟩

/-- what an attempt does when the file is there -/
theorem generate_found {files : List PdfFile}
    (h : (selectBy PdfFile.path (svc.pathOf a) files).isSome) :
    (generateOrderPdf svc a files).files = files ∧
    (generateOrderPdf svc a files).effects = announcements svc a := by
  unfold generateOrderPdf
  rw [if_pos h]
  exact announce_eq a ⟨files, [], .ok ()⟩

/-- what an attempt does when it is not -/
theorem generate_absent {files : List PdfFile}
    (h : selectBy PdfFile.path (svc.pathOf a) files = none) :
    (generateOrderPdf svc a files).files =
      files ++ (if a.opens then [⟨svc.pathOf a, svc.written a⟩] else []) ∧
    (generateOrderPdf svc a files).effects =
      (if a.opens then [.opened (svc.pathOf a)] else []) ++
      (if a.write = .finished then .finished (svc.pathOf a) :: announcements svc a else []) := by
  unfold generateOrderPdf writePdf PdfAttempt.opens PdfService.written
  rw [h]
  cases a.write with
  | notOpened err => exact ⟨(List.append_nil _).symm, rfl⟩
  | torn err => exact ⟨rfl, rfl⟩
  | finished => exact announce_eq a _

/-! ## what a run leaves -/

/-- the attempt that opened the file, after one more attempt at a path where there is none -/
theorem opener_concat_absent (h : opener svc (svc.pathOf a) as = none) :
    opener svc p (as ++ [a]) =
      if svc.pathOf a = p ∧ a.opens then some a else opener svc p as := by
  rw [opener_concat]
  by_cases hp : svc.pathOf a = p ∧ a.opens
  · rw [if_pos hp, if_pos hp, ← hp.1, h, Option.none_or]
  · rw [if_neg hp, if_neg hp, Option.or_none]

theorem opener_concat_found (h : (opener svc (svc.pathOf a) as).isSome) :
    opener svc p (as ++ [a]) = opener svc p as := by
  rw [opener_concat]
  by_cases hp : svc.pathOf a = p
  · obtain ⟨b, hb⟩ := Option.isSome_iff_exists.mp h
    rw [← hp, hb, Option.some_or]
  · rw [if_neg fun h => hp h.1, Option.or_none]

variable (svc) in
/-- **The file of a path is what the attempt that opened it has written.** -/
theorem runPdf_files (as : List PdfAttempt) (p : String) :
    selectBy PdfFile.path p (runPdf svc as).files =
      (opener svc p as).map fun a => ⟨p, svc.written a⟩ := by
  induction as using List.reverseRecOn generalizing p with
  | nil => rfl
  | append_singleton as a ih =>
    rw [runPdf_concat]
    show selectBy PdfFile.path p (generateOrderPdf svc a (runPdf svc as).files).files = _
    have hself := ih (svc.pathOf a)
    cases ho : opener svc (svc.pathOf a) as with
    | some b =>
      rw [ho] at hself
      rw [(generate_found (by rw [hself]; rfl)).1, ih,
        opener_concat_found (Option.isSome_iff_exists.mpr ⟨b, ho⟩)]
    | none =>
      rw [ho] at hself
      rw [(generate_absent hself).1, opener_concat_absent ho]
      by_cases hopens : a.opens
      · rw [if_pos hopens, selectBy_append, ih]
        by_cases hp : svc.pathOf a = p
        · rw [if_pos hp, if_pos ⟨hp, hopens⟩, ← hp, ho]
          rfl
        · rw [if_neg hp, if_neg fun h => hp h.1, Option.or_none]
      · rw [if_neg hopens, List.append_nil, ih, if_neg fun h => hopens h.2]

theorem finished_not_announced (a : PdfAttempt) (p : String) :
    .finished p ∉ announcements svc a := by
  unfold announcements
  cases a.publish with
  | ok => exact fun h => nomatch List.mem_singleton.mp h
  | error err => exact List.not_mem_nil

theorem opens_of_finished (h : a.write = .finished) : a.opens := by
  unfold PdfAttempt.opens
  rw [h]

theorem generate_absent_finished {files : List PdfFile}
    (h : selectBy PdfFile.path (svc.pathOf a) files = none) :
    .finished p ∈ (generateOrderPdf svc a files).effects ↔
      svc.pathOf a = p ∧ a.write = .finished := by
  have hopened : .finished p ∉ if a.opens then [PdfEffect.opened (svc.pathOf a)] else [] := by
    split
    · exact fun h => nomatch List.mem_singleton.mp h
    · exact List.not_mem_nil
  rw [(generate_absent h).2, List.mem_append, or_iff_right hopened]
  by_cases hw : a.write = .finished
  · rw [if_pos hw, List.mem_cons, or_iff_left (finished_not_announced a p),
      PdfEffect.finished.injEq]
    exact ⟨fun h => ⟨h.symm, hw⟩, fun h => h.1.symm⟩
  · rw [if_neg hw]
    exact iff_of_false List.not_mem_nil fun h => hw h.2

/-- a file has been finished if the attempt that opened it did so -/
theorem runPdf_finished (as : List PdfAttempt) (p : String) :
    .finished p ∈ (runPdf svc as).trace ↔
      ∃ a, opener svc p as = some a ∧ a.write = .finished := by
  induction as using List.reverseRecOn with
  | nil => exact iff_of_false List.not_mem_nil fun ⟨_, h, _⟩ => nomatch h
  | append_singleton as a ih =>
    rw [runPdf_concat]
    show _ ∈ (runPdf svc as).trace ++ (generateOrderPdf svc a (runPdf svc as).files).effects ↔ _
    rw [List.mem_append, ih]
    have hself := runPdf_files svc as (svc.pathOf a)
    cases ho : opener svc (svc.pathOf a) as with
    | some b =>
      rw [ho] at hself
      rw [(generate_found (by rw [hself]; rfl)).2,
        opener_concat_found (Option.isSome_iff_exists.mpr ⟨b, ho⟩)]
      exact or_iff_left (finished_not_announced a p)
    | none =>
      rw [ho] at hself
      rw [generate_absent_finished hself, opener_concat_absent ho]
      by_cases hp : svc.pathOf a = p
      · rw [← hp, ho]
        by_cases hopens : a.opens
        · rw [if_pos ⟨rfl, hopens⟩]
          exact ⟨fun h => h.elim (fun ⟨_, h, _⟩ => nomatch h) fun h => ⟨a, rfl, h.2⟩,
            fun ⟨_, h, hw⟩ => Or.inr ⟨rfl, Option.some.inj h ▸ hw⟩⟩
        · rw [if_neg fun h => hopens h.2]
          exact or_iff_left fun h => hopens (opens_of_finished h.2)
      · rw [if_neg fun h => hp h.1]
        exact or_iff_left fun h => hp h.1

/-! ## announcements -/

/-- PDF_GENERATED is published for a path only after the file of that path was finished -/
def AnnouncesFinished (trace : List PdfEffect) : Prop :=
  EachAfter (fun pre x => ∀ e, x = .published e → .finished e.pdfPath ∈ pre) trace

variable (svc) in
/-- no attempt gets to its publication at a path where an earlier one left a torn file -/
def Unbroken (as : List PdfAttempt) : Prop :=
  EachAfter (fun pre c => c.publish = .ok () →
    ∀ a, opener svc (svc.pathOf c) pre = some a → a.write = .finished) as

theorem announcesFinished_quiet {t : List PdfEffect} {x : PdfEffect}
    (h : ∀ e, x ≠ .published e) : AnnouncesFinished (t ++ [x]) ↔ AnnouncesFinished t := by
  unfold AnnouncesFinished
  rw [eachAfter_concat]
  exact and_iff_left fun e he => absurd he (h e)

theorem announcesFinished_announcements {t : List PdfEffect} (a : PdfAttempt) :
    AnnouncesFinished (t ++ announcements svc a) ↔
      AnnouncesFinished t ∧ (a.publish = .ok () → .finished (svc.pathOf a) ∈ t) := by
  unfold announcements
  cases hp : a.publish with
  | error err =>
    dsimp only
    rw [List.append_nil]
    exact (and_iff_left fun h => nomatch h).symm
  | ok =>
    unfold AnnouncesFinished
    rw [eachAfter_concat]
    refine and_congr_right fun _ => ⟨fun h _ => h _ rfl, fun h e he => ?_⟩
    cases he
    exact h rfl

/-- an attempt that writes the file itself announces it rightly, if at all -/
theorem announcesFinished_absent {t : List PdfEffect} {files : List PdfFile}
    (h : selectBy PdfFile.path (svc.pathOf a) files = none) :
    AnnouncesFinished (t ++ (generateOrderPdf svc a files).effects) ↔ AnnouncesFinished t := by
  rw [(generate_absent h).2, ← List.append_assoc]
  have hopened : AnnouncesFinished (t ++ if a.opens then [.opened (svc.pathOf a)] else []) ↔
      AnnouncesFinished t := by
    split
    · exact announcesFinished_quiet fun e he => nomatch he
    · rw [List.append_nil]
  by_cases hw : a.write = .finished
  · rw [if_pos hw, List.append_cons, announcesFinished_announcements,
      announcesFinished_quiet (x := .finished _) (by intro e he; cases he), hopened]
    exact and_iff_left fun _ => List.mem_append_right _ List.mem_cons_self
  · rw [if_neg hw, List.append_nil, hopened]

/-- one more attempt at a time -/
theorem runPdf_announced (as : List PdfAttempt) :
    AnnouncesFinished (runPdf svc as).trace ↔ Unbroken svc as := by
  induction as using List.reverseRecOn with
  | nil => exact iff_of_true (eachAfter_nil _) (eachAfter_nil _)
  | append_singleton as a ih =>
    rw [runPdf_concat, Unbroken, eachAfter_concat]
    show AnnouncesFinished (_ ++ (generateOrderPdf svc a (runPdf svc as).files).effects) ↔
      Unbroken svc as ∧ _
    have hself := runPdf_files svc as (svc.pathOf a)
    cases ho : opener svc (svc.pathOf a) as with
    | none =>
      rw [ho] at hself
      rw [announcesFinished_absent hself, ih]
      exact (and_iff_left fun _ b hb => nomatch hb).symm
    | some b =>
      rw [ho] at hself
      rw [(generate_found (by rw [hself]; rfl)).2, announcesFinished_announcements, ih,
        runPdf_finished, ho]
      refine and_congr_right fun _ => imp_congr_right fun _ => ?_
      exact ⟨fun ⟨c, hc, hw⟩ d hd => Option.some.inj (hd.symm.trans hc) ▸ hw,
        fun h => ⟨b, rfl, h b rfl⟩⟩

theorem pdfPath_inj {id id' : String} (h : svc.pdfPath id = svc.pdfPath id') : id = id' := by
  unfold PdfService.pdfPath at h
  have h := congrArg String.toList h
  simp only [String.toList_append, List.append_assoc] at h
  exact String.toList_injective
    (List.append_cancel_right (List.append_cancel_left (List.append_cancel_left h)))

/-- where no torn file is announced, a file that was announced is complete: it is the receipt of the
attempt that has opened it -/
theorem announced_written {as : List PdfAttempt} (h : Unbroken svc as) {e : PdfGeneratedEvent}
    (he : .published e ∈ (runPdf svc as).trace) :
    ∃ a ∈ as, svc.pathOf a = e.pdfPath ∧
      selectBy PdfFile.path e.pdfPath (runPdf svc as).files =
        some ⟨e.pdfPath, some (svc.receipt a.event)⟩ := by
  obtain ⟨pre, hpre, hfinished⟩ := ((runPdf_announced as).mpr h).of_mem he
  obtain ⟨a, ha, hw⟩ := (runPdf_finished as e.pdfPath).mp (hpre _ (hfinished e rfl))
  have hopened := List.find?_some ha
  rw [Bool.and_eq_true, decide_eq_true_eq] at hopened
  refine ⟨a, List.mem_of_find?_eq_some ha, hopened.1, ?_⟩
  rw [runPdf_files, ha, Option.map_some]
  unfold PdfService.written
  rw [hw]

/-! ## deliveries -/

/-- `PdfController.onModuleInit` -/
def orderConfirmed : Subscription Unit := ⟨"orders.order-confirmed", (), none⟩

/-- a message, and the attempts that its handler would make one after the other -/
structure Delivery where
  raw : String
  attempt : Nat → PdfAttempt
  same : ∀ i, (attempt i).event = (attempt 1).event

namespace Delivery

/-- the first attempts, counted from 1 -/
def first (d : Delivery) (n : Nat) : List PdfAttempt :=
  (List.range n).map fun i => d.attempt (i + 1)

variable (svc) (env : ConsumerEnv) (s : PdfState) (d : Delivery)

/-- the handler ends as `generateOrderPdf` does after the attempts before -/
def handled : ConsumerEnv :=
  { env with outcome := fun i =>
      let files := (run (pdfStep svc) s (d.first (i - 1))).files
      (generateOrderPdf svc (d.attempt i) files).result }

/-- the attempts that the consumer makes -/
def made : List PdfAttempt :=
  d.first (dispatch (handled svc env s d) [orderConfirmed] orderConfirmed.topic
    (some d.raw)).calls.length

end Delivery

variable (svc) in
def deliver (env : ConsumerEnv) (s : PdfState) (d : Delivery) : PdfState :=
  run (pdfStep svc) s (Delivery.made svc env s d)

/-- deliveries are attempts -/
theorem run_deliver (env : ConsumerEnv) (s : PdfState) (ds : List Delivery) :
    run (deliver svc env) s ds =
      run (pdfStep svc) s (emits (deliver svc env) (Delivery.made svc env) s ds) := by
  induction ds generalizing s with
  | nil => rfl
  | cons d ds ih =>
    rw [run_cons, ih]
    exact (run_append (pdfStep svc) s _ _).symm

/-- **In a run of attempts PDF_GENERATED is published for finished files only if and only if no
attempt gets to its publication after one that opened the same file and could not finish it.  The
same is true of the attempts that the consumer makes of any messages.** -/
theorem announced_iff (svc : PdfService) (env : ConsumerEnv) :
    (∀ as : List PdfAttempt, AnnouncesFinished (runPdf svc as).trace ↔ Unbroken svc as) ∧
    ∀ ds : List Delivery, AnnouncesFinished (run (deliver svc env) .empty ds).trace ↔
      Unbroken svc (emits (deliver svc env) (Delivery.made svc env) .empty ds) :=
  ⟨runPdf_announced, fun ds => by rw [run_deliver]; exact runPdf_announced _⟩

def sampleConfirmed : OrderConfirmedEvent :=
  ⟨(Uuid.sample '9').val, "u1", "u1@example.com", "c1", [⟨(Uuid.sample '7').val, "Pen", 2, 150⟩], 300,
    0⟩

/-- the write fails when the file is open; the next attempt finds the file -/
theorem torn_announced :
    ¬ ∀ (svc : PdfService) (as : List PdfAttempt), AnnouncesFinished (runPdf svc as).trace := by
  intro h
  have := h ⟨"pdfs", fun _ => ""⟩ [⟨sampleConfirmed, .torn "ENOSPC", .ok (), 0⟩,
    ⟨sampleConfirmed, .finished, .ok (), 1⟩]
    [.opened ("pdfs/order-" ++ (Uuid.sample '9').val ++ ".pdf")] _ (List.prefix_refl _) _ rfl
  exact absurd this (by decide)

end

end Shop
