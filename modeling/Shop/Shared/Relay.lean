import Shop.Shared.Outbox
import Shop.Lib.Run
import Shop.Lib.Table
import Mathlib.Data.List.Sort

/-!
# The two outbox relays

`abstract-outbox-processor.service.ts`, which auth-, product- and payment-service share, and
`outbox-processor.service.ts` of order-service with its `typeorm-outbox.repository.ts`.  A tick
selects up to ten rows that are due, publishes them one by one, and writes what came of each, in one
transaction.

* `OutboxRecord π`             a row of an outbox with payloads `π`;
* `selectPending q now locked t`   the query of a tick;
* `AbstractOutboxProcessor.processPending`, `OutboxProcessor.processPending`   one tick of each;
* `RowAgree r r'`              two rows that differ at most in `scheduledAt`, once they have failed;
* `relays_agree`               both publish the same, and leave tables that agree, over every run.
-/

set_option linter.unusedSectionVars false

namespace Shop
open Lib

/-- `KAFKA_TOPICS` -/
def Topic.text : Topic → String
  | .reserveStock => "orders.reserve-stock"
  | .releaseStock => "orders.release-stock"
  | .processPayment => "orders.process-payment"
  | .stockReserved => "orders.stock-reserved"
  | .stockReservationFailed => "orders.stock-reservation-failed"
  | .stockReleased => "orders.stock-released"
  | .paymentProcessed => "orders.payment-processed"
  | .paymentFailed => "orders.payment-failed"
  | .orderConfirmed => "orders.order-confirmed"
  | .orderCancelled => "orders.order-cancelled"
  | .pdfGenerated => "pdf.pdf-generated"
  | .userRegistered => "users.user-registered"

structure OutboxRecord (π : Type) where
  id : String
  aggregateId : String
  topic : String
  messageKey : String
  payload : π
  status : OutboxStatus
  retryCount : Nat
  lastError : Option String
  scheduledAt : Nat
  publishedAt : Option Nat
deriving DecidableEq, Repr

/-- what `publish` is called with -/
structure Publication (π : Type) where
  topic : String
  payload : π
  correlationId : String
  messageId : String
deriving DecidableEq, Repr

/-- how the publication of a row ends, and when; `error` is the message of what was thrown -/
structure PublishResult where
  error : Option String
  now : Nat
deriving DecidableEq, Repr

/-- One tick: when it starts, the rows that others have locked, the order of rows of one time, and
how its publications end.  A tick whose results run out, or that does not commit, was aborted by an
exception or a crash. -/
structure Tick (π : Type) where
  now : Nat
  locked : List String
  order : RowOrder (OutboxRecord π)
  results : List PublishResult
  commits : Bool

/-- the insert of `AuthOutboxService.write` and its siblings, with the column defaults -/
def OutboxRecord.write {π : Type} (g : RowDefaults) (aggregateId topic messageKey : String)
    (payload : π) : OutboxRecord π where
  id := g.id.val
  aggregateId := aggregateId
  topic := topic
  messageKey := messageKey
  payload := payload
  status := .pending
  retryCount := 0
  lastError := none
  scheduledAt := g.now
  publishedAt := none

/-- a row of the three services of the saga -/
def OutboxRow.record (r : OutboxRow) : OutboxRecord Payload where
  id := r.id
  aggregateId := r.aggregateId
  topic := r.topic.text
  messageKey := r.messageKey
  payload := r.payload
  status := r.status
  retryCount := r.retryCount
  lastError := r.lastError
  scheduledAt := r.scheduledAt
  publishedAt := r.publishedAt

/-- exponential back-off, capped at five minutes -/
def delayMs (retryCount : Nat) : Nat := min (1000 * 2 ^ retryCount) 300000

section
variable {π : Type} (correlationId : π → Option String) (maxRetries : Nat)

def OutboxRecord.due (now : Nat) (r : OutboxRecord π) : Bool :=
  decide (r.status = .pending) && decide (r.scheduledAt ≤ now)

/-- Up to ten rows that are due and not locked, the earliest first; `q` orders those of one time. -/
def selectPending (q : RowOrder (OutboxRecord π)) (now : Nat) (locked : List String)
    (t : List (OutboxRecord π)) : List (OutboxRecord π) :=
  ((q.apply (t.filter fun r => r.due now && decide (r.id ∉ locked))).insertionSort
    fun r r' => r.scheduledAt ≤ r'.scheduledAt).take 10

def OutboxRecord.publication (r : OutboxRecord π) : Publication π :=
  ⟨r.topic, r.payload, (correlationId r.payload).getD "", r.id⟩

/-- what a tick does to the table, the ids it has selected, and what it has published -/
structure TickResult (π : Type) where
  table : List (OutboxRecord π)
  selected : List String
  published : List (Publication π)

/-! ## the shared relay -/

namespace AbstractOutboxProcessor

/-- what is written to the row of a record, from what came of its publication -/
def settle (record : OutboxRecord π) (x : PublishResult) (row : OutboxRecord π) : OutboxRecord π :=
  match x.error with
  | none => { row with status := .published, publishedAt := some x.now }
  | some message =>
    { row with
      status := if maxRetries ≤ record.retryCount + 1 then .failed else .pending
      retryCount := record.retryCount + 1
      lastError := some message
      scheduledAt := x.now + delayMs (record.retryCount + 1) }

/-- the loop: the table, the publications, and whether it has come to its end -/
def loop (t : List (OutboxRecord π)) : List (OutboxRecord π) → List PublishResult →
    List (OutboxRecord π) × List (Publication π) × Bool
  | [], _ => (t, [], true)
  | _ :: _, [] => (t, [], false)
  | record :: records, x :: xs =>
    let (t', published, ended) :=
      loop (updateBy OutboxRecord.id record.id (settle maxRetries record x) t) records xs
    (t', record.publication correlationId :: published, ended)

def processPending (tick : Tick π) (t : List (OutboxRecord π)) : TickResult π :=
  let records := selectPending tick.order tick.now tick.locked t
  let (t', published, ended) := loop correlationId maxRetries t records tick.results
  ⟨if ended && tick.commits then t' else t, records.map OutboxRecord.id, published⟩

end AbstractOutboxProcessor

/-! ## the relay of order-service -/

/-- `OutboxRecord` of the domain -/
structure PendingRecord (π : Type) where
  id : String
  topic : String
  messageKey : String
  payload : π
  retryCount : Nat

def PendingRecord.publication (r : PendingRecord π) : Publication π :=
  ⟨r.topic, r.payload, (correlationId r.payload).getD "", r.id⟩

namespace OutboxRepository

def toRecord (o : OutboxRecord π) : PendingRecord π :=
  ⟨o.id, o.topic, o.messageKey, o.payload, o.retryCount⟩

def findPendingWithLock (q : RowOrder (OutboxRecord π)) (now : Nat) (locked : List String)
    (t : List (OutboxRecord π)) : List (PendingRecord π) :=
  (selectPending q now locked t).map toRecord

def markPublished (id : String) (now : Nat) (t : List (OutboxRecord π)) : List (OutboxRecord π) :=
  updateBy OutboxRecord.id id
    (fun r => { r with status := .published, publishedAt := some now }) t

def scheduleRetry (id : String) (retryCount : Nat) (error : String) (scheduledAt : Nat)
    (t : List (OutboxRecord π)) : List (OutboxRecord π) :=
  updateBy OutboxRecord.id id
    (fun r => { r with
      status := .pending
      retryCount := retryCount
      lastError := some error
      scheduledAt := scheduledAt }) t

def permanentlyFail (id : String) (retryCount : Nat) (error : String) (t : List (OutboxRecord π)) :
    List (OutboxRecord π) :=
  updateBy OutboxRecord.id id
    (fun r => { r with status := .failed, retryCount := retryCount, lastError := some error }) t

end OutboxRepository

namespace OutboxProcessor
open OutboxRepository

def settle (record : PendingRecord π) (x : PublishResult) (t : List (OutboxRecord π)) :
    List (OutboxRecord π) :=
  match x.error with
  | none => markPublished record.id x.now t
  | some message =>
    let retryCount := record.retryCount + 1
    if maxRetries ≤ retryCount then permanentlyFail record.id retryCount message t
    else scheduleRetry record.id retryCount message (x.now + delayMs retryCount) t

def loop (t : List (OutboxRecord π)) : List (PendingRecord π) → List PublishResult →
    List (OutboxRecord π) × List (Publication π) × Bool
  | [], _ => (t, [], true)
  | _ :: _, [] => (t, [], false)
  | record :: records, x :: xs =>
    let (t', published, ended) := loop (settle maxRetries record x t) records xs
    (t', record.publication correlationId :: published, ended)

def processPending (tick : Tick π) (t : List (OutboxRecord π)) : TickResult π :=
  let records := findPendingWithLock tick.order tick.now tick.locked t
  let (t', published, ended) := loop correlationId maxRetries t records tick.results
  ⟨if ended && tick.commits then t' else t, records.map PendingRecord.id, published⟩

end OutboxProcessor

/-! ## runs -/

/-- the services insert rows, and the relay ticks -/
inductive RelayAction (π : Type) where
  | insert (row : OutboxRecord π)
  | tick (tick : Tick π)

/-- what a tick shows: the rows it has selected, and what it has published -/
structure TickOutput (π : Type) where
  selected : List String
  published : List (Publication π)
deriving DecidableEq

/-- the primary key refuses a second row of one id -/
def relayStep (process : Tick π → List (OutboxRecord π) → TickResult π)
    (t : List (OutboxRecord π)) : RelayAction π → List (OutboxRecord π)
  | .insert row => if row.id ∈ t.map OutboxRecord.id then t else t ++ [row]
  | .tick tick => (process tick t).table

def relayOut (process : Tick π → List (OutboxRecord π) → TickResult π)
    (t : List (OutboxRecord π)) : RelayAction π → List (TickOutput π)
  | .insert _ => []
  | .tick tick => [⟨(process tick t).selected, (process tick t).published⟩]

variable {correlationId maxRetries} {t t' : List (OutboxRecord π)}

/-! ## the query -/

theorem selectPending_perm (q : RowOrder (OutboxRecord π)) (now : Nat) (locked : List String)
    (t : List (OutboxRecord π)) : ∃ l : List (OutboxRecord π),
      l.Perm (t.filter fun r => r.due now && decide (r.id ∉ locked)) ∧
        selectPending q now locked t = l.take 10 := by
  refine ⟨_, ?_, rfl⟩
  exact (List.perm_insertionSort _ _).trans (q.perm _)

theorem selectPending_mem {q : RowOrder (OutboxRecord π)} {now : Nat} {locked : List String}
    {r : OutboxRecord π} (h : r ∈ selectPending q now locked t) :
    r ∈ t ∧ r.status = .pending ∧ r.scheduledAt ≤ now ∧ r.id ∉ locked := by
  obtain ⟨l, hl, heq⟩ := selectPending_perm q now locked t
  rw [heq] at h
  have hr := hl.mem_iff.mp (List.mem_of_mem_take h)
  rw [List.mem_filter] at hr
  simpa [OutboxRecord.due, and_assoc] using hr

theorem selectPending_nodup (q : RowOrder (OutboxRecord π)) (now : Nat) (locked : List String)
    (h : (t.map OutboxRecord.id).Nodup) :
    ((selectPending q now locked t).map OutboxRecord.id).Nodup := by
  obtain ⟨l, hl, heq⟩ := selectPending_perm q now locked t
  have hfilter := h.sublist (List.filter_sublist (p := fun r => r.due now && decide (r.id ∉ locked))
    |>.map OutboxRecord.id)
  rw [heq]
  exact ((hl.map OutboxRecord.id).nodup_iff.mpr hfilter).sublist
    ((List.take_sublist 10 l).map OutboxRecord.id)

/-! ## the two relays in step -/

/-- the rows agree in everything but the `scheduledAt` of a row that has failed -/
def RowAgree (r r' : OutboxRecord π) : Prop :=
  r' = { r with scheduledAt := r'.scheduledAt } ∧
    (r.status ≠ .failed → r'.scheduledAt = r.scheduledAt)

theorem RowAgree.refl (r : OutboxRecord π) : RowAgree r r := ⟨rfl, fun _ => rfl⟩

theorem RowAgree.id_eq {r r' : OutboxRecord π} (h : RowAgree r r') : r'.id = r.id := by
  rw [h.1]

theorem RowAgree.eq {r r' : OutboxRecord π} (h : RowAgree r r') (hs : r.status ≠ .failed) :
    r' = r := by
  rw [h.1, h.2 hs]

/-- an update of the same row keeps the tables in agreement -/
theorem agree_updateBy {f f' : OutboxRecord π → OutboxRecord π} {id : String}
    (hf : ∀ r r', r ∈ t → r.id = id → RowAgree r r' → RowAgree (f r) (f' r'))
    (h : List.Forall₂ RowAgree t t') :
    List.Forall₂ RowAgree (updateBy OutboxRecord.id id f t) (updateBy OutboxRecord.id id f' t') := by
  induction h with
  | nil => exact .nil
  | @cons r r' t t' hr _ ih =>
    refine .cons ?_ (ih fun x x' hx => hf x x' (List.mem_cons_of_mem _ hx))
    show RowAgree (if r.id = id then f r else r) (if r'.id = id then f' r' else r')
    by_cases hk : r.id = id
    · rw [if_pos hk, if_pos (hr.id_eq.trans hk)]
      exact hf r r' List.mem_cons_self hk hr
    · rw [if_neg hk, if_neg (fun e => hk (hr.id_eq.symm.trans e))]
      exact hr

theorem agree_ids (h : List.Forall₂ RowAgree t t') :
    t'.map OutboxRecord.id = t.map OutboxRecord.id := by
  induction h with
  | nil => rfl
  | cons hr _ ih => rw [List.map_cons, List.map_cons, hr.id_eq, ih]

/-- **A failed row is due for nobody**: both queries see the same rows. -/
theorem agree_filter_due (now : Nat) (locked : List String) (h : List.Forall₂ RowAgree t t') :
    (t'.filter fun r => r.due now && decide (r.id ∉ locked)) =
      t.filter fun r => r.due now && decide (r.id ∉ locked) := by
  induction h with
  | nil => rfl
  | @cons r r' t t' hr _ ih =>
    by_cases hs : r.status = .failed
    · have hs' : r'.status = .failed := by
        rw [hr.1]
        exact hs
      have hdue : (r.due now && decide (r.id ∉ locked)) = false := by simp [OutboxRecord.due, hs]
      have hdue' : (r'.due now && decide (r'.id ∉ locked)) = false := by
        simp [OutboxRecord.due, hs']
      simp only [List.filter_cons, hdue, hdue', ih, Bool.false_eq_true, if_false]
    · rw [hr.eq hs, List.filter_cons, List.filter_cons, ih]

theorem agree_selectPending (q : RowOrder (OutboxRecord π)) (now : Nat) (locked : List String)
    (h : List.Forall₂ RowAgree t t') :
    selectPending q now locked t' = selectPending q now locked t := by
  unfold selectPending
  rw [agree_filter_due now locked h]

/-- both relays write the same of a record that they have both read -/
theorem agree_settle {record : OutboxRecord π} (x : PublishResult)
    (hnd : (t.map OutboxRecord.id).Nodup) (hmem : record ∈ t) (hpend : record.status = .pending)
    (h : List.Forall₂ RowAgree t t') : List.Forall₂ RowAgree
      (updateBy OutboxRecord.id record.id (AbstractOutboxProcessor.settle maxRetries record x) t)
      (OutboxProcessor.settle maxRetries (OutboxRepository.toRecord record) x t') := by
  -- the key is unique, so the row that is written is the record in both tables
  have hrow : ∀ r r', r ∈ t → r.id = record.id → RowAgree r r' → r = record ∧ r' = record := by
    intro r r' hr hid hagree
    have heq := key_inj hnd hr hmem hid
    have hne : r.status ≠ .failed := by
      rw [heq, hpend]
      decide
    exact ⟨heq, (hagree.eq hne).trans heq⟩
  unfold OutboxProcessor.settle
  cases hx : x.error with
  | none =>
    refine agree_updateBy (fun r r' hr hid hagree => ?_) h
    obtain ⟨rfl, rfl⟩ := hrow r r' hr hid hagree
    simp only [AbstractOutboxProcessor.settle, hx]
    exact RowAgree.refl _
  | some message =>
    show List.Forall₂ RowAgree _ (if maxRetries ≤ record.retryCount + 1 then _ else _)
    by_cases hmax : maxRetries ≤ record.retryCount + 1
    · rw [if_pos hmax]
      refine agree_updateBy (fun r r' hr hid hagree => ?_) h
      obtain ⟨rfl, rfl⟩ := hrow r r' hr hid hagree
      simp only [AbstractOutboxProcessor.settle, hx, if_pos hmax]
      exact ⟨rfl, fun hne => absurd rfl hne⟩
    · rw [if_neg hmax]
      refine agree_updateBy (fun r r' hr hid hagree => ?_) h
      obtain ⟨rfl, rfl⟩ := hrow r r' hr hid hagree
      simp only [AbstractOutboxProcessor.settle, hx, if_neg hmax]
      exact RowAgree.refl _

theorem settle_id (record : OutboxRecord π) (x : PublishResult) (row : OutboxRecord π) :
    (AbstractOutboxProcessor.settle maxRetries record x row).id = row.id := by
  unfold AbstractOutboxProcessor.settle
  cases x.error <;> rfl

theorem settle_ids (record : OutboxRecord π) (x : PublishResult) (t : List (OutboxRecord π)) :
    (updateBy OutboxRecord.id record.id (AbstractOutboxProcessor.settle maxRetries record x) t).map
      OutboxRecord.id = t.map OutboxRecord.id :=
  map_updateBy OutboxRecord.id (settle_id record x) t

theorem loop_ids (records : List (OutboxRecord π)) (xs : List PublishResult)
    (t : List (OutboxRecord π)) :
    (AbstractOutboxProcessor.loop correlationId maxRetries t records xs).1.map OutboxRecord.id =
      t.map OutboxRecord.id := by
  induction records generalizing xs t with
  | nil => rfl
  | cons record records ih =>
    cases xs with
    | nil => rfl
    | cons x xs =>
      simp only [AbstractOutboxProcessor.loop]
      rw [ih, settle_ids]

/-- the loops of the two relays over the records that both have selected -/
theorem agree_loop (records : List (OutboxRecord π)) (xs : List PublishResult)
    (hnd : (t.map OutboxRecord.id).Nodup) (hrec : (records.map OutboxRecord.id).Nodup)
    (hmem : ∀ r ∈ records, r ∈ t ∧ r.status = .pending) (h : List.Forall₂ RowAgree t t') :
    List.Forall₂ RowAgree (AbstractOutboxProcessor.loop correlationId maxRetries t records xs).1
      (OutboxProcessor.loop correlationId maxRetries t'
        (records.map OutboxRepository.toRecord) xs).1 ∧
    (AbstractOutboxProcessor.loop correlationId maxRetries t records xs).2 =
      (OutboxProcessor.loop correlationId maxRetries t'
        (records.map OutboxRepository.toRecord) xs).2 := by
  induction records generalizing xs t t' with
  | nil => exact ⟨h, rfl⟩
  | cons record records ih =>
    cases xs with
    | nil => exact ⟨h, rfl⟩
    | cons x xs =>
      obtain ⟨hin, hpend⟩ := hmem record List.mem_cons_self
      rw [List.map_cons, List.nodup_cons] at hrec
      have hnd' : ((updateBy OutboxRecord.id record.id
          (AbstractOutboxProcessor.settle maxRetries record x) t).map OutboxRecord.id).Nodup := by
        rw [settle_ids]
        exact hnd
      -- the other records are still in the table, as they were read
      have hmem' : ∀ r ∈ records, r ∈ updateBy OutboxRecord.id record.id
          (AbstractOutboxProcessor.settle maxRetries record x) t ∧ r.status = .pending := by
        intro r hr
        obtain ⟨hrt, hrp⟩ := hmem r (List.mem_cons_of_mem _ hr)
        have hne : r.id ≠ record.id := fun e => hrec.1 (e ▸ List.mem_map_of_mem hr)
        exact ⟨mem_updateBy.mpr ⟨r, hrt, Or.inr ⟨hne, rfl⟩⟩, hrp⟩
      obtain ⟨htable, hrest⟩ := ih xs hnd' hrec.2 hmem' (agree_settle x hnd hin hpend h)
      simp only [AbstractOutboxProcessor.loop, OutboxProcessor.loop, List.map_cons]
      exact ⟨htable, congrArg (fun p => (_ :: p.1, p.2)) hrest⟩

/-- **One tick of the two relays.** -/
theorem agree_processPending (tick : Tick π) (hnd : (t.map OutboxRecord.id).Nodup)
    (h : List.Forall₂ RowAgree t t') :
    List.Forall₂ RowAgree
      (AbstractOutboxProcessor.processPending correlationId maxRetries tick t).table
      (OutboxProcessor.processPending correlationId maxRetries tick t').table ∧
    (AbstractOutboxProcessor.processPending correlationId maxRetries tick t).selected =
      (OutboxProcessor.processPending correlationId maxRetries tick t').selected ∧
    (AbstractOutboxProcessor.processPending correlationId maxRetries tick t).published =
      (OutboxProcessor.processPending correlationId maxRetries tick t').published := by
  let records := selectPending tick.order tick.now tick.locked t
  have hloop : List.Forall₂ RowAgree
        (AbstractOutboxProcessor.loop correlationId maxRetries t records tick.results).1
        (OutboxProcessor.loop correlationId maxRetries t'
          (records.map OutboxRepository.toRecord) tick.results).1 ∧ _ :=
    agree_loop records tick.results hnd (selectPending_nodup tick.order tick.now tick.locked hnd)
      (fun r hr => ⟨(selectPending_mem hr).1, (selectPending_mem hr).2.1⟩) h
  obtain ⟨htable, hrest⟩ := hloop
  simp only [AbstractOutboxProcessor.processPending, OutboxProcessor.processPending,
    OutboxRepository.findPendingWithLock, agree_selectPending _ _ _ h, List.map_map]
  refine ⟨?_, rfl, congrArg Prod.fst hrest⟩
  rw [← congrArg Prod.snd hrest]
  split
  · exact htable
  · exact h

theorem processPending_nodup (tick : Tick π) (h : (t.map OutboxRecord.id).Nodup) :
    ((AbstractOutboxProcessor.processPending correlationId maxRetries tick t).table.map
      OutboxRecord.id).Nodup := by
  simp only [AbstractOutboxProcessor.processPending]
  split
  · rw [loop_ids]
    exact h
  · exact h

/-- one step of the two systems -/
theorem agree_step (a : RelayAction π) (hnd : (t.map OutboxRecord.id).Nodup)
    (h : List.Forall₂ RowAgree t t') :
    ((relayStep (AbstractOutboxProcessor.processPending correlationId maxRetries) t a).map
      OutboxRecord.id).Nodup ∧
    List.Forall₂ RowAgree
      (relayStep (AbstractOutboxProcessor.processPending correlationId maxRetries) t a)
      (relayStep (OutboxProcessor.processPending correlationId maxRetries) t' a) := by
  cases a with
  | insert row =>
    simp only [relayStep, agree_ids h]
    by_cases hid : row.id ∈ t.map OutboxRecord.id
    · rw [if_pos hid, if_pos hid]
      exact ⟨hnd, h⟩
    · rw [if_neg hid, if_neg hid, List.map_append]
      refine ⟨?_, List.rel_append h (.cons (RowAgree.refl row) .nil)⟩
      simpa [List.nodup_append, hnd] using hid
  | tick tick =>
    exact ⟨processPending_nodup tick hnd, (agree_processPending tick hnd h).1⟩

/-- **The two relays agree.**  From the same outbox, over every sequence of inserts and ticks, they
select the same rows in the same order, publish the same, and leave tables whose rows differ at most
in the `scheduledAt` of a row that has failed. -/
theorem relays_agree (correlationId : π → Option String) (maxRetries : Nat)
    (t : List (OutboxRecord π)) (h : (t.map OutboxRecord.id).Nodup) (as : List (RelayAction π)) :
    List.Forall₂ RowAgree
      (run (relayStep (AbstractOutboxProcessor.processPending correlationId maxRetries)) t as)
      (run (relayStep (OutboxProcessor.processPending correlationId maxRetries)) t as) ∧
    emits (relayStep (AbstractOutboxProcessor.processPending correlationId maxRetries))
        (relayOut (AbstractOutboxProcessor.processPending correlationId maxRetries)) t as =
      emits (relayStep (OutboxProcessor.processPending correlationId maxRetries))
        (relayOut (OutboxProcessor.processPending correlationId maxRetries)) t as := by
  have hstart : (t.map OutboxRecord.id).Nodup ∧ List.Forall₂ RowAgree t t :=
    ⟨h, List.forall₂_same.mpr fun r _ => RowAgree.refl r⟩
  have hstep : ∀ (t t' : List (OutboxRecord π)) (a : RelayAction π),
      (t.map OutboxRecord.id).Nodup ∧ List.Forall₂ RowAgree t t' →
      relayOut (AbstractOutboxProcessor.processPending correlationId maxRetries) t a =
        relayOut (OutboxProcessor.processPending correlationId maxRetries) t' a := by
    rintro t t' a ⟨hnd, hagree⟩
    cases a with
    | insert row => rfl
    | tick tick =>
      simp only [relayOut]
      rw [(agree_processPending tick hnd hagree).2.1, (agree_processPending tick hnd hagree).2.2]
  obtain ⟨⟨_, htables⟩, houts⟩ := simulation_run _ _
    (R := fun t t' => (t.map OutboxRecord.id).Nodup ∧ List.Forall₂ RowAgree t t')
    (fun t t' a hR => ⟨agree_step a hR.1 hR.2, hstep t t' a hR⟩) t t as hstart
  exact ⟨htables, houts⟩

end

/-! ## the rows of the saga's services -/

theorem OutboxRow.due_record (now : Nat) (r : OutboxRow) : r.record.due now = r.due now := rfl

/-- the two updates of a row of the saga are those of the relay -/
theorem OutboxRow.markPublished_record (now : Nat) (r : OutboxRow) :
    (r.markPublished now).record =
      AbstractOutboxProcessor.settle OutboxRow.maxRetries r.record ⟨none, now⟩ r.record := rfl

theorem OutboxRow.markFailed_record (now : Nat) (error : String) (r : OutboxRow) :
    (r.markFailed now error).record =
      AbstractOutboxProcessor.settle OutboxRow.maxRetries r.record ⟨some error, now⟩ r.record := rfl

/-! ## a run -/

section

/-- the rows that concrete runs use -/
def OutboxRecord.sample (c : Char) (scheduledAt : Nat) : OutboxRecord String :=
  ⟨(Uuid.sample c).val, "u1", "users.user-registered", "u1", "payload", .pending, 0, none, scheduledAt,
    none⟩

/-- two ticks with one retry: the second publication of the first row fails for good -/
theorem relays_agree_failed :
    let as : List (RelayAction String) :=
      [.insert (.sample '2' 5),
       .tick ⟨10, [], RowOrder.stored _, [⟨some "down", 11⟩, ⟨none, 12⟩], true⟩,
       .tick ⟨5000, [], RowOrder.stored _, [⟨some "down", 5001⟩], true⟩]
    (List.Forall₂ RowAgree
      (run (relayStep (AbstractOutboxProcessor.processPending (fun _ => none) 2))
        [.sample '1' 0] as)
      (run (relayStep (OutboxProcessor.processPending (fun _ => none) 2)) [.sample '1' 0] as) ∧
    emits (relayStep (AbstractOutboxProcessor.processPending (fun _ => none) 2))
        (relayOut (AbstractOutboxProcessor.processPending (fun _ => none) 2)) [.sample '1' 0] as =
      emits (relayStep (OutboxProcessor.processPending (fun _ => none) 2))
        (relayOut (OutboxProcessor.processPending (fun _ => none) 2)) [.sample '1' 0] as) ∧
    run (relayStep (OutboxProcessor.processPending (fun _ => none) 2)) [.sample '1' 0] as =
      [{ OutboxRecord.sample '1' 2011 with
           status := .failed, retryCount := 2, lastError := some "down" },
       { OutboxRecord.sample '2' 5 with status := .published, publishedAt := some 12 }] :=
  ⟨relays_agree _ _ _ (by decide) _, by decide⟩

end

end Shop
