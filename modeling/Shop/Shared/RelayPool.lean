import Shop.Shared.Relay
import Shop.Lib.Pool

/-!
# Ticks of many relays over one outbox

`AbstractOutboxProcessorService.processPending` access by access: the guard `isProcessing`, the
`SELECT ... FOR UPDATE SKIP LOCKED`, one publication and one update for each record, and the commit.
Any number of instances tick at once, and a tick can be aborted wherever it is.

* `RelayTx`                  where a tick is; its locks are the rows of its batch;
* `RelayDb.log`              every publication that was attempted, with the tick it was made in;
* `RelayDb.commits`          the ticks that have committed;
* `RelayDb.failedAttempts`   the failed publications of a row in ticks that have committed;
* `relay_settles`            each row is settled once, by its own publications;
* `tick_alone`               a tick that nobody disturbs is `processPending`.
-/

set_option linter.unusedSectionVars false

namespace Shop
open Lib

/-- one call of `publish`: in which transaction, of what, and the error that it threw -/
structure Attempt (π : Type) where
  tick : Nat
  publication : Publication π
  error : Option String
deriving DecidableEq

/-- a tick that has committed, and the rows that it wrote -/
structure RelayCommit (π : Type) where
  tick : Nat
  wrote : List (OutboxRecord π)
deriving DecidableEq

/-- the outbox; `processing` is `isProcessing` of each instance, and `ticks` the next transaction
id -/
structure RelayDb (π : Type) where
  rows : List (OutboxRecord π)
  processing : Nat → Bool
  ticks : Nat
  log : List (Attempt π)
  commits : List (RelayCommit π)

def RelayDb.initial (π : Type) : RelayDb π := ⟨[], fun _ => false, 0, [], []⟩

/-- a record of a batch with what came of its publication -/
abbrev SentRecord (π : Type) := OutboxRecord π × PublishResult

/-- Where a tick is: about to look at `isProcessing`; about to select; between two records, with
those to come and those done; between the publication of a record and its update; or over.  The
inserts of the services are transactions of one access. -/
inductive RelayTx (π : Type) where
  | inserting (row : OutboxRecord π)
  | called (instance_ : Nat)
  | selecting (instance_ : Nat)
  | publishing (instance_ tick : Nat) (todo : List (OutboxRecord π)) (done : List (SentRecord π))
  | updating (instance_ tick : Nat) (record : OutboxRecord π) (result : PublishResult)
      (todo : List (OutboxRecord π)) (done : List (SentRecord π))
  | ended

inductive RelayRequest (π : Type) where
  | insert (g : RowDefaults) (aggregateId topic messageKey : String) (payload : π)
  | tick (instance_ : Nat)

/-- `abort` is a crash, or an SQL error: after it PostgreSQL refuses every statement of the
transaction, the update in the `catch` as well -/
inductive RelayChoice (π : Type) where
  | go
  | read (now : Nat) (order : RowOrder (OutboxRecord π)) (locked : List String)
  | publish (result : PublishResult)
  | abort

/-- what a transaction has locked: rows, and its own transaction id -/
inductive RelayLock where
  | row (id : String)
  | transaction (tick : Nat)
deriving DecidableEq

section
variable {π : Type}

def RelayTx.start : RelayRequest π → RelayTx π
  | .insert g aggregateId topic messageKey payload =>
    .inserting (OutboxRecord.write g aggregateId topic messageKey payload)
  | .tick instance_ => .called instance_

/-- the records of the batch of a tick, and its transaction id -/
def RelayTx.batch : RelayTx π → Option (Nat × List (OutboxRecord π))
  | .publishing _ tick todo done => some (tick, todo ++ done.map Prod.fst)
  | .updating _ tick record _ todo done => some (tick, record :: todo ++ done.map Prod.fst)
  | _ => none

def RelayTx.held (t : RelayTx π) : List RelayLock :=
  match t.batch with
  | some (tick, records) => .transaction tick :: records.map fun r => .row r.id
  | none => []

/-- what the services have written into a row, and the relay leaves alone -/
def OutboxRecord.content (r : OutboxRecord π) : String × String × String × String × π :=
  (r.id, r.aggregateId, r.topic, r.messageKey, r.payload)

/-- the updates of a tick, in order -/
def settleAll (maxRetries : Nat) (done : List (SentRecord π)) (t : List (OutboxRecord π)) :
    List (OutboxRecord π) :=
  done.foldl (fun t s => updateBy OutboxRecord.id s.1.id
    (AbstractOutboxProcessor.settle maxRetries s.1 s.2) t) t

namespace RelayDb

def busy (db : RelayDb π) (instance_ : Nat) (b : Bool) : RelayDb π :=
  { db with processing := fun i => if i = instance_ then b else db.processing i }

def insert (db : RelayDb π) (row : OutboxRecord π) : RelayDb π :=
  if row.id ∈ db.rows.map OutboxRecord.id then db else { db with rows := db.rows ++ [row] }

def begin_ (db : RelayDb π) : RelayDb π := { db with ticks := db.ticks + 1 }

def attempt (db : RelayDb π) (a : Attempt π) : RelayDb π := { db with log := db.log ++ [a] }

def commit (maxRetries : Nat) (db : RelayDb π) (tick : Nat) (done : List (SentRecord π)) :
    RelayDb π :=
  { db with
    rows := settleAll maxRetries done db.rows
    commits := db.commits ++
      [⟨tick, done.map fun s => AbstractOutboxProcessor.settle maxRetries s.1 s.2 s.1⟩] }

def committed (db : RelayDb π) : List Nat := db.commits.map RelayCommit.tick

/-- how often a publication of the row failed in a tick that committed -/
def failedAttempts (db : RelayDb π) (id : String) : Nat :=
  db.log.countP fun a => decide (a.tick ∈ db.committed) &&
    (decide (a.publication.messageId = id) && a.error.isSome)

end RelayDb

variable (correlationId : π → Option String) (maxRetries : Nat)

def attemptOf (tick : Nat) (s : SentRecord π) : Attempt π :=
  ⟨tick, s.1.publication correlationId, s.2.error⟩

/-- one access -/
def RelayTx.next : RelayChoice π → RelayDb π → RelayTx π → Option (RelayDb π × RelayTx π)
  | .go, db, .inserting row => some (db.insert row, .ended)
  | .go, db, .called i => if db.processing i then some (db, .ended) else
      some (db.busy i true, .selecting i)
  | .read now order locked, db, .selecting i =>
    some (db.begin_, .publishing i db.ticks (selectPending order now locked db.rows) [])
  | .publish x, db, .publishing i tick (record :: todo) done =>
    some (db.attempt (attemptOf correlationId tick (record, x)),
      .updating i tick record x todo done)
  | .go, db, .updating i tick record x todo done =>
    some (db, .publishing i tick todo (done ++ [(record, x)]))
  | .go, db, .publishing i tick [] done =>
    some ((db.commit maxRetries tick done).busy i false, .ended)
  | .abort, db, .selecting i => some (db.busy i false, .ended)
  | .abort, db, .publishing i _ _ _ => some (db.busy i false, .ended)
  | .abort, db, .updating i _ _ _ _ _ => some (db.busy i false, .ended)
  | _, _, _ => none

abbrev RelayPoolAction (π : Type) := PoolAction (RelayRequest π) (RelayChoice π)

def RelayPool.step :
    Pool (RelayDb π) (RelayTx π) → RelayPoolAction π → Pool (RelayDb π) (RelayTx π) :=
  Pool.step RelayTx.start (RelayTx.next correlationId maxRetries) RelayTx.held

/-! ## the updates of a tick -/

variable {correlationId maxRetries} {t : List (OutboxRecord π)} {done : List (SentRecord π)}

theorem settle_content (record : OutboxRecord π) (x : PublishResult) (row : OutboxRecord π) :
    (AbstractOutboxProcessor.settle maxRetries record x row).content = row.content := by
  unfold AbstractOutboxProcessor.settle
  cases x.error <;> rfl

theorem settleAll_content (done : List (SentRecord π)) (t : List (OutboxRecord π)) :
    (settleAll maxRetries done t).map OutboxRecord.content = t.map OutboxRecord.content := by
  induction done generalizing t with
  | nil => rfl
  | cons s done ih =>
    show (settleAll maxRetries done _).map OutboxRecord.content = _
    rw [ih, map_updateBy OutboxRecord.content (settle_content s.1 s.2)]

theorem settleAll_ids (done : List (SentRecord π)) (t : List (OutboxRecord π)) :
    (settleAll maxRetries done t).map OutboxRecord.id = t.map OutboxRecord.id := by
  induction done generalizing t with
  | nil => rfl
  | cons s done ih =>
    show (settleAll maxRetries done _).map OutboxRecord.id = _
    rw [ih, settle_ids]

/-- **Each record is written from its own result**, and the other rows are left alone. -/
theorem mem_settleAll (hnd : (t.map OutboxRecord.id).Nodup)
    (hids : (done.map fun s => s.1.id).Nodup) (hmem : ∀ s ∈ done, s.1 ∈ t) {r : OutboxRecord π} :
    r ∈ settleAll maxRetries done t ↔
      (∃ s ∈ done, r = AbstractOutboxProcessor.settle maxRetries s.1 s.2 s.1) ∨
        (r ∈ t ∧ ∀ s ∈ done, s.1.id ≠ r.id) := by
  induction done generalizing t with
  | nil =>
    constructor
    · exact fun h => Or.inr ⟨h, fun s hs => absurd hs List.not_mem_nil⟩
    · rintro (⟨s, hs, _⟩ | h)
      · exact absurd hs List.not_mem_nil
      · exact h.1
  | cons s done ih =>
    rw [List.map_cons, List.nodup_cons] at hids
    have hs := hmem s List.mem_cons_self
    have hne : ∀ x ∈ done, x.1.id ≠ s.1.id := fun x hx e =>
      hids.1 (List.mem_map.mpr ⟨x, hx, e⟩)
    have hnd' : ((updateBy OutboxRecord.id s.1.id
        (AbstractOutboxProcessor.settle maxRetries s.1 s.2) t).map OutboxRecord.id).Nodup := by
      rw [settle_ids]
      exact hnd
    have hmem' : ∀ x ∈ done, x.1 ∈ updateBy OutboxRecord.id s.1.id
        (AbstractOutboxProcessor.settle maxRetries s.1 s.2) t := fun x hx =>
      (mem_updateBy_key hnd hs).mpr (Or.inr ⟨hmem x (List.mem_cons_of_mem _ hx), hne x hx⟩)
    show r ∈ settleAll maxRetries done _ ↔ _
    rw [ih hnd' hids.2 hmem', mem_updateBy_key hnd hs]
    constructor
    · rintro (⟨x, hx, rfl⟩ | ⟨rfl | ⟨hr, hrs⟩, hall⟩)
      · exact Or.inl ⟨x, List.mem_cons_of_mem _ hx, rfl⟩
      · exact Or.inl ⟨s, List.mem_cons_self, rfl⟩
      · refine Or.inr ⟨hr, fun x hx => ?_⟩
        rcases List.mem_cons.mp hx with rfl | hx
        · exact fun e => hrs e.symm
        · exact hall x hx
    · rintro (⟨x, hx, rfl⟩ | ⟨hr, hall⟩)
      · rcases List.mem_cons.mp hx with rfl | hx
        · refine Or.inr ⟨Or.inl rfl, fun y hy => ?_⟩
          rw [settle_id]
          exact hne y hy
        · exact Or.inl ⟨x, hx, rfl⟩
      · exact Or.inr ⟨Or.inr ⟨hr, fun e => hall s List.mem_cons_self e.symm⟩,
          fun x hx => hall x (List.mem_cons_of_mem _ hx)⟩

/-! ## the invariant -/

section
variable (correlationId : π → Option String) (maxRetries : Nat)

/-- a row is in one of its three states, and has counted its failures -/
structure RowSound (db : RelayDb π) (r : OutboxRecord π) : Prop where
  state : match r.status with
    | .pending => r.retryCount < maxRetries
    | .published => ∃ c ∈ db.commits, r ∈ c.wrote ∧
        ⟨c.tick, r.publication correlationId, none⟩ ∈ db.log
    | .failed => r.retryCount = maxRetries
  count : r.retryCount = db.failedAttempts r.id

structure RelayDb.Inv (db : RelayDb π) : Prop where
  ids : (db.rows.map OutboxRecord.id).Nodup
  rows : ∀ r ∈ db.rows, RowSound correlationId maxRetries db r
  committed : ∀ k ∈ db.committed, k < db.ticks
  log : ∀ a ∈ db.log, a.tick < db.ticks ∧ a.publication.messageId ∈ db.rows.map OutboxRecord.id

/-- what holds of a tick with the locks on `records` that has attempted `sent` -/
structure Batch (db : RelayDb π) (tick : Nat) (records : List (OutboxRecord π))
    (sent : List (SentRecord π)) : Prop where
  lt : tick < db.ticks
  fresh : tick ∉ db.committed
  mem : ∀ r ∈ records, r ∈ db.rows ∧ r.status = .pending
  ids : (records.map OutboxRecord.id).Nodup
  log : db.log.filter (fun a => decide (a.tick = tick)) = sent.map (attemptOf correlationId tick)

/-- the records of a tick that only has its updates left to commit are different rows -/
theorem Batch.done_ids {db : RelayDb π} {tick : Nat} {done sent : List (SentRecord π)}
    (h : Batch correlationId db tick ([] ++ done.map Prod.fst) sent) :
    (done.map fun s => s.1.id).Nodup := by
  have hids := h.ids
  rw [List.nil_append, List.map_map] at hids
  exact hids

/-- the records whose publication a tick has attempted, with what came of it -/
def RelayTx.sent : RelayTx π → List (SentRecord π)
  | .publishing _ _ _ done => done
  | .updating _ _ record x _ done => done ++ [(record, x)]
  | _ => []

structure RelayTx.Sound (db : RelayDb π) (t : RelayTx π) : Prop where
  row : ∀ row, t = .inserting row → row.status = .pending ∧ row.retryCount = 0
  batch : ∀ tick records, t.batch = some (tick, records) →
    Batch correlationId db tick records t.sent

end

/-! ## counting the failures -/

/-- an attempt of a tick that has not committed does not count -/
theorem failedAttempts_attempt {db : RelayDb π} {a : Attempt π} (h : a.tick ∉ db.committed)
    (id : String) : (db.attempt a).failedAttempts id = db.failedAttempts id := by
  show (db.log ++ [a]).countP _ = _
  have hlast : [a].countP (fun a => decide (a.tick ∈ db.committed) &&
      (decide (a.publication.messageId = id) && a.error.isSome)) = 0 := by
    simp [h]
  rw [List.countP_append]
  exact Nat.add_eq_left.mpr hlast

/-- the attempts of a tick count when it commits -/
theorem failedAttempts_commit {db : RelayDb π} {tick : Nat} {records : List (OutboxRecord π)}
    (hbatch : Batch correlationId db tick records done) (id : String) :
    (db.commit maxRetries tick done).failedAttempts id = db.failedAttempts id +
      done.countP fun s => decide (s.1.id = id) && s.2.error.isSome := by
  have hcommitted : (db.commit maxRetries tick done).committed = db.committed ++ [tick] := by
    simp [RelayDb.committed, RelayDb.commit]
  have hsplit : ∀ a : Attempt π, (decide (a.tick ∈ db.committed ++ [tick]) &&
      (decide (a.publication.messageId = id) && a.error.isSome)) =
      ((decide (a.tick ∈ db.committed) &&
          (decide (a.publication.messageId = id) && a.error.isSome)) ||
        (decide (a.tick = tick) &&
          (decide (a.publication.messageId = id) && a.error.isSome))) := by
    intro a
    rw [← Bool.and_or_distrib_right]
    simp
  have hdisjoint : ∀ a : Attempt π, (decide (a.tick ∈ db.committed) &&
      (decide (a.publication.messageId = id) && a.error.isSome)) = true →
      (decide (a.tick = tick) &&
        (decide (a.publication.messageId = id) && a.error.isSome)) = false := by
    intro a ha
    have hne : a.tick ≠ tick := by
      intro e
      have hm : a.tick ∈ db.committed := by
        simp only [Bool.and_eq_true, decide_eq_true_eq] at ha
        exact ha.1
      exact hbatch.fresh (e ▸ hm)
    simp [hne]
  have hown : db.log.countP (fun a => decide (a.tick = tick) &&
      (decide (a.publication.messageId = id) && a.error.isSome)) =
      done.countP fun s => decide (s.1.id = id) && s.2.error.isSome := by
    have hsent : (done.countP fun s => decide (s.1.id = id) && s.2.error.isSome) =
        (done.map (attemptOf correlationId tick)).countP fun a =>
          decide (a.publication.messageId = id) && a.error.isSome := by
      rw [List.countP_map]
      rfl
    rw [hsent, ← hbatch.log, List.countP_filter]
    congr 1
    funext a
    rw [Bool.and_comm]
  show db.log.countP (fun a => decide (a.tick ∈ (db.commit maxRetries tick done).committed) && _) = _
  rw [hcommitted]
  simp only [hsplit]
  rw [countP_or hdisjoint, hown]
  rfl

/-! ## what an access does -/

section
variable (correlationId : π → Option String) (maxRetries : Nat)

/-- the accesses, by what they do to the outbox -/
inductive RelayTx.Moves (db : RelayDb π) : RelayTx π → RelayDb π → RelayTx π → Prop where
  | insert (row : OutboxRecord π) : Moves db (.inserting row) (db.insert row) .ended
  | skip (i : Nat) : Moves db (.called i) db .ended
  | enter (i : Nat) : Moves db (.called i) (db.busy i true) (.selecting i)
  | select (i now : Nat) (order : RowOrder (OutboxRecord π)) (locked : List String) :
      Moves db (.selecting i) db.begin_
        (.publishing i db.ticks (selectPending order now locked db.rows) [])
  | publish (i tick : Nat) (record : OutboxRecord π) (x : PublishResult)
      (todo : List (OutboxRecord π)) (done : List (SentRecord π)) :
      Moves db (.publishing i tick (record :: todo) done)
        (db.attempt (attemptOf correlationId tick (record, x))) (.updating i tick record x todo done)
  | update (i tick : Nat) (record : OutboxRecord π) (x : PublishResult)
      (todo : List (OutboxRecord π)) (done : List (SentRecord π)) :
      Moves db (.updating i tick record x todo done) db
        (.publishing i tick todo (done ++ [(record, x)]))
  | commit (i tick : Nat) (done : List (SentRecord π)) :
      Moves db (.publishing i tick [] done) ((db.commit maxRetries tick done).busy i false) .ended
  | abort (i : Nat) (t : RelayTx π) : Moves db t (db.busy i false) .ended

end

theorem next_moves {choice : RelayChoice π} {db db' : RelayDb π} {t t' : RelayTx π}
    (h : RelayTx.next correlationId maxRetries choice db t = some (db', t')) :
    RelayTx.Moves correlationId maxRetries db t db' t' := by
  cases choice with
  | go =>
    cases t with
    | inserting row =>
      cases h
      exact .insert row
    | called i =>
      simp only [RelayTx.next] at h
      split at h
      · cases h
        exact .skip i
      · cases h
        exact .enter i
    | updating i tick record x todo done =>
      cases h
      exact .update i tick record x todo done
    | publishing i tick todo done =>
      cases todo with
      | nil =>
        cases h
        exact .commit i tick done
      | cons record todo => cases h
    | selecting i => cases h
    | ended => cases h
  | read now order locked =>
    cases t with
    | selecting i =>
      cases h
      exact .select i now order locked
    | _ => cases h
  | publish x =>
    cases t with
    | publishing i tick todo done =>
      cases todo with
      | nil => cases h
      | cons record todo =>
        cases h
        exact .publish i tick record x todo done
    | _ => cases h
  | abort =>
    cases t with
    | selecting i =>
      cases h
      exact .abort i _
    | publishing i tick todo done =>
      cases h
      exact .abort i _
    | updating i tick record x todo done =>
      cases h
      exact .abort i _
    | _ => cases h

/-! ## the invariant is kept -/

/-- a row that the change leaves alone stays sound -/
theorem RowSound.mono {db db' : RelayDb π} {r : OutboxRecord π}
    (h : RowSound correlationId maxRetries db r) (hcommits : ∀ c ∈ db.commits, c ∈ db'.commits)
    (hlog : ∀ a ∈ db.log, a ∈ db'.log) (hcount : db'.failedAttempts r.id = db.failedAttempts r.id) :
    RowSound correlationId maxRetries db' r := by
  constructor
  · have hstate := h.state
    cases hs : r.status with
    | pending => simpa only [hs] using hstate
    | failed => simpa only [hs] using hstate
    | published =>
      simp only [hs] at hstate ⊢
      obtain ⟨c, hc, hwrote, hsent⟩ := hstate
      exact ⟨c, hcommits c hc, hwrote, hlog _ hsent⟩
  · rw [hcount]
    exact h.count

theorem RelayDb.Inv.insert {db : RelayDb π} (h : db.Inv correlationId maxRetries)
    (hmax : 1 ≤ maxRetries) (row : OutboxRecord π) (hs : row.status = .pending)
    (hr : row.retryCount = 0) : (db.insert row).Inv correlationId maxRetries := by
  unfold RelayDb.insert
  split
  · exact h
  · rename_i hid
    have hnone : db.failedAttempts row.id = 0 := by
      refine List.countP_eq_zero.mpr fun a ha => ?_
      have hne : a.publication.messageId ≠ row.id := fun e => hid (e ▸ (h.log a ha).2)
      simp [hne]
    constructor
    · simpa [List.nodup_append, h.ids] using hid
    · intro r hmem
      rcases List.mem_append.mp hmem with hold | hnew
      · exact (h.rows r hold).mono (fun _ hc => hc) (fun _ ha => ha) rfl
      · rw [List.mem_singleton.mp hnew]
        constructor
        · simp only [hs, hr]
          omega
        · exact hr.trans hnone.symm
    · exact h.committed
    · intro a ha
      refine ⟨(h.log a ha).1, ?_⟩
      rw [List.map_append]
      exact List.mem_append_left _ (h.log a ha).2

theorem RelayDb.Inv.busy {db : RelayDb π} (h : db.Inv correlationId maxRetries) (i : Nat)
    (b : Bool) : (db.busy i b).Inv correlationId maxRetries :=
  ⟨h.ids, fun r hr => (h.rows r hr).mono (fun _ hc => hc) (fun _ ha => ha) rfl, h.committed, h.log⟩

theorem RelayDb.Inv.begin_ {db : RelayDb π} (h : db.Inv correlationId maxRetries) :
    db.begin_.Inv correlationId maxRetries := by
  refine ⟨h.ids, fun r hr => (h.rows r hr).mono (fun _ hc => hc) (fun _ ha => ha) rfl, ?_, ?_⟩
  · exact fun k hk => Nat.lt_succ_of_lt (h.committed k hk)
  · exact fun a ha => ⟨Nat.lt_succ_of_lt (h.log a ha).1, (h.log a ha).2⟩

theorem RelayDb.Inv.attempt {db : RelayDb π} (h : db.Inv correlationId maxRetries)
    {a : Attempt π} (hlt : a.tick < db.ticks) (hfresh : a.tick ∉ db.committed)
    (hid : a.publication.messageId ∈ db.rows.map OutboxRecord.id) :
    (db.attempt a).Inv correlationId maxRetries := by
  refine ⟨h.ids, fun r hr => ?_, h.committed, ?_⟩
  · exact (h.rows r hr).mono (fun _ hc => hc) (fun _ ha => List.mem_append_left _ ha)
      (failedAttempts_attempt hfresh r.id)
  · intro x hx
    rcases List.mem_append.mp hx with hx | hx
    · exact h.log x hx
    · rw [List.mem_singleton.mp hx]
      exact ⟨hlt, hid⟩

/-- what a record has become, by its own publication -/
theorem settle_sound {db : RelayDb π} {tick : Nat} {records : List (OutboxRecord π)}
    (h : db.Inv correlationId maxRetries) (hbatch : Batch correlationId db tick records done)
    (hsub : ∀ s ∈ done, s.1 ∈ records) (hids : (done.map fun s => s.1.id).Nodup)
    {s : SentRecord π} (hs : s ∈ done) : RowSound correlationId maxRetries
      (db.commit maxRetries tick done)
      (AbstractOutboxProcessor.settle maxRetries s.1 s.2 s.1) := by
  obtain ⟨hrow, hpend⟩ := hbatch.mem s.1 (hsub s hs)
  obtain ⟨hstate, hcount⟩ := h.rows s.1 hrow
  simp only [hpend] at hstate
  -- the key is unique in the batch, so one record of it counts
  have hone : (done.countP fun x => decide (x.1.id = s.1.id) && x.2.error.isSome) =
      if s.2.error.isSome then 1 else 0 := by
    have hfilter : (done.filter fun x => decide (x.1.id = s.1.id)) = [s] := filter_key hids hs
    have hswap : (done.countP fun x => decide (x.1.id = s.1.id) && x.2.error.isSome) =
        (done.filter fun x => decide (x.1.id = s.1.id)).countP fun x => x.2.error.isSome := by
      rw [List.countP_filter]
      congr 1
      funext x
      rw [Bool.and_comm]
    rw [hswap, hfilter, List.countP_singleton]
  have hfailed : (db.commit maxRetries tick done).failedAttempts s.1.id =
      s.1.retryCount + if s.2.error.isSome then 1 else 0 := by
    rw [failedAttempts_commit hbatch, hone, hcount]
  constructor
  · cases herror : s.2.error with
    | none =>
      simp only [AbstractOutboxProcessor.settle, herror]
      refine ⟨_, List.mem_append_right _ (List.mem_singleton.mpr rfl),
        List.mem_map.mpr ⟨s, hs, ?_⟩, ?_⟩
      · simp only [AbstractOutboxProcessor.settle, herror]
      · have hsent : attemptOf correlationId tick s ∈
            db.log.filter fun a => decide (a.tick = tick) := by
          rw [hbatch.log]
          exact List.mem_map_of_mem hs
        have hmem := (List.mem_filter.mp hsent).1
        unfold attemptOf at hmem
        rw [herror] at hmem
        exact hmem
    | some message =>
      simp only [AbstractOutboxProcessor.settle, herror]
      by_cases hmax : maxRetries ≤ s.1.retryCount + 1
      · simp only [if_pos hmax]
        omega
      · simp only [if_neg hmax]
        omega
  · rw [settle_id, hfailed]
    cases herror : s.2.error <;> simp [AbstractOutboxProcessor.settle, herror]

theorem RelayDb.Inv.commit {db : RelayDb π} {tick : Nat} (h : db.Inv correlationId maxRetries)
    (hbatch : Batch correlationId db tick (done.map Prod.fst) done) :
    (db.commit maxRetries tick done).Inv correlationId maxRetries := by
  have hids : (done.map fun s => s.1.id).Nodup := by
    have := hbatch.ids
    rw [List.map_map] at this
    exact this
  have hsub : ∀ s ∈ done, s.1 ∈ done.map Prod.fst := fun s hs => List.mem_map_of_mem hs
  have hmem : ∀ s ∈ done, s.1 ∈ db.rows := fun s hs => (hbatch.mem s.1 (hsub s hs)).1
  have hrows : (db.commit maxRetries tick done).rows.map OutboxRecord.id =
      db.rows.map OutboxRecord.id := settleAll_ids done db.rows
  constructor
  · rw [hrows]
    exact h.ids
  · intro r hr
    rcases (mem_settleAll h.ids hids hmem).mp hr with ⟨s, hs, rfl⟩ | ⟨hold, hother⟩
    · exact settle_sound h hbatch hsub hids hs
    · refine (h.rows r hold).mono (fun _ hc => List.mem_append_left _ hc) (fun _ ha => ha) ?_
      rw [failedAttempts_commit hbatch]
      refine Nat.add_eq_left.mpr (List.countP_eq_zero.mpr fun s hs => ?_)
      simp [hother s hs]
  · intro k hk
    have hk' : k ∈ db.committed ++ [tick] := by
      simpa [RelayDb.committed, RelayDb.commit] using hk
    rcases List.mem_append.mp hk' with hk | hk
    · exact h.committed k hk
    · rw [List.mem_singleton.mp hk]
      exact hbatch.lt
  · intro a ha
    rw [hrows]
    exact h.log a ha

/-! ## the ticks keep out of each other's way -/

theorem Batch.mono {db db' : RelayDb π} {tick : Nat} {records : List (OutboxRecord π)}
    {sent : List (SentRecord π)} (h : Batch correlationId db tick records sent)
    (hlt : db.ticks ≤ db'.ticks) (hfresh : tick ∉ db'.committed)
    (hmem : ∀ r ∈ records, r ∈ db.rows → r ∈ db'.rows)
    (hlog : db'.log.filter (fun a => decide (a.tick = tick)) =
      db.log.filter fun a => decide (a.tick = tick)) : Batch correlationId db' tick records sent :=
  ⟨Nat.lt_of_lt_of_le h.lt hlt, hfresh, fun r hr => ⟨hmem r hr (h.mem r hr).1, (h.mem r hr).2⟩, h.ids,
    hlog.trans h.log⟩

theorem Batch.perm {db : RelayDb π} {tick : Nat} {records records' : List (OutboxRecord π)}
    {sent : List (SentRecord π)} (h : Batch correlationId db tick records sent)
    (hperm : records'.Perm records) : Batch correlationId db tick records' sent :=
  ⟨h.lt, h.fresh, fun r hr => h.mem r (hperm.mem_iff.mp hr),
    (hperm.map OutboxRecord.id).nodup_iff.mpr h.ids, h.log⟩

theorem Batch.attempt {db : RelayDb π} {tick : Nat} {records : List (OutboxRecord π)}
    {sent : List (SentRecord π)} (h : Batch correlationId db tick records sent)
    (s : SentRecord π) : Batch correlationId (db.attempt (attemptOf correlationId tick s)) tick
      records (sent ++ [s]) := by
  refine ⟨h.lt, h.fresh, h.mem, h.ids, ?_⟩
  show (db.log ++ [attemptOf correlationId tick s]).filter _ = _
  rw [List.filter_append, List.map_append, h.log]
  simp [attemptOf]

/-- the records that a select has locked -/
theorem Batch.select {db : RelayDb π} (h : db.Inv correlationId maxRetries)
    (order : RowOrder (OutboxRecord π)) (now : Nat) (locked : List String) :
    Batch correlationId db.begin_ db.ticks (selectPending order now locked db.rows) [] := by
  refine ⟨Nat.lt_succ_self _, fun hk => absurd (h.committed _ hk) (Nat.lt_irrefl _), ?_,
    selectPending_nodup order now locked h.ids, ?_⟩
  · exact fun r hr => ⟨(selectPending_mem hr).1, (selectPending_mem hr).2.1⟩
  · refine List.filter_eq_nil_iff.mpr fun a ha => ?_
    have hlt := (h.log a ha).1
    simp only [decide_eq_true_eq]
    omega

/-- a transaction outside its batch has nothing to say about it -/
theorem RelayTx.Sound.idle {db : RelayDb π} {t : RelayTx π} (ht : t.batch = none)
    (hrow : ∀ row, t ≠ .inserting row) : t.Sound correlationId db := by
  refine ⟨fun row e => absurd e (hrow row), fun tick records hb => ?_⟩
  rw [ht] at hb
  cases hb

theorem moves_own {db db' : RelayDb π} {t t' : RelayTx π} (hmax : 1 ≤ maxRetries)
    (hm : RelayTx.Moves correlationId maxRetries db t db' t')
    (h : db.Inv correlationId maxRetries) (ht : t.Sound correlationId db) :
    db'.Inv correlationId maxRetries ∧ t'.Sound correlationId db' := by
  cases hm with
  | insert row =>
    obtain ⟨hs, hr⟩ := ht.row row rfl
    exact ⟨h.insert hmax row hs hr, .idle rfl fun _ => nofun⟩
  | skip i => exact ⟨h, .idle rfl fun _ => nofun⟩
  | enter i => exact ⟨h.busy i true, .idle rfl fun _ => nofun⟩
  | select i now order locked =>
    refine ⟨h.begin_, fun _ => nofun, fun tick records hb => ?_⟩
    cases hb
    rw [List.map_nil, List.append_nil]
    exact .select h order now locked
  | publish i tick record x todo done =>
    have hbatch := ht.batch _ _ rfl
    have hrecord := (hbatch.mem record List.mem_cons_self).1
    refine ⟨h.attempt hbatch.lt hbatch.fresh (List.mem_map_of_mem hrecord), fun _ => nofun, ?_⟩
    intro tick' records hb
    cases hb
    exact hbatch.attempt (record, x)
  | update i tick record x todo done =>
    have hbatch := ht.batch _ _ rfl
    refine ⟨h, fun _ => nofun, fun tick' records hb => ?_⟩
    cases hb
    refine hbatch.perm ?_
    rw [List.map_append, ← List.append_assoc]
    exact List.perm_append_comm
  | commit i tick done =>
    have hbatch := ht.batch _ _ rfl
    exact ⟨(h.commit hbatch).busy i false, .idle rfl fun _ => nofun⟩
  | abort i t => exact ⟨h.busy i false, .idle rfl fun _ => nofun⟩

/-- the locks of two ticks that are under way -/
theorem batch_disjoint {t u : RelayTx π} {tick k : Nat} {records records' : List (OutboxRecord π)}
    (ht : t.batch = some (tick, records)) (hu : u.batch = some (k, records'))
    (h : ∀ x ∈ t.held, x ∉ u.held) :
    tick ≠ k ∧ ∀ r ∈ records, ∀ r' ∈ records', r.id ≠ r'.id := by
  unfold RelayTx.held at h
  rw [ht, hu] at h
  constructor
  · rintro rfl
    exact h _ List.mem_cons_self List.mem_cons_self
  · intro r hr r' hr' e
    refine h (.row r.id) (List.mem_cons_of_mem _ (List.mem_map_of_mem hr))
      (List.mem_cons_of_mem _ ?_)
    rw [e]
    exact List.mem_map_of_mem hr'

theorem moves_other {db db' : RelayDb π} {t t' u : RelayTx π}
    (hm : RelayTx.Moves correlationId maxRetries db t db' t')
    (h : db.Inv correlationId maxRetries) (ht : t.Sound correlationId db)
    (hu : u.Sound correlationId db) (hheld : ∀ x ∈ t.held, x ∉ u.held) :
    u.Sound correlationId db' := by
  refine ⟨hu.row, fun k records hb => ?_⟩
  have hbatch := hu.batch k records hb
  cases hm with
  | insert row =>
    unfold RelayDb.insert
    split
    · exact hbatch
    · exact hbatch.mono (Nat.le_refl _) hbatch.fresh
        (fun r _ hr => List.mem_append_left _ hr) rfl
  | skip i => exact hbatch
  | enter i => exact hbatch.mono (Nat.le_refl _) hbatch.fresh (fun _ _ hr => hr) rfl
  | select i now order locked =>
    exact hbatch.mono (Nat.le_succ _) hbatch.fresh (fun _ _ hr => hr) rfl
  | publish i tick record x todo done =>
    obtain ⟨hne, _⟩ := batch_disjoint rfl hb hheld
    refine hbatch.mono (Nat.le_refl _) hbatch.fresh (fun _ _ hr => hr) ?_
    show (db.log ++ [attemptOf correlationId tick (record, x)]).filter _ = _
    rw [List.filter_append]
    simp [attemptOf, hne]
  | update i tick record x todo done => exact hbatch
  | commit i tick done =>
    obtain ⟨hne, hids⟩ := batch_disjoint rfl hb hheld
    have hown := ht.batch _ _ rfl
    refine hbatch.mono (Nat.le_refl _) ?_ ?_ rfl
    · intro hk
      have hk' : k ∈ db.committed ++ [tick] := by
        simpa [RelayDb.committed, RelayDb.commit, RelayDb.busy] using hk
      rcases List.mem_append.mp hk' with hk | hk
      · exact hbatch.fresh hk
      · exact hne (List.mem_singleton.mp hk).symm
    · intro r hr hrow
      refine (mem_settleAll h.ids hown.done_ids fun s hs =>
        (hown.mem s.1 (List.mem_map_of_mem hs)).1).mpr (Or.inr ⟨hrow, fun s hs => ?_⟩)
      exact hids s.1 (List.mem_map_of_mem hs) r hr
  | abort i t => exact hbatch.mono (Nat.le_refl _) hbatch.fresh (fun _ _ hr => hr) rfl

/-- **The invariant is stable.** -/
theorem relay_stable (hmax : 1 ≤ maxRetries) : Stable (RelayTx.start (π := π))
    (RelayTx.next correlationId maxRetries) RelayTx.held (fun _ => True) (fun _ _ _ => True)
    (fun db => db.Inv correlationId maxRetries) (fun db t => t.Sound correlationId db) := by
  constructor
  · intro c
    cases c <;> rfl
  · intro c db _ _
    cases c with
    | insert g aggregateId topic messageKey payload =>
      refine ⟨fun row e => ?_, fun _ _ => nofun⟩
      cases e
      exact ⟨rfl, rfl⟩
    | tick i => exact .idle rfl fun _ => nofun
  · exact fun b db t db' t' h ht _ hn => moves_own hmax (next_moves hn) h ht
  · exact fun b db t db' t' u h ht hu _ hn hheld => moves_other (next_moves hn) h ht hu hheld

/-! ## each row is settled once -/

/-- a record of the batch of a tick is not the row that has been settled -/
theorem Batch.other {db : RelayDb π} {tick : Nat} {records : List (OutboxRecord π)}
    {sent : List (SentRecord π)} (hbatch : Batch correlationId db tick records sent)
    (h : db.Inv correlationId maxRetries) {r record : OutboxRecord π} (hr : r ∈ db.rows)
    (hs : r.status ≠ .pending) (hrecord : record ∈ records) : record.id ≠ r.id := by
  intro e
  obtain ⟨hmem, hpend⟩ := hbatch.mem record hrecord
  rw [key_inj h.ids hmem hr e] at hpend
  exact hs hpend

/-- **No access touches a row that has been settled**, and none publishes it. -/
theorem moves_settled {db db' : RelayDb π} {t t' : RelayTx π}
    (hm : RelayTx.Moves correlationId maxRetries db t db' t')
    (h : db.Inv correlationId maxRetries) (ht : t.Sound correlationId db) {r : OutboxRecord π}
    (hr : r ∈ db.rows) (hs : r.status ≠ .pending) :
    r ∈ db'.rows ∧ db'.log.filter (fun a => decide (a.publication.messageId = r.id)) =
      db.log.filter fun a => decide (a.publication.messageId = r.id) := by
  cases hm with
  | insert row =>
    unfold RelayDb.insert
    split
    · exact ⟨hr, rfl⟩
    · exact ⟨List.mem_append_left _ hr, rfl⟩
  | publish i tick record x todo done =>
    have hne := (ht.batch _ _ rfl).other h hr hs List.mem_cons_self
    refine ⟨hr, ?_⟩
    show (db.log ++ [attemptOf correlationId tick (record, x)]).filter _ = _
    rw [List.filter_append]
    simp [attemptOf, OutboxRecord.publication, hne]
  | commit i tick done =>
    have hbatch := ht.batch _ _ rfl
    refine ⟨?_, rfl⟩
    refine (mem_settleAll h.ids hbatch.done_ids fun s hs =>
      (hbatch.mem s.1 (List.mem_map_of_mem hs)).1).mpr (Or.inr ⟨hr, fun s hs' => ?_⟩)
    exact hbatch.other h hr hs (List.mem_map_of_mem hs')
  | skip i => exact ⟨hr, rfl⟩
  | enter i => exact ⟨hr, rfl⟩
  | select i now order locked => exact ⟨hr, rfl⟩
  | update i tick record x todo done => exact ⟨hr, rfl⟩
  | abort i t => exact ⟨hr, rfl⟩

/-- rows are added, and none is lost or written over -/
theorem moves_content {db db' : RelayDb π} {t t' : RelayTx π}
    (hm : RelayTx.Moves correlationId maxRetries db t db' t') :
    db.rows.map OutboxRecord.content <+: db'.rows.map OutboxRecord.content := by
  cases hm with
  | insert row =>
    unfold RelayDb.insert
    split
    · exact List.prefix_refl _
    · show _ <+: (db.rows ++ [row]).map OutboxRecord.content
      rw [List.map_append]
      exact List.prefix_append _ _
  | commit i tick done =>
    have hsame : (settleAll maxRetries done db.rows).map OutboxRecord.content =
        db.rows.map OutboxRecord.content := settleAll_content done db.rows
    exact ⟨[], (List.append_nil _).trans hsame.symm⟩
  | _ => exact List.prefix_refl _

/-- the commit of a tick writes each record of its batch from that record's own publication -/
theorem commit_rows {p : Pool (RelayDb π) (RelayTx π)}
    (hp : p.Good RelayTx.held (fun db => db.Inv correlationId maxRetries)
      fun db t => t.Sound correlationId db) {tx i tick : Nat}
    (ht : p.txs[tx]? = some (.publishing i tick [] done)) (r : OutboxRecord π) :
    r ∈ (RelayPool.step correlationId maxRetries p (.access tx .go)).db.rows ↔
      (∃ s ∈ done, r = AbstractOutboxProcessor.settle maxRetries s.1 s.2 s.1) ∨
        (r ∈ p.db.rows ∧ ∀ s ∈ done, s.1.id ≠ r.id) := by
  have hbatch := (hp.loc _ (List.mem_of_getElem? ht)).batch _ _ rfl
  have hstep : RelayPool.step correlationId maxRetries p (.access tx .go) =
      ⟨(p.db.commit maxRetries tick done).busy i false, p.txs.set tx .ended⟩ :=
    Pool.step_access ht rfl rfl
  rw [hstep]
  exact mem_settleAll hp.inv.ids hbatch.done_ids fun s hs => (hbatch.mem s.1 (List.mem_map_of_mem hs)).1

/-- **The relay loses nothing and settles each row once.**  In every state that any number of
relays can reach together: each row is PENDING with retries left, or PUBLISHED by a tick that
published it, or FAILED with its retries used up, and has counted its failed attempts; a row that is
settled stays as it is, and is not published again; a commit writes each record of its batch from
what came of its own publication, and no row else; and no row is ever lost. -/
theorem relay_settles (correlationId : π → Option String) (maxRetries : Nat)
    (h : 1 ≤ maxRetries) (as : List (RelayPoolAction π)) :
    let step := RelayPool.step correlationId maxRetries
    let p := run step ⟨.initial π, []⟩ as
    (∀ r ∈ p.db.rows, RowSound correlationId maxRetries p.db r) ∧
    (∀ r ∈ p.db.rows, r.status ≠ .pending → ∀ bs, r ∈ (run step p bs).db.rows ∧
      (run step p bs).db.log.filter (fun a => decide (a.publication.messageId = r.id)) =
        p.db.log.filter fun a => decide (a.publication.messageId = r.id)) ∧
    (∀ tx i tick done, p.txs[tx]? = some (.publishing i tick [] done) → ∀ r,
      r ∈ (step p (.access tx .go)).db.rows ↔
        (∃ s ∈ done, r = AbstractOutboxProcessor.settle maxRetries s.1 s.2 s.1) ∨
          (r ∈ p.db.rows ∧ ∀ s ∈ done, s.1.id ≠ r.id)) ∧
    ∀ bs, p.db.rows.map OutboxRecord.content <+:
      (run step p bs).db.rows.map OutboxRecord.content := by
  intro step p
  have hstable : Stable RelayTx.start (RelayTx.next correlationId maxRetries) RelayTx.held
      _ _ _ _ := relay_stable h
  have hinit : (RelayDb.initial π).Inv correlationId maxRetries :=
    ⟨List.nodup_nil, fun _ => nofun, fun _ => nofun, fun _ => nofun⟩
  have hp : p.Good RelayTx.held (fun db => db.Inv correlationId maxRetries)
      (fun db t => t.Sound correlationId db) :=
    hstable.run hinit as (fun _ _ => trivial)
      (along_intro _ (fun s a => Pool.allows_true s a) _ as)
  refine ⟨hp.inv.rows, fun r hr hs bs => ?_, fun tx i tick done ht r => commit_rows hp ht r,
    fun bs => ?_⟩
  · refine hstable.lasts (fun _ => trivial) (fun _ _ _ => trivial)
      (Q := fun db => r ∈ db.rows ∧
        db.log.filter (fun a => decide (a.publication.messageId = r.id)) =
          p.db.log.filter fun a => decide (a.publication.messageId = r.id)) ?_ hp bs ⟨hr, rfl⟩
    rintro b db t db' t' hinv hloc hn ⟨hmem, hlog⟩
    obtain ⟨hmem', hlog'⟩ := moves_settled (next_moves hn) hinv hloc hmem hs
    exact ⟨hmem', hlog'.trans hlog⟩
  · refine hstable.lasts (fun _ => trivial) (fun _ _ _ => trivial)
      (Q := fun db => p.db.rows.map OutboxRecord.content <+: db.rows.map OutboxRecord.content)
      ?_ hp bs (List.prefix_refl _)
    exact fun b db t db' t' _ _ hn hq => hq.trans (moves_content (next_moves hn))

/-- two instances race, the first one's tick is lost after its publication, and the row needs two
attempts more -/
theorem relay_settles_retried :
    let as : List (RelayPoolAction String) :=
      [.start (.insert ⟨.sample 'a', 0⟩ "u1" "users.user-registered" "u1" "payload"),
       .access 0 .go,
       .start (.tick 0), .start (.tick 1), .access 1 .go, .access 2 .go,
       .access 1 (.read 10 (RowOrder.stored _) []), .access 1 (.publish ⟨none, 11⟩), .access 1 .abort,
       .access 2 (.read 20 (RowOrder.stored _) []), .access 2 (.publish ⟨some "down", 21⟩),
       .access 2 .go, .access 2 .go,
       .start (.tick 0), .access 3 .go, .access 3 (.read 3000 (RowOrder.stored _) []),
       .access 3 (.publish ⟨none, 3001⟩), .access 3 .go, .access 3 .go]
    let p := run (RelayPool.step (fun _ => none) 2) ⟨.initial String, []⟩ as
    (∀ r ∈ p.db.rows, RowSound (fun _ => none) 2 p.db r) ∧
      p.db.rows.map (fun r => (r.status, r.retryCount, r.publishedAt)) =
        [(.published, 1, some 3001)] ∧
      p.db.log.map (fun a => (a.tick, a.error)) = [(0, none), (1, some "down"), (2, none)] ∧
      p.db.committed = [1, 2] :=
  ⟨(relay_settles (fun _ => none) 2 (by decide) _).1, by decide +kernel⟩

/-! ## a tick that nobody disturbs -/

/-- the accesses of a tick: the query, a publication and an update for each record, and the end -/
def Tick.accesses (tick : Tick π) : List (RelayPoolAction π) :=
  .access 0 (.read tick.now tick.order tick.locked) ::
    (tick.results.flatMap fun x => [.access 0 (.publish x), .access 0 .go]) ++
      [.access 0 (if tick.commits then .go else .abort)]

/-- the loop of the serial tick, in the words of the concurrent one -/
theorem loop_eq {records : List (OutboxRecord π)} {xs : List PublishResult}
    (h : xs.length = records.length) (t : List (OutboxRecord π)) :
    AbstractOutboxProcessor.loop correlationId maxRetries t records xs =
      (settleAll maxRetries (records.zip xs) t,
        records.map (OutboxRecord.publication correlationId), true) := by
  induction records generalizing xs t with
  | nil =>
    rw [List.length_eq_zero_iff.mp h]
    rfl
  | cons record records ih =>
    cases xs with
    | nil => cases h
    | cons x xs =>
      simp only [AbstractOutboxProcessor.loop, ih (Nat.succ.inj h)]
      rfl

/-- the loop, access by access -/
theorem run_loop {todo : List (OutboxRecord π)} {xs : List PublishResult}
    (h : xs.length = todo.length) (db : RelayDb π) (i k : Nat) (done : List (SentRecord π)) :
    run (RelayPool.step correlationId maxRetries) ⟨db, [.publishing i k todo done]⟩
        (xs.flatMap fun x => [.access 0 (.publish x), .access 0 .go]) =
      ⟨{ db with log := db.log ++ (todo.zip xs).map (attemptOf correlationId k) },
        [.publishing i k [] (done ++ todo.zip xs)]⟩ := by
  induction todo generalizing xs db done with
  | nil =>
    rw [List.length_eq_zero_iff.mp h]
    simp [run]
  | cons record todo ih =>
    cases xs with
    | nil => cases h
    | cons x xs =>
      have hpublish : RelayPool.step correlationId maxRetries
          ⟨db, [.publishing i k (record :: todo) done]⟩ (.access 0 (.publish x)) =
          ⟨db.attempt (attemptOf correlationId k (record, x)),
            [.updating i k record x todo done]⟩ := Pool.step_alone rfl
      have hupdate : RelayPool.step correlationId maxRetries
          ⟨db.attempt (attemptOf correlationId k (record, x)), [.updating i k record x todo done]⟩
          (.access 0 .go) = ⟨db.attempt (attemptOf correlationId k (record, x)),
            [.publishing i k todo (done ++ [(record, x)])]⟩ := Pool.step_alone rfl
      rw [List.flatMap_cons, List.cons_append, List.cons_append, List.nil_append, run_cons,
        hpublish, run_cons, hupdate, ih (Nat.succ.inj h)]
      simp [RelayDb.attempt]

theorem step_end (db : RelayDb π) (i k : Nat) (done : List (SentRecord π)) (commits : Bool) :
    RelayPool.step correlationId maxRetries ⟨db, [.publishing i k [] done]⟩
        (.access 0 (if commits then .go else .abort)) =
      ⟨(if commits then db.commit maxRetries k done else db).busy i false, [.ended]⟩ := by
  cases commits with
  | true => exact Pool.step_alone rfl
  | false => exact Pool.step_alone rfl

/-- **A tick that is alone is `processPending`.** -/
theorem tick_alone (tick : Tick π) (db : RelayDb π) (i : Nat)
    (h : tick.results.length = (selectPending tick.order tick.now tick.locked db.rows).length) :
    (run (RelayPool.step correlationId maxRetries) ⟨db, [.selecting i]⟩ tick.accesses).db.rows =
      (AbstractOutboxProcessor.processPending correlationId maxRetries tick db.rows).table ∧
    (run (RelayPool.step correlationId maxRetries) ⟨db, [.selecting i]⟩ tick.accesses).db.log.map
        Attempt.publication =
      db.log.map Attempt.publication ++
        (AbstractOutboxProcessor.processPending correlationId maxRetries tick db.rows).published := by
  let records := selectPending tick.order tick.now tick.locked db.rows
  have hselect : RelayPool.step correlationId maxRetries ⟨db, [.selecting i]⟩
      (.access 0 (.read tick.now tick.order tick.locked)) =
      ⟨db.begin_, [.publishing i db.ticks records []]⟩ := Pool.step_alone rfl
  have hzip : (records.zip tick.results).map Prod.fst = records :=
    List.map_fst_zip (Nat.le_of_eq h.symm)
  have hsent : ((records.zip tick.results).map (attemptOf correlationId db.ticks)).map
      Attempt.publication = records.map (OutboxRecord.publication correlationId) := by
    conv_rhs => rw [← hzip]
    rw [List.map_map, List.map_map]
    rfl
  have hrun : run (RelayPool.step correlationId maxRetries) ⟨db, [.selecting i]⟩ tick.accesses =
      RelayPool.step correlationId maxRetries
        ⟨{ db.begin_ with
            log := db.log ++ (records.zip tick.results).map (attemptOf correlationId db.ticks) },
          [.publishing i db.ticks [] (records.zip tick.results)]⟩
        (.access 0 (if tick.commits then .go else .abort)) := by
    unfold Tick.accesses
    rw [List.cons_append, run_cons, hselect, run_append, run_loop h]
    rfl
  rw [hrun, step_end]
  simp only [AbstractOutboxProcessor.processPending, loop_eq h, Bool.true_and]
  constructor
  · cases tick.commits <;> rfl
  · have hlog : (db.log ++ (records.zip tick.results).map (attemptOf correlationId db.ticks)).map
        Attempt.publication = db.log.map Attempt.publication ++
          records.map (OutboxRecord.publication correlationId) := by
      rw [List.map_append, hsent]
    cases tick.commits <;> exact hlog

end

end Shop
