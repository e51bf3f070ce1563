import Shop.Shared.Messages

/-!
# The outbox relay

`abstract-outbox-processor.service.ts`, the same in all three services.  A relay transaction
publishes the rows that are due and marks each one: PUBLISHED, or one attempt more.

* `OutboxRow.message`         what is published: the topic and the payload of a row;
* `OutboxRow.due`             the condition of the relay's query;
* `OutboxRow.markPublished`, `OutboxRow.markFailed`   the two updates.
-/

set_option linter.unusedSectionVars false

namespace Shop

structure Message where
  topic : Topic
  payload : Payload
deriving DecidableEq, Repr

/-- the reply that a record remembers -/
def StoredResult.message (r : StoredResult) : Message := ⟨r.replyTopic, r.replyPayload⟩

namespace OutboxRow

def message (r : OutboxRow) : Message := ⟨r.topic, r.payload⟩

def due (now : Nat) (r : OutboxRow) : Bool :=
  decide (r.status = .pending) && decide (r.scheduledAt ≤ now)

/-- the default of `OUTBOX_MAX_RETRIES` -/
def maxRetries : Nat := 5

def markPublished (now : Nat) (r : OutboxRow) : OutboxRow :=
  { r with status := .published, publishedAt := some now }

def markFailed (now : Nat) (error : String) (r : OutboxRow) : OutboxRow :=
  { r with
    status := if maxRetries ≤ r.retryCount + 1 then .failed else .pending
    retryCount := r.retryCount + 1
    lastError := some error
    scheduledAt := now + min (1000 * 2 ^ (r.retryCount + 1)) 300000 }

theorem message_write (g : RowDefaults) (x k : String) (t : Topic) (p : Payload) :
    (OutboxRow.write g x t k p).message = ⟨t, p⟩ := rfl

end OutboxRow

/-! ## the messages of an outbox -/

def messages (t : List OutboxRow) : List Message := t.map OutboxRow.message

theorem messages_append (t out : List OutboxRow) :
    messages (t ++ out) = messages t ++ messages out := List.map_append

/-- the relay writes no topic and no payload -/
theorem messages_modify {f : OutboxRow → OutboxRow} (hf : ∀ r, (f r).message = r.message) (i : Nat)
    (t : List OutboxRow) : messages (t.modify i f) = messages t := by
  induction t generalizing i with
  | nil => cases i <;> rfl
  | cons r t ih =>
    cases i with
    | zero =>
      show (f r).message :: messages t = r.message :: messages t
      rw [hf]
    | succ i =>
      show r.message :: messages (t.modify i f) = r.message :: messages t
      rw [ih]

end Shop
