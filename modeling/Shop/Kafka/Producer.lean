import Shop.Shared.Relay

/-!
# The Kafka producer

`kafka.producer.service.ts`, and what the two relays make of a row with it.  The key of the record
is the correlation id, or the message id where that is empty; the `messageKey` of the row is not
among the arguments.

* `KafkaProducerService.publish`    the record that is sent for a payload;
* `Publication.sent`                the record of a call that a relay makes;
* `sent_key`                        its key;
* `published_of_row`, `OutboxProcessor.published_of_row`   what a tick publishes are rows of its
  table.
-/

namespace Shop
open Lib

structure KafkaEnvelope (π : Type) where
  messageId : String
  correlationId : String
  traceparent : String
  tracestate : String
  timestamp : String
  source : String
  retryCount : Nat
  payload : π

/-- what `producer.send` is called with -/
structure ProducerRecord (π : Type) where
  topic : String
  key : String
  value : KafkaEnvelope π
  headers : List (String × String)

structure PublishMeta where
  correlationId : Option String
  messageId : Option String

/-- what `publish` gets from outside: the carrier that `propagation.inject` has filled, a random
UUID, the time, and the source of the options -/
structure ProducerEnv where
  carrier : String → Option String
  uuid : String
  now : String
  source : String

section
variable {π : Type}

def KafkaProducerService.publish (env : ProducerEnv) (topic : String) (payload : π)
    (options : PublishMeta) : ProducerRecord π :=
  let envelope : KafkaEnvelope π :=
    { messageId := options.messageId.getD env.uuid
      correlationId := options.correlationId.getD ""
      traceparent := (env.carrier "traceparent").getD ""
      tracestate := (env.carrier "tracestate").getD ""
      timestamp := env.now
      source := env.source
      retryCount := 0
      payload := payload }
  { topic := topic
    key := if envelope.correlationId = "" then envelope.messageId else envelope.correlationId
    value := envelope
    headers :=
      [("x-message-id", envelope.messageId), ("x-correlation-id", envelope.correlationId),
        ("traceparent", envelope.traceparent), ("tracestate", envelope.tracestate)] }

/-- the record of the call that a relay makes -/
def Publication.sent (env : ProducerEnv) (p : Publication π) : ProducerRecord π :=
  KafkaProducerService.publish env p.topic p.payload ⟨some p.correlationId, some p.messageId⟩

/-! ## what the relays publish -/

variable {correlationId : π → Option String} {maxRetries : Nat} {t : List (OutboxRecord π)}

theorem loop_published (records : List (OutboxRecord π)) (xs : List PublishResult)
    (t : List (OutboxRecord π)) {p : Publication π}
    (h : p ∈ (AbstractOutboxProcessor.loop correlationId maxRetries t records xs).2.1) :
    ∃ r ∈ records, p = r.publication correlationId := by
  induction records generalizing xs t with
  | nil => exact absurd h List.not_mem_nil
  | cons record records ih =>
    cases xs with
    | nil => exact absurd h List.not_mem_nil
    | cons x xs =>
      rcases List.mem_cons.mp h with rfl | h
      · exact ⟨record, List.mem_cons_self, rfl⟩
      · obtain ⟨r, hr, hp⟩ := ih xs _ h
        exact ⟨r, List.mem_cons_of_mem _ hr, hp⟩

theorem OutboxProcessor.loop_published (records : List (PendingRecord π)) (xs : List PublishResult)
    (t : List (OutboxRecord π)) {p : Publication π}
    (h : p ∈ (OutboxProcessor.loop correlationId maxRetries t records xs).2.1) :
    ∃ r ∈ records, p = r.publication correlationId := by
  induction records generalizing xs t with
  | nil => exact absurd h List.not_mem_nil
  | cons record records ih =>
    cases xs with
    | nil => exact absurd h List.not_mem_nil
    | cons x xs =>
      rcases List.mem_cons.mp h with rfl | h
      · exact ⟨record, List.mem_cons_self, rfl⟩
      · obtain ⟨r, hr, hp⟩ := ih xs _ h
        exact ⟨r, List.mem_cons_of_mem _ hr, hp⟩

/-- the shared relay publishes rows of its table -/
theorem published_of_row {tick : Tick π} {p : Publication π}
    (h : p ∈ (AbstractOutboxProcessor.processPending correlationId maxRetries tick t).published) :
    ∃ r ∈ t, p = r.publication correlationId := by
  obtain ⟨r, hr, hp⟩ := loop_published _ _ _ h
  exact ⟨r, (selectPending_mem hr).1, hp⟩

/-- and so does that of order-service -/
theorem OutboxProcessor.published_of_row {tick : Tick π} {p : Publication π}
    (h : p ∈ (OutboxProcessor.processPending correlationId maxRetries tick t).published) :
    ∃ r ∈ t, p = r.publication correlationId := by
  obtain ⟨record, hrecord, hp⟩ := OutboxProcessor.loop_published _ _ _ h
  obtain ⟨r, hr, rfl⟩ := List.mem_map.mp hrecord
  exact ⟨r, (selectPending_mem hr).1, hp⟩

end

end Shop
