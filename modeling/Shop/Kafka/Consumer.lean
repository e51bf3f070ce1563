import Mathlib.Algebra.Group.Nat.Defs
import Shop.Lib.Json

/-!
# The Kafka consumer

`kafka.consumer.service.ts`: the message of a topic goes to the handler that is subscribed to the
topic, which is called up to `maxRetries` times; a message that fails every time is published to the
topic's dead letters.

* `dispatch env subs topic raw`   `KafkaConsumerService.dispatch`: what it does, in order, and
                                  whether it resolves;
* `attempts`, `sendToDlq`         its retry loop, and the publication of a dead letter;
* `correlationText`               the log lines print the correlation id: this can throw;
* `Consumable`, `dispatch_resolves_iff`  when `dispatch` resolves;
* `Accounted`                     the calls and the dead letters that a delivery should amount to;
* `dispatch_accounted_iff`        when it does.

The parse and the handler are guarded, and nothing else: a message that is null rejects, and so does
a failed attempt of a message whose correlation id has no text.
-/

set_option linter.unusedSectionVars false

namespace Shop
open Lib

/-- `SubscribeOptions`, with handlers of the type `η` -/
structure Subscription (η : Type) where
  topic : String
  handler : η
  maxRetries : Option Nat

structure KafkaDlqEnvelope where
  originalEnvelope : Json
  failedTopic : String
  failedAt : Nat
  error : String
  totalAttempts : Nat

/-- `publish` is a call of the producer, which may fail -/
inductive ConsumerEffect (η : Type) where
  | call (handler : η) (envelope : Json)
  | wait (ms : Nat)
  | publish (topic : String) (payload : KafkaDlqEnvelope) (correlationId : Option Json)

/-- what a call of `dispatch` does, and whether its promise resolves -/
structure Dispatch (η : Type) where
  effects : List (ConsumerEffect η)
  result : Except JsError Unit

/-- what `dispatch` gets from outside: `propagation.extract`, how each attempt of the handler ends,
whether the producer can publish, and the clock -/
structure ConsumerEnv where
  extract : Json → Json → Except JsError Unit
  outcome : Nat → Except String Unit
  publish : Except String Unit
  now : Nat

section
variable {η : Type}

namespace Dispatch

def done : Dispatch η := ⟨[], .ok ()⟩

def after (effects : List (ConsumerEffect η)) (d : Dispatch η) : Dispatch η :=
  ⟨effects ++ d.effects, d.result⟩

/-- the handlers that are called, and with what -/
def calls (d : Dispatch η) : List (η × Json) :=
  d.effects.filterMap fun e => match e with
    | .call handler envelope => some (handler, envelope)
    | _ => none

/-- what the producer is called with, whether it can publish or not, and for which topic -/
def published (d : Dispatch η) : List (String × KafkaDlqEnvelope) :=
  d.effects.filterMap fun e => match e with
    | .publish topic payload _ => some (topic, payload)
    | _ => none

theorem calls_after (es : List (ConsumerEffect η)) (d : Dispatch η) :
    (d.after es).calls = (⟨es, d.result⟩ : Dispatch η).calls ++ d.calls := List.filterMap_append

theorem published_after (es : List (ConsumerEffect η)) (d : Dispatch η) :
    (d.after es).published = (⟨es, d.result⟩ : Dispatch η).published ++ d.published :=
  List.filterMap_append

end Dispatch

/-! ## dispatch -/

/-- `v ?? ''` -/
def orEmpty : Option Json → Json
  | none => .string []
  | some .null => .string []
  | some v => v

/-- the correlation id in a template literal -/
def correlationText (envelope : Json) : Except JsError Unit := do
  let id ← envelope.read "correlationId"
  if (id.map Json.textThrows).getD false then
    throw (.typeError "Cannot convert object to primitive value")

def dlqTopic (topic : String) : String := topic ++ ".dlq"

/-- the log line after the publication, or the one after its failure, ends `sendToDlq` -/
def sendToDlq (env : ConsumerEnv) (topic : String) (envelope : Json) (err : String)
    (totalAttempts : Nat) : Dispatch η :=
  match envelope.read "correlationId" with
  | .error _ => ⟨[], correlationText envelope⟩
  | .ok correlationId =>
    { effects := [.publish (dlqTopic topic) ⟨envelope, topic, env.now, err, totalAttempts⟩
        correlationId]
      result :=
        match env.publish with
        | .error _ => correlationText envelope
        | .ok () =>
          match correlationText envelope with
          | .ok () => .ok ()
          | .error _ => correlationText envelope }

/-- the loop of `dispatch`, from `attempt` on, with `remaining` attempts left -/
def attempts (env : ConsumerEnv) (sub : Subscription η) (topic : String) (envelope : Json)
    (maxRetries : Nat) : (remaining attempt : Nat) → Dispatch η
  | 0, _ => .done
  | remaining + 1, attempt =>
    match env.outcome attempt with
    | .ok () => ⟨[.call sub.handler envelope], .ok ()⟩
    | .error msg =>
      match correlationText envelope with
      | .error e => ⟨[.call sub.handler envelope], .error e⟩
      | .ok () =>
        if attempt = maxRetries then
          (sendToDlq env topic envelope msg maxRetries).after [.call sub.handler envelope]
        else
          (attempts env sub topic envelope maxRetries remaining (attempt + 1)).after
            [.call sub.handler envelope, .wait (300 * 2 ^ (attempt - 1))]

/-- the two fields that are read for the trace of the message -/
def extractTrace (env : ConsumerEnv) (envelope : Json) : Except JsError Unit := do
  let traceparent ← envelope.read "traceparent"
  let tracestate ← envelope.read "tracestate"
  env.extract (orEmpty traceparent) (orEmpty tracestate)

def Subscription.limit (sub : Subscription η) : Nat := sub.maxRetries.getD 3

/-- the subscription of a topic: the first one -/
def subscriptionOf (subs : List (Subscription η)) (topic : String) : Option (Subscription η) :=
  subs.find? fun s => decide (s.topic = topic)

def dispatch (env : ConsumerEnv) (subs : List (Subscription η)) (topic : String)
    (raw : Option String) : Dispatch η :=
  match raw with
  | none => .done
  | some raw =>
    if raw = "" then .done
    else
      match JSON.parse raw with
      | none => .done
      | some envelope =>
        match subscriptionOf subs topic with
        | none => .done
        | some sub =>
          match extractTrace env envelope with
          | .error e => ⟨[], .error e⟩
          | .ok () => attempts env sub topic envelope sub.limit sub.limit 1

/-! ## the retry loop -/

/-- the correlation id, if there is one, has a text; an array that is nested too deeply for the stack
of the engine counts as printable -/
def Printable (envelope : Json) : Prop :=
  ∀ id, envelope.read "correlationId" = .ok (some id) → id.textThrows = false

theorem correlationText_eq {envelope : Json} {id : Option Json}
    (h : envelope.read "correlationId" = .ok id) :
    correlationText envelope = if (id.map Json.textThrows).getD false then
      .error (.typeError "Cannot convert object to primitive value") else .ok () := by
  unfold correlationText
  rw [h]
  rfl

theorem read_ok {envelope : Json} (h : envelope ≠ .null) (key : String) :
    ∃ v, envelope.read key = .ok v := by
  cases envelope with
  | null => exact absurd rfl h
  | object fields => exact ⟨_, rfl⟩
  | bool | number | string | array => exact ⟨none, rfl⟩

theorem correlationText_ok_iff {envelope : Json} (h : envelope ≠ .null) :
    correlationText envelope = .ok () ↔ Printable envelope := by
  obtain ⟨id, hid⟩ := read_ok h "correlationId"
  have hread : Printable envelope ↔ ∀ v, id = some v → v.textThrows = false := by
    unfold Printable
    rw [hid]
    simp only [Except.ok.injEq]
  rw [correlationText_eq hid, hread]
  cases id with
  | none => exact iff_of_true rfl fun v hv => nomatch hv
  | some v =>
    show (if v.textThrows = true then _ else _) = _ ↔ _
    cases hv : v.textThrows with
    | false => exact iff_of_true rfl fun w hw => Option.some.inj hw ▸ hv
    | true => exact iff_of_false (fun h => nomatch h) fun h => nomatch hv.symm.trans (h v rfl)

def ConsumerEnv.Fails (env : ConsumerEnv) (attempt : Nat) : Prop :=
  ∃ msg, env.outcome attempt = .error msg

theorem ConsumerEnv.not_fails {env : ConsumerEnv} {attempt : Nat} :
    ¬ env.Fails attempt ↔ env.outcome attempt = .ok () := by
  unfold Fails
  cases env.outcome attempt with
  | ok => exact iff_of_true (fun ⟨_, h⟩ => nomatch h) rfl
  | error msg => exact iff_of_false (fun h => h ⟨msg, rfl⟩) fun h => nomatch h

section
variable (env : ConsumerEnv) (sub : Subscription η) (topic : String) {envelope : Json}

/-- the message that is dead after its last attempt -/
def deadLetter (env : ConsumerEnv) (topic : String) (envelope : Json) (err : String)
    (totalAttempts : Nat) : String × KafkaDlqEnvelope :=
  (dlqTopic topic, ⟨envelope, topic, env.now, err, totalAttempts⟩)

variable (η) in
theorem sendToDlq_spec (hnull : envelope ≠ .null) (hp : Printable envelope) (err : String)
    (n : Nat) :
    (sendToDlq env topic envelope err n : Dispatch η).result = .ok () ∧
    (sendToDlq env topic envelope err n : Dispatch η).calls = [] ∧
    (sendToDlq env topic envelope err n : Dispatch η).published =
      [deadLetter env topic envelope err n] := by
  obtain ⟨id, hid⟩ := read_ok hnull "correlationId"
  have ht := (correlationText_ok_iff hnull).mpr hp
  unfold sendToDlq
  simp only [hid, ht]
  refine ⟨?_, rfl, rfl⟩
  cases env.publish <;> rfl

theorem sendToDlq_calls (err : String) (n : Nat) :
    (sendToDlq env topic envelope err n : Dispatch η).calls = [] := by
  unfold sendToDlq
  cases envelope.read "correlationId" <;> rfl

/-- **The loop with a correlation id that can be printed**: from an attempt within the limit on, it
calls the handler up to the first success, or up to the limit and then gives the message up. -/
theorem attempts_spec {maxRetries : Nat} (hnull : envelope ≠ .null) (hp : Printable envelope)
    (remaining attempt : Nat) (hle : attempt + remaining = maxRetries) :
    ∃ n, (attempts env sub topic envelope maxRetries (remaining + 1) attempt).result = .ok () ∧
      (attempts env sub topic envelope maxRetries (remaining + 1) attempt).calls =
        List.replicate (n + 1) (sub.handler, envelope) ∧
      (∀ i, attempt ≤ i → i < attempt + n → env.Fails i) ∧
      ((attempt + n ≤ maxRetries ∧ env.outcome (attempt + n) = .ok () ∧
          (attempts env sub topic envelope maxRetries (remaining + 1) attempt).published = []) ∨
        (attempt + n = maxRetries ∧ ∃ msg, env.outcome maxRetries = .error msg ∧
          (attempts env sub topic envelope maxRetries (remaining + 1) attempt).published =
            [deadLetter env topic envelope msg maxRetries])) := by
  have ht := (correlationText_ok_iff hnull).mpr hp
  induction remaining generalizing attempt with
  | zero =>
    obtain rfl : attempt = maxRetries := hle
    have hnone : ∀ i, attempt ≤ i → i < attempt + 0 → env.Fails i := fun i h h' => by omega
    cases ho : env.outcome attempt with
    | ok =>
      unfold attempts
      simp only [ho]
      exact ⟨0, trivial, rfl, hnone, Or.inl ⟨Nat.le_refl _, ho, rfl⟩⟩
    | error msg =>
      obtain ⟨hr, hc, hpub⟩ := sendToDlq_spec η env topic hnull hp msg attempt
      unfold attempts
      simp only [ho, ht, if_true]
      refine ⟨0, hr, ?_, hnone, Or.inr ⟨rfl, msg, rfl, ?_⟩⟩
      · rw [Dispatch.calls_after, hc]
        rfl
      · rw [Dispatch.published_after, hpub]
        rfl
  | succ remaining ih =>
    cases ho : env.outcome attempt with
    | ok =>
      unfold attempts
      simp only [ho]
      exact ⟨0, trivial, rfl, fun i h h' => by omega, Or.inl ⟨by omega, ho, rfl⟩⟩
    | error msg =>
      have hne : attempt ≠ maxRetries := by omega
      obtain ⟨n, hr, hc, hfail, hend⟩ := ih (attempt + 1) (by omega)
      have hidx : attempt + 1 + n = attempt + (n + 1) := by omega
      rw [hidx] at hfail hend
      have hfail' : ∀ i, attempt ≤ i → i < attempt + (n + 1) → env.Fails i := by
        intro i h h'
        rcases Nat.eq_or_lt_of_le h with rfl | hlt
        · exact ⟨msg, ho⟩
        · exact hfail i hlt h'
      unfold attempts
      simp only [ho, ht, if_neg hne]
      refine ⟨n + 1, hr, ?_, hfail', ?_⟩
      · rw [Dispatch.calls_after, hc]
        rfl
      · rw [Dispatch.published_after]
        exact hend

/-- no more calls than attempts -/
theorem attempts_calls_le (maxRetries remaining attempt : Nat) :
    (attempts env sub topic envelope maxRetries remaining attempt).calls.length ≤ remaining := by
  induction remaining generalizing attempt with
  | zero => exact Nat.le_refl 0
  | succ remaining ih =>
    unfold attempts
    cases env.outcome attempt with
    | ok => exact Nat.le_add_left 1 remaining
    | error msg =>
      cases correlationText envelope with
      | error e => exact Nat.le_add_left 1 remaining
      | ok =>
        dsimp only
        split
        · rw [Dispatch.calls_after, sendToDlq_calls env topic]
          exact Nat.le_add_left 1 remaining
        · rw [Dispatch.calls_after, List.length_append, Nat.add_comm]
          exact Nat.add_le_add_right (ih (attempt + 1)) 1

/-- a first attempt that fails, when the correlation id cannot be printed -/
theorem attempts_unprintable {attempt : Nat} (maxRetries remaining : Nat) (hnull : envelope ≠ .null)
    (hp : ¬ Printable envelope) (hf : env.Fails attempt) :
    ∃ e, attempts env sub topic envelope maxRetries (remaining + 1) attempt =
      ⟨[.call sub.handler envelope], .error e⟩ := by
  obtain ⟨msg, ho⟩ := hf
  have ht := mt (correlationText_ok_iff hnull).mp hp
  unfold attempts
  cases hc : correlationText envelope with
  | ok => exact absurd hc ht
  | error e => exact ⟨e, by simp only [ho]⟩

end

/-! ## deliveries -/

section
variable {env : ConsumerEnv} {subs : List (Subscription η)} {sub : Subscription η}
  {topic : String} {envelope : Json}

/-- the propagator takes the trace fields of the message -/
def Traceable (env : ConsumerEnv) (envelope : Json) : Prop :=
  ∀ traceparent tracestate, envelope.read "traceparent" = .ok traceparent →
    envelope.read "tracestate" = .ok tracestate →
    env.extract (orEmpty traceparent) (orEmpty tracestate) = .ok ()

theorem extractTrace_ok_iff (env : ConsumerEnv) (h : envelope ≠ .null) :
    extractTrace env envelope = .ok () ↔ Traceable env envelope := by
  obtain ⟨p, hp⟩ := read_ok h "traceparent"
  obtain ⟨s, hs⟩ := read_ok h "tracestate"
  unfold extractTrace Traceable
  rw [hp, hs]
  simp only [Except.ok.injEq]
  exact ⟨fun h _ _ hp hs => hp ▸ hs ▸ h, fun h => h p s rfl rfl⟩

theorem extractTrace_null (env : ConsumerEnv) : ∃ e, extractTrace env .null = .error e := ⟨_, rfl⟩

/-- what `dispatch` does with a message that can be parsed -/
theorem dispatch_parsed {raw : String} (hsub : subscriptionOf subs topic = some sub)
    (hraw : JSON.parse raw = some envelope) :
    dispatch env subs topic (some raw) =
      match extractTrace env envelope with
      | .error e => ⟨[], .error e⟩
      | .ok () => attempts env sub topic envelope sub.limit sub.limit 1 := by
  have hne : raw ≠ "" := by
    rintro rfl
    exact nomatch hraw
  unfold dispatch
  simp only [hne, if_false, hraw, hsub]

/-- The delivery of the message resolves: it is not null, its trace can be extracted, and its first
failure, if there is one, can be logged.  The limits of the engine's stack are left out. -/
structure Consumable (env : ConsumerEnv) (sub : Subscription η) (envelope : Json) : Prop where
  notNull : envelope ≠ .null
  traced : Traceable env envelope
  logged : 1 ≤ sub.limit → env.Fails 1 → Printable envelope

theorem attempts_resolves_iff (h : envelope ≠ .null) :
    (attempts env sub topic envelope sub.limit sub.limit 1).result = .ok () ↔
      (1 ≤ sub.limit → env.Fails 1 → Printable envelope) := by
  cases hl : sub.limit with
  | zero => exact iff_of_true rfl fun h => absurd h (by decide)
  | succ n =>
    by_cases hp : Printable envelope
    · obtain ⟨_, hr, _⟩ := attempts_spec env sub topic h hp n 1 (Nat.add_comm 1 n)
      exact iff_of_true hr fun _ _ => hp
    · by_cases hf : env.Fails 1
      · obtain ⟨e, he⟩ := attempts_unprintable env sub topic (n + 1) n h hp hf
        rw [he]
        exact iff_of_false (fun h => nomatch h) fun h => hp (h (Nat.succ_pos n) hf)
      · have ho := ConsumerEnv.not_fails.mp hf
        refine iff_of_true ?_ fun _ h => absurd h hf
        unfold attempts
        simp only [ho]

theorem dispatch_parsed_resolves_iff {raw : String} (hsub : subscriptionOf subs topic = some sub)
    (hraw : JSON.parse raw = some envelope) :
    (dispatch env subs topic (some raw)).result = .ok () ↔ Consumable env sub envelope := by
  rw [dispatch_parsed hsub hraw]
  by_cases hnull : envelope = .null
  · obtain ⟨e, he⟩ := extractTrace_null env
    subst hnull
    simp only [he]
    exact iff_of_false (fun h => nomatch h) fun h => h.notNull rfl
  · have htrace := extractTrace_ok_iff env hnull
    cases he : extractTrace env envelope with
    | error e =>
      rw [he] at htrace
      exact iff_of_false (fun h => nomatch h) fun h => nomatch htrace.mpr h.traced
    | ok =>
      have ht := htrace.mp he
      exact (attempts_resolves_iff hnull).trans ⟨fun h => ⟨hnull, ht, h⟩, fun h => h.logged⟩

/-- **The delivery of a message calls the handler at most `maxRetries` times.  It resolves exactly
if the message is no JSON text, or one that is neither null, nor carries a trace that the propagator
rejects, nor fails at first with a correlation id that cannot be printed.** -/
theorem dispatch_resolves_iff (env : ConsumerEnv) (subs : List (Subscription η))
    (sub : Subscription η) (topic : String) (raw : Option String)
    (hsub : subscriptionOf subs topic = some sub) :
    (dispatch env subs topic raw).calls.length ≤ sub.limit ∧
    ((dispatch env subs topic raw).result = .ok () ↔
      ∀ text ∈ raw, ∀ envelope ∈ JSON.parse text, Consumable env sub envelope) := by
  cases raw with
  | none => exact ⟨Nat.zero_le _, iff_of_true rfl fun text h => nomatch h⟩
  | some text =>
    cases hraw : JSON.parse text with
    | none =>
      have hdone : dispatch env subs topic (some text) = .done := by
        unfold dispatch
        simp only [hraw, ite_self]
      rw [hdone]
      refine ⟨Nat.zero_le _, iff_of_true rfl fun t ht envelope he => ?_⟩
      cases ht
      exact nomatch hraw.symm.trans he
    | some envelope =>
      constructor
      · rw [dispatch_parsed hsub hraw]
        cases extractTrace env envelope with
        | error e => exact Nat.zero_le _
        | ok => exact attempts_calls_le env sub topic sub.limit sub.limit 1
      · rw [dispatch_parsed_resolves_iff hsub hraw]
        constructor
        · intro h t ht v hv
          cases ht
          cases hraw.symm.trans hv
          exact h
        · exact fun h => h text rfl envelope hraw

/-- a consumer with one subscription, whose propagator and producer work -/
def plainEnv (outcome : Nat → Except String Unit) : ConsumerEnv where
  extract _ _ := .ok ()
  outcome := outcome
  publish := .ok ()
  now := 0

def userRegistered : Subscription String := ⟨"user.registered", "handleUserRegistered", none⟩

/-- a message on a subscribed topic that rejects: null -/
theorem dispatch_null_rejects :
    ¬ ∀ (env : ConsumerEnv) (subs : List (Subscription String)) (sub : Subscription String)
      (topic : String) (raw : String), subscriptionOf subs topic = some sub →
      (dispatch env subs topic (some raw)).result = .ok () := by
  intro h
  have := h (plainEnv fun _ => .ok ()) [userRegistered] userRegistered "user.registered" "null" rfl
  exact absurd this (by decide +kernel)

theorem dispatch_resolves_text :
    (dispatch (plainEnv fun _ => .error "down") [userRegistered] "user.registered"
        (some "oops")).calls.length ≤ 3 ∧
    ((dispatch (plainEnv fun _ => .error "down") [userRegistered] "user.registered"
        (some "oops")).result = .ok () ↔
      ∀ text ∈ some "oops", ∀ envelope ∈ JSON.parse text,
        Consumable (plainEnv fun _ => .error "down") userRegistered envelope) :=
  dispatch_resolves_iff _ _ userRegistered _ _ rfl

/-! ## accounting -/

/-- The delivery calls the handler with the message up to the first success, or `maxRetries` times
if there is none, and then only calls the producer with the dead letter, with the last error. -/
def Accounted (env : ConsumerEnv) (sub : Subscription η) (topic : String) (envelope : Json)
    (d : Dispatch η) : Prop :=
  ∃ k, d.calls = List.replicate k (sub.handler, envelope) ∧
    (∀ i, 1 ≤ i → i < k → env.Fails i) ∧
    ((1 ≤ k ∧ k ≤ sub.limit ∧ env.outcome k = .ok () ∧ d.published = []) ∨
      (k = sub.limit ∧ ∃ msg, env.outcome k = .error msg ∧
        d.published = [deadLetter env topic envelope msg k]))

theorem attempts_accounted_iff (h : envelope ≠ .null) (hlimit : 1 ≤ sub.limit) :
    Accounted env sub topic envelope (attempts env sub topic envelope sub.limit sub.limit 1) ↔
      (env.Fails 1 → Printable envelope) := by
  obtain ⟨n, hl⟩ := Nat.exists_eq_succ_of_ne_zero (Nat.one_le_iff_ne_zero.mp hlimit)
  by_cases hp : Printable envelope
  · refine iff_of_true ?_ fun _ => hp
    obtain ⟨k, -, hc, hfail, hend⟩ := attempts_spec env sub topic h hp n 1 (Nat.add_comm 1 n)
    rw [Nat.add_comm 1 k] at hfail hend
    unfold Accounted
    rw [hl]
    refine ⟨k + 1, hc, hfail, ?_⟩
    rcases hend with ⟨hle, ho, hpub⟩ | ⟨heq, msg, ho, hpub⟩
    · exact Or.inl ⟨Nat.le_add_left 1 k, hle, ho, hpub⟩
    · rw [heq]
      exact Or.inr ⟨rfl, msg, ho, hpub⟩
  · by_cases hf : env.Fails 1
    · refine iff_of_false ?_ fun h => hp (h hf)
      obtain ⟨e, he⟩ := attempts_unprintable env sub topic sub.limit n h hp hf
      have he' : attempts env sub topic envelope sub.limit sub.limit 1 =
          ⟨[.call sub.handler envelope], .error e⟩ := by
        rw [← he, hl]
      rw [he']
      rintro ⟨k, hc, -, ⟨-, -, ho, -⟩ | ⟨-, msg, -, hpub⟩⟩
      · have hk : 1 = k := (congrArg List.length hc).trans List.length_replicate
        exact ConsumerEnv.not_fails.mpr (hk ▸ ho) hf
      · exact nomatch hpub
    · have ho := ConsumerEnv.not_fails.mp hf
      refine iff_of_true ⟨1, ?_, fun i h h' => by omega, Or.inl ⟨Nat.le_refl 1, hlimit, ho, ?_⟩⟩
        fun h => absurd h hf
      · rw [hl]
        unfold attempts
        simp only [ho]
        rfl
      · rw [hl]
        unfold attempts
        simp only [ho]
        rfl

/-- **The calls and the dead letters of a delivery are accounted for exactly if the propagator takes
the trace of the message, and the first attempt succeeds or the correlation id can be printed.** -/
theorem dispatch_accounted_iff (env : ConsumerEnv) (subs : List (Subscription η))
    (sub : Subscription η) (topic raw : String) (fields : List (Units × Json))
    (hsub : subscriptionOf subs topic = some sub) (hlimit : 1 ≤ sub.limit)
    (hraw : JSON.parse raw = some (.object fields)) :
    Accounted env sub topic (.object fields) (dispatch env subs topic (some raw)) ↔
      Traceable env (.object fields) ∧ (env.Fails 1 → Printable (.object fields)) := by
  have hnull : Json.object fields ≠ .null := fun h => nomatch h
  have htrace := extractTrace_ok_iff env hnull
  rw [dispatch_parsed hsub hraw]
  cases he : extractTrace env (.object fields) with
  | error e =>
    rw [he] at htrace
    refine iff_of_false ?_ fun h => nomatch htrace.mpr h.1
    rintro ⟨k, hc, -, ⟨hk, -⟩ | ⟨hk, -⟩⟩
    all_goals
      have hz : 0 = k := (congrArg List.length hc).trans List.length_replicate
      omega
  | ok =>
    exact (attempts_accounted_iff hnull hlimit).trans (iff_and_self.mpr fun _ => htrace.mp he)

/-- a message on a subscribed topic whose correlation id is an object that has no text -/
def unprintable : String := "\x7b\"correlationId\":\x7b\"toString\":0\x7d\x7d"

/-- the message fails once: no second attempt, no dead letter -/
theorem dispatch_unprintable_lost :
    ¬ ∀ (env : ConsumerEnv) (subs : List (Subscription String)) (sub : Subscription String)
      (topic raw : String) (fields : List (Units × Json)), subscriptionOf subs topic = some sub →
      1 ≤ sub.limit → JSON.parse raw = some (.object fields) →
      Accounted env sub topic (.object fields) (dispatch env subs topic (some raw)) := by
  intro h
  obtain ⟨k, hc, -, hend⟩ := h (plainEnv fun _ => .error "down") [userRegistered] userRegistered
    "user.registered" unprintable _ rfl (by decide) rfl
  have hlen : (dispatch (plainEnv fun _ => .error "down") [userRegistered] "user.registered"
      (some unprintable)).calls.length = 1 := by decide +kernel
  have hk : 1 = k := by rw [← hlen, hc, List.length_replicate]
  rcases hend with ⟨-, -, ho, -⟩ | ⟨hl, -⟩
  · exact nomatch ho
  · exact absurd (hk.trans hl) (by decide)

theorem dispatch_accounted_down :
    Accounted (plainEnv fun _ => .error "down") userRegistered "user.registered" (.object [])
      (dispatch (plainEnv fun _ => .error "down") [userRegistered] "user.registered"
        (some "\x7b\x7d")) ↔
      Traceable (plainEnv fun _ => .error "down") (.object []) ∧
        ((plainEnv fun _ => .error "down").Fails 1 → Printable (.object [])) :=
  dispatch_accounted_iff _ _ userRegistered _ _ _ rfl (by decide) rfl

end

end

end Shop
