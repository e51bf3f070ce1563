import Shop.Kafka.Consumer
import Shop.Kafka.Producer
import Shop.Lib.JsonText
import Shop.Payment.Service

/-!
# From the producer to the handler

`KafkaProducerService.publish` writes its envelope with `JSON.stringify`, and `dispatch` reads it
with `JSON.parse`.

* `KafkaEnvelope.json encode`   the value that is written, for payloads that `encode` writes;
* `Payload.json iso`            the commands, the replies and the domain events of the saga, with
                                dates as `iso` prints them;
* `Payload.json_valid`          they can all be written;
* `sent_read`                   the reader gets the envelope, field by field;
* `published_delivered`         every message of the saga is dispatched, accounted for, and arrives
                                as it was published.

`dispatch` trusts a message to be an object with a correlation id that can be printed.  What the
producer writes is one.
-/

set_option linter.unusedSectionVars false

namespace Shop
open Lib

/-! ## envelopes -/

def str (s : String) : Json := .string (units s)

/-- an object of named fields -/
def object (fields : List (String × Json)) : Json :=
  .object (fields.map fun f => (units f.1, f.2))

def KafkaEnvelope.json {π : Type} (encode : π → Json) (e : KafkaEnvelope π) : Json :=
  object
    [("messageId", str e.messageId), ("correlationId", str e.correlationId),
      ("traceparent", str e.traceparent), ("tracestate", str e.tracestate),
      ("timestamp", str e.timestamp), ("source", str e.source),
      ("retryCount", .number (decimalText false e.retryCount [])), ("payload", encode e.payload)]

/-- the text that `producer.send` is given -/
def ProducerRecord.text {π : Type} (encode : π → Json) (r : ProducerRecord π) : String :=
  JSON.stringify (r.value.json encode)

theorem str_valid (s : String) : (str s).Valid := units_lt s

theorem validFields_map {fields : List (String × Json)} (h : ∀ f ∈ fields, f.2.Valid) :
    Json.ValidFields (fields.map fun f => (units f.1, f.2)) := by
  induction fields with
  | nil => trivial
  | cons f fields ih =>
    exact ⟨units_lt f.1, h f List.mem_cons_self, ih fun g hg => h g (List.mem_cons_of_mem _ hg)⟩

theorem object_valid {fields : List (String × Json)} (h : ∀ f ∈ fields, f.2.Valid) :
    (object fields).Valid := validFields_map h

theorem array_valid {items : List Json} (h : ∀ v ∈ items, v.Valid) : (Json.array items).Valid := by
  show Json.ValidItems items
  induction items with
  | nil => trivial
  | cons v vs ih =>
    exact ⟨h v List.mem_cons_self, ih fun w hw => h w (List.mem_cons_of_mem _ hw)⟩

theorem count_valid (n : Nat) : (Json.number (decimalText false n [])).Valid :=
  isNumber_decimal false n (Or.inl rfl)

section
variable {π : Type} {encode : π → Json} {e : KafkaEnvelope π}

theorem KafkaEnvelope.json_valid (h : (encode e.payload).Valid) : (e.json encode).Valid := by
  refine object_valid fun f hf => ?_
  simp only [List.mem_cons, List.not_mem_nil, or_false] at hf
  rcases hf with rfl | rfl | rfl | rfl | rfl | rfl | rfl | rfl
  · exact str_valid _
  · exact str_valid _
  · exact str_valid _
  · exact str_valid _
  · exact str_valid _
  · exact str_valid _
  · exact count_valid _
  · exact h

/-- a field of an object that has the name once -/
theorem object_read {fields : List (String × Json)} (hnd : (fields.map Prod.fst).Nodup)
    {f : String × Json} (hf : f ∈ fields) : (object fields).read f.1 = .ok (some f.2) := by
  have hfind : ((fields.map fun f => (units f.1, f.2)).reverse.find?
      fun g => decide (g.1 = units f.1)) = some (units f.1, f.2) := by
    rw [← List.map_reverse, List.find?_map]
    have hcomp : ((fun g : Units × Json => decide (g.1 = units f.1)) ∘
        fun g : String × Json => (units g.1, g.2)) = fun g => decide (g.1 = f.1) := by
      funext g
      exact decide_eq_decide.mpr ⟨units_inj, fun h => congrArg units h⟩
    rw [hcomp]
    have hnd' : (fields.reverse.map Prod.fst).Nodup := by
      rw [List.map_reverse]
      exact List.nodup_reverse.mpr hnd
    have hsome : fields.reverse.find? (fun g => decide (g.1 = f.1)) = some f :=
      selectBy_mem hnd' (List.mem_reverse.mpr hf)
    rw [hsome]
    rfl
  show Except.ok (Option.map Prod.snd (List.find? _ _)) = _
  rw [hfind]
  rfl

/-- what `dispatch` and the handlers read of an envelope -/
theorem KafkaEnvelope.json_read (encode : π → Json) (e : KafkaEnvelope π) :
    (e.json encode).read "messageId" = .ok (some (str e.messageId)) ∧
    (e.json encode).read "correlationId" = .ok (some (str e.correlationId)) ∧
    (e.json encode).read "traceparent" = .ok (some (str e.traceparent)) ∧
    (e.json encode).read "tracestate" = .ok (some (str e.tracestate)) ∧
    (e.json encode).read "payload" = .ok (some (encode e.payload)) := by
  have hread : ∀ {f : String × Json}, f ∈ _ → (e.json encode).read f.1 = .ok (some f.2) :=
    fun hf => object_read (by simp) hf
  exact ⟨hread (f := ("messageId", str e.messageId)) (by simp),
    hread (f := ("correlationId", str e.correlationId)) (by simp),
    hread (f := ("traceparent", str e.traceparent)) (by simp),
    hread (f := ("tracestate", str e.tracestate)) (by simp),
    hread (f := ("payload", encode e.payload)) (by simp)⟩

end

/-! ## the messages of the saga -/

/-- a number of cents, as an amount -/
def amount (cents : Int) : Json :=
  .number (decimalText (cents < 0) (cents.natAbs / 100) (centsText (cents.natAbs % 100)).toList)

def integer (n : Int) : Json := .number (decimalText (n < 0) n.natAbs [])

theorem isDigit_toString (n : Nat) : (toString n).toList ≠ [] ∧
    ∀ c ∈ (toString n).toList, c.isDigit = true := by
  rw [Nat.toString_eq_ofList_toDigits, String.toList_ofList]
  exact ⟨Nat.toDigits_ne_nil, fun c hc => Nat.isDigit_of_mem_toDigits (by omega) (by omega) hc⟩

theorem centsText_digits (c : Nat) : (centsText c).toList = [] ∨
    ∃ digits, (centsText c).toList = '.' :: digits ∧ digits ≠ [] ∧
      ∀ x ∈ digits, x.isDigit = true := by
  unfold centsText
  split_ifs with h1 h2 h3
  · exact Or.inl rfl
  · obtain ⟨hne, hd⟩ := isDigit_toString (c / 10)
    exact Or.inr ⟨_, by rw [String.toList_append]; rfl, hne, hd⟩
  · obtain ⟨hne, hd⟩ := isDigit_toString c
    refine Or.inr ⟨'0' :: (toString c).toList, by rw [String.toList_append]; rfl, by simp, ?_⟩
    intro x hx
    rcases List.mem_cons.mp hx with rfl | hx
    · rfl
    · exact hd x hx
  · obtain ⟨hne, hd⟩ := isDigit_toString c
    exact Or.inr ⟨_, by rw [String.toList_append]; rfl, hne, hd⟩

theorem amount_valid (cents : Int) : (amount cents).Valid :=
  isNumber_decimal _ _ (centsText_digits _)

theorem integer_valid (n : Int) : (integer n).Valid := isNumber_decimal _ _ (Or.inl rfl)

def LineItem.json (i : LineItem) : Json :=
  object [("productId", str i.productId), ("quantity", integer i.quantity)]

def OrderCreatedEventItem.json (i : OrderCreatedEventItem) : Json :=
  object
    [("productId", str i.productId), ("name", str i.name), ("quantity", integer i.quantity),
      ("unitPrice", amount i.unitPrice)]

/-- the payload of a message; `iso` prints a time, as `toISOString` does -/
def Payload.json (iso : Nat → String) : Payload → Json
  | .reserveStock c => object
    [("commandId", str c.commandId), ("orderId", str c.orderId),
      ("correlationId", str c.correlationId), ("items", .array (c.items.map LineItem.json))]
  | .releaseStock c => object
    [("commandId", str c.commandId), ("orderId", str c.orderId),
      ("correlationId", str c.correlationId), ("items", .array (c.items.map LineItem.json))]
  | .processPayment c => object
    [("commandId", str c.commandId), ("orderId", str c.orderId),
      ("correlationId", str c.correlationId), ("userId", str c.userId), ("amount", amount c.amount)]
  | .stockReserved e => object
    [("commandId", str e.commandId), ("orderId", str e.orderId),
      ("correlationId", str e.correlationId),
      ("items", .array (e.items.map OrderCreatedEventItem.json)), ("total", amount e.total)]
  | .stockReservationFailed e => object
    [("commandId", str e.commandId), ("orderId", str e.orderId),
      ("correlationId", str e.correlationId), ("reason", str e.reason)]
  | .stockReleased e => object
    [("commandId", str e.commandId), ("orderId", str e.orderId),
      ("correlationId", str e.correlationId)]
  | .paymentProcessed e => object
    [("commandId", str e.commandId), ("orderId", str e.orderId),
      ("correlationId", str e.correlationId), ("transactionId", str e.transactionId)]
  | .paymentFailed e => object
    [("commandId", str e.commandId), ("orderId", str e.orderId),
      ("correlationId", str e.correlationId), ("reason", str e.reason)]
  | .orderConfirmed e => object
    [("orderId", str e.orderId), ("userId", str e.userId), ("userEmail", str e.userEmail),
      ("correlationId", str e.correlationId),
      ("items", .array (e.items.map OrderCreatedEventItem.json)), ("total", amount e.total),
      ("confirmedAt", str (iso e.confirmedAt))]
  | .orderCancelled e => object
    [("orderId", str e.orderId), ("userId", str e.userId), ("userEmail", str e.userEmail),
      ("correlationId", str e.correlationId), ("reason", str e.reason),
      ("cancelledAt", str (iso e.cancelledAt))]

theorem LineItem.json_valid (i : LineItem) : i.json.Valid := by
  refine object_valid fun f hf => ?_
  simp only [List.mem_cons, List.not_mem_nil, or_false] at hf
  rcases hf with rfl | rfl
  · exact str_valid _
  · exact integer_valid _

theorem OrderCreatedEventItem.json_valid (i : OrderCreatedEventItem) : i.json.Valid := by
  refine object_valid fun f hf => ?_
  simp only [List.mem_cons, List.not_mem_nil, or_false] at hf
  rcases hf with rfl | rfl | rfl | rfl
  · exact str_valid _
  · exact str_valid _
  · exact integer_valid _
  · exact amount_valid _

theorem array_map_valid {α : Type} {f : α → Json} (h : ∀ x, (f x).Valid) (xs : List α) :
    (Json.array (xs.map f)).Valid := by
  refine array_valid fun v hv => ?_
  obtain ⟨x, _, rfl⟩ := List.mem_map.mp hv
  exact h x

/-- the payloads of the saga can all be written -/
theorem Payload.json_valid (iso : Nat → String) (p : Payload) : (p.json iso).Valid := by
  cases p <;> refine object_valid fun f hf => ?_ <;>
    simp only [List.mem_cons, List.not_mem_nil, or_false] at hf <;>
    rcases hf with rfl | rfl | rfl | rfl | rfl | rfl | rfl <;>
    first
      | exact str_valid _
      | exact amount_valid _
      | exact array_map_valid LineItem.json_valid _
      | exact array_map_valid OrderCreatedEventItem.json_valid _

/-! ## delivery -/

section
variable {π η : Type} {encode : π → Json} {cenv : ConsumerEnv} {subs : List (Subscription η)}
  {sub : Subscription η}

variable (encode)

/-- the propagator takes the trace fields of an envelope, which are strings -/
theorem KafkaEnvelope.traceable
    (hextract : ∀ s s', cenv.extract (.string s) (.string s') = .ok ()) (e : KafkaEnvelope π) :
    Traceable cenv (e.json encode) := by
  obtain ⟨_, _, hparent, hstate, _⟩ := e.json_read encode
  intro traceparent tracestate hp hs
  cases hparent.symm.trans hp
  cases hstate.symm.trans hs
  exact hextract _ _

theorem KafkaEnvelope.printable (e : KafkaEnvelope π) : Printable (e.json encode) := by
  intro id hid
  cases (e.json_read encode).2.1.symm.trans hid
  rfl

variable {encode}

/-- **What a producer writes is dispatched and accounted for**, whatever the payload, as long as it
can be written. -/
theorem sent_delivered (hextract : ∀ s s', cenv.extract (.string s) (.string s') = .ok ())
    (r : ProducerRecord π) (hvalid : (encode r.value.payload).Valid)
    (hsub : subscriptionOf subs r.topic = some sub) (hlimit : 1 ≤ sub.limit) :
    (dispatch cenv subs r.topic (some (r.text encode))).result = .ok () ∧
    Accounted cenv sub r.topic (r.value.json encode)
      (dispatch cenv subs r.topic (some (r.text encode))) := by
  have hparse : JSON.parse (r.text encode) = some (r.value.json encode) :=
    parse_stringify (KafkaEnvelope.json_valid hvalid)
  have hnull : r.value.json encode ≠ .null := fun h => nomatch h
  have htrace := KafkaEnvelope.traceable encode hextract r.value
  have hprint := r.value.printable encode
  have hdispatch : dispatch cenv subs r.topic (some (r.text encode)) =
      attempts cenv sub r.topic (r.value.json encode) sub.limit sub.limit 1 := by
    rw [dispatch_parsed hsub hparse, (extractTrace_ok_iff cenv hnull).mpr htrace]
  rw [hdispatch]
  exact ⟨(attempts_resolves_iff hnull).mpr fun _ _ => hprint,
    (attempts_accounted_iff hnull hlimit).mpr fun _ => hprint⟩

end

/-- **Every message of the saga reaches the handler of its topic as it was published.**  The text
that the producer sends is read back as the envelope that it was written from, the delivery resolves
however the handler fails, each of its attempts is made with this envelope or ends in the dead
letters, and the handler finds the payload, the correlation id and the id of the outbox row in it. -/
theorem published_delivered {η : Type} (iso : Nat → String) (penv : ProducerEnv)
    (p : Publication Payload) (cenv : ConsumerEnv) (subs : List (Subscription η))
    (sub : Subscription η) (hsub : subscriptionOf subs p.topic = some sub) (hlimit : 1 ≤ sub.limit)
    (hextract : ∀ s s', cenv.extract (.string s) (.string s') = .ok ()) :
    let r := p.sent penv
    let envelope := r.value.json (Payload.json iso)
    let d := dispatch cenv subs r.topic (some (r.text (Payload.json iso)))
    d.result = .ok () ∧ Accounted cenv sub p.topic envelope d ∧
    envelope.read "payload" = .ok (some (p.payload.json iso)) ∧
    envelope.read "correlationId" = .ok (some (str p.correlationId)) ∧
    envelope.read "messageId" = .ok (some (str p.messageId)) := by
  intro r envelope d
  have hvalid : ((Payload.json iso) r.value.payload).Valid := p.payload.json_valid iso
  obtain ⟨hresult, haccounted⟩ := sent_delivered hextract r hvalid hsub hlimit
  obtain ⟨hid, hcorr, _, _, hpayload⟩ := r.value.json_read (Payload.json iso)
  exact ⟨hresult, haccounted, hpayload, hcorr, hid⟩

/-- a confirmation, to a handler that is down -/
theorem published_delivered_confirmed :
    let iso : Nat → String := fun _ => "1970-01-01T00:00:00.000Z"
    let penv : ProducerEnv := ⟨fun _ => none, "uuid", iso 0, "order-service"⟩
    let payload : Payload := .orderConfirmed ⟨(Uuid.sample '9').val, "user", "u@x", "corr",
      [⟨(Uuid.sample '7').val, "Pen \"1\"", 2, 250⟩], 500, 0⟩
    let p : Publication Payload := ⟨"orders.order-confirmed", payload, "corr", "row"⟩
    let sub : Subscription String := ⟨"orders.order-confirmed", "notifyOrderConfirmed", none⟩
    let cenv := plainEnv fun _ => .error "down"
    let r := p.sent penv
    let envelope := r.value.json (Payload.json iso)
    let d := dispatch cenv [sub] r.topic (some (r.text (Payload.json iso)))
    d.result = .ok () ∧ Accounted cenv sub p.topic envelope d ∧
    envelope.read "payload" = .ok (some (p.payload.json iso)) ∧
    envelope.read "correlationId" = .ok (some (str p.correlationId)) ∧
    envelope.read "messageId" = .ok (some (str p.messageId)) := by
  intro iso penv payload p sub cenv
  exact published_delivered iso penv p cenv [sub] sub rfl (by decide) fun _ _ => rfl

end Shop
