import Shop.Order.Phases

/-!
# Redelivered and reordered replies

* `Edge kind a b`        the edges of the step automaton, each with the reply that takes it;
* `SagaStep.rank`        the measure that every edge, and nothing else a run does, changes;
* `effects w a`          the reply kind and order of a delivery that changed the tables;
* `delivery_cases`       a delivery changes nothing, or takes one edge of its own order's saga;
* `delivery_effects`     over a run no reply kind takes effect twice for an order, and the run
                         without its ineffective deliveries ends in the same state.
-/

set_option linter.unusedSectionVars false

namespace Shop
open Lib

/-! ## the step automaton -/

inductive Edge : ReplyKind → SagaStep → SagaStep → Prop where
  | stockReserved : Edge .stockReserved .reserveStock .processPayment
  | stockReservationFailed : Edge .stockReservationFailed .reserveStock .failed
  | paymentProcessed : Edge .paymentProcessed .processPayment .completed
  | paymentFailed : Edge .paymentFailed .processPayment .releaseStock
  | stockReleased : Edge .stockReleased .releaseStock .failed

/-- how far a saga has come -/
def SagaStep.rank : SagaStep → Nat
  | .reserveStock => 0
  | .processPayment => 1
  | .releaseStock => 2
  | .completed => 3
  | .failed => 3

/-- the rank at which a reply is expected -/
def ReplyKind.rank : ReplyKind → Nat
  | .stockReserved => 0
  | .stockReservationFailed => 0
  | .paymentProcessed => 1
  | .paymentFailed => 1
  | .stockReleased => 2

theorem Edge.rank {k : ReplyKind} {a b : SagaStep} (h : Edge k a b) :
    a.rank = k.rank ∧ k.rank < b.rank := by
  cases h <;> exact ⟨rfl, by decide⟩

theorem Fires.edge {g : RowDefaults} {q : RowOrder OrderItemRow} {db : OrderDb} {ev : ReplyEvent}
    {s s' : Saga} {o o' : OrderRow} {t : Topic} {p : Payload} (hf : Fires g q db ev s s' o o' t p) :
    Edge ev.kind s.currentStep s'.currentStep := by
  cases hf with
  | stockReserved _ _ _ hs => rw [hs]; exact .stockReserved
  | stockReservationFailed _ _ _ hs => rw [hs]; exact .stockReservationFailed
  | paymentProcessed _ _ _ hs => rw [hs]; exact .paymentProcessed
  | paymentFailed _ _ _ hs => rw [hs]; exact .paymentFailed
  | stockReleased _ _ _ hs => rw [hs]; exact .stockReleased

/-- a retry leaves a running saga at its step or fails it -/
theorem Retries.rank {g : RowDefaults} {q : RowOrder OrderItemRow} {db : OrderDb} {s s' : Saga}
    {o : OrderRow} {out : List OutboxRow} (hr : Retries g q db s o s' out) :
    s.currentStep.rank ≤ s'.currentStep.rank := by
  cases hr with
  | exhausted _ =>
    show s.currentStep.rank ≤ 3
    cases s.currentStep <;> decide
  | resent _ _ => exact Nat.le_refl _

/-! ## one delivery -/

/-- what belongs to an order in the four tables -/
def OrderDb.rowsOf (db : OrderDb) (x : String) : OrderDb where
  orders := db.orders.filter fun o => decide (o.id = x)
  orderItems := db.orderItems.filter fun i => decide (i.orderId = x)
  sagas := db.sagas.filter fun s => decide (s.orderId = x)
  outbox := db.outbox.filter fun r => decide (r.aggregateId = x)

theorem Moved.rowsOf {db db' : OrderDb} {s s' : Saga} {o o' : OrderRow} {out : List OutboxRow}
    (h : WF db) (m : Moved db db' s s' o o' out) (hout : ∀ r ∈ out, r.aggregateId = s.orderId)
    {x : String} (hx : x ≠ s.orderId) : db'.rowsOf x = db.rowsOf x := by
  have horders : (db'.orders.filter fun o => decide (o.id = x))
      = db.orders.filter fun o => decide (o.id = x) := by
    rw [m.orders]
    refine filter_updateBy_ne ?_ ?_
    · intro r _ hr
      exact decide_eq_false fun e => hx (e.symm.trans (hr.trans m.order_id))
    · exact decide_eq_false fun e => hx (e.symm.trans (m.order_same.1.trans m.order_id))
  have hsagas : (db'.sagas.filter fun s => decide (s.orderId = x))
      = db.sagas.filter fun s => decide (s.orderId = x) := by
    rw [m.sagas]
    refine filter_updateBy_ne ?_ ?_
    · intro r hr hrs
      rw [h.saga_id_inj hr m.saga_mem hrs]
      exact decide_eq_false fun e => hx e.symm
    · exact decide_eq_false fun e => hx (e.symm.trans m.saga_keep.2.1)
  have houtbox : (db'.outbox.filter fun r => decide (r.aggregateId = x))
      = db.outbox.filter fun r => decide (r.aggregateId = x) := by
    rw [m.outbox, List.filter_append]
    have h0 : (out.filter fun r => decide (r.aggregateId = x)) = [] := by
      apply List.filter_eq_nil_iff.mpr
      intro r hr he
      exact hx ((of_decide_eq_true he).symm.trans (hout r hr))
    rw [h0, List.append_nil]
  unfold OrderDb.rowsOf
  rw [horders, hsagas, houtbox, m.frame x hx]

/-- a delivery leaves the tables alone, or takes an edge of its order's saga and leaves the rows of
every other order alone -/
theorem delivery_cases {w : OrderSystem} (h : WF w.db) (u : Uuid) (q : RowOrder OrderItemRow)
    (ev : ReplyEvent) :
    w.step (.reply u q ev) = w ∨
    ((∃ s ∈ w.db.sagas, ∃ s' ∈ (w.step (.reply u q ev)).db.sagas, s.orderId = ev.orderId ∧
      s'.id = s.id ∧ s'.orderId = s.orderId ∧ Edge ev.kind s.currentStep s'.currentStep) ∧
     ∀ x, x ≠ ev.orderId → (w.step (.reply u q ev)).db.rowsOf x = w.db.rowsOf x) := by
  rcases (handleReply_cases h ⟨u, w.clock⟩ q ev).commit with
    he | ⟨s, s', o, o', out, hm, ho, t, p, hf, rfl⟩
  · left
    show { w with db := commit w.db _ } = w
    rw [he]
  · right
    constructor
    · exact ⟨s, hm.saga_mem, s', hm.mem_sagas.mpr (Or.inl rfl), ho, hm.saga_keep.1,
        hm.saga_keep.2.1, hf.edge⟩
    · intro x hx
      apply hm.rowsOf h
      · intro r hr
        rw [List.mem_singleton.mp hr, ho]
        rfl
      · rwa [ho]

/-! ## a run of deliveries -/

/-- the reply kind and the order of a delivery that changed the tables -/
def effects (w : OrderSystem) : OrderAction → List (ReplyKind × String)
  | .reply u q ev =>
    if (w.step (.reply u q ev)).db = w.db then [] else [(ev.kind, ev.orderId)]
  | _ => []

/-- every action but a delivery that changes nothing -/
def effective (w : OrderSystem) : OrderAction → Bool
  | .reply u q ev => decide ((w.step (.reply u q ev)).db ≠ w.db)
  | _ => true

/-- the order's saga has come past the step at which the reply is expected -/
def past (w : OrderSystem) (b : ReplyKind × String) : Prop :=
  ∃ s ∈ w.db.sagas, s.orderId = b.2 ∧ b.1.rank < s.currentStep.rank

theorem Moved.rank {db db' : OrderDb} {s s' : Saga} {o o' : OrderRow} {out : List OutboxRow}
    (h : WF db) (m : Moved db db' s s' o o' out) (hr : s.currentStep.rank ≤ s'.currentStep.rank)
    {x : Saga} (hx : x ∈ db.sagas) :
    ∃ y ∈ db'.sagas, y.orderId = x.orderId ∧ x.currentStep.rank ≤ y.currentStep.rank := by
  by_cases he : x.id = s.id
  · rw [h.saga_id_inj hx m.saga_mem he]
    exact ⟨s', m.mem_sagas.mpr (Or.inl rfl), m.saga_keep.2.1, hr⟩
  · exact ⟨x, m.mem_sagas.mpr (Or.inr ⟨hx, he⟩), rfl, Nat.le_refl _⟩

/-- no transaction takes a saga back -/
theorem DbStep.rank {db db' : OrderDb} (h : WF db) (hs : DbStep db db') {x : Saga}
    (hx : x ∈ db.sagas) :
    ∃ y ∈ db'.sagas, y.orderId = x.orderId ∧ x.currentStep.rank ≤ y.currentStep.rank := by
  cases hs with
  | same => exact ⟨x, hx, rfl, Nat.le_refl _⟩
  | created g ids input hf => exact ⟨x, mem_created_sagas.mpr (Or.inl hx), rfl, Nat.le_refl _⟩
  | replied g q ev ho hf hm =>
    have hr := hf.edge.rank
    exact hm.rank h (by omega) hx
  | retried g q hr ht hm => exact hm.rank h ht.rank hx

theorem past_step {w : OrderSystem} (h : WF w.db) (a : OrderAction) {b : ReplyKind × String}
    (hb : past w b) : past (w.step a) b := by
  obtain ⟨s, hs, ho, hr⟩ := hb
  obtain ⟨s', hs', ho', hr'⟩ := (step_db h a).rank h hs
  exact ⟨s', hs', ho'.trans ho, by omega⟩

/-- an effective delivery takes its saga past the step at which its reply is expected -/
theorem past_effect {w : OrderSystem} (h : WF w.db) (a : OrderAction) {b : ReplyKind × String}
    (hb : b ∈ effects w a) : ¬ past w b ∧ past (w.step a) b := by
  cases a with
  | reply u q ev =>
    simp only [effects] at hb
    by_cases he : (w.step (.reply u q ev)).db = w.db
    · rw [if_pos he] at hb
      exact absurd hb List.not_mem_nil
    · rw [if_neg he] at hb
      rw [List.mem_singleton.mp hb]
      rcases delivery_cases h u q ev with hw | ⟨⟨s, hs, s', hs', ho, _, ho', hedge⟩, _⟩
      · rw [hw] at he
        exact absurd rfl he
      · obtain ⟨h1, h2⟩ := hedge.rank
        constructor
        · rintro ⟨x, hx, hxo, hxr⟩
          have hxs : x = s := h.saga_inj hx hs (hxo.trans ho.symm)
          rw [hxs] at hxr
          have hlt : ev.kind.rank < s.currentStep.rank := hxr
          omega
        · exact ⟨s', hs', ho'.trans ho, h2⟩
  | wait ms => exact absurd hb List.not_mem_nil
  | create u ids input => exact absurd hb List.not_mem_nil
  | findStuck q => exact absurd hb List.not_mem_nil
  | retry k u q => exact absurd hb List.not_mem_nil
  | skipLocked k => exact absurd hb List.not_mem_nil

theorem effects_nodup (w : OrderSystem) (a : OrderAction) : (effects w a).Nodup := by
  unfold effects
  split
  · split
    · exact List.nodup_nil
    · exact List.nodup_singleton _
  · exact List.nodup_nil

theorem effective_step (w : OrderSystem) (a : OrderAction) (h : effective w a = false) :
    w.step a = w := by
  cases a with
  | reply u q ev =>
    have he : (w.step (.reply u q ev)).db = w.db := by simpa [effective] using h
    show { w with db := (w.step (.reply u q ev)).db } = w
    rw [he]
  | wait ms => cases h
  | create u ids input => cases h
  | findStuck q => cases h
  | retry k u q => cases h
  | skipLocked k => cases h

/-- the two domain events exclude each other, whatever the saga does later -/
theorem Terminal.one_event {db : OrderDb} {xs : List String} (h : Terminal db xs) (x : String) :
    written db .orderConfirmed x = 0 ∨ written db .orderCancelled x = 0 := by
  by_cases hx : x ∈ db.orders.map OrderRow.id
  · obtain ⟨o, ho, rfl⟩ := List.mem_map.mp hx
    obtain ⟨s, hs, hso⟩ := h.wf.saga_of ho
    have hset := h.settled s hs o ho hso.symm
    unfold Settled at hset
    cases hstep : s.currentStep <;> rw [hstep] at hset
    · exact Or.inl hset.2.2
    · exact Or.inl hset.2.2
    · exact Or.inl hset.2.2
    · exact Or.inr hset.2.1
    · exact Or.inl hset.1
  · left
    apply List.countP_eq_zero.mpr
    intro r hr hc
    rw [Bool.and_eq_true, decide_eq_true_eq, decide_eq_true_eq] at hc
    exact hx (hc.2 ▸ h.owner r hr)

/-- **Redelivered and reordered replies cannot act twice.**  In every run each delivery changes
nothing or takes one edge of its own order's saga, no reply kind takes effect twice for an order,
the two domain events exclude each other, no delivery touches the rows of another order, and the
run without its ineffective deliveries ends in the same state. -/
theorem delivery_effects (now : Nat) (as : List OrderAction) :
    let w := run OrderSystem.step (OrderSystem.init now) as
    (∀ u q ev, let w' := w.step (.reply u q ev)
      (w'.db = w.db ∨ ∃ s ∈ w.db.sagas, ∃ s' ∈ w'.db.sagas, s.orderId = ev.orderId ∧
        s'.id = s.id ∧ s'.orderId = s.orderId ∧ Edge ev.kind s.currentStep s'.currentStep) ∧
      ∀ x, x ≠ ev.orderId → w'.db.rowsOf x = w.db.rowsOf x) ∧
    (emits OrderSystem.step effects (OrderSystem.init now) as).Nodup ∧
    (∀ x, written w.db .orderConfirmed x = 0 ∨ written w.db .orderCancelled x = 0) ∧
    run OrderSystem.step (OrderSystem.init now)
      (prune OrderSystem.step effective (OrderSystem.init now) as) = w := by
  intro w
  have h : WF w.db := wf_run now as
  refine ⟨?_, ?_, ?_, run_prune OrderSystem.step effective_step _ _⟩
  · intro u q ev w'
    rcases delivery_cases h u q ev with he | ⟨hmove, hframe⟩
    · have hdb : w'.db = w.db := congrArg OrderSystem.db he
      exact ⟨Or.inl hdb, fun x _ => by rw [hdb]⟩
    · exact ⟨Or.inr hmove, hframe⟩
  · exact (emits_rank (I := fun w => WF w.db) OrderSystem.step past
      (fun _ a h => (step_db h a).wf h) (fun w a _ => effects_nodup w a)
      (fun _ a _ h hb => past_effect h a hb) (fun _ a _ h hb => past_step h a hb)
      (OrderSystem.init now) as WF.empty).1
  · exact (terminal_run now as).one_event

end Shop
