import Shop.System.Joint

/-!
# How completed and cancelled orders end

* `executedFor kind o xs`   the executions of a kind on behalf of an order;
* `completed_once`          an order whose saga is COMPLETED was reserved once, paid once and not
                            released;
* `stockChange xs o p`      what all deliveries for an order have changed the stock of a product by;
* `release_undoes`          a release lists the lines of the reservation, and undoes it.
-/

set_option linter.unusedSectionVars false

namespace Shop
open Lib

/-- the executions of a kind on behalf of an order -/
def executedFor (kind : CommandKind) (orderId : String) (xs : List Execution) : List Execution :=
  xs.filter fun x => x.executed && decide (x.kind = kind) && decide (x.orderId = orderId)

/-! ## one execution for each record -/

theorem filter_of_key {l : List Execution} (hnd : (l.map Execution.commandId).Nodup) {k : String}
    (hk : k ∈ l.map Execution.commandId) :
    ∃ x ∈ l, x.commandId = k ∧ (l.filter fun x => decide (x.commandId = k)) = [x] := by
  obtain ⟨x, hx, rfl⟩ := List.mem_map.mp hk
  exact ⟨x, hx, rfl, filter_key hnd hx⟩

theorem filter_of_no_key {l : List Execution} {k : String} (hk : k ∉ l.map Execution.commandId) :
    (l.filter fun x => decide (x.commandId = k)) = [] := by
  apply List.filter_eq_nil_iff.mpr
  intro x hx he
  exact hk (of_decide_eq_true he ▸ List.mem_map_of_mem hx)

section
variable {w : World} {xs : List Execution} (h : Joint w xs)
include h

/-- among the executed stock commands, those of a kind for an order are those with the kind's id -/
theorem Joint.executedFor_stock {kind : CommandKind} (hk : kind ≠ .processPayment) {oid k : String}
    (hr : ∀ c, Reserves (messages w.orders.db.outbox) c →
      ((kind = .reserveStock ∧ c.orderId = oid) ↔ c.commandId = k))
    (hl : ∀ c, Releases (messages w.orders.db.outbox) c →
      ((kind = .releaseStock ∧ c.orderId = oid) ↔ c.commandId = k)) :
    executedFor kind oid xs = ((stockExecutions xs).filter Execution.executed).filter
      fun x => decide (x.commandId = k) := by
  unfold executedFor stockExecutions
  rw [List.filter_filter, List.filter_filter]
  apply List.filter_congr
  intro x hx
  by_cases hp : x.isPayment = true
  · have hne : x.kind ≠ kind := fun e => hk (e ▸ of_decide_eq_true hp)
    simp [hp, hne]
  · have hmem : x ∈ stockExecutions xs := List.mem_filter.mpr ⟨hx, by simpa using hp⟩
    have hp' : x.isPayment = false := by simpa using hp
    cases h.stock.execution x hmem with
    | reserved c delta hc _ =>
      have hiff := hr c hc
      rw [eq_comm] at hiff
      simp [Execution.isPayment, ← hiff, eq_comm]
    | released c delta hc _ =>
      have hiff := hl c hc
      rw [eq_comm] at hiff
      simp [Execution.isPayment, ← hiff, eq_comm]
    | replayed _ he _ => simp [he]

theorem Joint.reserve_of_saga {s : Saga} (hs : s ∈ w.orders.db.sagas) {c : ReserveStockCommand}
    (hc : Reserves (messages w.orders.db.outbox) c) : c.orderId = s.orderId ↔ c.commandId = s.id := by
  obtain ⟨s', hs', hid, ho, _⟩ := h.order.ofReserve hc
  rw [hid, ho]
  constructor
  · intro e
    rw [h.order.wf.saga_inj hs' hs e]
  · intro e
    rw [h.order.wf.saga_id_inj hs' hs e]

theorem Joint.release_of_saga {s : Saga} (hs : s ∈ w.orders.db.sagas) {c : ReleaseStockCommand}
    (hc : Releases (messages w.orders.db.outbox) c) :
    c.orderId = s.orderId ↔ c.commandId = releaseId s.id := by
  obtain ⟨s', hs', hid, ho, _⟩ := h.order.ofRelease hc
  rw [hid, ho]
  constructor
  · intro e
    rw [h.order.wf.saga_inj hs' hs e]
  · intro e
    rw [h.order.wf.saga_id_inj hs' hs (releaseId_inj.mp e)]

theorem Joint.pay_of_saga {s : Saga} (hs : s ∈ w.orders.db.sagas) {c : ProcessPaymentCommand}
    (hc : Pays (messages w.orders.db.outbox) c) :
    c.orderId = s.orderId ↔ c.commandId = payId s.id := by
  obtain ⟨s', hs', _, _, _, hid, ho, _⟩ := h.order.ofPay hc
  rw [hid, ho]
  constructor
  · intro e
    rw [h.order.wf.saga_inj hs' hs e]
  · intro e
    rw [h.order.wf.saga_id_inj hs' hs (payId_inj.mp e)]

/-- the id of a saga is the id of no release command, and the other way round -/
theorem Joint.release_ne {s : Saga} (hs : s ∈ w.orders.db.sagas) {c : ReleaseStockCommand}
    (hc : Releases (messages w.orders.db.outbox) c) : c.commandId ≠ s.id := by
  obtain ⟨s', hs', hid, _⟩ := h.order.ofRelease hc
  rw [hid]
  exact (ne_releaseId (h.order.wf.uuid s hs) (h.order.wf.uuid s' hs')).symm

theorem Joint.reserve_ne {s : Saga} (hs : s ∈ w.orders.db.sagas) {c : ReserveStockCommand}
    (hc : Reserves (messages w.orders.db.outbox) c) : c.commandId ≠ releaseId s.id := by
  obtain ⟨s', hs', hid, _⟩ := h.order.ofReserve hc
  rw [hid]
  exact ne_releaseId (h.order.wf.uuid s' hs') (h.order.wf.uuid s hs)

theorem Joint.executedFor_reserve {s : Saga} (hs : s ∈ w.orders.db.sagas) :
    executedFor .reserveStock s.orderId xs = ((stockExecutions xs).filter Execution.executed).filter
      fun x => decide (x.commandId = s.id) := by
  apply h.executedFor_stock (by decide)
  · intro c hc
    rw [← h.reserve_of_saga hs hc]
    exact ⟨fun e => e.2, fun e => ⟨rfl, e⟩⟩
  · intro c hc
    exact ⟨fun e => absurd e.1 (by decide), fun e => absurd e (h.release_ne hs hc)⟩

theorem Joint.executedFor_release {s : Saga} (hs : s ∈ w.orders.db.sagas) :
    executedFor .releaseStock s.orderId xs = ((stockExecutions xs).filter Execution.executed).filter
      fun x => decide (x.commandId = releaseId s.id) := by
  apply h.executedFor_stock (by decide)
  · intro c hc
    exact ⟨fun e => absurd e.1 (by decide), fun e => absurd e (h.reserve_ne hs hc)⟩
  · intro c hc
    rw [← h.release_of_saga hs hc]
    exact ⟨fun e => e.2, fun e => ⟨rfl, e⟩⟩

theorem Joint.executedFor_pay {s : Saga} (hs : s ∈ w.orders.db.sagas) :
    executedFor .processPayment s.orderId xs
      = ((paymentExecutions xs).filter Execution.executed).filter
        fun x => decide (x.commandId = payId s.id) := by
  unfold executedFor paymentExecutions
  rw [List.filter_filter, List.filter_filter]
  apply List.filter_congr
  intro x hx
  by_cases hp : x.isPayment = true
  · cases h.payment.execution x (List.mem_filter.mpr ⟨hx, hp⟩) with
    | charged c delta hc _ _ => simp [Execution.isPayment, h.pay_of_saga hs hc]
    | refused c delta hc _ _ => simp [Execution.isPayment, h.pay_of_saga hs hc]
    | replayed _ he _ => simp [he]
  · have hne : x.kind ≠ .processPayment := fun e => hp (decide_eq_true e)
    have hp' : x.isPayment = false := by simpa using hp
    simp [hp', hne]

/-- **A reservation that succeeded was executed once, and took the lines of the order.** -/
theorem Joint.reserved_once {s : Saga} (hs : s ∈ w.orders.db.sagas)
    (hr : Recorded w.products.idempotencyKeys s.id .stockReserved) :
    ∃ x, executedFor .reserveStock s.orderId xs = [x] ∧
      ∀ p, x.delta p = -quantityOf (w.orders.db.linesOf s.orderId) p := by
  have hkey : s.id ∈ executedIds (stockExecutions xs) := by
    rw [h.stock.executed]
    obtain ⟨r, hmem, hk, _⟩ := hr
    exact hk ▸ List.mem_map_of_mem hmem
  have hnd : (executedIds (stockExecutions xs)).Nodup := by
    rw [h.stock.executed]
    exact h.stock.keys
  obtain ⟨x, hx, hid, hf⟩ := filter_of_key hnd hkey
  refine ⟨x, by rw [h.executedFor_reserve hs, hf], ?_⟩
  obtain ⟨hmem, hex⟩ := List.mem_filter.mp hx
  cases h.stock.execution x hmem with
  | reserved c delta hc hd =>
    have hc' : c.commandId = s.id := hid
    obtain ⟨s', hs', hid', _, hp⟩ := h.order.ofReserve hc
    have hss : s' = s := h.order.wf.saga_id_inj hs' hs (hid'.symm.trans hc')
    rw [hss] at hp
    rcases hd with hfail | hd
    · rw [hc'] at hfail
      exact absurd (hr.topic_unique h.stock.keys hfail) (by decide)
    · intro p
      rw [← quantityOf_perm hp p]
      exact hd p
  | released c delta hc _ => exact absurd hid (h.release_ne hs hc)
  | replayed _ he _ => rw [he] at hex; cases hex

/-- **A recorded release was executed once, and put back the lines of the order.** -/
theorem Joint.released_once {s : Saga} (hs : s ∈ w.orders.db.sagas)
    (hr : releaseId s.id ∈ w.products.idempotencyKeys.map IdempotencyKey.key) :
    ∃ x, executedFor .releaseStock s.orderId xs = [x] ∧
      ∀ p, x.delta p = quantityOf (w.orders.db.linesOf s.orderId) p := by
  have hkey : releaseId s.id ∈ executedIds (stockExecutions xs) := by
    rw [h.stock.executed]
    exact hr
  have hnd : (executedIds (stockExecutions xs)).Nodup := by
    rw [h.stock.executed]
    exact h.stock.keys
  obtain ⟨x, hx, hid, hf⟩ := filter_of_key hnd hkey
  refine ⟨x, by rw [h.executedFor_release hs, hf], ?_⟩
  obtain ⟨hmem, hex⟩ := List.mem_filter.mp hx
  cases h.stock.execution x hmem with
  | reserved c delta hc _ => exact absurd hid (h.reserve_ne hs hc)
  | released c delta hc hd =>
    have hc' : c.commandId = releaseId s.id := hid
    obtain ⟨s', hs', hid', _, hp, _⟩ := h.order.ofRelease hc
    have hss : s' = s := h.order.wf.saga_id_inj hs' hs (releaseId_inj.mp (hid'.symm.trans hc'))
    rw [hss] at hp
    intro p
    rw [← quantityOf_perm hp p]
    exact hd p
  | replayed _ he _ => rw [he] at hex; cases hex

/-- a release command is behind every record with a release id -/
theorem Joint.ofReleased {s : Saga} (hs : s ∈ w.orders.db.sagas)
    (hr : releaseId s.id ∈ w.products.idempotencyKeys.map IdempotencyKey.key) :
    (∃ c, Releases (messages w.orders.db.outbox) c ∧ c.commandId = releaseId s.id) ∧
      Recorded w.products.idempotencyKeys (releaseId s.id) .stockReleased := by
  obtain ⟨r, hmem, hk⟩ := List.mem_map.mp hr
  cases h.stock.record r hmem with
  | reserved c items hc _ => exact absurd hk (h.reserve_ne hs hc)
  | notReserved c e hc => exact absurd hk (h.reserve_ne hs hc)
  | released c hc => exact ⟨⟨c, hc, hk⟩, _, hmem, hk, rfl⟩

/-- **A payment that was processed was executed once, and its row has the values of the order.** -/
theorem Joint.paid_once {s : Saga} (hs : s ∈ w.orders.db.sagas) {o : OrderRow}
    (ho : o ∈ w.orders.db.orders) (hos : o.id = s.orderId)
    (hr : Recorded w.payments.idempotencyKeys (payId s.id) .paymentProcessed) :
    (∃ y, (w.payments.payments.filter fun y => decide (y.orderId = s.orderId)) = [y] ∧
      y.status = .completed ∧ y.amount = o.total ∧ y.userId = o.userId) ∧
    ∃ x, executedFor .processPayment s.orderId xs = [x] ∧
      ∀ u, x.delta u = if o.userId = u then -o.total else 0 := by
  -- whatever command has this saga's payment id carries the values of its order
  have hvalues : ∀ c, Pays (messages w.orders.db.outbox) c → c.commandId = payId s.id →
      c.orderId = s.orderId ∧ c.userId = o.userId ∧ c.amount = o.total := by
    intro c hc hid
    obtain ⟨s', hs', o', ho', hos', hid', hord, hu, ha, _⟩ := h.order.ofPay hc
    have hss : s' = s := h.order.wf.saga_id_inj hs' hs (payId_inj.mp (hid'.symm.trans hid))
    rw [hss] at hord hos'
    have hoo : o' = o := h.order.wf.order_inj ho' ho (hos'.trans hos.symm)
    rw [hoo] at hu ha
    exact ⟨hord, hu, ha⟩
  constructor
  · obtain ⟨c, hc, hid, hmem⟩ := h.payment.ofRecorded hr
    obtain ⟨hord, _, _⟩ := hvalues c hc hid
    obtain ⟨y, hy, hyo⟩ := List.mem_map.mp hmem
    refine ⟨y, ?_, ?_⟩
    · rw [← hord, ← hyo]
      exact filter_key h.payment.orderIds hy
    · obtain ⟨c', hc', ho', hu', ha', hst⟩ := h.payment.payment y hy
      have hord' : c'.orderId = s.orderId := ho'.symm.trans (hyo.trans hord)
      have hid' : c'.commandId = payId s.id := (h.pay_of_saga hs hc').mp hord'
      obtain ⟨_, hu, ha⟩ := hvalues c' hc' hid'
      rw [hid'] at hst
      refine ⟨?_, ha'.trans ha, hu'.trans hu⟩
      rcases hst with ⟨hst, _⟩ | ⟨_, hfail⟩
      · exact hst
      · exact absurd (hr.topic_unique h.payment.keys hfail) (by decide)
  · have hkey : payId s.id ∈ executedIds (paymentExecutions xs) := by
      rw [h.payment.executed]
      obtain ⟨r, hmem, hk, _⟩ := hr
      exact hk ▸ List.mem_map_of_mem hmem
    have hnd : (executedIds (paymentExecutions xs)).Nodup := by
      rw [h.payment.executed]
      exact h.payment.keys
    obtain ⟨x, hx, hid, hf⟩ := filter_of_key hnd hkey
    refine ⟨x, by rw [h.executedFor_pay hs, hf], ?_⟩
    obtain ⟨hmem, hex⟩ := List.mem_filter.mp hx
    cases h.payment.execution x hmem with
    | charged c delta hc _ hd =>
      obtain ⟨_, hu, ha⟩ := hvalues c hc hid
      rw [hu, ha] at hd
      exact hd
    | refused c delta hc hfail _ =>
      have hc' : c.commandId = payId s.id := hid
      rw [hc'] at hfail
      exact absurd (hr.topic_unique h.payment.keys hfail) (by decide)
    | replayed _ he _ => rw [he] at hex; cases hex

/-- a delivery that records nothing changes nothing -/
theorem Joint.replay_delta {x : Execution} (hx : x ∈ xs) (he : x.executed = false) (i : String) :
    x.delta i = 0 := by
  by_cases hp : x.isPayment = true
  · cases h.payment.execution x (List.mem_filter.mpr ⟨hx, hp⟩) with
    | charged c delta _ _ _ => cases he
    | refused c delta _ _ _ => cases he
    | replayed _ _ hd => exact hd i
  · cases h.stock.execution x (List.mem_filter.mpr ⟨hx, by simpa using hp⟩) with
    | reserved c delta _ _ => cases he
    | released c delta _ _ => cases he
    | replayed _ _ hd => exact hd i

/-! ## completed sagas -/

theorem Joint.not_released {s : Saga} (hs : s ∈ w.orders.db.sagas)
    (hst : s.currentStep ≠ .releaseStock ∧ s.currentStep ≠ .failed) :
    executedFor .releaseStock s.orderId xs = [] := by
  rw [h.executedFor_release hs]
  apply filter_of_no_key
  intro hk
  have hk' : releaseId s.id ∈ w.products.idempotencyKeys.map IdempotencyKey.key := by
    rw [← h.stock.executed]
    exact hk
  obtain ⟨⟨c, hc, hid⟩, _⟩ := h.ofReleased hs hk'
  obtain ⟨s', hs', hid', _, _, hstep, _⟩ := h.order.ofRelease hc
  have hss : s' = s := h.order.wf.saga_id_inj hs' hs (releaseId_inj.mp (hid'.symm.trans hid))
  rw [hss] at hstep
  rcases hstep with e | e
  · exact hst.1 e
  · exact hst.2 e

end

/-- **A completed saga was paid and reserved exactly once.** -/
theorem completed_once (now : Nat) (as : List Action) :
    let w := run World.step (World.init now) as
    let xs := emits World.step executions (World.init now) as
    (∀ s ∈ w.orders.db.sagas, ∀ o ∈ w.orders.db.orders, o.id = s.orderId → s.status = .completed →
      (∃ y, (w.payments.payments.filter fun y => decide (y.orderId = o.id)) = [y] ∧
        y.status = .completed ∧ y.amount = o.total ∧ y.userId = o.userId) ∧
      (∃ x, executedFor .processPayment o.id xs = [x] ∧
        ∀ u, x.delta u = if o.userId = u then -o.total else 0) ∧
      (∃ x, executedFor .reserveStock o.id xs = [x] ∧
        ∀ p, x.delta p = -quantityOf (w.orders.db.linesOf o.id) p) ∧
      executedFor .releaseStock o.id xs = []) ∧
    ∀ x ∈ xs, x.executed = false → ∀ i, x.delta i = 0 := by
  intro w xs
  have h : Joint w xs := joint_run now as
  constructor
  · intro s hs o ho hos hdone
    have hphase := phase_iff (h.order.wf.phase s hs o ho hos)
    have hstep : s.currentStep = .completed := hphase.2.2.1.mp hdone
    have hstage := h.order.stage s hs
    rw [Stage, hstep] at hstage
    rw [hos]
    obtain ⟨hpay, hexec⟩ := h.paid_once hs ho hos hstage.2
    refine ⟨hpay, hexec, h.reserved_once hs hstage.1, h.not_released hs ?_⟩
    rw [hstep]
    exact ⟨by decide, by decide⟩
  · intro x hx he i
    exact h.replay_delta hx he i

/-! ## released sagas -/

/-- what all deliveries of stock commands for an order have done to the stock of a product -/
def stockChange (xs : List Execution) (orderId p : String) : Int :=
  ((xs.filter fun x => !x.isPayment && decide (x.orderId = orderId)).map fun x => x.delta p).sum

/-- the deliveries that executed a command make up the whole change -/
theorem stockChange_eq {xs : List Execution} (hx : ∀ x ∈ xs, x.executed = false → ∀ i, x.delta i = 0)
    (oid p : String) : stockChange xs oid p =
      ((executedFor .reserveStock oid xs).map fun x => x.delta p).sum +
      ((executedFor .releaseStock oid xs).map fun x => x.delta p).sum := by
  induction xs with
  | nil => rfl
  | cons x xs ih =>
    have ih' := ih fun y hy => hx y (List.mem_cons_of_mem _ hy)
    have hx0 := hx x List.mem_cons_self
    unfold stockChange executedFor at ih' ⊢
    by_cases ho : x.orderId = oid
    · cases he : x.executed with
      | false =>
        have h0 := hx0 he p
        cases hk : x.kind <;> simp [Execution.isPayment, ho, he, hk, h0] at ih' ⊢ <;> omega
      | true => cases hk : x.kind <;> simp [Execution.isPayment, ho, he, hk] at ih' ⊢ <;> omega
    · simp [ho] at ih' ⊢
      omega

/-- **Compensation exactly undoes the reservation.**  Every release command lists the lines of every
reserve command of its order, among them the first one, and once a release has been recorded all
deliveries of the order's stock commands together have changed no stock. -/
theorem release_undoes (now : Nat) (as : List Action) :
    let w := run World.step (World.init now) as
    let xs := emits World.step executions (World.init now) as
    (∀ c, Releases (messages w.orders.db.outbox) c →
      (∃ c', Reserves (messages w.orders.db.outbox) c' ∧ c'.orderId = c.orderId) ∧
      ∀ c', Reserves (messages w.orders.db.outbox) c' → c'.orderId = c.orderId →
        c.items.Perm c'.items) ∧
    ∀ s ∈ w.orders.db.sagas, Recorded w.products.idempotencyKeys (releaseId s.id) .stockReleased →
      ∀ p, stockChange xs s.orderId p = 0 := by
  intro w xs
  have h : Joint w xs := joint_run now as
  constructor
  · intro c hc
    obtain ⟨s, hs, _, hord, hp, _, hpay⟩ := h.order.ofRelease hc
    constructor
    · obtain ⟨c', hc', hid, _⟩ := h.stock.ofReserved (h.reserved_of_paid hs hpay)
      exact ⟨c', hc', ((h.reserve_of_saga hs hc').mpr hid).trans hord.symm⟩
    · intro c' hc' he
      obtain ⟨s', hs', _, hord', hp'⟩ := h.order.ofReserve hc'
      have hss : s' = s := h.order.wf.saga_inj hs' hs (hord'.symm.trans (he.trans hord))
      rw [hss] at hp'
      exact hp.trans hp'.symm
  · intro s hs hrec p
    have hkey : releaseId s.id ∈ w.products.idempotencyKeys.map IdempotencyKey.key := by
      obtain ⟨r, hmem, hk, _⟩ := hrec
      exact hk ▸ List.mem_map_of_mem hmem
    obtain ⟨⟨c, hc, hid⟩, _⟩ := h.ofReleased hs hkey
    obtain ⟨s', hs', hid', _, _, _, hpay⟩ := h.order.ofRelease hc
    have hss : s' = s := h.order.wf.saga_id_inj hs' hs (releaseId_inj.mp (hid'.symm.trans hid))
    rw [hss] at hpay
    obtain ⟨x, hx, hdx⟩ := h.reserved_once hs (h.reserved_of_paid hs hpay)
    obtain ⟨y, hy, hdy⟩ := h.released_once hs hkey
    rw [stockChange_eq (fun z hz he i => h.replay_delta hz he i), hx, hy]
    simp [hdx, hdy]

end Shop
