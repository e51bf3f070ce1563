import Shop.System.Compensation
import Shop.System.Work

/-!
# The shop comes to rest

* `World.AtRest`     no row is to be published, no message is in flight, and no saga is running;
* `Fair`             no more orders, time goes on, and no job waits for ever;
* `fair_rests`       every fair run comes to rest;
* `Fair.of_rest`     a run that comes to rest, and waits from then on, is fair;
* `rest_reachable`   from every reachable state the shop can be brought to rest.

The run may start in any state that `World.step` reaches, with messages repeated or late.  The turns
from then on are those of `World.turn`.
-/

set_option linter.unusedSectionVars false

namespace Shop
open Lib

/-! ## rest -/

/-- nothing is to be published, delivered or retried -/
structure World.AtRest (w : World) : Prop where
  inflight : w.inflight = []
  rows : ∀ service, ∀ r ∈ w.outbox service, r.status ≠ .pending
  sagas : ∀ s ∈ w.orders.db.sagas, s.status ≠ .running

theorem Still.atRest {w w' : World} (h : Still w w') (hrest : w.AtRest) : w'.AtRest where
  inflight := h.inflight.trans hrest.inflight
  rows := fun service r hr => hrest.rows service r (h.outbox service ▸ hr)
  sagas := fun s hs => hrest.sagas s (h.orders ▸ hs)

/-- at rest no turn does anything -/
theorem World.AtRest.idle {w : World} (h : w.AtRest) (t : Turn) : w.moves t = false := by
  cases t with
  | relay service row error =>
    cases hr : (w.outbox service)[row]? with
    | none => simp only [World.moves, hr, Option.any_none]
    | some r =>
      have hnot := h.rows service r (List.mem_of_getElem? hr)
      simp only [World.moves, hr, Option.any_some]
      exact Bool.eq_false_iff.mpr fun hdue => hnot (OutboxRow.due_iff.mp hdue).1
  | consume index ids => simp [World.moves, h.inflight]
  | retry k u q =>
    cases hl : underLock w.orders (.retry k u q) with
    | none => simp only [World.moves, hl, Option.isSome_none]
    | some p =>
      obtain ⟨hmem, hrun⟩ := underLock_running hl
      exact absurd hrun (h.sagas p.2 hmem)
  | aside a => rfl

/-- if the relays have given up no row, everything has been published and handled -/
theorem World.AtRest.settled {w : World} (h : w.AtRest)
    (hfailed : ∀ service, ∀ r ∈ w.outbox service, r.status ≠ .failed) : w.settled := by
  refine ⟨h.inflight, fun service r hr => ?_⟩
  have hpending := h.rows service r hr
  have hnot := hfailed service r hr
  cases hst : r.status with
  | pending => exact absurd hst hpending
  | published => rfl
  | failed => exact absurd hst hnot

/-! ## something is left to do -/

theorem WF.nextRetryAt {db : OrderDb} (h : WF db) {s : Saga} (hs : s ∈ db.sagas)
    (hrun : s.status = .running) : ∃ t, s.nextRetryAt = some t := by
  obtain ⟨o, ho, hos⟩ := h.order_of hs
  have hphase := h.phase s hs o ho hos
  apply Option.ne_none_iff_exists'.mp
  unfold Phase at hphase
  split at hphase
  · exact hphase.2.1
  · exact hphase.2.1
  · exact hphase.2.1
  · exact absurd (hrun.symm.trans hphase.1) nofun
  · exact absurd (hrun.symm.trans hphase.1) nofun

theorem findStuck_ne_nil {db : OrderDb} {now : Nat} {s : Saga} (hs : s ∈ db.sagas)
    (hstuck : OrderDb.isStuck now s = true) (q : RowOrder Saga) : db.findStuck q now 10 ≠ [] := by
  have hmem : s ∈ q.apply (db.sagas.filter (OrderDb.isStuck now)) :=
    q.mem_apply.mpr (List.mem_filter.mpr ⟨hs, hstuck⟩)
  unfold OrderDb.findStuck
  cases hq : q.apply (db.sagas.filter (OrderDb.isStuck now)) with
  | nil =>
    rw [hq] at hmem
    exact absurd hmem List.not_mem_nil
  | cons x l => exact List.cons_ne_nil x _

section
variable {w : World}

theorem consume_moves (h : w.inflight ≠ []) (ids : DeliveryIds) : w.moves (.consume 0 ids) = true :=
  decide_eq_true (List.length_pos_iff.mpr h)

theorem relay_moves {service : Service} {row : Nat} {r : OutboxRow}
    (hr : (w.outbox service)[row]? = some r) (hpending : r.status = .pending)
    (hclock : r.scheduledAt ≤ w.clock) (error : Option String) :
    w.moves (.relay service row error) = true := by
  simp only [World.moves, hr, Option.any_some]
  exact OutboxRow.due_iff.mpr ⟨hpending, hclock⟩

/-- the first saga of a batch is still running -/
theorem retry_moves {k : Nat} {saga : Saga} {rest : List Saga}
    (hk : w.orders.ticks[k]? = some (saga :: rest)) (hs : saga ∈ w.orders.db.sagas)
    (hrun : saga.status = .running) (u : Uuid) (q : RowOrder OrderItemRow) :
    w.moves (.retry k u q) = true := by
  have hfound : w.orders.db.findSagaRunning saga.id ≠ none := by
    intro hnone
    have hno := List.find?_eq_none.mp hnone saga hs
    simp [hrun] at hno
  simp only [World.moves, underLock, hk]
  rw [Option.isSome_map]
  exact Option.isSome_iff_ne_none.mpr hfound

end

/-! ## fair runs -/

/-- a batch of overdue sagas is read, and if there are any, the first one is retried later -/
def RetriesFirst (w : World) (turns : Nat → Turn) (j : Nat) : Prop :=
  ∃ q, (turns j).actions = [.order (.findStuck q)] ∧
    let before := trace World.turn w turns j
    let tick := before.orders.ticks.length
    let batch := before.orders.db.findStuck q before.clock 10
    batch ≠ [] → ∃ k u rows, j < k ∧ turns k = .retry tick u rows ∧
      (trace World.turn w turns k).orders.ticks[tick]? = some batch

/-- no more orders, time goes on, and no job waits for ever -/
structure Fair (w : World) (turns : Nat → Turn) : Prop where
  closed : ∀ n, (turns n).opens = false
  time : ∀ n t, ∃ k, n ≤ k ∧ t ≤ (trace World.turn w turns k).clock
  relays : ∀ service row, WeaklyFair World.turn World.moves w turns
    fun t => ∃ error, t = .relay service row error
  consumers : WeaklyFair World.turn World.moves w turns fun t => ∃ index ids, t = .consume index ids
  retries : ∀ n, ∃ j, n ≤ j ∧ RetriesFirst w turns j

/-- a turn that does nothing and opens no order -/
theorem TurnStep.idle {w w' : World} {t : Turn} (h : TurnStep w t w' false)
    (hclosed : t.opens = false) : Still w w' := by
  cases h with
  | still h => exact h
  | opened hopens _ _ => exact absurd (hclosed.symm.trans hopens) Bool.false_ne_true

/-- only an order brings work -/
theorem TurnStep.brought {w w' : World} {t : Turn} {b : Bool} (h : TurnStep w t w' b)
    (hclosed : t.opens = false) : w'.brought = w.brought := by
  unfold World.brought
  cases h with
  | still h => rw [h.orders]
  | opened hopens _ _ => exact absurd (hclosed.symm.trans hopens) Bool.false_ne_true
  | moved _ hlength => rw [hlength]

section
variable {w : World} {turns : Nat → Turn} (hw : w.Known) (h : Fair w turns)
include hw h

theorem Fair.step (n : Nat) : ∃ xs, Joint (trace World.turn w turns n) xs ∧
    TurnStep (trace World.turn w turns n) (turns n) (trace World.turn w turns (n + 1))
      ((trace World.turn w turns n).moves (turns n)) := by
  obtain ⟨xs, hj⟩ := trace_inv turns_spend.inv hw turns n
  exact ⟨xs, hj, turn_step hj (turns n)⟩

/-- from some turn on everything stays as it is -/
theorem Fair.settles : ∃ n, (∀ k, n ≤ k → (trace World.turn w turns k).moves (turns k) = false) ∧
    ∀ j k, n ≤ j → j ≤ k → Still (trace World.turn w turns j) (trace World.turn w turns k) := by
  obtain ⟨n, hn⟩ := turns_spend.settles hw fun k => by
    obtain ⟨_, _, hstep⟩ := h.step hw k
    exact hstep.brought (h.closed k)
  refine ⟨n, hn, fun j k hj hk => ?_⟩
  refine trace_keeps Still.refl (fun _ _ _ => Still.trans) (fun i hi => ?_) hk
  obtain ⟨_, _, hstep⟩ := h.step hw i
  rw [hn i (Nat.le_trans hj hi)] at hstep
  exact hstep.idle (h.closed i)

theorem Fair.rests : ∃ n, ∀ k, n ≤ k → (trace World.turn w turns k).AtRest := by
  obtain ⟨n, hn, hstill⟩ := h.settles hw
  suffices hrest : (trace World.turn w turns n).AtRest from
    ⟨n, fun k hk => (hstill n k (Nat.le_refl n) hk).atRest hrest⟩
  constructor
  · by_contra hne
    obtain ⟨k, hk, hidle⟩ := h.consumers.idle hn
    have hsame := (hstill n k (Nat.le_refl n) hk).inflight
    have hids : DeliveryIds := ⟨.sample 'a', ⟨.sample 'a', .sample 'a'⟩, .stored _⟩
    have hmoves := consume_moves (hsame ▸ hne) hids
    rw [hidle _ ⟨0, hids, rfl⟩] at hmoves
    cases hmoves
  · intro service r hr hpending
    obtain ⟨row, hrow⟩ := List.mem_iff_getElem?.mp hr
    obtain ⟨j, hj, hclock⟩ := h.time n r.scheduledAt
    obtain ⟨k, hk, hidle⟩ := (h.relays service row).idle fun k hk => hn k (Nat.le_trans hj hk)
    have hsame := (hstill n k (Nat.le_refl n) (Nat.le_trans hj hk)).outbox service
    have hlater := (hstill j k hj hk).clock
    have hmoves := relay_moves (hsame ▸ hrow) hpending (Nat.le_trans hclock hlater) none
    rw [hidle _ ⟨none, rfl⟩] at hmoves
    cases hmoves
  · intro s hs hrun
    obtain ⟨_, hjoint, _⟩ := h.step hw n
    obtain ⟨t, ht⟩ := hjoint.order.wf.nextRetryAt hs hrun
    obtain ⟨i, hi, hclock⟩ := h.time n t
    obtain ⟨j, hj, q, _, hretry⟩ := h.retries i
    have hnj := Nat.le_trans hi hj
    have hlater := Nat.le_trans hclock (hstill i j hi hj).clock
    have hsj : s ∈ (trace World.turn w turns j).orders.db.sagas :=
      (hstill n j (Nat.le_refl n) hnj).orders ▸ hs
    have hstuck := OrderDb.isStuck_iff.mpr ⟨hrun, t, ht, hlater⟩
    obtain ⟨k, u, rows, hjk, hturn, hbatch⟩ := hretry (findStuck_ne_nil hsj hstuck q)
    have hnk := Nat.le_trans hnj (Nat.le_of_lt hjk)
    cases hcons : (trace World.turn w turns j).orders.db.findStuck q
        (trace World.turn w turns j).clock 10 with
    | nil => exact absurd hcons (findStuck_ne_nil hsj hstuck q)
    | cons saga rest =>
      -- the saga that the batch begins with is running when it is locked
      obtain ⟨hmem, hsaga⟩ := OrderDb.findStuck_mem (hcons ▸ List.mem_cons_self : saga ∈ _)
      have hmemk : saga ∈ (trace World.turn w turns k).orders.db.sagas :=
        (hstill j k hnj (Nat.le_of_lt hjk)).orders ▸ hmem
      have hmoves := retry_moves (hbatch.trans (congrArg some hcons)) hmemk
        (OrderDb.isStuck_iff.mp hsaga).1 u rows
      rw [← hturn, hn k hnk] at hmoves
      cases hmoves

end

/-- **Every fair run comes to rest.**  Whatever state the shop has reached, with messages repeated or
late, and with sagas and rows that have been tried many times: once no more orders are placed, there
is a turn from which on every saga has ended and nothing is to be published or delivered, whatever
else the users do. -/
theorem fair_rests (now : Nat) (as : List Action) (turns : Nat → Turn)
    (h : Fair (run World.step (World.init now) as) turns) :
    ∃ n, ∀ k, n ≤ k → (trace World.turn (run World.step (World.init now) as) turns k).AtRest :=
  h.rests (World.known_run now as)

/-! ## a run that waits once it is at rest -/

/-- time goes on, and the retry job finds nothing -/
def idleTurn (n : Nat) : Turn :=
  if n % 2 = 0 then .aside ⟨.order (.wait n), rfl⟩
  else .aside ⟨.order (.findStuck (.stored Saga)), rfl⟩

theorem idleTurn_closed (n : Nat) : (idleTurn n).opens = false := by
  unfold idleTurn
  split <;> rfl

section
variable {w : World} {turns : Nat → Turn} (hw : w.Known) {N : Nat}
  (hrest : (trace World.turn w turns N).AtRest) (hafter : ∀ n, N ≤ n → turns n = idleTurn n)
include hw hrest hafter

theorem rests_on {k : Nat} (hk : N ≤ k) : (trace World.turn w turns k).AtRest := by
  induction k, hk using Nat.le_induction with
  | base => exact hrest
  | succ k hk ih =>
    obtain ⟨xs, hj⟩ := trace_inv turns_spend.inv hw turns k
    have hstep := turn_step hj (turns k)
    rw [ih.idle] at hstep
    exact (hstep.idle (hafter k hk ▸ idleTurn_closed k)).atRest ih

/-- a run that comes to rest, and waits from then on, is fair -/
theorem Fair.of_rest (hbefore : ∀ n, n < N → (turns n).opens = false) : Fair w turns where
  closed := fun n => by
    by_cases hn : n < N
    · exact hbefore n hn
    · rw [hafter n (Nat.le_of_not_lt hn)]
      exact idleTurn_closed n
  time := fun n t => by
    have heven : 2 * (n + N + t) % 2 = 0 := Nat.mul_mod_right 2 _
    have hturn : turns (2 * (n + N + t)) = .aside ⟨.order (.wait (2 * (n + N + t))), rfl⟩ := by
      rw [hafter _ (by omega)]
      exact if_pos heven
    refine ⟨2 * (n + N + t) + 1, by omega, ?_⟩
    show t ≤ (World.turn _ (turns (2 * (n + N + t)))).clock
    rw [hturn]
    show t ≤ (trace World.turn w turns (2 * (n + N + t))).clock + 2 * (n + N + t)
    omega
  relays := fun service row n hmoves => by
    obtain ⟨t, _, ht⟩ := hmoves (n + N) (Nat.le_add_right n N)
    rw [(rests_on hw hrest hafter (Nat.le_add_left N n)).idle] at ht
    cases ht
  consumers := fun n hmoves => by
    obtain ⟨t, _, ht⟩ := hmoves (n + N) (Nat.le_add_right n N)
    rw [(rests_on hw hrest hafter (Nat.le_add_left N n)).idle] at ht
    cases ht
  retries := fun n => by
    have hodd : (2 * (n + N) + 1) % 2 ≠ 0 := by omega
    refine ⟨2 * (n + N) + 1, by omega, .stored Saga, ?_, fun hbatch => ?_⟩
    · rw [hafter _ (by omega)]
      exact congrArg Turn.actions (if_neg hodd)
    · obtain ⟨s, hs⟩ := List.exists_mem_of_ne_nil _ hbatch
      obtain ⟨hmem, hstuck⟩ := OrderDb.findStuck_mem hs
      have hrests := rests_on hw hrest hafter (by omega : N ≤ 2 * (n + N) + 1)
      exact absurd (OrderDb.isStuck_iff.mp hstuck).1 (hrests.sagas s hmem)

end

/-- two pens are ordered, reserved and paid, and the broker refuses the first command once -/
def saleServed : List Turn :=
  let consume : Turn := .consume 0 ⟨.sample 'c', ⟨.sample '4', .sample '5'⟩, .stored _⟩
  [.relay .order 0 (some "broker down"), .aside ⟨.order (.wait 2000), rfl⟩, .relay .order 0 none,
    consume, .relay .product 0 none, consume, .relay .order 1 none, consume, .relay .payment 0 none,
    consume, .relay .order 2 none, consume]

theorem fair_rests_sale :
    let w := run World.step (World.init 0) (oneSale 2)
    let turns := fun n => (saleServed[n]?).getD (idleTurn n)
    (trace World.turn w turns 12).orders.db.sagas.map Saga.status = [.completed] ∧
    ∃ n, ∀ k, n ≤ k → (trace World.turn w turns k).AtRest := by
  intro w turns
  have hrest : (trace World.turn w turns 12).AtRest := by
    refine ⟨by decide +kernel, fun service => ?_, by decide +kernel⟩
    cases service <;> decide +kernel
  have hafter : ∀ n, 12 ≤ n → turns n = idleTurn n := fun n hn =>
    congrArg (Option.getD · _) (List.getElem?_eq_none hn)
  exact ⟨by decide +kernel,
    fair_rests 0 (oneSale 2) turns
      (Fair.of_rest (World.known_run 0 (oneSale 2)) hrest hafter (by decide +kernel))⟩

/-! ## rest can be reached -/

/-- a turn of the relays, the consumers or the retry job, or time that passes -/
def Turn.serves : Turn → Bool
  | .relay _ _ _ => true
  | .consume _ _ => true
  | .retry _ _ _ => true
  | .aside ⟨.order (.findStuck _), _⟩ => true
  | .aside ⟨.order (.wait _), _⟩ => true
  | .aside _ => false

theorem turn_wait (w : World) (ms : Nat) : Still w (w.turn (.aside ⟨.order (.wait ms), rfl⟩)) :=
  ⟨rfl, rfl, rfl, rfl, Nat.le_add_right _ _⟩

theorem turn_findStuck (w : World) (q : RowOrder Saga) :
    Still w (w.turn (.aside ⟨.order (.findStuck q), rfl⟩)) :=
  ⟨rfl, rfl, rfl, rfl, Nat.le_refl _⟩

/-- a turn that does something leaves less work than there was before one waited for it -/
theorem Still.less {w w' : World} (h : Still w w') (hw' : w'.Known) {t : Turn}
    (hm : w'.moves t = true) : (w'.turn t).work < w.work := by
  obtain ⟨xs, hj⟩ := hw'
  have hstep := turn_step hj t
  rw [hm] at hstep
  rw [← h.work]
  cases hstep with
  | moved hwork _ => exact hwork

/-- a saga that is running: wait for its deadline, read the batch, and retry the first of it -/
theorem less_saga {w : World} (hw : w.Known) {s : Saga} (hs : s ∈ w.orders.db.sagas)
    (hrun : s.status = .running) :
    ∃ ts : List Turn, ts.length ≤ 3 ∧ (∀ t ∈ ts, t.serves = true) ∧
      (run World.turn w ts).work < w.work := by
  obtain ⟨xs, hj⟩ := hw
  obtain ⟨t, ht⟩ := hj.order.wf.nextRetryAt hs hrun
  let later := w.turn (.aside ⟨.order (.wait t), rfl⟩)
  let read := later.turn (.aside ⟨.order (.findStuck (.stored Saga)), rfl⟩)
  have hstill : Still w read := (turn_wait w t).trans (turn_findStuck later _)
  have hknown : read.Known :=
    World.Known.run ⟨xs, hj⟩ [.order (.wait t), .order (.findStuck (.stored Saga))]
  have hclock : t ≤ later.clock := Nat.le_add_left t w.clock
  have hstuck := OrderDb.isStuck_iff.mpr ⟨hrun, t, ht, hclock⟩
  cases hbatch : later.orders.db.findStuck (.stored Saga) later.clock 10 with
  | nil =>
    have hlater : s ∈ later.orders.db.sagas := hs
    exact absurd hbatch (findStuck_ne_nil hlater hstuck _)
  | cons saga rest =>
    obtain ⟨hmem, hsaga⟩ := OrderDb.findStuck_mem (hbatch ▸ List.mem_cons_self : saga ∈ _)
    have hlast : read.orders.ticks[later.orders.ticks.length]? = some (saga :: rest) := by
      show (later.orders.ticks ++
        [later.orders.db.findStuck (.stored Saga) later.clock 10])[_]? = _
      rw [List.getElem?_concat_length, hbatch]
    have hmoves : read.moves (.retry later.orders.ticks.length (.sample 'a') (.stored _)) =
      true := retry_moves hlast hmem (OrderDb.isStuck_iff.mp hsaga).1 _ _
    refine ⟨[.aside ⟨.order (.wait t), rfl⟩, .aside ⟨.order (.findStuck (.stored Saga)), rfl⟩,
      .retry later.orders.ticks.length (.sample 'a') (.stored _)], Nat.le_refl _, ?_,
      hstill.less hknown hmoves⟩
    simp [Turn.serves]

/-- a row that is to be published: wait until it is due -/
theorem less_row {w : World} (hw : w.Known) {service : Service} {r : OutboxRow}
    (hr : r ∈ w.outbox service) (hpending : r.status = .pending) :
    ∃ ts : List Turn, ts.length ≤ 3 ∧ (∀ t ∈ ts, t.serves = true) ∧
      (run World.turn w ts).work < w.work := by
  obtain ⟨row, hrow⟩ := List.mem_iff_getElem?.mp hr
  let later := w.turn (.aside ⟨.order (.wait r.scheduledAt), rfl⟩)
  have hstill : Still w later := turn_wait w r.scheduledAt
  have hknown : later.Known := hw.run [.order (.wait r.scheduledAt)]
  have hclock : r.scheduledAt ≤ later.clock := Nat.le_add_left r.scheduledAt w.clock
  have hmoves := relay_moves (hstill.outbox service ▸ hrow) hpending hclock none
  refine ⟨[.aside ⟨.order (.wait r.scheduledAt), rfl⟩, .relay service row none],
    Nat.le_add_left 2 1, ?_, hstill.less hknown hmoves⟩
  simp [Turn.serves]

/-- a message in flight: deliver it -/
theorem less_message {w : World} (hw : w.Known) (hinflight : w.inflight ≠ []) :
    ∃ ts : List Turn, ts.length ≤ 3 ∧ (∀ t ∈ ts, t.serves = true) ∧
      (run World.turn w ts).work < w.work := by
  let ids : DeliveryIds := ⟨.sample 'a', ⟨.sample 'a', .sample 'a'⟩, .stored _⟩
  have hless := (Still.refl w).less hw (consume_moves hinflight ids)
  refine ⟨[.consume 0 ids], Nat.le_add_left 1 2, ?_, hless⟩
  simp [Turn.serves]

/-- what is left to do can be done, after waiting for it if need be -/
theorem less_work {w : World} (hw : w.Known) (hnot : ¬ w.AtRest) :
    ∃ ts : List Turn, ts.length ≤ 3 ∧ (∀ t ∈ ts, t.serves = true) ∧
      (run World.turn w ts).work < w.work := by
  by_cases hinflight : w.inflight = []
  · by_cases hrows : ∀ service, ∀ r ∈ w.outbox service, r.status ≠ .pending
    · by_cases hsagas : ∀ s ∈ w.orders.db.sagas, s.status ≠ .running
      · exact absurd ⟨hinflight, hrows, hsagas⟩ hnot
      · push Not at hsagas
        obtain ⟨s, hs, hrun⟩ := hsagas
        exact less_saga hw hs hrun
    · push Not at hrows
      obtain ⟨service, r, hr, hpending⟩ := hrows
      exact less_row hw hr hpending
  · exact less_message hw hinflight

/-- **Rest can always be reached.**  From every reachable state the relays, the consumers and the
retry job bring the shop to rest by themselves, in time, within three turns for each piece of work. -/
theorem rest_reachable (now : Nat) (as : List Action) :
    let w := run World.step (World.init now) as
    ∃ ts : List Turn, ts.length ≤ 3 * w.work ∧ (∀ t ∈ ts, t.serves = true) ∧
      (run World.turn w ts).AtRest :=
  reaches_rest turns_spend.inv (fun _ hw hnot => less_work hw hnot) (World.known_run now as)

end Shop
