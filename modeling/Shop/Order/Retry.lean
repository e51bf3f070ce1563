import Shop.Order.Phases

/-!
# The retry job and the deadlines of the sagas

`retryStuckSagas` reads a batch of overdue sagas without a lock, then takes each row's lock in a
transaction of its own.  The second read checks the status again, but not the deadline.

* `underLock w a`    the saga of the batch and the row that a retry transaction finds;
* `overdue w a`      a retry transaction that writes has found a running saga past its deadline;
* `unmoved w a`      the row still has the deadline that the batch was read with;
* `retry_overdue`    a run that retries only unmoved sagas retries only overdue ones;
* `retry_early`      a reply between the two reads, and the saga is retried at once.
-/

set_option linter.unusedSectionVars false

namespace Shop
open Lib

def underLock (w : OrderSystem) : OrderAction → Option (Saga × Saga)
  | .retry k _ _ =>
    match w.ticks[k]? with
    | some (saga :: _) => (w.db.findSagaRunning saga.id).map fun fresh => (saga, fresh)
    | _ => none
  | _ => none

def overdue (w : OrderSystem) (a : OrderAction) : Bool :=
  match underLock w a with
  | some (_, fresh) => decide ((w.step a).db = w.db) || OrderDb.isStuck w.clock fresh
  | none => true

def unmoved (w : OrderSystem) (a : OrderAction) : Bool :=
  match underLock w a with
  | some (saga, fresh) => decide (fresh.nextRetryAt = saga.nextRetryAt)
  | none => true

/-! ## batches stay overdue -/

theorem isStuck_mono {now later : Nat} (hle : now ≤ later) {s : Saga}
    (h : OrderDb.isStuck now s = true) : OrderDb.isStuck later s = true := by
  obtain ⟨hrun, t, ht, htn⟩ := OrderDb.isStuck_iff.mp h
  exact OrderDb.isStuck_iff.mpr ⟨hrun, t, ht, by omega⟩

/-- every saga of a batch was read running and overdue -/
def BatchesStuck (w : OrderSystem) : Prop :=
  ∀ batch ∈ w.ticks, ∀ s ∈ batch, OrderDb.isStuck w.clock s = true

/-- what is left of a batch keeps the property -/
theorem BatchesStuck.set {w : OrderSystem} (h : BatchesStuck w) {k : Nat} {saga : Saga}
    {rest : List Saga} (hk : w.ticks[k]? = some (saga :: rest)) :
    ∀ batch ∈ w.ticks.set k rest, ∀ s ∈ batch, OrderDb.isStuck w.clock s = true := by
  intro batch hb s hs
  rcases List.mem_or_eq_of_mem_set hb with hb | rfl
  · exact h batch hb s hs
  · exact h _ (List.mem_of_getElem? hk) s (List.mem_cons_of_mem _ hs)

theorem batchesStuck_step (w : OrderSystem) (a : OrderAction) (h : BatchesStuck w) :
    BatchesStuck (w.step a) := by
  cases a with
  | wait ms =>
    intro batch hb s hs
    exact isStuck_mono (Nat.le_add_right w.clock ms) (h batch hb s hs)
  | create u ids input => exact h
  | reply u q ev => exact h
  | findStuck q =>
    intro batch hb s hs
    rcases List.mem_append.mp hb with hb | hb
    · exact h batch hb s hs
    · rw [List.mem_singleton.mp hb] at hs
      exact (OrderDb.findStuck_mem hs).2
  | retry k u q =>
    cases hk : w.ticks[k]? with
    | none => simpa only [OrderSystem.step, hk] using h
    | some batch =>
      cases batch with
      | nil => simpa only [OrderSystem.step, hk] using h
      | cons saga rest =>
        simp only [OrderSystem.step, hk]
        exact h.set hk
  | skipLocked k =>
    cases hk : w.ticks[k]? with
    | none => simpa only [OrderSystem.step, hk] using h
    | some batch =>
      cases batch with
      | nil => simpa only [OrderSystem.step, hk] using h
      | cons saga rest =>
        simp only [OrderSystem.step, hk]
        exact h.set hk

/-- the row that a retry transaction finds is running, and its batch entry is overdue -/
theorem underLock_some {w : OrderSystem} (h : BatchesStuck w) {a : OrderAction} {saga fresh : Saga}
    (hl : underLock w a = some (saga, fresh)) :
    OrderDb.isStuck w.clock saga = true ∧ fresh.status = .running := by
  unfold underLock at hl
  split at hl
  · split at hl
    · rename_i hk
      obtain ⟨x, hx, he⟩ := Option.map_eq_some_iff.mp hl
      cases he
      exact ⟨h _ (List.mem_of_getElem? hk) _ List.mem_cons_self,
        (OrderDb.findSagaRunning_some hx).2.2⟩
    · cases hl
  · cases hl

theorem overdue_of_unmoved {w : OrderSystem} (h : BatchesStuck w) {a : OrderAction}
    (hu : unmoved w a = true) : overdue w a = true := by
  unfold overdue
  unfold unmoved at hu
  cases hl : underLock w a with
  | none => rfl
  | some p =>
    rw [hl] at hu
    obtain ⟨hstuck, hrun⟩ := underLock_some h hl
    obtain ⟨_, t, ht, hle⟩ := OrderDb.isStuck_iff.mp hstuck
    have he : p.2.nextRetryAt = some t := (of_decide_eq_true hu).trans ht
    have hfresh : OrderDb.isStuck w.clock p.2 = true :=
      OrderDb.isStuck_iff.mpr ⟨hrun, t, he, hle⟩
    show (_ || OrderDb.isStuck w.clock p.2) = true
    rw [hfresh, Bool.or_true]

/-- **The retry job touches only overdue sagas, as long as no saga is rescheduled between the batch
query and its lock.** -/
theorem retry_overdue (now : Nat) (as : List OrderAction)
    (h : Along OrderSystem.step (fun w a => unmoved w a = true) (OrderSystem.init now) as) :
    Along OrderSystem.step (fun w a => overdue w a = true) (OrderSystem.init now) as :=
  along_of_invariant (I := BatchesStuck) OrderSystem.step
    (fun w a hI _ => batchesStuck_step w a hI) (fun _ _ hI hu => overdue_of_unmoved hI hu)
    (OrderSystem.init now) as (fun _ hb => absurd hb List.not_mem_nil) h

theorem retry_overdue_noReply :
    Along OrderSystem.step (fun w a => overdue w a = true) (OrderSystem.init 0) noReply :=
  retry_overdue 0 noReply (by decide +kernel)

/-! ## a reply between the two reads -/

/-- the stock is reserved after the batch was read; the saga has 30 seconds more, and is retried -/
def lateReply : List OrderAction :=
  [oneOrder, .wait 30000, .findStuck (.stored _),
    .reply (.sample 'b') (.stored _) (.stockReserved
      ⟨(Uuid.sample '3').val, (Uuid.sample '1').val, "corr", [⟨"p", "Pen", 1, 250⟩], 250⟩),
    .retry 0 (.sample 'c') (.stored _)]

theorem retry_early : ¬ ∀ (now : Nat) (as : List OrderAction),
    Along OrderSystem.step (fun w a => overdue w a = true) (OrderSystem.init now) as := by
  intro h
  have hno : ¬ Along OrderSystem.step (fun w a => overdue w a = true) (OrderSystem.init 0)
      lateReply := by
    decide +kernel
  exact hno (h 0 lateReply)

end Shop
