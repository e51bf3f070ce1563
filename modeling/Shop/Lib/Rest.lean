import Mathlib.Algebra.BigOperators.Group.List.Basic
import Mathlib.Algebra.Ring.Nat
import Mathlib.Order.Basic
import Shop.Lib.Run
import Shop.Lib.Table

/-!
# Systems that run out of work

A system takes turns, and some of its turns do something.  Every turn that does something uses up
work, and there is only so much work as has been brought in.  Then no run has more turns that do
something than that, and an infinite run to which no new work is brought stops doing anything.

* `total f t`         the work in a list, and what becomes of it when one entry changes;
* `Spends`            the turns that do something use up work;
* `doing`             the turns of a run that do something; `Spends.run`: how many they are;
* `reaches_rest`      rest is within reach as long as there are turns that leave less work;
* `trace step s a n`  an infinite run: the state before its turn `n`;
* `Spends.settles`    from some turn on nothing is done;
* `WeaklyFair`        what a class of turns can do for ever is done.
-/

set_option linter.unusedSectionVars false

namespace Lib

/-! ## the work in a list -/

section
variable {α κ : Type*} (f : α → Nat)

def total (t : List α) : Nat := (t.map f).sum

theorem total_nil : total f [] = 0 := rfl

theorem total_cons (x : α) (t : List α) : total f (x :: t) = f x + total f t := by
  unfold total
  rw [List.map_cons, List.sum_cons]

theorem total_append (t u : List α) : total f (t ++ u) = total f t + total f u := by
  unfold total
  rw [List.map_append, List.sum_append]

theorem total_concat (t : List α) (x : α) : total f (t ++ [x]) = total f t + f x := by
  rw [total_append, total_cons, total_nil, Nat.add_zero]

variable {f}

theorem total_le {t : List α} {b : Nat} (h : ∀ x ∈ t, f x ≤ b) : total f t ≤ t.length * b := by
  induction t with
  | nil => exact Nat.zero_le _
  | cons x t ih =>
    have hx := h x List.mem_cons_self
    have hrest := ih fun y hy => h y (List.mem_cons_of_mem x hy)
    rw [total_cons, List.length_cons, Nat.succ_mul]
    omega

theorem total_modify {t : List α} {i : Nat} {x : α} (h : t[i]? = some x) (g : α → α) :
    total f (t.modify i g) + f x = total f t + f (g x) := by
  induction t generalizing i with
  | nil => cases h
  | cons y t ih =>
    cases i with
    | zero =>
      cases h
      rw [List.modify_zero_cons, total_cons, total_cons]
      omega
    | succ i =>
      have hrest := ih h
      rw [List.modify_succ_cons, total_cons, total_cons]
      omega

theorem total_eraseIdx {t : List α} {i : Nat} {x : α} (h : t[i]? = some x) :
    total f (t.eraseIdx i) + f x = total f t := by
  induction t generalizing i with
  | nil => cases h
  | cons y t ih =>
    cases i with
    | zero =>
      cases h
      rw [List.eraseIdx_cons_zero, total_cons]
      omega
    | succ i =>
      have hrest := ih h
      rw [List.eraseIdx_cons_succ, total_cons, total_cons]
      omega

/-- one row of a table is written anew -/
theorem total_updateBy [DecidableEq κ] {key : α → κ} {t : List α} (hnd : (t.map key).Nodup) {x : α}
    (hx : x ∈ t) (y : α) :
    total f (updateBy key (key x) (fun _ => y) t) + f x = total f t + f y := by
  induction t with
  | nil => exact absurd hx List.not_mem_nil
  | cons z t ih =>
    rw [List.map_cons, List.nodup_cons] at hnd
    have hcons : updateBy key (key x) (fun _ => y) (z :: t) =
        (if key z = key x then y else z) :: updateBy key (key x) (fun _ => y) t := rfl
    rw [hcons, total_cons, total_cons]
    rcases List.mem_cons.mp hx with rfl | hx
    · have hrest : updateBy key (key x) (fun _ => y) t = t :=
        updateBy_of_not_mem fun r hr he => hnd.1 (he ▸ List.mem_map_of_mem hr)
      rw [if_pos rfl, hrest]
      omega
    · have hne : key z ≠ key x := fun e => hnd.1 (e ▸ List.mem_map_of_mem hx)
      have hrest := ih hnd.2 hx
      rw [if_neg hne]
      omega

end

/-! ## runs -/

section
variable {σ α : Type*} (step : σ → α → σ)

/-- a turn that does something uses up work; `brought` is the work that was brought in so far -/
structure Spends (I : σ → Prop) (work brought : σ → Nat) (moves : σ → α → Bool) : Prop where
  inv : ∀ s a, I s → I (step s a)
  spend : ∀ s a, I s →
    work (step s a) + (moves s a).toNat + brought s ≤ work s + brought (step s a)

/-- the turns of a run that do something -/
def doing (moves : σ → α → Bool) (s : σ) (as : List α) : List α :=
  emits step (fun s a => if moves s a then [a] else []) s as

theorem length_doing_cons (moves : σ → α → Bool) (s : σ) (a : α) (as : List α) :
    (doing step moves s (a :: as)).length =
      (moves s a).toNat + (doing step moves (step s a) as).length := by
  show ((if moves s a = true then [a] else []) ++ _).length = _
  cases moves s a with
  | true => exact Nat.add_comm _ 1
  | false => exact (Nat.zero_add _).symm

variable {step}
variable {I : σ → Prop} {work brought : σ → Nat} {moves : σ → α → Bool}
  (h : Spends step I work brought moves)
include h

/-- **No more turns do something than there was work.** -/
theorem Spends.run {s : σ} (hs : I s) (as : List α) :
    work (run step s as) + (doing step moves s as).length + brought s ≤
      work s + brought (run step s as) := by
  induction as generalizing s with
  | nil => exact Nat.le_refl _
  | cons a as ih =>
    have hstep := h.spend s a hs
    have hrest := ih (h.inv s a hs)
    rw [run_cons, length_doing_cons]
    omega

omit h

/-- as long as some turns leave less work, rest is within reach -/
theorem reaches_rest {P : α → Prop} {Rest : σ → Prop} (hI : ∀ s a, I s → I (step s a)) {c : Nat}
    (hless : ∀ s, I s → ¬ Rest s → ∃ as : List α, as.length ≤ c ∧ (∀ a ∈ as, P a) ∧
      work (run step s as) < work s) {s : σ} (hs : I s) :
    ∃ as : List α, as.length ≤ c * work s ∧ (∀ a ∈ as, P a) ∧ Rest (run step s as) := by
  have hall : ∀ b s, I s → work s ≤ b →
      ∃ as : List α, as.length ≤ c * b ∧ (∀ a ∈ as, P a) ∧ Rest (run step s as) := by
    intro b
    induction b with
    | zero =>
      intro s hs hb
      by_cases hrest : Rest s
      · exact ⟨[], Nat.zero_le _, fun _ h => absurd h List.not_mem_nil, hrest⟩
      · obtain ⟨_, _, _, hlt⟩ := hless s hs hrest
        omega
    | succ b ih =>
      intro s hs hb
      by_cases hrest : Rest s
      · exact ⟨[], Nat.zero_le _, fun _ h => absurd h List.not_mem_nil, hrest⟩
      · obtain ⟨as, hlen, hP, hlt⟩ := hless s hs hrest
        obtain ⟨bs, hlen', hP', hend⟩ :=
          ih (run step s as) (invariant_run step hI s as hs) (by omega)
        refine ⟨as ++ bs, ?_, fun a ha => ?_, ?_⟩
        · rw [List.length_append, Nat.mul_succ]
          omega
        · exact (List.mem_append.mp ha).elim (hP a) (hP' a)
        · rw [run_append]
          exact hend
  exact hall _ s hs (Nat.le_refl _)

/-! ## infinite runs -/

variable (step) in
/-- the state before turn `n` -/
def trace (s : σ) (a : Nat → α) : Nat → σ
  | 0 => s
  | n + 1 => step (trace s a n) (a n)

theorem trace_inv (hI : ∀ s a, I s → I (step s a)) {s : σ} (hs : I s) (a : Nat → α) (n : Nat) :
    I (trace step s a n) := by
  induction n with
  | zero => exact hs
  | succ n ih => exact hI _ _ ih

/-- what every turn from `n` on keeps -/
theorem trace_keeps {R : σ → σ → Prop} (hrefl : ∀ s, R s s)
    (htrans : ∀ s t u, R s t → R t u → R s u) {s : σ} {a : Nat → α} {n : Nat}
    (hstep : ∀ k, n ≤ k → R (trace step s a k) (trace step s a (k + 1))) {k : Nat} (hk : n ≤ k) :
    R (trace step s a n) (trace step s a k) := by
  induction k, hk using Nat.le_induction with
  | base => exact hrefl _
  | succ k hk ih => exact htrans _ _ _ ih (hstep k hk)

include h

theorem Spends.trace_step {s : σ} (hs : I s) {a : Nat → α}
    (hclosed : ∀ n, brought (trace step s a (n + 1)) = brought (trace step s a n)) (n : Nat) :
    work (trace step s a (n + 1)) + (moves (trace step s a n) (a n)).toNat ≤
      work (trace step s a n) := by
  have hstep := h.spend _ (a n) (trace_inv h.inv hs a n)
  have hsame := hclosed n
  change work (trace step s a (n + 1)) + _ + _ ≤ _ + brought (trace step s a (n + 1)) at hstep
  omega

/-- **An infinite run to which no work is brought stops doing anything.** -/
theorem Spends.settles {s : σ} (hs : I s) {a : Nat → α}
    (hclosed : ∀ n, brought (trace step s a (n + 1)) = brought (trace step s a n)) :
    ∃ n, ∀ k, n ≤ k → moves (trace step s a k) (a k) = false := by
  have hmono : ∀ n k, n ≤ k → work (trace step s a k) ≤ work (trace step s a n) := fun n k hk =>
    trace_keeps (R := fun s t => work t ≤ work s) (fun _ => Nat.le_refl _)
      (fun _ _ _ hst htu => Nat.le_trans htu hst)
      (fun k _ => Nat.le_trans (Nat.le_add_right _ _) (h.trace_step hs hclosed k)) hk
  have hfrom : ∀ b n, work (trace step s a n) ≤ b →
      ∃ n, ∀ k, n ≤ k → moves (trace step s a k) (a k) = false := by
    intro b
    induction b with
    | zero =>
      intro n hn
      refine ⟨n, fun k hk => ?_⟩
      have hwork := hmono n k hk
      have hstep := h.trace_step hs hclosed k
      cases hm : moves (trace step s a k) (a k) with
      | false => rfl
      | true =>
        rw [hm] at hstep
        have hone : true.toNat = 1 := rfl
        omega
    | succ b ih =>
      intro n hn
      by_cases hdone : ∀ k, n ≤ k → moves (trace step s a k) (a k) = false
      · exact ⟨n, hdone⟩
      · -- a later turn does something, and leaves less work
        obtain ⟨k, hk, hm⟩ : ∃ k, n ≤ k ∧ moves (trace step s a k) (a k) = true := by
          simpa using hdone
        refine ih (k + 1) ?_
        have hwork := hmono n k hk
        have hstep := h.trace_step hs hclosed k
        rw [hm] at hstep
        have hone : true.toNat = 1 := rfl
        omega
  exact hfrom _ 0 (Nat.le_refl _)

omit h

/-! ## fairness -/

variable (step) in
/-- what turns of `C` can do for ever is done by one of them -/
def WeaklyFair (moves : σ → α → Bool) (s : σ) (a : Nat → α) (C : α → Prop) : Prop :=
  ∀ n, (∀ k, n ≤ k → ∃ t, C t ∧ moves (trace step s a k) t = true) →
    ∃ k, n ≤ k ∧ C (a k) ∧ moves (trace step s a k) (a k) = true

/-- where nothing is done any more, the turns of a fair class can do nothing again and again -/
theorem WeaklyFair.idle {s : σ} {a : Nat → α} {C : α → Prop} (h : WeaklyFair step moves s a C)
    {n : Nat} (hn : ∀ k, n ≤ k → moves (trace step s a k) (a k) = false) :
    ∃ k, n ≤ k ∧ ∀ t, C t → moves (trace step s a k) t = false := by
  by_contra hall
  push Not at hall
  obtain ⟨k, hk, _, hm⟩ := h n fun k hk => by
    obtain ⟨t, hC, ht⟩ := hall k hk
    exact ⟨t, hC, by simpa using ht⟩
  rw [hn k hk] at hm
  cases hm

end

end Lib
