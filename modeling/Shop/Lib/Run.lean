import Mathlib.Data.List.Basic

/-!
# Runs of a deterministic action system

A system is a step function `step : σ → α → σ`: the action carries every choice the environment
makes, and an action that does not apply leaves the state alone.  A run is a list of actions.

* `run step s as`        the state after the actions `as`;
* `Along step P s as`    every action of the run meets `P` in the state in which it is taken;
* `emits step out s as`  what the steps of a run put out, in order;
* `EachAfter Q xs`       every entry of a list meets `Q` with the entries before it;
* `prune step eff s as`  the run without the actions that are not effective;
* `invariant_run`        the induction over a run, proved once;
* `invariant_along`      the same for runs whose actions are restricted;
* `along_of_invariant`   a property of every step that follows from an invariant;
* `along_iff`            two properties of the steps that are the same while one of them holds;
* `invariant_emits`      the same for the state together with the outputs so far, and
                         `invariant_emits_of` for runs of restricted actions;
* `mem_emits`            an output comes from one of the actions;
* `simulation_run`       two systems in step with each other;
* `emits_rank`           at most one output per label when every output raises a rank.
-/

namespace Lib

section
variable {σ α β : Type*} (step : σ → α → σ)

def run (s : σ) (as : List α) : σ := as.foldl step s

theorem run_nil (s : σ) : run step s [] = s := rfl
theorem run_cons (s : σ) (a : α) (as : List α) :
    run step s (a :: as) = run step (step s a) as := rfl

theorem run_append (s : σ) (as bs : List α) :
    run step s (as ++ bs) = run step (run step s as) bs := List.foldl_append

/-- every action of the run meets `P` in the state in which it is taken -/
def Along (P : σ → α → Prop) : σ → List α → Prop
  | _, [] => True
  | s, a :: as => P s a ∧ Along P (step s a) as

instance Along.decidable (P : σ → α → Prop) [∀ s a, Decidable (P s a)] :
    ∀ (s : σ) (as : List α), Decidable (Along step P s as)
  | _, [] => .isTrue trivial
  | s, a :: as =>
    have := Along.decidable P (step s a) as
    inferInstanceAs (Decidable (P s a ∧ Along step P (step s a) as))

theorem along_intro {P : σ → α → Prop} (h : ∀ s a, P s a) (s : σ) (as : List α) :
    Along step P s as := by
  induction as generalizing s with
  | nil => trivial
  | cons a as ih => exact ⟨h s a, ih (step s a)⟩

theorem along_append {P : σ → α → Prop} (s : σ) (as bs : List α) :
    Along step P s (as ++ bs) ↔ Along step P s as ∧ Along step P (run step s as) bs := by
  induction as generalizing s with
  | nil => exact ⟨fun h => ⟨trivial, h⟩, fun h => h.2⟩
  | cons a as ih =>
    constructor
    · rintro ⟨ha, h⟩
      obtain ⟨has, hbs⟩ := (ih (step s a)).mp h
      exact ⟨⟨ha, has⟩, hbs⟩
    · rintro ⟨⟨ha, has⟩, hbs⟩
      exact ⟨ha, (ih (step s a)).mpr ⟨has, hbs⟩⟩

theorem along_and {P Q : σ → α → Prop} (s : σ) (as : List α) :
    Along step (fun s a => P s a ∧ Q s a) s as ↔ Along step P s as ∧ Along step Q s as := by
  induction as generalizing s with
  | nil => exact ⟨fun _ => ⟨trivial, trivial⟩, fun _ => trivial⟩
  | cons a as ih =>
    constructor
    · rintro ⟨⟨hP, hQ⟩, h⟩
      obtain ⟨hPs, hQs⟩ := (ih (step s a)).mp h
      exact ⟨⟨hP, hPs⟩, hQ, hQs⟩
    · rintro ⟨⟨hP, hPs⟩, hQ, hQs⟩
      exact ⟨⟨hP, hQ⟩, (ih (step s a)).mpr ⟨hPs, hQs⟩⟩

/-- **Invariant rule.**  What every step preserves holds after every run. -/
theorem invariant_run {I : σ → Prop} (hstep : ∀ s a, I s → I (step s a)) (s : σ) (as : List α)
    (hs : I s) : I (run step s as) := by
  induction as generalizing s with
  | nil => exact hs
  | cons a as ih => exact ih (step s a) (hstep s a hs)

/-- the invariant rule for runs whose actions all meet `P` -/
theorem invariant_along {P : σ → α → Prop} {I : σ → Prop}
    (hstep : ∀ s a, I s → P s a → I (step s a)) (s : σ) (as : List α) (hs : I s)
    (hP : Along step P s as) : I (run step s as) := by
  induction as generalizing s with
  | nil => exact hs
  | cons a as ih => exact ih (step s a) (hstep s a hs hP.1) hP.2

/-- a property of the single steps that an invariant of the restricted run gives -/
theorem along_of_invariant {P Q : σ → α → Prop} {I : σ → Prop}
    (hstep : ∀ s a, I s → P s a → I (step s a)) (hQ : ∀ s a, I s → P s a → Q s a)
    (s : σ) (as : List α) (hs : I s) (hP : Along step P s as) : Along step Q s as := by
  induction as generalizing s with
  | nil => trivial
  | cons a as ih =>
    exact ⟨hQ s a hs hP.1, ih (step s a) (hstep s a hs hP.1) hP.2⟩

/-- what is the same for every step of the restricted run is the same for the run -/
theorem along_iff {P Q : σ → α → Prop} {I : σ → Prop}
    (hstep : ∀ s a, I s → P s a → I (step s a)) (hPQ : ∀ s a, I s → (P s a ↔ Q s a))
    (s : σ) (as : List α) (hs : I s) : Along step P s as ↔ Along step Q s as := by
  induction as generalizing s with
  | nil => exact Iff.rfl
  | cons a as ih =>
    constructor
    · rintro ⟨ha, has⟩
      exact ⟨(hPQ s a hs).mp ha, (ih (step s a) (hstep s a hs ha)).mp has⟩
    · rintro ⟨ha, has⟩
      have hP := (hPQ s a hs).mpr ha
      exact ⟨hP, (ih (step s a) (hstep s a hs hP)).mpr has⟩

/-! ## outputs of a run -/

def emits (out : σ → α → List β) : σ → List α → List β
  | _, [] => []
  | s, a :: as => out s a ++ emits out (step s a) as

/-- a run that carries its outputs along in the state -/
theorem run_emits (out : σ → α → List β) (s : σ) (xs : List β) (as : List α) :
    run (fun p a => (step p.1 a, p.2 ++ out p.1 a)) (s, xs) as
      = (run step s as, xs ++ emits step out s as) := by
  induction as generalizing s xs with
  | nil => simp [run_nil, emits]
  | cons a as ih =>
    rw [run_cons, run_cons, ih]
    show _ = (_, xs ++ (out s a ++ emits step out (step s a) as))
    rw [List.append_assoc]

/-- the invariant rule for a state together with the outputs so far -/
theorem invariant_emits {out : σ → α → List β} {I : σ → List β → Prop}
    (hstep : ∀ s xs a, I s xs → I (step s a) (xs ++ out s a)) (s : σ) (as : List α)
    (hs : I s []) : I (run step s as) (emits step out s as) := by
  have h := invariant_run (I := fun p : σ × List β => I p.1 p.2)
    (fun p a => (step p.1 a, p.2 ++ out p.1 a)) (fun p a hp => hstep p.1 p.2 a hp) (s, []) as hs
  rw [run_emits] at h
  exact h

/-- the same for runs whose actions all meet `P` -/
theorem invariant_emits_of {P : α → Prop} {out : σ → α → List β} {I : σ → List β → Prop}
    (hstep : ∀ s xs a, I s xs → P a → I (step s a) (xs ++ out s a)) (s : σ) (as : List α)
    (hs : I s []) (hP : ∀ a ∈ as, P a) : I (run step s as) (emits step out s as) := by
  have h : ∀ xs, I s xs → I (run step s as) (xs ++ emits step out s as) := by
    clear hs
    induction as generalizing s with
    | nil =>
      intro xs hs
      show I s (xs ++ [])
      rw [List.append_nil]
      exact hs
    | cons a as ih =>
      intro xs hs
      have hnext := hstep s xs a hs (hP a List.mem_cons_self)
      show I _ (xs ++ (out s a ++ emits step out (step s a) as))
      rw [run_cons, ← List.append_assoc]
      exact ih _ (fun b hb => hP b (List.mem_cons_of_mem _ hb)) _ hnext
  exact h [] hs

/-- an output was put out by one of the actions, in the state in which it was taken -/
theorem mem_emits {out : σ → α → List β} {s : σ} {as : List α} {b : β}
    (h : b ∈ emits step out s as) :
    ∃ pre a post, as = pre ++ a :: post ∧ b ∈ out (run step s pre) a := by
  induction as generalizing s with
  | nil => exact absurd h List.not_mem_nil
  | cons a as ih =>
    rcases List.mem_append.mp h with h | h
    · exact ⟨[], a, as, rfl, h⟩
    · obtain ⟨pre, a', post, rfl, hb⟩ := ih h
      exact ⟨a :: pre, a', post, rfl, hb⟩

/-- **Simulation rule.**  Two systems whose steps keep a relation, and put out the same, do so over
every run. -/
theorem simulation_run {τ : Type*} (step' : τ → α → τ) {out : σ → α → List β}
    {out' : τ → α → List β} {R : σ → τ → Prop}
    (h : ∀ s t a, R s t → R (step s a) (step' t a) ∧ out s a = out' t a) (s : σ) (t : τ)
    (as : List α) (hst : R s t) :
    R (run step s as) (run step' t as) ∧ emits step out s as = emits step' out' t as := by
  induction as generalizing s t with
  | nil => exact ⟨hst, rfl⟩
  | cons a as ih =>
    obtain ⟨hstep, hout⟩ := h s t a hst
    obtain ⟨hrun, hemits⟩ := ih (step s a) (step' t a) hstep
    refine ⟨hrun, ?_⟩
    show out s a ++ _ = out' t a ++ _
    rw [hout, hemits]

/-- **At most one output per label.**  If each output of a step carries a rank that the state
reaches only with that step (`seen` does not hold before it and holds from it on), no output
occurs twice. -/
theorem emits_rank {I : σ → Prop} {out : σ → α → List β} (seen : σ → β → Prop)
    (hI : ∀ s a, I s → I (step s a))
    (hone : ∀ s a, I s → (out s a).Nodup)
    (hnew : ∀ s a b, I s → b ∈ out s a → ¬ seen s b ∧ seen (step s a) b)
    (hkeep : ∀ s a b, I s → seen s b → seen (step s a) b) (s : σ) (as : List α) (hs : I s) :
    (emits step out s as).Nodup ∧ ∀ b ∈ emits step out s as, ¬ seen s b := by
  induction as generalizing s with
  | nil => exact ⟨List.nodup_nil, fun b hb => absurd hb List.not_mem_nil⟩
  | cons a as ih =>
    obtain ⟨hnd, hfresh⟩ := ih (step s a) (hI s a hs)
    show (out s a ++ emits step out (step s a) as).Nodup ∧ _
    constructor
    · rw [List.nodup_append]
      refine ⟨hone s a hs, hnd, ?_⟩
      intro b hb c hc hbc
      subst hbc
      exact hfresh b hc (hnew s a b hs hb).2
    · intro b hb
      rcases List.mem_append.mp hb with h | h
      · exact (hnew s a b hs h).1
      · exact fun hseen => hfresh b h (hkeep s a b hs hseen)

/-! ## entries and what precedes them -/

/-- every entry meets `Q` with the entries before it -/
def EachAfter (Q : List β → β → Prop) (xs : List β) : Prop :=
  ∀ pre x, pre ++ [x] <+: xs → Q pre x

theorem eachAfter_nil (Q : List β → β → Prop) : EachAfter Q [] := by
  intro pre x h
  exact absurd (List.append_eq_nil_iff.mp (List.prefix_nil.mp h)).2 (List.cons_ne_nil x [])

theorem eachAfter_concat {Q : List β → β → Prop} {xs : List β} {x : β} :
    EachAfter Q (xs ++ [x]) ↔ EachAfter Q xs ∧ Q xs x := by
  constructor
  · intro h
    exact ⟨fun pre y hy => h pre y (hy.trans (List.prefix_append xs [x])),
      h xs x (List.prefix_refl _)⟩
  · rintro ⟨h, hx⟩ pre y hy
    rcases List.prefix_concat_iff.mp hy with heq | hpre
    · obtain ⟨rfl, rfl⟩ := List.append_singleton_inj.mp heq
      exact hx
    · exact h pre y hpre

/-- an entry meets `Q` with entries of the list -/
theorem EachAfter.of_mem {Q : List β → β → Prop} {xs : List β} (h : EachAfter Q xs) {x : β}
    (hx : x ∈ xs) : ∃ pre, (∀ y ∈ pre, y ∈ xs) ∧ Q pre x := by
  obtain ⟨pre, post, rfl⟩ := List.append_of_mem hx
  refine ⟨pre, fun y hy => List.mem_append_left _ hy, h pre x ⟨post, ?_⟩⟩
  rw [List.append_assoc, List.singleton_append]

/-! ## deleting ineffective actions -/

def prune (eff : σ → α → Bool) : σ → List α → List α
  | _, [] => []
  | s, a :: as => if eff s a then a :: prune eff (step s a) as else prune eff s as

/-- a run keeps its final state when the actions that change nothing are deleted from it -/
theorem run_prune {eff : σ → α → Bool} (heff : ∀ s a, eff s a = false → step s a = s)
    (s : σ) (as : List α) : run step s (prune step eff s as) = run step s as := by
  induction as generalizing s with
  | nil => rfl
  | cons a as ih =>
    unfold prune
    by_cases h : eff s a = true
    · rw [if_pos h, run_cons, run_cons, ih]
    · rw [if_neg h, run_cons, heff s a (by simpa using h), ih]

end

end Lib
