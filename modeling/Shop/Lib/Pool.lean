import Shop.Lib.Run

/-!
# Concurrent transactions under row locks

A pool is the committed state `db` together with the transactions that are under way.  A
transaction is a value of `τ`: what it is about to do, what it has read, and what it has written and
not yet committed.  One access to the database is `next`: it reads the committed state and gives
the transaction's next value; a commit is an access that changes `db`.  The locks that a transaction
holds are `held`, and an access that needs a lock of another transaction waits.

* `Pool`, `PoolAction`, `Pool.step`;
* `Exclusive held txs`   no lock is held twice;
* `Stable`               the rule's premises: what an access does to its own transaction's assertion
                         and to those of the others, whose locks are different;
* `Stable.run`           the assertions hold in every reachable state;
* `Stable.lasts`         what every access keeps, once it is so, stays so.
-/

set_option linter.unusedSectionVars false

namespace Lib

structure Pool (δ τ : Type) where
  db : δ
  txs : List τ

/-- a transaction begins, or takes its next access -/
inductive PoolAction (γ β : Type) where
  | start (request : γ)
  | access (tx : Nat) (choice : β)

section
variable {δ τ γ β κ : Type} [DecidableEq κ]
  (start : γ → τ) (next : β → δ → τ → Option (δ × τ)) (held : τ → List κ)

/-- no other transaction holds a lock of `t'` -/
def Pool.free (p : Pool δ τ) (tx : Nat) (t' : τ) : Bool :=
  (p.txs.eraseIdx tx).all fun u => (held t').all fun k => decide (k ∉ held u)

def Pool.step (p : Pool δ τ) : PoolAction γ β → Pool δ τ
  | .start request => { p with txs := p.txs ++ [start request] }
  | .access tx choice =>
    match p.txs[tx]? with
    | none => p
    | some t =>
      match next choice p.db t with
      | none => p
      | some (db', t') => if p.free held tx t' then ⟨db', p.txs.set tx t'⟩ else p

/-- no lock is held by two transactions -/
def Exclusive (txs : List τ) : Prop :=
  ∀ (i j : Nat) (t u : τ), i ≠ j → txs[i]? = some t → txs[j]? = some u → ∀ k ∈ held t, k ∉ held u

/-- the accesses of a run that meet `G`, in the state in which they are taken -/
def Pool.allows (G : β → δ → τ → Prop) (p : Pool δ τ) : PoolAction γ β → Prop
  | .start _ => True
  | .access tx choice => ∀ t, p.txs[tx]? = some t → G choice p.db t

instance Pool.allows.decidable (G : β → δ → τ → Prop) [∀ b db t, Decidable (G b db t)] :
    ∀ (p : Pool δ τ) (a : PoolAction γ β), Decidable (p.allows G a)
  | _, .start _ => .isTrue trivial
  | p, .access tx b =>
    match h : p.txs[tx]? with
    | none => .isTrue fun _ ht => nomatch h.symm.trans ht
    | some t => decidable_of_iff (G b p.db t)
        ⟨fun hG _ hu => Option.some.inj (h.symm.trans hu) ▸ hG, fun hall => hall t h⟩

theorem Pool.allows_true (p : Pool δ τ) (a : PoolAction γ β) : p.allows (fun _ _ _ => True) a := by
  cases a with
  | start c => trivial
  | access tx b => exact fun _ _ => trivial

/-- what the accesses that meet `G` must do for `Inv` (of the committed state) and `Loc` (of each
transaction) to hold throughout -/
structure Stable (R : γ → Prop) (G : β → δ → τ → Prop) (Inv : δ → Prop) (Loc : δ → τ → Prop) :
    Prop where
  start_held : ∀ c, held (start c) = []
  start_loc : ∀ c db, R c → Inv db → Loc db (start c)
  own : ∀ b db t db' t', Inv db → Loc db t → G b db t → next b db t = some (db', t') →
    Inv db' ∧ Loc db' t'
  other : ∀ b db t db' t' u, Inv db → Loc db t → Loc db u → G b db t →
    next b db t = some (db', t') → (∀ k ∈ held t, k ∉ held u) → Loc db' u

structure Pool.Good (Inv : δ → Prop) (Loc : δ → τ → Prop) (p : Pool δ τ) : Prop where
  inv : Inv p.db
  loc : ∀ t ∈ p.txs, Loc p.db t
  exclusive : Exclusive held p.txs

variable {start next held} {R : γ → Prop} {G : β → δ → τ → Prop} {Inv : δ → Prop}
  {Loc : δ → τ → Prop}

theorem free_iff {p : Pool δ τ} {tx : Nat} {t' : τ} : p.free held tx t' = true ↔
    ∀ j u, j ≠ tx → p.txs[j]? = some u → ∀ k ∈ held t', k ∉ held u := by
  unfold Pool.free
  simp only [List.all_eq_true, decide_eq_true_eq]
  constructor
  · intro h j u hj hu
    exact h u (List.mem_eraseIdx_iff_getElem?.mpr ⟨j, hj, hu⟩)
  · intro h u hu
    obtain ⟨j, hj, hju⟩ := List.mem_eraseIdx_iff_getElem?.mp hu
    exact h j u hj hju

/-- an access that needs no lock is taken -/
theorem Pool.step_access {p : Pool δ τ} {tx : Nat} {choice : β} {t t' : τ} {db' : δ}
    (ht : p.txs[tx]? = some t) (hn : next choice p.db t = some (db', t')) (hh : held t' = []) :
    p.step start next held (.access tx choice : PoolAction γ β) = ⟨db', p.txs.set tx t'⟩ := by
  have hfree : p.free held tx t' = true := by
    refine free_iff.mpr fun j u _ _ k hk => ?_
    rw [hh] at hk
    exact absurd hk List.not_mem_nil
  simp only [Pool.step, ht, hn, if_pos hfree]

/-- a transaction that is alone waits for nobody -/
theorem Pool.step_alone {t t' : τ} {choice : β} {db db' : δ}
    (hn : next choice db t = some (db', t')) :
    (⟨db, [t]⟩ : Pool δ τ).step start next held (.access 0 choice : PoolAction γ β) =
      ⟨db', [t']⟩ := by
  have hfree : (⟨db, [t]⟩ : Pool δ τ).free held 0 t' = true := rfl
  simp only [Pool.step, List.getElem?_cons_zero, hn, if_pos hfree, List.set_cons_zero]

/-- a transaction that holds nothing yet joins the pool -/
theorem Exclusive.append {txs : List τ} (h : Exclusive held txs) {t : τ} (ht : held t = []) :
    Exclusive held (txs ++ [t]) := by
  intro i j x y hij hx hy k hk
  have hlast : ∀ (n : Nat) z, (txs ++ [t])[n]? = some z → txs[n]? = some z ∨ held z = [] := by
    intro n z hz
    rw [List.getElem?_append] at hz
    split at hz
    · exact Or.inl hz
    · have hm := List.mem_of_getElem? hz
      rw [List.mem_singleton.mp hm]
      exact Or.inr ht
  rcases hlast i x hx with hx | hx
  · rcases hlast j y hy with hy | hy
    · exact h i j x y hij hx hy k hk
    · rw [hy]
      exact List.not_mem_nil
  · rw [hx] at hk
    exact absurd hk List.not_mem_nil

/-- the locks of one transaction change to locks that nobody holds -/
theorem Exclusive.set {txs : List τ} (h : Exclusive held txs) {tx : Nat} {t' : τ}
    (hfree : ∀ j u, j ≠ tx → txs[j]? = some u → ∀ k ∈ held t', k ∉ held u) :
    Exclusive held (txs.set tx t') := by
  intro i j x y hij hx hy k hk
  rw [List.getElem?_set] at hx hy
  by_cases hi : tx = i
  · rw [if_pos hi] at hx
    rw [if_neg (fun e => hij (hi.symm.trans e))] at hy
    split at hx
    · cases hx
      exact hfree j y (fun e => hij (hi.symm.trans e.symm)) hy k hk
    · cases hx
  · rw [if_neg hi] at hx
    by_cases hj : tx = j
    · rw [if_pos hj] at hy
      split at hy
      · cases hy
        intro hk'
        exact hfree i x (fun e => hi e.symm) hx k hk' hk
      · cases hy
    · rw [if_neg hj] at hy
      exact h i j x y hij hx hy k hk

/-- **The step rule.** -/
theorem Stable.step (h : Stable start next held R G Inv Loc) {p : Pool δ τ}
    (hp : p.Good held Inv Loc) (a : PoolAction γ β) (hR : ∀ c, a = .start c → R c)
    (hG : p.allows G a) : (p.step start next held a).Good held Inv Loc := by
  cases a with
  | start c =>
    refine ⟨hp.inv, ?_, hp.exclusive.append (h.start_held c)⟩
    intro t ht
    rcases List.mem_append.mp ht with ht | ht
    · exact hp.loc t ht
    · rw [List.mem_singleton.mp ht]
      exact h.start_loc c p.db (hR c rfl) hp.inv
  | access tx choice =>
    cases ht : p.txs[tx]? with
    | none => simpa only [Pool.step, ht] using hp
    | some t =>
      cases hn : next choice p.db t with
      | none => simpa only [Pool.step, ht, hn] using hp
      | some r =>
        obtain ⟨db', t'⟩ := r
        by_cases hf : p.free held tx t' = true
        · simp only [Pool.step, ht, hn, if_pos hf]
          have hfree := free_iff.mp hf
          have hloc := hp.loc t (List.mem_of_getElem? ht)
          obtain ⟨hinv', hloc'⟩ := h.own choice p.db t db' t' hp.inv hloc (hG t ht) hn
          refine ⟨hinv', ?_, hp.exclusive.set hfree⟩
          intro u hu
          obtain ⟨j, hj⟩ := List.mem_iff_getElem?.mp hu
          rw [List.getElem?_set] at hj
          by_cases htj : tx = j
          · rw [if_pos htj] at hj
            split at hj
            · cases hj
              exact hloc'
            · cases hj
          · rw [if_neg htj] at hj
            exact h.other choice p.db t db' t' u hp.inv hloc (hp.loc u (List.mem_of_getElem? hj))
              (hG t ht) hn (hp.exclusive tx j t u htj ht hj)
        · simp only [Pool.step, ht, hn, if_neg hf]
          exact hp

/-- **The run rule.**  What is stable under the accesses of every transaction holds in every state
that transactions starting from requests in `R`, with accesses in `G`, can reach. -/
theorem Stable.run (h : Stable start next held R G Inv Loc) {db : δ} (hdb : Inv db)
    (as : List (PoolAction γ β)) (hR : ∀ c, .start c ∈ as → R c)
    (hG : Along (Pool.step start next held) (Pool.allows G) ⟨db, []⟩ as) :
    (Lib.run (Pool.step start next held) ⟨db, []⟩ as).Good held Inv Loc := by
  have hinit : (⟨db, []⟩ : Pool δ τ).Good held Inv Loc :=
    ⟨hdb, fun _ ht => absurd ht List.not_mem_nil, fun i _ _ _ _ hx => by cases hx⟩
  generalize (⟨db, []⟩ : Pool δ τ) = p at hinit hG
  induction as generalizing p with
  | nil => exact hinit
  | cons a as ih =>
    refine ih (fun c hc => hR c (List.mem_cons_of_mem _ hc)) _ ?_ hG.2
    exact h.step hinit a (fun c hc => hR c (hc ▸ List.mem_cons_self)) hG.1

/-- what is exclusive is held once -/
theorem Exclusive.countP_le_one {txs : List τ} (h : Exclusive held txs) (k : κ) :
    txs.countP (fun t => decide (k ∈ held t)) ≤ 1 := by
  induction txs with
  | nil => exact Nat.zero_le _
  | cons t txs ih =>
    have htail : Exclusive held txs := fun i j x y hij hx hy =>
      h (i + 1) (j + 1) x y (fun e => hij (Nat.succ.inj e)) hx hy
    rw [List.countP_cons]
    by_cases hk : k ∈ held t
    · -- the head has it, so nobody in the tail does
      have hzero : txs.countP (fun t => decide (k ∈ held t)) = 0 := by
        refine List.countP_eq_zero.mpr fun u hu => ?_
        obtain ⟨j, hj⟩ := List.mem_iff_getElem?.mp hu
        have hnot : k ∉ held u := h 0 (j + 1) t u (by omega) rfl hj k hk
        simpa using hnot
      rw [hzero]
      split <;> omega
    · simpa [hk] using ih htail

variable (start next held) in
/-- a step starts a transaction, or is an access that is taken, or does nothing -/
theorem Pool.step_cases (p : Pool δ τ) (a : PoolAction γ β) :
    (∃ c, a = .start c ∧ p.step start next held a = { p with txs := p.txs ++ [start c] }) ∨
    (∃ tx choice t db' t', a = .access tx choice ∧ p.txs[tx]? = some t ∧
      next choice p.db t = some (db', t') ∧ p.step start next held a = ⟨db', p.txs.set tx t'⟩) ∨
    p.step start next held a = p := by
  cases a with
  | start c => exact Or.inl ⟨c, rfl, rfl⟩
  | access tx choice =>
    cases ht : p.txs[tx]? with
    | none => exact Or.inr (Or.inr (by simp only [Pool.step, ht]))
    | some t =>
      cases hn : next choice p.db t with
      | none => exact Or.inr (Or.inr (by simp only [Pool.step, ht, hn]))
      | some r =>
        obtain ⟨db', t'⟩ := r
        by_cases hf : p.free held tx t' = true
        · refine Or.inr (Or.inl ⟨tx, choice, t, db', t', rfl, ht, hn, ?_⟩)
          simp only [Pool.step, ht, hn, if_pos hf]
        · exact Or.inr (Or.inr (by simp only [Pool.step, ht, hn, if_neg hf]))

/-- what is stable stays stable, from a state in which it is so -/
theorem Stable.run_from (h : Stable start next held R G Inv Loc) (hR : ∀ c, R c)
    (hG : ∀ b db t, G b db t) {p : Pool δ τ} (hp : p.Good held Inv Loc)
    (as : List (PoolAction γ β)) :
    (Lib.run (Pool.step start next held) p as).Good held Inv Loc := by
  refine invariant_run (I := fun q => q.Good held Inv Loc) _ (fun q a hq => ?_) p as hp
  refine h.step hq a (fun c _ => hR c) ?_
  cases a with
  | start c => trivial
  | access tx choice => exact fun t _ => hG choice q.db t

/-- **What every access keeps.**  A property of the committed state that no access ends holds from
the first state on in which it does. -/
theorem Stable.lasts (h : Stable start next held R G Inv Loc) (hR : ∀ c, R c)
    (hG : ∀ b db t, G b db t) {Q : δ → Prop}
    (hQ : ∀ b db t db' t', Inv db → Loc db t → next b db t = some (db', t') → Q db → Q db')
    {p : Pool δ τ} (hp : p.Good held Inv Loc) (as : List (PoolAction γ β)) (hq : Q p.db) :
    Q (Lib.run (Pool.step start next held) p as).db := by
  induction as generalizing p with
  | nil => exact hq
  | cons a as ih =>
    have hnext := h.run_from hR hG hp [a]
    refine ih hnext ?_
    show Q (p.step start next held a).db
    rcases Pool.step_cases start next held p a with ⟨c, _, heq⟩ | hstep | heq
    · rw [heq]
      exact hq
    · obtain ⟨tx, choice, t, db', t', _, ht, hn, heq⟩ := hstep
      rw [heq]
      exact hQ choice p.db t db' t' hp.inv (hp.loc t (List.mem_of_getElem? ht)) hn hq
    · rw [heq]
      exact hq

end

end Lib
