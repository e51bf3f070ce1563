import Shop.Lib.Pool
import Mathlib.Algebra.BigOperators.Group.List.Basic
import Mathlib.Algebra.Ring.Nat
import Mathlib.Order.Defs.Unbundled

/-!
# Transactions that wait for each other

An access of a pool waits while another transaction holds a lock that it needs.  If every access
asks for locks above those that its transaction holds already, in some strict order of the locks,
then a transaction that holds a topmost lock waits for nobody, and the pool can always be emptied.

* `Ordered lt size held G`  the premises: an access asks upwards, and leaves less to do;
* `Pool.size`               what all transactions together have left to do;
* `Ordered.exists_free`     while something is left to do, some access is taken;
* `Ordered.drain`           an order of the accesses in which every transaction comes to its end.

The locks need an order, not a rank: `lt` may be the transitive closure of what the requests ask
for, which is strict if it has no cycle.
-/

set_option linter.unusedSectionVars false

namespace Lib

section
variable {δ τ γ β κ : Type} [DecidableEq κ]

/-- every access that meets `G` asks for locks above those that its transaction holds, and leaves it
less to do; there is one as long as something is left -/
structure Ordered (lt : κ → κ → Prop) (next : β → δ → τ → Option (δ × τ)) (held : τ → List κ)
    (size : τ → Nat) (G : β → Prop) (Loc : δ → τ → Prop) : Prop where
  goes : ∀ b db t, G b → size t ≠ 0 → ∃ db' t', next b db t = some (db', t')
  shrinks : ∀ b db t db' t', G b → next b db t = some (db', t') → size t' < size t
  above : ∀ b db t db' t', G b → Loc db t → next b db t = some (db', t') →
    ∀ k ∈ held t', k ∉ held t → ∀ k₀ ∈ held t, lt k₀ k
  idle : ∀ t, size t = 0 → held t = []

/-- what the transactions have left to do -/
def Pool.size (size : τ → Nat) (p : Pool δ τ) : Nat := (p.txs.map size).sum

/-- an access that has less to do afterwards, with the others as they were -/
theorem sum_set_lt {txs : List τ} {size : τ → Nat} {tx : Nat} {t t' : τ} (ht : txs[tx]? = some t)
    (hlt : size t' < size t) : ((txs.set tx t').map size).sum < (txs.map size).sum := by
  induction txs generalizing tx with
  | nil => cases ht
  | cons u txs ih =>
    cases tx with
    | zero =>
      cases ht
      show size t' + (txs.map size).sum < size t + (txs.map size).sum
      omega
    | succ tx =>
      have h := ih ht
      show size u + ((txs.set tx t').map size).sum < size u + (txs.map size).sum
      omega

theorem Pool.size_eq_zero {size : τ → Nat} {p : Pool δ τ} (h : p.size size = 0) :
    ∀ t ∈ p.txs, size t = 0 := fun _ ht =>
  List.sum_eq_zero_iff_forall_eq_nat.mp h _ (List.mem_map_of_mem ht)

theorem Pool.size_le {size : τ → Nat} {n : Nat} (h : ∀ t, size t ≤ n) (p : Pool δ τ) :
    p.size size ≤ n * p.txs.length := by
  unfold Pool.size
  induction p.txs with
  | nil => exact Nat.zero_le _
  | cons t txs ih =>
    have ht := h t
    rw [List.map_cons, List.sum_cons, List.length_cons, Nat.mul_succ]
    omega

/-- among the locks that are held one is topmost -/
theorem exists_topmost (lt : κ → κ → Prop) [IsStrictOrder κ lt] {ks : List κ} (h : ks ≠ []) :
    ∃ k ∈ ks, ∀ k' ∈ ks, ¬ lt k k' := by
  induction ks with
  | nil => exact absurd rfl h
  | cons k ks ih =>
    by_cases hks : ks = []
    · subst hks
      refine ⟨k, List.mem_singleton_self k, fun k' hk' => ?_⟩
      rw [List.mem_singleton.mp hk']
      exact irrefl_of lt k
    · obtain ⟨m, hm, htop⟩ := ih hks
      by_cases hlt : lt m k
      · -- the head is above the topmost one of the tail, and so above nobody
        refine ⟨k, List.mem_cons_self, fun k' hk' hkk' => ?_⟩
        rcases List.mem_cons.mp hk' with rfl | hk'
        · exact irrefl_of lt k' hkk'
        · exact htop k' hk' (trans_of lt hlt hkk')
      · refine ⟨m, List.mem_cons_of_mem _ hm, fun k' hk' => ?_⟩
        rcases List.mem_cons.mp hk' with rfl | hk'
        · exact hlt
        · exact htop k' hk'

variable {start : γ → τ} {next : β → δ → τ → Option (δ × τ)} {held : τ → List κ} {R : γ → Prop}
  {Inv : δ → Prop} {Loc : δ → τ → Prop} {lt : κ → κ → Prop} {size : τ → Nat} {G : β → Prop}

/-- an access that asks for nothing new waits for nobody -/
theorem Exclusive.free {p : Pool δ τ} (h : Exclusive held p.txs) {tx : Nat} {t t' : τ}
    (ht : p.txs[tx]? = some t)
    (hnew : ∀ k ∈ held t', k ∉ held t → ∀ u ∈ p.txs, k ∉ held u) : p.free held tx t' = true := by
  refine free_iff.mpr fun j u hj hu k hk => ?_
  by_cases hkt : k ∈ held t
  · exact h tx j t u (fun e => hj e.symm) ht hu k hkt
  · exact hnew k hk hkt u (List.mem_of_getElem? hu)

variable [IsStrictOrder κ lt]

/-- **Not everybody waits.**  While something is left to do, the next access of some transaction is
taken, whatever its choice. -/
theorem Ordered.exists_free (h : Ordered lt next held size G Loc) {p : Pool δ τ}
    (hp : p.Good held Inv Loc) {b : β} (hb : G b) (hsize : p.size size ≠ 0) :
    ∃ tx t db' t', p.txs[tx]? = some t ∧ next b p.db t = some (db', t') ∧
      p.free held tx t' = true := by
  by_cases hks : p.txs.flatMap held = []
  · -- nobody holds a lock, and any transaction will do
    obtain ⟨t, ht, hne⟩ : ∃ t ∈ p.txs, size t ≠ 0 := by
      by_contra hno
      refine hsize (List.sum_eq_zero_iff_forall_eq_nat.mpr fun n hn => ?_)
      obtain ⟨t, ht, rfl⟩ := List.mem_map.mp hn
      exact Classical.not_not.mp fun hne => hno ⟨t, ht, hne⟩
    obtain ⟨tx, htx⟩ := List.mem_iff_getElem?.mp ht
    obtain ⟨db', t', hn⟩ := h.goes b p.db t hb hne
    refine ⟨tx, t, db', t', htx, hn, hp.exclusive.free htx fun k _ _ u hu hk => ?_⟩
    have hmem : k ∈ p.txs.flatMap held := List.mem_flatMap.mpr ⟨u, hu, hk⟩
    rw [hks] at hmem
    exact absurd hmem List.not_mem_nil
  · -- the holder of a topmost lock asks for locks above it, and these nobody holds
    obtain ⟨k, hk, htop⟩ := exists_topmost lt hks
    obtain ⟨t, ht, hkt⟩ := List.mem_flatMap.mp hk
    have hne : size t ≠ 0 := fun hz => by
      rw [h.idle t hz] at hkt
      exact absurd hkt List.not_mem_nil
    obtain ⟨tx, htx⟩ := List.mem_iff_getElem?.mp ht
    obtain ⟨db', t', hn⟩ := h.goes b p.db t hb hne
    refine ⟨tx, t, db', t', htx, hn, hp.exclusive.free htx fun k' hk' hnew u hu hku => ?_⟩
    exact htop k' (List.mem_flatMap.mpr ⟨u, hu, hku⟩)
      (h.above b p.db t db' t' hb (hp.loc t ht) hn k' hk' hnew k hkt)

/-- **The pool can be emptied.**  From every state there is an order of the transactions in which
their accesses, whatever their choices, bring all of them to their end. -/
theorem Ordered.drain (h : Ordered lt next held size G Loc)
    (hst : Stable start next held R (fun _ _ _ => True) Inv Loc) {p : Pool δ τ}
    (hp : p.Good held Inv Loc) (b : Nat → β) (hb : ∀ i, G (b i)) :
    ∃ order : List Nat, order.length ≤ p.size size ∧
      ∀ t ∈ (run (Pool.step start next held) p
        (order.mapIdx fun i tx => (.access tx (b i) : PoolAction γ β))).txs, size t = 0 := by
  induction hn : p.size size using Nat.strongRecOn generalizing p b with
  | ind n ih =>
    by_cases hsize : p.size size = 0
    · exact ⟨[], Nat.zero_le _, Pool.size_eq_zero hsize⟩
    · obtain ⟨tx, t, db', t', ht, hgo, hfree⟩ := h.exists_free hp (hb 0) hsize
      have hstep : p.step start next held (.access tx (b 0) : PoolAction γ β) =
          ⟨db', p.txs.set tx t'⟩ := by
        simp only [Pool.step, ht, hgo, if_pos hfree]
      have hgood := hst.step hp (.access tx (b 0)) (fun c hc => by cases hc) (fun _ _ => trivial)
      rw [hstep] at hgood
      have hlt : (⟨db', p.txs.set tx t'⟩ : Pool δ τ).size size < p.size size :=
        sum_set_lt ht (h.shrinks _ _ _ _ _ (hb 0) hgo)
      obtain ⟨order, hlen, hend⟩ := ih _ (hn ▸ hlt) hgood (fun i => b (i + 1))
        (fun i => hb (i + 1)) rfl
      refine ⟨tx :: order, ?_, ?_⟩
      · rw [List.length_cons]
        omega
      · rw [List.mapIdx_cons, run_cons, hstep]
        exact hend

end

end Lib
