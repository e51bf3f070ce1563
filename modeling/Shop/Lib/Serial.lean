import Shop.Lib.Pool
import Mathlib.Data.List.Perm.Subperm

/-!
# Transactions that are serial in the order of their commits

The committed state of a pool, compared with the state that the handlers leave behind when they run
one after the other.

* `Pool.commits commit p a`   what an action commits: an event `e`, for a handler `handle e`;
* `Stable.commits`            the induction over a run, for the committed state with its commits;
* `InOrder`                   every commit does to the committed state what its handler does to it;
* `Stable.serial`             then a run leaves what the handlers of its commits leave, one by one;
* `CommitsOnce`               a transaction commits its own request, and not twice;
* `Pool.commits_subperm`      then every commit is one of the requests that have been made, each
                              used at most once;
* `Pool.untag_run`            a pool whose transactions remember their requests runs like one without.

The order of the commits respects real time: a transaction that ends before another one starts comes
before it.
-/

set_option linter.unusedSectionVars false

namespace Lib

section
variable {δ τ γ β κ ε : Type} [DecidableEq κ]
  (start : γ → τ) (next : β → δ → τ → Option (δ × τ)) (held : τ → List κ)
  (commit : β → τ → Option ε) (handle : ε → δ → δ)

/-- the event that an action commits, if it is an access that is taken -/
def Pool.commits (p : Pool δ τ) : PoolAction γ β → List ε
  | .start _ => []
  | .access tx choice =>
    match p.txs[tx]? with
    | none => []
    | some t =>
      match next choice p.db t with
      | none => []
      | some (_, t') => if p.free held tx t' then (commit choice t).toList else []

/-- the handlers, one after the other -/
def serially (db : δ) (es : List ε) : δ := es.foldl (fun db e => handle e db) db

theorem serially_append (db : δ) (es fs : List ε) :
    serially handle db (es ++ fs) = serially handle (serially handle db es) fs := List.foldl_append

/-- a commit does what its handler does, any other access leaves the committed state alone -/
def InOrder (G : β → δ → τ → Prop) (Inv : δ → Prop) (Loc : δ → τ → Prop) : Prop :=
  ∀ b db t db' t', Inv db → Loc db t → G b db t → next b db t = some (db', t') →
    db' = serially handle db (commit b t).toList

/-- the requests that a transaction may still commit, of which it commits one at most -/
structure CommitsOnce (request : ε → γ) (asks : τ → List γ) : Prop where
  start_asks : ∀ c, asks (start c) = [c]
  next_asks : ∀ b db t db' t', next b db t = some (db', t') →
    ((commit b t).toList.map request ++ asks t').Subperm (asks t)

variable {start next held commit handle}

theorem Pool.commits_access {p : Pool δ τ} {tx : Nat} {choice : β} {t t' : τ} {db' : δ}
    (ht : p.txs[tx]? = some t) (hn : next choice p.db t = some (db', t'))
    (hf : p.free held tx t' = true) :
    p.commits next held commit (.access tx choice : PoolAction γ β) = (commit choice t).toList := by
  simp only [Pool.commits, ht, hn, if_pos hf]

variable (start next held commit) in
/-- a step starts a transaction, or is an access that is taken, or does and commits nothing -/
theorem Pool.step_commits (p : Pool δ τ) (a : PoolAction γ β) :
    (∃ c, a = .start c ∧ p.step start next held a = { p with txs := p.txs ++ [start c] } ∧
      p.commits next held commit a = []) ∨
    (∃ tx choice t db' t', a = .access tx choice ∧ p.txs[tx]? = some t ∧
      next choice p.db t = some (db', t') ∧ p.step start next held a = ⟨db', p.txs.set tx t'⟩ ∧
      p.commits next held commit a = (commit choice t).toList) ∨
    (p.step start next held a = p ∧ p.commits next held commit a = [] ∧ ∀ c, a ≠ .start c) := by
  cases a with
  | start c => exact Or.inl ⟨c, rfl, rfl, rfl⟩
  | access tx choice =>
    have hno : ∀ c, (PoolAction.access tx choice : PoolAction γ β) ≠ .start c := nofun
    cases ht : p.txs[tx]? with
    | none => exact Or.inr (Or.inr (by simp [Pool.step, Pool.commits, ht]))
    | some t =>
      cases hn : next choice p.db t with
      | none => exact Or.inr (Or.inr (by simp [Pool.step, Pool.commits, ht, hn]))
      | some r =>
        obtain ⟨db', t'⟩ := r
        by_cases hf : p.free held tx t' = true
        · refine Or.inr (Or.inl ⟨tx, choice, t, db', t', rfl, ht, hn, ?_, ?_⟩)
          · simp only [Pool.step, ht, hn, if_pos hf]
          · exact Pool.commits_access ht hn hf
        · exact Or.inr (Or.inr (by simp [Pool.step, Pool.commits, ht, hn, hf]))

variable {R : γ → Prop} {G : β → δ → τ → Prop} {Inv : δ → Prop} {Loc : δ → τ → Prop}

variable (commit) in
/-- **The run rule for commits.**  What every access keeps, of the committed state and the commits so
far, holds after every run. -/
theorem Stable.commits (h : Stable start next held R G Inv Loc) {J : δ → List ε → Prop}
    (hJ : ∀ b db t db' t' es, Inv db → Loc db t → G b db t → next b db t = some (db', t') →
      J db es → J db' (es ++ (commit b t).toList)) {db : δ} (hdb : Inv db) (hj : J db [])
    (as : List (PoolAction γ β)) (hR : ∀ c, .start c ∈ as → R c)
    (hG : Along (Pool.step start next held) (Pool.allows G) ⟨db, []⟩ as) :
    J (Lib.run (Pool.step start next held) ⟨db, []⟩ as).db
      (emits (Pool.step start next held) (Pool.commits next held commit) ⟨db, []⟩ as) := by
  have hrun : ∀ (p : Pool δ τ) (es : List ε), p.Good held Inv Loc → J p.db es →
      Along (Pool.step start next held) (Pool.allows G) p as →
      J (Lib.run (Pool.step start next held) p as).db
        (es ++ emits (Pool.step start next held) (Pool.commits next held commit) p as) := by
    clear hG
    induction as with
    | nil =>
      intro p es _ hj _
      show J p.db (es ++ [])
      rw [List.append_nil]
      exact hj
    | cons a as ih =>
      intro p es hp hj hG
      have hnext := h.step hp a (fun c hc => hR c (hc ▸ List.mem_cons_self)) hG.1
      show J _ (es ++ (p.commits next held commit a ++ _))
      rw [← List.append_assoc]
      refine ih (fun c hc => hR c (List.mem_cons_of_mem _ hc)) _ _ hnext ?_ hG.2
      rcases Pool.step_commits start next held commit p a with
        ⟨c, _, heq, hc⟩ | ⟨tx, choice, t, db', t', rfl, ht, hn, heq, hc⟩ | ⟨heq, hc, _⟩
      · rw [heq, hc, List.append_nil]
        exact hj
      · rw [heq, hc]
        exact hJ choice p.db t db' t' es hp.inv (hp.loc t (List.mem_of_getElem? ht)) (hG.1 t ht) hn hj
      · rw [heq, hc, List.append_nil]
        exact hj
  exact hrun ⟨db, []⟩ [] ⟨hdb, fun _ ht => absurd ht List.not_mem_nil, fun i _ _ _ _ hx => by cases hx⟩
    hj hG

/-- **Serial in the order of the commits.** -/
theorem Stable.serial (h : Stable start next held R G Inv Loc)
    (ho : InOrder next commit handle G Inv Loc) {db : δ} (hdb : Inv db)
    (as : List (PoolAction γ β)) (hR : ∀ c, .start c ∈ as → R c)
    (hG : Along (Pool.step start next held) (Pool.allows G) ⟨db, []⟩ as) :
    (Lib.run (Pool.step start next held) ⟨db, []⟩ as).db = serially handle db
      (emits (Pool.step start next held) (Pool.commits next held commit) ⟨db, []⟩ as) := by
  refine h.commits commit (J := fun db' es => db' = serially handle db es)
    (fun b db₁ t db₂ t' es hinv ht hb hn hj => ?_) hdb rfl as hR hG
  rw [serially_append, ← hj]
  exact ho b db₁ t db₂ t' hinv ht hb hn

/-! ## every commit has a request of its own -/

/-- the requests that are made -/
def requested (as : List (PoolAction γ β)) : List γ :=
  as.filterMap fun a => match a with
    | .start c => some c
    | .access _ _ => none

theorem flatMap_set_subperm {asks : τ → List γ} {txs : List τ} {tx : Nat} {t t' : τ}
    {done : List γ} (ht : txs[tx]? = some t) (h : (done ++ asks t').Subperm (asks t)) :
    (done ++ (txs.set tx t').flatMap asks).Subperm (txs.flatMap asks) := by
  induction txs generalizing tx with
  | nil => cases ht
  | cons u txs ih =>
    cases tx with
    | zero =>
      cases ht
      show (done ++ (asks t' ++ txs.flatMap asks)).Subperm (asks t ++ txs.flatMap asks)
      rw [← List.append_assoc]
      exact h.append (List.Subperm.refl _)
    | succ tx =>
      show (done ++ (asks u ++ (txs.set tx t').flatMap asks)).Subperm (asks u ++ txs.flatMap asks)
      have hswap : (done ++ (asks u ++ (txs.set tx t').flatMap asks)).Perm
          (asks u ++ (done ++ (txs.set tx t').flatMap asks)) := by
        rw [← List.append_assoc, ← List.append_assoc]
        exact List.perm_append_comm.append_right _
      exact hswap.subperm.trans ((List.Subperm.refl _).append (ih ht))

variable (held) in
/-- **No request is committed twice**, and none that was not made. -/
theorem Pool.commits_subperm {request : ε → γ} {asks : τ → List γ}
    (h : CommitsOnce start next commit request asks) (db : δ) (as : List (PoolAction γ β)) :
    ((emits (Pool.step start next held) (Pool.commits next held commit) ⟨db, []⟩ as).map
      request).Subperm (requested as) := by
  have hrun : ∀ p : Pool δ τ,
      ((emits (Pool.step start next held) (Pool.commits next held commit) p as).map
        request).Subperm (p.txs.flatMap asks ++ requested as) := by
    induction as with
    | nil => exact fun _ => List.nil_subperm
    | cons a as ih =>
      intro p
      have hnext := ih (p.step start next held a)
      show ((p.commits next held commit a ++ _ : List ε).map request).Subperm _
      rw [List.map_append]
      rcases Pool.step_commits start next held commit p a with
        ⟨c, rfl, heq, hc⟩ | ⟨tx, choice, t, db', t', rfl, ht, hn, heq, hc⟩ | ⟨heq, hc, hno⟩
      · rw [heq, List.flatMap_append, List.flatMap_singleton, h.start_asks, List.append_assoc]
          at hnext
        rw [hc, heq]
        exact hnext
      · rw [heq] at hnext
        rw [hc, heq]
        have hset := flatMap_set_subperm ht (h.next_asks choice p.db t db' t' hn)
        refine ((List.Subperm.refl _).append hnext).trans ?_
        rw [← List.append_assoc]
        exact hset.append (List.Subperm.refl _)
      · rw [heq] at hnext
        rw [hc, heq]
        cases a with
        | start c => exact absurd rfl (hno c)
        | access tx choice => exact hnext
  exact hrun ⟨db, []⟩

/-! ## transactions that remember their request -/

variable (start next held)

def tagStart (c : γ) : γ × τ := (c, start c)

def tagNext (b : β) (db : δ) (t : γ × τ) : Option (δ × γ × τ) :=
  (next b db t.2).map fun r => (r.1, t.1, r.2)

def tagHeld (t : γ × τ) : List κ := held t.2

/-- the requests forgotten -/
def Pool.untag (p : Pool δ (γ × τ)) : Pool δ τ := ⟨p.db, p.txs.map Prod.snd⟩

theorem Pool.untag_free (p : Pool δ (γ × τ)) (tx : Nat) (t : γ × τ) :
    p.untag.free held tx t.2 = p.free (tagHeld held) tx t := by
  unfold Pool.free Pool.untag
  rw [List.eraseIdx_map, List.all_map]
  rfl

theorem Pool.untag_step (p : Pool δ (γ × τ)) (a : PoolAction γ β) :
    (p.step (tagStart start) (tagNext next) (tagHeld held) a).untag =
      p.untag.step start next held a := by
  cases a with
  | start c =>
    show (⟨p.db, (p.txs ++ [tagStart start c]).map Prod.snd⟩ : Pool δ τ) = _
    rw [List.map_append]
    rfl
  | access tx choice =>
    have hget : p.untag.txs[tx]? = (p.txs[tx]?).map Prod.snd := List.getElem?_map
    cases ht : p.txs[tx]? with
    | none =>
      rw [ht] at hget
      simp only [Pool.step, ht, hget, Option.map_none]
    | some t =>
      rw [ht] at hget
      cases hn : next choice p.db t.2 with
      | none =>
        have hn' : tagNext next choice p.db t = none := by simp only [tagNext, hn, Option.map_none]
        have hn'' : next choice p.untag.db t.2 = none := hn
        simp only [Pool.step, ht, hget, Option.map_some, hn', hn'']
      | some r =>
        obtain ⟨db', t'⟩ := r
        have hn' : tagNext next choice p.db t = some (db', t.1, t') := by
          simp only [tagNext, hn, Option.map_some]
        have hn'' : next choice p.untag.db t.2 = some (db', t') := hn
        simp only [Pool.step, ht, hget, Option.map_some, hn', hn'']
        rw [Pool.untag_free held p tx (t.1, t')]
        split
        · show (⟨db', (p.txs.set tx (t.1, t')).map Prod.snd⟩ : Pool δ τ) = _
          rw [List.map_set]
          rfl
        · rfl

/-- **A pool that remembers its requests runs like one that does not.** -/
theorem Pool.untag_run (p : Pool δ (γ × τ)) (as : List (PoolAction γ β)) :
    (Lib.run (Pool.step (tagStart start) (tagNext next) (tagHeld held)) p as).untag =
      Lib.run (Pool.step start next held) p.untag as := by
  induction as generalizing p with
  | nil => rfl
  | cons a as ih => rw [run_cons, ih, Pool.untag_step, run_cons]

end

end Lib
