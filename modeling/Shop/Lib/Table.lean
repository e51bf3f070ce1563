import Mathlib.Data.List.Basic
import Mathlib.Data.List.Nodup
import Mathlib.Data.List.Perm.Basic

/-!
# Tables as lists of rows

The three statements the repositories issue, on a table `t : List ρ` with a key column
`key : ρ → κ`:

* `selectBy key k t`     `SELECT ... WHERE key = k` (one row);
* `updateBy key k f t`   `UPDATE ... SET f WHERE key = k`;
* `t ++ [r]`             `INSERT`.

`RowOrder` is the order in which the database returns the rows of a query that asks for none.
A transaction is a value of `Except ε σ`; `commit db r` is the database after it: the new tables,
or the old ones when the transaction threw.
-/

set_option linter.unusedSectionVars false

namespace Lib

section
variable {ρ κ β : Type*} [DecidableEq κ] (key : ρ → κ)

def selectBy (k : κ) (t : List ρ) : Option ρ := t.find? fun r => decide (key r = k)

def updateBy (k : κ) (f : ρ → ρ) (t : List ρ) : List ρ := t.map fun r => if key r = k then f r else r

variable {key}

theorem selectBy_some {k : κ} {t : List ρ} {r : ρ} (h : selectBy key k t = some r) :
    r ∈ t ∧ key r = k :=
  ⟨List.mem_of_find?_eq_some h, by simpa using List.find?_some h⟩

theorem selectBy_none {k : κ} {t : List ρ} : selectBy key k t = none ↔ ∀ r ∈ t, key r ≠ k := by
  simp [selectBy, List.find?_eq_none]

theorem key_inj {t : List ρ} (hnd : (t.map key).Nodup) {r r' : ρ} (hr : r ∈ t) (hr' : r' ∈ t)
    (h : key r = key r') : r = r' := List.inj_on_of_nodup_map hnd hr hr' h

/-- with a unique key the query finds the row that is there -/
theorem selectBy_mem {t : List ρ} (hnd : (t.map key).Nodup) {r : ρ} (hr : r ∈ t) :
    selectBy key (key r) t = some r := by
  cases h : selectBy key (key r) t with
  | none => exact absurd rfl (selectBy_none.mp h r hr)
  | some r' =>
    obtain ⟨hr', hk⟩ := selectBy_some h
    rw [key_inj hnd hr' hr hk]

/-- a unique key has one row -/
theorem filter_key {t : List ρ} (hnd : (t.map key).Nodup) {r : ρ} (hr : r ∈ t) :
    (t.filter fun x => decide (key x = key r)) = [r] := by
  induction t with
  | nil => exact absurd hr List.not_mem_nil
  | cons x t ih =>
    rw [List.map_cons, List.nodup_cons] at hnd
    rcases List.mem_cons.mp hr with rfl | hr'
    · rw [List.filter_cons_of_pos (by simp)]
      congr 1
      apply List.filter_eq_nil_iff.mpr
      intro y hy he
      exact hnd.1 (by rw [← of_decide_eq_true he]; exact List.mem_map_of_mem hy)
    · have hne : key x ≠ key r := fun e => hnd.1 (by rw [e]; exact List.mem_map_of_mem hr')
      rw [List.filter_cons_of_neg (by simpa using hne)]
      exact ih hnd.2 hr'

theorem selectBy_append (k : κ) (t : List ρ) (r : ρ) :
    selectBy key k (t ++ [r]) = (selectBy key k t).or (if key r = k then some r else none) := by
  unfold selectBy
  rw [List.find?_append]
  by_cases h : key r = k <;> simp [h]

theorem selectBy_append_ne {k : κ} {t : List ρ} {r : ρ} (h : key r ≠ k) :
    selectBy key k (t ++ [r]) = selectBy key k t := by
  rw [selectBy_append, if_neg h, Option.or_none]

theorem mem_updateBy {k : κ} {f : ρ → ρ} {t : List ρ} {r : ρ} :
    r ∈ updateBy key k f t ↔ ∃ r₀ ∈ t, (key r₀ = k ∧ r = f r₀) ∨ (key r₀ ≠ k ∧ r = r₀) := by
  unfold updateBy
  rw [List.mem_map]
  constructor
  · rintro ⟨r₀, h₀, rfl⟩
    refine ⟨r₀, h₀, ?_⟩
    by_cases h : key r₀ = k
    · exact Or.inl ⟨h, if_pos h⟩
    · exact Or.inr ⟨h, if_neg h⟩
  · rintro ⟨r₀, h₀, ⟨h, rfl⟩ | ⟨h, rfl⟩⟩
    · exact ⟨r₀, h₀, if_pos h⟩
    · exact ⟨r, h₀, if_neg h⟩

/-- a column that the update leaves as it is in the rows it writes -/
theorem map_updateBy_of (g : ρ → β) {k : κ} {f : ρ → ρ} {t : List ρ}
    (hg : ∀ r ∈ t, key r = k → g (f r) = g r) : (updateBy key k f t).map g = t.map g := by
  unfold updateBy
  rw [List.map_map]
  apply List.map_congr_left
  intro r hr
  rw [Function.comp_apply]
  by_cases h : key r = k
  · rw [if_pos h, hg r hr h]
  · rw [if_neg h]

theorem map_updateBy (g : ρ → β) {k : κ} {f : ρ → ρ} (hg : ∀ r, g (f r) = g r) (t : List ρ) :
    (updateBy key k f t).map g = t.map g := map_updateBy_of g fun r _ _ => hg r

theorem updateBy_congr {k : κ} {f g : ρ → ρ} {t : List ρ} (h : ∀ r ∈ t, key r = k → f r = g r) :
    updateBy key k f t = updateBy key k g t := by
  unfold updateBy
  apply List.map_congr_left
  intro r hr
  by_cases hk : key r = k
  · rw [if_pos hk, if_pos hk, h r hr hk]
  · rw [if_neg hk, if_neg hk]

theorem updateBy_of_not_mem {k : κ} {f : ρ → ρ} {t : List ρ} (h : ∀ r ∈ t, key r ≠ k) :
    updateBy key k f t = t := by
  unfold updateBy
  conv_rhs => rw [← List.map_id t]
  apply List.map_congr_left
  intro r hr
  rw [if_neg (h r hr), id]

/-- writing back the row that is there changes nothing -/
theorem updateBy_self {t : List ρ} (hnd : (t.map key).Nodup) {r : ρ} (hr : r ∈ t) :
    updateBy key (key r) (fun _ => r) t = t := by
  unfold updateBy
  conv_rhs => rw [← List.map_id t]
  apply List.map_congr_left
  intro x hx
  by_cases h : key x = key r
  · rw [if_pos h, id, key_inj hnd hx hr h]
  · rw [if_neg h, id]

/-- the rows after one row has been replaced -/
theorem mem_updateBy_const {t : List ρ} {r r' x : ρ} (hr : r ∈ t) :
    x ∈ updateBy key (key r) (fun _ => r') t ↔ x = r' ∨ (x ∈ t ∧ key x ≠ key r) := by
  rw [mem_updateBy]
  constructor
  · rintro ⟨r₀, h₀, ⟨_, rfl⟩ | ⟨h, rfl⟩⟩
    · exact Or.inl rfl
    · exact Or.inr ⟨h₀, h⟩
  · rintro (rfl | ⟨hx, hk⟩)
    · exact ⟨r, hr, Or.inl ⟨rfl, rfl⟩⟩
    · exact ⟨x, hx, Or.inr ⟨hk, rfl⟩⟩

/-- the rows after the update of the one row of its key -/
theorem mem_updateBy_key {t : List ρ} (hnd : (t.map key).Nodup) {f : ρ → ρ} {r x : ρ} (hr : r ∈ t) :
    x ∈ updateBy key (key r) f t ↔ x = f r ∨ (x ∈ t ∧ key x ≠ key r) := by
  have hconst : updateBy key (key r) f t = updateBy key (key r) (fun _ => f r) t :=
    updateBy_congr fun y hy e => by rw [key_inj hnd hy hr e]
  rw [hconst]
  exact mem_updateBy_const hr

/-- replacing a row leaves the rows of another key alone -/
theorem filter_updateBy_ne {k : κ} {r' : ρ} {t : List ρ} {P : ρ → Bool}
    (hold : ∀ r ∈ t, key r = k → P r = false) (hnew : P r' = false) :
    (updateBy key k (fun _ => r') t).filter P = t.filter P := by
  unfold updateBy
  induction t with
  | nil => rfl
  | cons r t ih =>
    have ih' := ih fun x hx => hold x (List.mem_cons_of_mem _ hx)
    rw [List.map_cons]
    by_cases h : key r = k
    · have hr := hold r List.mem_cons_self h
      rw [if_pos h, List.filter_cons_of_neg (by rw [hnew]; decide),
        List.filter_cons_of_neg (by rw [hr]; decide), ih']
    · rw [if_neg h, List.filter_cons, List.filter_cons, ih']

theorem selectBy_updateBy_ne {k k' : κ} {f : ρ → ρ} (hf : ∀ r, key (f r) = key r) (h : k' ≠ k)
    (t : List ρ) : selectBy key k' (updateBy key k f t) = selectBy key k' t := by
  unfold selectBy updateBy
  induction t with
  | nil => rfl
  | cons r t ih =>
    rw [List.map_cons]
    by_cases hr : key r = k
    · have h1 : key r ≠ k' := fun e => h (e.symm.trans hr)
      rw [if_pos hr, List.find?_cons_of_neg (by simpa [hf] using h1),
        List.find?_cons_of_neg (by simpa using h1), ih]
    · rw [if_neg hr]
      by_cases h1 : key r = k'
      · rw [List.find?_cons_of_pos (by simpa using h1), List.find?_cons_of_pos (by simpa using h1)]
      · rw [List.find?_cons_of_neg (by simpa using h1), List.find?_cons_of_neg (by simpa using h1),
          ih]

theorem selectBy_updateBy_self {k : κ} {f : ρ → ρ} (hf : ∀ r, key (f r) = key r) (t : List ρ) :
    selectBy key k (updateBy key k f t) = (selectBy key k t).map f := by
  unfold selectBy updateBy
  induction t with
  | nil => rfl
  | cons r t ih =>
    rw [List.map_cons]
    by_cases hr : key r = k
    · rw [if_pos hr, List.find?_cons_of_pos (by simpa [hf] using hr),
        List.find?_cons_of_pos (by simpa using hr), Option.map_some]
    · rw [if_neg hr, List.find?_cons_of_neg (by simpa using hr),
        List.find?_cons_of_neg (by simpa using hr), ih]

/-- two conditions that exclude each other are counted apart -/
theorem countP_or {P Q : β → Bool} (h : ∀ b, P b = true → Q b = false) (l : List β) :
    l.countP (fun b => P b || Q b) = l.countP P + l.countP Q := by
  induction l with
  | nil => rfl
  | cons b l ih =>
    simp only [List.countP_cons, ih]
    cases hP : P b with
    | false =>
      simp
      omega
    | true =>
      simp [h b hP]
      omega

end

/-- the order in which a query without `ORDER BY` returns its rows -/
structure RowOrder (ρ : Type) where
  apply : List ρ → List ρ
  perm : ∀ l, (apply l).Perm l

def RowOrder.stored (ρ : Type) : RowOrder ρ := ⟨id, fun l => List.Perm.refl l⟩

theorem RowOrder.mem_apply {ρ : Type} (q : RowOrder ρ) {l : List ρ} {r : ρ} :
    r ∈ q.apply l ↔ r ∈ l := (q.perm l).mem_iff

/-! ## transactions -/

section
variable {σ ε α : Type}

def commit (db : σ) : Except ε σ → σ
  | .ok db' => db'
  | .error _ => db

theorem commit_ok (db db' : σ) : commit db (.ok db' : Except ε σ) = db' := rfl
theorem commit_error (db : σ) (e : ε) : commit db (.error e) = db := rfl

theorem bind_ok (a : α) (f : α → Except ε σ) : ((.ok a : Except ε α) >>= f) = f a := rfl
theorem bind_error (e : ε) (f : α → Except ε σ) : ((.error e : Except ε α) >>= f) = .error e := rfl

/-- a computation that succeeds has made its first step -/
theorem bind_eq_ok {x : Except ε α} {f : α → Except ε σ} {y : σ} (h : (x >>= f) = .ok y) :
    ∃ a, x = .ok a ∧ f a = .ok y := by
  cases x with
  | error e => cases h
  | ok a => exact ⟨a, rfl, h⟩

end

end Lib
