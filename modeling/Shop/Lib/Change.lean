import Shop.Lib.Table

/-!
# The changes of a column

* `Change κ γ`            a row's key, and the values of a column before and after;
* `changes key col t t'`  the rows of `t` whose column is another one in `t'`;
* `changesOf k xs`        the changes of one row.

On unique keys an insert changes no column (`changes_append`), and an update of one row changes at
most its own (`changes_updateBy`).
-/

set_option linter.unusedSectionVars false

namespace Lib

structure Change (κ γ : Type) where
  key : κ
  before : γ
  after : γ
deriving DecidableEq, Repr

section
variable {ρ κ γ : Type} [DecidableEq κ] [DecidableEq γ] (key : ρ → κ) (col : ρ → γ)

/-- the change of one row, if it is still there with another value -/
def changeOf (t' : List ρ) (r : ρ) : Option (Change κ γ) :=
  match selectBy key (key r) t' with
  | some r' => if col r' = col r then none else some ⟨key r, col r, col r'⟩
  | none => none

def changes (t t' : List ρ) : List (Change κ γ) := t.filterMap (changeOf key col t')

def changesOf (k : κ) (xs : List (Change κ γ)) : List (Change κ γ) :=
  xs.filter fun c => decide (c.key = k)

variable {key col}

theorem changesOf_append (k : κ) (xs ys : List (Change κ γ)) :
    changesOf k (xs ++ ys) = changesOf k xs ++ changesOf k ys := List.filter_append _ _

@[simp] theorem changesOf_own (k : κ) (a b : γ) : changesOf k [⟨k, a, b⟩] = [⟨k, a, b⟩] := by
  simp [changesOf]

theorem changesOf_of_ne {k : κ} {xs : List (Change κ γ)} (h : ∀ c ∈ xs, c.key ≠ k) :
    changesOf k xs = [] := by
  apply List.filter_eq_nil_iff.mpr
  intro c hc he
  exact h c hc (of_decide_eq_true he)

/-- a row that can still be found as it was has not changed -/
theorem changes_eq_nil {t t' : List ρ} (h : ∀ r ∈ t, selectBy key (key r) t' = some r) :
    changes key col t t' = [] := by
  apply List.filterMap_eq_nil_iff.mpr
  intro r hr
  unfold changeOf
  rw [h r hr]
  exact if_pos rfl

theorem changes_self {t : List ρ} (hnd : (t.map key).Nodup) : changes key col t t = [] :=
  changes_eq_nil fun _ hr => selectBy_mem hnd hr

theorem changes_append {t : List ρ} (hnd : (t.map key).Nodup) (r : ρ) :
    changes key col t (t ++ [r]) = [] := by
  apply changes_eq_nil
  intro x hx
  rw [selectBy_append, selectBy_mem hnd hx, Option.some_or]

/-- one row is replaced by another with its key -/
theorem changes_updateBy {t : List ρ} (hnd : (t.map key).Nodup) {r r' : ρ} (hr : r ∈ t)
    (hk : key r' = key r) : changes key col t (updateBy key (key r) (fun _ => r') t)
      = if col r' = col r then [] else [⟨key r, col r, col r'⟩] := by
  have hnd' : ((updateBy key (key r) (fun _ => r') t).map key).Nodup := by
    rw [map_updateBy_of key fun _ _ hx => hk.trans hx.symm]
    exact hnd
  have hself : changeOf key col (updateBy key (key r) (fun _ => r') t) r
      = if col r' = col r then none else some ⟨key r, col r, col r'⟩ := by
    have hfound := selectBy_mem hnd' ((mem_updateBy_const hr).mpr (Or.inl rfl))
    rw [hk] at hfound
    unfold changeOf
    rw [hfound]
  have hother : ∀ x ∈ t, key x ≠ key r →
      changeOf key col (updateBy key (key r) (fun _ => r') t) x = none := by
    intro x hx hne
    unfold changeOf
    rw [selectBy_mem hnd' ((mem_updateBy_const hr).mpr (Or.inr ⟨hx, hne⟩))]
    exact if_pos rfl
  -- only the row with this key can contribute
  have hone : changes key col t (updateBy key (key r) (fun _ => r') t)
      = (t.filter fun x => decide (key x = key r)).filterMap
          (changeOf key col (updateBy key (key r) (fun _ => r') t)) := by
    rw [List.filterMap_filter]
    apply List.filterMap_congr
    intro x hx
    by_cases h : key x = key r
    · rw [if_pos (decide_eq_true h)]
    · rw [if_neg (by simpa using h), hother x hx h]
  rw [hone, filter_key hnd hr, List.filterMap_cons, hself, List.filterMap_nil]
  split <;> rename_i he
  · split at he
    · rename_i h
      rw [if_pos h]
    · cases he
  · split at he
    · cases he
    · rename_i h
      rw [if_neg h]
      cases he
      rfl

end

end Lib
