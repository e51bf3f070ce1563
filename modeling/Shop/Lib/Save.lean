import Shop.Lib.Pool

/-!
# Read, change, save

A call reads a row, changes the object it has read in memory, and saves it.  `save` reads the row
once more and writes the columns in which the object differs from it; neither read locks the row, so
other calls come between the two, and between the second one and the write.

* `saveColumn`      what a save makes of one column;
* `SaveOps`         an entity: what a call makes of the row it finds, and how its object is stored;
* `SaveCall`        a call by its next access, with `SaveCall.advance`, `SaveCall.next`;
* `Removal`         an entity that can be removed, where only a removal makes a row dead;
* `permanent_iff`   what was removed stays removed, in exactly the runs in which no save writes back
                    an object that was read while the row was alive.
-/

set_option linter.unusedSectionVars false

namespace Lib

/-- a column is written if the object differs there from the row that was read again -/
def saveColumn {α : Type} [DecidableEq α] (entity reread current : α) : α :=
  if entity = reread then current else entity

theorem saveColumn_eq_iff {α : Type} [DecidableEq α] (entity reread current : α) :
    saveColumn entity reread current = current ↔ entity = reread ∨ entity = current := by
  unfold saveColumn
  by_cases h : entity = reread
  · rw [if_pos h]
    exact ⟨fun _ => Or.inl h, fun _ => rfl⟩
  · rw [if_neg h]
    exact ⟨Or.inr, fun e => e.elim (fun e => absurd e h) fun e => e⟩

theorem saveColumn_false_iff (reread current : Bool) :
    saveColumn false reread current = false ↔ (reread = false → current = false) := by
  cases reread <;> cases current <;> decide

theorem saveColumn_true {reread current : Bool} (h : saveColumn true reread current = false) :
    current = false := by
  cases reread <;> cases current <;> first | rfl | exact absurd h (by decide)

/-- what a call makes of the row that it reads -/
inductive Reading (σ ω : Type) where
  | save (s : σ)
  | answer (s : σ)
  | refuse (error : ω)

/-- An entity with rows `ρ`, the calls `ε` about it, the objects `σ` that they save, and the errors
`ω`.  `same s row`: no column differs; `store s reread row`: the row after the UPDATE or the INSERT,
nothing if the database rejects it. -/
structure SaveOps (ε ρ σ ω : Type) where
  find : ε → ρ → Reading σ ω
  same : σ → ρ → Bool
  store : σ → ρ → ρ → Option ρ

inductive SaveCall (ε ρ σ ω : Type) where
  | finding (e : ε)
  | saving (e : ε) (s : σ)
  | writing (e : ε) (s : σ) (reread : ρ)
  | storing (e : ε) (s : σ) (reread : ρ)
  | returned (e : ε) (s : σ)
  | refused (error : ω)
  | failed

/-- the committed row, and the calls that have returned -/
structure SaveDb (ε ρ : Type) where
  row : ρ
  returned : List ε

/-- the call goes on; an exception rolls it back -/
inductive SaveAccess where
  | go | fail
deriving DecidableEq, Repr

section
variable {ε ρ σ ω : Type} (ops : SaveOps ε ρ σ ω)

def SaveDb.return (db : SaveDb ε ρ) (e : ε) : SaveDb ε ρ :=
  { db with returned := db.returned ++ [e] }

namespace SaveCall

def advance (db : SaveDb ε ρ) : SaveCall ε ρ σ ω → Option (SaveDb ε ρ × SaveCall ε ρ σ ω)
  | .finding e =>
    match ops.find e db.row with
    | .save s => some (db, .saving e s)
    | .answer s => some (db.return e, .returned e s)
    | .refuse error => some (db, .refused error)
  | .saving e s =>
    if ops.same s db.row then some (db.return e, .returned e s)
    else some (db, .writing e s db.row)
  -- the UPDATE waits for the row
  | .writing e s reread =>
    match ops.store s reread db.row with
    | some _ => some (db, .storing e s reread)
    | none => some (db, .failed)
  | .storing e s reread =>
    match ops.store s reread db.row with
    | some row => some ({ db with row := row }.return e, .returned e s)
    | none => some (db, .failed)
  | .returned _ _ => none
  | .refused _ => none
  | .failed => none

def rollback : SaveCall ε ρ σ ω → Option (SaveCall ε ρ σ ω)
  | .finding _ => some .failed
  | .saving _ _ => some .failed
  | .writing _ _ _ => some .failed
  | .storing _ _ _ => some .failed
  | _ => none

def next : SaveAccess → SaveDb ε ρ → SaveCall ε ρ σ ω → Option (SaveDb ε ρ × SaveCall ε ρ σ ω)
  | .go, db, c => c.advance ops db
  | .fail, db, c => c.rollback.map fun c' => (db, c')

/-- the lock on the row, from the UPDATE to the commit -/
def held : SaveCall ε ρ σ ω → List Unit
  | .storing _ _ _ => [()]
  | _ => []

end SaveCall

abbrev SaveAction (ε : Type) := PoolAction ε SaveAccess

def SavePool.step : Pool (SaveDb ε ρ) (SaveCall ε ρ σ ω) → SaveAction ε →
    Pool (SaveDb ε ρ) (SaveCall ε ρ σ ω) :=
  Pool.step SaveCall.finding (SaveCall.next ops) SaveCall.held

/-! ## removals -/

/-- Calls `removes` save objects `removing`, and no other object makes a row `dead`; an object that
was not written because the row looked the same finds it dead; `revives s reread`: a save that makes
a dead row alive. -/
structure Removal (removes : ε → Prop) (removing : σ → Prop) (dead : ρ → Prop)
    (revives : σ → ρ → Prop) : Prop where
  find : ∀ e row s, ops.find e row = .save s → (removes e ↔ removing s)
  answer : ∀ e row s, ops.find e row = .answer s → ¬ removes e
  same : ∀ s row, ops.same s row = true → removing s → dead row
  kills : ∀ s reread row row', ops.store s reread row = some row' → removing s →
    (dead reread → dead row) → dead row'
  spares : ∀ s reread row row', ops.store s reread row = some row' → ¬ removing s → dead row' →
    dead row
  revives : ∀ s reread row, dead row →
    (revives s reread ↔ ∃ row', ops.store s reread row = some row' ∧ ¬ dead row')

/-- the row was dead from the start, or a removal has returned -/
def SaveDb.Removed (removes : ε → Prop) (dead : ρ → Prop) (row₀ : ρ) (db : SaveDb ε ρ) : Prop :=
  dead row₀ ∨ ∃ e ∈ db.returned, removes e

instance (removes : ε → Prop) (dead : ρ → Prop) [DecidablePred removes] [DecidablePred dead]
    (row₀ : ρ) (db : SaveDb ε ρ) : Decidable (db.Removed removes dead row₀) :=
  inferInstanceAs (Decidable (_ ∨ ∃ e ∈ db.returned, removes e))

/-- no dead row is made alive -/
def staysDead (dead : ρ → Prop) (revives : σ → ρ → Prop) :
    SaveAccess → SaveDb ε ρ → SaveCall ε ρ σ ω → Prop
  | .go, db, .storing _ s reread => dead db.row → ¬ revives s reread
  | _, _, _ => True

/-- what is known of a call, in the state `db` -/
def SaveCall.Sound (removes : ε → Prop) (removing : σ → Prop) (dead : ρ → Prop)
    (db : SaveDb ε ρ) : SaveCall ε ρ σ ω → Prop
  | .saving e s => removes e ↔ removing s
  | .writing e s reread => (removes e ↔ removing s) ∧ (dead reread → dead db.row)
  | .storing e s reread => (removes e ↔ removing s) ∧ (dead reread → dead db.row)
  | _ => True

section
variable {ops} {removes : ε → Prop} {removing : σ → Prop} {dead : ρ → Prop}
  {revives : σ → ρ → Prop} {db db' : SaveDb ε ρ} {c c' : SaveCall ε ρ σ ω} {row₀ : ρ}

theorem SaveCall.Sound.mono (h : c.Sound removes removing dead db)
    (hdead : dead db.row → dead db'.row) : c.Sound removes removing dead db' := by
  cases c with
  | saving e s => exact h
  | writing e s reread => exact ⟨h.1, fun hr => hdead (h.2 hr)⟩
  | storing e s reread => exact ⟨h.1, fun hr => hdead (h.2 hr)⟩
  | _ => trivial

theorem SaveDb.removed_return {e : ε} :
    (db.return e).Removed removes dead row₀ ↔ db.Removed removes dead row₀ ∨ removes e := by
  show _ ∨ (∃ x ∈ db.returned ++ [e], removes x) ↔ (_ ∨ ∃ x ∈ db.returned, removes x) ∨ _
  constructor
  · rintro (h | ⟨x, hx, hr⟩)
    · exact Or.inl (Or.inl h)
    · rcases List.mem_append.mp hx with hx | hx
      · exact Or.inl (Or.inr ⟨x, hx, hr⟩)
      · rw [List.mem_singleton.mp hx] at hr
        exact Or.inr hr
  · rintro ((h | ⟨x, hx, hr⟩) | hr)
    · exact Or.inl h
    · exact Or.inr ⟨x, List.mem_append_left _ hx, hr⟩
    · exact Or.inr ⟨e, List.mem_append_right _ (List.mem_singleton.mpr rfl), hr⟩

variable (hl : Removal ops removes removing dead revives)
include hl

/-- **One access.**  The row is dead exactly if it has been removed, and stays so. -/
theorem SaveCall.Sound.advance (hc : c.Sound removes removing dead db)
    (hinv : db.Removed removes dead row₀ ↔ dead db.row) (hq : staysDead dead revives .go db c)
    (ha : c.advance ops db = some (db', c')) :
    (db'.Removed removes dead row₀ ↔ dead db'.row) ∧ (dead db.row → dead db'.row) ∧
      c'.Sound removes removing dead db' := by
  cases c with
  | finding e =>
    simp only [SaveCall.advance] at ha
    split at ha
    · rename_i s hs
      cases ha
      exact ⟨hinv, id, hl.find e db.row s hs⟩
    · rename_i s hs
      cases ha
      have hno := hl.answer e db.row s hs
      refine ⟨?_, id, trivial⟩
      rw [SaveDb.removed_return, or_iff_left hno]
      exact hinv
    · cases ha
      exact ⟨hinv, id, trivial⟩
  | saving e s =>
    simp only [SaveCall.advance] at ha
    split at ha
    · rename_i hs
      cases ha
      refine ⟨?_, id, trivial⟩
      rw [SaveDb.removed_return, hinv]
      exact ⟨fun h => h.elim id fun hr => hl.same s db.row hs (hc.mp hr), Or.inl⟩
    · cases ha
      exact ⟨hinv, id, hc, id⟩
  | writing e s reread =>
    simp only [SaveCall.advance] at ha
    split at ha <;> cases ha
    · exact ⟨hinv, id, hc⟩
    · exact ⟨hinv, id, trivial⟩
  | storing e s reread =>
    obtain ⟨hr, hmono⟩ := hc
    simp only [SaveCall.advance] at ha
    split at ha
    · rename_i row hrow
      cases ha
      have hkeep : dead db.row → dead row := by
        intro hd
        by_contra hno
        exact hq hd ((hl.revives s reread db.row hd).mpr ⟨row, hrow, hno⟩)
      refine ⟨?_, hkeep, trivial⟩
      rw [SaveDb.removed_return]
      show db.Removed removes dead row₀ ∨ removes e ↔ dead row
      rw [hinv]
      constructor
      · rintro (hd | hrem)
        · exact hkeep hd
        · exact hl.kills s reread db.row row hrow (hr.mp hrem) hmono
      · intro hd
        by_cases hrem : removes e
        · exact Or.inr hrem
        · exact Or.inl (hl.spares s reread db.row row hrow (fun h => hrem (hr.mpr h)) hd)
    · cases ha
      exact ⟨hinv, id, trivial⟩
  | returned e s => cases ha
  | refused error => cases ha
  | failed => cases ha

theorem stable_save (row₀ : ρ) : Stable SaveCall.finding (SaveCall.next ops) SaveCall.held
    (fun _ => True) (staysDead dead revives) (fun db => db.Removed removes dead row₀ ↔ dead db.row)
    (fun db c => c.Sound removes removing dead db) where
  start_held := fun _ => rfl
  start_loc := fun _ _ _ _ => trivial
  own := by
    intro b db c db' c' hinv hc hq hn
    cases b with
    | go =>
      obtain ⟨hinv', _, hc'⟩ := hc.advance hl hinv hq hn
      exact ⟨hinv', hc'⟩
    | fail =>
      obtain ⟨c₁, hr, he⟩ := Option.map_eq_some_iff.mp hn
      cases he
      refine ⟨hinv, ?_⟩
      cases c <;> cases hr <;> trivial
  other := by
    intro b db c db' c' u hinv hc hu hq hn _
    cases b with
    | go => exact hu.mono (hc.advance hl hinv hq hn).2.1
    | fail =>
      obtain ⟨c₁, hr, he⟩ := Option.map_eq_some_iff.mp hn
      cases he
      exact hu

/-- **What was removed stays removed**, in exactly the runs in which every write that finds the row
dead leaves it dead. -/
theorem permanent_iff (row₀ : ρ) (as : List (SaveAction ε)) :
    Along (SavePool.step ops)
        (fun p a => ((SavePool.step ops p a).db.Removed removes dead row₀ →
          dead (SavePool.step ops p a).db.row)) ⟨⟨row₀, []⟩, []⟩ as ↔
      Along (SavePool.step ops) (Pool.allows (staysDead dead revives)) ⟨⟨row₀, []⟩, []⟩ as := by
  have hstable := stable_save hl row₀
  refine (along_iff (SavePool.step ops) (I := Pool.Good SaveCall.held
    (fun db => db.Removed removes dead row₀ ↔ dead db.row)
    (fun db c => c.Sound removes removing dead db)) ?_ ?_ _ as ?_).symm
  · intro p a hp ha
    exact hstable.step hp a (fun _ _ => trivial) ha
  · intro p a hp
    constructor
    · intro ha hrem
      exact (hstable.step hp a (fun _ _ => trivial) ha).inv.mp hrem
    · intro hafter
      cases a with
      | start e => trivial
      | access tx b =>
        intro c hc
        cases b with
        | fail => trivial
        | go =>
          cases c with
          | storing e s reread =>
            intro hd hrev
            have hrem := hp.inv.mpr hd
            obtain ⟨row, hrow, hno⟩ := (hl.revives s reread p.db.row hd).mp hrev
            have hn : SaveCall.next ops .go p.db (.storing e s reread) =
                some ({ p.db with row := row }.return e, .returned e s) := by
              show (match ops.store s reread p.db.row with
                | some row => _
                | none => _) = _
              rw [hrow]
            have hstep : SavePool.step ops p (.access tx .go) = _ := Pool.step_access hc hn rfl
            rw [hstep, SaveDb.removed_return] at hafter
            exact hno (hafter (Or.inl hrem))
          | _ => trivial
  · refine ⟨?_, fun _ h => absurd h List.not_mem_nil, fun i _ _ _ _ hx => by cases hx⟩
    show (dead row₀ ∨ ∃ e ∈ ([] : List ε), removes e) ↔ dead row₀
    exact ⟨fun h => h.elim id fun ⟨_, h, _⟩ => absurd h List.not_mem_nil, Or.inl⟩

end

end

end Lib
