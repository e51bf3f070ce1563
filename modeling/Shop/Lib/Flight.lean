import Mathlib.Data.List.Basic
import Mathlib.Logic.Function.Basic

/-!
# Shared flights

A table gives every key at most one flight: a computation that whoever asks for the key meanwhile
shares.  A flight is registered when it begins.  Its body goes on step by step and comes to an
outcome; the entry is taken out after that, and only then the outcome is given to those who wait.

* `Flights κ ω α`      the entries, and all flights that have begun, by number;
* `Flights.join`       the flight of a key, a new one if it has none;
* `Flights.advance`, `Flights.cleanup`   a step of a body, and the end of a flight;
* `Flights.Sound`      the entries are the flights that have not been cleaned up;
* `Flights.Later`      what can have become of the flights.
-/

namespace Lib

/-- a flight whose body is at `w`, has come to an outcome, or has been cleaned up after it -/
inductive FlightStage (ω α : Type*) where
  | working (w : ω)
  | settled (a : α)
  | cleaned (a : α)
deriving DecidableEq, Repr

structure Flight (κ ω α : Type*) where
  key : κ
  stage : FlightStage ω α
deriving DecidableEq, Repr

structure Flights (κ ω α : Type*) where
  entry : κ → Option Nat
  all : List (Flight κ ω α)

section
variable {κ ω α : Type*}

def FlightStage.pending : FlightStage ω α → Bool
  | .cleaned _ => false
  | _ => true

/-- an outcome stays, and what has been cleaned up is over -/
def FlightStage.Leads : FlightStage ω α → FlightStage ω α → Prop
  | .working _, _ => True
  | .settled a, y => y = .settled a ∨ y = .cleaned a
  | .cleaned a, y => y = .cleaned a

theorem FlightStage.Leads.refl (x : FlightStage ω α) : x.Leads x := by
  cases x with
  | working w => trivial
  | settled a => exact Or.inl rfl
  | cleaned a => rfl

theorem FlightStage.Leads.trans {x y z : FlightStage ω α} (hxy : x.Leads y) (hyz : y.Leads z) :
    x.Leads z := by
  cases x with
  | working w => trivial
  | settled a =>
    rcases hxy with rfl | rfl
    · exact hyz
    · exact Or.inr hyz
  | cleaned a =>
    cases hxy
    exact hyz

namespace Flights

def empty : Flights κ ω α := ⟨fun _ => none, []⟩

/-- a body takes a step: it goes on or comes to an outcome; `none` is a step of another kind -/
def advance (fs : Flights κ ω α) (f : Nat) (body : ω → Option (ω ⊕ α)) : Flights κ ω α :=
  match fs.all[f]? with
  | some ⟨k, .working w⟩ =>
    match body w with
    | some next => { fs with all := fs.all.set f ⟨k, next.elim .working .settled⟩ }
    | none => fs
  | _ => fs

/-- what those who wait for a flight are given, once it is there -/
def outcome (fs : Flights κ ω α) (f : Nat) : Option α :=
  match fs.all[f]? with
  | some ⟨_, .cleaned a⟩ => some a
  | _ => none

section
variable [DecidableEq κ]

def join (fs : Flights κ ω α) (k : κ) (w : ω) : Nat × Flights κ ω α :=
  match fs.entry k with
  | some f => (f, fs)
  | none =>
    (fs.all.length,
      ⟨Function.update fs.entry k (some fs.all.length), fs.all ++ [⟨k, .working w⟩]⟩)

def cleanup (fs : Flights κ ω α) (f : Nat) : Flights κ ω α :=
  match fs.all[f]? with
  | some ⟨k, .settled a⟩ => ⟨Function.update fs.entry k none, fs.all.set f ⟨k, .cleaned a⟩⟩
  | _ => fs

end

theorem advance_working {fs : Flights κ ω α} {f : Nat} {k : κ} {w : ω}
    (hf : fs.all[f]? = some ⟨k, .working w⟩) {body : ω → Option (ω ⊕ α)} {next : ω ⊕ α}
    (hb : body w = some next) : fs.advance f body =
      { fs with all := fs.all.set f ⟨k, next.elim .working .settled⟩ } := by
  simp only [advance, hf, hb]

/-- a step that is not the body's next one -/
theorem advance_idle {fs : Flights κ ω α} {f : Nat} {body : ω → Option (ω ⊕ α)}
    (h : ∀ k w, fs.all[f]? = some ⟨k, .working w⟩ → body w = none) : fs.advance f body = fs := by
  unfold advance
  split
  · rename_i k w hf
    rw [h k w hf]
  · rfl

theorem join_entry [DecidableEq κ] (fs : Flights κ ω α) (k : κ) (w : ω) :
    (fs.join k w).2.entry k = some (fs.join k w).1 := by
  unfold join
  cases hk : fs.entry k with
  | some f => exact hk
  | none => exact Function.update_self k _ _

theorem cleanup_settled [DecidableEq κ] {fs : Flights κ ω α} {f : Nat} {k : κ} {a : α}
    (hf : fs.all[f]? = some ⟨k, .settled a⟩) : fs.cleanup f =
      ⟨Function.update fs.entry k none, fs.all.set f ⟨k, .cleaned a⟩⟩ := by
  simp only [cleanup, hf]

theorem cleanup_idle [DecidableEq κ] {fs : Flights κ ω α} {f : Nat}
    (h : ∀ k a, fs.all[f]? ≠ some ⟨k, .settled a⟩) : fs.cleanup f = fs := by
  unfold cleanup
  split
  · rename_i k a hf
    exact absurd hf (h k a)
  · rfl

theorem outcome_eq_some {fs : Flights κ ω α} {f : Nat} {a : α} :
    fs.outcome f = some a ↔ ∃ k, fs.all[f]? = some ⟨k, .cleaned a⟩ := by
  unfold outcome
  constructor
  · intro h
    split at h
    · rename_i k b hf
      cases h
      exact ⟨k, hf⟩
    · cases h
  · rintro ⟨k, hf⟩
    rw [hf]

/-! ## the entries -/

/-- the entry of a key is its flight that has not been cleaned up -/
def Sound (fs : Flights κ ω α) : Prop :=
  ∀ k f, fs.entry k = some f ↔ ∃ x, fs.all[f]? = some x ∧ x.key = k ∧ x.stage.pending = true

theorem Sound.empty : Sound (empty : Flights κ ω α) := fun _ _ =>
  ⟨nofun, fun ⟨_, h, _⟩ => nomatch h⟩

section
variable {fs : Flights κ ω α} (h : fs.Sound)
include h

/-- one flight a key, until it is cleaned up -/
theorem Sound.unique {f g : Nat} {x y : Flight κ ω α} (hf : fs.all[f]? = some x)
    (hg : fs.all[g]? = some y) (hk : x.key = y.key) (hx : x.stage.pending = true)
    (hy : y.stage.pending = true) : f = g := by
  have hfe := (h y.key f).mpr ⟨x, hf, hk, hx⟩
  have hge := (h y.key g).mpr ⟨y, hg, rfl, hy⟩
  exact Option.some.inj (hfe.symm.trans hge)

/-- no entry where every flight has been cleaned up -/
theorem Sound.entry_none (hall : ∀ x ∈ fs.all, x.stage.pending = false) (k : κ) :
    fs.entry k = none := by
  cases hk : fs.entry k with
  | none => rfl
  | some f =>
    obtain ⟨x, hx, _, hp⟩ := (h k f).mp hk
    rw [hall x (List.mem_of_getElem? hx)] at hp
    cases hp

end

/-- a list with one place written -/
theorem getElem?_set_of_some {β : Type*} {l : List β} {i : Nat} {x : β} (h : l[i]? = some x)
    (y : β) (j : Nat) : (l.set i y)[j]? = if i = j then some y else l[j]? := by
  rw [List.getElem?_set]
  by_cases hij : i = j
  · rw [if_pos hij, if_pos hij, if_pos (List.getElem?_eq_some_iff.mp h).1]
  · rw [if_neg hij, if_neg hij]

theorem getElem?_set_self_of_some {β : Type*} {l : List β} {i : Nat} {x : β}
    (h : l[i]? = some x) (y : β) : (l.set i y)[i]? = some y := by
  rw [getElem?_set_of_some h, if_pos rfl]

/-- the step of a body, seen at its own place -/
theorem advance_self {fs : Flights κ ω α} {f : Nat} {k : κ} {w : ω}
    (hf : fs.all[f]? = some ⟨k, .working w⟩) {body : ω → Option (ω ⊕ α)} {next : ω ⊕ α}
    (hb : body w = some next) :
    (fs.advance f body).all[f]? = some ⟨k, next.elim .working .settled⟩ := by
  rw [advance_working hf hb]
  exact getElem?_set_self_of_some hf _

theorem cleanup_self [DecidableEq κ] {fs : Flights κ ω α} {f : Nat} {k : κ} {a : α}
    (hf : fs.all[f]? = some ⟨k, .settled a⟩) :
    (fs.cleanup f).all[f]? = some ⟨k, .cleaned a⟩ := by
  rw [cleanup_settled hf]
  exact getElem?_set_self_of_some hf _

/-- the entries stay when a flight goes on that is not cleaned up by it -/
theorem Sound.set {fs : Flights κ ω α} (h : fs.Sound) {f : Nat} {x : Flight κ ω α}
    (hf : fs.all[f]? = some x) (hx : x.stage.pending = true) {st : FlightStage ω α}
    (hst : st.pending = true) : Sound { fs with all := fs.all.set f ⟨x.key, st⟩ } := by
  intro k g
  show fs.entry k = some g ↔ ∃ y, (fs.all.set f ⟨x.key, st⟩)[g]? = some y ∧ _
  rw [h k g, getElem?_set_of_some hf]
  by_cases hfg : f = g
  · subst hfg
    rw [if_pos rfl]
    constructor
    · rintro ⟨y, hy, hk, _⟩
      rw [hf] at hy
      cases hy
      exact ⟨_, rfl, hk, hst⟩
    · rintro ⟨y, hy, hk, _⟩
      cases hy
      exact ⟨x, hf, hk, hx⟩
  · rw [if_neg hfg]

theorem Sound.advance {fs : Flights κ ω α} (h : fs.Sound) (f : Nat)
    (body : ω → Option (ω ⊕ α)) : (fs.advance f body).Sound := by
  unfold Flights.advance
  split
  · rename_i k w hf
    split
    · rename_i next _
      exact h.set hf rfl (by cases next <;> rfl)
    · exact h
  · exact h

section
variable [DecidableEq κ] {fs : Flights κ ω α} (h : fs.Sound)
include h

theorem Sound.join (k : κ) (w : ω) : (fs.join k w).2.Sound := by
  unfold Flights.join
  cases hk : fs.entry k with
  | some f => exact h
  | none =>
    intro k' g
    show Function.update fs.entry k (some fs.all.length) k' = some g ↔
      ∃ y, (fs.all ++ [⟨k, .working w⟩])[g]? = some y ∧ _
    by_cases hlast : g = fs.all.length
    · rw [hlast, List.getElem?_concat_length]
      by_cases hkk : k' = k
      · rw [hkk, Function.update_self]
        exact ⟨fun _ => ⟨_, rfl, rfl, rfl⟩, fun _ => rfl⟩
      · rw [Function.update_of_ne hkk]
        constructor
        · intro hentry
          obtain ⟨x, hx, _⟩ := (h k' _).mp hentry
          exact absurd (List.getElem?_eq_some_iff.mp hx).1 (Nat.lt_irrefl _)
        · rintro ⟨y, hy, hkey, _⟩
          cases hy
          exact absurd hkey.symm hkk
    · have hold : (fs.all ++ [⟨k, .working w⟩])[g]? = fs.all[g]? := by
        rcases Nat.lt_or_ge g fs.all.length with hlt | hge
        · exact List.getElem?_append_left hlt
        · rw [List.getElem?_eq_none hge, List.getElem?_eq_none]
          rw [List.length_append, List.length_singleton]
          omega
      rw [hold]
      by_cases hkk : k' = k
      · rw [hkk, Function.update_self, ← h k g, hk]
        exact ⟨fun he => absurd (Option.some.inj he).symm hlast, nofun⟩
      · rw [Function.update_of_ne hkk]
        exact h k' g

theorem Sound.cleanup (f : Nat) : (fs.cleanup f).Sound := by
  unfold Flights.cleanup
  split
  · rename_i k a hf
    intro k' g
    show Function.update fs.entry k none k' = some g ↔
      ∃ y, (fs.all.set f ⟨k, .cleaned a⟩)[g]? = some y ∧ _
    have hentry : fs.entry k = some f := (h k f).mpr ⟨_, hf, rfl, rfl⟩
    rw [getElem?_set_of_some hf]
    by_cases hfg : f = g
    · rw [if_pos hfg]
      constructor
      · intro he
        by_cases hkk : k' = k
        · rw [hkk, Function.update_self] at he
          cases he
        · rw [Function.update_of_ne hkk] at he
          obtain ⟨x, hx, hkey, _⟩ := (h k' g).mp he
          rw [← hfg, hf] at hx
          cases hx
          exact absurd hkey.symm hkk
      · rintro ⟨y, hy, _, hp⟩
        cases hy
        cases hp
    · rw [if_neg hfg]
      by_cases hkk : k' = k
      · rw [hkk, Function.update_self, ← h k g, hentry]
        exact ⟨nofun, fun he => absurd (Option.some.inj he) hfg⟩
      · rw [Function.update_of_ne hkk]
        exact h k' g
  · exact h

/-- whoever joins waits for a flight of the key that has not been cleaned up -/
theorem Sound.joined (k : κ) (w : ω) : ∃ x, (fs.join k w).2.all[(fs.join k w).1]? = some x ∧
    x.key = k ∧ x.stage.pending = true := by
  unfold Flights.join
  cases hk : fs.entry k with
  | some f => exact (h k f).mp hk
  | none => exact ⟨_, List.getElem?_concat_length, rfl, rfl⟩

end

/-! ## what becomes of the flights -/

/-- every flight is still there, with its key, at a stage that its own leads to -/
def Later (fs fs' : Flights κ ω α) : Prop :=
  ∀ (f : Nat) (x : Flight κ ω α), fs.all[f]? = some x →
    ∃ y, fs'.all[f]? = some y ∧ y.key = x.key ∧ x.stage.Leads y.stage

theorem Later.refl (fs : Flights κ ω α) : fs.Later fs := fun _ x hx =>
  ⟨x, hx, rfl, FlightStage.Leads.refl x.stage⟩

theorem Later.trans {fs fs' fs'' : Flights κ ω α} (h : fs.Later fs') (h' : fs'.Later fs'') :
    fs.Later fs'' := by
  intro f x hx
  obtain ⟨y, hy, hk, hl⟩ := h f x hx
  obtain ⟨z, hz, hk', hl'⟩ := h' f y hy
  exact ⟨z, hz, hk'.trans hk, hl.trans hl'⟩

/-- one flight goes on to a stage that its own leads to -/
theorem later_set {fs : Flights κ ω α} {f : Nat} {x : Flight κ ω α} (hf : fs.all[f]? = some x)
    {st : FlightStage ω α} (hst : x.stage.Leads st) (entry : κ → Option Nat) :
    fs.Later ⟨entry, fs.all.set f ⟨x.key, st⟩⟩ := by
  intro g y hy
  show ∃ z, (fs.all.set f ⟨x.key, st⟩)[g]? = some z ∧ _
  rw [getElem?_set_of_some hf]
  by_cases hfg : f = g
  · rw [if_pos hfg]
    rw [← hfg, hf] at hy
    cases hy
    exact ⟨_, rfl, rfl, hst⟩
  · rw [if_neg hfg]
    exact ⟨y, hy, rfl, FlightStage.Leads.refl y.stage⟩

theorem later_advance (fs : Flights κ ω α) (f : Nat) (body : ω → Option (ω ⊕ α)) :
    fs.Later (fs.advance f body) := by
  unfold Flights.advance
  split
  · rename_i k w hf
    split
    · exact later_set (x := ⟨k, .working w⟩) hf trivial _
    · exact Later.refl fs
  · exact Later.refl fs

theorem later_join [DecidableEq κ] (fs : Flights κ ω α) (k : κ) (w : ω) :
    fs.Later (fs.join k w).2 := by
  unfold Flights.join
  cases fs.entry k with
  | some f => exact Later.refl fs
  | none =>
    intro f x hx
    exact ⟨x, (List.getElem?_append_left (List.getElem?_eq_some_iff.mp hx).1).trans hx, rfl,
      FlightStage.Leads.refl x.stage⟩

theorem later_cleanup [DecidableEq κ] (fs : Flights κ ω α) (f : Nat) :
    fs.Later (fs.cleanup f) := by
  unfold Flights.cleanup
  split
  · rename_i k a hf
    exact later_set (x := ⟨k, .settled a⟩) hf (Or.inr rfl) _
  · exact Later.refl fs

/-- what is over has no entry any more, ever -/
theorem Later.entry_ne {fs fs' : Flights κ ω α} (h : fs.Later fs') (hs : fs'.Sound) {f : Nat}
    {x : Flight κ ω α} (hf : fs.all[f]? = some x) (hx : x.stage.pending = false) (k : κ) :
    fs'.entry k ≠ some f := by
  intro he
  obtain ⟨y, hy, -, hl⟩ := h f x hf
  obtain ⟨z, hz, -, hp⟩ := (hs k f).mp he
  rw [hy] at hz
  cases hz
  cases hst : x.stage with
  | working w => rw [hst] at hx; cases hx
  | settled a => rw [hst] at hx; cases hx
  | cleaned a =>
    rw [hst] at hl
    rw [show y.stage = .cleaned a from hl] at hp
    cases hp

end Flights

end

end Lib
