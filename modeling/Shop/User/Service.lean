import Shop.Lib.Save
import Shop.Shared.Identity

/-!
# user-service

`users.service.ts` on the profile of one user: `findById`, `update` and `remove` of the HTTP
endpoints, and `createProfile`, which every delivery of the user's registration calls.

* `Profile`           a row of `profiles`;
* `ProfileObject`     what is passed to `save`: a column that is `undefined` is left alone;
* `UserCall.find`     what each call makes of the row that it reads;
* `usersOps`          the entity, as it is found and stored.
-/

set_option linter.unusedSectionVars false

namespace Shop
open Lib

structure Profile where
  id : String
  email : String
  name : Option String
  avatarUrl : Option String
  phone : Option String
  dateOfBirth : Option String
  addressLine : Option String
  city : Option String
  country : Option String
  postalCode : Option String
  isActive : Bool
  createdAt : Nat
deriving DecidableEq, Repr

/-- the columns of an object: `none` where it is `undefined` -/
structure ProfileObject where
  id : String
  email : String
  name : Option (Option String)
  avatarUrl : Option (Option String)
  phone : Option (Option String)
  dateOfBirth : Option (Option String)
  addressLine : Option (Option String)
  city : Option (Option String)
  country : Option (Option String)
  postalCode : Option (Option String)
  isActive : Option Bool
  createdAt : Option Nat
deriving DecidableEq, Repr

/-- a field is `undefined`, `null` or a value -/
structure UpdateProfileInput where
  name : Option (Option String)
  avatarUrl : Option (Option String)
  phone : Option (Option String)
  dateOfBirth : Option (Option String)
  addressLine : Option (Option String)
  city : Option (Option String)
  country : Option (Option String)
  postalCode : Option (Option String)
deriving DecidableEq, Repr

inductive UsersError where
  | notFound (id : String)
  | forbidden (message : String)
deriving DecidableEq, Repr

def UsersError.message : UsersError → String
  | .notFound id => "User " ++ id ++ " not found"
  | .forbidden message => message

namespace Profile

def toObject (p : Profile) : ProfileObject where
  id := p.id
  email := p.email
  name := some p.name
  avatarUrl := some p.avatarUrl
  phone := some p.phone
  dateOfBirth := some p.dateOfBirth
  addressLine := some p.addressLine
  city := some p.city
  country := some p.country
  postalCode := some p.postalCode
  isActive := some p.isActive
  createdAt := some p.createdAt

/-- `{ ...profile, ...defined }` -/
def assign (input : UpdateProfileInput) (p : Profile) : ProfileObject :=
  { p.toObject with
    name := input.name.or (some p.name)
    avatarUrl := input.avatarUrl.or (some p.avatarUrl)
    phone := input.phone.or (some p.phone)
    dateOfBirth := input.dateOfBirth.or (some p.dateOfBirth)
    addressLine := input.addressLine.or (some p.addressLine)
    city := input.city.or (some p.city)
    country := input.country.or (some p.country)
    postalCode := input.postalCode.or (some p.postalCode) }

def deactivate (p : Profile) : ProfileObject := { p.toObject with isActive := some false }

end Profile

/-- `profilesRepo.create({ id, email })` -/
def ProfileObject.create (id email : String) : ProfileObject :=
  ⟨id, email, none, none, none, none, none, none, none, none, none, none⟩

namespace ProfileObject

/-- a column that the object defines is saved -/
def column {α : Type} [DecidableEq α] (value : Option α) (reread current : α) : α :=
  match value with
  | some v => saveColumn v reread current
  | none => current

/-- the row after the UPDATE of the columns in which the object differs from the row read again -/
def merge (s : ProfileObject) (reread p : Profile) : Profile where
  id := p.id
  email := saveColumn s.email reread.email p.email
  name := column s.name reread.name p.name
  avatarUrl := column s.avatarUrl reread.avatarUrl p.avatarUrl
  phone := column s.phone reread.phone p.phone
  dateOfBirth := column s.dateOfBirth reread.dateOfBirth p.dateOfBirth
  addressLine := column s.addressLine reread.addressLine p.addressLine
  city := column s.city reread.city p.city
  country := column s.country reread.country p.country
  postalCode := column s.postalCode reread.postalCode p.postalCode
  isActive := column s.isActive reread.isActive p.isActive
  createdAt := column s.createdAt reread.createdAt p.createdAt

/-- the row that an INSERT makes, with the column defaults -/
def insert (s : ProfileObject) (now : Nat) : Profile where
  id := s.id
  email := s.email
  name := s.name.join
  avatarUrl := s.avatarUrl.join
  phone := s.phone.join
  dateOfBirth := s.dateOfBirth.join
  addressLine := s.addressLine.join
  city := s.city.join
  country := s.country.join
  postalCode := s.postalCode.join
  isActive := s.isActive.getD true
  createdAt := s.createdAt.getD now

end ProfileObject

/-- the calls about one profile -/
inductive UserCall where
  | findById (requesterId : String) (requesterRoles : List Role)
  | update (input : UpdateProfileInput) (requesterId : String) (requesterRoles : List Role)
  | remove (requesterRoles : List Role)
  | createProfile (email : String)
deriving DecidableEq, Repr

/-- `findOne` with `isActive: true` -/
def activeProfile (row : Option Profile) : Option Profile := row.filter Profile.isActive

/-- own profiles, or the rights of an admin -/
def mayAccess (id requesterId : String) (roles : List Role) : Bool :=
  decide (requesterId = id) || decide (Role.admin ∈ roles)

def UserCall.find (id : String) (row : Option Profile) : UserCall → Reading ProfileObject UsersError
  | .findById requesterId roles =>
    match activeProfile row with
    | none => .refuse (.notFound id)
    | some profile =>
      if mayAccess id requesterId roles then .answer profile.toObject
      else .refuse (.forbidden "Access denied")
  | .update input requesterId roles =>
    match activeProfile row with
    | none => .refuse (.notFound id)
    | some profile =>
      if mayAccess id requesterId roles then .save (profile.assign input)
      else .refuse (.forbidden "Access denied")
  | .remove roles =>
    if Role.admin ∈ roles then
      match row with
      | none => .refuse (.notFound id)
      | some profile => .save profile.deactivate
    else .refuse (.forbidden "Only admins can delete users")
  | .createProfile email =>
    match row with
    | some existing => .answer existing.toObject
    | none => .save (ProfileObject.create id email)

/-- the profile `id`; a row that is inserted is given the time `now` -/
def usersOps (id : String) (now : Nat) :
    SaveOps UserCall (Option Profile) ProfileObject UsersError where
  find := fun e row => e.find id row
  same := fun s row =>
    match row with
    | some p => decide (s.merge p p = p)
    | none => false
  store := fun s reread row =>
    match reread, row with
    | some reread, some p => some (some (s.merge reread p))
    | none, none => some (some (s.insert now))
    -- another call has inserted the row
    | none, some _ => none
    -- no call deletes a row
    | some _, none => none

/-! ## removed profiles -/

def UserCall.removes : UserCall → Prop
  | .remove _ => True
  | _ => False

instance : DecidablePred UserCall.removes
  | .remove _ => .isTrue trivial
  | .findById _ _ => .isFalse id
  | .update _ _ _ => .isFalse id
  | .createProfile _ => .isFalse id

/-- the profile has been removed -/
def Profile.removed : Option Profile → Prop
  | some p => p.isActive = false
  | none => False

instance : DecidablePred Profile.removed
  | some p => inferInstanceAs (Decidable (p.isActive = false))
  | none => .isFalse id

theorem activeProfile_some {row : Option Profile} {p : Profile} (h : activeProfile row = some p) :
    row = some p ∧ p.isActive = true := Option.filter_eq_some_iff.mp h

/-- no reader sees a profile that was removed -/
theorem activeProfile_removed {row : Option Profile} (h : Profile.removed row) :
    activeProfile row = none := by
  cases hp : activeProfile row with
  | none => rfl
  | some p =>
    obtain ⟨rfl, ha⟩ := activeProfile_some hp
    exact absurd (ha.symm.trans h) (by decide)

/-- an active object is saved over a profile that was inactive when it was read again -/
def ProfileObject.revives (s : ProfileObject) (reread : Option Profile) : Prop :=
  s.isActive = some true ∧ Profile.removed reread

/-- a call that saves a profile is a `remove` exactly if it has made the profile inactive -/
theorem UserCall.find_save {id : String} {e : UserCall} {row : Option Profile} {s : ProfileObject}
    (h : e.find id row = .save s) : e.removes ↔ s.isActive = some false := by
  cases e with
  | findById requesterId roles =>
    simp only [UserCall.find] at h
    split at h
    · cases h
    · split at h <;> cases h
  | update input requesterId roles =>
    simp only [UserCall.find] at h
    split at h
    · cases h
    · rename_i p hp
      split at h
      · cases h
        have ha : (p.assign input).isActive = some true := congrArg some (activeProfile_some hp).2
        rw [ha]
        exact ⟨False.elim, fun h => by cases h⟩
      · cases h
  | remove roles =>
    simp only [UserCall.find] at h
    split at h
    · split at h
      · cases h
      · cases h
        exact ⟨fun _ => rfl, fun _ => trivial⟩
    · cases h
  | createProfile email =>
    simp only [UserCall.find] at h
    split at h
    · cases h
    · cases h
      exact ⟨False.elim, fun h => by cases h⟩

/-- a `remove` saves a profile, or fails -/
theorem UserCall.find_answer {id : String} {e : UserCall} {row : Option Profile} {s : ProfileObject}
    (h : e.find id row = .answer s) : ¬ e.removes := by
  cases e with
  | remove roles =>
    simp only [UserCall.find] at h
    split at h
    · split at h <;> cases h
    · cases h
  | _ => exact fun hr => hr

/-- a save updates the row that is there, or inserts one -/
theorem store_some {id : String} {now : Nat} {s : ProfileObject} {reread row row' : Option Profile}
    (h : (usersOps id now).store s reread row = some row') :
    (∃ r p, reread = some r ∧ row = some p ∧ row' = some (s.merge r p)) ∨
      (reread = none ∧ row = none ∧ row' = some (s.insert now)) := by
  cases reread with
  | none =>
    cases row with
    | none =>
      cases h
      exact Or.inr ⟨rfl, rfl, rfl⟩
    | some p => cases h
  | some r =>
    cases row with
    | none => cases h
    | some p =>
      cases h
      exact Or.inl ⟨r, p, rfl, rfl, rfl⟩

/-- only an object that is inactive makes an active column inactive -/
theorem column_spares {value : Option Bool} {reread current : Bool} (hv : value ≠ some false)
    (h : ProfileObject.column value reread current = false) : current = false := by
  cases value with
  | none => exact h
  | some v =>
    cases v with
    | false => exact absurd rfl hv
    | true => exact saveColumn_true h

/-- an inactive column is made active by an active object that was found inactive -/
theorem column_revives (value : Option Bool) (reread : Bool) :
    value = some true ∧ reread = false ↔ ¬ ProfileObject.column value reread false = false := by
  cases value with
  | none => exact ⟨fun h => (by cases h.1), fun h => absurd rfl h⟩
  | some v =>
    show some v = some true ∧ reread = false ↔ ¬ saveColumn v reread false = false
    cases v <;> cases reread <;> decide

theorem users_removal (id : String) (now : Nat) :
    Removal (usersOps id now) UserCall.removes (fun s => s.isActive = some false)
      Profile.removed ProfileObject.revives where
  find := fun _ _ _ h => UserCall.find_save h
  answer := fun _ _ _ h => UserCall.find_answer h
  same := by
    intro s row h hs
    cases row with
    | none => cases h
    | some p =>
      have hmerge := congrArg Profile.isActive (of_decide_eq_true h)
      show p.isActive = false
      rw [← hmerge]
      show ProfileObject.column s.isActive p.isActive p.isActive = false
      rw [hs]
      exact (saveColumn_false_iff _ _).mpr fun h => h
  kills := by
    intro s reread row row' h hs hdead
    rcases store_some h with ⟨r, p, rfl, rfl, rfl⟩ | ⟨rfl, rfl, rfl⟩
    · show ProfileObject.column s.isActive r.isActive p.isActive = false
      rw [hs]
      exact (saveColumn_false_iff _ _).mpr hdead
    · show s.isActive.getD true = false
      rw [hs]
      rfl
  spares := by
    intro s reread row row' h hs hdead
    rcases store_some h with ⟨r, p, rfl, rfl, rfl⟩ | ⟨rfl, rfl, rfl⟩
    · exact column_spares hs hdead
    · have hd : s.isActive.getD true = false := hdead
      cases hv : s.isActive with
      | none =>
        rw [hv] at hd
        cases hd
      | some v =>
        rw [hv] at hd
        exact absurd (hv.trans (congrArg some hd)) hs
  revives := by
    intro s reread row hdead
    constructor
    · rintro ⟨hactive, hgone⟩
      cases row with
      | none => exact hdead.elim
      | some p =>
        cases reread with
        | none => exact hgone.elim
        | some r =>
          refine ⟨some (s.merge r p), rfl, ?_⟩
          have hcol := (column_revives s.isActive r.isActive).mp ⟨hactive, hgone⟩
          show ¬ ProfileObject.column s.isActive r.isActive p.isActive = false
          rw [show p.isActive = false from hdead]
          exact hcol
    · rintro ⟨row', h, halive⟩
      rcases store_some h with ⟨r, p, rfl, rfl, rfl⟩ | ⟨_, rfl, _⟩
      · apply (column_revives s.isActive r.isActive).mpr
        intro hcol
        apply halive
        show ProfileObject.column s.isActive r.isActive p.isActive = false
        rw [show p.isActive = false from hdead]
        exact hcol
      · exact hdead.elim

end Shop
