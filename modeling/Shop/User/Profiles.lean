import Shop.User.Service
import Shop.Lib.Table

/-!
# The table of profiles

The calls of `users.service.ts` on all profiles together.  A profile has the id of a user of
auth-service; its `email` is a unique key, which a save must not break.

* `profilesOps now`       the table, as a call finds and stores the row of its profile;
* `ProfilesPool.step`     one access of a call; an UPDATE or INSERT has the row, and the entry of the
                          unique key, until the call commits;
* `Stored now s t t'`     what a save makes of the table (`store_stored`);
* `ProfilesSound reg`     no profile twice, and each with the email that its user has registered;
* `stable_profiles`       no access breaks that, as long as the users have registered what the calls
                          of `createProfile` say.
-/

set_option linter.unusedSectionVars false

namespace Shop
open Lib

/-- a call, and the id that the uuid column makes of the text of its request -/
abbrev ProfilesCall := String × UserCall

/-- the row is updated, or inserted -/
def putProfile (p : Profile) (t : List Profile) : List Profile :=
  if p.id ∈ t.map Profile.id then updateBy Profile.id p.id (fun _ => p) t else t ++ [p]

/-- the email of another profile -/
def EmailTaken (p : Profile) (t : List Profile) : Prop := ∃ r ∈ t, r.email = p.email ∧ r.id ≠ p.id

instance (p : Profile) (t : List Profile) : Decidable (EmailTaken p t) :=
  inferInstanceAs (Decidable (∃ r ∈ t, _ ∧ _))

/-- the table `profiles`; a row that is inserted is given the time `now` -/
def profilesOps (now : Nat) : SaveOps ProfilesCall (List Profile) ProfileObject UsersError where
  find := fun e t => e.2.find e.1 (selectBy Profile.id e.1 t)
  same := fun s t => (usersOps s.id now).same s (selectBy Profile.id s.id t)
  store := fun s reread t =>
    match (usersOps s.id now).store s (selectBy Profile.id s.id reread)
        (selectBy Profile.id s.id t) with
    | some (some p) => if EmailTaken p t then none else some (putProfile p t)
    | _ => none

abbrev ProfilesDb := SaveDb ProfilesCall (List Profile)

abbrev ProfilesTx := SaveCall ProfilesCall (List Profile) ProfileObject UsersError

inductive ProfileLock where
  | row (id : String)
  | email (email : String)
deriving DecidableEq, Repr

namespace ProfilesTx

/-- one access, at the time `now` -/
def next : SaveAccess × Nat → ProfilesDb → ProfilesTx → Option (ProfilesDb × ProfilesTx)
  | (b, now), db, c => SaveCall.next (profilesOps now) b db c

/-- the locks from the UPDATE or INSERT to the commit -/
def held : ProfilesTx → List ProfileLock
  | .storing _ s _ => [.row s.id, .email s.email]
  | _ => []

/-- the object that a call is about to save -/
def object : ProfilesTx → Option ProfileObject
  | .saving _ s => some s
  | .writing _ s _ => some s
  | .storing _ s _ => some s
  | _ => none

end ProfilesTx

abbrev ProfilesAction := PoolAction ProfilesCall (SaveAccess × Nat)

def ProfilesPool.step : Pool ProfilesDb ProfilesTx → ProfilesAction → Pool ProfilesDb ProfilesTx :=
  Pool.step SaveCall.finding ProfilesTx.next ProfilesTx.held

/-! ## what a save makes of the table -/

inductive Stored (now : Nat) (s : ProfileObject) (reread t : List Profile) : List Profile → Prop where
  | update (r p : Profile) : r ∈ reread → r.id = s.id → p ∈ t → p.id = s.id →
      Stored now s reread t (updateBy Profile.id s.id (fun _ => s.merge r p) t)
  | insert : s.id ∉ t.map Profile.id → Stored now s reread t (t ++ [s.insert now])

theorem store_stored {now : Nat} {s : ProfileObject} {reread t t' : List Profile}
    (h : (profilesOps now).store s reread t = some t') : Stored now s reread t t' := by
  simp only [profilesOps] at h
  split at h
  · rename_i p hp
    split at h
    · cases h
    · cases h
      rcases store_some hp with ⟨r, q, hr, hq, he⟩ | ⟨_, hq, he⟩
      · obtain ⟨hr, hrid⟩ := selectBy_some hr
        obtain ⟨hq, hqid⟩ := selectBy_some hq
        cases he
        have hmem : s.id ∈ t.map Profile.id := List.mem_map.mpr ⟨q, hq, hqid⟩
        unfold putProfile
        rw [show (s.merge r q).id = s.id from hqid, if_pos hmem]
        exact .update r q hr hrid hq hqid
      · cases he
        have hno : s.id ∉ t.map Profile.id := by
          intro hm
          obtain ⟨x, hx, hxid⟩ := List.mem_map.mp hm
          exact selectBy_none.mp hq x hx hxid
        unfold putProfile
        rw [show (s.insert now).id = s.id from rfl, if_neg hno]
        exact .insert hno
  · cases h

/-- the row of the profile is there afterwards -/
theorem Stored.mem_ids {now : Nat} {s : ProfileObject} {reread t t' : List Profile}
    (h : Stored now s reread t t') : s.id ∈ t'.map Profile.id := by
  cases h with
  | update r p _ _ hp hpid =>
    refine List.mem_map.mpr ⟨s.merge r p, mem_updateBy.mpr ⟨p, hp, Or.inl ⟨hpid, rfl⟩⟩, hpid⟩
  | insert _ => exact List.mem_map.mpr ⟨_, List.mem_append_right _ (List.mem_singleton.mpr rfl), rfl⟩

/-- no profile is deleted -/
theorem Stored.sub_ids {now : Nat} {s : ProfileObject} {reread t t' : List Profile}
    (h : Stored now s reread t t') : ∀ id ∈ t.map Profile.id, id ∈ t'.map Profile.id := by
  intro id hid
  obtain ⟨x, hx, rfl⟩ := List.mem_map.mp hid
  cases h with
  | update r p _ _ _ hpid =>
    by_cases hxs : x.id = s.id
    · exact List.mem_map.mpr ⟨s.merge r p, mem_updateBy.mpr ⟨x, hx, Or.inl ⟨hxs, rfl⟩⟩,
        hpid.trans hxs.symm⟩
    · exact List.mem_map.mpr ⟨x, mem_updateBy.mpr ⟨x, hx, Or.inr ⟨hxs, rfl⟩⟩, rfl⟩
  | insert _ => exact List.mem_map.mpr ⟨x, List.mem_append_left _ hx, rfl⟩

/-! ## registered emails -/

/-- a user has one email, and an email one user -/
structure Registry (reg : String → String → Prop) : Prop where
  email : ∀ id e e', reg id e → reg id e' → e = e'
  user : ∀ id id' e, reg id e → reg id' e → id = id'

/-- a profile is created for the email that its user has registered -/
def Asked (reg : String → String → Prop) : ProfilesCall → Prop
  | (id, .createProfile email) => reg id email
  | _ => True

/-- no profile twice, each with the registered email, and a profile for each call that has
returned -/
structure ProfilesSound (reg : String → String → Prop) (db : ProfilesDb) : Prop where
  ids : (db.row.map Profile.id).Nodup
  registered : ∀ p ∈ db.row, reg p.id p.email
  returned : ∀ e ∈ db.returned, Asked reg e ∧ e.1 ∈ db.row.map Profile.id

/-- the object of a call has the id and the email of its user -/
structure SavesRegistered (reg : String → String → Prop) (e : ProfilesCall) (s : ProfileObject) :
    Prop where
  asked : Asked reg e
  id_eq : s.id = e.1
  registered : reg s.id s.email

/-- the rows that a save has read again have registered emails, and are still there -/
def Reread (reg : String → String → Prop) (db : ProfilesDb) (reread : List Profile) : Prop :=
  ∀ p ∈ reread, reg p.id p.email ∧ p.id ∈ db.row.map Profile.id

def ProfilesTx.Sound (reg : String → String → Prop) (db : ProfilesDb) : ProfilesTx → Prop
  | .finding e => Asked reg e
  | .saving e s => SavesRegistered reg e s
  | .writing e s reread => SavesRegistered reg e s ∧ Reread reg db reread
  | .storing e s reread => SavesRegistered reg e s ∧ Reread reg db reread
  | _ => True

section
variable {reg : String → String → Prop} {now : Nat} {db db' : ProfilesDb} {c c' : ProfilesTx}
  {e : ProfilesCall} {s : ProfileObject} {reread t t' : List Profile}

/-- what is saved has the id and the email of the row that was found, or is the new profile -/
theorem UserCall.find_object {id : String} {e : UserCall} {row : Option Profile} {s : ProfileObject}
    (h : e.find id row = .save s) :
    (∃ p, row = some p ∧ s.id = p.id ∧ s.email = p.email) ∨
      ∃ email, e = .createProfile email ∧ s = ProfileObject.create id email := by
  cases e with
  | findById requesterId roles =>
    simp only [UserCall.find] at h
    split at h
    · cases h
    · split at h <;> cases h
  | update input requesterId roles =>
    simp only [UserCall.find] at h
    split at h
    · cases h
    · rename_i p hp
      split at h
      · cases h
        exact Or.inl ⟨p, (activeProfile_some hp).1, rfl, rfl⟩
      · cases h
  | remove roles =>
    simp only [UserCall.find] at h
    split at h
    · split at h
      · cases h
      · rename_i p
        cases h
        exact Or.inl ⟨p, rfl, rfl, rfl⟩
    · cases h
  | createProfile email =>
    simp only [UserCall.find] at h
    split at h
    · cases h
    · cases h
      exact Or.inr ⟨email, rfl, rfl⟩

/-- what is answered is a row that was found -/
theorem UserCall.find_row {id : String} {e : UserCall} {row : Option Profile} {s : ProfileObject}
    (h : e.find id row = .answer s) : ∃ p, row = some p := by
  cases row with
  | some p => exact ⟨p, rfl⟩
  | none =>
    cases e with
    | findById requesterId roles => cases h
    | update input requesterId roles => cases h
    | remove roles =>
      simp only [UserCall.find] at h
      split at h <;> cases h
    | createProfile email => cases h

theorem mem_ids {id : String} {p : Profile} (h : selectBy Profile.id id t = some p) :
    id ∈ t.map Profile.id :=
  List.mem_map.mpr ⟨p, (selectBy_some h).1, (selectBy_some h).2⟩

/-- the object that a call makes of the row that it has found -/
theorem saves_registered (he : Asked reg e) (ht : ∀ p ∈ t, reg p.id p.email)
    (h : (profilesOps now).find e t = .save s) : SavesRegistered reg e s := by
  rcases UserCall.find_object h with ⟨p, hp, hid, hemail⟩ | ⟨email, hcall, rfl⟩
  · obtain ⟨hp, hpid⟩ := selectBy_some hp
    refine ⟨he, hid.trans hpid, ?_⟩
    rw [hid, hemail]
    exact ht p hp
  · obtain ⟨id, call⟩ := e
    cases hcall
    exact ⟨he, rfl, he⟩

/-- a save leaves the email as it is, or inserts the registered one -/
theorem Stored.registered (hreg : Registry reg) (hs : reg s.id s.email)
    (hr : Reread reg db reread) (ht : ∀ p ∈ t, reg p.id p.email)
    (h : Stored now s reread t t') : ∀ p ∈ t', reg p.id p.email := by
  intro x hx
  cases h with
  | update r p hmem hrid hp hpid =>
    obtain ⟨y, hy, ⟨_, rfl⟩ | ⟨_, rfl⟩⟩ := mem_updateBy.mp hx
    · have hre : s.email = r.email := hreg.email s.id _ _ hs (hrid ▸ (hr r hmem).1)
      have hmerge : (s.merge r p).email = p.email := by
        show saveColumn s.email r.email p.email = p.email
        exact if_pos hre
      rw [hmerge]
      exact ht p hp
    · exact ht x hy
  | insert _ =>
    rcases List.mem_append.mp hx with hx | hx
    · exact ht x hx
    · rw [List.mem_singleton.mp hx]
      exact hs

theorem Stored.nodup (hnd : (t.map Profile.id).Nodup) (h : Stored now s reread t t') :
    (t'.map Profile.id).Nodup := by
  cases h with
  | update r p _ _ _ hpid =>
    have hids : (updateBy Profile.id s.id (fun _ => s.merge r p) t).map Profile.id =
        t.map Profile.id := map_updateBy_of Profile.id fun x _ hx => hpid.trans hx.symm
    rw [hids]
    exact hnd
  | insert hno =>
    rw [List.map_append]
    exact hnd.append (List.nodup_singleton _) (List.disjoint_singleton.mpr hno)

/-- a call that returns, of a profile that is there -/
theorem ProfilesSound.return (h : ProfilesSound reg db) (he : Asked reg e)
    (hmem : e.1 ∈ db.row.map Profile.id) : ProfilesSound reg (db.return e) where
  ids := h.ids
  registered := h.registered
  returned := by
    intro x hx
    rcases List.mem_append.mp hx with hx | hx
    · exact h.returned x hx
    · rw [List.mem_singleton.mp hx]
      exact ⟨he, hmem⟩

theorem ProfilesSound.store (hreg : Registry reg) (h : ProfilesSound reg db)
    (hs : reg s.id s.email) (hr : Reread reg db reread)
    (hstored : Stored now s reread db.row t') : ProfilesSound reg { db with row := t' } where
  ids := hstored.nodup h.ids
  registered := hstored.registered hreg hs hr h.registered
  returned := fun x hx => ⟨(h.returned x hx).1, hstored.sub_ids _ (h.returned x hx).2⟩

/-- no access takes a profile away -/
theorem ids_advance (ha : SaveCall.advance (profilesOps now) db c = some (db', c')) :
    ∀ id ∈ db.row.map Profile.id, id ∈ db'.row.map Profile.id := by
  cases c with
  | finding e =>
    simp only [SaveCall.advance] at ha
    split at ha <;> cases ha <;> exact fun _ h => h
  | saving e s =>
    simp only [SaveCall.advance] at ha
    split at ha <;> cases ha <;> exact fun _ h => h
  | writing e s reread =>
    simp only [SaveCall.advance] at ha
    split at ha <;> cases ha <;> exact fun _ h => h
  | storing e s reread =>
    simp only [SaveCall.advance] at ha
    split at ha
    · rename_i t' ht
      cases ha
      exact (store_stored ht).sub_ids
    · cases ha
      exact fun _ h => h
  | returned e s => cases ha
  | refused error => cases ha
  | failed => cases ha

theorem ProfilesTx.Sound.later (hc : ProfilesTx.Sound reg db c)
    (h : ∀ id ∈ db.row.map Profile.id, id ∈ db'.row.map Profile.id) :
    ProfilesTx.Sound reg db' c := by
  cases c with
  | writing e s reread => exact ⟨hc.1, fun p hp => ⟨(hc.2 p hp).1, h _ (hc.2 p hp).2⟩⟩
  | storing e s reread => exact ⟨hc.1, fun p hp => ⟨(hc.2 p hp).1, h _ (hc.2 p hp).2⟩⟩
  | _ => exact hc

/-- **One access.** -/
theorem ProfilesTx.Sound.advance (hreg : Registry reg) (h : ProfilesSound reg db)
    (hc : ProfilesTx.Sound reg db c)
    (ha : SaveCall.advance (profilesOps now) db c = some (db', c')) :
    ProfilesSound reg db' ∧ ProfilesTx.Sound reg db' c' := by
  cases c with
  | finding e =>
    have hasked : Asked reg e := hc
    simp only [SaveCall.advance] at ha
    split at ha
    · rename_i s hs
      cases ha
      exact ⟨h, saves_registered hasked h.registered hs⟩
    · rename_i s hs
      cases ha
      obtain ⟨p, hp⟩ := UserCall.find_row hs
      exact ⟨h.return hasked (mem_ids hp), trivial⟩
    · cases ha
      exact ⟨h, trivial⟩
  | saving e s =>
    have hs : SavesRegistered reg e s := hc
    simp only [SaveCall.advance] at ha
    split at ha
    · rename_i hsame
      cases ha
      refine ⟨h.return hs.asked ?_, trivial⟩
      rw [← hs.id_eq]
      simp only [profilesOps, usersOps] at hsame
      split at hsame
      · rename_i p hp
        exact mem_ids hp
      · cases hsame
    · cases ha
      exact ⟨h, hs, fun p hp => ⟨h.registered p hp, List.mem_map_of_mem hp⟩⟩
  | writing e s reread =>
    simp only [SaveCall.advance] at ha
    split at ha <;> cases ha
    · exact ⟨h, hc⟩
    · exact ⟨h, trivial⟩
  | storing e s reread =>
    obtain ⟨hs, hr⟩ := hc
    simp only [SaveCall.advance] at ha
    split at ha
    · rename_i t' ht
      cases ha
      have hstored := store_stored ht
      refine ⟨(h.store hreg hs.registered hr hstored).return hs.asked ?_, trivial⟩
      rw [← hs.id_eq]
      exact hstored.mem_ids
    · cases ha
      exact ⟨h, trivial⟩
  | returned e s => cases ha
  | refused error => cases ha
  | failed => cases ha

variable (reg) in
/-- what is registered, of the profiles and of every call that is under way -/
theorem stable_profiles (hreg : Registry reg) : Stable SaveCall.finding ProfilesTx.next
    ProfilesTx.held (Asked reg) (fun _ _ _ => True) (ProfilesSound reg)
    (ProfilesTx.Sound reg) where
  start_held := fun _ => rfl
  start_loc := fun _ _ he _ => he
  own := by
    intro choice db c db' c' h hc _ hn
    obtain ⟨b, now⟩ := choice
    cases b with
    | go => exact hc.advance hreg h hn
    | fail =>
      obtain ⟨c₁, hr, he⟩ := Option.map_eq_some_iff.mp hn
      cases he
      refine ⟨h, ?_⟩
      cases c <;> cases hr <;> trivial
  other := by
    intro choice db c db' c' u _ _ hu _ hn _
    obtain ⟨b, now⟩ := choice
    cases b with
    | go => exact hu.later (ids_advance hn)
    | fail =>
      obtain ⟨c₁, hr, he⟩ := Option.map_eq_some_iff.mp hn
      cases he
      exact hu

/-- **The unique key refuses nobody**: only the row of the profile has its email. -/
theorem ProfilesTx.Sound.spares_email (hreg : Registry reg) (h : ProfilesSound reg db)
    (hc : ProfilesTx.Sound reg db c) (hs : c.object = some s) {p : Profile} (hp : p ∈ db.row)
    (hemail : p.email = s.email) : p.id = s.id := by
  have hsaved : reg s.id s.email := by
    cases c with
    | saving e s' =>
      cases hs
      exact SavesRegistered.registered hc
    | writing e s' reread =>
      cases hs
      exact hc.1.registered
    | storing e s' reread =>
      cases hs
      exact hc.1.registered
    | _ => cases hs
  exact hreg.user p.id s.id s.email (hemail ▸ h.registered p hp) hsaved

/-! ## a profile that is missing -/

variable (now) in
/-- a profile that is not there is inserted, whatever the call has read -/
theorem store_new (hreg : Registry reg) (h : ProfilesSound reg db) (hs : reg s.id s.email)
    (hr : Reread reg db reread) (hno : s.id ∉ db.row.map Profile.id) :
    ∃ t', (profilesOps now).store s reread db.row = some t' ∧ s.id ∈ t'.map Profile.id := by
  have hrow : selectBy Profile.id s.id db.row = none :=
    selectBy_none.mpr fun p hp hid => hno (List.mem_map.mpr ⟨p, hp, hid⟩)
  have hreread : selectBy Profile.id s.id reread = none :=
    selectBy_none.mpr fun p hp hid => hno (hid ▸ (hr p hp).2)
  have hfree : ¬ EmailTaken (s.insert now) db.row := by
    rintro ⟨p, hp, hemail, hne⟩
    have hemail : p.email = s.email := hemail
    exact hne (hreg.user p.id s.id s.email (hemail ▸ h.registered p hp) hs)
  have hstore : (profilesOps now).store s reread db.row =
      some (putProfile (s.insert now) db.row) := by
    simp only [profilesOps]
    rw [hrow, hreread]
    exact if_neg hfree
  exact ⟨_, hstore, (store_stored hstore).mem_ids⟩

variable (now) in
/-- the commit of the insert -/
theorem commit_new (hreg : Registry reg) (h : ProfilesSound reg db)
    (hc : ProfilesTx.Sound reg db (.storing e s reread)) (hno : s.id ∉ db.row.map Profile.id) :
    ∃ db', ProfilesTx.next (.go, now) db (.storing e s reread) = some (db', .returned e s) ∧
      s.id ∈ db'.row.map Profile.id := by
  obtain ⟨hs, hr⟩ := hc
  obtain ⟨t', hstore, hmem⟩ := store_new now hreg h hs.registered hr hno
  refine ⟨{ db with row := t' }.return e, ?_, hmem⟩
  simp only [ProfilesTx.next, SaveCall.next, SaveCall.advance, hstore]

theorem getElem?_set_set {q : List ProfilesTx} {tx : Nat} (h : q[tx]? = some c) (c' : ProfilesTx) :
    (q.set tx c')[tx]? = some c' := by
  rw [List.getElem?_set_self (List.getElem?_eq_some_iff.mp h).1]

/-- a call that is about to insert a profile waits for nobody but another call that does -/
theorem insert_free {q : List ProfilesTx} (hreg : Registry reg) (tx : Nat) (e : ProfilesCall)
    (reread : List Profile) (hloc : ∀ c ∈ q, ProfilesTx.Sound reg db c) (hs : reg s.id s.email)
    (hother : ∀ e' s' reread', .storing e' s' reread' ∈ q → s'.id ≠ s.id) :
    (⟨db, q⟩ : Pool ProfilesDb ProfilesTx).free ProfilesTx.held tx (.storing e s reread) = true := by
  refine free_iff.mpr fun j u _ hu k hk hku => ?_
  have hmem := List.mem_of_getElem? hu
  cases u with
  | storing e' s' reread' =>
    have hs' := (hloc _ hmem).1.registered
    have hne := hother e' s' reread' hmem
    simp only [ProfilesTx.held, List.mem_cons, List.not_mem_nil, or_false] at hk hku
    rcases hk with rfl | rfl
    · rcases hku with h | h
      · exact hne (ProfileLock.row.inj h).symm
      · cases h
    · rcases hku with h | h
      · cases h
      · have hemail : s.email = s'.email := ProfileLock.email.inj h
        exact hne (hreg.user s'.id s.id s.email (hemail ▸ hs') hs)
  | _ => exact absurd hku List.not_mem_nil

/-- **A call of `createProfile` can be brought to its end**: by its own accesses, or by the commit of
the call that is ahead of it. -/
theorem profile_finishes (hreg : Registry reg) {p : Pool ProfilesDb ProfilesTx}
    (hp : p.Good ProfilesTx.held (ProfilesSound reg) (ProfilesTx.Sound reg)) {tx : Nat}
    {id email : String} (ht : p.txs[tx]? = some (.finding (id, .createProfile email))) (now : Nat) :
    ∃ order : List Nat, order.length ≤ 4 ∧ id ∈ ((run ProfilesPool.step p
      (order.map fun i => .access i (.go, now))).db.row.map Profile.id) := by
  by_cases hmem : id ∈ p.db.row.map Profile.id
  · exact ⟨[], Nat.zero_le _, hmem⟩
  by_cases hother : ∃ e' s' reread', .storing e' s' reread' ∈ p.txs ∧ s'.id = id
  · -- another call is inserting the profile
    obtain ⟨e', s', reread', hm, rfl⟩ := hother
    obtain ⟨j, hj⟩ := List.mem_iff_getElem?.mp hm
    obtain ⟨db', hn, hdone⟩ := commit_new now hreg hp.inv (hp.loc _ hm) hmem
    have hstep : ProfilesPool.step p (.access j (.go, now)) = _ := Pool.step_access hj hn rfl
    refine ⟨[j], Nat.le_add_left 1 3, ?_⟩
    rw [List.map_cons, List.map_nil, run_cons, run_nil, hstep]
    exact hdone
  · have hrow : selectBy Profile.id id p.db.row = none :=
      selectBy_none.mpr fun p hp hid => hmem (List.mem_map.mpr ⟨p, hp, hid⟩)
    have hasked : reg id email := hp.loc _ (List.mem_of_getElem? ht)
    let e : ProfilesCall := (id, .createProfile email)
    let s := ProfileObject.create id email
    have hsaves : SavesRegistered reg e s := ⟨hasked, rfl, hasked⟩
    have hreread : Reread reg p.db p.db.row :=
      fun q hq => ⟨hp.inv.registered q hq, List.mem_map_of_mem hq⟩
    obtain ⟨t', hstore, _⟩ := store_new now hreg hp.inv hsaves.registered hreread hmem
    obtain ⟨db', hn₄, hdone⟩ := commit_new now hreg hp.inv ⟨hsaves, hreread⟩ hmem
    have hn₁ : ProfilesTx.next (.go, now) p.db (.finding e) = some (p.db, .saving e s) := by
      simp only [ProfilesTx.next, SaveCall.next, SaveCall.advance, profilesOps, e, hrow]
      rfl
    have hn₂ : ProfilesTx.next (.go, now) p.db (.saving e s) =
        some (p.db, .writing e s p.db.row) := by
      have hsame : (profilesOps now).same s p.db.row = false := by
        simp only [profilesOps, s, ProfileObject.create, hrow]
        rfl
      simp only [ProfilesTx.next, SaveCall.next, SaveCall.advance, hsame]
      rfl
    have hn₃ : ProfilesTx.next (.go, now) p.db (.writing e s p.db.row) =
        some (p.db, .storing e s p.db.row) := by
      simp only [ProfilesTx.next, SaveCall.next, SaveCall.advance, hstore]
    -- the four accesses, one by one
    have hs₁ : ProfilesPool.step p (.access tx (.go, now)) = _ := Pool.step_access ht hn₁ rfl
    have hs₂ : ProfilesPool.step ⟨p.db, p.txs.set tx (.saving e s)⟩ (.access tx (.go, now)) = _ :=
      Pool.step_access (getElem?_set_set ht _) hn₂ rfl
    have hloc : ∀ c ∈ p.txs.set tx (.writing e s p.db.row), ProfilesTx.Sound reg p.db c := by
      intro c hc
      rcases List.mem_or_eq_of_mem_set hc with hc | rfl
      · exact hp.loc c hc
      · exact ⟨hsaves, hreread⟩
    have hfree := insert_free hreg tx e p.db.row hloc hsaves.registered
      fun e' s' reread' hm hid => by
        rcases List.mem_or_eq_of_mem_set hm with hm | h
        · exact hother ⟨e', s', reread', hm, hid⟩
        · cases h
    have hs₃ : ProfilesPool.step ⟨p.db, p.txs.set tx (.writing e s p.db.row)⟩
        (.access tx (.go, now)) = ⟨p.db, p.txs.set tx (.storing e s p.db.row)⟩ := by
      simp only [ProfilesPool.step, Pool.step, getElem?_set_set ht, hn₃, if_pos hfree, List.set_set]
    have hs₄ : ProfilesPool.step ⟨p.db, p.txs.set tx (.storing e s p.db.row)⟩
        (.access tx (.go, now)) = _ := Pool.step_access (getElem?_set_set ht _) hn₄ rfl
    refine ⟨[tx, tx, tx, tx], Nat.le_of_eq rfl, ?_⟩
    simp only [List.map_cons, List.map_nil, run_cons, run_nil]
    rw [hs₁, hs₂, List.set_set, hs₃, hs₄]
    exact hdone

/-! ## more users -/

variable {reg' : String → String → Prop} (hmore : ∀ id email, reg id email → reg' id email)
include hmore

theorem Asked.mono (h : Asked reg e) : Asked reg' e := by
  obtain ⟨id, call⟩ := e
  cases call with
  | createProfile email => exact hmore id email h
  | _ => trivial

theorem SavesRegistered.mono (h : SavesRegistered reg e s) : SavesRegistered reg' e s :=
  ⟨h.asked.mono hmore, h.id_eq, hmore _ _ h.registered⟩

theorem ProfilesSound.mono (h : ProfilesSound reg db) : ProfilesSound reg' db where
  ids := h.ids
  registered := fun p hp => hmore _ _ (h.registered p hp)
  returned := fun x hx => ⟨(h.returned x hx).1.mono hmore, (h.returned x hx).2⟩

theorem ProfilesTx.Sound.mono (h : ProfilesTx.Sound reg db c) : ProfilesTx.Sound reg' db c := by
  cases c with
  | finding e => exact Asked.mono hmore h
  | saving e s => exact SavesRegistered.mono hmore h
  | writing e s reread =>
    exact ⟨h.1.mono hmore, fun p hp => ⟨hmore _ _ (h.2 p hp).1, (h.2 p hp).2⟩⟩
  | storing e s reread =>
    exact ⟨h.1.mono hmore, fun p hp => ⟨hmore _ _ (h.2 p hp).1, (h.2 p hp).2⟩⟩
  | _ => trivial

end

end Shop
