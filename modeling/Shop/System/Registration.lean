import Shop.Auth.Rotation
import Shop.User.Profiles
import Shop.Kafka.Producer

/-!
# Users and their profiles

A user registers with auth-service; the relay of its outbox publishes the event, and user-service
creates a profile with the id and the email of the user.  Both services keep going while that
happens: tokens are issued, profiles are changed and removed, events are delivered again.

* `Signups.step`            what can happen, one access or one delivery at a time;
* `AuthDb.names`            the users, by id and email;
* `AuthDb.Named`            one event in the outbox for each of them, in order;
* `Signups.settled`         every event has been published, and handled;
* `profiles_agree`          the profiles are those of users, and all of them once it is settled;
* `dueWith t r`             the queue of the relay, up to a row;
* `profile_reachable`       a profile can always be reached, unless the relay has given up its event.

The relay's tick is one step here, and so is the insert of a registration with its event.
-/

set_option linter.unusedSectionVars false

namespace Shop
open Lib

/-- the two databases with the calls that are under way, and what is on the topic -/
structure Signups where
  auth : Pool AuthDb AuthTx
  topic : List (Publication UserRegisteredEvent)
  users : Pool ProfilesDb ProfilesTx

inductive SignupAction where
  | auth (a : AuthAction)
  | relay (tick : Tick UserRegisteredEvent)
  | deliver (index : Nat)
  | request (id : String) (call : UserCall)
  | access (tx : Nat) (choice : SaveAccess) (now : Nat)

namespace Signups

def init : Signups := ⟨⟨.initial, []⟩, [], ⟨⟨[], []⟩, []⟩⟩

section
variable (cfg : AuthConfig) (maxRetries : Nat)

def relay (w : Signups) (tick : Tick UserRegisteredEvent) : Signups :=
  -- the event has no correlation id
  let r := AbstractOutboxProcessor.processPending (fun _ => none) maxRetries tick w.auth.db.outbox
  { w with
    auth := { w.auth with db := { w.auth.db with outbox := r.table } }
    topic := w.topic ++ r.published }

/-- `handleUserRegistered` -/
def deliver (w : Signups) (p : Publication UserRegisteredEvent) : Signups :=
  if p.topic = Topic.userRegistered.text then
    let call : ProfilesCall := (p.payload.userId, .createProfile p.payload.email)
    { w with users := ProfilesPool.step w.users (.start call) }
  else w

def step (w : Signups) : SignupAction → Signups
  | .auth a => { w with auth := AuthPool.step cfg w.auth a }
  | .relay tick => w.relay maxRetries tick
  | .deliver index =>
    match w.topic[index]? with
    | some p => w.deliver p
    | none => w
  -- no endpoint creates a profile
  | .request _ (.createProfile _) => w
  | .request id call => { w with users := ProfilesPool.step w.users (.start (id, call)) }
  | .access tx choice now =>
    { w with users := ProfilesPool.step w.users (.access tx (choice, now)) }

end

def profiles (w : Signups) : List Profile := w.users.db.row

/-- every event has been published, and the profile of every event on the topic is there -/
def settled (w : Signups) : Prop :=
  (∀ r ∈ w.auth.db.outbox, r.status = .published) ∧
    ∀ p ∈ w.topic, (p.payload.userId, .createProfile p.payload.email) ∈ w.users.db.returned

end Signups

/-! ## the users and their events -/

def AuthDb.names (db : AuthDb) : List (String × String) := db.users.map fun u => (u.id, u.email)

/-- the user whose profile it is -/
def Profile.user (p : Profile) : String × String := (p.id, p.email)

/-- the user that a row of the outbox is about -/
def OutboxRecord.user (r : OutboxRecord UserRegisteredEvent) : String × String :=
  (r.payload.userId, r.payload.email)

/-- the ids and the emails are unique, and there is one event for each user -/
structure AuthDb.Named (db : AuthDb) : Prop where
  ids : (db.names.map Prod.fst).Nodup
  emails : (db.names.map Prod.snd).Nodup
  events : db.outbox.map OutboxRecord.user = db.names
  keys : (db.outbox.map OutboxRecord.id).Nodup
  topics : ∀ r ∈ db.outbox, r.topic = Topic.userRegistered.text

section
variable {cfg : AuthConfig} {maxRetries : Nat} {db db' : AuthDb}

theorem names_setToken (db : AuthDb) (id : String) (refreshToken : Option String) :
    (db.setToken id refreshToken).names = db.names :=
  map_updateBy (fun u : UserRow => (u.id, u.email))
    (f := fun r => { r with refreshToken := refreshToken }) (fun _ => rfl) db.users

/-- an access leaves the names and the events as they are, or registers one more user -/
theorem names_moves {choice : AuthChoice} {t t' : AuthTx} (hm : AuthTx.Moves cfg choice db t db' t') :
    (db'.names = db.names ∧ db'.outbox = db.outbox) ∨
      ∃ user g, db.register user g = some db' := by
  cases hm with
  | register input id salt g _ h => exact Or.inr ⟨_, g, h⟩
  | logout userId message => exact Or.inl ⟨names_setToken db userId none, rfl⟩
  | issue call user jti now _ => exact Or.inl ⟨names_setToken db user.id _, rfl⟩
  | _ => exact Or.inl ⟨rfl, rfl⟩

theorem AuthDb.Named.initial : AuthDb.initial.Named where
  ids := List.nodup_nil
  emails := List.nodup_nil
  events := rfl
  keys := List.nodup_nil
  topics := fun _ h => absurd h List.not_mem_nil

theorem AuthDb.Named.register (h : db.Named) {user : UserRow} {g : RowDefaults}
    (hr : db.register user g = some db') : db'.Named := by
  unfold AuthDb.register at hr
  split at hr
  · cases hr
  · rename_i hkeys
    cases hr
    simp only [not_or] at hkeys
    obtain ⟨hid, hemail, hkey⟩ := hkeys
    have hnames : ∀ us : List UserRow, (us ++ [user]).map (fun u => (u.id, u.email)) =
        us.map (fun u => (u.id, u.email)) ++ [(user.id, user.email)] := fun us => List.map_append
    constructor
    · show (((db.users ++ [user]).map fun u => (u.id, u.email)).map Prod.fst).Nodup
      rw [hnames, List.map_append]
      refine h.ids.append (List.nodup_singleton _) (List.disjoint_singleton.mpr ?_)
      simpa [AuthDb.names] using hid
    · show (((db.users ++ [user]).map fun u => (u.id, u.email)).map Prod.snd).Nodup
      rw [hnames, List.map_append]
      refine h.emails.append (List.nodup_singleton _) (List.disjoint_singleton.mpr ?_)
      simpa [AuthDb.names] using hemail
    · show (db.outbox ++ [_]).map OutboxRecord.user =
        (db.users ++ [user]).map fun u => (u.id, u.email)
      rw [hnames, List.map_append, h.events]
      rfl
    · show ((db.outbox ++ [_]).map OutboxRecord.id).Nodup
      rw [List.map_append]
      exact h.keys.append (List.nodup_singleton _) (List.disjoint_singleton.mpr hkey)
    · intro r hr
      rcases List.mem_append.mp hr with hr | hr
      · exact h.topics r hr
      · rw [List.mem_singleton.mp hr]
        rfl

end

/-! ## a tick of the relay -/

section
variable {π : Type} {correlationId : π → Option String} {maxRetries : Nat}
  {t : List (OutboxRecord π)}

/-- a column that a settled row keeps is kept by the loop -/
theorem loop_map {α : Type} (g : OutboxRecord π → α) (hg : ∀ record x row,
      g (AbstractOutboxProcessor.settle maxRetries record x row) = g row)
    (records : List (OutboxRecord π)) (xs : List PublishResult) (t : List (OutboxRecord π)) :
    (AbstractOutboxProcessor.loop correlationId maxRetries t records xs).1.map g = t.map g := by
  induction records generalizing xs t with
  | nil => rfl
  | cons record records ih =>
    cases xs with
    | nil => rfl
    | cons x xs =>
      simp only [AbstractOutboxProcessor.loop]
      rw [ih, map_updateBy g (hg record x)]

theorem settle_publication (record : OutboxRecord π) (x : PublishResult) (row : OutboxRecord π) :
    (AbstractOutboxProcessor.settle maxRetries record x row).publication correlationId =
      row.publication correlationId := by
  unfold AbstractOutboxProcessor.settle
  cases x.error <;> rfl

/-- a row that the loop leaves behind as published was so before, or is among its publications -/
theorem loop_sent (records : List (OutboxRecord π)) (xs : List PublishResult)
    (hsame : ∀ record ∈ records, ∀ row ∈ t, row.id = record.id →
      row.publication correlationId = record.publication correlationId) :
    ∀ r ∈ (AbstractOutboxProcessor.loop correlationId maxRetries t records xs).1,
      r.status = .published →
      (∃ r₀ ∈ t, r₀.status = .published ∧
        r₀.publication correlationId = r.publication correlationId) ∨
      r.publication correlationId ∈
        (AbstractOutboxProcessor.loop correlationId maxRetries t records xs).2.1 := by
  induction records generalizing xs t with
  | nil => exact fun r hr hs => Or.inl ⟨r, hr, hs, rfl⟩
  | cons record records ih =>
    cases xs with
    | nil => exact fun r hr hs => Or.inl ⟨r, hr, hs, rfl⟩
    | cons x xs =>
      intro r hr hs
      have hnext : ∀ record' ∈ records, ∀ row ∈ updateBy OutboxRecord.id record.id
          (AbstractOutboxProcessor.settle maxRetries record x) t, row.id = record'.id →
          row.publication correlationId = record'.publication correlationId := by
        intro record' hrecord row hrow hid
        obtain ⟨row₀, h₀, ⟨_, rfl⟩ | ⟨_, rfl⟩⟩ := mem_updateBy.mp hrow
        · rw [settle_publication]
          rw [settle_id] at hid
          exact hsame record' (List.mem_cons_of_mem _ hrecord) row₀ h₀ hid
        · exact hsame record' (List.mem_cons_of_mem _ hrecord) row h₀ hid
      rcases ih xs hnext r hr hs with ⟨r₁, h₁, hs₁, hp⟩ | hlater
      · obtain ⟨r₀, h₀, ⟨hid, rfl⟩ | ⟨_, rfl⟩⟩ := mem_updateBy.mp h₁
        · right
          rw [← hp, settle_publication, hsame record List.mem_cons_self r₀ h₀ hid]
          exact List.mem_cons_self
        · exact Or.inl ⟨r₁, h₀, hs₁, hp⟩
      · exact Or.inr (List.mem_cons_of_mem _ hlater)

/-- **What a tick leaves behind as published, it has published**, or an earlier one. -/
theorem processPending_sent (hnd : (t.map OutboxRecord.id).Nodup) (tick : Tick π)
    {r : OutboxRecord π}
    (hr : r ∈ (AbstractOutboxProcessor.processPending correlationId maxRetries tick t).table)
    (hs : r.status = .published) :
    (∃ r₀ ∈ t, r₀.status = .published ∧
      r₀.publication correlationId = r.publication correlationId) ∨
    r.publication correlationId ∈
      (AbstractOutboxProcessor.processPending correlationId maxRetries tick t).published := by
  simp only [AbstractOutboxProcessor.processPending] at hr ⊢
  split at hr
  · refine loop_sent _ _ (fun record hrecord row hrow hid => ?_) r hr hs
    rw [key_inj hnd hrow (selectPending_mem hrecord).1 hid]
  · exact Or.inl ⟨r, hr, hs, rfl⟩

theorem processPending_map {α : Type} (g : OutboxRecord π → α) (hg : ∀ record x row,
      g (AbstractOutboxProcessor.settle maxRetries record x row) = g row) (tick : Tick π) :
    (AbstractOutboxProcessor.processPending correlationId maxRetries tick t).table.map g =
      t.map g := by
  simp only [AbstractOutboxProcessor.processPending]
  split
  · exact loop_map g hg _ _ _
  · rfl

end

/-! ## every step -/

/-- the user has registered under this email -/
def AuthDb.registered (db : AuthDb) (id email : String) : Prop := (id, email) ∈ db.names

theorem AuthDb.Named.registry {db : AuthDb} (h : db.Named) : Registry db.registered where
  email := fun _ _ _ he he' => congrArg Prod.snd (key_inj h.ids he he' rfl)
  user := fun _ _ _ he he' => congrArg Prod.fst (key_inj h.emails he he' rfl)

/-- a row of the outbox is about a user -/
theorem AuthDb.Named.row_user {db : AuthDb} (h : db.Named) {r : OutboxRecord UserRegisteredEvent}
    (hr : r ∈ db.outbox) : r.user ∈ db.names := by
  rw [← h.events]
  exact List.mem_map_of_mem hr

/-- the publication of a row, as the relay of auth-service makes it -/
def OutboxRecord.sent (r : OutboxRecord UserRegisteredEvent) : Publication UserRegisteredEvent :=
  r.publication fun _ => none

structure Signups.Sound (w : Signups) : Prop where
  named : w.auth.db.Named
  users : w.users.Good ProfilesTx.held (ProfilesSound w.auth.db.registered)
    (ProfilesTx.Sound w.auth.db.registered)
  topic : ∀ p ∈ w.topic, p.topic = Topic.userRegistered.text ∧
    (p.payload.userId, p.payload.email) ∈ w.auth.db.names
  sent : ∀ r ∈ w.auth.db.outbox, r.status = .published → r.sent ∈ w.topic

namespace Signups
variable {cfg : AuthConfig} {maxRetries : Nat} {w : Signups}

theorem Sound.init : Signups.init.Sound where
  named := .initial
  users := ⟨⟨List.nodup_nil, fun _ h => absurd h List.not_mem_nil,
    fun _ h => absurd h List.not_mem_nil⟩, fun _ h => absurd h List.not_mem_nil,
    fun i _ _ _ _ hx => by cases hx⟩
  topic := fun _ h => absurd h List.not_mem_nil
  sent := fun _ h => absurd h List.not_mem_nil

/-- a new state of auth-service, with all the users of the old one -/
theorem Sound.withAuth (h : w.Sound) {auth : Pool AuthDb AuthTx} (hnamed : auth.db.Named)
    (hmore : ∀ n ∈ w.auth.db.names, n ∈ auth.db.names)
    (hsent : ∀ r ∈ auth.db.outbox, r.status = .published → r.sent ∈ w.topic) :
    ({ w with auth := auth } : Signups).Sound where
  named := hnamed
  users := ⟨h.users.inv.mono fun id email => hmore (id, email),
    fun c hc => (h.users.loc c hc).mono fun id email => hmore (id, email), h.users.exclusive⟩
  topic := fun p hp => ⟨(h.topic p hp).1, hmore _ (h.topic p hp).2⟩
  sent := hsent

theorem Sound.auth (h : w.Sound) (a : AuthAction) :
    ({ w with auth := AuthPool.step cfg w.auth a } : Signups).Sound := by
  unfold AuthPool.step
  rcases Pool.step_cases AuthTx.called (AuthTx.next cfg) AuthTx.held w.auth a with
    ⟨c, _, heq⟩ | ⟨tx, choice, t, db', t', _, _, hn, heq⟩ | heq
  · rw [heq]
    exact h.withAuth h.named (fun _ hn => hn) h.sent
  · rw [heq]
    rcases names_moves (auth_moves hn) with ⟨hnames, houtbox⟩ | ⟨user, g, hr⟩
    · have hsame : db'.Named := by
        constructor
        · exact hnames ▸ h.named.ids
        · exact hnames ▸ h.named.emails
        · rw [hnames, houtbox]
          exact h.named.events
        · exact houtbox ▸ h.named.keys
        · exact houtbox ▸ h.named.topics
      exact h.withAuth hsame (fun _ hn => hnames ▸ hn) (houtbox ▸ h.sent)
    · refine h.withAuth (h.named.register hr) ?_ ?_
      · obtain ⟨husers, _⟩ := register_some hr
        intro n hn
        show n ∈ db'.users.map _
        rw [husers, List.map_append]
        exact List.mem_append_left _ hn
      · intro r hmem hs
        unfold AuthDb.register at hr
        split at hr
        · cases hr
        · cases hr
          rcases List.mem_append.mp hmem with hmem | hmem
          · exact h.sent r hmem hs
          · rw [List.mem_singleton.mp hmem] at hs
            cases hs
  · rw [heq]
    exact h

theorem Sound.relay (h : w.Sound) (tick : Tick UserRegisteredEvent) :
    (w.relay maxRetries tick).Sound := by
  have hcolumn : ∀ {α : Type} (g : OutboxRecord UserRegisteredEvent → α), (∀ record x row,
      g (AbstractOutboxProcessor.settle maxRetries record x row) = g row) →
      (w.relay maxRetries tick).auth.db.outbox.map g = w.auth.db.outbox.map g :=
    fun g hg => processPending_map g hg tick
  have hpublished : ∀ p ∈ (w.relay maxRetries tick).topic, p ∈ w.topic ∨
      ∃ r ∈ w.auth.db.outbox, p = r.sent :=
    fun p hp => (List.mem_append.mp hp).imp_right published_of_row
  refine ⟨⟨h.named.ids, h.named.emails, ?_, ?_, ?_⟩, h.users, ?_, ?_⟩
  · rw [hcolumn OutboxRecord.user fun record x row => ?_]
    · exact h.named.events
    · unfold AbstractOutboxProcessor.settle
      cases x.error <;> rfl
  · rw [hcolumn OutboxRecord.id settle_id]
    exact h.named.keys
  · intro r hr
    have hmem := List.mem_map_of_mem (f := OutboxRecord.topic) hr
    rw [hcolumn OutboxRecord.topic fun record x row => by
      unfold AbstractOutboxProcessor.settle
      cases x.error <;> rfl] at hmem
    obtain ⟨r₀, h₀, he⟩ := List.mem_map.mp hmem
    exact he.symm.trans (h.named.topics r₀ h₀)
  · intro p hp
    rcases hpublished p hp with hp | ⟨r, hr, rfl⟩
    · exact h.topic p hp
    · exact ⟨h.named.topics r hr, h.named.row_user hr⟩
  · intro r hr hs
    rcases processPending_sent h.named.keys tick hr hs with ⟨r₀, h₀, hs₀, he⟩ | hnow
    · have hsame : r₀.sent = r.sent := he
      exact List.mem_append_left _ (hsame ▸ h.sent r₀ h₀ hs₀)
    · exact List.mem_append_right _ hnow

theorem Sound.withUsers (h : w.Sound) (a : ProfilesAction)
    (ha : ∀ e, a = .start e → Asked w.auth.db.registered e) :
    ({ w with users := ProfilesPool.step w.users a } : Signups).Sound where
  named := h.named
  users := (stable_profiles _ h.named.registry).step h.users a ha (Pool.allows_true _ a)
  topic := h.topic
  sent := h.sent

theorem Sound.step (h : w.Sound) (a : SignupAction) : (w.step cfg maxRetries a).Sound := by
  cases a with
  | auth a => exact h.auth a
  | relay tick => exact h.relay tick
  | deliver index =>
    simp only [Signups.step]
    split
    · rename_i p hp
      obtain ⟨htopic, hname⟩ := h.topic p (List.mem_of_getElem? hp)
      rw [Signups.deliver, if_pos htopic]
      refine h.withUsers _ fun e he => ?_
      cases he
      exact hname
    · exact h
  | request id call =>
    cases call with
    | createProfile email => exact h
    | _ =>
      refine h.withUsers _ fun e he => ?_
      cases he
      trivial
  | access tx choice now => exact h.withUsers _ fun e he => by cases he

variable (cfg maxRetries) in
theorem Sound.run (h : w.Sound) (as : List SignupAction) :
    (Lib.run (Signups.step cfg maxRetries) w as).Sound :=
  invariant_run _ (fun _ a h => h.step a) w as h

end Signups

/-! ## the profiles -/

/-- **The profiles are those of registered users**: at most one for each, under the email that the
user has registered, whatever calls, deliveries and ticks of the relay come between.  No save finds
its email taken, a call of `createProfile` that has returned has its profile, and when every event
has been published and handled, every user has one. -/
theorem profiles_agree (cfg : AuthConfig) (maxRetries : Nat) (as : List SignupAction) :
    let w := run (Signups.step cfg maxRetries) Signups.init as
    (w.auth.db.names.map Prod.fst).Nodup ∧ (w.auth.db.names.map Prod.snd).Nodup ∧
    (w.profiles.map Profile.user).Subperm w.auth.db.names ∧
    (∀ c ∈ w.users.txs, ∀ s, ProfilesTx.object c = some s →
      ∀ p ∈ w.profiles, p.email = s.email → p.id = s.id) ∧
    (∀ id email, (id, .createProfile email) ∈ w.users.db.returned →
      (id, email) ∈ w.profiles.map Profile.user) ∧
    (w.settled → (w.profiles.map Profile.user).Perm w.auth.db.names) := by
  intro w
  have h : w.Sound := Signups.Sound.init.run cfg maxRetries as
  have hreg := h.named.registry
  have hprofiles := h.users.inv
  have hnodup : (w.profiles.map Profile.user).Nodup :=
    .of_map Prod.fst (by rw [List.map_map]; exact hprofiles.ids)
  have hsub : ∀ n ∈ w.profiles.map Profile.user, n ∈ w.auth.db.names := by
    intro n hn
    obtain ⟨p, hp, rfl⟩ := List.mem_map.mp hn
    exact hprofiles.registered p hp
  have hreturned : ∀ id email, (id, .createProfile email) ∈ w.users.db.returned →
      (id, email) ∈ w.profiles.map Profile.user := by
    intro id email he
    obtain ⟨hasked, hmem⟩ := hprofiles.returned _ he
    obtain ⟨p, hp, hid⟩ := List.mem_map.mp hmem
    have hid : p.id = id := hid
    have hemail : p.email = email :=
      hreg.email id _ _ (hid ▸ hprofiles.registered p hp) hasked
    exact List.mem_map.mpr ⟨p, hp, Prod.ext hid hemail⟩
  refine ⟨h.named.ids, h.named.emails, List.subperm_of_subset hnodup hsub,
    fun c hc s hs p hp => (h.users.loc c hc).spares_email hreg hprofiles hs hp, hreturned, ?_⟩
  intro hsettled
  refine (List.perm_ext_iff_of_nodup hnodup (.of_map Prod.fst h.named.ids)).mpr fun n =>
    ⟨hsub n, fun hn => ?_⟩
  rw [← h.named.events] at hn
  obtain ⟨r, hr, rfl⟩ := List.mem_map.mp hn
  exact hreturned _ _ (hsettled.2 r.sent (h.sent r hr (hsettled.1 r hr)))

/-! ## the queue of the relay -/

section
variable {π : Type} (t : List (OutboxRecord π)) (r : OutboxRecord π)

/-- a tick of the only relay, at which every publication succeeds -/
def Tick.clear {π : Type} (now : Nat) : Tick π where
  now := now
  locked := []
  order := .stored _
  results := List.replicate 10 ⟨none, now⟩
  commits := true

/-- the rows that are due no later than `r` -/
def dueWith : List (OutboxRecord π) := t.filter (OutboxRecord.due r.scheduledAt)

def OutboxRecord.markSent (now : Nat) (row : OutboxRecord π) : OutboxRecord π :=
  { row with status := .published, publishedAt := some now }

/-- the rows with these ids published -/
def markAll (now : Nat) (ids : List String) : List (OutboxRecord π) :=
  t.map fun row => if row.id ∈ ids then row.markSent now else row

variable {t r} {now : Nat}

/-- **The ten earliest rows are selected**: a row that is not among them has ten rows before it. -/
theorem selectPending_clear (hr : r ∈ t) (hpending : r.status = .pending)
    (hnow : r.scheduledAt ≤ now) :
    r ∈ selectPending (.stored _) now [] t ∨
      (selectPending (.stored _) now [] t).length = 10 ∧
        ∀ x ∈ selectPending (.stored _) now [] t, x ∈ dueWith t r := by
  let earlier : OutboxRecord π → OutboxRecord π → Prop := fun x y => x.scheduledAt ≤ y.scheduledAt
  let l := (t.filter fun x => x.due now && decide (x.id ∉ ([] : List String))).insertionSort earlier
  have hmem : r ∈ l := by
    refine (List.perm_insertionSort earlier _).mem_iff.mpr (List.mem_filter.mpr ⟨hr, ?_⟩)
    simp [OutboxRecord.due, hpending, hnow]
  have hsorted : l.Pairwise earlier := by
    have htotal : Std.Total earlier := ⟨fun a b => Nat.le_total _ _⟩
    have htrans : IsTrans _ earlier := ⟨fun a b c hab hbc => Nat.le_trans hab hbc⟩
    exact List.pairwise_insertionSort _ _
  show r ∈ l.take 10 ∨ (l.take 10).length = 10 ∧ ∀ x ∈ l.take 10, x ∈ dueWith t r
  rw [← List.take_append_drop 10 l] at hmem hsorted
  rcases List.mem_append.mp hmem with h | h
  · exact Or.inl h
  · refine Or.inr ⟨?_, fun x hx => ?_⟩
    · have hpos := List.length_pos_of_mem h
      rw [List.length_drop] at hpos
      rw [List.length_take]
      omega
    · have hle : x.scheduledAt ≤ r.scheduledAt := (List.pairwise_append.mp hsorted).2.2 x hx r h
      have hx : x ∈ selectPending (.stored _) now [] t := hx
      obtain ⟨hxt, hs, _, _⟩ := selectPending_mem hx
      refine List.mem_filter.mpr ⟨hxt, ?_⟩
      simp [OutboxRecord.due, hs, hle]

variable (now) in
/-- publications that all succeed -/
theorem loop_clear (correlationId : π → Option String) (maxRetries : Nat)
    (records : List (OutboxRecord π)) {n : Nat} (hn : records.length ≤ n)
    (t : List (OutboxRecord π)) :
    AbstractOutboxProcessor.loop correlationId maxRetries t records
        (List.replicate n ⟨none, now⟩) =
      (markAll t now (records.map OutboxRecord.id),
        records.map (OutboxRecord.publication correlationId), true) := by
  induction records generalizing n t with
  | nil =>
    have hsame : markAll t now [] = t := by
      unfold markAll
      rw [List.map_congr_left fun row _ => if_neg List.not_mem_nil, List.map_id']
    rw [List.map_nil, List.map_nil, hsame]
    cases n <;> rfl
  | cons record records ih =>
    obtain ⟨n, rfl⟩ : ∃ m, n = m + 1 := ⟨n - 1, by rw [List.length_cons] at hn; omega⟩
    rw [List.length_cons] at hn
    rw [List.replicate_succ]
    simp only [AbstractOutboxProcessor.loop]
    rw [ih (by omega)]
    refine Prod.ext ?_ rfl
    show markAll (updateBy OutboxRecord.id record.id (OutboxRecord.markSent now) t) now _ = _
    unfold markAll updateBy
    rw [List.map_map]
    refine List.map_congr_left fun row _ => ?_
    by_cases he : row.id = record.id
    · by_cases hin : row.id ∈ records.map OutboxRecord.id <;>
        simp [he, OutboxRecord.markSent]
    · simp [he]

variable (now) in
/-- what such a tick does -/
theorem processPending_clear (correlationId : π → Option String) (maxRetries : Nat)
    (t : List (OutboxRecord π)) :
    let selected := selectPending (.stored _) now [] t
    let result := AbstractOutboxProcessor.processPending correlationId maxRetries (.clear now) t
    result.table = markAll t now (selected.map OutboxRecord.id) ∧
    result.published = selected.map (OutboxRecord.publication correlationId) := by
  intro selected result
  have hlen : selected.length ≤ 10 := List.length_take_le 10 _
  have hloop := loop_clear now correlationId maxRetries selected hlen t
  simp only [result, AbstractOutboxProcessor.processPending]
  rw [show AbstractOutboxProcessor.loop correlationId maxRetries t
    (selectPending (Tick.clear (π := π) now).order (Tick.clear (π := π) now).now
      (Tick.clear (π := π) now).locked t) (Tick.clear (π := π) now).results = _ from hloop]
  exact ⟨rfl, rfl⟩

theorem dueWith_markAll (t : List (OutboxRecord π)) (ids : List String) :
    dueWith (markAll t now ids) r = (dueWith t r).filter fun x => !decide (x.id ∈ ids) := by
  induction t with
  | nil => rfl
  | cons row t ih =>
    show List.filter _ ((if row.id ∈ ids then row.markSent now else row) :: markAll t now ids) =
      List.filter _ (List.filter _ (row :: t))
    have ih : List.filter _ (markAll t now ids) = List.filter _ (List.filter _ t) := ih
    by_cases hin : row.id ∈ ids
    · rw [if_pos hin, List.filter_cons_of_neg (by simp [OutboxRecord.due, OutboxRecord.markSent]), ih]
      by_cases hdue : row.due r.scheduledAt = true
      · rw [List.filter_cons_of_pos hdue, List.filter_cons_of_neg (by simp [hin])]
      · rw [List.filter_cons_of_neg hdue]
    · rw [if_neg hin]
      by_cases hdue : row.due r.scheduledAt = true
      · rw [List.filter_cons_of_pos hdue, List.filter_cons_of_pos hdue,
          List.filter_cons_of_pos (by simp [hin]), ih]
      · rw [List.filter_cons_of_neg hdue, List.filter_cons_of_neg hdue, ih]

variable (now) in
/-- **A row that is not selected moves up**, by as many places as rows are. -/
theorem dueWith_clear {ids : List String} (hids : ids.Nodup)
    (hdue : ∀ id ∈ ids, id ∈ (dueWith t r).map OutboxRecord.id) :
    (dueWith (markAll t now ids) r).length + ids.length ≤ (dueWith t r).length := by
  have hsub : ids ⊆ ((dueWith t r).filter fun x => decide (x.id ∈ ids)).map OutboxRecord.id := by
    intro id hid
    obtain ⟨x, hx, rfl⟩ := List.mem_map.mp (hdue id hid)
    exact List.mem_map_of_mem (List.mem_filter.mpr ⟨hx, decide_eq_true hid⟩)
  have hle := (List.subperm_of_subset hids hsub).length_le
  rw [List.length_map] at hle
  have hsplit := List.length_eq_length_filter_add (l := dueWith t r) fun x => decide (x.id ∈ ids)
  rw [dueWith_markAll]
  omega

/-- a row that is not among the ids stays as it is -/
theorem mem_markAll {ids : List String} (hr : r ∈ t) (hid : r.id ∉ ids) :
    r ∈ markAll t now ids :=
  List.mem_map.mpr ⟨r, hr, if_neg hid⟩

end

namespace Signups
variable {cfg : AuthConfig} {maxRetries : Nat} {w : Signups}

variable (cfg maxRetries) in
/-- **A pending row is published in its turn**: the number of ticks is that of the rows that are due
no later, in tens. -/
theorem Sound.published_in_turn {r : OutboxRecord UserRegisteredEvent} (hpending : r.status = .pending)
    {now : Nat} (hnow : r.scheduledAt ≤ now) (k : Nat) (h : w.Sound) (hr : r ∈ w.auth.db.outbox)
    (hk : (dueWith w.auth.db.outbox r).length ≤ k) :
    ∃ n, 10 * n < k + 10 ∧ r.sent ∈
      (Lib.run (Signups.step cfg maxRetries) w (List.replicate n (.relay (.clear now)))).topic := by
  induction k using Nat.strong_induction_on generalizing w with
  | h k ih =>
    have hpos : 0 < (dueWith w.auth.db.outbox r).length :=
      List.length_pos_of_mem (List.mem_filter.mpr ⟨hr, by simp [OutboxRecord.due, hpending]⟩)
    obtain ⟨htable, hpublished⟩ := processPending_clear now
      (fun _ : UserRegisteredEvent => none) maxRetries w.auth.db.outbox
    by_cases hmem : r ∈ selectPending (.stored _) now [] w.auth.db.outbox
    · refine ⟨1, by omega, ?_⟩
      show r.sent ∈ w.topic ++ (AbstractOutboxProcessor.processPending _ _ _ _).published
      rw [hpublished]
      exact List.mem_append_right _ (List.mem_map_of_mem hmem)
    · -- the first tick publishes ten rows, all of them before this one
      obtain ⟨hten, hbefore⟩ := (selectPending_clear hr hpending hnow).resolve_left hmem
      let w' := w.step cfg maxRetries (.relay (.clear now))
      have houtbox : w'.auth.db.outbox = markAll w.auth.db.outbox now
          ((selectPending (.stored _) now [] w.auth.db.outbox).map OutboxRecord.id) := htable
      have hstays : r.id ∉ (selectPending (.stored _) now [] w.auth.db.outbox).map
          OutboxRecord.id := by
        intro hin
        obtain ⟨x, hx, hid⟩ := List.mem_map.mp hin
        exact hmem (key_inj h.named.keys (selectPending_mem hx).1 hr hid ▸ hx)
      have hfewer := dueWith_clear now (t := w.auth.db.outbox) (r := r)
        (selectPending_nodup (.stored _) now [] h.named.keys) fun id hid => by
          obtain ⟨x, hx, rfl⟩ := List.mem_map.mp hid
          exact List.mem_map_of_mem (hbefore x hx)
      rw [← houtbox, List.length_map, hten] at hfewer
      obtain ⟨n, hn, hsent⟩ := ih (k - 10) (by omega) (w := w') (h.step _)
        (houtbox ▸ mem_markAll hr hstays) (by omega)
      refine ⟨n + 1, by omega, ?_⟩
      rw [List.replicate_succ, run_cons]
      exact hsent

variable (cfg maxRetries) in
/-- a row that has not been given up gets to the topic -/
theorem Sound.reaches_topic (h : w.Sound) {r : OutboxRecord UserRegisteredEvent}
    (hr : r ∈ w.auth.db.outbox) (hs : r.status ≠ .failed) {now : Nat}
    (hnow : r.scheduledAt ≤ now) :
    ∃ n, 10 * n < (dueWith w.auth.db.outbox r).length + 10 ∧ r.sent ∈
      (Lib.run (Signups.step cfg maxRetries) w (List.replicate n (.relay (.clear now)))).topic := by
  cases hstatus : r.status with
  | failed => exact absurd hstatus hs
  | published => exact ⟨0, by omega, h.sent r hr hstatus⟩
  | pending => exact h.published_in_turn cfg maxRetries hstatus hnow _ hr (Nat.le_refl _)

/-- the accesses of the calls under way are those of their pool -/
theorem run_accesses (order : List Nat) (now : Nat) (w : Signups) :
    Lib.run (Signups.step cfg maxRetries) w (order.map fun i => .access i .go now) =
      { w with users :=
          Lib.run ProfilesPool.step w.users (order.map fun i => .access i (.go, now)) } := by
  induction order generalizing w with
  | nil => rfl
  | cons i order ih =>
    rw [List.map_cons, run_cons, List.map_cons, run_cons, ih]
    rfl

/-- a delivery, and accesses of the calls under way -/
def delivering (index : Nat) (order : List Nat) (now : Nat) : List SignupAction :=
  .deliver index :: order.map fun tx => .access tx .go now

variable (cfg maxRetries) in
/-- an event on the topic brings its profile -/
theorem Sound.delivers (h : w.Sound) {p : Publication UserRegisteredEvent} (hp : p ∈ w.topic)
    (now : Nat) :
    ∃ index order, order.length ≤ 4 ∧ (p.payload.userId, p.payload.email) ∈
      (Lib.run (Signups.step cfg maxRetries) w (delivering index order now)).profiles.map
        Profile.user := by
  obtain ⟨i, hi⟩ := List.mem_iff_getElem?.mp hp
  have hstep : w.step cfg maxRetries (.deliver i) = w.deliver p := by
    simp only [Signups.step, hi]
  have hnext : (w.deliver p).Sound := hstep ▸ h.step (.deliver i)
  have hlast : (w.deliver p).users.txs[w.users.txs.length]? =
      some (.finding (p.payload.userId, .createProfile p.payload.email)) := by
    rw [Signups.deliver, if_pos (h.topic p hp).1]
    exact List.getElem?_concat_length
  obtain ⟨order, hlen, hdone⟩ := profile_finishes hnext.named.registry hnext.users hlast now
  refine ⟨i, order, hlen, ?_⟩
  have hend := h.run cfg maxRetries (delivering i order now)
  unfold delivering at hend ⊢
  rw [run_cons, hstep, run_accesses] at hend ⊢
  obtain ⟨q, hq, hid⟩ := List.mem_map.mp hdone
  have hid : q.id = p.payload.userId := hid
  have hauth : (w.deliver p).auth = w.auth := by
    rw [Signups.deliver, if_pos (h.topic p hp).1]
  have hname : (p.payload.userId, p.payload.email) ∈ (w.deliver p).auth.db.names :=
    hauth ▸ (h.topic p hp).2
  have hemail : q.email = p.payload.email :=
    hend.named.registry.email q.id _ _ (hend.users.inv.registered q hq) (hid ▸ hname)
  exact List.mem_map.mpr ⟨q, hq, Prod.ext hid hemail⟩

end Signups

/-- **A profile can always be reached.**  Whatever has happened, a user whose event the relay has not
given up can be given the profile, from the time at which the event is due, by ticks of one relay
that can publish, one delivery, and at most four accesses of the calls that are under way.  There is
one tick for every ten rows that are due no later than the event, and one for those left over. -/
theorem profile_reachable (cfg : AuthConfig) (maxRetries : Nat) (as : List SignupAction)
    (r : OutboxRecord UserRegisteredEvent)
    (hr : r ∈ (run (Signups.step cfg maxRetries) Signups.init as).auth.db.outbox)
    (hs : r.status ≠ .failed) (now : Nat) (hnow : r.scheduledAt ≤ now) :
    ∃ n index order, 10 * n < (dueWith (run (Signups.step cfg maxRetries) Signups.init
        as).auth.db.outbox r).length + 10 ∧ order.length ≤ 4 ∧
      r.user ∈ (run (Signups.step cfg maxRetries) Signups.init
        (as ++ List.replicate n (.relay (.clear now)) ++
          Signups.delivering index order now)).profiles.map Profile.user := by
  have h : (run (Signups.step cfg maxRetries) Signups.init as).Sound :=
    Signups.Sound.init.run cfg maxRetries as
  obtain ⟨n, hn, htopic⟩ := h.reaches_topic cfg maxRetries hr hs hnow
  obtain ⟨index, order, horder, hdone⟩ :=
    (h.run cfg maxRetries (List.replicate n (.relay (.clear now)))).delivers cfg maxRetries htopic now
  refine ⟨n, index, order, hn, horder, ?_⟩
  rw [run_append, run_append]
  exact hdone

/-- one user, whose event is still in the outbox -/
def signedUp : List SignupAction := AuthAction.signUp.map .auth

def signUpEvent : OutboxRecord UserRegisteredEvent :=
  .write ⟨.sample '0', 0⟩ (Uuid.sample '9').val Topic.userRegistered.text (Uuid.sample '9').val
    ⟨(Uuid.sample '9').val, "eve@example.com"⟩

theorem profile_reachable_first :
    ∃ n index order, 10 * n < (dueWith (run (Signups.step .sample 5) Signups.init
        signedUp).auth.db.outbox signUpEvent).length + 10 ∧ order.length ≤ 4 ∧
      signUpEvent.user ∈ (run (Signups.step .sample 5) Signups.init
        (signedUp ++ List.replicate n (.relay (.clear 7)) ++
          Signups.delivering index order 7)).profiles.map Profile.user :=
  profile_reachable .sample 5 signedUp signUpEvent (by decide +kernel) (by decide) 7 (by decide)

end Shop
