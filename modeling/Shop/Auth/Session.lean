import Shop.Auth.Rotation

/-!
# The end of a session

`logout` takes the stored hash out of the user's row.  A call that has read the user before, or a
login that has yet to read, puts another one in.

* `AuthTx.opens`         the calls that will still write a token of the user;
* `SessionEnded u p q`   the session that the user had in `p` is over in `q`;
* `SignedOut`            what holds after the logout until a later login returns;
* `ended_moves`          what one access does to it;
* `logout_ends_iff`      a logout ends the session exactly if no call that opens it is under way;
* `logout_straddled`     a refresh that reads before the logout and writes after it.
-/

set_option linter.unusedSectionVars false

namespace Shop
open Lib

/-- the calls that issue tokens to whom presents no token -/
def AuthCall.opens : AuthCall → Bool
  | .register _ => true
  | .login _ => true
  | _ => false

/-- a call that will still write a token of the user: it has read already, or it is a login that has
not, with credentials that are valid -/
def AuthTx.opens (cfg : AuthConfig) (db : AuthDb) (u : String) : AuthTx → Bool
  | .issuing _ user => decide (user.id = u)
  | .called (.login input) => (db.findByCredentials cfg input).any fun user => decide (user.id = u)
  | _ => false

/-- a login or a registration of the user, among the calls from the `n`-th on, has returned -/
def Reopened (n : Nat) (u : String) (q : Pool AuthDb AuthTx) : Prop :=
  ∃ k call result, n ≤ k ∧ q.txs[k]? = some (.returned call result) ∧ call.opens = true ∧
    result.userId = u

/-- The session that the user had in `p` is over in `q`: unless a call that started since has opened
another one, there is no stored token, and no refresh of the user has returned since. -/
def SessionEnded (u : String) (p q : Pool AuthDb AuthTx) : Prop :=
  Reopened p.txs.length u q ∨
    (∀ r ∈ q.db.users, r.id = u → r.refreshToken = none) ∧
      ∀ (j : Nat) token result, q.txs[j]? = some (.returned (.refresh token) result) →
        result.userId = u → p.txs[j]? = some (.returned (.refresh token) result)

section
variable {cfg : AuthConfig} {u : String}

/-- what holds after the logout as long as the user has not come back; `p` is the state before it -/
structure SignedOut (cfg : AuthConfig) (u : String) (p q : Pool AuthDb AuthTx) : Prop where
  rows : ∀ r ∈ q.db.users, r.id = u → r.refreshToken = none
  earlier : ∀ (j : Nat) tx, j < p.txs.length → q.txs[j]? = some tx → tx.opens cfg q.db u = false
  issuing : ∀ (j : Nat) call user, q.txs[j]? = some (.issuing call user) → user.id = u →
    call.opens = true
  exchanged : ∀ (j : Nat) token result, q.txs[j]? = some (.returned (.refresh token) result) →
    result.userId = u → p.txs[j]? = some (.returned (.refresh token) result)

/-- the credentials of a user do not change with the tokens -/
theorem findByCredentials_setToken (db : AuthDb) (id : String) (refreshToken : Option String)
    (input : LoginInput) : (db.setToken id refreshToken).findByCredentials cfg input =
      (db.findByCredentials cfg input).map fun r =>
        if r.id = id then { r with refreshToken := refreshToken } else r := by
  show Option.filter _ (List.find? _ (List.map _ db.users)) = _
  rw [List.find?_map]
  have hsame : ((fun r : UserRow => decide (r.email = input.email) && r.isActive) ∘ fun r =>
      if r.id = id then { r with refreshToken := refreshToken } else r) =
      fun r => decide (r.email = input.email) && r.isActive := by
    funext r
    by_cases h : r.id = id <;> simp [h]
  rw [hsame]
  unfold AuthDb.findByCredentials
  cases db.users.find? fun r => decide (r.email = input.email) && r.isActive with
  | none => rfl
  | some r => by_cases h : r.id = id <;> simp [Option.filter, h]

theorem opens_setToken {db : AuthDb} (id : String) (refreshToken : Option String) {x : AuthTx}
    (h : x.opens cfg db u = false) : x.opens cfg (db.setToken id refreshToken) u = false := by
  cases x with
  | called call =>
    cases call with
    | login input =>
      simp only [AuthTx.opens, findByCredentials_setToken] at h ⊢
      cases hf : db.findByCredentials cfg input with
      | none => rfl
      | some r =>
        simp only [hf, Option.any_some, Option.map_some] at h ⊢
        by_cases hid : r.id = id <;> simpa [hid] using h
    | _ => rfl
  | issuing call user => exact h
  | _ => rfl

theorem opens_register {db db' : AuthDb} {user : UserRow} {g : RowDefaults}
    (hr : db.register user g = some db') (hu : u ∈ db.users.map UserRow.id) {x : AuthTx}
    (h : x.opens cfg db u = false) : x.opens cfg db' u = false := by
  obtain ⟨husers, _, hid, _⟩ := register_some hr
  have hne : user.id ≠ u := fun e => hid (e ▸ hu)
  cases x with
  | called call =>
    cases call with
    | login input =>
      simp only [AuthTx.opens, AuthDb.findByCredentials, husers, List.find?_append] at h ⊢
      cases hf : db.users.find? fun r => decide (r.email = input.email) && r.isActive with
      | some r => simpa [hf] using h
      | none =>
        simp only [Option.none_or, List.find?_cons, List.find?_nil]
        split
        · by_cases hc : cfg.compare input.password user.passwordHash = true <;>
            simp [Option.filter, hc, hne]
        · rfl
    | _ => rfl
  | issuing call user => exact h
  | _ => rfl

/-- what is true of the table and of a call that is about to write stays true -/
theorem opens_moves {choice : AuthChoice} {db db' : AuthDb} {t t' x : AuthTx}
    (hm : AuthTx.Moves cfg choice db t db' t') (hu : u ∈ db.users.map UserRow.id)
    (h : x.opens cfg db u = false) : x.opens cfg db' u = false := by
  cases hm with
  | register input id salt g _ hr => exact opens_register hr hu h
  | logout userId message => exact opens_setToken userId none h
  | issue call user jti now _ =>
    have hset := opens_setToken user.id
      (some (cfg.hashToken (issueTokens cfg user jti now).refreshToken)) h
    cases x with
    | called call => cases call <;> exact hset
    | _ => exact hset
  | _ => exact h

theorem users_setToken {db : AuthDb} (hu : u ∈ db.users.map UserRow.id) (id : String)
    (refreshToken : Option String) : u ∈ (db.setToken id refreshToken).users.map UserRow.id := by
  have hids : (db.setToken id refreshToken).users.map UserRow.id = db.users.map UserRow.id :=
    map_updateBy (f := fun r => { r with refreshToken := refreshToken }) UserRow.id
      (fun _ => rfl) db.users
  rw [hids]
  exact hu

/-- users are never deleted -/
theorem users_moves {choice : AuthChoice} {db db' : AuthDb} {t t' : AuthTx}
    (hm : AuthTx.Moves cfg choice db t db' t') (hu : u ∈ db.users.map UserRow.id) :
    u ∈ db'.users.map UserRow.id := by
  cases hm with
  | register input id salt g _ hr =>
    rw [(register_some hr).1, List.map_append]
    exact List.mem_append_left _ hu
  | logout userId message => exact users_setToken hu userId none
  | issue call user jti now _ => exact users_setToken hu user.id _
  | _ => exact hu

/-- One access while the session is over: it opens a new one, or it leaves no token, comes to no
refresh of the user, and will open none if it would not have before. -/
theorem ended_moves {choice : AuthChoice} {db db' : AuthDb} {t t' : AuthTx}
    (hm : AuthTx.Moves cfg choice db t db' t') (hu : u ∈ db.users.map UserRow.id)
    (hrows : ∀ r ∈ db.users, r.id = u → r.refreshToken = none)
    (hissuing : ∀ call user, t = .issuing call user → user.id = u → call.opens = true) :
    (t.opens cfg db u = true ∧ ∃ call result, t' = .returned call result ∧ call.opens = true ∧
      result.userId = u) ∨
    (∀ r ∈ db'.users, r.id = u → r.refreshToken = none) ∧
    (t.opens cfg db u = false → t'.opens cfg db' u = false) ∧
    (∀ call user, t' = .issuing call user → user.id = u → call.opens = true) ∧
    ∀ token result, t' = .returned (.refresh token) result → result.userId ≠ u := by
  cases hm with
  | register input id salt g _ hr =>
    obtain ⟨husers, _, hid, _⟩ := register_some hr
    have hne : (newUser cfg input id salt).id ≠ u := fun e => hid (e ▸ hu)
    refine Or.inr ⟨fun r hr' hru => ?_, fun _ => decide_eq_false hne, fun call user e _ => ?_,
      fun _ _ => nofun⟩
    · rw [husers] at hr'
      rcases List.mem_append.mp hr' with hold | hnew
      · exact hrows r hold hru
      · rw [List.mem_singleton.mp hnew]
        rfl
    · cases e
      rfl
  | login input user hf =>
    refine Or.inr ⟨hrows, fun h => ?_, fun call user' e _ => ?_, fun _ _ => nofun⟩
    · simpa [AuthTx.opens, hf] using h
    · cases e
      rfl
  | refresh token sub user hf =>
    obtain ⟨hmem, _, htoken⟩ := findByToken_some hf
    -- the user of a refresh has a stored token, so it is another one
    have hne : user.id ≠ u := fun e => nomatch (hrows user hmem e).symm.trans htoken
    refine Or.inr ⟨hrows, fun _ => decide_eq_false hne, fun call user' e hid => ?_,
      fun _ _ => nofun⟩
    cases e
    exact absurd hid hne
  | logout userId message =>
    refine Or.inr ⟨fun r hr hru => ?_, fun _ => rfl, fun _ _ => nofun, fun _ _ => nofun⟩
    obtain ⟨r₀, hr₀, ⟨_, rfl⟩ | ⟨_, rfl⟩⟩ := mem_setToken.mp hr
    · rfl
    · exact hrows r hr₀ hru
  | issue call user jti now _ =>
    by_cases hid : user.id = u
    · exact Or.inl ⟨decide_eq_true hid, call, _, rfl, hissuing call user rfl hid, hid⟩
    · refine Or.inr ⟨fun r hr hru => ?_, fun _ => rfl, fun _ _ => nofun, fun _ _ e => ?_⟩
      · rcases mem_issue hr with ⟨hru', _⟩ | ⟨hold, _⟩
        · exact absurd (hru'.symm.trans hru) hid
        · exact hrows r hold hru
      · cases e
        exact hid
  | refuse call error => exact Or.inr ⟨hrows, fun _ => rfl, fun _ _ => nofun, fun _ _ => nofun⟩
  | fail call user error => exact Or.inr ⟨hrows, fun _ => rfl, fun _ _ => nofun, fun _ _ => nofun⟩

/-- the state of the run after the logout -/
structure AfterLogout (cfg : AuthConfig) (u : String) (p q : Pool AuthDb AuthTx) : Prop where
  user : u ∈ q.db.users.map UserRow.id
  length : p.txs.length ≤ q.txs.length
  ended : Reopened p.txs.length u q ∨ SignedOut cfg u p q

theorem getElem_set {txs : List AuthTx} {i j : Nat} {t' x : AuthTx}
    (h : (txs.set i t')[j]? = some x) : (j = i ∧ x = t') ∨ (j ≠ i ∧ txs[j]? = some x) := by
  rw [List.getElem?_set] at h
  by_cases hij : i = j
  · rw [if_pos hij] at h
    split at h
    · cases h
      exact Or.inl ⟨hij.symm, rfl⟩
    · cases h
  · rw [if_neg hij] at h
    exact Or.inr ⟨fun e => hij e.symm, h⟩

/-- a new call is not among the earlier ones -/
theorem AfterLogout.called {p q : Pool AuthDb AuthTx} (h : AfterLogout cfg u p q) (c : AuthCall) :
    AfterLogout cfg u p ⟨q.db, q.txs ++ [.called c]⟩ := by
  have hlen := h.length
  have hget : ∀ (j : Nat) x, (q.txs ++ [AuthTx.called c])[j]? = some x →
      q.txs[j]? = some x ∨ (x = .called c ∧ q.txs.length ≤ j) := by
    intro j x hx
    rw [List.getElem?_append] at hx
    split at hx
    · exact Or.inl hx
    · exact Or.inr ⟨List.mem_singleton.mp (List.mem_of_getElem? hx), by omega⟩
  refine ⟨h.user, Nat.le_trans hlen (by simp), ?_⟩
  rcases h.ended with ⟨k, call, result, hk, hret, hopens, hid⟩ | hended
  · refine Or.inl ⟨k, call, result, hk, ?_, hopens, hid⟩
    rw [List.getElem?_append_left (List.getElem?_eq_some_iff.mp hret).1]
    exact hret
  · refine Or.inr ⟨hended.rows, fun j x hj hx => ?_, fun j call user hx hid => ?_,
      fun j token result hx hid => ?_⟩
    · rcases hget j x hx with hx | ⟨_, hle⟩
      · exact hended.earlier j x hj hx
      · omega
    · rcases hget j _ hx with hx | ⟨e, _⟩
      · exact hended.issuing j call user hx hid
      · cases e
    · rcases hget j _ hx with hx | ⟨e, _⟩
      · exact hended.exchanged j token result hx hid
      · cases e

/-- one access: a call that started since opens a new session, or the old one stays over -/
theorem AfterLogout.accessed {p q : Pool AuthDb AuthTx} (h : AfterLogout cfg u p q) {i : Nat}
    {choice : AuthChoice} {t t' : AuthTx} {db' : AuthDb} (ht : q.txs[i]? = some t)
    (hm : AuthTx.Moves cfg choice q.db t db' t') : AfterLogout cfg u p ⟨db', q.txs.set i t'⟩ := by
  have hi := (List.getElem?_eq_some_iff.mp ht).1
  refine ⟨users_moves hm h.user, by simpa using h.length, ?_⟩
  rcases h.ended with ⟨k, call, result, hk, hret, hopens, hid⟩ | hended
  · -- a call that has returned makes no access
    have hne : k ≠ i := by
      rintro rfl
      rw [ht] at hret
      cases hret
      cases hm
    refine Or.inl ⟨k, call, result, hk, ?_, hopens, hid⟩
    rw [List.getElem?_set_ne (fun e => hne e.symm)]
    exact hret
  · rcases ended_moves hm h.user hended.rows
      (fun call user e => hended.issuing i call user (e ▸ ht))
      with ⟨hopen, call, result, rfl, hopens, hid⟩ | ⟨hrows, hown, hissuing, hexchanged⟩
    · have hlater : p.txs.length ≤ i := by
        by_contra hlt
        rw [hended.earlier i t (by omega) ht] at hopen
        cases hopen
      exact Or.inl ⟨i, call, result, hlater, List.getElem?_set_self hi, hopens, hid⟩
    · refine Or.inr ⟨hrows, fun j x hj hx => ?_, fun j call user hx hid => ?_,
        fun j token result hx hid => ?_⟩
      · rcases getElem_set hx with ⟨rfl, rfl⟩ | ⟨_, hx⟩
        · exact hown (hended.earlier j t hj ht)
        · exact opens_moves hm h.user (hended.earlier j x hj hx)
      · rcases getElem_set hx with ⟨_, e⟩ | ⟨_, hx⟩
        · exact hissuing call user e.symm hid
        · exact hended.issuing j call user hx hid
      · rcases getElem_set hx with ⟨_, e⟩ | ⟨_, hx⟩
        · exact absurd hid (hexchanged token result e.symm)
        · exact hended.exchanged j token result hx hid

theorem afterLogout_step {p q : Pool AuthDb AuthTx} (h : AfterLogout cfg u p q) (a : AuthAction) :
    AfterLogout cfg u p (AuthPool.step cfg q a) := by
  unfold AuthPool.step
  rcases Pool.step_cases AuthTx.called (AuthTx.next cfg) AuthTx.held q a with
    ⟨c, _, heq⟩ | ⟨i, choice, t, db', t', _, ht, hn, heq⟩ | heq
  · rw [heq]
    exact h.called c
  · rw [heq]
    exact h.accessed ht (auth_moves hn)
  · rw [heq]
    exact h

/-- the state right after the update of the logout -/
theorem step_logout {p : Pool AuthDb AuthTx} {i : Nat}
    (h : p.txs[i]? = some (.called (.logout u))) (now : Nat) :
    AuthPool.step cfg p (.access i (.query now)) = ⟨p.db.setToken u none,
      p.txs.set i (.loggedOut u "Logged out successfully")⟩ :=
  Pool.step_access h rfl rfl

theorem afterLogout_start {p : Pool AuthDb AuthTx} {i : Nat}
    (h : p.txs[i]? = some (.called (.logout u))) (hu : u ∈ p.db.users.map UserRow.id) (now : Nat)
    (hnone : ∀ tx ∈ p.txs, tx.opens cfg p.db u = false) :
    AfterLogout cfg u p (AuthPool.step cfg p (.access i (.query now))) := by
  rw [step_logout h]
  refine ⟨users_setToken hu u none, by simp, Or.inr ⟨fun r hr hru => ?_, fun j x _ hx => ?_,
    fun j call user hx hid => ?_, fun j token result hx _ => ?_⟩⟩
  · obtain ⟨r₀, _, ⟨_, rfl⟩ | ⟨hne, rfl⟩⟩ := mem_setToken.mp hr
    · rfl
    · exact absurd hru hne
  · rcases getElem_set hx with ⟨_, rfl⟩ | ⟨_, hx⟩
    · rfl
    · exact opens_setToken u none (hnone x (List.mem_of_getElem? hx))
  · rcases getElem_set hx with ⟨_, e⟩ | ⟨_, hx⟩
    · cases e
    · have hopens := hnone _ (List.mem_of_getElem? hx)
      exact absurd hid (of_decide_eq_false hopens)
  · rcases getElem_set hx with ⟨_, e⟩ | ⟨_, hx⟩
    · cases e
    · exact hx

/-- a call that is midway for the user brings a token back -/
theorem issue_reopens {p q : Pool AuthDb AuthTx} {j : Nat} {call : AuthCall} {user : UserRow}
    (hj : q.txs[j]? = some (.issuing call user)) (hlen : q.txs.length = p.txs.length)
    (hid : user.id = u) (hu : u ∈ q.db.users.map UserRow.id) (jti : Uuid) (now : Nat) :
    ¬ SessionEnded u p (AuthPool.step cfg q (.access j (.issue jti now))) := by
  have hstep : AuthPool.step cfg q (.access j (.issue jti now)) =
      ⟨q.db.issue cfg user jti now, q.txs.set j (.returned call (issueTokens cfg user jti now))⟩ :=
    Pool.step_access hj rfl rfl
  rw [hstep]
  rintro (⟨k, call', result, hk, hret, _⟩ | ⟨hrows, _⟩)
  · have hlt := (List.getElem?_eq_some_iff.mp hret).1
    simp only [List.length_set] at hlt
    omega
  · obtain ⟨r, hr, hru⟩ := List.mem_map.mp hu
    have hmem : { r with
        refreshToken := some (cfg.hashToken (issueTokens cfg user jti now).refreshToken) } ∈
        (q.db.issue cfg user jti now).users :=
      mem_setToken.mpr ⟨r, hr, Or.inl ⟨hru.trans hid.symm, rfl⟩⟩
    exact nomatch hrows _ hmem hru

/-- a call that has read the user before the logout writes its token after it -/
theorem midway_reopens {p : Pool AuthDb AuthTx} {i j : Nat} {call : AuthCall} {user : UserRow}
    (hi : p.txs[i]? = some (.called (.logout u))) (hu : u ∈ p.db.users.map UserRow.id) (now : Nat)
    (hj : p.txs[j]? = some (.issuing call user)) (hid : user.id = u) :
    ¬ SessionEnded u p (run (AuthPool.step cfg) (AuthPool.step cfg p (.access i (.query now)))
      [.access j (.issue (.sample '8') now)]) := by
  have hij : i ≠ j := by
    rintro rfl
    cases hi.symm.trans hj
  have hj' : (p.txs.set i (.loggedOut u "Logged out successfully"))[j]? =
      some (.issuing call user) := by
    rw [List.getElem?_set_ne hij]
    exact hj
  rw [step_logout hi, run_cons, run_nil]
  exact issue_reopens hj' List.length_set hid (users_setToken hu u none) (.sample '8') now

/-- a login that has yet to read finds the user as it was before the logout -/
theorem login_reopens {p : Pool AuthDb AuthTx} {i j : Nat} {input : LoginInput} {user : UserRow}
    (hi : p.txs[i]? = some (.called (.logout u))) (hu : u ∈ p.db.users.map UserRow.id) (now : Nat)
    (hj : p.txs[j]? = some (.called (.login input)))
    (hf : p.db.findByCredentials cfg input = some user) (hid : user.id = u) :
    ¬ SessionEnded u p (run (AuthPool.step cfg) (AuthPool.step cfg p (.access i (.query now)))
      [.access j (.query now), .access j (.issue (.sample '8') now)]) := by
  have hij : i ≠ j := by
    rintro rfl
    cases hi.symm.trans hj
  have hread : (p.db.setToken u none).findByCredentials cfg input =
      some { user with refreshToken := none } := by
    rw [findByCredentials_setToken, hf, Option.map_some, if_pos hid]
  have hj' : (p.txs.set i (.loggedOut u "Logged out successfully"))[j]? =
      some (.called (.login input)) := by
    rw [List.getElem?_set_ne hij]
    exact hj
  have hquery : AuthPool.step cfg
      ⟨p.db.setToken u none, p.txs.set i (.loggedOut u "Logged out successfully")⟩
      (.access j (.query now)) = ⟨p.db.setToken u none,
        (p.txs.set i (.loggedOut u "Logged out successfully")).set j
          (.issuing (.login input) { user with refreshToken := none })⟩ := by
    refine Pool.step_access hj' ?_ rfl
    simp only [AuthTx.next, hread]
  rw [step_logout hi, run_cons, hquery, run_cons, run_nil]
  have hlt := (List.getElem?_eq_some_iff.mp hj').1
  have hid' : ({ user with refreshToken := none } : UserRow).id = u := hid
  exact issue_reopens (List.getElem?_set_self hlt) (by simp) hid' (users_setToken hu u none)
    (.sample '8') now

/-- **A logout ends the session exactly if nobody is about to open it again**: at the moment of its
update, no call has read the user and not yet written, and no login with valid credentials has yet
to read. -/
theorem logout_ends_iff (cfg : AuthConfig) (as : List AuthAction) (i now : Nat) (u : String)
    (h : (run (AuthPool.step cfg) ⟨.initial, []⟩ as).txs[i]? = some (.called (.logout u)))
    (hu : u ∈ (run (AuthPool.step cfg) ⟨.initial, []⟩ as).db.users.map UserRow.id) :
    let p := run (AuthPool.step cfg) ⟨.initial, []⟩ as
    (∀ bs, SessionEnded u p
        (run (AuthPool.step cfg) (AuthPool.step cfg p (.access i (.query now))) bs)) ↔
      ∀ tx ∈ p.txs, tx.opens cfg p.db u = false := by
  intro p
  constructor
  · intro hended tx htx
    by_contra hopens
    obtain ⟨j, hj⟩ := List.mem_iff_getElem?.mp htx
    cases tx with
    | issuing call user =>
      have hid : user.id = u := by
        by_contra hne
        exact hopens (decide_eq_false hne)
      exact midway_reopens h hu now hj hid (hended _)
    | called call =>
      cases call with
      | login input =>
        simp only [AuthTx.opens] at hopens
        cases hf : p.db.findByCredentials cfg input with
        | none => simp [hf] at hopens
        | some user =>
          have hid : user.id = u := by simpa [hf] using hopens
          exact login_reopens h hu now hj hf hid (hended _)
      | _ => exact hopens rfl
    | _ => exact hopens rfl
  · intro hnone bs
    have hafter := invariant_run (I := AfterLogout cfg u p) (AuthPool.step cfg)
      (fun q a hq => afterLogout_step hq a) _ bs (afterLogout_start h hu now hnone)
    rcases hafter.ended with hreopened | hend
    · exact Or.inl hreopened
    · exact Or.inr ⟨hend.rows, hend.exchanged⟩

end

/-- a logout while nobody is under way, with a refresh after it -/
theorem logout_ends_quiet :
    let as := AuthAction.signUp ++ [.start (.logout (Uuid.sample '9').val)]
    let p := run (AuthPool.step .sample) ⟨.initial, []⟩ as
    (∀ bs, SessionEnded (Uuid.sample '9').val p (run (AuthPool.step .sample)
        (AuthPool.step .sample p (.access 1 (.query 1))) bs)) ∧
      ∀ tx ∈ p.txs, tx.opens .sample p.db (Uuid.sample '9').val = false := by
  have hiff := logout_ends_iff .sample
    (AuthAction.signUp ++ [.start (.logout (Uuid.sample '9').val)]) 1 1 (Uuid.sample '9').val
    (by decide +kernel) (by decide +kernel)
  exact ⟨hiff.mpr (by decide +kernel), by decide +kernel⟩

/-- **A session that outlives its logout**: a refresh reads, the logout runs, and the refresh
writes. -/
theorem logout_straddled :
    let as := AuthAction.signUp ++ [.start (.refresh firstToken), .access 1 (.query 1),
      .start (.logout (Uuid.sample '9').val)]
    let p := run (AuthPool.step .sample) ⟨.initial, []⟩ as
    let q := run (AuthPool.step .sample) (AuthPool.step .sample p (.access 2 (.query 1)))
      [.access 1 (.issue (.sample '2') 1)]
    q.txs[2]? = some (.loggedOut (Uuid.sample '9').val "Logged out successfully") ∧
      (∃ result, q.txs[1]? = some (.returned (.refresh firstToken) result)) ∧
      (∀ r ∈ q.db.users, r.refreshToken ≠ none) ∧ q.txs.length = p.txs.length ∧
      ¬ SessionEnded (Uuid.sample '9').val p q := by
  intro as p q
  refine ⟨by decide +kernel, ⟨issueTokens .sample (newUser .sample ⟨"eve@example.com", "pass1234"⟩
    (.sample '9') "") (.sample '2') 1, by decide +kernel⟩, by decide +kernel, by decide +kernel, ?_⟩
  have hmidway : (AuthPool.step .sample p (.access 2 (.query 1))).txs[1]? =
      some (.issuing (.refresh firstToken) { newUser .sample ⟨"eve@example.com", "pass1234"⟩
        (.sample '9') "" with refreshToken := some firstToken }) := by decide +kernel
  exact issue_reopens hmidway (by decide +kernel) rfl (by decide +kernel) (.sample '2') 1

end Shop
