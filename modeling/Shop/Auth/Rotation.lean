import Shop.Auth.Service

/-!
# The rotation of refresh tokens

A refresh reads the row that has stored the token's hash, signs, and then overwrites the hash.
Nothing keeps another refresh from reading in between.

* `Signed`, `AuthDb.Inv`   each stored hash is that of a token that was signed, and in one row only;
* `AuthTx.Sound`           a refresh that has returned has taken its token out of the table;
* `rotatesAlone`           no refresh is accepted while another one with the same token is midway;
* `refresh_once`           in runs of this kind a token is exchanged at most once;
* `refresh_twice`          two refreshes that both read first both return.
-/

set_option linter.unusedSectionVars false

namespace Shop
open Lib

/-- the token that a refresh has read in, or has exchanged -/
def AuthTx.rotates : AuthTx → List String
  | .issuing (.refresh token) _ => [token]
  | .returned (.refresh token) _ => [token]
  | _ => []

/-- a refresh between its read and its write -/
def AuthTx.midway (token : String) : AuthTx → Bool
  | .issuing (.refresh token') _ => decide (token' = token)
  | _ => false

/-- a refresh that has returned a new pair -/
def AuthTx.exchanged (token : String) : AuthTx → Bool
  | .returned (.refresh token') _ => decide (token' = token)
  | _ => false

/-- `randomUUID` gives an id that it has not given before -/
def freshJti (p : Pool AuthDb AuthTx) : AuthAction → Bool
  | .access _ (.issue jti _) => decide (jti.val ∉ p.db.jtis)
  | _ => true

section
variable (cfg : AuthConfig)

/-- when a refresh reads and is accepted, no other one with the token is midway -/
def rotatesAlone (p : Pool AuthDb AuthTx) : AuthAction → Bool
  | .start _ => true
  | .access i choice =>
    match p.txs[i]? with
    | some (.called (.refresh token)) =>
      match AuthTx.next cfg choice p.db (.called (.refresh token)) with
      | some (_, .issuing _ _) => p.txs.all fun tx => !tx.midway token
      | _ => true
    | _ => true

/-- `issueTokens` has signed the token -/
def Signed (db : AuthDb) (token : String) : Prop :=
  ∃ user jti now, jti.val ∈ db.jtis ∧ token = (issueTokens cfg user jti now).refreshToken

/-- what is stored is the hash of a signed token, and is stored once -/
structure AuthDb.Inv (db : AuthDb) : Prop where
  stored : ∀ r ∈ db.users, ∀ h, r.refreshToken = some h →
    ∃ token, Signed cfg db token ∧ h = cfg.hashToken token
  distinct : ∀ r ∈ db.users, ∀ r' ∈ db.users, ∀ h, r.refreshToken = some h →
    r'.refreshToken = some h → r.id = r'.id

/-- a refresh that is midway knows where its token is stored; one that has returned has taken it
out -/
structure AuthTx.Sound (db : AuthDb) (t : AuthTx) : Prop where
  signed : ∀ token ∈ t.rotates, Signed cfg db token
  midway : ∀ token user, t = .issuing (.refresh token) user →
    ∀ r ∈ db.users, r.refreshToken = some (cfg.hashToken token) → r.id = user.id
  exchanged : ∀ token result, t = .returned (.refresh token) result →
    ∀ r ∈ db.users, r.refreshToken ≠ some (cfg.hashToken token)

end

section
variable {cfg : AuthConfig}

/-- no row of `db'` has a token that its row in `db` has not -/
structure Keeps (cfg : AuthConfig) (db db' : AuthDb) : Prop where
  signed : ∀ token, Signed cfg db token → Signed cfg db' token
  rows : ∀ r ∈ db'.users, ∀ h, r.refreshToken = some h →
    ∃ r₀ ∈ db.users, r₀.id = r.id ∧ r₀.refreshToken = some h

theorem keeps_register {db db' : AuthDb} {input : RegisterInput} {id : Uuid} {salt : String}
    {g : RowDefaults} (h : db.register (newUser cfg input id salt) g = some db') :
    Keeps cfg db db' := by
  obtain ⟨husers, hjtis, _, _⟩ := register_some h
  constructor
  · rintro token ⟨user, jti, now, hj, rfl⟩
    exact ⟨user, jti, now, hjtis ▸ hj, rfl⟩
  · intro r hr k hk
    rw [husers] at hr
    rcases List.mem_append.mp hr with hr | hr
    · exact ⟨r, hr, rfl, hk⟩
    · rw [List.mem_singleton.mp hr] at hk
      cases hk

theorem keeps_logout (db : AuthDb) (id : String) : Keeps cfg db (db.setToken id none) := by
  refine ⟨fun _ h => h, fun r hr k hk => ?_⟩
  obtain ⟨r₀, hr₀, ⟨_, rfl⟩ | ⟨_, rfl⟩⟩ := mem_setToken.mp hr
  · cases hk
  · exact ⟨r, hr₀, rfl, hk⟩

theorem AuthDb.Inv.keeps {db db' : AuthDb} (h : db.Inv cfg) (hk : Keeps cfg db db') :
    db'.Inv cfg := by
  constructor
  · intro r hr x hx
    obtain ⟨r₀, hr₀, _, hx₀⟩ := hk.rows r hr x hx
    obtain ⟨token, hsigned, rfl⟩ := h.stored r₀ hr₀ x hx₀
    exact ⟨token, hk.signed token hsigned, rfl⟩
  · intro r hr r' hr' x hx hx'
    obtain ⟨r₀, hr₀, hid, hx₀⟩ := hk.rows r hr x hx
    obtain ⟨r₁, hr₁, hid', hx₁⟩ := hk.rows r' hr' x hx'
    rw [← hid, ← hid']
    exact h.distinct r₀ hr₀ r₁ hr₁ x hx₀ hx₁

theorem AuthTx.Sound.keeps {db db' : AuthDb} {t : AuthTx} (h : t.Sound cfg db)
    (hk : Keeps cfg db db') : t.Sound cfg db' := by
  constructor
  · exact fun token ht => hk.signed token (h.signed token ht)
  · intro token user ht r hr hx
    obtain ⟨r₀, hr₀, hid, hx₀⟩ := hk.rows r hr _ hx
    rw [← hid]
    exact h.midway token user ht r₀ hr₀ hx₀
  · intro token result ht r hr hx
    obtain ⟨r₀, hr₀, _, hx₀⟩ := hk.rows r hr _ hx
    exact h.exchanged token result ht r₀ hr₀ hx₀

/-- a call that is not a refresh under way has nothing to know -/
theorem AuthTx.Sound.idle {db : AuthDb} {t : AuthTx} (h : t.rotates = []) : t.Sound cfg db := by
  constructor
  · intro token ht
    rw [h] at ht
    exact absurd ht List.not_mem_nil
  · rintro token user rfl
    cases h
  · rintro token result rfl
    cases h

/-! ## a new token is stored -/

section
variable (hhash : Function.Injective cfg.hashToken)
  (hsign : ∀ user user' jti jti' now now', (issueTokens cfg user jti now).refreshToken =
    (issueTokens cfg user' jti' now').refreshToken → jti.val = jti'.val)
include hhash hsign

/-- the hash of a token that is signed now is none that was stored -/
theorem new_token {db : AuthDb} {user : UserRow} {jti : Uuid} {now : Nat} {token : String}
    (hjti : jti.val ∉ db.jtis) (h : Signed cfg db token) :
    cfg.hashToken (issueTokens cfg user jti now).refreshToken ≠ cfg.hashToken token := by
  obtain ⟨user', jti', now', hmem, rfl⟩ := h
  intro e
  exact hjti (hsign user user' jti jti' now now' (hhash e) ▸ hmem)

omit hhash hsign in
theorem signed_issue {db : AuthDb} {user : UserRow} {jti : Uuid} {now : Nat} {token : String}
    (h : Signed cfg db token) : Signed cfg (db.issue cfg user jti now) token := by
  obtain ⟨user', jti', now', hmem, rfl⟩ := h
  exact ⟨user', jti', now', List.mem_append_left _ hmem, rfl⟩

omit hhash hsign in
/-- the rows after a token has been issued -/
theorem mem_issue {db : AuthDb} {user : UserRow} {jti : Uuid} {now : Nat} {r : UserRow}
    (hr : r ∈ (db.issue cfg user jti now).users) :
    (r.id = user.id ∧ r.refreshToken =
        some (cfg.hashToken (issueTokens cfg user jti now).refreshToken)) ∨
      (r ∈ db.users ∧ r.id ≠ user.id) := by
  obtain ⟨r₀, hr₀, ⟨hid, rfl⟩ | ⟨hne, rfl⟩⟩ := mem_setToken.mp hr
  · exact Or.inl ⟨hid, rfl⟩
  · exact Or.inr ⟨hr₀, hne⟩

theorem AuthDb.Inv.issue {db : AuthDb} {user : UserRow} {jti : Uuid} {now : Nat}
    (h : db.Inv cfg) (hjti : jti.val ∉ db.jtis) : (db.issue cfg user jti now).Inv cfg := by
  constructor
  · intro r hr x hx
    rcases mem_issue hr with ⟨_, hnew⟩ | ⟨hold, _⟩
    · rw [hnew] at hx
      cases hx
      exact ⟨_, ⟨user, jti, now, List.mem_append_right _ (List.mem_singleton.mpr rfl), rfl⟩, rfl⟩
    · obtain ⟨token, hsigned, rfl⟩ := h.stored r hold x hx
      exact ⟨token, signed_issue hsigned, rfl⟩
  · intro r hr r' hr' x hx hx'
    have hclash : ∀ r ∈ db.users, r.refreshToken ≠
        some (cfg.hashToken (issueTokens cfg user jti now).refreshToken) := by
      intro r hr e
      obtain ⟨token, hsigned, heq⟩ := h.stored r hr _ e
      exact new_token hhash hsign hjti hsigned heq
    rcases mem_issue hr with ⟨hid, hnew⟩ | ⟨hold, _⟩
    · rcases mem_issue hr' with ⟨hid', _⟩ | ⟨hold', _⟩
      · exact hid.trans hid'.symm
      · exact absurd (hx'.trans (hx.symm.trans hnew)) (hclash r' hold')
    · rcases mem_issue hr' with ⟨_, hnew'⟩ | ⟨hold', _⟩
      · exact absurd (hx.trans (hx'.symm.trans hnew')) (hclash r hold)
      · exact h.distinct r hold r' hold' x hx hx'

theorem AuthTx.Sound.issue {db : AuthDb} {user : UserRow} {jti : Uuid} {now : Nat} {t : AuthTx}
    (h : t.Sound cfg db) (hjti : jti.val ∉ db.jtis) : t.Sound cfg (db.issue cfg user jti now) := by
  constructor
  · exact fun token ht => signed_issue (h.signed token ht)
  · rintro token user' rfl r hr hx
    rcases mem_issue hr with ⟨_, hnew⟩ | ⟨hold, _⟩
    · have hsigned := h.signed token (List.mem_singleton.mpr rfl)
      exact absurd (Option.some.inj (hnew.symm.trans hx)) (new_token hhash hsign hjti hsigned)
    · exact h.midway token user' rfl r hold hx
  · rintro token result rfl r hr hx
    rcases mem_issue hr with ⟨_, hnew⟩ | ⟨hold, _⟩
    · have hsigned := h.signed token (List.mem_singleton.mpr rfl)
      exact new_token hhash hsign hjti hsigned (Option.some.inj (hnew.symm.trans hx))
    · exact h.exchanged token result rfl r hold hx

/-- a refresh takes its token out of the one row that had it -/
theorem sound_returned {db : AuthDb} {call : AuthCall} {user : UserRow} {jti : Uuid} {now : Nat}
    (h : (AuthTx.issuing call user).Sound cfg db) (hjti : jti.val ∉ db.jtis) :
    (AuthTx.returned call (issueTokens cfg user jti now)).Sound cfg (db.issue cfg user jti now) := by
  cases call with
  | refresh token =>
    have hsigned := h.signed token (List.mem_singleton.mpr rfl)
    constructor
    · intro x hx
      rw [List.mem_singleton.mp hx]
      exact signed_issue hsigned
    · exact fun _ _ => nofun
    · intro x result e r hr hx
      cases e
      rcases mem_issue hr with ⟨_, hnew⟩ | ⟨hold, hne⟩
      · exact new_token hhash hsign hjti hsigned (Option.some.inj (hnew.symm.trans hx))
      · exact hne (h.midway token user rfl r hold hx)
  | _ => exact .idle rfl

/-- what a call may do: it signs with a jti that is new -/
def signsFresh (choice : AuthChoice) (db : AuthDb) (_ : AuthTx) : Prop :=
  ∀ jti now, choice = .issue jti now → jti.val ∉ db.jtis

theorem auth_stable : Stable AuthTx.called (AuthTx.next cfg) AuthTx.held (fun _ => True) signsFresh
    (fun db => db.Inv cfg) (fun db t => t.Sound cfg db) := by
  constructor
  · exact fun _ => rfl
  · exact fun _ _ _ _ => .idle rfl
  · intro choice db t db' t' h ht hfresh hn
    cases auth_moves hn with
    | register input id salt g _ hr => exact ⟨h.keeps (keeps_register hr), .idle rfl⟩
    | login input user hf => exact ⟨h, .idle rfl⟩
    | refresh token sub user hf =>
      obtain ⟨hmem, _, htoken⟩ := findByToken_some hf
      obtain ⟨token', hsigned, heq⟩ := h.stored user hmem _ htoken
      rw [← hhash heq] at hsigned
      refine ⟨h, ⟨fun x hx => ?_, fun x user' e r hr hx => ?_, fun _ _ => nofun⟩⟩
      · rw [List.mem_singleton.mp hx]
        exact hsigned
      · cases e
        exact h.distinct r hr user hmem _ hx htoken
    | logout userId message => exact ⟨h.keeps (keeps_logout db userId), .idle rfl⟩
    | issue call user jti now hchoice =>
      have hjti := hfresh jti now hchoice
      exact ⟨h.issue hhash hsign hjti, sound_returned hhash hsign ht hjti⟩
    | refuse call error => exact ⟨h, .idle rfl⟩
    | fail call user error => exact ⟨h, .idle rfl⟩
  · intro choice db t db' t' u h _ hu hfresh hn _
    cases auth_moves hn with
    | register input id salt g _ hr => exact hu.keeps (keeps_register hr)
    | logout userId message => exact hu.keeps (keeps_logout db userId)
    | issue call user jti now hchoice => exact hu.issue hhash hsign (hfresh jti now hchoice)
    | login input user hf => exact hu
    | refresh token sub user hf => exact hu
    | refuse call error => exact hu
    | fail call user error => exact hu

/-- the calls are sound, and no token is with two refreshes -/
structure RotatesOnce (cfg : AuthConfig) (p : Pool AuthDb AuthTx) : Prop where
  good : p.Good AuthTx.held (fun db => db.Inv cfg) fun db t => t.Sound cfg db
  exclusive : Exclusive AuthTx.rotates p.txs

omit hhash hsign in
theorem freshJti_allows {p : Pool AuthDb AuthTx} {a : AuthAction} (h : freshJti p a = true) :
    p.allows signsFresh a := by
  cases a with
  | start c => trivial
  | access i choice =>
    rintro t _ jti now rfl
    simpa [freshJti] using h

omit hhash hsign in
/-- no other call has the token of a refresh that is accepted -/
theorem accepted_alone {p : Pool AuthDb AuthTx} (hp : RotatesOnce cfg p) {i : Nat}
    {choice : AuthChoice}
    {token sub : String} {user : UserRow} {db' : AuthDb}
    (ht : p.txs[i]? = some (.called (.refresh token)))
    (hn : AuthTx.next cfg choice p.db (.called (.refresh token)) =
      some (db', .issuing (.refresh token) user))
    (hf : p.db.findByToken cfg sub token = some user)
    (halone : rotatesAlone cfg p (.access i choice) = true) :
    ∀ u ∈ p.txs, token ∉ u.rotates := by
  intro u hu hmem
  simp only [rotatesAlone, ht, hn, List.all_eq_true] at halone
  cases u with
  | issuing call user' =>
    cases call with
    | refresh token' =>
      obtain rfl := List.mem_singleton.mp hmem
      simpa [AuthTx.midway] using halone _ hu
    | _ => exact absurd hmem List.not_mem_nil
  | returned call result =>
    cases call with
    | refresh token' =>
      obtain rfl := List.mem_singleton.mp hmem
      obtain ⟨hrow, _, htoken⟩ := findByToken_some hf
      exact (hp.good.loc _ hu).exchanged _ result rfl user hrow htoken
    | _ => exact absurd hmem List.not_mem_nil
  | _ => exact absurd hmem List.not_mem_nil

theorem once_step {p : Pool AuthDb AuthTx} {a : AuthAction} (hp : RotatesOnce cfg p)
    (hfresh : freshJti p a = true) (halone : rotatesAlone cfg p a = true) :
    RotatesOnce cfg (AuthPool.step cfg p a) := by
  refine ⟨(auth_stable hhash hsign).step hp.good a (fun _ _ => trivial) (freshJti_allows hfresh), ?_⟩
  unfold AuthPool.step
  rcases Pool.step_cases AuthTx.called (AuthTx.next cfg) AuthTx.held p a with
    ⟨c, _, heq⟩ | ⟨i, choice, t, db', t', rfl, ht, hn, heq⟩ | heq
  · rw [heq]
    exact hp.exclusive.append rfl
  · rw [heq]
    refine hp.exclusive.set fun j u hj hu k hk => ?_
    have hum := List.mem_of_getElem? hu
    cases auth_moves hn with
    | refresh token sub user hf =>
      rw [List.mem_singleton.mp hk]
      exact accepted_alone hp ht hn hf halone u hum
    | issue call user jti now _ =>
      -- the call has the same token as before
      have hk' : k ∈ (AuthTx.issuing call user).rotates := by
        cases call <;> exact hk
      exact hp.exclusive i j _ u (fun e => hj e.symm) ht hu k hk'
    | _ => exact absurd hk List.not_mem_nil
  · rw [heq]
    exact hp.exclusive

/-- **A refresh token is exchanged at most once**, in every run in which no refresh is accepted
while another one with the same token is between its read and its write. -/
theorem refresh_once (as : List AuthAction)
    (hfresh : Along (AuthPool.step cfg) (fun p a => freshJti p a = true) ⟨.initial, []⟩ as)
    (halone : Along (AuthPool.step cfg) (fun p a => rotatesAlone cfg p a = true) ⟨.initial, []⟩ as)
    (token : String) :
    (run (AuthPool.step cfg) ⟨.initial, []⟩ as).txs.countP (AuthTx.exchanged token) ≤ 1 := by
  have hinit : RotatesOnce cfg ⟨.initial, []⟩ := by
    refine ⟨⟨⟨fun _ => nofun, fun _ => nofun⟩, fun _ => nofun, ?_⟩, ?_⟩
    · exact fun i _ _ _ _ hx => nomatch hx
    · exact fun i _ _ _ _ hx => nomatch hx
  have hboth := (along_and (AuthPool.step cfg) _ as).mpr ⟨hfresh, halone⟩
  have hrun : RotatesOnce cfg (run (AuthPool.step cfg) ⟨.initial, []⟩ as) :=
    invariant_along (AuthPool.step cfg) (fun p a hp ha => once_step hhash hsign hp ha.1 ha.2) _ as
      hinit hboth
  refine Nat.le_trans (List.countP_mono_left fun tx _ htx => ?_)
    (hrun.exclusive.countP_le_one token)
  cases tx with
  | returned call result =>
    cases call with
    | refresh token' =>
      have he : token' = token := by simpa [AuthTx.exchanged] using htx
      simp [AuthTx.rotates, he]
    | _ => cases htx
  | _ => cases htx

end

end

/-! ## runs -/

/-- a configuration for concrete runs: a token is its jti, its subject and its secret -/
def AuthConfig.sample : AuthConfig where
  accessExpiresIn := 3600
  refreshExpiresIn := 604800
  accessSecret := "a"
  refreshSecret := "r"
  hash _ password := password
  compare password passwordHash := decide (password = passwordHash)
  hashToken token := token
  sign secret payload _ _ := payload.jti.getD "" ++ payload.sub ++ secret
  verify secret token _ :=
    if token.toList.drop 72 = secret.toList then
      some ⟨String.ofList ((token.toList.drop 36).take 36), "", none, none, none, none⟩
    else none

theorem sample_sign (user user' : UserRow) (jti jti' : Uuid) (now now' : Nat)
    (h : (issueTokens .sample user jti now).refreshToken =
      (issueTokens .sample user' jti' now').refreshToken) : jti.val = jti'.val := by
  have htake := congrArg (fun s => s.toList.take 36) h
  have hlen : ∀ j : Uuid, j.val.toList.length = 36 := fun j => by
    rw [String.length_toList]
    exact j.len
  simp only [issueTokens, AuthConfig.sample, Option.getD_some, String.toList_append,
    List.append_assoc] at htake
  rw [List.take_append_of_le_length (by rw [hlen]), List.take_append_of_le_length (by rw [hlen]),
    List.take_of_length_le (by rw [hlen]), List.take_of_length_le (by rw [hlen])] at htake
  exact String.toList_inj.mp htake

/-- one user registers, which gives the first token -/
def AuthAction.signUp : List AuthAction :=
  [.start (.register ⟨"eve@example.com", "pass1234"⟩),
   .access 0 (.insert (.sample '9') "" ⟨.sample '0', 0⟩), .access 0 (.issue (.sample '1') 0)]

/-- the refresh token of the registration -/
def firstToken : String := (Uuid.sample '1').val ++ (Uuid.sample '9').val ++ "r"

/-- two refreshes one after the other: the second one is refused -/
theorem refresh_once_serial :
    let as := AuthAction.signUp ++ [.start (.refresh firstToken), .start (.refresh firstToken),
      .access 1 (.query 1), .access 1 (.issue (.sample '2') 1), .access 2 (.query 1)]
    let p := run (AuthPool.step .sample) ⟨.initial, []⟩ as
    p.txs.countP (AuthTx.exchanged firstToken) ≤ 1 ∧
      p.txs[2]? = some (.failed (.refresh firstToken) .refreshTokenRevoked) :=
  ⟨refresh_once (fun _ _ h => h) sample_sign _ (by decide +kernel) (by decide +kernel) firstToken,
    by decide +kernel⟩

/-- **A token that is exchanged twice**: both refreshes read before either writes. -/
theorem refresh_twice :
    let as := AuthAction.signUp ++ [.start (.refresh firstToken), .start (.refresh firstToken),
      .access 1 (.query 1), .access 2 (.query 1), .access 1 (.issue (.sample '2') 1),
      .access 2 (.issue (.sample '3') 1)]
    Function.Injective AuthConfig.sample.hashToken ∧
      (∀ user user' jti jti' now now', (issueTokens .sample user jti now).refreshToken =
        (issueTokens .sample user' jti' now').refreshToken → jti.val = jti'.val) ∧
      Along (AuthPool.step .sample) (fun p a => freshJti p a = true) ⟨.initial, []⟩ as ∧
      ¬ (run (AuthPool.step .sample) ⟨.initial, []⟩ as).txs.countP
        (AuthTx.exchanged firstToken) ≤ 1 :=
  ⟨fun _ _ h => h, sample_sign, by decide +kernel, by decide +kernel⟩

end Shop
