import Shop.Auth.Rotation
import Shop.Lib.Url

/-!
# The password that a login accepts

The limits on a password are those of the two DTOs, in characters; `bcrypt` reads the first 72 bytes
of a password.  A password is a text of Unicode characters; that JSON can also carry half of a
surrogate pair is left out.

* `RegisterDto.admits`, `LoginDto.admits`  the passwords that validation lets through;
* `HasPassword`                  the row that a registration leaves, in every later state
  (`registered_stable`);
* `AuthService.login`            a login that nothing comes between;
* `login_exact_iff`              the registered password is the only one that is accepted exactly if
  it is shorter than what `bcrypt` reads.
-/

set_option linter.unusedSectionVars false

namespace Shop
open Lib

/-! ## the DTOs -/

section
variable (length : String → Nat)

/-- `@MinLength(8) @MaxLength(72)`; `length` is the length that class-validator counts -/
def RegisterDto.admits (password : String) : Prop := 8 ≤ length password ∧ length password ≤ 72

/-- `@MinLength(8)` -/
def LoginDto.admits (password : String) : Prop := 8 ≤ length password

instance (password : String) : Decidable (RegisterDto.admits length password) :=
  inferInstanceAs (Decidable (_ ∧ _))

instance (password : String) : Decidable (LoginDto.admits length password) :=
  inferInstanceAs (Decidable (_ ≤ _))

end

/-! ## `bcrypt` -/

/-- the part of a password that `bcrypt` reads -/
def bcryptBytes (password : String) : List UInt8 := (utf8 password.toList).take 72

/-- passwords match that agree on it; both are Unicode texts -/
def IsBcrypt (cfg : AuthConfig) : Prop := ∀ salt password other,
  cfg.compare other (cfg.hash salt password) = true ↔ bcryptBytes other = bcryptBytes password

theorem utf8_inj {s t : String} (h : utf8 s.toList = utf8 t.toList) : s = t := by
  have henc : s.toList.utf8Encode = t.toList.utf8Encode := by
    rw [← toByteArray_utf8, ← toByteArray_utf8, h]
  rw [String.utf8Encode_toList, String.utf8Encode_toList] at henc
  exact String.toByteArray_inj.mp henc

/-- a password that `bcrypt` reads to its end, and has room left, is told from every other -/
theorem bcryptBytes_short {p q : String} (hp : (utf8 p.toList).length < 72)
    (h : bcryptBytes q = bcryptBytes p) : q = p := by
  have htake : bcryptBytes p = utf8 p.toList := List.take_of_length_le (Nat.le_of_lt hp)
  have hlength := congrArg List.length (h.trans htake)
  rw [bcryptBytes, List.length_take] at hlength
  refine utf8_inj ?_
  rw [← htake, ← h, bcryptBytes, List.take_of_length_le (by omega)]

/-- what comes after the first 72 bytes is not read -/
theorem bcryptBytes_append {p : String} (hp : 72 ≤ (utf8 p.toList).length) (t : String) :
    bcryptBytes (p ++ t) = bcryptBytes p := by
  have happend : utf8 (p ++ t).toList = utf8 p.toList ++ utf8 t.toList := by
    rw [String.toList_append]
    exact List.flatMap_append
  rw [bcryptBytes, happend, List.take_append_of_le_length hp]
  rfl

/-! ## the row of a registration -/

/-- the registration that has committed its row -/
def AuthTx.registration : AuthTx → Option RegisterInput
  | .issuing (.register input) _ => some input
  | .returned (.register input) _ => some input
  | _ => none

section
variable (cfg : AuthConfig)

/-- the active user with this email has the hash of this password -/
def HasPassword (db : AuthDb) (email password : String) : Prop :=
  ∃ r ∈ db.users, r.email = email ∧ r.isActive = true ∧
    ∃ salt, r.passwordHash = cfg.hash salt password

/-- a login, its query and the signing of its tokens, with nothing between them -/
def AuthService.login (now : Nat) (jti : Uuid) (db : AuthDb) (input : LoginInput) :
    AuthDb × AuthTx :=
  match AuthTx.next cfg (.query now) db (.called (.login input)) with
  | none => (db, .called (.login input))
  | some (db', t) => (AuthTx.next cfg (.issue jti now) db' t).getD (db', t)

end

section
variable {cfg : AuthConfig}

theorem HasPassword.setToken {db : AuthDb} {email password : String}
    (h : HasPassword cfg db email password) (id : String) (refreshToken : Option String) :
    HasPassword cfg (db.setToken id refreshToken) email password := by
  obtain ⟨r, hr, hemail, hactive, hhash⟩ := h
  by_cases hid : r.id = id
  · exact ⟨_, mem_setToken.mpr ⟨r, hr, Or.inl ⟨hid, rfl⟩⟩, hemail, hactive, hhash⟩
  · exact ⟨r, mem_setToken.mpr ⟨r, hr, Or.inr ⟨hid, rfl⟩⟩, hemail, hactive, hhash⟩

theorem emails_setToken (db : AuthDb) (id : String) (refreshToken : Option String) :
    (db.setToken id refreshToken).users.map UserRow.email = db.users.map UserRow.email :=
  map_updateBy UserRow.email (f := fun r => { r with refreshToken := refreshToken })
    (fun _ => rfl) db.users

/-- no access takes a registered password away -/
theorem hasPassword_moves {choice : AuthChoice} {db db' : AuthDb} {t t' : AuthTx}
    (hm : AuthTx.Moves cfg choice db t db' t') {email password : String}
    (h : HasPassword cfg db email password) : HasPassword cfg db' email password := by
  cases hm with
  | register input id salt g _ hr =>
    obtain ⟨r, hmem, hrow⟩ := h
    refine ⟨r, ?_, hrow⟩
    rw [(register_some hr).1]
    exact List.mem_append_left _ hmem
  | logout userId message => exact h.setToken userId none
  | issue call user jti now _ => exact h.setToken user.id _
  | _ => exact h

/-- **The row that a registration commits** is there in every later state, and is the only one of
its email. -/
theorem registered_stable : Stable AuthTx.called (AuthTx.next cfg) AuthTx.held (fun _ => True)
    (fun _ _ _ => True) (fun db => (db.users.map UserRow.email).Nodup) (fun db t =>
      ∀ input, t.registration = some input → HasPassword cfg db input.email input.password) := by
  constructor
  · exact fun _ => rfl
  · exact fun _ _ _ _ _ => nofun
  · intro choice db t db' t' hinv ht _ hn
    have hmoves := auth_moves hn
    have hkeep : ∀ input, t.registration = some input →
        HasPassword cfg db' input.email input.password :=
      fun input h => hasPassword_moves hmoves (ht input h)
    cases hmoves with
    | register input id salt g _ hr =>
      obtain ⟨husers, _, _, hemail⟩ := register_some hr
      refine ⟨?_, fun input' h => ?_⟩
      · rw [husers, List.map_append]
        exact hinv.append (List.nodup_singleton _) (by simpa using hemail)
      · cases h
        refine ⟨newUser cfg input id salt, ?_, rfl, rfl, salt, rfl⟩
        rw [husers]
        exact List.mem_append_right _ (List.mem_singleton.mpr rfl)
    | logout userId message =>
      exact ⟨(emails_setToken db userId none).symm ▸ hinv, fun _ => nofun⟩
    | issue call user jti now _ =>
      refine ⟨(emails_setToken db user.id _).symm ▸ hinv, fun input h => hkeep input ?_⟩
      cases call <;> exact h
    | _ => exact ⟨hinv, fun _ => nofun⟩
  · intro choice db t db' t' u _ _ hu _ hn _ input h
    exact hasPassword_moves (auth_moves hn) (hu input h)

/-! ## a login -/

/-- the query of a login finds the registered row, and then compares -/
theorem findByCredentials_registered {db : AuthDb} {email password : String}
    (hinv : (db.users.map UserRow.email).Nodup) (h : HasPassword cfg db email password)
    (hbcrypt : IsBcrypt cfg) (q : String) :
    (db.findByCredentials cfg ⟨email, q⟩).isSome ↔ bcryptBytes q = bcryptBytes password := by
  obtain ⟨r, hr, hemail, hactive, salt, hhash⟩ := h
  have hfind : db.users.find? (fun x => decide (x.email = email) && x.isActive) = some r := by
    cases hf : db.users.find? (fun x => decide (x.email = email) && x.isActive) with
    | none =>
      have := List.find?_eq_none.mp hf r hr
      simp [hemail, hactive] at this
    | some r' =>
      have hp := List.find?_some hf
      simp only [Bool.and_eq_true, decide_eq_true_eq] at hp
      rw [key_inj hinv (List.mem_of_find?_eq_some hf) hr (hp.1.trans hemail.symm)]
  unfold AuthDb.findByCredentials
  rw [hfind, Option.filter_some, hhash]
  by_cases hq : bcryptBytes q = bcryptBytes password
  · rw [if_pos ((hbcrypt salt password q).mpr hq)]
    exact ⟨fun _ => hq, fun _ => rfl⟩
  · rw [if_neg fun hc => hq ((hbcrypt salt password q).mp hc)]
    exact ⟨nofun, fun h => absurd h hq⟩

/-- a login returns tokens exactly if its query has found the user -/
theorem login_returns (cfg : AuthConfig) (now : Nat) (jti : Uuid) (db : AuthDb)
    (input : LoginInput) : (∃ result, (AuthService.login cfg now jti db input).2 =
      .returned (.login input) result) ↔ (db.findByCredentials cfg input).isSome := by
  unfold AuthService.login
  cases hf : db.findByCredentials cfg input with
  | none => simp [AuthTx.next, hf]
  | some user => simp [AuthTx.next, hf]

theorem registered_run (cfg : AuthConfig) (as : List AuthAction) :
    (run (AuthPool.step cfg) ⟨.initial, []⟩ as).Good AuthTx.held
      (fun db => (db.users.map UserRow.email).Nodup) (fun db t =>
        ∀ input, t.registration = some input → HasPassword cfg db input.email input.password) := by
  refine registered_stable.run_from (fun _ => trivial) (fun _ _ _ => trivial) ?_ as
  exact ⟨List.nodup_nil, fun _ => nofun, fun i _ _ _ _ hx => nomatch hx⟩

/-- a registration that is alone -/
def AuthAction.registers (input : RegisterInput) : List AuthAction :=
  [.start (.register input), .access 0 (.insert (.sample '9') "" ⟨.sample '0', 0⟩),
    .access 0 (.issue (.sample '1') 0)]

theorem registers_returns (cfg : AuthConfig) (input : RegisterInput) : ∃ result,
    .returned (.register input) result ∈
      (run (AuthPool.step cfg) ⟨.initial, []⟩ (AuthAction.registers input)).txs :=
  ⟨_, List.mem_singleton.mpr rfl⟩

end

/-- **Login accepts exactly the registered password if and only if that password takes fewer than
72 bytes in UTF-8**: whatever calls have been made before and after the registration, and for every
password that may be tried. -/
theorem login_exact_iff (cfg : AuthConfig) (length : String → Nat) (hbcrypt : IsBcrypt cfg)
    (hlength : ∀ s t, length s ≤ length (s ++ t)) (password : String)
    (hadmits : RegisterDto.admits length password) :
    (∀ (email : String) (as : List AuthAction) (result : TokensResult),
      .returned (.register ⟨email, password⟩) result ∈
        (run (AuthPool.step cfg) ⟨.initial, []⟩ as).txs →
      ∀ q, LoginDto.admits length q → ∀ now jti,
        ((∃ result, (AuthService.login cfg now jti
          (run (AuthPool.step cfg) ⟨.initial, []⟩ as).db ⟨email, q⟩).2 =
            .returned (.login ⟨email, q⟩) result) ↔ q = password)) ↔
      (utf8 password.toList).length < 72 := by
  have hlogin : ∀ (email : String) (as : List AuthAction) (result : TokensResult),
      .returned (.register ⟨email, password⟩) result ∈
        (run (AuthPool.step cfg) ⟨.initial, []⟩ as).txs → ∀ q now jti,
        ((∃ result, (AuthService.login cfg now jti
          (run (AuthPool.step cfg) ⟨.initial, []⟩ as).db ⟨email, q⟩).2 =
            .returned (.login ⟨email, q⟩) result) ↔ bcryptBytes q = bcryptBytes password) := by
    intro email as result hmem q now jti
    have hgood := registered_run cfg as
    have hrow := hgood.loc _ hmem ⟨email, password⟩ rfl
    exact (login_returns cfg now jti _ _).trans
      (findByCredentials_registered hgood.inv hrow hbcrypt q)
  constructor
  · intro hexact
    refine Nat.lt_of_not_le fun hlong => ?_
    -- one more character, which `bcrypt` does not read
    obtain ⟨result, hmem⟩ := registers_returns cfg ⟨"eve@example.com", password⟩
    have hq : LoginDto.admits length (password ++ "x") :=
      Nat.le_trans hadmits.1 (hlength password "x")
    have hiff := hexact _ _ result hmem _ hq 0 (.sample '2')
    have heq := hiff.mp ((hlogin _ _ result hmem _ 0 (.sample '2')).mpr
      (bcryptBytes_append hlong "x"))
    have hlen := congrArg (fun s => s.toList.length) heq
    simp at hlen
  · intro hshort email as result hmem q _ now jti
    rw [hlogin email as result hmem q now jti]
    exact ⟨bcryptBytes_short hshort, fun h => by rw [h]⟩

/-! ## runs -/

/-- the bytes that `bcrypt` reads, as a text -/
def bcryptText (password : String) : String :=
  String.ofList ((bcryptBytes password).map fun b => Char.ofNat b.toNat)

/-- `AuthConfig.sample` with a hash that keeps what `bcrypt` reads -/
def AuthConfig.sampleBcrypt : AuthConfig :=
  { AuthConfig.sample with
    hash := fun _ password => bcryptText password
    compare := fun password passwordHash => decide (bcryptText password = passwordHash) }

theorem isBcrypt_sample : IsBcrypt .sampleBcrypt := by
  intro salt password other
  have hchar : Function.Injective fun b : UInt8 => Char.ofNat b.toNat := by
    intro b b' h
    have hvalid : ∀ x : UInt8, (Char.ofNat x.toNat).toNat = x.toNat := by
      intro x
      have hx : x.toNat.isValidChar := Or.inl (Nat.lt_trans x.toNat_lt (by decide))
      rw [Char.ofNat, dif_pos hx]
      rfl
    have hnat := congrArg Char.toNat h
    dsimp only at hnat
    rw [hvalid, hvalid] at hnat
    exact UInt8.toNat_inj.mp hnat
  simp only [AuthConfig.sampleBcrypt]
  rw [decide_eq_true_eq, bcryptText, bcryptText, String.ofList_inj]
  exact (List.map_injective_iff.mpr hchar).eq_iff

theorem length_append_le (s t : String) : s.length ≤ (s ++ t).length := by
  rw [String.length_append]
  exact Nat.le_add_right _ _

/-- the state after one registration -/
def registeredDb (password : String) : AuthDb :=
  (run (AuthPool.step .sampleBcrypt) ⟨.initial, []⟩
    (AuthAction.registers ⟨"eve@example.com", password⟩)).db

theorem login_exact_short :
    (∃ result, (AuthService.login .sampleBcrypt 0 (.sample '2') (registeredDb "pass1234")
      ⟨"eve@example.com", "pass1234"⟩).2 = .returned (.login ⟨"eve@example.com", "pass1234"⟩)
        result) ∧
    ¬∃ result, (AuthService.login .sampleBcrypt 0 (.sample '2') (registeredDb "pass1234")
      ⟨"eve@example.com", "pass12345"⟩).2 = .returned (.login ⟨"eve@example.com", "pass12345"⟩)
        result := by
  obtain ⟨result, hmem⟩ := registers_returns .sampleBcrypt ⟨"eve@example.com", "pass1234"⟩
  have hexact := (login_exact_iff .sampleBcrypt String.length isBcrypt_sample length_append_le
    "pass1234" (by decide)).mpr (by simp [String.utf8EncodeChar]) _ _ result hmem
  refine ⟨(hexact "pass1234" (by decide) 0 (.sample '2')).mpr rfl, fun h => ?_⟩
  exact absurd ((hexact "pass12345" (by decide) 0 (.sample '2')).mp h) (by decide)

/-- the longest password in ASCII that can be registered -/
def longest : String := String.ofList (List.replicate 72 'a')

/-- **A login with one character too many**, after the registration of the longest password. -/
theorem login_accepts_longer :
    IsBcrypt .sampleBcrypt ∧ RegisterDto.admits String.length longest ∧
    LoginDto.admits String.length (longest ++ "b") ∧ longest ++ "b" ≠ longest ∧
    (∃ result, .returned (.register ⟨"eve@example.com", longest⟩) result ∈
      (run (AuthPool.step .sampleBcrypt) ⟨.initial, []⟩
        (AuthAction.registers ⟨"eve@example.com", longest⟩)).txs) ∧
    ∃ result, (AuthService.login .sampleBcrypt 0 (.sample '2') (registeredDb longest)
      ⟨"eve@example.com", longest ++ "b"⟩).2 =
        .returned (.login ⟨"eve@example.com", longest ++ "b"⟩) result := by
  refine ⟨isBcrypt_sample, by decide +kernel, by decide +kernel, by decide +kernel,
    registers_returns _ _, ?_⟩
  rw [login_returns]
  decide +kernel

end Shop
