import Shop.Shared.Identity
import Shop.Lib.Run
import Mathlib.Data.List.Basic

/-!
# The gateway's cache of verified tokens

`jwt.strategy.ts`: the user of a verified payload, cached under `jwt:${sub}:${iat}` until the token
expires.  `auth-proxy.controller.ts` deletes the key of the token that logs out.

* `cacheKey`, `cachedUntil`   the key of a payload, and how long its user stays in the cache;
* `JwtStrategy.validate`      one call, with the failures that Redis may have;
* `TokenCacheAction`          what happens to the cache, in any order;
* `cache_transparent_iff`     the calls whose answers never depend on the cache;
* `cache_mixes_roles`         two tokens of one second.
-/

set_option linter.unusedSectionVars false

namespace Shop
open Lib

structure CacheEntry where
  key : String
  user : RequestUser
  deadline : Nat
deriving DecidableEq, Repr

abbrev JwtCache := List CacheEntry

namespace JwtCache

/-- an entry whose deadline has passed is not there any more -/
def get (cache : JwtCache) (key : String) (now : Nat) : Option RequestUser :=
  (cache.find? fun e => decide (e.key = key) && decide (now < e.deadline)).map CacheEntry.user

def del (cache : JwtCache) (key : String) : JwtCache := cache.filter fun e => decide (e.key ≠ key)

def set (cache : JwtCache) (key : String) (user : RequestUser) (deadline : Nat) : JwtCache :=
  ⟨key, user, deadline⟩ :: cache.del key

end JwtCache

/-- the text of `payload.iat` in the template -/
def iatText : Option Nat → String
  | none => "undefined"
  | some n => Nat.repr n

def cacheKey (payload : JwtPayload) : String :=
  "jwt:" ++ payload.sub ++ ":" ++ iatText payload.iat

/-- the user that a payload determines -/
def requestUser (payload : JwtPayload) : RequestUser :=
  ⟨payload.sub, payload.email, payload.roles.getD []⟩

/-- `now` is `Date.now()`, in milliseconds -/
def ttlMs (payload : JwtPayload) (now : Nat) : Int :=
  ((payload.exp.getD 0 : Int) - (now / 1000 : Nat)) * 1000

/-- until when the user of a payload is cached that is written `now`; `0` when it is not written -/
def cachedUntil (payload : JwtPayload) (now : Nat) : Nat :=
  if 0 < ttlMs payload now then now + (ttlMs payload now).toNat else 0

/-- one call; a read or a write of the cache may fail, which is logged and otherwise ignored -/
def JwtStrategy.validate (payload : JwtPayload) (now : Nat) (readFails writeFails : Bool)
    (cache : JwtCache) : RequestUser × JwtCache :=
  let key := cacheKey payload
  match (if readFails then none else cache.get key now) with
  | some cached => (cached, cache)
  | none =>
    let user := requestUser payload
    if 0 < ttlMs payload now then
      (user, if writeFails then cache else cache.set key user (cachedUntil payload now))
    else (user, cache)

/-- a call of `validate`; the logout of a token; the eviction of a key -/
inductive TokenCacheAction where
  | validate (payload : JwtPayload) (now : Nat) (readFails writeFails : Bool)
  | logout (token : Option JwtPayload)
  | evict (key : String)

/-- the deletion of `logout`, when the token can be decoded and says when it was issued -/
def AuthProxyController.logout (token : Option JwtPayload) (cache : JwtCache) : JwtCache :=
  match token with
  | none => cache
  | some payload =>
    match payload.iat with
    | none => cache
    | some 0 => cache
    | some _ => cache.del (cacheKey payload)

def JwtCache.step (cache : JwtCache) : TokenCacheAction → JwtCache
  | .validate payload now readFails writeFails =>
    (JwtStrategy.validate payload now readFails writeFails cache).2
  | .logout token => AuthProxyController.logout token cache
  | .evict key => cache.del key

/-- the call that an action is -/
def TokenCacheAction.call : TokenCacheAction → Option (JwtPayload × Nat)
  | .validate payload now _ _ => some (payload, now)
  | _ => none

/-- the call returns what its own payload determines -/
def TokenCacheAction.transparent (cache : JwtCache) : TokenCacheAction → Prop
  | .validate payload now readFails writeFails =>
    (JwtStrategy.validate payload now readFails writeFails cache).1 = requestUser payload
  | _ => True

instance (cache : JwtCache) : ∀ a : TokenCacheAction, Decidable (a.transparent cache)
  | .validate _ _ _ _ => inferInstanceAs (Decidable (_ = _))
  | .logout _ => .isTrue trivial
  | .evict _ => .isTrue trivial

/-! ## the key -/

theorem colon_not_mem_iatText (iat : Option Nat) : ':' ∉ (iatText iat).toList := by
  cases iat with
  | none => decide
  | some n =>
    intro h
    have hdigit : (':' : Char).isDigit = true := by
      refine Nat.isDigit_of_mem_toDigits (b := 10) (n := n) (by omega) (by omega) ?_
      rw [← Nat.toList_repr]
      exact h
    exact absurd hdigit (by decide)

theorem iatText_inj {iat iat' : Option Nat} (h : iatText iat = iatText iat') : iat = iat' := by
  have hu : ∀ n, iatText none ≠ iatText (some n) := by
    intro n e
    have hmem : 'u' ∈ Nat.toDigits 10 n := by
      rw [← Nat.toList_repr]
      show 'u' ∈ (iatText (some n)).toList
      rw [← e]
      decide
    exact absurd (Nat.isDigit_of_mem_toDigits (by omega) (by omega) hmem) (by decide)
  cases iat with
  | none =>
    cases iat' with
    | none => rfl
    | some n => exact absurd h (hu n)
  | some n =>
    cases iat' with
    | none => exact absurd h.symm (hu n)
    | some m =>
      have hdigits : Nat.toDigits 10 n = Nat.toDigits 10 m := by
        rw [← Nat.toList_repr, ← Nat.toList_repr]
        exact congrArg String.toList h
      rw [← Nat.ofDigitChars_ten_toDigits (n := n), hdigits, Nat.ofDigitChars_ten_toDigits]

/-- a text is cut at the last separator in one way only -/
theorem append_separator_inj {α : Type} {c : α} {xs xs' ys ys' : List α} (hy : c ∉ ys)
    (hy' : c ∉ ys') (h : xs ++ c :: ys = xs' ++ c :: ys') : xs = xs' ∧ ys = ys' := by
  have hcut : ∀ {as us us' : List α}, c ∉ us → c :: us = as ++ c :: us' → as = [] := by
    intro as us us' hus e
    cases as with
    | nil => rfl
    | cons a as =>
      have htail := (List.cons.inj e).2
      exact absurd (htail ▸ List.mem_append_right _ List.mem_cons_self) hus
  rcases List.append_eq_append_iff.mp h with ⟨as, hx, hc⟩ | ⟨as, hx, hc⟩
  · obtain rfl := hcut hy hc
    rw [List.append_nil] at hx
    exact ⟨hx.symm, (List.cons.inj hc).2⟩
  · obtain rfl := hcut hy' hc
    rw [List.append_nil] at hx
    exact ⟨hx, (List.cons.inj hc).2.symm⟩

/-- **The key is the subject and the second of issue**: what stands after the last colon is `iat`. -/
theorem cacheKey_eq_iff {a b : JwtPayload} :
    cacheKey a = cacheKey b ↔ a.sub = b.sub ∧ a.iat = b.iat := by
  constructor
  · intro h
    have htext := congrArg String.toList h
    simp only [cacheKey, String.toList_append, List.append_assoc] at htext
    obtain ⟨hsub, hiat⟩ := append_separator_inj (colon_not_mem_iatText a.iat)
      (colon_not_mem_iatText b.iat) (List.append_cancel_left htext)
    exact ⟨String.toList_inj.mp hsub, iatText_inj (String.toList_inj.mp hiat)⟩
  · rintro ⟨hsub, hiat⟩
    rw [cacheKey, cacheKey, hsub, hiat]

/-! ## what is in the cache -/

/-- the entry was written by an earlier call -/
def CacheEntry.From (e : CacheEntry) (call : JwtPayload × Nat) : Prop :=
  e = ⟨cacheKey call.1, requestUser call.1, cachedUntil call.1 call.2⟩

theorem JwtCache.get_some {cache : JwtCache} {key : String} {now : Nat} {user : RequestUser}
    (h : cache.get key now = some user) :
    ∃ e ∈ cache, e.key = key ∧ now < e.deadline ∧ e.user = user := by
  obtain ⟨e, he, heq⟩ := Option.map_eq_some_iff.mp h
  have hp := List.find?_some he
  simp only [Bool.and_eq_true, decide_eq_true_eq] at hp
  exact ⟨e, List.mem_of_find?_eq_some he, hp.1, hp.2, heq⟩

theorem JwtCache.mem_del {cache : JwtCache} {key : String} {e : CacheEntry}
    (h : e ∈ cache.del key) : e ∈ cache := List.mem_of_mem_filter h

theorem mem_logout {token : Option JwtPayload} {cache : JwtCache} {e : CacheEntry}
    (h : e ∈ AuthProxyController.logout token cache) : e ∈ cache := by
  unfold AuthProxyController.logout at h
  split at h
  · exact h
  · split at h
    · exact h
    · exact h
    · exact JwtCache.mem_del h

/-- a call writes at most its own entry -/
theorem mem_validate {payload : JwtPayload} {now : Nat} {readFails writeFails : Bool}
    {cache : JwtCache} {e : CacheEntry}
    (h : e ∈ (JwtStrategy.validate payload now readFails writeFails cache).2) :
    e ∈ cache ∨ e.From (payload, now) := by
  unfold JwtStrategy.validate at h
  simp only at h
  split at h
  · exact Or.inl h
  · split at h
    · cases writeFails with
      | true => exact Or.inl h
      | false =>
        rcases List.mem_cons.mp h with rfl | h
        · exact Or.inr rfl
        · exact Or.inl (JwtCache.mem_del h)
    · exact Or.inl h

theorem mem_step {a : TokenCacheAction} {cache : JwtCache} {e : CacheEntry} (h : e ∈ cache.step a) :
    e ∈ cache ∨ ∃ call, a.call = some call ∧ e.From call := by
  cases a with
  | validate payload now readFails writeFails =>
    rcases mem_validate h with h | h
    · exact Or.inl h
    · exact Or.inr ⟨_, rfl, h⟩
  | logout token => exact Or.inl (mem_logout h)
  | evict key => exact Or.inl (JwtCache.mem_del h)

/-- two calls that the cache keeps apart: not of one key, or too far apart in time, or of one user -/
def KeptApart (a b : JwtPayload × Nat) : Prop :=
  a.1.sub = b.1.sub → a.1.iat = b.1.iat → b.2 < cachedUntil a.1 a.2 →
    requestUser a.1 = requestUser b.1

/-- a hit is on the entry of an earlier call -/
theorem validate_hit {payload : JwtPayload} {now : Nat} {readFails writeFails : Bool}
    {cache : JwtCache} {calls : List (JwtPayload × Nat)}
    (hcache : ∀ e ∈ cache, ∃ call ∈ calls, e.From call)
    (hapart : ∀ call ∈ calls, KeptApart call (payload, now)) :
    (TokenCacheAction.validate payload now readFails writeFails).transparent cache := by
  show (JwtStrategy.validate payload now readFails writeFails cache).1 = requestUser payload
  unfold JwtStrategy.validate
  simp only
  split
  · rename_i cached hget
    cases readFails with
    | true => cases hget
    | false =>
      obtain ⟨e, he, hkey, hlive, rfl⟩ := JwtCache.get_some hget
      obtain ⟨call, hcall, rfl⟩ := hcache e he
      obtain ⟨hsub, hiat⟩ := cacheKey_eq_iff.mp hkey
      exact hapart call hcall hsub hiat hlive
  · split <;> rfl

/-- **The run lemma**: the cache holds entries of the calls so far, which are kept apart from those
to come. -/
theorem transparent_run {calls : List (JwtPayload × Nat)} (as : List TokenCacheAction)
    (cache : JwtCache) (hcache : ∀ e ∈ cache, ∃ call ∈ calls, e.From call)
    (hapart : (calls ++ as.filterMap TokenCacheAction.call).Pairwise KeptApart) :
    Along JwtCache.step (fun cache a => a.transparent cache) cache as := by
  induction as generalizing cache calls with
  | nil => trivial
  | cons a as ih =>
    cases hcall : a.call with
    | none =>
      have hsame : List.filterMap TokenCacheAction.call (a :: as) =
          List.filterMap TokenCacheAction.call as :=
        List.filterMap_cons_none hcall
      rw [hsame] at hapart
      refine ⟨?_, ih (cache.step a) (fun e he => ?_) hapart⟩
      · cases a with
        | validate payload now readFails writeFails => cases hcall
        | _ => trivial
      · rcases mem_step he with he | ⟨call, hc, _⟩
        · exact hcache e he
        · cases hcall.symm.trans hc
    | some call =>
      rw [List.filterMap_cons_some hcall] at hapart
      have hbefore : ∀ c ∈ calls, KeptApart c call := fun c hc =>
        (List.pairwise_append.mp hapart).2.2 c hc call List.mem_cons_self
      have hassoc : (calls ++ [call] ++ as.filterMap TokenCacheAction.call).Pairwise KeptApart := by
        rw [List.append_assoc]
        exact hapart
      refine ⟨?_, ih (cache.step a) (fun e he => ?_) hassoc⟩
      · cases a with
        | validate payload now readFails writeFails =>
          cases hcall
          exact validate_hit hcache hbefore
        | _ => cases hcall
      · rcases mem_step he with he | ⟨call', hc, hfrom⟩
        · obtain ⟨c, hc, hfrom⟩ := hcache e he
          exact ⟨c, List.mem_append_left _ hc, hfrom⟩
        · obtain rfl := Option.some.inj (hcall.symm.trans hc)
          exact ⟨_, List.mem_append_right _ (List.mem_singleton.mpr rfl), hfrom⟩

/-! ## calls that are not kept apart -/

/-- a call while Redis answers nothing and takes nothing -/
def TokenCacheAction.silent (call : JwtPayload × Nat) : TokenCacheAction :=
  .validate call.1 call.2 true true

/-- a call while Redis works -/
def TokenCacheAction.served (call : JwtPayload × Nat) : TokenCacheAction :=
  .validate call.1 call.2 false false

theorem step_silent (call : JwtPayload × Nat) (cache : JwtCache) :
    cache.step (.silent call) = cache := by
  show (JwtStrategy.validate call.1 call.2 true true cache).2 = cache
  unfold JwtStrategy.validate
  simp only
  split
  · rfl
  · split <;> rfl

theorem run_silent (calls : List (JwtPayload × Nat)) (cache : JwtCache) :
    run JwtCache.step cache (calls.map TokenCacheAction.silent) = cache := by
  induction calls generalizing cache with
  | nil => rfl
  | cons call calls ih => rw [List.map_cons, run_cons, step_silent, ih]

/-- the first call writes its user, and the second one is answered with it -/
theorem served_after {a b : JwtPayload × Nat} (hsub : a.1.sub = b.1.sub) (hiat : a.1.iat = b.1.iat)
    (hlive : b.2 < cachedUntil a.1 a.2)
    (h : (TokenCacheAction.served b).transparent (JwtCache.step [] (.served a))) :
    requestUser a.1 = requestUser b.1 := by
  have hkey : cacheKey a.1 = cacheKey b.1 := cacheKey_eq_iff.mpr ⟨hsub, hiat⟩
  have hpos : 0 < ttlMs a.1 a.2 := by
    by_contra hneg
    unfold cachedUntil at hlive
    rw [if_neg hneg] at hlive
    exact absurd hlive (Nat.not_lt_zero _)
  have hcache : JwtCache.step [] (.served a) =
      [⟨cacheKey a.1, requestUser a.1, cachedUntil a.1 a.2⟩] := by
    show (JwtStrategy.validate a.1 a.2 false false []).2 = _
    simp [JwtStrategy.validate, JwtCache.get, JwtCache.set, JwtCache.del, hpos]
  have hget : JwtCache.get [⟨cacheKey a.1, requestUser a.1, cachedUntil a.1 a.2⟩] (cacheKey b.1) b.2 =
      some (requestUser a.1) := by
    simp [JwtCache.get, hkey, hlive]
  have hserved : (JwtStrategy.validate b.1 b.2 false false (JwtCache.step [] (.served a))).1 =
      requestUser b.1 := h
  rw [hcache] at hserved
  simpa [JwtStrategy.validate, hget] using hserved

theorem pairwise_of_split {α : Type} {R : α → α → Prop} {l : List α}
    (h : ∀ l₁ a l₂ b l₃, l = l₁ ++ a :: (l₂ ++ b :: l₃) → R a b) : l.Pairwise R := by
  induction l with
  | nil => exact List.Pairwise.nil
  | cons x l ih =>
    refine List.pairwise_cons.mpr ⟨fun b hb => ?_, ih fun l₁ a l₂ b l₃ e => ?_⟩
    · obtain ⟨l₂, l₃, rfl⟩ := List.append_of_mem hb
      exact h [] x l₂ b l₃ rfl
    · exact h (x :: l₁) a l₂ b l₃ (by rw [e, List.cons_append])

/-- **The cache is transparent for a sequence of calls**, whatever is deleted, evicted or fails in
between, exactly if no call follows one of the same subject and second, while its entry lives, that
has another e-mail or other roles. -/
theorem cache_transparent_iff (calls : List (JwtPayload × Nat)) :
    (∀ as : List TokenCacheAction, as.filterMap TokenCacheAction.call = calls →
      Along JwtCache.step (fun cache a => a.transparent cache) [] as) ↔
    calls.Pairwise fun a b => a.1.sub = b.1.sub → a.1.iat = b.1.iat →
      b.2 < cachedUntil a.1 a.2 → requestUser a.1 = requestUser b.1 := by
  constructor
  · intro h
    refine pairwise_of_split fun l₁ a l₂ b l₃ e hsub hiat hlive => ?_
    -- Redis works for the two calls only
    have hcalls : ((l₁.map TokenCacheAction.silent) ++ .served a ::
        ((l₂.map TokenCacheAction.silent) ++ .served b ::
          l₃.map TokenCacheAction.silent)).filterMap TokenCacheAction.call = calls := by
      have hsilent : ∀ l : List (JwtPayload × Nat),
          (l.map TokenCacheAction.silent).filterMap TokenCacheAction.call = l := by
        intro l
        rw [List.filterMap_map]
        exact List.filterMap_some
      rw [List.filterMap_append, hsilent, e]
      show l₁ ++ a :: _ = _
      rw [List.filterMap_append, hsilent]
      show l₁ ++ a :: (l₂ ++ b :: _) = _
      rw [hsilent]
    have halong := h _ hcalls
    rw [along_append, run_silent] at halong
    have hrest := halong.2.2
    rw [along_append, run_silent] at hrest
    exact served_after hsub hiat hlive hrest.2.1
  · intro h as has
    apply transparent_run as [] (fun _ => nofun)
    rw [List.nil_append, has]
    exact h

/-- **A token is answered with the roles of another one**: a user is made an administrator and logs
in again within the second of the first token. -/
theorem cache_mixes_roles :
    let before : JwtPayload :=
      ⟨"u1", "eve@example.com", some [.user], some "j1", some 1000, some 4600⟩
    let after : JwtPayload :=
      ⟨"u1", "eve@example.com", some [.admin, .user], some "j2", some 1000, some 4600⟩
    ¬ Along JwtCache.step (fun cache a => a.transparent cache) []
      [.validate before 1000100 false false, .validate after 1000900 false false] := by
  decide +kernel

end Shop
