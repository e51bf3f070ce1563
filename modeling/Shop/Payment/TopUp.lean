import Shop.Gateway.Proxy
import Shop.Lib.Decimal
import Shop.Payment.Service

/-!
# Top-ups of any amount

`WalletsController.topUp` and `getWallet` with amounts as exact decimals.  The DTO asks for a number
of at least 0.01 and says nothing of its digits; the column `balance` has two of them.

* `WalletService.topUp`      the service; `WalletsController.topUp`, `getWallet` the endpoints;
* `topUps`                   a sequence of top-ups of one wallet, each followed by a read of it;
* `topUp_ok`                 what one of them answers and leaves;
* `topUps_balance`           the column accumulates what it rounds, amount after amount;
* `topUps_exact_iff`         answers and balance are exact if and only if all amounts are whole
  cents; `topUps_error` bounds what is lost otherwise.
-/

set_option linter.unusedSectionVars false

namespace Shop
open Lib

/-- `@IsNumber() @Min(0.01)` -/
structure TopUpWalletDto where
  amount : ℚ
  min : 1 / 100 ≤ amount

/-- the body that both endpoints answer with -/
structure WalletView where
  userId : String
  balance : ℚ
deriving DecidableEq

def Wallet.view (w : Wallet) : WalletView := ⟨w.userId, Decimal.value 2 w.balance⟩

/-- What the entity of a new wallet holds after `repo.save`: the insert may bring the value of the
column back, as the column has a default; an update does not. -/
abbrev Inserted := ℚ → ℚ

def Inserted.Ok (inserted : Inserted) : Prop :=
  ∀ x, inserted x = x ∨ inserted x = Decimal.stored 2 x

/-- the entity that is returned, with the rows as they are then -/
def WalletService.topUp (inserted : Inserted) (walletId : Uuid) (t : List Wallet)
    (userId : String) (amount : ℚ) : Except PaymentsError (List Wallet × WalletView) :=
  match selectBy Wallet.userId userId t with
  | none => do
    let t ← insertWallet walletId userId (Decimal.units 2 amount) t
    return (t, ⟨userId, inserted amount⟩)
  | some wallet =>
    let balance := Decimal.value 2 wallet.balance + amount
    if fitsDecimal 12 (Decimal.units 2 balance) then
      .ok (setBalance userId (Decimal.units 2 balance) t, ⟨wallet.userId, balance⟩)
    else .error .queryFailed

def WalletService.getBalance (t : List Wallet) (userId : String) : Option Wallet :=
  selectBy Wallet.userId userId t

namespace WalletsController

def getWallet (t : List Wallet) (userId requesterId : String) (rolesHeader : Option String) :
    Except HttpException WalletView :=
  if requesterId ≠ userId ∧ Role.admin ∉ WalletsController.parseRoles rolesHeader then
    .error ⟨403, "Access denied"⟩
  else
    match WalletService.getBalance t userId with
    | none => .error ⟨404, "Wallet not found"⟩
    | some wallet => .ok wallet.view

/-- an error of the service has no filter of its own -/
def topUp (inserted : Inserted) (walletId : Uuid) (t : List Wallet) (userId : String)
    (dto : TopUpWalletDto) (rolesHeader : Option String) :
    Except HttpException (List Wallet × WalletView) :=
  if Role.admin ∉ WalletsController.parseRoles rolesHeader then
    .error ⟨403, "Admin role required"⟩
  else
    match WalletService.topUp inserted walletId t userId dto.amount with
    | .error _ => .error ⟨500, "Internal server error"⟩
    | .ok r => .ok r

end WalletsController

/-! ## one top-up -/

theorem balanceOf_of_some {t : List Wallet} {userId : String} {wallet : Wallet}
    (h : selectBy Wallet.userId userId t = some wallet) : balanceOf t userId = wallet.balance := by
  unfold balanceOf
  rw [h]

theorem balanceOf_of_none {t : List Wallet} {userId : String}
    (h : selectBy Wallet.userId userId t = none) : balanceOf t userId = 0 := by
  unfold balanceOf
  rw [h]

theorem accumulate_zero (x : ℚ) : Decimal.accumulate 2 0 x = Decimal.units 2 x := by
  unfold Decimal.accumulate Decimal.value
  rw [Int.cast_zero, zero_div, zero_add]

/-- on whole cents it is the top-up of the other transactions' model -/
theorem WalletService.topUp_cents (inserted : Inserted) (walletId : Uuid) (db : PaymentDb)
    (userId : String) (cents : Nat) :
    (WalletService.topUp inserted walletId db.wallets userId (Decimal.value 2 cents)).map
        (fun r => { db with wallets := r.1 }) = db.topUp walletId userId cents := by
  unfold WalletService.topUp PaymentDb.topUp
  cases hrow : selectBy Wallet.userId userId db.wallets with
  | none =>
    simp only [Decimal.units_value]
    cases insertWallet walletId userId cents db.wallets <;> rfl
  | some wallet =>
    simp only [← Decimal.value_add, Decimal.units_value]
    split <;> rfl

/-- what the caller is told: the sum as it was before the column rounded it, unless the insert has
brought the column's value back -/
def answered (inserted : Inserted) (t : List Wallet) (userId : String) (amount : ℚ) : ℚ :=
  match selectBy Wallet.userId userId t with
  | none => inserted amount
  | some wallet => Decimal.value 2 wallet.balance + amount

/-- a top-up goes through if the column takes the new balance; it answers with the unrounded one -/
theorem WalletService.topUp_ok (inserted : Inserted) {walletId : Uuid} {t : List Wallet}
    {userId : String} {amount : ℚ}
    (hfresh : selectBy Wallet.userId userId t = none → walletId.val ∉ t.map Wallet.id)
    (hfits : fitsDecimal 12 (Decimal.accumulate 2 (balanceOf t userId) amount) = true) :
    ∃ t' wallet, WalletService.topUp inserted walletId t userId amount =
        .ok (t', ⟨userId, answered inserted t userId amount⟩) ∧
      selectBy Wallet.userId userId t' = some wallet ∧
      wallet.balance = Decimal.accumulate 2 (balanceOf t userId) amount ∧
      ∀ u, u ≠ userId → balanceOf t' u = balanceOf t u := by
  unfold WalletService.topUp answered
  cases hrow : selectBy Wallet.userId userId t with
  | none =>
    rw [balanceOf_of_none hrow, accumulate_zero] at hfits ⊢
    have hinsert : insertWallet walletId userId (Decimal.units 2 amount) t =
        .ok (t ++ [newWallet walletId userId (Decimal.units 2 amount)]) := by
      unfold insertWallet
      rw [if_neg]
      rintro (hid | huser | hrange)
      · exact hfresh hrow hid
      · obtain ⟨w, hw, he⟩ := List.mem_map.mp huser
        exact selectBy_none.mp hrow w hw he
      · rw [hfits] at hrange
        cases hrange
    refine ⟨t ++ [newWallet walletId userId (Decimal.units 2 amount)],
      newWallet walletId userId (Decimal.units 2 amount), ?_, ?_, rfl, fun u hu => ?_⟩
    · simp only [hinsert]
      rfl
    · rw [selectBy_append, hrow]
      exact if_pos rfl
    · unfold balanceOf
      rw [selectBy_append_ne (fun e => hu e.symm)]
  | some wallet =>
    rw [balanceOf_of_some hrow] at hfits ⊢
    have huser : wallet.userId = userId := (selectBy_some hrow).2
    refine ⟨setBalance userId (Decimal.accumulate 2 wallet.balance amount) t,
      wallet.withBalance (Decimal.accumulate 2 wallet.balance amount), ?_, ?_, rfl, fun u hu => ?_⟩
    · simp only [Decimal.accumulate] at hfits
      simp only [if_pos hfits, huser]
      rfl
    · unfold setBalance
      rw [selectBy_updateBy_self (Wallet.withBalance_userId _), hrow]
      rfl
    · rw [balanceOf_setBalance hrow, if_neg fun e => hu e.symm]

theorem WalletsController.topUp_ok {inserted : Inserted} {walletId : Uuid} {t : List Wallet}
    {userId : String} {dto : TopUpWalletDto} {rolesHeader : Option String}
    {r : List Wallet × WalletView}
    (hadmin : Role.admin ∈ WalletsController.parseRoles rolesHeader)
    (h : WalletService.topUp inserted walletId t userId dto.amount = .ok r) :
    WalletsController.topUp inserted walletId t userId dto rolesHeader = .ok r := by
  unfold WalletsController.topUp
  rw [if_neg fun hno => hno hadmin, h]

theorem WalletsController.getWallet_ok {t : List Wallet} {userId requesterId : String}
    {rolesHeader : Option String} {wallet : Wallet}
    (hadmin : Role.admin ∈ WalletsController.parseRoles rolesHeader)
    (h : selectBy Wallet.userId userId t = some wallet) :
    WalletsController.getWallet t userId requesterId rolesHeader =
      .ok ⟨userId, Decimal.value 2 (balanceOf t userId)⟩ := by
  unfold WalletsController.getWallet WalletService.getBalance
  rw [if_neg fun hc => hc.2 hadmin, h, balanceOf_of_some h, ← (selectBy_some h).2]
  rfl

/-- the answer agrees with what is read next, if the amount is in whole cents -/
theorem answered_exact {inserted : Inserted} (hinserted : inserted.Ok) (t : List Wallet)
    (userId : String) {amount : ℚ} (h : Decimal.Exact 2 amount) :
    answered inserted t userId amount =
      Decimal.value 2 (Decimal.accumulate 2 (balanceOf t userId) amount) := by
  unfold answered
  cases hrow : selectBy Wallet.userId userId t with
  | none =>
    have hstored : Decimal.stored 2 amount = amount := (Decimal.stored_eq_iff 2 amount).mpr h
    rw [balanceOf_of_none hrow, accumulate_zero]
    rcases hinserted amount with he | he
    · exact he.trans hstored.symm
    · exact he
  | some wallet =>
    rw [balanceOf_of_some hrow]
    exact ((Decimal.value_accumulate_iff 2 _ _).mpr h).symm

/-- a wallet that is there tells every other amount -/
theorem answered_iff {inserted : Inserted} {t : List Wallet} {userId : String} {wallet : Wallet}
    (h : selectBy Wallet.userId userId t = some wallet) (amount : ℚ) :
    Decimal.value 2 (Decimal.accumulate 2 (balanceOf t userId) amount) =
      answered inserted t userId amount ↔ Decimal.Exact 2 amount := by
  unfold answered
  rw [h, balanceOf_of_some h]
  exact Decimal.value_accumulate_iff 2 _ _

theorem view_ok_iff {userId : String} {a b : ℚ} :
    (Except.ok ⟨userId, a⟩ : Except HttpException WalletView) = .ok ⟨userId, b⟩ ↔ a = b :=
  ⟨fun h => congrArg WalletView.balance (Except.ok.inj h), fun h => by rw [h]⟩

/-! ## a sequence of top-ups -/

structure TopUpCall where
  -- of the wallet, if there is none
  walletId : Uuid
  dto : TopUpWalletDto

def TopUpCall.amount (c : TopUpCall) : ℚ := c.dto.amount

/-- what the call returned, and what the next `getWallet` did -/
structure TopUpAnswer where
  returned : WalletView
  read : Except HttpException WalletView
deriving DecidableEq

def topUps (inserted : Inserted) (userId requesterId : String) (rolesHeader : Option String) :
    List Wallet → List TopUpCall → Except HttpException (List Wallet × List TopUpAnswer)
  | t, [] => .ok (t, [])
  | t, c :: cs => do
    let (t, returned) ← WalletsController.topUp inserted c.walletId t userId c.dto rolesHeader
    let read := WalletsController.getWallet t userId requesterId rolesHeader
    let (t, answers) ← topUps inserted userId requesterId rolesHeader t cs
    return (t, ⟨returned, read⟩ :: answers)

/-- the column after the amounts -/
def accumulated (t : List Wallet) (userId : String) (calls : List TopUpCall) : Int :=
  (calls.map TopUpCall.amount).foldl (Decimal.accumulate 2) (balanceOf t userId)

/-- the column takes every balance on the way -/
def BalancesFit (t : List Wallet) (userId : String) (calls : List TopUpCall) : Prop :=
  ∀ cs, cs <+: calls → fitsDecimal 12 (accumulated t userId cs) = true

section
variable (inserted : Inserted) (requesterId : String) {userId : String}
  {rolesHeader : Option String}

theorem accumulated_cons {t t₁ : List Wallet} {c : TopUpCall}
    (h : balanceOf t₁ userId = Decimal.accumulate 2 (balanceOf t userId) c.amount)
    (cs : List TopUpCall) : accumulated t userId (c :: cs) = accumulated t₁ userId cs := by
  unfold accumulated
  rw [List.map_cons, List.foldl_cons, h]

theorem BalancesFit.tail {t t₁ : List Wallet} {c : TopUpCall} {cs : List TopUpCall}
    (hfits : BalancesFit t userId (c :: cs))
    (h : balanceOf t₁ userId = Decimal.accumulate 2 (balanceOf t userId) c.amount) :
    BalancesFit t₁ userId cs := fun ds hds => by
  rw [← accumulated_cons h ds]
  exact hfits (c :: ds) ((List.prefix_cons_inj c).mpr hds)

/-- the first call of a sequence, its answer and the read that follows it -/
theorem topUps_cons {t : List Wallet} {c : TopUpCall} {cs : List TopUpCall}
    (hadmin : Role.admin ∈ WalletsController.parseRoles rolesHeader)
    (hfresh : selectBy Wallet.userId userId t = none → c.walletId.val ∉ t.map Wallet.id)
    (hfits : BalancesFit t userId (c :: cs)) :
    ∃ t₁ wallet, selectBy Wallet.userId userId t₁ = some wallet ∧
      balanceOf t₁ userId = Decimal.accumulate 2 (balanceOf t userId) c.amount ∧
      (∀ u, u ≠ userId → balanceOf t₁ u = balanceOf t u) ∧
      ∀ t' answers, topUps inserted userId requesterId rolesHeader t₁ cs = .ok (t', answers) →
        topUps inserted userId requesterId rolesHeader t (c :: cs) =
          .ok (t', ⟨⟨userId, answered inserted t userId c.amount⟩,
            .ok ⟨userId, Decimal.value 2 (balanceOf t₁ userId)⟩⟩ :: answers) := by
  have hfirst : fitsDecimal 12 (Decimal.accumulate 2 (balanceOf t userId) c.amount) = true :=
    hfits [c] ((List.prefix_cons_inj c).mpr List.nil_prefix)
  obtain ⟨t₁, wallet, htop, hrow, hbalance, hothers⟩ :=
    WalletService.topUp_ok inserted hfresh hfirst
  refine ⟨t₁, wallet, hrow, (balanceOf_of_some hrow).trans hbalance, hothers, ?_⟩
  intro t' answers hrest
  have hcall : WalletsController.topUp inserted c.walletId t userId c.dto rolesHeader =
      .ok (t₁, ⟨userId, answered inserted t userId c.amount⟩) :=
    WalletsController.topUp_ok hadmin htop
  rw [topUps, hcall]
  show (topUps inserted userId requesterId rolesHeader t₁ cs).bind _ = _
  rw [hrest, WalletsController.getWallet_ok hadmin hrow]
  rfl

/-- the answers from a wallet that is there -/
theorem topUps_answers {t : List Wallet} {wallet : Wallet} {calls : List TopUpCall}
    (hadmin : Role.admin ∈ WalletsController.parseRoles rolesHeader)
    (hrow : selectBy Wallet.userId userId t = some wallet) (hfits : BalancesFit t userId calls) :
    ∃ t' answers, topUps inserted userId requesterId rolesHeader t calls = .ok (t', answers) ∧
      balanceOf t' userId = accumulated t userId calls ∧
      (∀ u, u ≠ userId → balanceOf t' u = balanceOf t u) ∧
      ((∀ a ∈ answers, a.read = .ok a.returned) ↔ ∀ c ∈ calls, Decimal.Exact 2 c.amount) := by
  induction calls generalizing t wallet with
  | nil => exact ⟨t, [], rfl, rfl, fun _ _ => rfl, ⟨nofun, nofun⟩⟩
  | cons c cs ih =>
    obtain ⟨t₁, wallet₁, hrow₁, hbalance, hothers, hcons⟩ :=
      topUps_cons inserted requesterId hadmin
        (fun hnone => by rw [hrow] at hnone; cases hnone) hfits
    obtain ⟨t', answers, hrest, hfinal, hframe, hanswers⟩ := ih hrow₁ (hfits.tail hbalance)
    refine ⟨t', _, hcons t' answers hrest, hfinal.trans (accumulated_cons hbalance cs).symm,
      fun u hu => (hframe u hu).trans (hothers u hu), ?_⟩
    rw [List.forall_mem_cons, List.forall_mem_cons, hanswers, hbalance, view_ok_iff,
      answered_iff hrow]

/-- the balance is what the column accumulates, and no other wallet changes -/
theorem topUps_balance {t : List Wallet} {calls : List TopUpCall}
    (hadmin : Role.admin ∈ WalletsController.parseRoles rolesHeader)
    (hfresh : ∀ c ∈ calls, c.walletId.val ∉ t.map Wallet.id)
    (hfits : BalancesFit t userId calls) :
    ∃ t' answers, topUps inserted userId requesterId rolesHeader t calls = .ok (t', answers) ∧
      balanceOf t' userId = accumulated t userId calls ∧
      ∀ u, u ≠ userId → balanceOf t' u = balanceOf t u := by
  cases calls with
  | nil => exact ⟨t, [], rfl, rfl, fun _ _ => rfl⟩
  | cons c cs =>
    obtain ⟨t₁, wallet, hrow, hbalance, hothers, hcons⟩ := topUps_cons inserted requesterId hadmin
      (fun _ => hfresh c List.mem_cons_self) hfits
    obtain ⟨t', answers, hrest, hfinal, hframe, -⟩ :=
      topUps_answers inserted requesterId hadmin hrow (hfits.tail hbalance)
    exact ⟨t', _, hcons t' answers hrest, hfinal.trans (accumulated_cons hbalance cs).symm,
      fun u hu => (hframe u hu).trans (hothers u hu)⟩

/-- a top-up may lose half a cent, or make it -/
theorem topUps_error {t : List Wallet} {calls : List TopUpCall}
    (hadmin : Role.admin ∈ WalletsController.parseRoles rolesHeader)
    (hfresh : ∀ c ∈ calls, c.walletId.val ∉ t.map Wallet.id)
    (hfits : BalancesFit t userId calls) :
    ∃ t' answers, topUps inserted userId requesterId rolesHeader t calls = .ok (t', answers) ∧
      |Decimal.value 2 (balanceOf t' userId) -
        (Decimal.value 2 (balanceOf t userId) + (calls.map TopUpCall.amount).sum)| ≤
          calls.length * (1 / 2 / 10 ^ 2) := by
  obtain ⟨t', answers, hrun, hfinal, -⟩ := topUps_balance inserted requesterId hadmin hfresh hfits
  refine ⟨t', answers, hrun, ?_⟩
  have herror := Decimal.foldl_accumulate_error 2 (calls.map TopUpCall.amount) (balanceOf t userId)
  rw [List.length_map] at herror
  rw [hfinal]
  exact herror

/-- **Top-ups are credited exactly if and only if every amount is in whole cents.**  They go through
as long as the column takes the totals: what is at stake is the answers and the sum. -/
theorem topUps_exact_iff (hinserted : inserted.Ok) {t : List Wallet} {calls : List TopUpCall}
    (hadmin : Role.admin ∈ WalletsController.parseRoles rolesHeader)
    (hfresh : ∀ c ∈ calls, c.walletId.val ∉ t.map Wallet.id)
    (hfits : BalancesFit t userId calls) :
    ∃ t' answers, topUps inserted userId requesterId rolesHeader t calls = .ok (t', answers) ∧
      (((∀ a ∈ answers, a.read = .ok a.returned) ∧
        Decimal.value 2 (balanceOf t' userId) =
          Decimal.value 2 (balanceOf t userId) + (calls.map TopUpCall.amount).sum) ↔
        ∀ c ∈ calls, Decimal.Exact 2 c.amount) := by
  cases calls with
  | nil => exact ⟨t, [], rfl, ⟨fun _ => nofun, fun _ => ⟨nofun, (add_zero _).symm⟩⟩⟩
  | cons c cs =>
    obtain ⟨t₁, wallet, hrow, hbalance, -, hcons⟩ := topUps_cons inserted requesterId hadmin
      (fun _ => hfresh c List.mem_cons_self) hfits
    obtain ⟨t', answers, hrest, hfinal, -, hanswers⟩ :=
      topUps_answers inserted requesterId hadmin hrow (hfits.tail hbalance)
    -- once the rest is exact, the sum is missed by what the first amount is rounded by
    have hsum (hcs : ∀ d ∈ cs, Decimal.Exact 2 d.amount) :
        Decimal.value 2 (balanceOf t' userId) = Decimal.value 2 (balanceOf t userId) +
          ((c :: cs).map TopUpCall.amount).sum ↔ Decimal.Exact 2 c.amount := by
      have hamounts : ∀ x ∈ cs.map TopUpCall.amount, Decimal.Exact 2 x := by
        intro x hx
        obtain ⟨d, hd, rfl⟩ := List.mem_map.mp hx
        exact hcs d hd
      rw [hfinal]
      unfold accumulated
      rw [Decimal.foldl_accumulate_exact 2 hamounts, hbalance, List.map_cons, List.sum_cons,
        ← add_assoc, add_left_inj]
      exact Decimal.value_accumulate_iff 2 _ _
    refine ⟨t', _, hcons t' answers hrest, ?_⟩
    rw [List.forall_mem_cons, List.forall_mem_cons, hanswers]
    constructor
    · rintro ⟨⟨-, hcs⟩, htotal⟩
      exact ⟨(hsum hcs).mp htotal, hcs⟩
    · rintro ⟨hc, hcs⟩
      refine ⟨⟨?_, hcs⟩, (hsum hcs).mpr hc⟩
      rw [hbalance]
      exact view_ok_iff.mpr (answered_exact hinserted t userId hc).symm

end

/-- 0.50 and 10.25 on 10.00 -/
theorem topUps_exact_cents :
    let calls : List TopUpCall := [⟨Uuid.sample 'a', ⟨1 / 2, by norm_num⟩⟩,
      ⟨Uuid.sample 'b', ⟨41 / 4, by norm_num⟩⟩]
    ∃ t' answers, topUps (Decimal.stored 2) "bob" "root" (some "admin")
        [⟨"wallet-bob", "bob", 1000⟩] calls = .ok (t', answers) ∧
      (((∀ a ∈ answers, a.read = .ok a.returned) ∧
        Decimal.value 2 (balanceOf t' "bob") =
          Decimal.value 2 1000 + (calls.map TopUpCall.amount).sum) ↔
        ∀ c ∈ calls, Decimal.Exact 2 c.amount) :=
  topUps_exact_iff (Decimal.stored 2) "root" (fun _ => Or.inr rfl) (by decide +kernel)
    (by decide +kernel) fun cs hcs =>
      (show ∀ cs ∈ List.inits _, fitsDecimal 12 (accumulated [⟨"wallet-bob", "bob", 1000⟩] "bob" cs)
        = true by decide +kernel) cs ((List.mem_inits _ _).mpr hcs)

/-- 0.015 on 10.00: the call answers 10.015, the next read 10.02 -/
theorem topUp_rounds :
    topUps (Decimal.stored 2) "bob" "root" (some "admin") [⟨"wallet-bob", "bob", 1000⟩]
      [⟨Uuid.sample 'a', ⟨15 / 1000, by norm_num⟩⟩] =
        .ok ([⟨"wallet-bob", "bob", 1002⟩],
          [⟨⟨"bob", 10015 / 1000⟩, .ok ⟨"bob", 1002 / 100⟩⟩]) ∧
    (10015 / 1000 : ℚ) ≠ 1002 / 100 ∧ Decimal.value 2 1002 ≠ Decimal.value 2 1000 + 15 / 1000 := by
  decide +kernel

end Shop
