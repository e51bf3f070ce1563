import Shop.Lib.Run
import Shop.Payment.Service

/-!
# Who creates a wallet

A wallet is created by what comes first: by `handleUserRegistered`, with the initial balance, or by
`topUp`, with its amount.  A registration that finds a wallet leaves it as it is.

* `WalletEvent`, `processEvent n`   a registration or a top-up, in a transaction of its own;
* `fund n`                     what it means for the balance of its user;
* `balance_run`                the tables follow `fund`, for every user;
* `foldl_fund_iff`             when the initial balance and the top-ups add up;
* `wallet_commutes_iff`        the same for the tables.
-/

set_option linter.unusedSectionVars false

namespace Shop
open Lib

/-- what may come for a user: the event of his registration, any number of times, and top-ups -/
inductive Funding where
  | registered
  | topUp (amount : Nat)
deriving DecidableEq, Repr

/-- with the id that the wallet is given if it is created -/
structure WalletEvent where
  walletId : Uuid
  userId : String
  funding : Funding

def WalletEvent.handle (initialBalance : Nat) (db : PaymentDb) (e : WalletEvent) :
    Except PaymentsError PaymentDb :=
  match e.funding with
  | .registered => db.handleUserRegistered e.walletId initialBalance e.userId
  | .topUp amount => db.topUp e.walletId e.userId amount

def processEvent (initialBalance : Nat) (db : PaymentDb) (e : WalletEvent) : PaymentDb :=
  commit db (e.handle initialBalance db)

def fundings (u : String) (es : List WalletEvent) : List Funding :=
  (es.filter fun e => decide (e.userId = u)).map WalletEvent.funding

def Funding.amount : Funding → Nat
  | .registered => 0
  | .topUp amount => amount

def toppedUp (fs : List Funding) : Nat := (fs.map Funding.amount).sum

theorem toppedUp_cons (f : Funding) (fs : List Funding) :
    toppedUp (f :: fs) = f.amount + toppedUp fs := List.sum_cons

/-! ## one balance -/

/-- what an event does to the balance of its user, if he has a wallet -/
def fund (n : Nat) : Option Int → Funding → Option Int
  | none, .registered => if fitsDecimal 12 n then some n else none
  | none, .topUp amount => if fitsDecimal 12 amount then some amount else none
  | some b, .registered => some b
  | some b, .topUp amount => if fitsDecimal 12 (b + amount) then some (b + amount) else some b

theorem fund_created {n : Nat} (h : fitsDecimal 12 (n : Int) = true) :
    fund n none .registered = some (n : Int) := by simp only [fund, if_pos h]

theorem fund_toppedUp (n : Nat) {amount : Nat} (h : fitsDecimal 12 (amount : Int) = true) :
    fund n none (.topUp amount) = some (amount : Int) := by simp only [fund, if_pos h]

theorem fits_iff {b : Int} (h : 0 ≤ b) : fitsDecimal 12 b = true ↔ b < 10 ^ 12 :=
  fitsDecimal_iff.trans (and_iff_right (by omega))

/-- a wallet that is there collects the top-ups -/
theorem foldl_fund_some (n : Nat) (fs : List Funding) {b : Int} (h0 : 0 ≤ b)
    (hlt : b + toppedUp fs < 10 ^ 12) : fs.foldl (fund n) (some b) = some (b + toppedUp fs) := by
  induction fs generalizing b with
  | nil => exact congrArg some (Int.add_zero b).symm
  | cons f fs ih =>
    rw [toppedUp_cons] at hlt ⊢
    rw [List.foldl_cons]
    cases f with
    | registered =>
      show fs.foldl (fund n) (some b) = some (b + ((0 + toppedUp fs : Nat) : Int))
      change b + ((0 + toppedUp fs : Nat) : Int) < 10 ^ 12 at hlt
      rw [Nat.zero_add] at hlt ⊢
      exact ih h0 hlt
    | topUp amount =>
      change b + ((amount + toppedUp fs : Nat) : Int) < 10 ^ 12 at hlt
      have hfit : fitsDecimal 12 (b + amount) = true := (fits_iff (by omega)).mpr (by omega)
      show fs.foldl (fund n) (if fitsDecimal 12 (b + amount) then _ else _) =
        some (b + ((amount + toppedUp fs : Nat) : Int))
      rw [if_pos hfit, ih (by omega) (by omega)]
      congr 1
      omega

theorem fund_lt {n : Nat} {row : Option Int} (h : ∀ b ∈ row, b < 10 ^ 12) (f : Funding) :
    ∀ b ∈ fund n row f, b < 10 ^ 12 := by
  have hfits : ∀ x : Int, fitsDecimal 12 x = true → x < 10 ^ 12 := fun x hx =>
    of_decide_eq_true (Bool.and_eq_true_iff.mp hx).2
  intro b hb
  unfold fund at hb
  split at hb
  · split at hb
    · rename_i hx
      exact Option.mem_some.mp hb ▸ hfits _ hx
    · exact nomatch hb
  · split at hb
    · rename_i hx
      exact Option.mem_some.mp hb ▸ hfits _ hx
    · exact nomatch hb
  · exact h b hb
  · split at hb
    · rename_i hx
      exact Option.mem_some.mp hb ▸ hfits _ hx
    · exact h b hb

theorem foldl_fund_lt {n : Nat} {row : Option Int} (h : ∀ b ∈ row, b < 10 ^ 12)
    (fs : List Funding) : ∀ b ∈ fs.foldl (fund n) row, b < 10 ^ 12 :=
  invariant_run (I := fun row : Option Int => ∀ b ∈ row, b < 10 ^ 12) (fund n)
    (fun _ f h => fund_lt h f) row fs h

/-- **The initial balance and the top-ups add up exactly if the column takes their sum, and the
registration comes first (or brings nothing).** -/
theorem foldl_fund_iff (n : Nat) (fs : List Funding) :
    (fs.foldl (fund n) none).getD 0 = (n : Int) + toppedUp fs ↔
      n + toppedUp fs < 10 ^ 12 ∧ (n = 0 ∨ fs.head? = some .registered) := by
  by_cases hlt : n + toppedUp fs < 10 ^ 12
  · rw [and_iff_right hlt]
    cases fs with
    | nil =>
      show (0 : Int) = n + (0 : Nat) ↔ n = 0 ∨ none = some Funding.registered
      simp only [reduceCtorEq, or_false]
      omega
    | cons f fs =>
      rw [toppedUp_cons] at hlt ⊢
      rw [List.foldl_cons]
      cases f with
      | registered =>
        change n + (0 + toppedUp fs) < 10 ^ 12 at hlt
        have hfit : fitsDecimal 12 (n : Int) = true := (fits_iff (by omega)).mpr (by omega)
        refine iff_of_true ?_ (Or.inr rfl)
        rw [fund_created hfit, foldl_fund_some n fs (by omega) (by omega), Option.getD_some]
        show (n : Int) + toppedUp fs = n + ((0 + toppedUp fs : Nat) : Int)
        omega
      | topUp amount =>
        change n + (amount + toppedUp fs) < 10 ^ 12 at hlt
        have hfit : fitsDecimal 12 (amount : Int) = true := (fits_iff (by omega)).mpr (by omega)
        rw [fund_toppedUp n hfit, foldl_fund_some n fs (by omega) (by omega), Option.getD_some]
        show (amount : Int) + toppedUp fs = n + ((amount + toppedUp fs : Nat) : Int) ↔
          n = 0 ∨ some (Funding.topUp amount) = some .registered
        simp only [Option.some.injEq, reduceCtorEq, or_false]
        omega
  · refine iff_of_false ?_ fun h => hlt h.1
    have hbound : ∀ b ∈ fs.foldl (fund n) none, b < 10 ^ 12 :=
      foldl_fund_lt (fun _ hb => absurd hb (Option.not_mem_none _)) fs
    cases hrow : fs.foldl (fund n) none with
    | none =>
      show (0 : Int) ≠ _
      omega
    | some b =>
      have hb := hbound b hrow
      show b ≠ _
      omega

/-! ## the tables -/

/-- the balance of a user who has a wallet -/
def walletBalance (t : List Wallet) (u : String) : Option Int :=
  (selectBy Wallet.userId u t).map Wallet.balance

theorem balanceOf_eq (t : List Wallet) (u : String) :
    balanceOf t u = (walletBalance t u).getD 0 := by
  unfold balanceOf walletBalance
  cases selectBy Wallet.userId u t <;> rfl

section
variable {n : Nat} {db : PaymentDb} {e : WalletEvent} {u : String}

/-- the insert of a wallet for a user who has none -/
theorem insertWallet_new {id : Uuid} {userId : String} {t : List Wallet} (balance : Int)
    (hfresh : id.val ∉ t.map Wallet.id) (hnone : selectBy Wallet.userId userId t = none) :
    insertWallet id userId balance t =
      if fitsDecimal 12 balance then .ok (t ++ [newWallet id userId balance])
      else .error .queryFailed := by
  have huser : userId ∉ t.map Wallet.userId := fun h => by
    obtain ⟨w, hw, he⟩ := List.mem_map.mp h
    exact selectBy_none.mp hnone w hw he
  unfold insertWallet
  cases hfit : fitsDecimal 12 balance with
  | true => exact if_neg fun h => h.elim hfresh fun h => h.elim huser fun h => nomatch h
  | false => exact if_pos (Or.inr (Or.inr rfl))

theorem walletBalance_append (t : List Wallet) (id : Uuid) (userId : String) (b : Int)
    (hnone : selectBy Wallet.userId userId t = none) (u : String) :
    walletBalance (t ++ [newWallet id userId b]) u =
      if userId = u then some b else walletBalance t u := by
  unfold walletBalance
  by_cases h : userId = u
  · rw [if_pos h, selectBy_append, ← h, hnone, Option.none_or]
    exact congrArg (Option.map Wallet.balance) (if_pos rfl)
  · rw [if_neg h, selectBy_append_ne h]

theorem walletBalance_setBalance {t : List Wallet} {userId : String} {w : Wallet}
    (h : selectBy Wallet.userId userId t = some w) (b : Int) (u : String) :
    walletBalance (setBalance userId b t) u = if userId = u then some b else walletBalance t u := by
  unfold walletBalance setBalance
  by_cases he : userId = u
  · rw [if_pos he, ← he, selectBy_updateBy_self (Wallet.withBalance_userId b), h]
    rfl
  · rw [if_neg he, selectBy_updateBy_ne (Wallet.withBalance_userId b) (fun e => he e.symm)]

/-- a transaction that creates the wallet -/
theorem commit_insert (id : Uuid) (userId : String) (b : Int)
    (hfresh : id.val ∉ db.wallets.map Wallet.id)
    (hnone : selectBy Wallet.userId userId db.wallets = none) (u : String) :
    walletBalance (commit db (do
        let wallets ← insertWallet id userId b db.wallets
        return { db with wallets := wallets })).wallets u =
      if userId = u then (if fitsDecimal 12 b then some b else none)
      else walletBalance db.wallets u := by
  rw [insertWallet_new b hfresh hnone]
  by_cases hfit : fitsDecimal 12 b = true
  · rw [if_pos hfit, if_pos hfit]
    exact walletBalance_append db.wallets id userId b hnone u
  · rw [if_neg hfit, if_neg hfit]
    show walletBalance db.wallets u = _
    split
    · rename_i h
      unfold walletBalance
      rw [← h, hnone]
      rfl
    · rfl

theorem walletBalance_congr {t : List Wallet} {userId u : String} (f : Option Int → Option Int) :
    (if userId = u then f (walletBalance t u) else walletBalance t u) =
      if userId = u then f (walletBalance t userId) else walletBalance t u := by
  by_cases h : userId = u
  · rw [if_pos h, if_pos h, h]
  · rw [if_neg h, if_neg h]

/-- one event, for the user that it is about and for the others -/
theorem balance_process (hfresh : e.walletId.val ∉ db.wallets.map Wallet.id) (u : String) :
    walletBalance (processEvent n db e).wallets u =
      if e.userId = u then fund n (walletBalance db.wallets u) e.funding
      else walletBalance db.wallets u := by
  unfold processEvent WalletEvent.handle
  cases e with | mk id userId funding =>
  have hkept : walletBalance db.wallets u =
      if userId = u then walletBalance db.wallets userId else walletBalance db.wallets u :=
    (ite_self _).symm.trans (walletBalance_congr fun row => row)
  rw [walletBalance_congr fun row => fund n row funding]
  cases hsel : selectBy Wallet.userId userId db.wallets with
  | none =>
    have hrow : walletBalance db.wallets userId = none := congrArg (Option.map _) hsel
    rw [hrow]
    cases funding with
    | registered =>
      simp only [PaymentDb.handleUserRegistered, hsel]
      exact commit_insert id userId n hfresh hsel u
    | topUp amount =>
      simp only [PaymentDb.topUp, hsel]
      exact commit_insert id userId amount hfresh hsel u
  | some w =>
    have hrow : walletBalance db.wallets userId = some w.balance := congrArg (Option.map _) hsel
    rw [hrow] at hkept ⊢
    cases funding with
    | registered =>
      simp only [PaymentDb.handleUserRegistered, hsel]
      exact hkept
    | topUp amount =>
      simp only [PaymentDb.topUp, hsel, fund]
      by_cases hfit : fitsDecimal 12 (w.balance + amount) = true
      · rw [if_pos hfit, if_pos hfit]
        exact walletBalance_setBalance hsel (w.balance + amount) u
      · rw [if_neg hfit, if_neg hfit]
        exact hkept

/-- every wallet id that is generated is new -/
def FreshWallets (n : Nat) (db : PaymentDb) (es : List WalletEvent) : Prop :=
  Along (processEvent n) (fun db e => e.walletId.val ∉ db.wallets.map Wallet.id) db es

theorem fundings_cons (u : String) (e : WalletEvent) (es : List WalletEvent) :
    fundings u (e :: es) = if e.userId = u then e.funding :: fundings u es else fundings u es := by
  unfold fundings
  by_cases h : e.userId = u
  · rw [if_pos h, List.filter_cons_of_pos (by simpa using h), List.map_cons]
  · rw [if_neg h, List.filter_cons_of_neg (by simpa using h)]

/-- **The tables follow the balances, for every user.** -/
theorem balance_run (n : Nat) (db : PaymentDb) (es : List WalletEvent) (u : String)
    (hfresh : FreshWallets n db es) :
    walletBalance (run (processEvent n) db es).wallets u =
      (fundings u es).foldl (fund n) (walletBalance db.wallets u) := by
  induction es generalizing db with
  | nil => rfl
  | cons e es ih =>
    rw [run_cons, ih _ hfresh.2, balance_process hfresh.1, fundings_cons]
    by_cases h : e.userId = u
    · rw [if_pos h, if_pos h, List.foldl_cons]
    · rw [if_neg h, if_neg h]

/-- **In every order in which registrations and top-ups are processed, a user ends with the initial
balance and his top-ups if and only if the column takes the sum and his registration comes first (or
the initial balance is nothing).** -/
theorem wallet_commutes_iff (n : Nat) (db : PaymentDb) (es : List WalletEvent) (u : String)
    (hnew : selectBy Wallet.userId u db.wallets = none) (hfresh : FreshWallets n db es) :
    balanceOf (run (processEvent n) db es).wallets u = (n : Int) + toppedUp (fundings u es) ↔
      n + toppedUp (fundings u es) < 10 ^ 12 ∧
        (n = 0 ∨ (fundings u es).head? = some .registered) := by
  have hrow : walletBalance db.wallets u = none := congrArg (Option.map _) hnew
  rw [balanceOf_eq, balance_run n db es u hfresh, hrow]
  exact foldl_fund_iff n (fundings u es)

/-- a registration, in the two orders with a top-up -/
def registeredFirst : List WalletEvent :=
  [⟨Uuid.sample 'a', "u1", .registered⟩, ⟨Uuid.sample 'b', "u1", .topUp 30000⟩]

def toppedUpFirst : List WalletEvent :=
  [⟨Uuid.sample 'b', "u1", .topUp 30000⟩, ⟨Uuid.sample 'a', "u1", .registered⟩]

theorem wallet_commutes_iff_first :
    balanceOf (run (processEvent 1000000) .empty registeredFirst).wallets "u1" =
        ((1000000 : Nat) : Int) + toppedUp (fundings "u1" registeredFirst) ↔
      1000000 + toppedUp (fundings "u1" registeredFirst) < 10 ^ 12 ∧
        (1000000 = 0 ∨ (fundings "u1" registeredFirst).head? = some .registered) :=
  wallet_commutes_iff 1000000 .empty registeredFirst "u1" rfl (by
    unfold FreshWallets
    decide +kernel)

/-- the wallet that the top-up has created does not get the initial balance -/
theorem initial_balance_lost :
    ¬ ∀ (n : Nat) (db : PaymentDb) (es : List WalletEvent) (u : String),
      selectBy Wallet.userId u db.wallets = none → FreshWallets n db es →
      Funding.registered ∈ fundings u es →
      balanceOf (run (processEvent n) db es).wallets u = (n : Int) + toppedUp (fundings u es) := by
  intro h
  have := h 1000000 .empty toppedUpFirst "u1" rfl (by unfold FreshWallets; decide +kernel)
    (by decide +kernel)
  exact absurd this (by decide +kernel)

end

end Shop
