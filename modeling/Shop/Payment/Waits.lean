import Shop.Payment.Concurrent
import Shop.Lib.Waits

/-!
# payment-service does not deadlock

A payment locks the keys of its row, then the wallet that it charges, then the key of its record;
a registration and a top-up lock a wallet and nothing else.  So the locks have ranks, a transaction
asks for locks of a higher rank than those it holds, and no two transactions wait for each other.

* `PaymentLock.rank`, `PaymentLock.below`   the order in which locks are taken;
* `PaymentTx.size`                          how many accesses a transaction has before it;
* `payments_drain`                          from every reachable state all transactions can end.
-/

set_option linter.unusedSectionVars false

namespace Shop
open Lib

def PaymentLock.rank : PaymentLock → Nat
  | .order _ => 0
  | .payment _ => 0
  | .user _ => 1
  | .wallet _ => 1
  | .key _ => 2

def PaymentLock.below (k k' : PaymentLock) : Prop := k.rank < k'.rank

instance : IsStrictOrder PaymentLock PaymentLock.below where
  irrefl k := Nat.lt_irrefl k.rank
  trans _ _ _ h h' := Nat.lt_trans h h'

namespace PaymentTx

/-- an upper bound of the accesses that are left -/
def size : PaymentTx → Nat
  | .started _ => 6
  | .paying _ => 5
  | .charging _ _ => 4
  | .saving _ _ _ => 3
  | .inserting _ _ _ => 2
  | .updating _ _ _ => 2
  | .finishing _ _ _ => 1
  | .replaying _ _ => 1
  | .registering _ _ => 3
  | .toppingUp _ _ => 3
  | .creating _ _ => 2
  | .created _ => 1
  | .raised _ _ _ => 1
  | .ended => 0

theorem size_le (t : PaymentTx) : t.size ≤ 6 := by
  cases t <;> simp [size]

theorem size_eq_zero {t : PaymentTx} (h : t.size = 0) : t = .ended := by
  cases t <;> simp_all [size]

/-- the rows and keys that have been locked before the key of the record -/
def Low (locks : List PaymentLock) : Prop := ∀ k ∈ locks, k.rank ≤ 1

/-- what a payment has locked when it is about to save its record: its row, and a wallet -/
def Loc : PaymentTx → Prop
  | .saving _ _ x => Low x.locks
  | .inserting _ _ x => Low x.locks
  | .updating _ _ x => Low x.locks
  | _ => True

/-- the order of the accesses, whatever they read -/
inductive Follows : PaymentTx → PaymentTx → Prop
  | found (c : ProcessPaymentCommand) (r : StoredResult) : Follows (.started c) (.replaying c r)
  | missing (c : ProcessPaymentCommand) : Follows (.started c) (.paying c)
  | pay (c : ProcessPaymentCommand) (payment : Payment) :
    Follows (.paying c) (.charging c payment)
  | charge (c : ProcessPaymentCommand) (payment : Payment) (r : StoredResult) (x : Settlement)
    (h : ∀ k ∈ x.locks, k ∈ inserted c payment ∨ k.rank = 1) :
    Follows (.charging c payment) (.saving c r x)
  | new (c : ProcessPaymentCommand) (r : StoredResult) (x : Settlement) :
    Follows (.saving c r x) (.inserting c r x)
  | again (c : ProcessPaymentCommand) (r : StoredResult) (x : Settlement) :
    Follows (.saving c r x) (.updating c r x)
  | insert (c : ProcessPaymentCommand) (r : StoredResult) (x : Settlement) :
    Follows (.inserting c r x) (.finishing c r x)
  | update (c : ProcessPaymentCommand) (r : StoredResult) (x : Settlement) :
    Follows (.updating c r x) (.finishing c r x)
  | register (userId : String) (amount : Nat) :
    Follows (.registering userId amount) (.creating userId amount)
  | topUp (userId : String) (amount : Nat) :
    Follows (.toppingUp userId amount) (.creating userId amount)
  | raise (userId : String) (amount : Nat) (balance : Int) :
    Follows (.toppingUp userId amount) (.raised userId amount balance)
  | create (userId : String) (amount : Nat) (w : Wallet) :
    Follows (.creating userId amount) (.created w)
  | finish (t : PaymentTx) (h : t.size ≠ 0) : Follows t .ended

/-- the charge of a wallet adds the lock of its row, and the payment is about to save -/
theorem follows_deducted (g : Generated) (wallet : Option Wallet) (c : ProcessPaymentCommand)
    (payment : Payment) : Follows (.charging c payment) (deducted g wallet c payment) := by
  have hlocks : ∀ k ∈ inserted c payment ++ wallet.toList.map fun w => .user w.userId,
      k ∈ inserted c payment ∨ k.rank = 1 := by
    intro k hk
    rcases List.mem_append.mp hk with hk | hk
    · exact Or.inl hk
    · obtain ⟨w, _, rfl⟩ := List.mem_map.mp hk
      exact Or.inr rfl
  unfold deducted
  cases charge wallet c.amount with
  | ok balance => exact .charge c payment _ _ hlocks
  | error e => exact .charge c payment _ _ hlocks

/-- an access leads to one that follows it -/
theorem follows_advance {g : Generated} {l l' : Ledger} {t t' : PaymentTx}
    (h : t.advance g l = some (l', t')) : Follows t t' := by
  cases t with
  | started c =>
    simp only [advance] at h
    split at h
    · cases h; exact .found c _
    · cases h; exact .missing c
  | paying c =>
    simp only [advance] at h
    split at h
    · cases h; exact .finish _ (by simp [size])
    · cases h; exact .pay c _
  | charging c payment => cases h; exact follows_deducted g _ c payment
  | saving c r x =>
    simp only [advance] at h
    split at h
    · cases h; exact .new c r x
    · cases h; exact .again c r x
  | inserting c r x =>
    simp only [advance] at h
    split at h
    · cases h; exact .insert c r x
    · cases h; exact .finish _ (by simp [size])
  | updating c r x => cases h; exact .update c r x
  | registering userId amount =>
    simp only [advance] at h
    split at h
    · cases h; exact .finish _ (by simp [size])
    · cases h; exact .register userId amount
  | toppingUp userId amount =>
    simp only [advance] at h
    split at h
    · split at h
      · cases h; exact .raise userId amount _
      · cases h; exact .finish _ (by simp [size])
    · cases h; exact .topUp userId amount
  | creating userId amount =>
    simp only [advance] at h
    split at h
    · cases h; exact .finish _ (by simp [size])
    · cases h; exact .create userId amount _
  | ended => cases h
  | _ => cases h; exact .finish _ (by simp [size])

theorem advance_goes (g : Generated) (l : Ledger) {t : PaymentTx} (h : t.size ≠ 0) :
    ∃ l' t', t.advance g l = some (l', t') := by
  cases t with
  | ended => exact absurd rfl h
  | toppingUp userId amount =>
    simp only [advance]
    split
    · split <;> exact ⟨_, _, rfl⟩
    · exact ⟨_, _, rfl⟩
  | _ =>
    simp only [advance]
    first
      | exact ⟨_, _, rfl⟩
      | split <;> exact ⟨_, _, rfl⟩

/-- every access brings its transaction nearer to its end -/
theorem Follows.size_lt {t t' : PaymentTx} (h : Follows t t') : t'.size < t.size := by
  cases h with
  | finish _ hne => exact Nat.pos_of_ne_zero hne
  | _ => simp [size]

theorem inserted_rank {c : ProcessPaymentCommand} {payment : Payment} :
    ∀ k ∈ inserted c payment, k.rank = 0 := by
  simp [inserted, PaymentLock.rank]

theorem Follows.loc {t t' : PaymentTx} (h : Follows t t') (hl : t.Loc) : t'.Loc := by
  cases h with
  | charge c payment r x hx =>
    intro k hk
    rcases hx k hk with hk | hk
    · have h₀ := inserted_rank k hk
      omega
    · omega
  | new c r x => exact hl
  | again c r x => exact hl
  | _ => trivial

/-- the locks that an access asks for rank above those that its transaction has -/
theorem Follows.above {t t' : PaymentTx} (h : Follows t t') (hl : t.Loc) :
    ∀ k ∈ t'.held, k ∉ t.held → ∀ k₀ ∈ t.held, k₀.below k := by
  intro k hk hnew k₀ hk₀
  cases h with
  | charge c payment r x hx =>
    have h₀ := inserted_rank k₀ hk₀
    rcases hx k hk with hk | hk
    · exact absurd hk hnew
    · show k₀.rank < k.rank
      omega
  | new c r x => exact absurd hk hnew
  | again c r x => exact absurd hk hnew
  | insert c r x =>
    rcases List.mem_cons.mp hk with rfl | hk
    · exact Nat.lt_succ_of_le (hl k₀ hk₀)
    · exact absurd hk hnew
  | update c r x =>
    rcases List.mem_cons.mp hk with rfl | hk
    · exact Nat.lt_succ_of_le (hl k₀ hk₀)
    · exact absurd hk hnew
  | finish _ _ => exact absurd hk List.not_mem_nil
  | _ => exact absurd hk₀ List.not_mem_nil

end PaymentTx

/-! ## the pool -/

/-- the accesses of a transaction that goes on -/
def PaymentAccess.Goes (b : PaymentAccess) : Prop := ∃ g, b = .go g

theorem payment_ordered : Ordered PaymentLock.below PaymentTx.next PaymentTx.held PaymentTx.size
    PaymentAccess.Goes (fun _ t => t.Loc) where
  goes := by
    rintro b l t ⟨g, rfl⟩ h
    exact PaymentTx.advance_goes g l h
  shrinks := by
    rintro b l t l' t' ⟨g, rfl⟩ h
    exact (PaymentTx.follows_advance h).size_lt
  above := by
    rintro b l t l' t' ⟨g, rfl⟩ hl h
    exact (PaymentTx.follows_advance h).above hl
  idle := fun t h => PaymentTx.size_eq_zero h ▸ rfl

theorem payment_waits : Stable PaymentTx.start PaymentTx.next PaymentTx.held (fun _ => True)
    (fun _ _ _ => True) (fun _ => True) (fun _ t => t.Loc) where
  start_held := fun request => by cases request <;> rfl
  start_loc := fun request _ _ _ => by cases request <;> trivial
  own := by
    intro b l t l' t' _ hl _ h
    cases b with
    | go g => exact ⟨trivial, (PaymentTx.follows_advance h).loc hl⟩
    | abort => cases h; exact ⟨trivial, trivial⟩
  other := fun _ _ _ _ _ _ _ _ hu _ _ _ => hu

/-- **payment-service does not deadlock.**  Whatever requests have arrived and whatever accesses
have been taken, the transactions that are under way can be brought to their end, with at most six
accesses for each.  A transaction that meets the unique key of another ends in a rollback. -/
theorem payments_drain (l : Ledger) (as : List PaymentAction) (g : Nat → Generated) :
    ∃ order : List Nat,
      order.length ≤ 6 * (run PaymentPool.step ⟨l, []⟩ as).txs.length ∧
      ∀ t ∈ (run PaymentPool.step (run PaymentPool.step ⟨l, []⟩ as)
        (order.mapIdx fun i tx => .access tx (.go (g i)))).txs, t = .ended := by
  have hgood := payment_waits.run trivial as (fun _ _ => trivial)
    (along_intro _ Pool.allows_true ⟨l, []⟩ as)
  obtain ⟨order, hlen, hend⟩ :=
    payment_ordered.drain payment_waits hgood (fun i => .go (g i)) fun i => ⟨g i, rfl⟩
  refine ⟨order, Nat.le_trans hlen ?_, fun t ht => PaymentTx.size_eq_zero (hend t ht)⟩
  exact Pool.size_le PaymentTx.size_le _

end Shop
