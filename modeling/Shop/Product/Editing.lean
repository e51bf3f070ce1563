import Shop.Product.Cache
import Shop.Lib.Save

/-!
# Editing a product while its stock moves

`products.service.ts` on one product: `update` and `remove` read the row without a lock and save the
whole entity; `reserveStock` and `releaseStock` lock the row before they write it.

* `productsOps`         a product, as it is found and stored;
* `ProductTx`           an edit, or a transaction that moves stock, by its next access;
* `Inventory`           the row, with the quantities that committed transactions have moved;
* `keepsStock b db t`   an edit writes the stock column with nothing but the stock that is there;
* `stock_balanced_iff`  the stock is what was moved, in exactly the runs in which all edits do so;
* `stock_balanced_fails`   a new name that puts back the stock of three pens that were sold;
* `products_removal`    only `remove` makes a product inactive.
-/

set_option linter.unusedSectionVars false

namespace Shop
open Lib

/-! ## a product as an entity -/

/-- the row after the UPDATE of the columns in which the entity differs from the row read again -/
def Product.merge (s reread p : Product) : Product where
  id := p.id
  name := saveColumn s.name reread.name p.name
  description := saveColumn s.description reread.description p.description
  price := saveColumn s.price reread.price p.price
  stock := saveColumn s.stock reread.stock p.stock
  isActive := saveColumn s.isActive reread.isActive p.isActive
  createdAt := saveColumn s.createdAt reread.createdAt p.createdAt

inductive ProductCall where
  | findById
  | edit (e : Edit)
deriving DecidableEq, Repr

def ProductCall.find (row : Product) : ProductCall → Reading Product ProductsError
  | .findById =>
    match row.visible with
    | some product => .answer product
    | none => .refuse (.productNotFound row.id)
  | .edit e =>
    match row.visible with
    | some product => if e.storable then .save (e.apply product) else .refuse .queryFailed
    | none => .refuse (.productNotFound row.id)

def productsOps : SaveOps ProductCall Product Product ProductsError where
  find := fun e row => e.find row
  same := fun s row => decide (s.merge row row = row)
  store := fun s reread row => some (s.merge reread row)

abbrev EditCall := SaveCall ProductCall Product Product ProductsError

/-! ## the transactions -/

/-- the edits' view of the row, and the quantities of the lines that were committed -/
structure Inventory where
  edits : SaveDb ProductCall Product
  reserved : Int
  released : Int

inductive InventoryCall where
  | call (c : ProductCall)
  | stock (op : StockOp)

/-- `moved` is the quantity of the lines that the transaction has written -/
inductive ProductTx where
  | call (c : EditCall)
  | looping (op : StockOp)
  | locked (op : StockOp) (todo : List LineItem) (row : Product) (moved : Int)
  | ended

inductive InventoryAccess where
  | go
  -- a line of another product is refused
  | refuse
  | fail
deriving DecidableEq, Repr

namespace Inventory

def initial (row : Product) : Inventory := ⟨⟨row, []⟩, 0, 0⟩

def row (db : Inventory) : Product := db.edits.row

def commit (db : Inventory) (op : StockOp) (row : Product) (moved : Int) : Inventory where
  edits := { db.edits with row := row }
  reserved := match op with
    | .releaseStock _ => db.reserved
    | _ => db.reserved + moved
  released := match op with
    | .releaseStock _ => db.released + moved
    | _ => db.released

end Inventory

namespace ProductTx

def start : InventoryCall → ProductTx
  | .call c => .call (.finding c)
  | .stock op => .looping op

/-- the loop has thrown: the saga's handler commits what was written before -/
def failed (op : StockOp) (row : Product) (moved : Int) : ProductTx :=
  match op with
  | .sagaReserveStock _ => .locked op [] row moved
  | _ => .ended

def advance (db : Inventory) : ProductTx → Option (Inventory × ProductTx)
  | .call c => (c.advance productsOps db.edits).map fun r => ({ db with edits := r.1 }, .call r.2)
  | .looping op =>
    match op.linesOf db.row.id with
    | [] => some (db, .ended)
    | todo => some (db, .locked op todo db.row 0)
  | .locked op [] row moved => some (db.commit op row moved, .ended)
  | .locked op (i :: todo) row moved =>
    match op.turn row i with
    | .ok row => some (db, .locked op todo row (moved + i.quantity))
    | .error _ => some (db, failed op row moved)
  | .ended => none

def next : InventoryAccess → Inventory → ProductTx → Option (Inventory × ProductTx)
  | .go, db, t => t.advance db
  | .refuse, db, .locked op _ row moved => some (db, failed op row moved)
  | .refuse, _, _ => none
  | .fail, db, .call c => c.rollback.map fun c' => (db, .call c')
  | .fail, _, .ended => none
  | .fail, db, _ => some (db, .ended)

def held : ProductTx → List Unit
  | .call c => c.held
  | .locked _ _ _ _ => [()]
  | _ => []

end ProductTx

abbrev InventoryAction := PoolAction InventoryCall InventoryAccess

def InventoryPool.step : Pool Inventory ProductTx → InventoryAction → Pool Inventory ProductTx :=
  Pool.step ProductTx.start ProductTx.next ProductTx.held

/-! ## what the stock comes to -/

/-- the stock is the one at the start, less the reservations, plus the releases -/
def Inventory.Balanced (row₀ : Product) (db : Inventory) : Prop :=
  db.row.stock = row₀.stock - db.reserved + db.released

instance (row₀ : Product) (db : Inventory) : Decidable (db.Balanced row₀) :=
  inferInstanceAs (Decidable (_ = _))

/-- The UPDATE of an edit leaves the stock column alone, because the row that was read again had the
stock of the entity, or it writes the stock that is there. -/
def keepsStock : InventoryAccess → Inventory → ProductTx → Prop
  | .go, db, .call (.storing _ s reread) => s.stock = reread.stock ∨ s.stock = db.row.stock
  | _, _, _ => True

/-- the stock of a row that has been written line by line -/
def StockOp.moved (op : StockOp) (stock moved : Int) : Int :=
  match op with
  | .releaseStock _ => stock + moved
  | _ => stock - moved

/-- what a transaction has written is what it has moved -/
def ProductTx.Sound (db : Inventory) : ProductTx → Prop
  | .locked op _ row moved => row.stock = op.moved db.row.stock moved
  | _ => True

section
variable {db db' : Inventory} {t t' u : ProductTx} {op : StockOp} {row row' row₀ : Product} {q : Int}
  {i : LineItem}

theorem StockOp.turn_stock (h : op.turn row i = .ok row') :
    row'.stock = op.moved row.stock i.quantity := by
  cases op with
  | releaseStock qs =>
    cases h
    rfl
  | _ =>
    obtain ⟨p, hp, _, rfl⟩ := reserveRow_ok h
    rw [List.mem_singleton.mp hp]
    rfl

theorem StockOp.moved_moved (op : StockOp) (stock a b : Int) :
    op.moved (op.moved stock a) b = op.moved stock (a + b) := by
  cases op <;> simp only [StockOp.moved] <;> omega

theorem ProductTx.Sound.failed (h : row.stock = op.moved db.row.stock q) :
    (ProductTx.failed op row q).Sound db := by
  cases op with
  | sagaReserveStock qs => exact h
  | _ => trivial

/-- a commit moves the stock by what the transaction has written -/
theorem Inventory.Balanced.commit (h : db.Balanced row₀)
    (hrow : row.stock = op.moved db.row.stock q) : (db.commit op row q).Balanced row₀ := by
  have hold : db.row.stock = row₀.stock - db.reserved + db.released := h
  show row.stock = row₀.stock - (db.commit op row q).reserved + (db.commit op row q).released
  rw [hrow, hold]
  cases op <;> simp only [StockOp.moved, Inventory.commit] <;> omega

theorem ProductTx.Sound.of_row (hu : u.Sound db) (h : db'.row = db.row) : u.Sound db' := by
  cases u with
  | locked op todo row moved =>
    show row.stock = op.moved db'.row.stock moved
    rw [h]
    exact hu
  | _ => trivial

/-- an edit writes the row in its last access only, while it holds the lock -/
theorem EditCall.advance_row {e e' : SaveDb ProductCall Product} {c c' : EditCall}
    (h : c.advance productsOps e = some (e', c')) : e'.row = e.row ∨ ∃ x s reread,
      c = .storing x s reread ∧ e'.row = s.merge reread e.row := by
  cases c with
  | finding x =>
    simp only [SaveCall.advance] at h
    split at h <;> cases h <;> exact Or.inl rfl
  | saving x s =>
    simp only [SaveCall.advance] at h
    split at h <;> cases h <;> exact Or.inl rfl
  | writing x s reread =>
    cases h
    exact Or.inl rfl
  | storing x s reread =>
    cases h
    exact Or.inr ⟨x, s, reread, rfl, rfl⟩
  | returned x s => cases h
  | refused error => cases h
  | failed => cases h

/-- **One access.** -/
theorem ProductTx.Sound.advance (ht : t.Sound db) (hb : db.Balanced row₀)
    (hk : keepsStock .go db t) (ha : t.advance db = some (db', t')) :
    db'.Balanced row₀ ∧ t'.Sound db' ∧ (t.held = [] → db'.row = db.row) := by
  cases t with
  | call c =>
    obtain ⟨⟨e', c'⟩, hr, he⟩ := Option.map_eq_some_iff.mp ha
    cases he
    rcases EditCall.advance_row hr with hrow | ⟨x, s, reread, rfl, hrow⟩
    · refine ⟨?_, trivial, fun _ => hrow⟩
      show e'.row.stock = _
      rw [hrow]
      exact hb
    · refine ⟨?_, trivial, fun hno => by cases hno⟩
      show e'.row.stock = _
      rw [hrow]
      show saveColumn s.stock reread.stock db.row.stock = _
      rw [(saveColumn_eq_iff _ _ _).mpr hk]
      exact hb
  | looping op =>
    simp only [ProductTx.advance] at ha
    split at ha <;> cases ha
    · exact ⟨hb, trivial, fun _ => rfl⟩
    · refine ⟨hb, ?_, fun _ => rfl⟩
      show db.row.stock = op.moved db.row.stock 0
      cases op <;> simp only [StockOp.moved] <;> omega
  | locked op todo row moved =>
    have hrow : row.stock = op.moved db.row.stock moved := ht
    cases todo with
    | nil =>
      cases ha
      exact ⟨hb.commit hrow, trivial, fun hno => by cases hno⟩
    | cons i todo =>
      simp only [ProductTx.advance] at ha
      split at ha
      · rename_i row' hturn
        cases ha
        refine ⟨hb, ?_, fun _ => rfl⟩
        show row'.stock = op.moved db.row.stock (moved + i.quantity)
        rw [StockOp.turn_stock hturn, hrow, StockOp.moved_moved]
      · cases ha
        exact ⟨hb, .failed hrow, fun _ => rfl⟩
  | ended => cases ha

theorem ProductTx.Sound.locked_held {db : Inventory} (hu : u.Sound db)
    (h : u.held = [] ∨ db'.row = db.row) : u.Sound db' := by
  rcases h with h | h
  · cases u with
    | locked op todo row moved => cases h
    | _ => trivial
  · exact hu.of_row h

theorem stable_inventory (row₀ : Product) : Stable ProductTx.start ProductTx.next ProductTx.held
    (fun _ => True) keepsStock (fun db => db.Balanced row₀) (fun db t => t.Sound db) where
  start_held := fun c => by cases c <;> rfl
  start_loc := fun c _ _ _ => by cases c <;> trivial
  own := by
    intro b db t db' t' hb ht hk hn
    cases b with
    | go =>
      obtain ⟨hb', ht', _⟩ := ht.advance hb hk hn
      exact ⟨hb', ht'⟩
    | refuse =>
      cases t <;> cases hn
      exact ⟨hb, .failed ht⟩
    | fail =>
      cases t with
      | call c =>
        obtain ⟨c', _, he⟩ := Option.map_eq_some_iff.mp hn
        cases he
        exact ⟨hb, trivial⟩
      | ended => cases hn
      | _ =>
        cases hn
        exact ⟨hb, trivial⟩
  other := by
    intro b db t db' t' u hb ht hu hk hn hlocks
    cases b with
    | go =>
      obtain ⟨_, _, hrow⟩ := ht.advance hb hk hn
      by_cases hheld : t.held = []
      · exact hu.of_row (hrow hheld)
      · -- the row is locked by `t`, so `u` has not written it
        obtain ⟨k, hk⟩ := List.exists_mem_of_ne_nil _ hheld
        refine hu.locked_held (Or.inl ?_)
        apply List.eq_nil_iff_forall_not_mem.mpr
        intro k' hk'
        exact hlocks k hk hk'
    | refuse =>
      cases t <;> cases hn
      exact hu
    | fail =>
      cases t with
      | call c =>
        obtain ⟨c', _, he⟩ := Option.map_eq_some_iff.mp hn
        cases he
        exact hu
      | ended => cases hn
      | _ =>
        cases hn
        exact hu

end

/-- **The stock is what was moved, in exactly the runs in which no edit writes another stock than the
one that is there.** -/
theorem stock_balanced_iff (row₀ : Product) (as : List InventoryAction) :
    Along InventoryPool.step (fun p a => (InventoryPool.step p a).db.Balanced row₀)
        ⟨.initial row₀, []⟩ as ↔
      Along InventoryPool.step (Pool.allows keepsStock) ⟨.initial row₀, []⟩ as := by
  have hstable := stable_inventory row₀
  refine (along_iff InventoryPool.step (I := Pool.Good ProductTx.held
    (fun db => db.Balanced row₀) (fun db t => t.Sound db)) ?_ ?_ _ as ?_).symm
  · intro p a hp ha
    exact hstable.step hp a (fun _ _ => trivial) ha
  · intro p a hp
    constructor
    · intro ha
      exact (hstable.step hp a (fun _ _ => trivial) ha).inv
    · intro hafter
      cases a with
      | start c => trivial
      | access tx b =>
        intro t ht
        cases b with
        | refuse => trivial
        | fail => trivial
        | go =>
          cases t with
          | call c =>
            cases c with
            | storing x s reread =>
              have hold : p.db.row.stock = _ := hp.inv
              have hstep : InventoryPool.step p (.access tx .go) = _ := Pool.step_access ht rfl rfl
              rw [hstep] at hafter
              have hnew : saveColumn s.stock reread.stock p.db.row.stock = _ := hafter
              rw [← hold] at hnew
              exact (saveColumn_eq_iff _ _ _).mp hnew
            | _ => trivial
          | _ => trivial
  · refine ⟨?_, fun _ h => absurd h List.not_mem_nil, fun i _ _ _ _ hx => by cases hx⟩
    show row₀.stock = row₀.stock - 0 + 0
    omega

/-- an update whose input sets the stock -/
def InventoryAction.setsStock : InventoryAction → Bool
  | .start (.call (.edit (.update input))) => input.stock.isSome
  | _ => false

/-- `n` accesses of a transaction -/
def InventoryAction.accesses (tx n : Nat) : List InventoryAction :=
  List.replicate n (.access tx .go)

/-- **A new name puts back the stock that was sold.**  The update reads five pens, three are reserved
and committed, and the save finds two in the row where its entity has five. -/
theorem stock_balanced_fails : ¬ ∀ (row₀ : Product) (as : List InventoryAction),
    (∀ a ∈ as, a.setsStock = false) →
      (run InventoryPool.step ⟨.initial row₀, []⟩ as).db.Balanced row₀ := by
  intro h
  let as : List InventoryAction :=
    [.start (.call (.edit (.update ⟨some (some "Biro"), none, none, none⟩)))] ++
      InventoryAction.accesses 0 1 ++
      [.start (.stock (.reserveStock [⟨Product.pens.id, 3⟩]))] ++
      InventoryAction.accesses 1 3 ++ InventoryAction.accesses 0 3
  exact absurd (h .pens as (by decide)) (by decide +kernel)

/-! ## removed products -/

def ProductCall.removes : ProductCall → Prop
  | .edit .remove => True
  | _ => False

instance : DecidablePred ProductCall.removes
  | .edit .remove => .isTrue trivial
  | .edit (.update _) => .isFalse id
  | .findById => .isFalse id

theorem Product.visible_some {row p : Product} (h : row.visible = some p) :
    p = row ∧ p.isActive = true := by
  unfold Product.visible at h
  split at h
  · rename_i ha
    cases h
    exact ⟨rfl, ha⟩
  · cases h

/-- neither `findById` nor a reservation sees a product that was removed -/
theorem Product.removed_unseen {row : Product} (h : row.isActive = false) :
    row.visible = none ∧ ∀ quantity,
      reserveRow [row] ⟨row.id, quantity⟩ = .error (.productNotFound row.id) := by
  constructor
  · unfold Product.visible
    rw [h]
    rfl
  · intro quantity
    have hfind : findActive row.id [row] = none := by
      refine List.find?_eq_none.mpr fun p hp => ?_
      rw [List.mem_singleton.mp hp, h, Bool.and_false]
      exact Bool.false_ne_true
    simp only [reserveRow, hfind]

/-- an active entity is saved over a row that was inactive when it was read again -/
def Product.revives (s reread : Product) : Prop := s.isActive = true ∧ reread.isActive = false

theorem products_removal : Removal productsOps ProductCall.removes (fun s => s.isActive = false)
    (fun row => row.isActive = false) Product.revives where
  find := by
    intro e row s h
    cases e with
    | findById =>
      simp only [productsOps, ProductCall.find] at h
      split at h <;> cases h
    | edit e =>
      simp only [productsOps, ProductCall.find] at h
      split at h
      · rename_i p hp
        split at h <;> cases h
        obtain ⟨_, ha⟩ := Product.visible_some hp
        cases e with
        | update input =>
          show False ↔ p.isActive = false
          rw [ha]
          exact ⟨False.elim, fun h => by cases h⟩
        | remove => exact ⟨fun _ => rfl, fun _ => trivial⟩
      · cases h
  answer := by
    intro e row s h
    cases e with
    | findById => exact fun hr => hr
    | edit e =>
      simp only [productsOps, ProductCall.find] at h
      split at h
      · split at h <;> cases h
      · cases h
  same := by
    intro s row h hs
    have hmerge := congrArg Product.isActive (of_decide_eq_true h)
    show row.isActive = false
    rw [← hmerge]
    show saveColumn s.isActive row.isActive row.isActive = false
    rw [hs]
    exact (saveColumn_false_iff _ _).mpr fun h => h
  kills := by
    intro s reread row row' h hs hdead
    cases h
    show saveColumn s.isActive reread.isActive row.isActive = false
    rw [hs]
    exact (saveColumn_false_iff _ _).mpr hdead
  spares := by
    intro s reread row row' h hs hdead
    cases h
    have ha : s.isActive = true := by simpa using hs
    have hd : saveColumn s.isActive reread.isActive row.isActive = false := hdead
    rw [ha] at hd
    exact saveColumn_true hd
  revives := by
    intro s reread row hdead
    have hstore : ∀ row', productsOps.store s reread row = some row' ↔ s.merge reread row = row' :=
      fun row' => ⟨Option.some.inj, congrArg some⟩
    simp only [hstore, exists_eq_left', Product.revives]
    show _ ↔ ¬ saveColumn s.isActive reread.isActive row.isActive = false
    rw [hdead]
    cases s.isActive <;> cases reread.isActive <;> decide

end Shop
