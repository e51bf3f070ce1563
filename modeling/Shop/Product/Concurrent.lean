import Shop.Product.Service
import Shop.Shared.Outbox
import Shop.Lib.Pool
import Mathlib.Logic.Relation

/-!
# Concurrent deliveries of one stock command

The two handlers of product-service as sequences of database accesses, under READ COMMITTED: a read
sees what has been committed and what its own transaction has written, a row that is read for update
or updated is locked until the transaction ends, and the insert of a key waits for a transaction
that has inserted the same key.

* `StockTx`, `StockTx.next`   a delivery that is under way, and its next access;
* `StockTx.alone`             a delivery that runs alone does what the handler does;
* `ActsOnce g db₀ as db`      at most one execution of the command, and the same reply every time;
* `missed b db t`             a delivery that found no record at its start finds none when it saves;
* `stock_once`                runs in which every delivery that saves has `missed` act once;
* `stock_twice`               two deliveries that overlap, and a reservation that is made twice.

The idempotency record is looked up without a lock, and `save` updates a record that is there, so
the primary key of the record does not stop the second delivery.
-/

set_option linter.unusedSectionVars false

namespace Shop
open Lib

inductive StockCommand where
  | reserve (c : ReserveStockCommand)
  | release (c : ReleaseStockCommand)
deriving DecidableEq, Repr

namespace StockCommand

def commandId : StockCommand → String
  | .reserve c => c.commandId
  | .release c => c.commandId

def orderId : StockCommand → String
  | .reserve c => c.orderId
  | .release c => c.orderId

/-- what the handler makes of the products, and its reply, when it finds no record -/
def execute (t : List Product) : StockCommand → List Product × StoredResult
  | .reserve c => ((reserveItems t c.items).1, ProductDb.reserveReply c (reserveItems t c.items).2)
  | .release c => (releaseItems t c.items, ProductDb.releaseReply c)

/-- the serial handler of the command -/
def handle (g : RowDefaults) (db : ProductDb) : StockCommand → ProductDb
  | .reserve c => db.handleReserveStock g c
  | .release c => db.handleReleaseStock g c

end StockCommand

/-! ## transactions -/

/-- an uncommitted write of a product row -/
inductive StockWrite where
  | save (id : String) (stock : Int)
  | increment (item : LineItem)
deriving DecidableEq, Repr

def StockWrite.apply (t : List Product) : StockWrite → List Product
  | .save id stock => setStock id stock t
  | .increment item => releaseItem t item

/-- what a transaction has written, and the product rows it has locked -/
structure Uncommitted where
  writes : List StockWrite
  locks : List String
deriving DecidableEq, Repr

/-- the products as the transaction reads them -/
def Uncommitted.view (x : Uncommitted) (t : List Product) : List Product :=
  x.writes.foldl StockWrite.apply t

def Uncommitted.lock (x : Uncommitted) (ids : List String) : Uncommitted :=
  { x with locks := x.locks ++ ids }

def Uncommitted.write (x : Uncommitted) (s : StockWrite) : Uncommitted :=
  { x with writes := x.writes ++ [s] }

/-- A delivery by its next access.  It looks up the record (`started`); it queues the recorded reply
again and commits (`replaying`), or runs the loop of `reserveStock` or `releaseStock`, selects the
key (`saving`), inserts or updates the record, queues the reply and commits (`finishing`). -/
inductive StockTx where
  | started (c : StockCommand)
  | replaying (c : StockCommand) (r : StoredResult)
  | reserving (c : ReserveStockCommand) (todo : List LineItem)
      (reserved : List OrderCreatedEventItem) (x : Uncommitted)
  | releasing (c : ReleaseStockCommand) (todo : List LineItem) (x : Uncommitted)
  | saving (c : StockCommand) (r : StoredResult) (x : Uncommitted)
  | inserting (c : StockCommand) (r : StoredResult) (x : Uncommitted)
  | updating (c : StockCommand) (r : StoredResult) (x : Uncommitted)
  | finishing (c : StockCommand) (r : StoredResult) (x : Uncommitted)
  | ended
deriving DecidableEq, Repr

/-- the transaction goes on (with what the database generates for it), or is rolled back -/
inductive StockAccess where
  | go (g : RowDefaults)
  | abort

inductive StockLock where
  | product (id : String)
  | key (k : String)
deriving DecidableEq, Repr

namespace StockTx

def execution : StockCommand → StockTx
  | .reserve c => .reserving c c.items [] ⟨[], []⟩
  | .release c => .releasing c c.items ⟨[], []⟩

/-- the rows that `SELECT ... FOR UPDATE` returns for a line -/
def selected (t : List Product) (item : LineItem) : List String :=
  match findActive item.productId t with
  | some product => [product.id]
  | none => []

/-- the rows that an increment updates -/
def updated (t : List Product) (item : LineItem) : List String :=
  (t.map Product.id).filter fun id => decide (id = item.product)

def advance (g : RowDefaults) (db : ProductDb) : StockTx → Option (ProductDb × StockTx)
  | .started c =>
    match findKey c.commandId db.idempotencyKeys with
    | some existing => some (db, .replaying c existing)
    | none => some (db, execution c)
  | .replaying c r => some (db.write g c.orderId r, .ended)
  | .reserving c [] reserved x =>
    some (db, .saving (.reserve c) (ProductDb.reserveReply c (.ok reserved)) x)
  | .reserving c (item :: todo) reserved x =>
    let t := x.view db.products
    let x := x.lock (selected t item)
    match reserveRow t item with
    | .error e => some (db, .saving (.reserve c) (ProductDb.reserveReply c (.error e)) x)
    | .ok product =>
      some (db, .reserving c todo (reserved ++ [reservedItem item product])
        (x.write (.save product.id product.stock)))
  | .releasing c [] x => some (db, .saving (.release c) (ProductDb.releaseReply c) x)
  | .releasing c (item :: todo) x =>
    some (db, .releasing c todo
      ((x.lock (updated (x.view db.products) item)).write (.increment item)))
  | .saving c r x =>
    match findKey c.commandId db.idempotencyKeys with
    | none => some (db, .inserting c r x)
    | some _ => some (db, .updating c r x)
  | .inserting c r x =>
    match findKey c.commandId db.idempotencyKeys with
    | none => some (db, .finishing c r x)
    -- the primary key is violated
    | some _ => some (db, .ended)
  | .updating c r x => some (db, .finishing c r x)
  | .finishing c r x =>
    let db := { db with
      products := x.view db.products
      idempotencyKeys := saveKey c.commandId r db.idempotencyKeys }
    some (db.write g c.orderId r, .ended)
  | .ended => none

def next (b : StockAccess) (db : ProductDb) (t : StockTx) : Option (ProductDb × StockTx) :=
  match b with
  | .go g => t.advance g db
  | .abort => some (db, .ended)

def held : StockTx → List StockLock
  | .reserving _ _ _ x => x.locks.map .product
  | .releasing _ _ x => x.locks.map .product
  | .saving _ _ x => x.locks.map .product
  | .inserting _ _ x => x.locks.map .product
  | .updating _ _ x => x.locks.map .product
  | .finishing c _ x => .key c.commandId :: x.locks.map .product
  | _ => []

end StockTx

/-- deliveries that start, and accesses of those under way -/
abbrev StockAction := PoolAction StockCommand StockAccess

def StockPool.step : Pool ProductDb StockTx → StockAction → Pool ProductDb StockTx :=
  Pool.step .started StockTx.next StockTx.held

def delivered (as : List StockAction) : List StockCommand :=
  as.filterMap fun a => match a with
    | .start c => some c
    | .access _ _ => none

/-- nothing has been committed, or the products are as after one execution of a delivered command;
and the replies that have been queued are the same -/
def ActsOnce (g : RowDefaults) (db₀ : ProductDb) (as : List StockAction) (db : ProductDb) : Prop :=
  (db = db₀ ∨ ∃ c ∈ delivered as, db.products = (c.handle g db₀).products) ∧
  ∀ r ∈ db.outbox.drop db₀.outbox.length, ∀ r' ∈ db.outbox.drop db₀.outbox.length,
    r.message = r'.message

instance (g : RowDefaults) (db₀ : ProductDb) (as : List StockAction) (db : ProductDb) :
    Decidable (ActsOnce g db₀ as db) := inferInstanceAs (Decidable ((_ ∨ _) ∧ _))

def StockTx.saves : StockTx → Option StockCommand
  | .saving c _ _ => some c
  | _ => none

/-- a delivery that has executed its command finds no record when it is about to save its own -/
def missed : StockAccess → ProductDb → StockTx → Prop
  | .go _, db, t => ∀ c ∈ t.saves, findKey c.commandId db.idempotencyKeys = none
  | .abort, _, _ => True

instance : ∀ b db t, Decidable (missed b db t)
  | .go _, db, t =>
    inferInstanceAs (Decidable (∀ c ∈ t.saves, findKey c.commandId db.idempotencyKeys = none))
  | .abort, _, _ => .isTrue trivial

theorem mem_delivered {as : List StockAction} {c : StockCommand} :
    c ∈ delivered as ↔ .start c ∈ as := by
  unfold delivered
  rw [List.mem_filterMap]
  constructor
  · rintro ⟨a, ha, h⟩
    cases a with
    | start c' => cases h; exact ha
    | access _ _ => cases h
  · intro h
    exact ⟨_, h, rfl⟩

/-! ## what a delivery makes of the committed products -/

theorem Uncommitted.view_write (x : Uncommitted) (s : StockWrite) (t : List Product) :
    (x.write s).view t = s.apply (x.view t) := by
  show List.foldl _ _ (_ ++ [s]) = _
  rw [List.foldl_append]
  rfl

/-- the rest of the loop of `reserveStock`, and the reply -/
def resume (c : ReserveStockCommand) (t : List Product) (reserved : List OrderCreatedEventItem)
    (todo : List LineItem) : List Product × StoredResult :=
  match reserveItems t todo with
  | (t', .ok rest) => (t', ProductDb.reserveReply c (.ok (reserved ++ rest)))
  | (t', .error e) => (t', ProductDb.reserveReply c (.error e))

theorem resume_nil (c : ReserveStockCommand) (t : List Product)
    (reserved : List OrderCreatedEventItem) :
    resume c t reserved [] = (t, ProductDb.reserveReply c (.ok reserved)) := by
  show (t, ProductDb.reserveReply c (.ok (reserved ++ []))) = _
  rw [List.append_nil]

theorem resume_error (c : ReserveStockCommand) {t : List Product} {item : LineItem}
    {e : ProductsError} (h : reserveRow t item = .error e) (reserved : List OrderCreatedEventItem)
    (todo : List LineItem) :
    resume c t reserved (item :: todo) = (t, ProductDb.reserveReply c (.error e)) := by
  simp only [resume, reserveItems, reserveItem, h]

theorem resume_ok (c : ReserveStockCommand) {t : List Product} {item : LineItem} {p : Product}
    (h : reserveRow t item = .ok p) (reserved : List OrderCreatedEventItem) (todo : List LineItem) :
    resume c t reserved (item :: todo) =
      resume c (setStock p.id p.stock t) (reserved ++ [reservedItem item p]) todo := by
  simp only [resume, reserveItems, reserveItem, h]
  cases hr : reserveItems (setStock p.id p.stock t) todo with
  | mk t' result =>
    cases result with
    | error e => rfl
    | ok rest =>
      show (t', _) = (t', _)
      rw [List.append_assoc]
      rfl

theorem resume_all (c : ReserveStockCommand) (t : List Product) :
    resume c t [] c.items = (StockCommand.reserve c).execute t := by
  show resume c t [] c.items =
    ((reserveItems t c.items).1, ProductDb.reserveReply c (reserveItems t c.items).2)
  cases hr : reserveItems t c.items with
  | mk t' result => cases result <;> simp only [resume, hr, List.nil_append]

namespace StockTx

/-- the table that a delivery which has written its record commits -/
def committed (g : RowDefaults) (db : ProductDb) (c : StockCommand) (r : StoredResult)
    (x : Uncommitted) : ProductDb :=
  ({ db with
    products := x.view db.products
    idempotencyKeys := saveKey c.commandId r db.idempotencyKeys } : ProductDb).write g c.orderId r

/-! ## a delivery that runs alone -/

theorem handle_recorded (g : RowDefaults) {db : ProductDb} {c : StockCommand} {r : StoredResult}
    (h : findKey c.commandId db.idempotencyKeys = some r) :
    c.handle g db = db.write g c.orderId r := by
  cases c with
  | reserve c =>
    show ProductDb.handleReserveStock g db c = _
    unfold ProductDb.handleReserveStock
    rw [show findKey c.commandId db.idempotencyKeys = some r from h]
    rfl
  | release c =>
    show ProductDb.handleReleaseStock g db c = _
    unfold ProductDb.handleReleaseStock
    rw [show findKey c.commandId db.idempotencyKeys = some r from h]
    rfl

theorem handle_committed (g : RowDefaults) {db : ProductDb} {c : StockCommand} {r : StoredResult}
    {x : Uncommitted} (h : findKey c.commandId db.idempotencyKeys = none)
    (hx : (x.view db.products, r) = c.execute db.products) :
    c.handle g db = committed g db c r x := by
  obtain ⟨hp, hr⟩ := Prod.mk.inj hx
  unfold committed
  rw [hp, hr]
  cases c with
  | reserve c =>
    show ProductDb.handleReserveStock g db c = _
    unfold ProductDb.handleReserveStock
    rw [show findKey c.commandId db.idempotencyKeys = none from h]
    rfl
  | release c =>
    show ProductDb.handleReleaseStock g db c = _
    unfold ProductDb.handleReleaseStock
    rw [show findKey c.commandId db.idempotencyKeys = none from h]
    rfl

/-- one access, with nobody else about -/
def goes (g : RowDefaults) (p p' : ProductDb × StockTx) : Prop := p.2.advance g p.1 = some p'

theorem alone_reserving (g : RowDefaults) (db : ProductDb) (c : ReserveStockCommand)
    (todo : List LineItem) (reserved : List OrderCreatedEventItem) (x : Uncommitted) :
    ∃ x' r, Relation.ReflTransGen (goes g) (db, .reserving c todo reserved x)
        (db, .saving (.reserve c) r x') ∧
      (x'.view db.products, r) = resume c (x.view db.products) reserved todo := by
  induction todo generalizing reserved x with
  | nil => exact ⟨x, _, .single rfl, (resume_nil c _ reserved).symm⟩
  | cons item todo ih =>
    cases hr : reserveRow (x.view db.products) item with
    | error e =>
      refine ⟨x.lock (selected (x.view db.products) item), _, .single ?_,
        (resume_error c hr reserved todo).symm⟩
      simp only [goes, advance, hr]
    | ok p =>
      obtain ⟨x', r, hrun, hx⟩ := ih (reserved ++ [reservedItem item p])
        ((x.lock (selected (x.view db.products) item)).write (.save p.id p.stock))
      refine ⟨x', r, .head ?_ hrun, ?_⟩
      · simp only [goes, advance, hr]
      · rw [hx, Uncommitted.view_write, resume_ok c hr]
        rfl

theorem alone_releasing (g : RowDefaults) (db : ProductDb) (c : ReleaseStockCommand)
    (todo : List LineItem) (x : Uncommitted) :
    ∃ x', Relation.ReflTransGen (goes g) (db, .releasing c todo x)
        (db, .saving (.release c) (ProductDb.releaseReply c) x') ∧
      x'.view db.products = releaseItems (x.view db.products) todo := by
  induction todo generalizing x with
  | nil => exact ⟨x, .single rfl, rfl⟩
  | cons item todo ih =>
    obtain ⟨x', hrun, hx⟩ := ih
      ((x.lock (updated (x.view db.products) item)).write (.increment item))
    refine ⟨x', .head rfl hrun, ?_⟩
    rw [hx, Uncommitted.view_write]
    rfl

/-- **A delivery that runs alone does what the handler does.** -/
theorem alone (g : RowDefaults) (db : ProductDb) (c : StockCommand) :
    Relation.ReflTransGen (goes g) (db, .started c) (c.handle g db, .ended) := by
  cases hf : findKey c.commandId db.idempotencyKeys with
  | some r =>
    have hlook : goes g (db, .started c) (db, .replaying c r) := by simp only [goes, advance, hf]
    rw [handle_recorded g hf]
    exact .head hlook (.single rfl)
  | none =>
    have hlook : goes g (db, .started c) (db, execution c) := by simp only [goes, advance, hf]
    have hexec : ∃ x r, Relation.ReflTransGen (goes g) (db, execution c) (db, .saving c r x) ∧
        (x.view db.products, r) = c.execute db.products := by
      cases c with
      | reserve c =>
        obtain ⟨x, r, hrun, hx⟩ := alone_reserving g db c c.items [] ⟨[], []⟩
        exact ⟨x, r, hrun, hx.trans (resume_all c db.products)⟩
      | release c =>
        obtain ⟨x, hrun, hx⟩ := alone_releasing g db c c.items ⟨[], []⟩
        exact ⟨x, _, hrun, by rw [hx]; rfl⟩
    obtain ⟨x, r, hrun, hx⟩ := hexec
    rw [handle_committed g hf hx]
    have hsave : goes g (db, .saving c r x) (db, .inserting c r x) := by
      simp only [goes, advance, hf]
    have hinsert : goes g (db, .inserting c r x) (db, .finishing c r x) := by
      simp only [goes, advance, hf]
    exact .head hlook (hrun.trans (.head hsave (.head hinsert (.single rfl))))

/-! ## the invariant -/

/-- only two accesses commit anything -/
theorem advance_cases {g : RowDefaults} {db db' : ProductDb} {t t' : StockTx}
    (h : t.advance g db = some (db', t')) : db' = db ∨
      (∃ c r, t = .replaying c r ∧ db' = db.write g c.orderId r ∧ t' = .ended) ∨
      ∃ c r x, t = .finishing c r x ∧ db' = committed g db c r x ∧ t' = .ended := by
  cases t with
  | replaying c r => cases h; exact Or.inr (Or.inl ⟨c, r, rfl, rfl, rfl⟩)
  | finishing c r x => cases h; exact Or.inr (Or.inr ⟨c, r, x, rfl, rfl, rfl⟩)
  | started c =>
    simp only [advance] at h
    split at h <;> cases h <;> exact Or.inl rfl
  | reserving c todo reserved x =>
    cases todo with
    | nil => cases h; exact Or.inl rfl
    | cons item todo =>
      simp only [advance] at h
      split at h <;> cases h <;> exact Or.inl rfl
  | releasing c todo x =>
    cases todo with
    | nil => cases h; exact Or.inl rfl
    | cons item todo => cases h; exact Or.inl rfl
  | saving c r x =>
    simp only [advance] at h
    split at h <;> cases h <;> exact Or.inl rfl
  | inserting c r x =>
    simp only [advance] at h
    split at h <;> cases h <;> exact Or.inl rfl
  | updating c r x => cases h; exact Or.inl rfl
  | ended => cases h

/-- `p` is what a delivery makes of the products, with its reply, unless a record appears first -/
structure Executes (k : String) (D : List StockCommand) (db : ProductDb) (c : StockCommand)
    (p : List Product × StoredResult) : Prop where
  id : c.commandId = k
  mem : c ∈ D
  outcome : findKey k db.idempotencyKeys = none → p = c.execute db.products

/-- what holds of a delivery of the command `k`, one of `D`, in the committed state `db` -/
def Sound (k : String) (D : List StockCommand) (db : ProductDb) : StockTx → Prop
  | .started c => Executes k D db c (c.execute db.products)
  | .replaying c r => (c.commandId = k ∧ c ∈ D) ∧ findKey k db.idempotencyKeys = some r
  | .reserving c todo reserved x =>
    Executes k D db (.reserve c) (resume c (x.view db.products) reserved todo)
  | .releasing c todo x =>
    Executes k D db (.release c) (releaseItems (x.view db.products) todo, ProductDb.releaseReply c)
  | .saving c r x => Executes k D db c (x.view db.products, r)
  | .inserting c r x => Executes k D db c (x.view db.products, r)
  | .updating _ _ _ => False
  | .finishing c r x => Executes k D db c (x.view db.products, r) ∧
    findKey k db.idempotencyKeys = none
  | .ended => True

section
variable {k : String} {D : List StockCommand} {g : RowDefaults} {db db' : ProductDb}
  {t t' u : StockTx} {c : StockCommand} {p p' : List Product × StoredResult}

theorem Executes.eq (h : Executes k D db c p) (hp : p = p') : Executes k D db c p' := hp ▸ h

theorem Executes.recorded (h : Executes k D db c p) {r : StoredResult}
    (hr : findKey k db'.idempotencyKeys = some r) (p' : List Product × StoredResult) :
    Executes k D db' c p' where
  id := h.id
  mem := h.mem
  outcome := fun hn => nomatch hr.symm.trans hn

/-- what a delivery makes of the products is fixed until it commits -/
theorem Sound.advance (h : t.Sound k D db) (hm : missed (.go g) db t)
    (ha : t.advance g db = some (db', t')) : t'.Sound k D db := by
  cases t with
  | started c =>
    simp only [StockTx.advance] at ha
    cases hf : findKey c.commandId db.idempotencyKeys with
    | none =>
      rw [hf] at ha
      cases ha
      cases c with
      | reserve c => exact Executes.eq h (resume_all c db.products).symm
      | release c => exact h
    | some r =>
      rw [hf] at ha
      cases ha
      exact ⟨⟨h.id, h.mem⟩, h.id ▸ hf⟩
  | replaying c r =>
    cases ha
    trivial
  | reserving c todo reserved x =>
    cases todo with
    | nil =>
      cases ha
      exact Executes.eq h (resume_nil c _ reserved)
    | cons item todo =>
      simp only [StockTx.advance] at ha
      cases hr : reserveRow (x.view db.products) item with
      | error e =>
        rw [hr] at ha
        cases ha
        exact Executes.eq h (resume_error c hr reserved todo)
      | ok p =>
        rw [hr] at ha
        cases ha
        have hview := Uncommitted.view_write (x.lock (selected (x.view db.products) item))
          (.save p.id p.stock) db.products
        exact Executes.eq h (by rw [resume_ok c hr, hview]; rfl)
  | releasing c todo x =>
    cases todo with
    | nil =>
      cases ha
      exact h
    | cons item todo =>
      cases ha
      have hview := Uncommitted.view_write (x.lock (updated (x.view db.products) item))
        (.increment item) db.products
      exact Executes.eq h (by rw [hview]; rfl)
  | saving c r x =>
    simp only [StockTx.advance] at ha
    rw [hm c rfl] at ha
    cases ha
    exact h
  | inserting c r x =>
    simp only [StockTx.advance] at ha
    cases hf : findKey c.commandId db.idempotencyKeys with
    | none =>
      rw [hf] at ha
      cases ha
      exact ⟨h, Executes.id h ▸ hf⟩
    | some _ =>
      rw [hf] at ha
      cases ha
      trivial
  | updating c r x => exact absurd h not_false
  | finishing c r x =>
    cases ha
    trivial
  | ended => cases ha

/-- a commit of another delivery, which holds the lock of the key or replays -/
theorem Sound.other (ht : t.Sound k D db) (hu : u.Sound k D db)
    (ha : t.advance g db = some (db', t')) (hlocks : ∀ l ∈ t.held, l ∉ u.held) :
    u.Sound k D db' := by
  rcases advance_cases ha with rfl | ⟨c, r, rfl, rfl, _⟩ | ⟨c, r, x, rfl, rfl, _⟩
  · exact hu
  · cases u with
    | finishing c' r' x' => exact ⟨⟨hu.1.id, hu.1.mem, hu.1.outcome⟩, hu.2⟩
    | replaying c' r' => exact hu
    | updating c' r' x' => exact hu
    | ended => trivial
    | _ => exact ⟨hu.id, hu.mem, hu.outcome⟩
  · obtain ⟨hc, hn⟩ := ht
    have hid := hc.id
    subst hid
    have hr : findKey c.commandId (committed g db c r x).idempotencyKeys = some r :=
      findKey_saveKey _ _ _
    cases u with
    | finishing c' r' x' =>
      have hkey : StockLock.key c'.commandId = .key c.commandId := congrArg StockLock.key hu.1.id
      exact absurd (hkey ▸ List.mem_cons_self) (hlocks _ List.mem_cons_self)
    | replaying c' r' => exact nomatch hu.2.symm.trans hn
    | updating c' r' x' => exact hu
    | ended => trivial
    | _ => exact Executes.recorded hu hr _

end

end StockTx

/-- every row queued since `t₀` is the reply `r` -/
def Requeued (r : StoredResult) (t₀ t : List OutboxRow) : Prop :=
  ∃ out, t = t₀ ++ out ∧ ∀ row ∈ out, row.message = r.message

theorem Requeued.nil (r : StoredResult) (t : List OutboxRow) : Requeued r t t :=
  ⟨[], (List.append_nil t).symm, fun _ h => absurd h List.not_mem_nil⟩

theorem Requeued.write {r : StoredResult} {t₀ : List OutboxRow} {db : ProductDb}
    (h : Requeued r t₀ db.outbox) (g : RowDefaults) (orderId : String) :
    Requeued r t₀ (db.write g orderId r).outbox := by
  obtain ⟨out, hout, hall⟩ := h
  refine ⟨out ++ [OutboxRow.write g orderId r.replyTopic orderId r.replyPayload], ?_, ?_⟩
  · show db.outbox ++ [_] = _
    rw [hout, List.append_assoc]
  · intro row hrow
    rcases List.mem_append.mp hrow with hrow | hrow
    · exact hall row hrow
    · rw [List.mem_singleton.mp hrow]
      rfl

/-- nothing has been committed, or one execution has, with its record and its reply -/
def Once (k : String) (D : List StockCommand) (g : RowDefaults) (db₀ db : ProductDb) : Prop :=
  db = db₀ ∨ ∃ r, findKey k db.idempotencyKeys = some r ∧
    (∃ c ∈ D, db.products = (c.handle g db₀).products) ∧ Requeued r db₀.outbox db.outbox

section
variable {k : String} {D : List StockCommand} {g : RowDefaults} {db₀ db : ProductDb}

theorem Once.replay (h : Once k D g db₀ db) {c : StockCommand} {r : StoredResult}
    (hk : c.commandId = k) (hD : c ∈ D) (hr : findKey k db.idempotencyKeys = some r)
    (g' : RowDefaults) : Once k D g db₀ (db.write g' c.orderId r) := by
  rcases h with rfl | ⟨r', hr', hp, hout⟩
  · have hp : db.products = (c.handle g db).products := by
      rw [StockTx.handle_recorded g (hk ▸ hr)]
      rfl
    exact Or.inr ⟨r, hr, ⟨c, hD, hp⟩, (Requeued.nil r _).write g' c.orderId⟩
  · obtain rfl : r = r' := Option.some.inj (hr.symm.trans hr')
    exact Or.inr ⟨r, hr, hp, hout.write g' c.orderId⟩

theorem Once.commit (h : Once k D g db₀ db) {c : StockCommand} {r : StoredResult} {x : Uncommitted}
    (hk : c.commandId = k) (hD : c ∈ D) (hn : findKey k db.idempotencyKeys = none)
    (hx : (x.view db.products, r) = c.execute db.products) (g' : RowDefaults) :
    Once k D g db₀ (StockTx.committed g' db c r x) := by
  rcases h with rfl | ⟨r', hr', _⟩
  · subst hk
    have hp : x.view db.products = (c.handle g db).products := by
      rw [StockTx.handle_committed g hn hx]
      rfl
    have hout := Requeued.write (Requeued.nil r db.outbox) g' c.orderId
    exact Or.inr ⟨r, findKey_saveKey _ _ _, ⟨c, hD, hp⟩, hout⟩
  · rw [hn] at hr'
    cases hr'

theorem Once.actsOnce {as : List StockAction} (h : Once k (delivered as) g db₀ db) :
    ActsOnce g db₀ as db := by
  rcases h with rfl | ⟨r, _, hp, out, hout, hall⟩
  · refine ⟨Or.inl rfl, fun r hr => ?_⟩
    rw [List.drop_length] at hr
    cases hr
  · refine ⟨Or.inr hp, fun row hrow row' hrow' => ?_⟩
    rw [hout, List.drop_left] at hrow hrow'
    rw [hall row hrow, hall row' hrow']

theorem stable_once (k : String) (D : List StockCommand) (g : RowDefaults) (db₀ : ProductDb) :
    Stable StockTx.started StockTx.next StockTx.held
    (fun c => c.commandId = k ∧ c ∈ D) missed (Once k D g db₀) (StockTx.Sound k D) where
  start_held := fun _ => rfl
  start_loc := fun c _ hc _ => ⟨hc.1, hc.2, fun _ => rfl⟩
  own := by
    intro b db t db' t' hinv ht hm hn
    cases b with
    | abort =>
      cases hn
      exact ⟨hinv, trivial⟩
    | go g' =>
      rcases StockTx.advance_cases hn with rfl | ⟨c, r, rfl, rfl, rfl⟩ | ⟨c, r, x, rfl, rfl, rfl⟩
      · exact ⟨hinv, ht.advance hm hn⟩
      · obtain ⟨⟨hk, hD⟩, hr⟩ := ht
        exact ⟨hinv.replay hk hD hr g', trivial⟩
      · obtain ⟨hc, hnone⟩ := ht
        exact ⟨hinv.commit hc.id hc.mem hnone (hc.outcome hnone) g', trivial⟩
  other := by
    intro b db t db' t' u _ ht hu _ hn hlocks
    cases b with
    | abort =>
      cases hn
      exact hu
    | go g' => exact ht.other hu hn hlocks

end

/-- **Concurrent deliveries of one command act once, as long as none of them executes the command,
and then finds the record of another when it saves its own.** -/
theorem stock_once (g : RowDefaults) (k : String) (db₀ : ProductDb) (as : List StockAction)
    (hk : ∀ c ∈ delivered as, c.commandId = k)
    (hm : Along StockPool.step (Pool.allows missed) ⟨db₀, []⟩ as) :
    ActsOnce g db₀ as (run StockPool.step ⟨db₀, []⟩ as).db := by
  have hgood := (stable_once k (delivered as) g db₀).run (Or.inl rfl) as
    (fun c hc => ⟨hk c (mem_delivered.mpr hc), mem_delivered.mpr hc⟩) hm
  exact hgood.inv.actsOnce

/-- `n` accesses of a transaction -/
def StockAction.accesses (tx n : Nat) : List StockAction :=
  List.replicate n (.access tx (.go ⟨.sample 'a', 0⟩))

theorem stock_once_redelivered :
    let db : ProductDb := ⟨[.pens], [], []⟩
    let c : StockCommand := .reserve ⟨"command", "order", "corr", [⟨Product.pens.id, 2⟩]⟩
    let as := [.start c] ++ StockAction.accesses 0 6 ++ [.start c] ++ StockAction.accesses 1 2
    ActsOnce ⟨.sample 'a', 0⟩ db as (run StockPool.step ⟨db, []⟩ as).db :=
  stock_once _ "command" _ _ (by decide +kernel) (by decide +kernel)

/-- **Two deliveries that overlap reserve twice.**  Both find no record; the second waits for the
row of the product, reads the stock that the first has committed, and updates its record. -/
theorem stock_twice : ¬ ∀ (g : RowDefaults) (k : String) (db₀ : ProductDb) (as : List StockAction),
    (∀ c ∈ delivered as, c.commandId = k) →
      ActsOnce g db₀ as (run StockPool.step ⟨db₀, []⟩ as).db := by
  intro h
  let db : ProductDb := ⟨[.pens], [], []⟩
  let c : StockCommand := .reserve ⟨"command", "order", "corr", [⟨Product.pens.id, 2⟩]⟩
  let as : List StockAction := [.start c, .start c] ++ StockAction.accesses 0 1 ++
    StockAction.accesses 1 1 ++ StockAction.accesses 0 5 ++ StockAction.accesses 1 5
  have hno : ¬ ActsOnce ⟨.sample 'a', 0⟩ db as (run StockPool.step ⟨db, []⟩ as).db := by
    decide +kernel
  exact hno (h _ "command" db as (by decide +kernel))

end Shop
