import Shop.Product.Service
import Shop.Lib.Pool

/-!
# The product cache

`products.service.ts` on one product: the calls of `findById` on any number of instances, with the
shared cache and the fetches that are in flight on each instance, and the operations that write the
row.  The writes of a transaction are visible to others when it commits; every commit gives the row
its next version.  The row is found under every spelling of its id, an entry of the cache and a
fetch in flight only under the one that they were made for.

* `CacheTx`, `CacheTx.next`   a call that is under way, and its next access;
* `Snapshot.honest db id r`   what was read is what the row was at that version;
* `quiet b db t`              no fetch, and no entry under another spelling, holds an older version
                              when a writer evicts for the last time; and there is none at all when
                              a transaction commits that has evicted before;
* `findById_fresh`            runs whose accesses are all `quiet` answer with no superseded version;
* `findById_stale`            a reservation of the saga that evicts, and then commits.

`update`, `remove` and a `reserveStock` of its own evict after the commit; the saga's `reserveStock`
and `releaseStock` evict before they write, and a reader can fill the cache between the two.
-/

set_option linter.unusedSectionVars false

namespace Shop
open Lib

/-- `findOne` of an active product -/
def Product.visible (row : Product) : Option Product := if row.isActive then some row else none

/-- what a fetch has read: nothing if the row is not active; and which version of the row -/
structure Snapshot where
  value : Option Product
  version : Nat
deriving DecidableEq, Repr

/-- the promise that `dedup` makes on an instance for an id -/
structure Fetch where
  inst : Nat
  id : String
  read : Option Snapshot
  settled : Bool
deriving DecidableEq, Repr

/-- The row that is committed and its versions before; the entries of the shared cache by the id;
the promises, with the one in flight on each instance for each id; and the newest version whose
writer has returned. -/
structure CacheDb where
  old : List Product
  row : Product
  cache : List (String × Snapshot)
  inflight : Nat → String → Option Nat
  fetches : List Fetch
  done : Nat

inductive Path where
  | evictsFirst | evictsLast
deriving DecidableEq, Repr

/-- the operations that write in a transaction, with their lines -/
inductive StockOp where
  | reserveStock (items : List LineItem)
  | sagaReserveStock (items : List LineItem)
  | releaseStock (items : List LineItem)
deriving DecidableEq, Repr

inductive Edit where
  | update (input : ProductDb.UpdateProductInput)
  | remove
deriving DecidableEq, Repr

/-- the ids are what the clients have typed -/
inductive CacheCall where
  | findById (inst : Nat) (id : String)
  | edit (id : String) (e : Edit)
  | stock (op : StockOp)

/-- A call by its next access.  `findById` is called, gets the cache, and after a miss joins the
fetch in flight or makes its own: it reads the row, sets the cache and settles the promise; `needed`
is the newest version whose writer had returned when it was called.  `update` and `remove` read the
row (`finding`) and save it; `reserveStock` and `releaseStock` evict the ids of their lines if they
evict first (`beginning`), lock the row (`looping`) and write it line by line (`locked`).  A row that
is written is committed (`committing`), and the ids are evicted if that comes last. -/
inductive CacheTx where
  | called (inst : Nat) (id : String)
  | getting (inst : Nat) (id : String) (needed : Nat)
  | missed (inst : Nat) (id : String) (needed : Nat)
  | reading (inst : Nat) (id : String) (needed f : Nat)
  | setting (inst : Nat) (id : String) (needed f : Nat) (r : Snapshot)
  | settling (inst : Nat) (id : String) (needed f : Nat) (r : Snapshot)
  | joined (id : String) (needed f : Nat)
  | answered (id : String) (needed : Nat) (r : Snapshot)
  | finding (id : String) (e : Edit)
  | saving (id : String) (row : Product)
  | beginning (op : StockOp) (ids : List String)
  | looping (op : StockOp)
  | locked (op : StockOp) (todo : List LineItem) (row : Product) (written : Bool)
  | committing (path : Path) (ids : List String) (row : Product)
  | evicting (version : Nat) (ids : List String)
  | returning (version : Nat)
  | ended
deriving DecidableEq, Repr

/-- the call goes on; a line of another product fails; the database fails a statement -/
inductive CacheAccess where
  | go | fail | abort
deriving DecidableEq, Repr

/-- the row lock; a promise, which the call that has made it settles -/
inductive CacheLock where
  | row
  | fetch (f : Nat)
deriving DecidableEq, Repr

namespace CacheDb

def initial (row : Product) : CacheDb := ⟨[], row, [], fun _ _ => none, [], 0⟩

def rows (db : CacheDb) : List Product := db.old ++ [db.row]

def version (db : CacheDb) : Nat := db.old.length

def find (db : CacheDb) (id : String) : Snapshot := ⟨findActive id [db.row], db.version⟩

/-- the entry `product:<id>` -/
def cached (db : CacheDb) (id : String) : Option Snapshot :=
  (db.cache.find? fun x => decide (x.1 = id)).map Prod.snd

def evict (db : CacheDb) (id : String) : CacheDb :=
  { db with cache := db.cache.filter fun x => decide (x.1 ≠ id) }

def setCache (db : CacheDb) (id : String) (r : Snapshot) : CacheDb :=
  { db with cache := (id, r) :: (db.evict id).cache }

def setFetch (db : CacheDb) (f : Nat) (e : Fetch) : CacheDb :=
  { db with fetches := db.fetches.set f e }

def setInflight (db : CacheDb) (inst : Nat) (id : String) (f : Option Nat) : CacheDb :=
  { db with inflight := fun i x => if i = inst ∧ x = id then f else db.inflight i x }

def addFetch (db : CacheDb) (inst : Nat) (id : String) : CacheDb :=
  { db with fetches := db.fetches ++ [⟨inst, id, none, false⟩] }

def commit (db : CacheDb) (row : Product) : CacheDb :=
  { db with old := db.old ++ [db.row], row := row }

def finish (db : CacheDb) (version : Nat) : CacheDb := { db with done := max db.done version }

end CacheDb

namespace StockOp

def items : StockOp → List LineItem
  | .reserveStock items => items
  | .sagaReserveStock items => items
  | .releaseStock items => items

/-- the lines of one product -/
def linesOf (id : String) (op : StockOp) : List LineItem :=
  op.items.filter fun i => decide (i.product = id)

def path : StockOp → Path
  | .reserveStock _ => .evictsLast
  | .sagaReserveStock _ => .evictsFirst
  | .releaseStock _ => .evictsFirst

/-- one turn of the loop with a line of the product, on the row as the transaction sees it -/
def turn (row : Product) (item : LineItem) : StockOp → Except ProductsError Product
  | .releaseStock _ => .ok (row.addStock item.quantity)
  | _ => reserveRow [row] item

end StockOp

def Edit.apply (row : Product) : Edit → Product
  | .update input => ProductDb.assign input row
  | .remove => row.deactivate

/-- the database takes the UPDATE -/
def Edit.storable : Edit → Bool
  | .update input => input.storable
  | .remove => true

namespace CacheTx

def start : CacheCall → CacheTx
  | .findById inst id => .called inst id
  | .edit id e => .finding id e
  | .stock op => .beginning op (op.items.map LineItem.productId)

/-- the loop has thrown: the saga's handler commits what was written before -/
def failed (op : StockOp) (row : Product) (written : Bool) : CacheTx :=
  match op with
  | .sagaReserveStock _ => .locked op [] row written
  | _ => .ended

def advance (db : CacheDb) : CacheTx → Option (CacheDb × CacheTx)
  | .called inst id => some (db, .getting inst id db.done)
  | .getting inst id needed =>
    match db.cached id with
    | some r => some (db, .answered id needed r)
    | none => some (db, .missed inst id needed)
  | .missed inst id needed =>
    match db.inflight inst id with
    | some f => some (db, .joined id needed f)
    | none =>
      let f := db.fetches.length
      some ((db.addFetch inst id).setInflight inst id (some f), .reading inst id needed f)
  | .reading inst id needed f =>
    let r := db.find id
    let db := db.setFetch f ⟨inst, id, some r, false⟩
    match r.value with
    | some _ => some (db, .setting inst id needed f r)
    | none => some (db, .settling inst id needed f r)
  | .setting inst id needed f r => some (db.setCache id r, .settling inst id needed f r)
  | .settling inst id needed f r =>
    some ((db.setInflight inst id none).setFetch f ⟨inst, id, some r, true⟩, .answered id needed r)
  | .joined id needed f =>
    match db.fetches[f]? with
    | some ⟨_, _, some r, true⟩ => some (db, .answered id needed r)
    | _ => none
  | .answered _ _ _ => none
  | .finding id e =>
    match findActive id [db.row] with
    | some product =>
      if e.storable then some (db, .saving id (e.apply product)) else some (db, .ended)
    | none => some (db, .ended)
  | .saving id row => some (db, .committing .evictsLast [id] row)
  | .beginning op ids =>
    match op.path, ids with
    | .evictsFirst, id :: ids => some (db.evict id, .beginning op ids)
    | _, _ => some (db, .looping op)
  | .looping op =>
    match op.linesOf db.row.id with
    | [] => some (db, .ended)
    | i :: todo => some (db, .locked op (i :: todo) db.row false)
  | .locked op [] row written =>
    if written then some (db, .committing op.path (op.items.map LineItem.productId) row)
    else some (db, .ended)
  | .locked op (i :: todo) row written =>
    match op.turn row i with
    | .ok row => some (db, .locked op todo row true)
    | .error _ => some (db, failed op row written)
  | .committing path ids row =>
    let version := db.version + 1
    match path with
    | .evictsLast => some (db.commit row, .evicting version ids)
    | .evictsFirst => some (db.commit row, .returning version)
  | .evicting version [] => some (db, .returning version)
  | .evicting version [id] => some (db.evict id, .returning version)
  | .evicting version (id :: ids) => some (db.evict id, .evicting version ids)
  | .returning version => some (db.finish version, .ended)
  | .ended => none

/-- an exception rolls a transaction back -/
def rollback : CacheTx → Option CacheTx
  | .finding _ _ => some .ended
  | .saving _ _ => some .ended
  | .beginning _ _ => some .ended
  | .looping _ => some .ended
  | .locked _ _ _ _ => some .ended
  | .committing _ _ _ => some .ended
  | _ => none

def next : CacheAccess → CacheDb → CacheTx → Option (CacheDb × CacheTx)
  | .go, db, t => t.advance db
  | .fail, db, .locked op _ row written => some (db, failed op row written)
  | .fail, _, _ => none
  | .abort, db, t => t.rollback.map fun t' => (db, t')

def held : CacheTx → List CacheLock
  | .reading _ _ _ f => [.fetch f]
  | .setting _ _ _ f _ => [.fetch f]
  | .settling _ _ _ f _ => [.fetch f]
  | .locked _ _ _ _ => [.row]
  | .committing _ _ _ => [.row]
  | _ => []

end CacheTx

abbrev CacheAction := PoolAction CacheCall CacheAccess

def CachePool.step : Pool CacheDb CacheTx → CacheAction → Pool CacheDb CacheTx :=
  Pool.step CacheTx.start CacheTx.next CacheTx.held

/-! ## superseded versions -/

/-- what was read under the id is what the row was at that version -/
def Snapshot.honest (db : CacheDb) (id : String) (r : Snapshot) : Prop :=
  ∃ row, db.rows[r.version]? = some row ∧ r.value = findActive id [row]

/-- a fetch for the id that has read a version, and has not settled yet -/
def CacheDb.Pending (db : CacheDb) (id : String) (r : Snapshot) : Prop :=
  ∃ e ∈ db.fetches, e.id = id ∧ e.settled = false ∧ e.read = some r

/-- the version whose writer is about to evict the last of its ids, after its commit, and that id -/
def CacheTx.evicts : CacheTx → Option (Nat × List String)
  | .evicting version [] => some (version, [])
  | .evicting version [id] => some (version, [id])
  | _ => none

/-- a writer that has evicted before is about to commit -/
def CacheTx.commits : CacheTx → Bool
  | .committing .evictsFirst _ _ => true
  | _ => false

/-- a writer evicts for the last time when no other entry and no fetch holds an older version; one
that has evicted before commits when there is nothing in the cache, and no fetch has read -/
def quiet : CacheAccess → CacheDb → CacheTx → Prop
  | .go, db, t =>
    (∀ w ∈ t.evicts, (∀ x ∈ db.cache, x.1 ∉ w.2 → w.1 ≤ x.2.version) ∧
      ∀ e ∈ db.fetches, e.settled = false → ∀ r ∈ e.read, w.1 ≤ r.version) ∧
    (t.commits = true → db.cache = [] ∧ ∀ e ∈ db.fetches, e.settled = false → e.read = none)
  | _, _, _ => True

instance : ∀ b db t, Decidable (quiet b db t)
  | .go, _, _ => inferInstanceAs (Decidable (_ ∧ _))
  | .fail, _, _ => .isTrue trivial
  | .abort, _, _ => .isTrue trivial

/-- what an access may do, for the transactions that hold none of `locks` -/
structure Frame (locks : List CacheLock) (db db' : CacheDb) : Prop where
  done : db.done ≤ db'.done
  rows : ∀ (n : Nat) row, db.rows[n]? = some row → db'.rows[n]? = some row
  version : db.version ≤ db'.version
  cache : ∀ x ∈ db'.cache, x ∈ db.cache ∨ db.Pending x.1 x.2
  pending : ∀ id r, db'.Pending id r → db.Pending id r ∨ r.version = db.version
  fetches : ∀ (f : Nat) e, db.fetches[f]? = some e → ∃ e', db'.fetches[f]? = some e' ∧
    e'.id = e.id ∧ (.fetch f ∉ locks → e' = e) ∧ ∀ r ∈ e'.read, r ∈ e.read ∨ r.version = db.version

structure CacheDb.Inv (db : CacheDb) : Prop where
  done : db.done ≤ db.version
  cache : ∀ x ∈ db.cache, db.done ≤ x.2.version ∧ x.2.honest db x.1
  pending : ∀ id r, db.Pending id r → db.done ≤ r.version
  fetches : ∀ e ∈ db.fetches, ∀ r ∈ e.read, r.honest db e.id
  inflight : ∀ inst id (f : Nat), db.inflight inst id = some f →
    ∃ e, db.fetches[f]? = some e ∧ e.inst = inst ∧ e.id = id ∧ e.settled = false

/-- what holds of a call in the state `db` -/
def CacheTx.Sound (db : CacheDb) : CacheTx → Prop
  | .getting _ _ needed => needed ≤ db.done
  | .missed _ _ needed => needed ≤ db.done
  | .reading inst id needed f =>
    needed ≤ db.done ∧ db.fetches[f]? = some ⟨inst, id, none, false⟩
  | .setting inst id needed f r =>
    needed ≤ r.version ∧ db.fetches[f]? = some ⟨inst, id, some r, false⟩
  | .settling inst id needed f r =>
    needed ≤ r.version ∧ db.fetches[f]? = some ⟨inst, id, some r, false⟩
  | .joined id needed f => needed ≤ db.version ∧
    ∃ e, db.fetches[f]? = some e ∧ e.id = id ∧ ∀ r ∈ e.read, needed ≤ r.version
  | .answered id needed r => needed ≤ r.version ∧ r.honest db id
  | .evicting version _ => version ≤ db.version
  | .returning version => version ≤ db.version ∧ (∀ x ∈ db.cache, version ≤ x.2.version) ∧
    ∀ id r, db.Pending id r → version ≤ r.version
  | _ => True

/-! ## the entries of the cache -/

theorem mem_evict {db : CacheDb} {id : String} {x : String × Snapshot} :
    x ∈ (db.evict id).cache ↔ x ∈ db.cache ∧ x.1 ≠ id := by
  show x ∈ db.cache.filter _ ↔ _
  rw [List.mem_filter, decide_eq_true_eq]

theorem mem_setCache {db : CacheDb} {id : String} {r : Snapshot} {x : String × Snapshot}
    (h : x ∈ (db.setCache id r).cache) : x = (id, r) ∨ x ∈ db.cache :=
  (List.mem_cons.mp h).imp_right fun h => (mem_evict.mp h).1

theorem cached_mem {db : CacheDb} {id : String} {r : Snapshot} (h : db.cached id = some r) :
    (id, r) ∈ db.cache := by
  obtain ⟨x, hx, rfl⟩ := Option.map_eq_some_iff.mp h
  have hid : x.1 = id := by simpa using List.find?_some hx
  exact hid ▸ List.mem_of_find?_eq_some hx

section
variable {locks : List CacheLock} {db db' : CacheDb} {t t' u : CacheTx} {id : String} {r : Snapshot}

theorem Snapshot.honest.mono (h : Frame locks db db') (hr : r.honest db id) : r.honest db' id := by
  obtain ⟨row, hrow, hv⟩ := hr
  exact ⟨row, h.rows _ _ hrow, hv⟩

theorem find_honest (db : CacheDb) (id : String) : (db.find id).honest db id := by
  refine ⟨db.row, ?_, rfl⟩
  show (db.old ++ [db.row])[db.old.length]? = some db.row
  rw [List.getElem?_append_right (Nat.le_refl _), Nat.sub_self]
  rfl

/-- an access of another call keeps what holds of a call -/
theorem CacheTx.Sound.frame (hu : u.Sound db) (h : Frame locks db db')
    (hlocks : ∀ k ∈ locks, k ∉ u.held) : u.Sound db' := by
  have hown : ∀ (f : Nat) e, .fetch f ∈ u.held → db.fetches[f]? = some e →
      db'.fetches[f]? = some e := by
    intro f e hf he
    obtain ⟨e', he', _, hsame, _⟩ := h.fetches f e he
    rw [he', hsame fun hm => hlocks _ hm hf]
  have hdone := h.done
  have hversion := h.version
  cases u with
  | getting inst id needed =>
    have hn : needed ≤ db.done := hu
    show needed ≤ db'.done
    omega
  | missed inst id needed =>
    have hn : needed ≤ db.done := hu
    show needed ≤ db'.done
    omega
  | reading inst id needed f =>
    obtain ⟨hn, hf⟩ := hu
    have hn' : needed ≤ db'.done := by omega
    exact ⟨hn', hown f _ List.mem_cons_self hf⟩
  | setting inst id needed f r => exact ⟨hu.1, hown f _ List.mem_cons_self hu.2⟩
  | settling inst id needed f r => exact ⟨hu.1, hown f _ List.mem_cons_self hu.2⟩
  | joined id needed f =>
    obtain ⟨hn, e, he, hid, hall⟩ := hu
    obtain ⟨e', he', hid', _, hread⟩ := h.fetches f e he
    have hn' : needed ≤ db'.version := by omega
    refine ⟨hn', e', he', hid'.trans hid, fun r hr => ?_⟩
    rcases hread r hr with hr | hr
    · exact hall r hr
    · omega
  | answered id needed r => exact ⟨hu.1, hu.2.mono h⟩
  | evicting version ids =>
    have hv : version ≤ db.version := hu
    show version ≤ db'.version
    omega
  | returning version =>
    obtain ⟨hv, hcache, hpending⟩ := hu
    have hv' : version ≤ db'.version := by omega
    refine ⟨hv', fun x hx => ?_, fun id r hr => ?_⟩
    · rcases h.cache x hx with hx | hx
      · exact hcache x hx
      · exact hpending x.1 x.2 hx
    · rcases h.pending id r hr with hr | hr
      · exact hpending id r hr
      · omega
  | _ => trivial

/-! ## the accesses as frames -/

/-- an access that leaves the promises alone -/
theorem Frame.keep (hfetches : db'.fetches = db.fetches) (hdone : db.done ≤ db'.done)
    (hrows : ∀ (n : Nat) row, db.rows[n]? = some row → db'.rows[n]? = some row)
    (hversion : db.version ≤ db'.version)
    (hcache : ∀ x ∈ db'.cache, x ∈ db.cache ∨ db.Pending x.1 x.2) : Frame locks db db' where
  done := hdone
  rows := hrows
  version := hversion
  cache := hcache
  pending := fun _ _ ⟨e, he, hrest⟩ => Or.inl ⟨e, hfetches ▸ he, hrest⟩
  fetches := fun _ e h => ⟨e, by rw [hfetches]; exact h, rfl, fun _ => rfl, fun _ hr => Or.inl hr⟩

theorem Frame.refl (locks : List CacheLock) (db : CacheDb) : Frame locks db db :=
  .keep rfl (Nat.le_refl _) (fun _ _ h => h) (Nat.le_refl _) fun _ h => Or.inl h

theorem Frame.evict (locks : List CacheLock) (db : CacheDb) (id : String) :
    Frame locks db (db.evict id) :=
  .keep rfl (Nat.le_refl _) (fun _ _ h => h) (Nat.le_refl _) fun _ h => Or.inl (mem_evict.mp h).1

theorem Frame.setCache (locks : List CacheLock) (hr : db.Pending id r) :
    Frame locks db (db.setCache id r) := by
  refine .keep rfl (Nat.le_refl _) (fun _ _ h => h) (Nat.le_refl _) fun x hx => ?_
  rcases mem_setCache hx with rfl | hx
  · exact Or.inr hr
  · exact Or.inl hx

theorem Frame.finish (locks : List CacheLock) (db : CacheDb) (version : Nat) :
    Frame locks db (db.finish version) :=
  .keep rfl (Nat.le_max_left _ _) (fun _ _ h => h) (Nat.le_refl _) fun _ h => Or.inl h

theorem version_commit (db : CacheDb) (row : Product) :
    (db.commit row).version = db.version + 1 := by
  show (db.old ++ [db.row]).length = db.old.length + 1
  rw [List.length_append, List.length_singleton]

theorem Frame.commit (locks : List CacheLock) (db : CacheDb) (row : Product) :
    Frame locks db (db.commit row) := by
  have hrows : ∀ (n : Nat) row', db.rows[n]? = some row' → (db.commit row).rows[n]? = some row' := by
    intro n row' h
    show (db.rows ++ [row])[n]? = some row'
    rw [List.getElem?_append_left (List.getElem?_eq_some_iff.mp h).1]
    exact h
  have hversion := version_commit db row
  exact .keep rfl (Nat.le_refl _) hrows (by omega) fun _ h => Or.inl h

theorem Frame.addFetch (locks : List CacheLock) (db : CacheDb) (inst : Nat) (id : String)
    (f : Option Nat) : Frame locks db ((db.addFetch inst id).setInflight inst id f) where
  done := Nat.le_refl _
  rows := fun _ _ h => h
  version := Nat.le_refl _
  cache := fun _ h => Or.inl h
  pending := by
    rintro x r ⟨e, he, hx, hs, hr⟩
    rcases List.mem_append.mp he with he | he
    · exact Or.inl ⟨e, he, hx, hs, hr⟩
    · rw [List.mem_singleton.mp he] at hr
      cases hr
  fetches := by
    intro f e h
    refine ⟨e, ?_, rfl, fun _ => rfl, fun _ hr => Or.inl hr⟩
    show (db.fetches ++ [_])[f]? = some e
    rw [List.getElem?_append_left (List.getElem?_eq_some_iff.mp h).1]
    exact h

/-- a promise changes to what its own call makes of it -/
theorem Frame.setFetch (db : CacheDb) {f : Nat} {e' : Fetch}
    (hpending : ∀ r, e'.settled = false → e'.read = some r → r.version = db.version)
    (hread : ∀ e, db.fetches[f]? = some e → e'.id = e.id ∧
      ∀ r ∈ e'.read, r ∈ e.read ∨ r.version = db.version) :
    Frame [.fetch f] db (db.setFetch f e') where
  done := Nat.le_refl _
  rows := fun _ _ h => h
  version := Nat.le_refl _
  cache := fun _ h => Or.inl h
  pending := by
    rintro id r ⟨e, he, hid, hs, hr⟩
    rcases List.mem_or_eq_of_mem_set he with he | rfl
    · exact Or.inl ⟨e, he, hid, hs, hr⟩
    · exact Or.inr (hpending r hs hr)
  fetches := by
    intro f' e h
    by_cases hf : f = f'
    · subst hf
      obtain ⟨hid, hread⟩ := hread e h
      refine ⟨e', ?_, hid, fun hn => absurd List.mem_cons_self hn, hread⟩
      exact List.getElem?_set_self (List.getElem?_eq_some_iff.mp h).1
    · refine ⟨e, ?_, rfl, fun _ => rfl, fun _ hr => Or.inl hr⟩
      show (db.fetches.set f e')[f']? = some e
      rw [List.getElem?_set_ne hf]
      exact h

theorem Frame.ofInflight {inst : Nat} {f : Option Nat}
    (h : Frame locks (db.setInflight inst id f) db') : Frame locks db db' :=
  ⟨h.done, h.rows, h.version, h.cache, h.pending, h.fetches⟩

/-- **Every access is a frame.** -/
theorem CacheTx.Sound.advance_frame (ht : t.Sound db) (ha : t.advance db = some (db', t')) :
    Frame t.held db db' := by
  cases t with
  | called inst id => cases ha; exact .refl _ _
  | getting inst id needed =>
    simp only [CacheTx.advance] at ha
    split at ha <;> cases ha <;> exact .refl _ _
  | missed inst id needed =>
    simp only [CacheTx.advance] at ha
    split at ha
    · cases ha
      exact .refl _ _
    · cases ha
      exact .addFetch _ _ _ _ _
  | reading inst id needed f =>
    have hframe : Frame [.fetch f] db (db.setFetch f ⟨inst, id, some (db.find id), false⟩) := by
      refine .setFetch db (fun r _ hr => ?_) fun e he => ?_
      · cases hr
        rfl
      · obtain rfl : _ = e := Option.some.inj (ht.2.symm.trans he)
        refine ⟨rfl, fun r hr => ?_⟩
        cases hr
        exact Or.inr rfl
    simp only [CacheTx.advance] at ha
    split at ha <;> cases ha <;> exact hframe
  | setting inst id needed f r =>
    cases ha
    exact .setCache _ ⟨_, List.mem_of_getElem? ht.2, rfl, rfl, rfl⟩
  | settling inst id needed f r =>
    cases ha
    refine .ofInflight (.setFetch _ (fun r hs _ => by cases hs) fun e he => ?_)
    have he : db.fetches[f]? = some e := he
    obtain rfl : _ = e := Option.some.inj (ht.2.symm.trans he)
    exact ⟨rfl, fun r hr => Or.inl hr⟩
  | joined id needed f =>
    simp only [CacheTx.advance] at ha
    split at ha <;> cases ha
    exact .refl _ _
  | answered id needed r => cases ha
  | finding id e =>
    simp only [CacheTx.advance] at ha
    split at ha
    · split at ha <;> cases ha <;> exact .refl _ _
    · cases ha
      exact .refl _ _
  | saving id row => cases ha; exact .refl _ _
  | beginning op ids =>
    simp only [CacheTx.advance] at ha
    split at ha
    · cases ha
      exact .evict _ _ _
    · cases ha
      exact .refl _ _
  | looping op =>
    simp only [CacheTx.advance] at ha
    split at ha <;> cases ha <;> exact .refl _ _
  | locked op todo row written =>
    cases todo with
    | nil =>
      simp only [CacheTx.advance] at ha
      split at ha <;> cases ha <;> exact .refl _ _
    | cons i todo =>
      simp only [CacheTx.advance] at ha
      split at ha <;> cases ha <;> exact .refl _ _
  | committing path ids row =>
    simp only [CacheTx.advance] at ha
    split at ha <;> cases ha <;> exact .commit _ _ _
  | evicting version ids =>
    match ids with
    | [] => cases ha; exact .refl _ _
    | [id] => cases ha; exact .evict _ _ _
    | id :: id' :: ids => cases ha; exact .evict _ _ _
  | returning version => cases ha; exact .finish _ _ _
  | ended => cases ha

/-! ## every access keeps the invariant -/

theorem CacheDb.Inv.initial (row : Product) : (CacheDb.initial row).Inv where
  done := Nat.le_refl _
  cache := fun _ h => by cases h
  pending := fun _ _ ⟨_, he, _⟩ => absurd he List.not_mem_nil
  fetches := fun _ he => absurd he List.not_mem_nil
  inflight := fun _ _ _ h => by cases h

theorem CacheDb.Inv.pending_honest (h : db.Inv) (hr : db.Pending id r) : r.honest db id := by
  obtain ⟨e, he, rfl, _, hread⟩ := hr
  exact h.fetches e he r hread

/-- an access that leaves the promises alone -/
theorem CacheDb.Inv.frame (hinv : db.Inv) (h : Frame locks db db') (hdone : db'.done = db.done)
    (hfetches : db'.fetches = db.fetches) (hinflight : db'.inflight = db.inflight) : db'.Inv where
  done := by
    have hold := hinv.done
    have hversion := h.version
    omega
  cache := by
    intro x hx
    rw [hdone]
    rcases h.cache x hx with hx | hx
    · exact ⟨(hinv.cache x hx).1, (hinv.cache x hx).2.mono h⟩
    · exact ⟨hinv.pending x.1 x.2 hx, (hinv.pending_honest hx).mono h⟩
  pending := by
    intro id r hr
    rw [hdone]
    rcases h.pending id r hr with hr | hr
    · exact hinv.pending id r hr
    · exact hr ▸ hinv.done
  fetches := fun e he r hr => (hinv.fetches e (hfetches ▸ he) r hr).mono h
  inflight := by
    rw [hfetches, hinflight]
    exact hinv.inflight

theorem CacheDb.Inv.addFetch (hinv : db.Inv) (inst : Nat) (id : String) :
    ((db.addFetch inst id).setInflight inst id (some db.fetches.length)).Inv where
  done := hinv.done
  cache := hinv.cache
  pending := by
    intro x r hr
    rcases (Frame.addFetch [] db inst id none).pending x r hr with hr | hr
    · exact hinv.pending x r hr
    · exact hr ▸ hinv.done
  fetches := by
    intro e he r hr
    rcases List.mem_append.mp he with he | he
    · exact hinv.fetches e he r hr
    · rw [List.mem_singleton.mp he] at hr
      cases hr
  inflight := by
    intro i x f hf
    have hf : (if i = inst ∧ x = id then some db.fetches.length else db.inflight i x) = some f := hf
    show ∃ e, (db.fetches ++ [_])[f]? = some e ∧ _
    by_cases hi : i = inst ∧ x = id
    · rw [if_pos hi] at hf
      obtain rfl : db.fetches.length = f := Option.some.inj hf
      exact ⟨_, List.getElem?_concat_length .., hi.1.symm, hi.2.symm, rfl⟩
    · rw [if_neg hi] at hf
      obtain ⟨e, he, hrest⟩ := hinv.inflight i x f hf
      refine ⟨e, ?_, hrest⟩
      rw [List.getElem?_append_left (List.getElem?_eq_some_iff.mp he).1]
      exact he

theorem CacheDb.Inv.read (hinv : db.Inv) {inst f : Nat}
    (hf : db.fetches[f]? = some ⟨inst, id, none, false⟩) :
    (db.setFetch f ⟨inst, id, some (db.find id), false⟩).Inv where
  done := hinv.done
  cache := hinv.cache
  pending := by
    rintro x r ⟨e, he, hx, hs, hr⟩
    rcases List.mem_or_eq_of_mem_set he with he | rfl
    · exact hinv.pending x r ⟨e, he, hx, hs, hr⟩
    · cases hr
      exact hinv.done
  fetches := by
    intro e he r hr
    rcases List.mem_or_eq_of_mem_set he with he | rfl
    · exact hinv.fetches e he r hr
    · cases hr
      exact find_honest db id
  inflight := by
    intro i x f' hi
    obtain ⟨e, he, hinst, hid, hs⟩ := hinv.inflight i x f' hi
    by_cases hff : f = f'
    · subst hff
      rw [hf] at he
      cases he
      exact ⟨_, List.getElem?_set_self (List.getElem?_eq_some_iff.mp hf).1, hinst, hid, rfl⟩
    · refine ⟨e, ?_, hinst, hid, hs⟩
      show (db.fetches.set f _)[f']? = some e
      rw [List.getElem?_set_ne hff]
      exact he

/-- the fetch of an instance for an id settles, and is not in flight any more -/
theorem CacheDb.Inv.settle (hinv : db.Inv) {inst f : Nat}
    (hf : db.fetches[f]? = some ⟨inst, id, some r, false⟩) :
    ((db.setInflight inst id none).setFetch f ⟨inst, id, some r, true⟩).Inv where
  done := hinv.done
  cache := hinv.cache
  pending := by
    rintro x r' ⟨e, he, hx, hs, hr⟩
    rcases List.mem_or_eq_of_mem_set he with he | rfl
    · exact hinv.pending x r' ⟨e, he, hx, hs, hr⟩
    · cases hs
  fetches := by
    intro e he r' hr
    rcases List.mem_or_eq_of_mem_set he with he | rfl
    · exact hinv.fetches e he r' hr
    · exact hinv.fetches _ (List.mem_of_getElem? hf) r' hr
  inflight := by
    intro i x f' hi
    have hi : (if i = inst ∧ x = id then none else db.inflight i x) = some f' := hi
    by_cases hii : i = inst ∧ x = id
    · rw [if_pos hii] at hi
      cases hi
    · rw [if_neg hii] at hi
      obtain ⟨e, he, hinst, hid, hs⟩ := hinv.inflight i x f' hi
      have hff : f ≠ f' := by
        rintro rfl
        rw [hf] at he
        cases he
        exact hii ⟨hinst.symm, hid.symm⟩
      refine ⟨e, ?_, hinst, hid, hs⟩
      show (db.fetches.set f _)[f']? = some e
      rw [List.getElem?_set_ne hff]
      exact he

theorem CacheDb.Inv.finish (hinv : db.Inv) {version : Nat} (hv : version ≤ db.version)
    (hcache : ∀ x ∈ db.cache, version ≤ x.2.version)
    (hpending : ∀ id r, db.Pending id r → version ≤ r.version) : (db.finish version).Inv where
  done := by
    have hdone := hinv.done
    show max db.done version ≤ db.version
    omega
  cache := by
    intro x hx
    obtain ⟨hdone, hhonest⟩ := hinv.cache x hx
    have hv' := hcache x hx
    have hmax : max db.done version ≤ x.2.version := by omega
    exact ⟨hmax, hhonest⟩
  pending := by
    intro id r hr
    have hdone := hinv.pending id r hr
    have hv' := hpending id r hr
    show max db.done version ≤ r.version
    omega
  fetches := hinv.fetches
  inflight := hinv.inflight

theorem CacheTx.Sound.joins (hinv : db.Inv) {inst needed f : Nat} (hn : needed ≤ db.done)
    (hf : db.inflight inst id = some f) : CacheTx.Sound db (.joined id needed f) := by
  obtain ⟨e, he, _, hid, hs⟩ := hinv.inflight inst id f hf
  have hdone := hinv.done
  have hn' : needed ≤ db.version := by omega
  refine ⟨hn', e, he, hid, fun r hr => ?_⟩
  have hread := hinv.pending id r ⟨e, List.mem_of_getElem? he, hid, hs, hr⟩
  omega

theorem CacheTx.Sound.failed (db : CacheDb) (op : StockOp) (row : Product) (written : Bool) :
    (failed op row written).Sound db := by
  cases op <;> trivial

/-- a transaction that has evicted before commits: nothing is cached, and nothing has been read -/
theorem CacheTx.Sound.commits (hinv : db.Inv) {path : Path} {ids : List String} {row : Product}
    (hq : quiet .go db (.committing path ids row)) (ha : advance db (.committing path ids row) =
      some (db', t')) : db'.Inv ∧ t'.Sound db' := by
  have hversion := version_commit db row
  have hinv' : (db.commit row).Inv := hinv.frame (.commit [] db row) rfl rfl rfl
  cases path with
  | evictsLast =>
    cases ha
    exact ⟨hinv', Nat.le_of_eq hversion.symm⟩
  | evictsFirst =>
    cases ha
    obtain ⟨hcache, hfetches⟩ := hq.2 rfl
    refine ⟨hinv', Nat.le_of_eq hversion.symm, fun x hx => ?_, fun id r hr => ?_⟩
    · have hx : x ∈ db.cache := hx
      rw [hcache] at hx
      exact absurd hx List.not_mem_nil
    · obtain ⟨e, he, _, hs, hr⟩ := hr
      rw [hfetches e he hs] at hr
      cases hr

/-- a writer evicts: after the last id, nothing that is older is left -/
theorem CacheTx.Sound.evicts (hinv : db.Inv) {version : Nat} {ids : List String}
    (hv : version ≤ db.version) (hq : quiet .go db (.evicting version ids))
    (ha : advance db (.evicting version ids) = some (db', t')) : db'.Inv ∧ t'.Sound db' := by
  match ids with
  | [] =>
    cases ha
    obtain ⟨hcache, hfetches⟩ := hq.1 _ rfl
    refine ⟨hinv, hv, fun x hx => hcache x hx List.not_mem_nil, fun id r hr => ?_⟩
    obtain ⟨e, he, _, hs, hr⟩ := hr
    exact hfetches e he hs r hr
  | [id] =>
    cases ha
    obtain ⟨hcache, hfetches⟩ := hq.1 _ rfl
    refine ⟨hinv.frame (.evict [] db id) rfl rfl rfl, hv, fun x hx => ?_, fun id' r hr => ?_⟩
    · obtain ⟨hx, hne⟩ := mem_evict.mp hx
      exact hcache x hx fun hin => hne (List.mem_singleton.mp hin)
    · obtain ⟨e, he, _, hs, hr⟩ := hr
      exact hfetches e he hs r hr
  | id :: id' :: ids =>
    cases ha
    exact ⟨hinv.frame (.evict [] db id) rfl rfl rfl, hv⟩

/-- **Every access that is quiet keeps the invariant.** -/
theorem CacheTx.Sound.advance (hinv : db.Inv) (ht : t.Sound db) (hq : quiet .go db t)
    (ha : t.advance db = some (db', t')) : db'.Inv ∧ t'.Sound db' := by
  have hframe := ht.advance_frame ha
  cases t with
  | called inst id =>
    cases ha
    exact ⟨hinv, Nat.le_refl _⟩
  | getting inst id needed =>
    simp only [CacheTx.advance] at ha
    split at ha
    · rename_i r hr
      cases ha
      obtain ⟨hdone, hhonest⟩ := hinv.cache _ (cached_mem hr)
      have hn : needed ≤ db.done := ht
      have hfresh : needed ≤ r.version := Nat.le_trans hn hdone
      exact ⟨hinv, hfresh, hhonest⟩
    · cases ha
      exact ⟨hinv, ht⟩
  | missed inst id needed =>
    simp only [CacheTx.advance] at ha
    split at ha
    · rename_i f hf
      cases ha
      exact ⟨hinv, .joins hinv ht hf⟩
    · cases ha
      exact ⟨hinv.addFetch inst id, ht, List.getElem?_concat_length ..⟩
  | reading inst id needed f =>
    obtain ⟨hn, hf⟩ := ht
    have hread : (db.setFetch f ⟨inst, id, some (db.find id), false⟩).fetches[f]? =
        some ⟨inst, id, some (db.find id), false⟩ :=
      List.getElem?_set_self (List.getElem?_eq_some_iff.mp hf).1
    have hdone := hinv.done
    have hfresh : needed ≤ db.version := by omega
    simp only [CacheTx.advance] at ha
    split at ha
    · cases ha
      exact ⟨hinv.read hf, hfresh, hread⟩
    · cases ha
      exact ⟨hinv.read hf, hfresh, hread⟩
  | setting inst id needed f r =>
    cases ha
    exact ⟨hinv.frame hframe rfl rfl rfl, ht⟩
  | settling inst id needed f r =>
    cases ha
    exact ⟨hinv.settle ht.2, ht.1, hinv.fetches _ (List.mem_of_getElem? ht.2) r rfl⟩
  | joined id needed f =>
    obtain ⟨_, e, he, hid, hall⟩ := ht
    simp only [CacheTx.advance] at ha
    split at ha
    · rename_i inst id' r hr
      cases ha
      obtain rfl : ⟨inst, id', some r, true⟩ = e := Option.some.inj (hr.symm.trans he)
      exact ⟨hinv, hall r rfl, hid ▸ hinv.fetches _ (List.mem_of_getElem? he) r rfl⟩
    · cases ha
  | answered id needed r => cases ha
  | finding id e =>
    simp only [CacheTx.advance] at ha
    split at ha
    · split at ha <;> cases ha <;> exact ⟨hinv, trivial⟩
    · cases ha
      exact ⟨hinv, trivial⟩
  | saving id row =>
    cases ha
    exact ⟨hinv, trivial⟩
  | beginning op ids =>
    simp only [CacheTx.advance] at ha
    split at ha
    · cases ha
      exact ⟨hinv.frame hframe rfl rfl rfl, trivial⟩
    · cases ha
      exact ⟨hinv, trivial⟩
  | looping op =>
    simp only [CacheTx.advance] at ha
    split at ha <;> cases ha <;> exact ⟨hinv, trivial⟩
  | locked op todo row written =>
    cases todo with
    | nil =>
      simp only [CacheTx.advance] at ha
      split at ha <;> cases ha <;> exact ⟨hinv, trivial⟩
    | cons i todo =>
      simp only [CacheTx.advance] at ha
      split at ha
      · cases ha
        exact ⟨hinv, trivial⟩
      · cases ha
        exact ⟨hinv, .failed _ op row written⟩
  | committing path ids row => exact commits hinv hq ha
  | evicting version ids => exact evicts hinv ht hq ha
  | returning version =>
    cases ha
    obtain ⟨hv, hcache, hpending⟩ := ht
    exact ⟨hinv.finish hv hcache hpending, trivial⟩
  | ended => cases ha

theorem CacheTx.rollback_sound (ha : t.rollback = some t') (db : CacheDb) : t'.Sound db := by
  cases t <;> cases ha <;> trivial

theorem stable_cache : Stable CacheTx.start CacheTx.next CacheTx.held (fun _ => True) quiet
    CacheDb.Inv (fun db t => t.Sound db) where
  start_held := fun c => by cases c <;> rfl
  start_loc := fun c _ _ _ => by cases c <;> trivial
  own := by
    intro b db t db' t' hinv ht hq hn
    cases b with
    | go => exact ht.advance hinv hq hn
    | fail =>
      cases t <;> cases hn
      exact ⟨hinv, .failed _ _ _ _⟩
    | abort =>
      obtain ⟨t₁, hr, he⟩ := Option.map_eq_some_iff.mp hn
      cases he
      exact ⟨hinv, CacheTx.rollback_sound hr db⟩
  other := by
    intro b db t db' t' u _ ht hu _ hn hlocks
    cases b with
    | go => exact hu.frame (ht.advance_frame hn) hlocks
    | fail =>
      cases t <;> cases hn
      exact hu
    | abort =>
      obtain ⟨t₁, hr, he⟩ := Option.map_eq_some_iff.mp hn
      cases he
      exact hu

end

/-- **`findById` answers with no superseded version, if all accesses are quiet.** -/
theorem findById_fresh (row : Product) (as : List CacheAction)
    (hq : Along CachePool.step (Pool.allows quiet) ⟨.initial row, []⟩ as) :
    ∀ id needed r, .answered id needed r ∈ (run CachePool.step ⟨.initial row, []⟩ as).txs →
      needed ≤ r.version ∧ r.honest (run CachePool.step ⟨.initial row, []⟩ as).db id := by
  intro id needed r hr
  have hgood := stable_cache.run (CacheDb.Inv.initial row) as (fun _ _ => trivial) hq
  exact hgood.loc _ hr

/-- `n` accesses of a call -/
def CacheAction.accesses (tx n : Nat) : List CacheAction := List.replicate n (.access tx .go)

theorem findById_fresh_updated :
    let as : List CacheAction := [.start (.findById 0 Product.pens.id)] ++
      CacheAction.accesses 0 6 ++
      [.start (.edit Product.pens.id (.update ⟨none, none, some (some 300), none⟩))] ++
      CacheAction.accesses 1 5 ++ [.start (.findById 0 Product.pens.id)] ++
      CacheAction.accesses 2 6
    ∀ id needed r, .answered id needed r ∈ (run CachePool.step ⟨.initial .pens, []⟩ as).txs →
      needed ≤ r.version ∧ r.honest (run CachePool.step ⟨.initial .pens, []⟩ as).db id :=
  findById_fresh _ _ (by decide +kernel)

/-- **A reservation of the saga leaves a superseded row in the cache.**  A reader fills the cache
between the eviction and the commit, and nothing evicts the row after the commit. -/
theorem findById_stale : ¬ ∀ (row : Product) (as : List CacheAction),
    ∀ id needed r, .answered id needed r ∈ (run CachePool.step ⟨.initial row, []⟩ as).txs →
      needed ≤ r.version ∧ r.honest (run CachePool.step ⟨.initial row, []⟩ as).db id := by
  intro h
  let as : List CacheAction := [.start (.stock (.sagaReserveStock [⟨Product.pens.id, 2⟩]))] ++
    CacheAction.accesses 0 1 ++ [.start (.findById 0 Product.pens.id)] ++
    CacheAction.accesses 1 6 ++ CacheAction.accesses 0 6 ++
    [.start (.findById 0 Product.pens.id)] ++ CacheAction.accesses 2 2
  have hstale : CacheTx.answered Product.pens.id 1 ⟨some .pens, 0⟩ ∈
      (run CachePool.step ⟨.initial .pens, []⟩ as).txs := by decide +kernel
  exact absurd (h .pens as _ _ _ hstale).1 (by decide)

-- an `update` under another spelling of the id evicts another entry
example :
    let upper := "AAAAAAAA-0000-4000-8000-000000000000"
    let as : List CacheAction := [.start (.findById 0 upper)] ++ CacheAction.accesses 0 6 ++
      [.start (.edit Product.pens.id (.update ⟨none, none, some (some 300), none⟩))] ++
      CacheAction.accesses 1 5 ++ [.start (.findById 0 upper)] ++ CacheAction.accesses 2 2
    CacheTx.answered upper 1 ⟨some .pens, 0⟩ ∈
        (run CachePool.step ⟨.initial .pens, []⟩ as).txs ∧
      ¬ Along CachePool.step (Pool.allows quiet) ⟨.initial .pens, []⟩ as := by
  decide +kernel

end Shop
