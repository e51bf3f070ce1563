import Shop.Product.Concurrent
import Shop.Lib.Waits

/-!
# When deliveries of product-service wait for each other

A delivery locks the products of its command in the order in which the command lists them, and the
key of its record last.  Deliveries that wait for each other in a circle need commands whose lists,
taken together, run in a circle.

* `Precedes D p q`     a command of `D` lists the product `p` before `q`;
* `StockLock.below D`  the order in which the commands `D` take locks, strict if nothing `Cycles`;
* `StockTx.Follows`    the order of the accesses of one delivery;
* `stock_drain`        without a circle, all deliveries that are under way can end;
* `stock_deadlock`     two lists in opposite orders, and nobody can go on.
-/

set_option linter.unusedSectionVars false

namespace Shop
open Lib Relation

namespace StockCommand

def productIds : StockCommand → List String
  | .reserve c => c.items.map LineItem.product
  | .release c => c.items.map LineItem.product

end StockCommand

/-- a command lists `p`, and after it `q` -/
def Precedes (D : List StockCommand) (p q : String) : Prop :=
  p ≠ q ∧ ∃ c ∈ D, ∃ before after, c.productIds = before ++ q :: after ∧ p ∈ before

/-- the lists of the commands run in a circle -/
def Cycles (D : List StockCommand) : Prop := ∃ id, TransGen (Precedes D) id id

def StockLock.below (D : List StockCommand) : StockLock → StockLock → Prop
  | .product p, .product q => TransGen (Precedes D) p q
  | .product _, .key _ => True
  | .key _, _ => False

theorem StockLock.below_strict {D : List StockCommand} (h : ¬ Cycles D) :
    IsStrictOrder StockLock (StockLock.below D) where
  irrefl k hk := by
    cases k with
    | product p => exact h ⟨p, hk⟩
    | key k => exact hk
  trans k l m hkl hlm := by
    cases k with
    | key k => exact hkl.elim
    | product p =>
      cases l with
      | key l => exact hlm.elim
      | product q =>
        cases m with
        | key m => trivial
        | product r => exact TransGen.trans hkl hlm

namespace StockTx

/-- an upper bound of the accesses that are left -/
def size : StockTx → Nat
  | .started c => c.productIds.length + 5
  | .reserving _ todo _ _ => todo.length + 4
  | .releasing _ todo _ => todo.length + 4
  | .saving _ _ _ => 3
  | .inserting _ _ _ => 2
  | .updating _ _ _ => 2
  | .finishing _ _ _ => 1
  | .replaying _ _ => 1
  | .ended => 0

theorem size_eq_zero {t : StockTx} (h : t.size = 0) : t = .ended := by
  cases t <;> simp_all [size]

/-- the locks are on products that the command lists before those that are still to come -/
def Visits (D : List StockCommand) (c : StockCommand) (todo : List LineItem) (x : Uncommitted) :
    Prop :=
  c ∈ D ∧ ∃ before, c.productIds = before ++ todo.map LineItem.product ∧ ∀ id ∈ x.locks, id ∈ before

def Visited (D : List StockCommand) : StockTx → Prop
  | .started c => c ∈ D
  | .reserving c todo _ x => Visits D (.reserve c) todo x
  | .releasing c todo x => Visits D (.release c) todo x
  | _ => True

/-- the row of a line is locked, if it was not before -/
def Locks (x x' : Uncommitted) (item : LineItem) : Prop :=
  ∀ id ∈ x'.locks, id ∈ x.locks ∨ id = item.product

/-- the order of the accesses, whatever they read -/
inductive Follows : StockTx → StockTx → Prop
  | found (c : StockCommand) (r : StoredResult) : Follows (.started c) (.replaying c r)
  | missing (c : StockCommand) : Follows (.started c) (execution c)
  | reserve (c : ReserveStockCommand) (item : LineItem) (todo : List LineItem)
    (done done' : List OrderCreatedEventItem) (x x' : Uncommitted) (h : Locks x x' item) :
    Follows (.reserving c (item :: todo) done x) (.reserving c todo done' x')
  | refuse (c : ReserveStockCommand) (item : LineItem) (todo : List LineItem)
    (done : List OrderCreatedEventItem) (r : StoredResult) (x x' : Uncommitted)
    (h : Locks x x' item) :
    Follows (.reserving c (item :: todo) done x) (.saving (.reserve c) r x')
  | reserved (c : ReserveStockCommand) (done : List OrderCreatedEventItem) (r : StoredResult)
    (x : Uncommitted) : Follows (.reserving c [] done x) (.saving (.reserve c) r x)
  | release (c : ReleaseStockCommand) (item : LineItem) (todo : List LineItem)
    (x x' : Uncommitted) (h : Locks x x' item) :
    Follows (.releasing c (item :: todo) x) (.releasing c todo x')
  | released (c : ReleaseStockCommand) (r : StoredResult) (x : Uncommitted) :
    Follows (.releasing c [] x) (.saving (.release c) r x)
  | new (c : StockCommand) (r : StoredResult) (x : Uncommitted) :
    Follows (.saving c r x) (.inserting c r x)
  | again (c : StockCommand) (r : StoredResult) (x : Uncommitted) :
    Follows (.saving c r x) (.updating c r x)
  | insert (c : StockCommand) (r : StoredResult) (x : Uncommitted) :
    Follows (.inserting c r x) (.finishing c r x)
  | update (c : StockCommand) (r : StoredResult) (x : Uncommitted) :
    Follows (.updating c r x) (.finishing c r x)
  | finish (t : StockTx) (h : t.size ≠ 0) : Follows t .ended

theorem locks_selected (x : Uncommitted) (t : List Product) (item : LineItem) :
    Locks x (x.lock (selected t item)) item := by
  intro id hid
  rcases List.mem_append.mp hid with hid | hid
  · exact Or.inl hid
  · refine Or.inr ?_
    unfold selected at hid
    split at hid
    · rename_i p hp
      rw [List.mem_singleton.mp hid]
      exact (findActive_some hp).2.1
    · exact absurd hid List.not_mem_nil

theorem locks_updated (x : Uncommitted) (t : List Product) (item : LineItem) :
    Locks x (x.lock (updated t item)) item := by
  intro id hid
  rcases List.mem_append.mp hid with hid | hid
  · exact Or.inl hid
  · exact Or.inr (of_decide_eq_true (List.mem_filter.mp hid).2)

/-- an access leads to one that follows it -/
theorem follows_advance {g : RowDefaults} {db db' : ProductDb} {t t' : StockTx}
    (h : t.advance g db = some (db', t')) : Follows t t' := by
  cases t with
  | started c =>
    simp only [advance] at h
    split at h
    · cases h; exact .found c _
    · cases h; exact .missing c
  | reserving c todo done x =>
    cases todo with
    | nil => cases h; exact .reserved c done _ x
    | cons item todo =>
      have hx := locks_selected x (x.view db.products) item
      simp only [advance] at h
      split at h
      · cases h; exact .refuse c item todo done _ x _ hx
      · cases h; exact .reserve c item todo done _ x _ hx
  | releasing c todo x =>
    cases todo with
    | nil => cases h; exact .released c _ x
    | cons item todo =>
      cases h
      exact .release c item todo x _ (locks_updated x (x.view db.products) item)
  | saving c r x =>
    simp only [advance] at h
    split at h
    · cases h; exact .new c r x
    · cases h; exact .again c r x
  | inserting c r x =>
    simp only [advance] at h
    split at h
    · cases h; exact .insert c r x
    · cases h; exact .finish _ (by simp [size])
  | updating c r x => cases h; exact .update c r x
  | ended => cases h
  | _ => cases h; exact .finish _ (by simp [size])

theorem advance_goes (g : RowDefaults) (db : ProductDb) {t : StockTx} (h : t.size ≠ 0) :
    ∃ db' t', t.advance g db = some (db', t') := by
  cases t with
  | ended => exact absurd rfl h
  | reserving c todo done x =>
    cases todo with
    | nil => exact ⟨_, _, rfl⟩
    | cons item todo =>
      simp only [advance]
      split <;> exact ⟨_, _, rfl⟩
  | releasing c todo x => cases todo <;> exact ⟨_, _, rfl⟩
  | _ =>
    simp only [advance]
    first
      | exact ⟨_, _, rfl⟩
      | split <;> exact ⟨_, _, rfl⟩

theorem Follows.size_lt {t t' : StockTx} (h : Follows t t') : t'.size < t.size := by
  cases h with
  | finish _ hne => exact Nat.pos_of_ne_zero hne
  | missing c => cases c <;> simp [size, execution, StockCommand.productIds]
  | found c r => simp only [size]; omega
  | _ => simp [size]

/-- the next line of a command is visited, with the row that it locks -/
theorem Visits.next {D : List StockCommand} {c : StockCommand} {item : LineItem}
    {todo : List LineItem} {x x' : Uncommitted} (h : Visits D c (item :: todo) x)
    (hx : Locks x x' item) : Visits D c todo x' := by
  obtain ⟨hc, before, heq, hlocks⟩ := h
  refine ⟨hc, before ++ [item.product], ?_, fun id hid => ?_⟩
  · rw [heq, List.append_assoc]
    rfl
  · rcases hx id hid with hid | rfl
    · exact List.mem_append_left _ (hlocks id hid)
    · exact List.mem_append_right _ (List.mem_singleton_self _)

theorem Follows.visited {D : List StockCommand} {t t' : StockTx} (h : Follows t t')
    (hv : t.Visited D) : t'.Visited D := by
  cases h with
  | missing c => cases c <;> exact ⟨hv, [], rfl, fun _ hid => absurd hid List.not_mem_nil⟩
  | reserve c item todo done done' x x' hx => exact hv.next hx
  | release c item todo x x' hx => exact hv.next hx
  | _ => trivial

/-- a product that a line locks comes after those that have been locked -/
theorem Visits.above {D : List StockCommand} {c : StockCommand} {item : LineItem}
    {todo : List LineItem} {x x' : Uncommitted} (h : Visits D c (item :: todo) x)
    (hx : Locks x x' item) : ∀ k ∈ x'.locks.map StockLock.product,
      k ∉ x.locks.map StockLock.product → ∀ k₀ ∈ x.locks.map StockLock.product, k₀.below D k := by
  intro k hk hnew k₀ hk₀
  obtain ⟨id, hid, rfl⟩ := List.mem_map.mp hk
  obtain ⟨id₀, hid₀, rfl⟩ := List.mem_map.mp hk₀
  obtain ⟨hc, before, heq, hlocks⟩ := h
  rcases hx id hid with hold | rfl
  · exact absurd (List.mem_map_of_mem hold) hnew
  · have hne : id₀ ≠ item.product := fun e => hnew (e ▸ hk₀)
    exact .single ⟨hne, c, hc, before, _, heq, hlocks id₀ hid₀⟩

/-- the key is asked for when all products are locked -/
theorem key_above {D : List StockCommand} {x : Uncommitted} {id : String} :
    ∀ k ∈ StockLock.key id :: x.locks.map StockLock.product,
      k ∉ x.locks.map StockLock.product → ∀ k₀ ∈ x.locks.map StockLock.product, k₀.below D k := by
  intro k hk hnew k₀ hk₀
  obtain ⟨id₀, _, rfl⟩ := List.mem_map.mp hk₀
  rcases List.mem_cons.mp hk with rfl | hk
  · trivial
  · exact absurd hk hnew

theorem Follows.above {D : List StockCommand} {t t' : StockTx} (h : Follows t t')
    (hv : t.Visited D) : ∀ k ∈ t'.held, k ∉ t.held → ∀ k₀ ∈ t.held, k₀.below D k := by
  cases h with
  | reserve c item todo done done' x x' hx => exact hv.above hx
  | refuse c item todo done r x x' hx => exact hv.above hx
  | release c item todo x x' hx => exact hv.above hx
  | insert c r x => exact key_above
  | update c r x => exact key_above
  | found c r => exact fun _ _ _ _ hk₀ => absurd hk₀ List.not_mem_nil
  | missing c => exact fun _ _ _ _ hk₀ => absurd hk₀ List.not_mem_nil
  | finish _ _ => exact fun _ hk => absurd hk List.not_mem_nil
  | _ => exact fun _ hk hnew => absurd hk hnew

end StockTx

/-! ## the pool -/

/-- the accesses of a delivery that goes on -/
def StockAccess.Goes (b : StockAccess) : Prop := ∃ g, b = .go g

theorem stock_ordered (D : List StockCommand) : Ordered (StockLock.below D) StockTx.next
    StockTx.held StockTx.size StockAccess.Goes (fun _ t => t.Visited D) where
  goes := by
    rintro b db t ⟨g, rfl⟩ h
    exact StockTx.advance_goes g db h
  shrinks := by
    rintro b db t db' t' ⟨g, rfl⟩ h
    exact (StockTx.follows_advance h).size_lt
  above := by
    rintro b db t db' t' ⟨g, rfl⟩ hv h
    exact (StockTx.follows_advance h).above hv
  idle := fun t h => StockTx.size_eq_zero h ▸ rfl

theorem stock_waits (D : List StockCommand) : Stable StockTx.started StockTx.next StockTx.held
    (fun c => c ∈ D) (fun _ _ _ => True) (fun _ => True) (fun _ t => t.Visited D) where
  start_held := fun _ => rfl
  start_loc := fun _ _ hc _ => hc
  own := by
    intro b db t db' t' _ hv _ h
    cases b with
    | go g => exact ⟨trivial, (StockTx.follows_advance h).visited hv⟩
    | abort => cases h; exact ⟨trivial, trivial⟩
  other := fun _ _ _ _ _ _ _ _ hu _ _ _ => hu

/-- **Deliveries wait for each other only if the lists of their commands run in a circle.**  If
those of all commands delivered so far do not, the deliveries that are under way can be brought to
their end; one that meets the record of another ends in a rollback. -/
theorem stock_drain (db : ProductDb) (as : List StockAction) (g : Nat → RowDefaults) :
    Cycles (delivered as) ∨ ∃ order : List Nat,
      ∀ t ∈ (run StockPool.step (run StockPool.step ⟨db, []⟩ as)
        (order.mapIdx fun i tx => .access tx (.go (g i)))).txs, t = .ended := by
  by_cases hcyc : Cycles (delivered as)
  · exact Or.inl hcyc
  · have hstrict := StockLock.below_strict hcyc
    have hgood := (stock_waits (delivered as)).run trivial as
      (fun c hc => mem_delivered.mpr hc) (along_intro _ Pool.allows_true ⟨db, []⟩ as)
    obtain ⟨order, _, hend⟩ := (stock_ordered (delivered as)).drain
      (stock_waits (delivered as)) hgood (fun i => .go (g i)) fun i => ⟨g i, rfl⟩
    exact Or.inr ⟨order, fun t ht => StockTx.size_eq_zero (hend t ht)⟩

/-! ## two lists in opposite orders -/

/-- something is under way, and no access of anybody is taken -/
def Stuck (p : Pool ProductDb StockTx) : Prop :=
  (∃ t ∈ p.txs, t ≠ .ended) ∧ ∀ tx g, StockPool.step p (.access tx (.go g)) = p

/-- an access of a transaction whose next locks another one has is not taken -/
theorem access_waits (other : Nat) {p : Pool ProductDb StockTx} {tx : Nat} {g : RowDefaults}
    {db' : ProductDb} {t t' u : StockTx} {k : StockLock} (ht : p.txs[tx]? = some t)
    (hn : t.advance g p.db = some (db', t')) (hu : p.txs[other]? = some u) (hne : other ≠ tx)
    (hk : k ∈ t'.held) (hku : k ∈ u.held) : StockPool.step p (.access tx (.go g)) = p := by
  have hbusy : p.free StockTx.held tx t' ≠ true := fun hfree =>
    free_iff.mp hfree other u hne hu k hk hku
  have hn : StockTx.next (.go g) p.db t = some (db', t') := hn
  simp only [StockPool.step, Pool.step, ht, hn, if_neg hbusy]

/-- an active product, whatever its stock -/
def Active (t : List Product) (id : String) : Prop := ∃ p ∈ t, p.id = id ∧ p.isActive = true

theorem Active.of_reserveRow {t : List Product} {item : LineItem} {p : Product}
    (h : reserveRow t item = .ok p) : Active t item.product := by
  unfold reserveRow at h
  split at h
  · cases h
  · exact ⟨_, findActive_some ‹_›⟩

theorem Active.setStock {t : List Product} {id : String} (h : Active t id) (id' : String)
    (n : Int) : Active (setStock id' n t) id := by
  obtain ⟨p, hm, hid, ha⟩ := h
  by_cases he : p.id = id'
  · exact ⟨p.withStock n, mem_updateBy.mpr ⟨p, hm, Or.inl ⟨he, rfl⟩⟩, hid, ha⟩
  · exact ⟨p, mem_updateBy.mpr ⟨p, hm, Or.inr ⟨he, rfl⟩⟩, hid, ha⟩

theorem StockTx.selected_active {t : List Product} {item : LineItem}
    (h : Active t item.product) : StockTx.selected t item = [item.product] := by
  unfold StockTx.selected
  cases hf : findActive item.productId t with
  | none =>
    obtain ⟨p, hm, hid, ha⟩ := h
    have hno := List.find?_eq_none.mp hf p hm
    have hid : p.id = uuidOf item.productId := hid
    rw [ha, decide_eq_true hid] at hno
    exact absurd rfl hno
  | some p => exact congrArg ([·]) (findActive_some hf).2.1

/-- a reservation that has taken its first line, and is about to select the second -/
def StockTx.halfway (c : ReserveStockCommand) (first : LineItem) (p : Product)
    (todo : List LineItem) : StockTx :=
  .reserving c todo [reservedItem first p] ⟨[.save p.id p.stock], [first.product]⟩

/-- the second line of a reservation asks for the row of its product -/
theorem StockTx.halfway_asks (g : RowDefaults) (db : ProductDb) (c : ReserveStockCommand)
    (first second : LineItem) (p : Product) (todo : List LineItem)
    (h : Active db.products second.product) :
    ∃ t', (halfway c first p (second :: todo)).advance g db = some (db, t') ∧
      .product second.product ∈ t'.held := by
  have hview : (⟨[.save p.id p.stock], [first.product]⟩ : Uncommitted).view db.products =
      Shop.setStock p.id p.stock db.products := rfl
  have hsel := selected_active (h.setStock p.id p.stock)
  unfold halfway
  simp only [advance, hview, hsel]
  split
  · exact ⟨_, rfl, by simp [held, Uncommitted.lock]⟩
  · exact ⟨_, rfl, by simp [held, Uncommitted.lock, Uncommitted.write]⟩

/-- the first two accesses of a reservation, with the row of its first line locked by nobody -/
theorem StockPool.begins {q : Pool ProductDb StockTx} {tx : Nat} {c : ReserveStockCommand}
    {item : LineItem} {todo : List LineItem} {p : Product}
    (ht : q.txs[tx]? = some (.started (.reserve c))) (hitems : c.items = item :: todo)
    (hnew : findKey c.commandId q.db.idempotencyKeys = none)
    (hrow : reserveRow q.db.products item = .ok p)
    (hfree : ∀ j u, j ≠ tx → q.txs[j]? = some u → .product item.product ∉ u.held)
    (g : RowDefaults) :
    run StockPool.step q [.access tx (.go g), .access tx (.go g)] =
      ⟨q.db, q.txs.set tx (.halfway c item p todo)⟩ := by
  have hlen : tx < q.txs.length := (List.getElem?_eq_some_iff.mp ht).1
  have hlook : StockTx.next (.go g) q.db (.started (.reserve c)) =
      some (q.db, .reserving c (item :: todo) [] ⟨[], []⟩) := by
    simp only [StockTx.next, StockTx.advance, StockCommand.commandId, hnew, StockTx.execution,
      hitems]
  have hline : StockTx.next (.go g) q.db (.reserving c (item :: todo) [] ⟨[], []⟩) =
      some (q.db, .halfway c item p todo) := by
    have hrow' : reserveRow ((⟨[], []⟩ : Uncommitted).view q.db.products) item = .ok p := hrow
    simp only [StockTx.next, StockTx.advance, hrow']
    show some (q.db, StockTx.reserving c todo _ ⟨_, [] ++ StockTx.selected q.db.products item⟩) = _
    rw [StockTx.selected_active (Active.of_reserveRow hrow)]
    rfl
  have hlook' : StockPool.step q (.access tx (.go g)) =
      ⟨q.db, q.txs.set tx (.reserving c (item :: todo) [] ⟨[], []⟩)⟩ :=
    Pool.step_access ht hlook rfl
  have hmine : (q.txs.set tx (.reserving c (item :: todo) [] ⟨[], []⟩))[tx]? =
      some (.reserving c (item :: todo) [] ⟨[], []⟩) := List.getElem?_set_self hlen
  have hfree' : (⟨q.db, q.txs.set tx (.reserving c (item :: todo) [] ⟨[], []⟩)⟩ :
      Pool ProductDb StockTx).free StockTx.held tx (.halfway c item p todo) = true := by
    refine free_iff.mpr fun j u hj hu k hk => ?_
    rw [List.getElem?_set_ne (fun e => hj e.symm)] at hu
    rw [List.mem_singleton.mp hk]
    exact hfree j u hj hu
  rw [run_cons, run_cons, run_nil, hlook']
  simp only [StockPool.step, Pool.step, hmine, hline, if_pos hfree', List.set_set]

/-- **Two reservations that list two products in opposite orders can wait for each other.**  Each
has locked the product that it lists first, and no access of either is taken any more. -/
theorem stock_deadlock (db : ProductDb) (c c' : ReserveStockCommand) (a b a' b' : LineItem)
    (rest rest' : List LineItem) (p p' : Product)
    (hitems : c.items = a :: b :: rest) (hitems' : c'.items = b' :: a' :: rest')
    (ha : a'.product = a.product) (hb : b'.product = b.product) (hne : a.product ≠ b.product)
    (hnew : findKey c.commandId db.idempotencyKeys = none)
    (hnew' : findKey c'.commandId db.idempotencyKeys = none)
    (hrow : reserveRow db.products a = .ok p) (hrow' : reserveRow db.products b' = .ok p') :
    ∃ as, delivered as = [.reserve c, .reserve c'] ∧
      (run StockPool.step ⟨db, []⟩ as).txs.map StockTx.held =
        [[.product a.product], [.product b'.product]] ∧
      Stuck (run StockPool.step ⟨db, []⟩ as) := by
  have g : RowDefaults := ⟨.sample 'a', 0⟩
  refine ⟨[.start (.reserve c)] ++ [.access 0 (.go g), .access 0 (.go g)] ++
    ([.start (.reserve c')] ++ [.access 1 (.go g), .access 1 (.go g)]), rfl, ?_⟩
  have hfirst : run StockPool.step ⟨db, []⟩
      ([.start (.reserve c)] ++ [.access 0 (.go g), .access 0 (.go g)]) =
      ⟨db, [.halfway c a p (b :: rest)]⟩ :=
    StockPool.begins (q := ⟨db, [.started (.reserve c)]⟩) rfl hitems hnew hrow
      (fun j u hj hu => by cases j with
        | zero => exact absurd rfl hj
        | succ j => cases hu) g
  have hsecond : run StockPool.step ⟨db, [.halfway c a p (b :: rest)]⟩
      ([.start (.reserve c')] ++ [.access 1 (.go g), .access 1 (.go g)]) =
      ⟨db, [.halfway c a p (b :: rest), .halfway c' b' p' (a' :: rest')]⟩ := by
    refine StockPool.begins (q := ⟨db, [.halfway c a p (b :: rest), .started (.reserve c')]⟩)
      rfl hitems' hnew' hrow' (fun j u hj hu => ?_) g
    match j with
    | 0 =>
      cases hu
      simp [StockTx.halfway, StockTx.held, hb, Ne.symm hne]
    | 1 => exact absurd rfl hj
    | j + 2 => cases hu
  rw [run_append, hfirst, hsecond]
  refine ⟨rfl, ⟨_, List.mem_cons_self, fun h => nomatch h⟩, fun tx g => ?_⟩
  match tx with
  | 0 =>
    obtain ⟨t', hgo, hasks⟩ := StockTx.halfway_asks g db c a b p rest
      (hb ▸ Active.of_reserveRow hrow')
    exact access_waits 1 rfl hgo rfl (by omega) hasks
      (by simp [StockTx.halfway, StockTx.held, hb])
  | 1 =>
    obtain ⟨t', hgo, hasks⟩ := StockTx.halfway_asks g db c' b' a' p' rest'
      (ha ▸ Active.of_reserveRow hrow)
    exact access_waits 0 rfl hgo rfl (by omega) hasks
      (by simp [StockTx.halfway, StockTx.held, ha])
  | tx + 2 => rfl

/-- two shoppers with pens and ink, in the two orders -/
theorem stock_deadlock_opposite :
    let db : ProductDb := ⟨[.pens, .ink], [], []⟩
    let pens (n : Int) : LineItem := ⟨Product.pens.id, n⟩
    let ink (n : Int) : LineItem := ⟨Product.ink.id, n⟩
    let c : ReserveStockCommand := ⟨"command", "order", "corr", [pens 1, ink 1]⟩
    let c' : ReserveStockCommand := ⟨"command'", "order'", "corr", [ink 2, pens 2]⟩
    ∃ as, delivered as = [.reserve c, .reserve c'] ∧
      (run StockPool.step ⟨db, []⟩ as).txs.map StockTx.held =
        [[.product (pens 1).product], [.product (ink 2).product]] ∧
      Stuck (run StockPool.step ⟨db, []⟩ as) := by
  refine stock_deadlock _ _ _ _ _ _ _ [] [] (Product.pens.withStock 4) (Product.ink.withStock 1)
    rfl rfl rfl rfl (by decide +kernel) rfl rfl ?_ ?_
  · decide +kernel
  · decide +kernel

end Shop
