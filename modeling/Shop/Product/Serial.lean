import Shop.Product.Concurrent
import Shop.Lib.Serial

/-!
# Stock transactions are serial in the order of their commits

Deliveries of any number of stock commands, for any products, as the pool of `Shop.Product.Concurrent`
runs them.

* `rowsAt k t`             the rows of a product: all that a locked row protects;
* `Beside locks t t'`      `t'` is `t` after a commit of another delivery, for whoever holds `locks`;
* `Reserved`, `Did`        what a delivery has written so far, as a function of the committed table;
* `StockTx.InStep db t`    a delivery that is under way would write the same if it started now;
* `stock_serial`           the committed tables are those that the handlers leave, one by one, in the
                           order of the commits.

The rows that a delivery has read are locked, so a commit of another one changes none of them; a
product that it did not find is not found after the commit either, since the handlers change nothing
but stock.
-/

set_option linter.unusedSectionVars false

namespace Shop
open Lib

/-! ## the rows of one product -/

def rowsAt (k : String) (t : List Product) : List Product :=
  t.filter fun p => decide (p.id = k)

theorem findActive_rowsAt (k : String) (t : List Product) :
    findActive k t = (rowsAt (uuidOf k) t).find? Product.isActive := by
  unfold findActive rowsAt
  rw [List.find?_filter]
  congr 1
  funext p
  simp

theorem rowsAt_eq_nil {k : String} {t : List Product} (h : k ∉ t.map Product.id) :
    rowsAt k t = [] := by
  refine List.filter_eq_nil_iff.mpr fun p hp he => h ?_
  exact List.mem_map.mpr ⟨p, hp, of_decide_eq_true he⟩

/-- the product that a write changes -/
def StockWrite.row : StockWrite → String
  | .save id _ => id
  | .increment item => item.product

def StockWrite.change : StockWrite → Product → Product
  | .save _ stock => Product.withStock stock
  | .increment item => Product.addStock item.quantity

theorem StockWrite.apply_eq (s : StockWrite) (t : List Product) :
    s.apply t = updateBy Product.id s.row s.change t := by
  cases s <;> rfl

/-- a write changes nothing but stock -/
theorem StockWrite.change_keeps (s : StockWrite) (p : Product) :
    ((s.change p).id, (s.change p).isActive) = (p.id, p.isActive) := by
  cases s <;> rfl

theorem rowsAt_apply (s : StockWrite) (k : String) (t : List Product) :
    rowsAt k (s.apply t) = if s.row = k then (rowsAt k t).map s.change else rowsAt k t := by
  rw [s.apply_eq]
  unfold rowsAt updateBy
  rw [List.filter_map]
  have hsame : ((fun p => decide (p.id = k)) ∘ fun p : Product =>
      if p.id = s.row then s.change p else p) = fun p => decide (p.id = k) := by
    funext p
    show decide ((if p.id = s.row then s.change p else p).id = k) = _
    split
    · rw [(Prod.mk.inj (s.change_keeps p)).1]
    · rfl
  rw [hsame]
  split
  · rename_i hrow
    refine List.map_congr_left fun p hp => if_pos ?_
    exact (of_decide_eq_true (List.mem_filter.mp hp).2).trans hrow.symm
  · rename_i hrow
    conv_rhs => rw [← List.map_id (List.filter (fun p => decide (p.id = k)) t)]
    refine List.map_congr_left fun p hp => if_neg ?_
    exact fun e => hrow (e.symm.trans (of_decide_eq_true (List.mem_filter.mp hp).2))

/-- the ids of the products, and which are active -/
def actives (t : List Product) : List (String × Bool) := t.map fun p => (p.id, p.isActive)

theorem actives_apply (s : StockWrite) (t : List Product) : actives (s.apply t) = actives t := by
  rw [s.apply_eq]
  exact map_updateBy _ s.change_keeps t

theorem actives_view (x : Uncommitted) (t : List Product) : actives (x.view t) = actives t := by
  unfold Uncommitted.view
  induction x.writes generalizing t with
  | nil => rfl
  | cons s ws ih =>
    show actives (ws.foldl StockWrite.apply (s.apply t)) = _
    rw [ih, actives_apply]

theorem ids_of_actives {t t' : List Product} (h : actives t' = actives t) :
    t'.map Product.id = t.map Product.id := by
  have hfst := congrArg (List.map Prod.fst) h
  unfold actives at hfst
  rw [List.map_map, List.map_map] at hfst
  exact hfst

theorem findActive_none {k : String} {t : List Product} :
    findActive k t = none ↔ (uuidOf k, true) ∉ actives t := by
  unfold findActive actives
  rw [List.find?_eq_none, List.mem_map]
  constructor
  · rintro h ⟨p, hp, he⟩
    obtain ⟨hid, hactive⟩ := Prod.mk.inj he
    exact h p hp (by rw [decide_eq_true hid, hactive]; rfl)
  · intro h p hp he
    rw [Bool.and_eq_true, decide_eq_true_eq] at he
    exact h ⟨p, hp, by rw [he.1, he.2]⟩

/-- what a transaction reads of a product depends on the rows of that product only -/
theorem rowsAt_view (x : Uncommitted) {k : String} {t t' : List Product}
    (h : rowsAt k t' = rowsAt k t) : rowsAt k (x.view t') = rowsAt k (x.view t) := by
  unfold Uncommitted.view
  induction x.writes generalizing t t' with
  | nil => exact h
  | cons s ws ih =>
    refine ih ?_
    rw [rowsAt_apply, rowsAt_apply, h]

theorem reserveRow_congr {t t' : List Product} {i : LineItem}
    (h : rowsAt i.product t' = rowsAt i.product t) : reserveRow t' i = reserveRow t i := by
  have h : rowsAt (uuidOf i.productId) t' = rowsAt (uuidOf i.productId) t := h
  unfold reserveRow
  rw [findActive_rowsAt, findActive_rowsAt, h]

theorem selected_congr {t t' : List Product} {i : LineItem}
    (h : rowsAt i.product t' = rowsAt i.product t) :
    StockTx.selected t' i = StockTx.selected t i := by
  have h : rowsAt (uuidOf i.productId) t' = rowsAt (uuidOf i.productId) t := h
  unfold StockTx.selected
  rw [findActive_rowsAt, findActive_rowsAt, h]

/-! ## what a delivery has written, as a function of the committed table -/

/-- `t'` is `t` after a commit of another delivery, for whoever holds the rows `locks` -/
structure Beside (locks : List String) (t t' : List Product) : Prop where
  rows : ∀ k ∈ locks, rowsAt k t' = rowsAt k t
  actives : actives t' = actives t

theorem Beside.mono {locks locks' : List String} {t t' : List Product} (h : Beside locks t t')
    (hl : ∀ k ∈ locks', k ∈ locks) : Beside locks' t t' := ⟨fun k hk => h.rows k (hl k hk), h.actives⟩

/-- every row that was written is locked -/
def RowsLocked (t : List Product) (x : Uncommitted) : Prop :=
  ∀ s ∈ x.writes, s.row ∈ t.map Product.id → s.row ∈ x.locks

/-- the commit of writes whose rows are locked, for whoever holds other rows -/
theorem RowsLocked.beside {t : List Product} {x : Uncommitted} (h : RowsLocked t x) {locks : List String}
    (hd : ∀ k ∈ x.locks, k ∉ locks) : Beside locks t (x.view t) where
  actives := actives_view x t
  rows := by
    intro k hk
    have hfree : ∀ s ∈ x.writes, s.row = k → k ∉ t.map Product.id := by
      rintro s hs rfl hin
      exact hd _ (h s hs hin) hk
    have hview : ∀ (ws : List StockWrite) (t' : List Product), actives t' = actives t →
        (∀ s ∈ ws, s.row = k → k ∉ t.map Product.id) →
        rowsAt k (ws.foldl StockWrite.apply t') = rowsAt k t' := by
      intro ws
      induction ws with
      | nil => exact fun _ _ _ => rfl
      | cons s ws ih =>
        intro t' ht' hws
        show rowsAt k (ws.foldl StockWrite.apply (s.apply t')) = _
        rw [ih _ ((actives_apply s t').trans ht') fun u hu => hws u (List.mem_cons_of_mem _ hu),
          rowsAt_apply]
        split
        · rename_i hrow
          have hno := hws s List.mem_cons_self hrow
          rw [← ids_of_actives ht'] at hno
          rw [rowsAt_eq_nil hno]
          rfl
        · rfl
    exact hview x.writes t rfl hfree

/-- the lines `done` have been reserved on the table `t`, with the details `evs` and the writes `x` -/
inductive Reserved (t : List Product) :
    List LineItem → List OrderCreatedEventItem → Uncommitted → Prop
  | none : Reserved t [] [] ⟨[], []⟩
  | line {done : List LineItem} {evs : List OrderCreatedEventItem} {x : Uncommitted}
      {item : LineItem} {p : Product} : Reserved t done evs x →
      reserveRow (x.view t) item = .ok p →
      Reserved t (done ++ [item]) (evs ++ [reservedItem item p])
        ((x.lock (StockTx.selected (x.view t) item)).write (.save p.id p.stock))

/-- the line that is read is locked, if there is such a product -/
theorem selected_ok {t : List Product} {item : LineItem} {p : Product}
    (h : reserveRow t item = .ok p) :
    StockTx.selected t item = [item.product] ∧ p.id = item.product := by
  unfold reserveRow at h
  unfold StockTx.selected
  cases hf : findActive item.productId t with
  | none =>
    simp only [hf] at h
    cases h
  | some q =>
    have hid := (findActive_some hf).2.1
    simp only [hf] at h
    split at h
    · cases h
    · cases h
      exact ⟨congrArg ([·]) hid, hid⟩

section
variable {t t' : List Product} {done : List LineItem} {evs : List OrderCreatedEventItem}
  {x : Uncommitted}

theorem Reserved.covered (h : Reserved t done evs x) : RowsLocked t x := by
  induction h with
  | none => exact fun _ hs => absurd hs List.not_mem_nil
  | line _ hrow ih =>
    intro s hs hin
    obtain ⟨hsel, hid⟩ := selected_ok hrow
    rcases List.mem_append.mp hs with hs | hs
    · exact List.mem_append_left _ (ih s hs hin)
    · rw [List.mem_singleton.mp hs]
      refine List.mem_append_right _ ?_
      rw [hsel]
      exact List.mem_singleton.mpr hid

/-- another delivery's commit changes nothing that was read -/
theorem Reserved.beside (h : Reserved t done evs x) (hb : Beside x.locks t t') :
    Reserved t' done evs x := by
  induction h with
  | none => exact .none
  | @line done evs x item p hdone hrow ih =>
    have hmine := ih (hb.mono fun k hk => List.mem_append_left _ hk)
    obtain ⟨hsel, _⟩ := selected_ok hrow
    have hrows : rowsAt item.product t' = rowsAt item.product t := by
      refine hb.rows _ (List.mem_append_right _ ?_)
      rw [hsel]
      exact List.mem_singleton_self _
    have hview := rowsAt_view x hrows
    rw [← reserveRow_congr hview] at hrow
    rw [← selected_congr hview]
    exact .line hmine hrow

/-- what has been reserved is a prefix of the loop -/
theorem Reserved.resume (h : Reserved t done evs x) (c : ReserveStockCommand)
    (rest : List LineItem) : resume c t [] (done ++ rest) = resume c (x.view t) evs rest := by
  induction h generalizing rest with
  | none => rfl
  | line _ hrow ih =>
    rw [List.append_assoc, ih, List.singleton_append, resume_ok c hrow, Uncommitted.view_write]
    rfl

end

/-- the command `c` has been executed on the table `t`: its reply, and its writes -/
inductive Did (t : List Product) : StockCommand → StoredResult → Uncommitted → Prop
  | reserved {c : ReserveStockCommand} {evs : List OrderCreatedEventItem} {x : Uncommitted} :
      Reserved t c.items evs x → Did t (.reserve c) (ProductDb.reserveReply c (.ok evs)) x
  | refused {c : ReserveStockCommand} {done rest : List LineItem} {item : LineItem}
      {evs : List OrderCreatedEventItem} {x : Uncommitted} {e : ProductsError} :
      c.items = done ++ item :: rest → Reserved t done evs x →
      reserveRow (x.view t) item = .error e →
      Did t (.reserve c) (ProductDb.reserveReply c (.error e))
        (x.lock (StockTx.selected (x.view t) item))
  | released {c : ReleaseStockCommand} {x : Uncommitted} :
      x.writes = c.items.map .increment → RowsLocked t x →
      Did t (.release c) (ProductDb.releaseReply c) x

theorem RowsLocked.sameActives {t t' : List Product} {x : Uncommitted} (h : RowsLocked t x)
    (hl : actives t' = actives t) : RowsLocked t' x := by
  intro s hs hin
  rw [ids_of_actives hl] at hin
  exact h s hs hin

/-- increments alone are the loop of `releaseStock` -/
theorem view_increments {x : Uncommitted} {items : List LineItem}
    (h : x.writes = items.map .increment) (t : List Product) : x.view t = releaseItems t items := by
  unfold Uncommitted.view releaseItems
  rw [h, List.foldl_map]
  rfl

/-- a line that is refused: no active product, or one that is read under its lock -/
theorem reserveRow_error {t : List Product} {item : LineItem} {e : ProductsError}
    (h : reserveRow t item = .error e) :
    (findActive item.productId t = none ∧ e = .productNotFound item.productId) ∨
      StockTx.selected t item = [item.product] := by
  unfold reserveRow at h
  unfold StockTx.selected
  cases hf : findActive item.productId t with
  | none =>
    simp only [hf] at h
    cases h
    exact Or.inl ⟨rfl, rfl⟩
  | some q =>
    exact Or.inr (congrArg ([·]) (findActive_some hf).2.1)

section
variable {t t' : List Product} {c : StockCommand} {r : StoredResult} {x : Uncommitted}

theorem Did.covered (h : Did t c r x) : RowsLocked t x := by
  cases h with
  | reserved hr => exact hr.covered
  | refused _ hr _ => exact fun s hs hin => List.mem_append_left _ (hr.covered s hs hin)
  | released _ hc => exact hc

theorem Did.beside (h : Did t c r x) (hb : Beside x.locks t t') : Did t' c r x := by
  cases h with
  | reserved hr => exact .reserved (hr.beside hb)
  | @refused c done rest item evs x e hitems hr hrow =>
    have hmine := hr.beside (hb.mono fun k hk => List.mem_append_left _ hk)
    rcases reserveRow_error hrow with ⟨hnone, rfl⟩ | hsel
    · -- what is not there does not appear
      have hnone' : findActive item.productId (x.view t') = none := by
        rw [findActive_none, actives_view, hb.actives, ← actives_view x t]
        exact findActive_none.mp hnone
      have hrow' : reserveRow (x.view t') item = .error (.productNotFound item.productId) := by
        unfold reserveRow
        rw [hnone']
      have hsel : StockTx.selected (x.view t) item = StockTx.selected (x.view t') item := by
        unfold StockTx.selected
        rw [hnone, hnone']
      rw [hsel]
      exact .refused hitems hmine hrow'
    · have hrows : rowsAt item.product t' = rowsAt item.product t := by
        refine hb.rows _ (List.mem_append_right _ ?_)
        rw [hsel]
        exact List.mem_singleton_self _
      have hview := rowsAt_view x hrows
      rw [← reserveRow_congr hview] at hrow
      rw [← selected_congr hview]
      exact .refused hitems hmine hrow
  | released hw hc => exact .released hw (hc.sameActives hb.actives)

/-- **A delivery that has executed its command has written what its handler would.** -/
theorem Did.execute (h : Did t c r x) : (x.view t, r) = c.execute t := by
  cases h with
  | @reserved c evs x hr =>
    rw [← resume_all c t, ← List.append_nil c.items, hr.resume, resume_nil]
  | @refused c done rest item evs x e hitems hr hrow =>
    rw [← resume_all c t, hitems, hr.resume, resume_error c hrow]
    rfl
  | @released c x hw _ =>
    rw [view_increments hw]
    rfl

end

/-! ## the invariant -/

/-- what holds of a delivery in the committed state `db` -/
def StockTx.InStep (db : ProductDb) : StockTx → Prop
  | .started _ => True
  | .replaying c r => findKey c.commandId db.idempotencyKeys = some r
  | .reserving c todo evs x => ∃ done, c.items = done ++ todo ∧ Reserved db.products done evs x
  | .releasing c todo x => ∃ done, c.items = done ++ todo ∧ x.writes = done.map .increment ∧
      RowsLocked db.products x
  | .saving c r x => Did db.products c r x
  | .inserting c r x => Did db.products c r x
  | .updating _ _ _ => False
  | .finishing c r x => Did db.products c r x ∧ findKey c.commandId db.idempotencyKeys = none
  | .ended => True

section
variable {g : RowDefaults} {db db' : ProductDb} {t t' u : StockTx}

theorem StockTx.InStep.advance (h : t.InStep db) (hm : missed (.go g) db t)
    (ha : t.advance g db = some (db', t')) : t'.InStep db := by
  cases t with
  | started c =>
    simp only [StockTx.advance] at ha
    cases hf : findKey c.commandId db.idempotencyKeys with
    | none =>
      rw [hf] at ha
      cases ha
      cases c with
      | reserve c => exact ⟨[], rfl, .none⟩
      | release c => exact ⟨[], rfl, rfl, fun _ hs => absurd hs List.not_mem_nil⟩
    | some r =>
      rw [hf] at ha
      cases ha
      exact hf
  | replaying c r =>
    cases ha
    trivial
  | reserving c todo evs x =>
    obtain ⟨done, hitems, hr⟩ := h
    cases todo with
    | nil =>
      cases ha
      rw [List.append_nil] at hitems
      exact .reserved (hitems ▸ hr)
    | cons item todo =>
      simp only [StockTx.advance] at ha
      cases hrow : reserveRow (x.view db.products) item with
      | error e =>
        rw [hrow] at ha
        cases ha
        exact .refused hitems hr hrow
      | ok p =>
        rw [hrow] at ha
        cases ha
        exact ⟨done ++ [item], by rw [hitems, List.append_assoc]; rfl, .line hr hrow⟩
  | releasing c todo x =>
    obtain ⟨done, hitems, hw, hc⟩ := h
    cases todo with
    | nil =>
      cases ha
      rw [List.append_nil] at hitems
      exact .released (hitems ▸ hw) hc
    | cons item todo =>
      cases ha
      refine ⟨done ++ [item], by rw [hitems, List.append_assoc]; rfl, ?_, ?_⟩
      · show x.writes ++ [_] = _
        rw [hw, List.map_append]
        rfl
      · intro s hs hin
        rcases List.mem_append.mp hs with hs | hs
        · exact List.mem_append_left _ (hc s hs hin)
        · rw [List.mem_singleton.mp hs] at hin ⊢
          refine List.mem_append_right _ (List.mem_filter.mpr ⟨?_, decide_eq_true rfl⟩)
          rw [ids_of_actives (actives_view x db.products)]
          exact hin
  | saving c r x =>
    simp only [StockTx.advance] at ha
    rw [hm c rfl] at ha
    cases ha
    exact h
  | inserting c r x =>
    simp only [StockTx.advance] at ha
    cases hf : findKey c.commandId db.idempotencyKeys with
    | none =>
      rw [hf] at ha
      cases ha
      exact ⟨h, hf⟩
    | some _ =>
      rw [hf] at ha
      cases ha
      trivial
  | updating c r x => exact absurd h not_false
  | finishing c r x =>
    cases ha
    trivial
  | ended => cases ha

/-- a commit of another delivery, which holds its rows and its key, or replays -/
theorem StockTx.InStep.other (ht : t.InStep db) (hu : u.InStep db)
    (ha : t.advance g db = some (db', t')) (hlocks : ∀ l ∈ t.held, l ∉ u.held) : u.InStep db' := by
  rcases advance_cases ha with rfl | ⟨c, r, rfl, rfl, _⟩ | ⟨c, r, x, rfl, rfl, _⟩
  · exact hu
  · cases u <;> exact hu
  · obtain ⟨hdid, hnone⟩ := ht
    have hbeside : ∀ locks : List String, (∀ k ∈ locks, .product k ∈ u.held) →
        Beside locks db.products (x.view db.products) := fun locks hl =>
      hdid.covered.beside fun k hk hk' => hlocks (.product k)
        (List.mem_cons_of_mem _ (List.mem_map_of_mem hk)) (hl k hk')
    have hactives : actives (x.view db.products) = actives db.products := actives_view x db.products
    cases u with
    | started c' => trivial
    | replaying c' r' =>
      have hr : findKey c'.commandId db.idempotencyKeys = some r' := hu
      have hne : c'.commandId ≠ c.commandId := fun e => nomatch (e ▸ hr).symm.trans hnone
      exact (findKey_saveKey_ne hne r db.idempotencyKeys).trans hr
    | reserving c' todo evs x' =>
      obtain ⟨done, hitems, hr⟩ := hu
      exact ⟨done, hitems, hr.beside (hbeside _ fun k hk => List.mem_map_of_mem hk)⟩
    | releasing c' todo x' =>
      obtain ⟨done, hitems, hw, hc⟩ := hu
      exact ⟨done, hitems, hw, hc.sameActives hactives⟩
    | saving c' r' x' => exact Did.beside hu (hbeside _ fun k hk => List.mem_map_of_mem hk)
    | inserting c' r' x' => exact Did.beside hu (hbeside _ fun k hk => List.mem_map_of_mem hk)
    | updating c' r' x' => exact hu
    | finishing c' r' x' =>
      obtain ⟨hdid', hnone'⟩ := hu
      refine ⟨hdid'.beside (hbeside _ fun k hk =>
        List.mem_cons_of_mem _ (List.mem_map_of_mem hk)), ?_⟩
      have hne : c'.commandId ≠ c.commandId := fun e =>
        hlocks (.key c.commandId) List.mem_cons_self (e ▸ List.mem_cons_self)
      exact (findKey_saveKey_ne hne r db.idempotencyKeys).trans hnone'
    | ended => trivial

end

theorem stable_inStep : Stable StockTx.started StockTx.next StockTx.held (fun _ => True) missed
    (fun _ => True) StockTx.InStep where
  start_held := fun _ => rfl
  start_loc := fun _ _ _ _ => trivial
  own := by
    intro b db t db' t' _ ht hm hn
    refine ⟨trivial, ?_⟩
    cases b with
    | abort =>
      cases hn
      trivial
    | go g =>
      rcases StockTx.advance_cases hn with rfl | ⟨_, _, _, _, rfl⟩ | ⟨_, _, _, _, _, rfl⟩
      · exact ht.advance hm hn
      · trivial
      · trivial
  other := by
    intro b db t db' t' u _ ht hu _ hn hlocks
    cases b with
    | abort =>
      cases hn
      exact hu
    | go g => exact ht.other hu hn hlocks

/-! ## the order of the commits -/

/-- a delivery, with what the database generates for its commit -/
abbrev StockEvent := RowDefaults × StockCommand

def StockEvent.handle (e : StockEvent) (db : ProductDb) : ProductDb := e.2.handle e.1 db

def StockTx.commit : StockAccess → StockTx → Option StockEvent
  | .go g, .replaying c _ => some (g, c)
  | .go g, .finishing c _ _ => some (g, c)
  | _, _ => none

/-- the deliveries of a run that are committed, in the order of their commits -/
def stockCommits (db₀ : ProductDb) (as : List StockAction) : List StockEvent :=
  emits StockPool.step (Pool.commits StockTx.next StockTx.held StockTx.commit) ⟨db₀, []⟩ as

theorem stock_inOrder :
    InOrder StockTx.next StockTx.commit StockEvent.handle missed (fun _ => True) StockTx.InStep := by
  intro b db t db' t' _ ht _ hn
  cases b with
  | abort =>
    cases hn
    rfl
  | go g =>
    have hcases := StockTx.advance_cases hn
    cases t with
    | replaying c r =>
      cases hn
      exact (StockTx.handle_recorded g ht).symm
    | finishing c r x =>
      cases hn
      exact (StockTx.handle_committed g ht.2 ht.1.execute).symm
    | _ =>
      rcases hcases with rfl | ⟨_, _, he, _⟩ | ⟨_, _, _, he, _⟩
      · rfl
      · cases he
      · cases he

/-- the command that a delivery has not committed yet -/
def StockTx.asks : StockTx → List StockCommand
  | .started c | .replaying c _ | .saving c _ _ | .inserting c _ _ | .updating c _ _
  | .finishing c _ _ => [c]
  | .reserving c _ _ _ => [.reserve c]
  | .releasing c _ _ => [.release c]
  | .ended => []

theorem stock_commitsOnce :
    CommitsOnce StockTx.started StockTx.next StockTx.commit Prod.snd StockTx.asks where
  start_asks := fun _ => rfl
  next_asks := by
    intro b db t db' t' hn
    cases b with
    | abort =>
      cases hn
      exact List.nil_subperm
    | go g =>
      have hsame : ∀ l : List StockCommand, ([] ++ l).Subperm l := fun l => List.Subperm.refl l
      cases t with
      | started c =>
        simp only [StockTx.next, StockTx.advance] at hn
        split at hn <;> cases hn
        · exact hsame [c]
        · cases c <;> exact hsame [_]
      | replaying c r =>
        cases hn
        exact List.Subperm.refl [c]
      | reserving c todo evs x =>
        cases todo with
        | nil =>
          cases hn
          exact hsame [_]
        | cons item todo =>
          simp only [StockTx.next, StockTx.advance] at hn
          split at hn <;> cases hn <;> exact hsame [_]
      | releasing c todo x =>
        cases todo <;> cases hn <;> exact hsame [_]
      | saving c r x =>
        simp only [StockTx.next, StockTx.advance] at hn
        split at hn <;> cases hn <;> exact hsame [_]
      | inserting c r x =>
        simp only [StockTx.next, StockTx.advance] at hn
        split at hn <;> cases hn
        · exact hsame [_]
        · exact List.nil_subperm
      | updating c r x =>
        cases hn
        exact hsame [_]
      | finishing c r x =>
        cases hn
        exact List.Subperm.refl [c]
      | ended => cases hn

theorem requested_delivered (as : List StockAction) : requested as = delivered as := by
  refine List.filterMap_congr fun a _ => ?_
  cases a <;> rfl

/-- **Stock transactions are serializable in the order of their commits**, as long as none of them
executes its command and then finds the record of another delivery: whatever they interleave, the
products, the records and the outbox are what the handlers leave that run one after the other, each
for a delivery of its own. -/
theorem stock_serial (db₀ : ProductDb) (as : List StockAction)
    (hm : Along StockPool.step (Pool.allows missed) ⟨db₀, []⟩ as) :
    ((stockCommits db₀ as).map Prod.snd).Subperm (delivered as) ∧
      (run StockPool.step ⟨db₀, []⟩ as).db =
        serially StockEvent.handle db₀ (stockCommits db₀ as) :=
  ⟨(requested_delivered as) ▸ Pool.commits_subperm StockTx.held stock_commitsOnce db₀ as,
    stable_inStep.serial stock_inOrder trivial as (fun _ _ => trivial) hm⟩

/-- two orders for two products, line by line in turn, and a release that comes in between -/
theorem stock_serial_interleaved :
    let db : ProductDb := ⟨[.pens, .ink], [], []⟩
    let pens : LineItem := ⟨Product.pens.id, 2⟩
    let ink : LineItem := ⟨Product.ink.id, 1⟩
    let as : List StockAction :=
      [.start (.reserve ⟨"first", "order-1", "corr", [pens, ink]⟩),
        .start (.reserve ⟨"second", "order-2", "corr", [ink]⟩),
        .start (.release ⟨"third", "order-3", "corr", [pens]⟩)] ++
      StockAction.accesses 0 2 ++ StockAction.accesses 1 2 ++ StockAction.accesses 2 1 ++
      StockAction.accesses 1 4 ++ StockAction.accesses 0 5 ++ StockAction.accesses 2 5
    (stockCommits db as).map (fun e => e.2.commandId) = ["second", "first", "third"] ∧
      ((stockCommits db as).map Prod.snd).Subperm (delivered as) ∧
      (run StockPool.step ⟨db, []⟩ as).db = serially StockEvent.handle db (stockCommits db as) :=
  ⟨by decide +kernel, stock_serial _ _ (by decide +kernel)⟩

end Shop
