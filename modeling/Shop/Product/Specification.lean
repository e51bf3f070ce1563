import Shop.Product.Reserve

/-!
# What a reservation does

The loop of `reserveStock` checks each line against a stock that the lines before it have lowered.
Seen from outside it checks the sums:

* `Reservable t items`    the listed products are active, with stock for the sum of their lines;
* `taken items t`         the table with the sums taken off;
* `Listed t i ev`         the line `i` in the result, with the product's name and price;
* `reserveItems_spec`     the loop succeeds exactly on reservable lists, with just this outcome;
* `reserveStock_spec`     the same for `reserveStock` in a transaction of its own.
-/

set_option linter.unusedSectionVars false

namespace Shop
open Lib

/-- the listed products are active, and no product is asked for more than it has -/
structure Reservable (t : List Product) (items : List LineItem) : Prop where
  active : ∀ i ∈ items, ∃ p ∈ t, p.id = i.product ∧ p.isActive = true
  enough : ∀ p ∈ t, quantityOf items p.id ≤ p.stock

/-- every product with the sum of its lines taken off -/
def taken (items : List LineItem) (t : List Product) : List Product :=
  t.map fun p => p.withStock (p.stock - quantityOf items p.id)

/-- the line with the name and the price of its product -/
def Listed (t : List Product) (i : LineItem) (ev : OrderCreatedEventItem) : Prop :=
  ∃ p ∈ t, p.id = i.product ∧ p.isActive = true ∧ ev = reservedItem i p

/-! ## tables that a reservation has lowered -/

theorem mem_taken {items : List LineItem} {t : List Product} {q : Product} :
    q ∈ taken items t ↔ ∃ p ∈ t, p.withStock (p.stock - quantityOf items p.id) = q := List.mem_map

theorem taken_ids (items : List LineItem) (t : List Product) :
    (taken items t).map Product.id = t.map Product.id := by
  unfold taken
  rw [List.map_map]
  rfl

theorem taken_nil (t : List Product) : taken [] t = t := by
  unfold taken
  conv_rhs => rw [← List.map_id t]
  apply List.map_congr_left
  intro p _
  rw [quantityOf_nil, Int.sub_zero]
  rfl

theorem quantityOf_single (i : LineItem) (id : String) :
    quantityOf [i] id = if i.product = id then i.quantity else 0 := by
  rw [quantityOf_cons, quantityOf_nil, Int.add_zero]

theorem taken_cons (i : LineItem) (items : List LineItem) (t : List Product) :
    taken (i :: items) t = taken items (taken [i] t) := by
  unfold taken
  rw [List.map_map]
  apply List.map_congr_left
  intro p _
  show p.withStock (p.stock - quantityOf (i :: items) p.id) =
    p.withStock (p.stock - quantityOf [i] p.id - quantityOf items p.id)
  rw [quantityOf_cons, quantityOf_single, Int.sub_sub]

/-- positive lines add up to something that is not negative -/
theorem quantityOf_nonneg {items : List LineItem} (hpos : ∀ i ∈ items, 0 < i.quantity)
    (id : String) : 0 ≤ quantityOf items id := by
  induction items with
  | nil => exact Int.le_refl 0
  | cons i items ih =>
    have hrest := ih fun j hj => hpos j (List.mem_cons_of_mem _ hj)
    have hi := hpos i List.mem_cons_self
    rw [quantityOf_cons]
    split <;> omega

/-- a product that no line names -/
theorem quantityOf_unlisted {items : List LineItem} {id : String}
    (h : ∀ i ∈ items, i.product ≠ id) : quantityOf items id = 0 := by
  unfold quantityOf
  have hnil : (items.filter fun i => decide (i.product = id)) = [] :=
    List.filter_eq_nil_iff.mpr fun i hi e => h i hi (of_decide_eq_true e)
  rw [hnil]
  rfl

/-! ## one line -/

section
variable {t : List Product} (hnd : (t.map Product.id).Nodup)

include hnd in
/-- the save of a line lowers its own product -/
theorem setStock_taken {p : Product} (hp : p ∈ t) {i : LineItem} (hid : p.id = i.product) :
    setStock p.id (p.stock - i.quantity) t = taken [i] t := by
  unfold setStock updateBy taken
  apply List.map_congr_left
  intro q hq
  rw [quantityOf_single]
  by_cases he : q.id = p.id
  · rw [if_pos he, if_pos (hid.symm.trans he.symm), key_inj hnd hq hp he]
  · rw [if_neg he, if_neg fun e => he (e.symm.trans hid.symm), Int.sub_zero]
    rfl

include hnd in
theorem reserveItem_eq {p : Product} (hp : p ∈ t) {i : LineItem} (hid : p.id = i.product)
    (ha : p.isActive = true) (hle : i.quantity ≤ p.stock) :
    reserveItem t i = .ok (taken [i] t, reservedItem i p) := by
  have hfind := findActive_mem hnd hp hid ha
  unfold reserveItem reserveRow
  simp only [hfind, if_neg (Int.not_lt.mpr hle)]
  show Except.ok (setStock p.id (p.stock - i.quantity) t, _) = _
  rw [setStock_taken hnd hp hid]
  rfl

/-- a line that is reserved, with the details of its product -/
theorem reserveItem_listed {t₁ : List Product} {i : LineItem} {ev : OrderCreatedEventItem}
    (h : reserveItem t i = .ok (t₁, ev)) : ∃ p ∈ t, p.id = i.product ∧ p.isActive = true ∧
      t₁ = setStock p.id (p.stock - i.quantity) t ∧ ev = reservedItem i p := by
  unfold reserveItem reserveRow at h
  cases hf : findActive i.productId t with
  | none => simp only [hf] at h; cases h
  | some p =>
    obtain ⟨hp, hid, ha⟩ := findActive_some hf
    by_cases hlt : p.stock < i.quantity
    · simp only [hf, if_pos hlt] at h; cases h
    · simp only [hf, if_neg hlt] at h
      cases h
      exact ⟨p, hp, hid, ha, rfl, rfl⟩

/-- the first line, and then the others against the lowered stock -/
theorem reservable_cons {i : LineItem} {items : List LineItem} {t : List Product}
    (hpos : ∀ j ∈ items, 0 < j.quantity) :
    Reservable t (i :: items) ↔
      (∃ p ∈ t, p.id = i.product ∧ p.isActive = true) ∧
        (∀ p ∈ t, p.id = i.product → i.quantity ≤ p.stock) ∧ Reservable (taken [i] t) items := by
  constructor
  · intro h
    refine ⟨h.active i List.mem_cons_self, fun p hp hid => ?_, fun j hj => ?_, fun q hq => ?_⟩
    · have hsum := h.enough p hp
      have hrest := quantityOf_nonneg hpos p.id
      rw [quantityOf_cons, if_pos hid.symm] at hsum
      omega
    · obtain ⟨p, hp, hid, ha⟩ := h.active j (List.mem_cons_of_mem _ hj)
      exact ⟨_, mem_taken.mpr ⟨p, hp, rfl⟩, hid, ha⟩
    · obtain ⟨p, hp, rfl⟩ := mem_taken.mp hq
      have hsum := h.enough p hp
      rw [quantityOf_cons] at hsum
      show quantityOf items p.id ≤ p.stock - quantityOf [i] p.id
      rw [quantityOf_single]
      omega
  · rintro ⟨hi, _, hrest⟩
    refine ⟨fun j hj => ?_, fun p hp => ?_⟩
    · rcases List.mem_cons.mp hj with rfl | hj
      · exact hi
      · obtain ⟨q, hq, hid, ha⟩ := hrest.active j hj
        obtain ⟨p, hp, rfl⟩ := mem_taken.mp hq
        exact ⟨p, hp, hid, ha⟩
    · have hsum : quantityOf items p.id ≤ p.stock - quantityOf [i] p.id :=
        hrest.enough _ (mem_taken.mpr ⟨p, hp, rfl⟩)
      rw [quantityOf_single] at hsum
      rw [quantityOf_cons]
      omega

/-- the details of a line do not depend on the stock -/
theorem Listed.of_taken {t : List Product} {items : List LineItem} {i : LineItem}
    {ev : OrderCreatedEventItem} (h : Listed (taken items t) i ev) : Listed t i ev := by
  obtain ⟨q, hq, hid, ha, rfl⟩ := h
  obtain ⟨p, hp, rfl⟩ := mem_taken.mp hq
  exact ⟨p, hp, hid, ha, rfl⟩

end

/-! ## the loop -/

theorem reserveItems_cons_ok {t t₁ : List Product} {i : LineItem} {ev : OrderCreatedEventItem}
    (h : reserveItem t i = .ok (t₁, ev)) (items : List LineItem) :
    reserveItems t (i :: items) = ((reserveItems t₁ items).1,
      (reserveItems t₁ items).2.map (ev :: ·)) := by
  conv_lhs => unfold reserveItems
  rw [h]
  cases hres : reserveItems t₁ items with
  | mk t₂ res =>
    cases res with
    | error e => simp only [hres]; rfl
    | ok rest => simp only [hres]; rfl

/-- **What the loop does.**  It succeeds on a reservable list and on no other, and then takes the
sum of each product's lines off and lists the lines in their order. -/
theorem reserveItems_spec {t : List Product} {items : List LineItem}
    (hnd : (t.map Product.id).Nodup) (hstock : ∀ p ∈ t, 0 ≤ p.stock)
    (hpos : ∀ i ∈ items, 0 < i.quantity) :
    (Reservable t items → ∃ evs, reserveItems t items = (taken items t, .ok evs) ∧
      List.Forall₂ (Listed t) items evs) ∧
    (¬ Reservable t items → ∃ e, (reserveItems t items).2 = .error e) := by
  induction items generalizing t with
  | nil =>
    have hnil : Reservable t [] := ⟨fun _ h => absurd h List.not_mem_nil, hstock⟩
    exact ⟨fun _ => ⟨[], by rw [taken_nil]; rfl, .nil⟩, fun h => absurd hnil h⟩
  | cons i items ih =>
    have hpos' : ∀ j ∈ items, 0 < j.quantity := fun j hj => hpos j (List.mem_cons_of_mem _ hj)
    have hcons := reservable_cons (i := i) (t := t) hpos'
    by_cases hi : ∃ p ∈ t, p.id = i.product ∧ p.isActive = true ∧ i.quantity ≤ p.stock
    · obtain ⟨p, hp, hid, ha, hle⟩ := hi
      have hline : ∀ q ∈ t, q.id = i.product → i.quantity ≤ q.stock := by
        intro q hq hqid
        rw [key_inj hnd hq hp (hqid.trans hid.symm)]
        exact hle
      have hstock' : ∀ q ∈ taken [i] t, 0 ≤ q.stock := by
        intro q hq
        obtain ⟨r, hr, rfl⟩ := mem_taken.mp hq
        have h0 := hstock r hr
        show 0 ≤ r.stock - quantityOf [i] r.id
        rw [quantityOf_single]
        by_cases he : i.product = r.id
        · have := hline r hr he.symm
          rw [if_pos he]
          omega
        · rw [if_neg he]
          omega
      obtain ⟨hok, hno⟩ := ih ((taken_ids [i] t).symm ▸ hnd) hstock' hpos'
      rw [reserveItems_cons_ok (reserveItem_eq hnd hp hid ha hle)]
      constructor
      · intro h
        obtain ⟨evs, hres, hlisted⟩ := hok (hcons.mp h).2.2
        rw [hres, taken_cons i items]
        refine ⟨reservedItem i p :: evs, rfl, .cons ⟨p, hp, hid, ha, rfl⟩ ?_⟩
        exact hlisted.imp fun _ _ hl => hl.of_taken
      · intro h
        obtain ⟨e, he⟩ := hno fun hr => h (hcons.mpr ⟨⟨p, hp, hid, ha⟩, hline, hr⟩)
        rw [he]
        exact ⟨e, rfl⟩
    · have hrefused : Unreservable t i := by
        intro p hp hid ha
        exact Int.not_le.mp fun hle => hi ⟨p, hp, hid, ha, hle⟩
      obtain ⟨e, he⟩ := (reserveItem_refused hnd).mpr hrefused
      refine ⟨fun h => ?_, fun _ => ⟨e, by unfold reserveItems; rw [he]⟩⟩
      obtain ⟨⟨p, hp, hid, ha⟩, hline, _⟩ := hcons.mp h
      exact absurd ⟨p, hp, hid, ha, hline p hp hid⟩ hi

/-! ## what the lines cost -/

/-- every line is listed -/
theorem exists_listed {t : List Product} {items : List LineItem} {evs : List OrderCreatedEventItem}
    (h : List.Forall₂ (Listed t) items evs) {i : LineItem} (hi : i ∈ items) :
    ∃ ev ∈ evs, Listed t i ev := by
  induction h with
  | nil => exact absurd hi List.not_mem_nil
  | @cons j ev items evs hl _ ih =>
    rcases List.mem_cons.mp hi with rfl | hi
    · exact ⟨ev, List.mem_cons_self, hl⟩
    · obtain ⟨ev', hev, hl'⟩ := ih hi
      exact ⟨ev', List.mem_cons_of_mem _ hev, hl'⟩

/-- what is listed is a line -/
theorem line_of_listed {t : List Product} {items : List LineItem}
    {evs : List OrderCreatedEventItem} (h : List.Forall₂ (Listed t) items evs)
    {ev : OrderCreatedEventItem} (hev : ev ∈ evs) : ∃ i ∈ items, Listed t i ev := by
  induction h with
  | nil => exact absurd hev List.not_mem_nil
  | @cons i ev' items evs hl _ ih =>
    rcases List.mem_cons.mp hev with rfl | hev
    · exact ⟨i, List.mem_cons_self, hl⟩
    · obtain ⟨j, hj, hl'⟩ := ih hev
      exact ⟨j, List.mem_cons_of_mem _ hj, hl'⟩

theorem Listed.of_setStock {t : List Product} {id : String} {n : Int} {i : LineItem}
    {ev : OrderCreatedEventItem} (h : Listed (setStock id n t) i ev) : Listed t i ev := by
  obtain ⟨q, hq, hid, ha, rfl⟩ := h
  obtain ⟨p, hp, ⟨_, rfl⟩ | ⟨_, rfl⟩⟩ := mem_updateBy.mp hq
  · exact ⟨p, hp, hid, ha, rfl⟩
  · exact ⟨_, hp, hid, ha, rfl⟩

/-- the loop, where it succeeds, lists the lines with the details of their products -/
theorem reserveItems_listed {items : List LineItem} {t t' : List Product}
    {evs : List OrderCreatedEventItem} (h : reserveItems t items = (t', .ok evs)) :
    List.Forall₂ (Listed t) items evs := by
  induction items generalizing t evs with
  | nil =>
    cases h
    exact .nil
  | cons i items ih =>
    unfold reserveItems at h
    cases h1 : reserveItem t i with
    | error e => rw [h1] at h; cases h
    | ok p =>
      obtain ⟨t₁, ev⟩ := p
      rw [h1] at h
      cases h2 : reserveItems t₁ items with
      | mk t₂ res =>
        cases res with
        | error e => simp only [h2] at h; cases h
        | ok rest =>
          simp only [h2] at h
          cases h
          obtain ⟨p, hp, hid, ha, ht, hev⟩ := reserveItem_listed h1
          refine .cons ⟨p, hp, hid, ha, hev⟩ ?_
          exact (ih h2).imp fun _ _ hl => (ht ▸ hl).of_setStock

/-- the price of a product, nothing if there is none -/
def priceOf (t : List Product) (id : String) : Int :=
  match selectBy Product.id id t with
  | some p => p.price
  | none => 0

/-- what the lines cost at the prices of the table -/
def priceSum (t : List Product) (items : List LineItem) : Int :=
  (items.map fun i => priceOf t i.product * i.quantity).sum

/-- what the lines of an event cost -/
def amountOf (evs : List OrderCreatedEventItem) : Int :=
  (evs.map fun i => i.unitPrice * i.quantity).sum

theorem priceSum_perm (t : List Product) {xs ys : List LineItem} (h : xs.Perm ys) :
    priceSum t xs = priceSum t ys := (h.map _).sum_eq

/-- the line costs what the table says -/
def Costs (t : List Product) (i : LineItem) (ev : OrderCreatedEventItem) : Prop :=
  ∃ p ∈ t, p.id = i.product ∧ ev.unitPrice = p.price ∧ ev.quantity = i.quantity

theorem Listed.costs {t : List Product} {i : LineItem} {ev : OrderCreatedEventItem}
    (h : Listed t i ev) : Costs t i ev := by
  obtain ⟨p, hp, hid, _, rfl⟩ := h
  exact ⟨p, hp, hid, rfl, rfl⟩

/-- lines that carry the prices of the table cost together what the table says -/
theorem amountOf_costs {t : List Product} (hnd : (t.map Product.id).Nodup)
    {items : List LineItem} {evs : List OrderCreatedEventItem}
    (h : List.Forall₂ (Costs t) items evs) : amountOf evs = priceSum t items := by
  induction h with
  | nil => rfl
  | @cons i ev items evs hl _ ih =>
    obtain ⟨p, hp, hid, hprice, hquantity⟩ := hl
    have hof : priceOf t i.product = p.price := by
      unfold priceOf
      rw [← hid, selectBy_mem hnd hp]
    show List.sum (ev.unitPrice * ev.quantity :: _) =
      List.sum (priceOf t i.product * i.quantity :: _)
    rw [List.sum_cons, List.sum_cons, hof, hprice, hquantity]
    exact congrArg _ ih

theorem amountOf_listed {t : List Product} (hnd : (t.map Product.id).Nodup)
    {items : List LineItem} {evs : List OrderCreatedEventItem}
    (h : List.Forall₂ (Listed t) items evs) : amountOf evs = priceSum t items :=
  amountOf_costs hnd (h.imp fun _ _ hl => hl.costs)

/-! ## `reserveStock` -/

/-- `reserveStock` in a transaction of its own, with the items that it returns -/
def ProductDb.reserveStockResult (db : ProductDb) (items : List LineItem) :
    Except ProductsError (ProductDb × List OrderCreatedEventItem) :=
  match reserveItems db.products items with
  | (_, .error e) => .error e
  | (products, .ok reserved) => .ok ({ db with products := products }, reserved)

theorem reserveStockResult_ok {db : ProductDb} {items : List LineItem} {t : List Product}
    {evs : List OrderCreatedEventItem} (h : reserveItems db.products items = (t, .ok evs)) :
    db.reserveStockResult items = .ok ({ db with products := t }, evs) := by
  unfold ProductDb.reserveStockResult
  rw [h]

theorem reserveStockResult_error {db : ProductDb} {items : List LineItem} {e : ProductsError}
    (h : (reserveItems db.products items).2 = .error e) :
    db.reserveStockResult items = .error e := by
  unfold ProductDb.reserveStockResult
  cases hres : reserveItems db.products items with
  | mk t res =>
    rw [hres] at h
    have h : res = .error e := h
    rw [h]

/-- the tables that the transaction leaves -/
theorem reserveStock_eq (db : ProductDb) (items : List LineItem) :
    db.reserveStock items = (db.reserveStockResult items).map Prod.fst := by
  unfold ProductDb.reserveStock ProductDb.reserveStockResult
  cases reserveItems db.products items with
  | mk t res => cases res <;> rfl

/-- what a reservation that succeeds returns, and leaves behind -/
structure ReservesAll (db db' : ProductDb) (items : List LineItem)
    (evs : List OrderCreatedEventItem) : Prop where
  stock : ∀ id, stockOf db'.products id = stockOf db.products id - quantityOf items id
  nonneg : ∀ p ∈ db'.products, 0 ≤ p.stock
  -- nothing but the stock changes, and nothing at all of a product that is not listed
  rows : db'.products = taken items db.products
  unlisted : ∀ p ∈ db.products, (∀ i ∈ items, i.product ≠ p.id) → p ∈ db'.products
  items : List.Forall₂ (Listed db.products) items evs

/-- **The specification of `reserveStock`**, for every list of positive lines. -/
theorem reserveStock_spec (db : ProductDb) (items : List LineItem)
    (hids : (db.products.map Product.id).Nodup) (hstock : ∀ p ∈ db.products, 0 ≤ p.stock)
    (hpos : ∀ i ∈ items, 0 < i.quantity) :
    ((∃ db' evs, db.reserveStockResult items = .ok (db', evs)) ↔ Reservable db.products items) ∧
    (∀ db' evs, db.reserveStockResult items = .ok (db', evs) → ReservesAll db db' items evs) ∧
    (∀ e, db.reserveStockResult items = .error e → commit db (db.reserveStock items) = db) := by
  obtain ⟨hok, hno⟩ := reserveItems_spec hids hstock hpos
  have hreservable : ∀ db' evs, db.reserveStockResult items = .ok (db', evs) →
      Reservable db.products items := by
    intro db' evs h
    by_contra hr
    obtain ⟨e, he⟩ := hno hr
    rw [reserveStockResult_error he] at h
    cases h
  refine ⟨⟨fun ⟨db', evs, h⟩ => hreservable db' evs h, fun h => ?_⟩, fun db' evs h => ?_,
    fun e he => ?_⟩
  · obtain ⟨evs, hres, _⟩ := hok h
    exact ⟨_, evs, reserveStockResult_ok hres⟩
  · have hr := hreservable db' evs h
    obtain ⟨evs', hres, hlisted⟩ := hok hr
    rw [reserveStockResult_ok hres] at h
    cases h
    refine ⟨(reserveItems_stock hids hres).1, fun q hq => ?_, rfl, fun p hp hun => ?_, hlisted⟩
    · obtain ⟨p, hp, rfl⟩ := mem_taken.mp hq
      exact Int.sub_nonneg.mpr (hr.enough p hp)
    · refine mem_taken.mpr ⟨p, hp, ?_⟩
      rw [quantityOf_unlisted hun, Int.sub_zero]
      rfl
  · rw [reserveStock_eq, he]
    rfl

/-- two pens, an ink, and three more of the pens -/
theorem reserveStock_spec_pens :
    let db : ProductDb := ⟨[.pens, .ink], [], []⟩
    let items : List LineItem :=
      [⟨Product.pens.id, 2⟩, ⟨Product.ink.id, 1⟩, ⟨Product.pens.id, 3⟩]
    let evs : List OrderCreatedEventItem :=
      [⟨Product.pens.id, "Pen", 2, 250⟩, ⟨Product.ink.id, "Ink", 1, 400⟩,
        ⟨Product.pens.id, "Pen", 3, 250⟩]
    ReservesAll db (commit db (db.reserveStock items)) items evs :=
  (reserveStock_spec _ _ (by decide +kernel) (by decide) (by decide)).2.1 _ _ (by decide +kernel)

end Shop
