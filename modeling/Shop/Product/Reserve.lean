import Shop.Product.Service

/-!
# Reservations that fail

`reserveStock` throws in the middle of its loop.  The transaction that it runs in decides what
becomes of the lines before: `reserveStock` of its own rolls them back, the handler of the saga
catches the error and commits them, together with the reply that nothing could be reserved.

* `Unreservable t i`          the product of the line is unknown, inactive or short of stock;
* `reserveItems_le`           the loop takes stock off, and puts none back;
* `failed_reservation_iff`    a refused reservation leaves all stock alone if and only if its first
                              line was refused;
* `failed_reservation_fails`  a second line that is refused leaves the first one reserved.
-/

set_option linter.unusedSectionVars false

namespace Shop
open Lib

/-- no active product covers the line -/
def Unreservable (t : List Product) (i : LineItem) : Prop :=
  ∀ p ∈ t, p.id = i.product → p.isActive = true → p.stock < i.quantity

instance (t : List Product) (i : LineItem) : Decidable (Unreservable t i) :=
  inferInstanceAs (Decidable (∀ p ∈ t, _ → _ → _))

/-- the reply that is recorded under the id of a command -/
def ProductDb.answer (db : ProductDb) (commandId : String) : Option Topic :=
  (findKey commandId db.idempotencyKeys).map StoredResult.replyTopic

section
variable {t t' : List Product} (hnd : (t.map Product.id).Nodup)

include hnd in
/-- an active product is found under every spelling of its id -/
theorem findActive_mem {p : Product} (hp : p ∈ t) {id : String} (hid : p.id = uuidOf id)
    (ha : p.isActive = true) : findActive id t = some p := by
  cases h : findActive id t with
  | none =>
    have hno := List.find?_eq_none.mp h p hp
    rw [ha, decide_eq_true hid] at hno
    exact absurd rfl hno
  | some p' =>
    obtain ⟨hp', hid', _⟩ := findActive_some h
    rw [key_inj hnd hp' hp (hid'.trans hid.symm)]

include hnd in
/-- **A line is refused if and only if no active product covers it.** -/
theorem reserveItem_refused {i : LineItem} :
    (∃ e, reserveItem t i = .error e) ↔ Unreservable t i := by
  unfold reserveItem reserveRow
  cases h : findActive i.productId t with
  | none =>
    refine ⟨fun _ p hp hid ha => ?_, fun _ => ⟨_, rfl⟩⟩
    have hp' := findActive_mem hnd hp hid ha
    rw [h] at hp'
    cases hp'
  | some p =>
    obtain ⟨hp, hid, ha⟩ := findActive_some h
    by_cases hlt : p.stock < i.quantity
    · refine ⟨fun _ p' hp' hid' _ => ?_, fun _ => ⟨_, by simp only [if_pos hlt]; rfl⟩⟩
      rw [key_inj hnd hp' hp (hid'.trans hid.symm)]
      exact hlt
    · constructor
      · rintro ⟨e, he⟩
        simp only [if_neg hlt] at he
        cases he
      · intro hno
        exact absurd (hno p hp hid ha) hlt

include hnd in
/-- **The loop only takes stock off**, whether it throws or not. -/
theorem reserveItems_le {items : List LineItem} (hpos : ∀ i ∈ items, 0 < i.quantity) (id : String) :
    stockOf (reserveItems t items).1 id ≤ stockOf t id := by
  induction items generalizing t with
  | nil => exact Int.le_refl _
  | cons i items ih =>
    unfold reserveItems
    cases h : reserveItem t i with
    | error e => exact Int.le_refl _
    | ok p =>
      obtain ⟨t₁, r⟩ := p
      have hnd₁ : (t₁.map Product.id).Nodup := (reserveItem_ids h).1 ▸ hnd
      have hrest := ih hnd₁ fun j hj => hpos j (List.mem_cons_of_mem _ hj)
      have hstock := reserveItem_stock hnd h id
      have hq := hpos i List.mem_cons_self
      have hline : stockOf t₁ id ≤ stockOf t id := by
        rw [hstock]
        split <;> omega
      dsimp only
      rcases hres : reserveItems t₁ items with ⟨t₂, e | rest⟩
      · rw [hres] at hrest
        exact Int.le_trans hrest hline
      · rw [hres] at hrest
        exact Int.le_trans hrest hline

include hnd in
/-- what the loop leaves behind is what it found, if and only if it stopped at its first line -/
theorem reserveItems_kept_iff {items : List LineItem} (hpos : ∀ i ∈ items, 0 < i.quantity)
    {e : ProductsError} (h : reserveItems t items = (t', .error e)) :
    (∀ id, stockOf t' id = stockOf t id) ↔ ∃ i rest, items = i :: rest ∧ Unreservable t i := by
  cases items with
  | nil => cases h
  | cons i items =>
    unfold reserveItems at h
    cases hi : reserveItem t i with
    | error e' =>
      rw [hi] at h
      cases h
      exact ⟨fun _ => ⟨i, items, rfl, (reserveItem_refused hnd).mp ⟨_, hi⟩⟩, fun _ _ => rfl⟩
    | ok p =>
      obtain ⟨t₁, r⟩ := p
      have hnd₁ : (t₁.map Product.id).Nodup := (reserveItem_ids hi).1 ▸ hnd
      have hle := reserveItems_le hnd₁ (fun j hj => hpos j (List.mem_cons_of_mem _ hj)) i.product
      have hline := reserveItem_stock hnd hi i.product
      rw [if_pos rfl] at hline
      have hq := hpos i List.mem_cons_self
      have ht' : (reserveItems t₁ items).1 = t' := by
        rw [hi] at h
        cases hres : reserveItems t₁ items with
        | mk t₂ res =>
          cases res with
          | error _ => simp only [hres] at h; exact congrArg Prod.fst h
          | ok _ => simp only [hres] at h; cases h
      rw [ht'] at hle
      constructor
      · intro hkept
        have hk := hkept i.product
        omega
      · rintro ⟨j, rest, he, hno⟩
        cases he
        obtain ⟨e', he'⟩ := (reserveItem_refused hnd).mpr hno
        rw [hi] at he'
        cases he'

end

/-! ## the handler of the saga -/

/-- the handler commits what the loop leaves behind, and its reply says how the loop ended -/
theorem handleReserveStock_new (g : RowDefaults) {db : ProductDb} {c : ReserveStockCommand}
    (hnew : findKey c.commandId db.idempotencyKeys = none) :
    (db.handleReserveStock g c).products = (reserveItems db.products c.items).1 ∧
      (db.handleReserveStock g c).answer c.commandId =
        some (ProductDb.reserveReply c (reserveItems db.products c.items).2).replyTopic := by
  unfold ProductDb.handleReserveStock ProductDb.answer
  rw [hnew]
  refine ⟨rfl, ?_⟩
  show Option.map _ (findKey _ (saveKey _ _ _)) = _
  rw [findKey_saveKey]
  rfl

/-- **A refused reservation is all-or-nothing if and only if its first line is the one that is
refused.** -/
theorem failed_reservation_iff (g : RowDefaults) (db : ProductDb) (c : ReserveStockCommand)
    (hids : (db.products.map Product.id).Nodup) (hpos : ∀ i ∈ c.items, 0 < i.quantity)
    (hnew : findKey c.commandId db.idempotencyKeys = none)
    (hfail : (db.handleReserveStock g c).answer c.commandId = some .stockReservationFailed) :
    (∀ id, stockOf (db.handleReserveStock g c).products id = stockOf db.products id) ↔
      ∃ i rest, c.items = i :: rest ∧ Unreservable db.products i := by
  obtain ⟨hproducts, hanswer⟩ := handleReserveStock_new g hnew
  rw [hanswer] at hfail
  rw [hproducts]
  cases hres : reserveItems db.products c.items with
  | mk t' result =>
    cases result with
    | ok items =>
      rw [hres] at hfail
      cases hfail
    | error e => exact reserveItems_kept_iff hids hpos hres

theorem failed_reservation_iff_refused :
    let db : ProductDb := ⟨[.pens], [], []⟩
    let c : ReserveStockCommand :=
      ⟨"command", "order", "corr", [⟨Product.ink.id, 1⟩, ⟨Product.pens.id, 2⟩]⟩
    (∀ id, stockOf (db.handleReserveStock ⟨.sample 'a', 0⟩ c).products id =
        stockOf db.products id) ↔
      ∃ i rest, c.items = i :: rest ∧ Unreservable db.products i :=
  failed_reservation_iff _ _ _ (by decide +kernel) (by decide) (by decide) (by decide +kernel)

/-- **A line that is refused does not undo the lines before it.**  Two pens are taken off, there is
no ink, and the reply is STOCK_RESERVATION_FAILED. -/
theorem failed_reservation_fails : ¬ ∀ (g : RowDefaults) (db : ProductDb)
    (c : ReserveStockCommand), (db.products.map Product.id).Nodup →
    (∀ i ∈ c.items, 0 < i.quantity) → findKey c.commandId db.idempotencyKeys = none →
    (db.handleReserveStock g c).answer c.commandId = some .stockReservationFailed →
      ∀ id, stockOf (db.handleReserveStock g c).products id = stockOf db.products id := by
  intro h
  let db : ProductDb := ⟨[.pens], [], []⟩
  let c : ReserveStockCommand :=
    ⟨"command", "order", "corr", [⟨Product.pens.id, 2⟩, ⟨Product.ink.id, 1⟩]⟩
  have hpen := h ⟨.sample 'a', 0⟩ db c (by decide +kernel) (by decide) (by decide)
    (by decide +kernel) Product.pens.id
  exact absurd hpen (by decide +kernel)

end Shop
