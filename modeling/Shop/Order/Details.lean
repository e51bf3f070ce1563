import Shop.Order.System

/-!
# Names and prices of the order lines

The item rows of an order are written when the order is created, and once more by `onStockReserved`,
which joins the details of the event to the lines of the order by product id.

* `detailed ds r`         the row with the name and the price of the first detail of its product;
* `priceRows ds x rows`   the item rows with those of the order `x` detailed;
* `updateOrder_details`   what `updateOrder` makes of the item rows;
* `updateOrder_ok_iff`    when `updateOrder` commits;
* `handleReply_items`     what a reply that commits makes of the item rows.
-/

set_option linter.unusedSectionVars false

namespace Shop
open Lib

/-- the row with the name and the price of the first detail of its product -/
def detailed (ds : List OrderCreatedEventItem) (r : OrderItemRow) : OrderItemRow :=
  match ds.find? fun d => decide (d.productId = r.productId) with
  | some d => { r with productName := d.name, unitPrice := d.unitPrice }
  | none => r

/-- the rows of the order `x` detailed -/
def priceRows (ds : List OrderCreatedEventItem) (x : String) (rows : List OrderItemRow) :
    List OrderItemRow :=
  rows.map fun r => if r.orderId = x then detailed ds r else r

theorem detailed_core (ds : List OrderCreatedEventItem) (r : OrderItemRow) :
    OrderDb.core (detailed ds r) = OrderDb.core r := by
  unfold detailed
  split <;> rfl

theorem detailed_id (ds : List OrderCreatedEventItem) (r : OrderItemRow) :
    (detailed ds r).id = r.id := congrArg Prod.fst (detailed_core ds r)

/-- a row as a new order writes it -/
def OrderItemRow.Blank (r : OrderItemRow) : Prop := r.productName = "" ∧ r.unitPrice = 0

/-- the row carries the details of one of the entries for its product id, or has kept its own because
there is none -/
def Joined (ds : List OrderCreatedEventItem) (r : OrderItemRow) : Prop :=
  (∃ d ∈ ds, d.productId = r.productId ∧ d.name = r.productName ∧ d.unitPrice = r.unitPrice) ∨
    (∀ d ∈ ds, d.productId ≠ r.productId) ∧ r.Blank

/-- a new row, detailed -/
theorem OrderItemRow.Blank.joined {r : OrderItemRow} (h : r.Blank)
    (ds : List OrderCreatedEventItem) : Joined ds (detailed ds r) := by
  unfold detailed
  cases hf : ds.find? fun d => decide (d.productId = r.productId) with
  | none =>
    refine Or.inr ⟨fun d hd he => ?_, h⟩
    exact List.find?_eq_none.mp hf d hd (decide_eq_true he)
  | some d =>
    have hd : d.productId = r.productId := by simpa using List.find?_some hf
    exact Or.inl ⟨d, List.mem_of_find?_eq_some hf, hd, rfl, rfl⟩

theorem newItemRows_blank (o : String) (us : List Uuid) (now : Nat) (u e : String)
    (items : List LineItem) :
    ∀ r ∈ OrderDb.newItemRows o us (Order.create now u e items).items, r.Blank := by
  induction us generalizing items with
  | nil => exact fun r hr => absurd hr List.not_mem_nil
  | cons x us ih =>
    cases items with
    | nil => exact fun r hr => absurd hr List.not_mem_nil
    | cons i items =>
      intro r hr
      rcases List.mem_cons.mp hr with rfl | hr
      · exact ⟨rfl, rfl⟩
      · exact ih items r hr

theorem priceRows_nil (x : String) (rows : List OrderItemRow) : priceRows [] x rows = rows := by
  unfold priceRows
  conv_rhs => rw [← List.map_id rows]
  exact List.map_congr_left fun r _ => ite_self r

/-- detailing the line of a row is detailing the row -/
theorem withDetail_toItem (ds : List OrderCreatedEventItem) (r : OrderItemRow) :
    Order.withDetail ds (OrderDb.toItem r) = OrderDb.toItem (detailed ds r) := by
  unfold Order.withDetail detailed
  show (match ds.find? fun d => decide (d.productId = r.productId) with
    | some d => _
    | none => _) = _
  cases ds.find? fun d => decide (d.productId = r.productId) <;> rfl

/-! ## the updates of the item rows -/

theorem updateItem_ok {rows rows' : List OrderItemRow} {item : OrderItem} (hne : item.id ≠ "")
    (h : OrderDb.updateItem rows item = .ok rows') :
    rows' = updateBy OrderItemRow.id item.id
      (fun r => { r with productName := item.productName, unitPrice := item.unitPrice }) rows := by
  unfold OrderDb.updateItem at h
  rw [if_neg hne] at h
  split at h
  · cases h
    rfl
  · cases h

/-- the update of the line that a row has become -/
theorem updateItem_row {rows rows' : List OrderItemRow} (hids : (rows.map OrderItemRow.id).Nodup)
    {r : OrderItemRow} (hr : r ∈ rows) (hne : r.id ≠ "") (ds : List OrderCreatedEventItem)
    (h : OrderDb.updateItem rows (OrderDb.toItem (detailed ds r)) = .ok rows') :
    rows' = rows.map fun x => if x.id = r.id then detailed ds x else x := by
  have hid : (OrderDb.toItem (detailed ds r)).id = r.id := detailed_id ds r
  rw [updateItem_ok (by rw [hid]; exact hne) h, hid]
  unfold updateBy
  apply List.map_congr_left
  intro x hx
  by_cases he : x.id = r.id
  · rw [if_pos he, if_pos he, key_inj hids hx hr he]
    unfold detailed
    split <;> rfl
  · rw [if_neg he, if_neg he]

/-- **The lines of some rows, detailed and written back**: these rows are detailed, in any order,
and no other. -/
theorem updateItems_rows (ds : List OrderCreatedEventItem) {src rows rows' : List OrderItemRow}
    (hids : (rows.map OrderItemRow.id).Nodup) (hsrc : (src.map OrderItemRow.id).Nodup)
    (hmem : ∀ r ∈ src, r ∈ rows) (hne : ∀ r ∈ src, r.id ≠ "")
    (h : OrderDb.updateItems rows (src.map fun r => OrderDb.toItem (detailed ds r)) = .ok rows') :
    rows' = rows.map fun x => if x.id ∈ src.map OrderItemRow.id then detailed ds x else x := by
  induction src generalizing rows with
  | nil =>
    have he : rows = rows' := Except.ok.inj h
    rw [← he]
    conv_lhs => rw [← List.map_id rows]
    exact List.map_congr_left fun x _ => (if_neg List.not_mem_nil).symm
  | cons r src ih =>
    rw [List.map_cons, List.nodup_cons] at hsrc
    rw [List.map_cons] at h
    unfold OrderDb.updateItems at h
    cases h1 : OrderDb.updateItem rows (OrderDb.toItem (detailed ds r)) with
    | error e => rw [h1] at h; cases h
    | ok mid =>
      rw [h1] at h
      have hr := hmem r List.mem_cons_self
      have hmid := updateItem_row hids hr (hne r List.mem_cons_self) ds h1
      have hmidIds : mid.map OrderItemRow.id = rows.map OrderItemRow.id := by
        rw [hmid, List.map_map]
        apply List.map_congr_left
        intro x _
        show OrderItemRow.id (if x.id = r.id then detailed ds x else x) = x.id
        split
        · exact detailed_id ds x
        · rfl
      have hkept : ∀ x ∈ src, x ∈ mid := by
        intro x hx
        rw [hmid]
        have hxr : x.id ≠ r.id := fun he => hsrc.1 (he ▸ List.mem_map_of_mem hx)
        exact List.mem_map.mpr ⟨x, hmem x (List.mem_cons_of_mem _ hx), if_neg hxr⟩
      rw [ih (hmidIds ▸ hids) hsrc.2 hkept (fun x hx => hne x (List.mem_cons_of_mem _ hx)) h, hmid,
        List.map_map]
      apply List.map_congr_left
      intro x _
      rw [Function.comp_apply]
      by_cases he : x.id = r.id
      · have hout : (detailed ds x).id ∉ src.map OrderItemRow.id := by
          rw [detailed_id, he]
          exact hsrc.1
        have hin : x.id ∈ (r :: src).map OrderItemRow.id := he ▸ List.mem_cons_self
        rw [if_pos he, if_neg hout, if_pos hin]
      · have hiff : x.id ∈ (r :: src).map OrderItemRow.id ↔ x.id ∈ src.map OrderItemRow.id :=
          List.mem_cons.trans (or_iff_right he)
        rw [if_neg he]
        simp only [hiff]

/-- the order `o` as `updateOrder` is given it: read from the tables, with another status and total,
and its lines detailed -/
def detailedOrder (q : RowOrder OrderItemRow) (db : OrderDb) (o : OrderRow) (st : OrderStatus)
    (total : Int) (ds : List OrderCreatedEventItem) : Order :=
  { db.toDomain q o with
    status := st
    total := total
    items := (db.toDomain q o).items.map (Order.withDetail ds) }

theorem detailedOrder_items (q : RowOrder OrderItemRow) (db : OrderDb) (o : OrderRow)
    (st : OrderStatus) (total : Int) (ds : List OrderCreatedEventItem) :
    (detailedOrder q db o st total ds).items =
      (q.apply (db.orderItems.filter fun i => decide (i.orderId = o.id))).map fun r =>
        OrderDb.toItem (detailed ds r) := by
  show List.map _ (List.map _ _) = _
  rw [List.map_map]
  exact List.map_congr_left fun r _ => withDetail_toItem ds r

/-- **What `updateOrder` makes of the item rows**: those of its order are detailed. -/
theorem updateOrder_details {db db' : OrderDb} (hids : (db.orderItems.map OrderItemRow.id).Nodup)
    (hne : ∀ r ∈ db.orderItems, r.id ≠ "") (q : RowOrder OrderItemRow) (o : OrderRow)
    (st : OrderStatus) (total : Int) (ds : List OrderCreatedEventItem)
    (h : db.updateOrder (detailedOrder q db o st total ds) = .ok db') :
    db'.orderItems = priceRows ds o.id db.orderItems := by
  unfold OrderDb.updateOrder at h
  split at h
  · cases hu : OrderDb.updateItems db.orderItems (detailedOrder q db o st total ds).items with
    | error e => rw [hu] at h; cases h
    | ok rows =>
      rw [hu] at h
      cases h
      rw [detailedOrder_items] at hu
      have hperm := q.perm (db.orderItems.filter fun i => decide (i.orderId = o.id))
      have hsub : ∀ r ∈ q.apply (db.orderItems.filter fun i => decide (i.orderId = o.id)),
          r ∈ db.orderItems ∧ r.orderId = o.id := by
        intro r hr
        obtain ⟨hm, ho⟩ := List.mem_filter.mp (hperm.mem_iff.mp hr)
        exact ⟨hm, of_decide_eq_true ho⟩
      have hnd : ((q.apply (db.orderItems.filter fun i => decide (i.orderId = o.id))).map
          OrderItemRow.id).Nodup :=
        ((hperm.map _).nodup_iff).mpr (hids.sublist (List.filter_sublist.map _))
      show rows = _
      rw [updateItems_rows ds hids hnd (fun r hr => (hsub r hr).1)
        (fun r hr => hne r (hsub r hr).1) hu]
      apply List.map_congr_left
      intro x hx
      by_cases hxo : x.orderId = o.id
      · have hin : x ∈ q.apply (db.orderItems.filter fun i => decide (i.orderId = o.id)) :=
          hperm.mem_iff.mpr (List.mem_filter.mpr ⟨hx, decide_eq_true hxo⟩)
        rw [if_pos hxo, if_pos (List.mem_map_of_mem hin)]
      · rw [if_neg hxo, if_neg]
        intro hin
        obtain ⟨r, hr, he⟩ := List.mem_map.mp hin
        obtain ⟨hm, ho⟩ := hsub r hr
        exact hxo (key_inj hids hx hm he.symm ▸ ho)
  · cases h

/-- the loop over the lines stops at a price that its column does not take -/
theorem updateItems_ok_iff (items : List OrderItem) (rows : List OrderItemRow) :
    (∃ rows', OrderDb.updateItems rows items = .ok rows') ↔
      ∀ i ∈ items, i.id ≠ "" → fitsDecimal 10 i.unitPrice = true := by
  induction items generalizing rows with
  | nil => exact ⟨fun _ i hi => absurd hi List.not_mem_nil, fun _ => ⟨rows, rfl⟩⟩
  | cons i items ih =>
    unfold OrderDb.updateItems OrderDb.updateItem
    rw [List.forall_mem_cons]
    by_cases hne : i.id = ""
    · rw [if_pos hne]
      exact (ih rows).trans ⟨fun h => ⟨fun hi => absurd hne hi, h⟩, fun h => h.2⟩
    · rw [if_neg hne]
      by_cases hfit : fitsDecimal 10 i.unitPrice = true
      · rw [if_pos hfit]
        exact (ih _).trans ⟨fun h => ⟨fun _ => hfit, h⟩, fun h => h.2⟩
      · rw [if_neg hfit]
        constructor
        · rintro ⟨_, h⟩
          cases h
        · exact fun h => absurd (h.1 hne) hfit

/-- **An update of an order commits if and only if its total and the prices of its lines fit their
columns.** -/
theorem updateOrder_ok_iff {db : OrderDb} {order : Order} :
    (∃ db', db.updateOrder order = .ok db') ↔ fitsDecimal 10 order.total = true ∧
      ∀ i ∈ order.items, i.id ≠ "" → fitsDecimal 10 i.unitPrice = true := by
  unfold OrderDb.updateOrder
  rw [← updateItems_ok_iff order.items db.orderItems]
  by_cases hfit : fitsDecimal 10 order.total = true
  · rw [if_pos hfit]
    cases OrderDb.updateItems db.orderItems order.items with
    | error e =>
      exact ⟨fun ⟨_, h⟩ => (by cases h), fun ⟨_, _, h⟩ => (by cases h)⟩
    | ok rows => exact ⟨fun _ => ⟨hfit, rows, rfl⟩, fun _ => ⟨_, rfl⟩⟩
  · rw [if_neg hfit]
    exact ⟨fun ⟨_, h⟩ => (by cases h), fun h => absurd h.1 hfit⟩

/-- an update of an order leaves the sagas alone -/
theorem updateOrder_sagas {db db' : OrderDb} {order : Order} (h : db.updateOrder order = .ok db') :
    db'.sagas = db.sagas := by
  unfold OrderDb.updateOrder at h
  split at h
  · cases hu : OrderDb.updateItems db.orderItems order.items with
    | error e => rw [hu] at h; cases h
    | ok rows =>
      rw [hu] at h
      cases h
      rfl
  · cases h

/-! ## the item rows after a transaction -/

theorem detailedOrder_nil (q : RowOrder OrderItemRow) (db : OrderDb) (o : OrderRow)
    (st : OrderStatus) :
    detailedOrder q db o st o.total [] = { db.toDomain q o with status := st } := by
  have hid : Order.withDetail [] = id := rfl
  unfold detailedOrder
  rw [hid, List.map_id]
  rfl

/-- the item rows after a reply that commits -/
def itemsAfter (db : OrderDb) : ReplyEvent → List OrderItemRow
  | .stockReserved e =>
    match db.loadSagaForStep e.orderId .reserveStock with
    | some _ => priceRows e.items e.orderId db.orderItems
    | none => db.orderItems
  | _ => db.orderItems

section
variable {db db' : OrderDb} (h : WF db) (hne : ∀ r ∈ db.orderItems, r.id ≠ "")
  (g : RowDefaults) (q : RowOrder OrderItemRow)

include h hne in
/-- a cancellation writes the item rows back as they are -/
theorem performCancellation_items {s : Saga} {o : OrderRow} (ho : o ∈ db.orders)
    (hos : o.id = s.orderId) (hopen : o.status = .pending ∨ o.status = .confirmed) {reason : String}
    (he : db.performCancellation g q s s.orderId reason = .ok db') :
    db'.orderItems = db.orderItems := by
  unfold OrderDb.performCancellation at he
  rw [← hos, h.getOrder q ho, bind_ok, Order.compensate_open hopen, bind_ok] at he
  have hnil : ({ db.toDomain q o with status := .cancelled } : Order) =
      detailedOrder q db o .cancelled o.total [] := (detailedOrder_nil q db o .cancelled).symm
  rw [hnil] at he
  obtain ⟨mid, hu, he⟩ := bind_eq_ok he
  cases he
  show mid.orderItems = db.orderItems
  rw [updateOrder_details h.itemIds hne q o .cancelled o.total [] hu, priceRows_nil]

/-- the saga that goes on to the payment -/
def Saga.paying (now : Nat) (s : Saga) : Saga :=
  { s with
    currentStep := .processPayment
    status := .running
    nextRetryAt := some (now + Saga.RETRY_TIMEOUT_MS) }

/-- what is left to do once the order has been updated: the saga, and the payment command -/
def OrderDb.startPayment (g : RowDefaults) (s : Saga) (o : OrderRow) (e : StockReservedEvent)
    (db : OrderDb) : OrderDb :=
  (db.updateSaga (s.paying g.now)).write g e.orderId .processPayment e.orderId
    (.processPayment ⟨payId s.id, e.orderId, s.correlationId, o.userId, e.total⟩)

/-- `onStockReserved`, for a saga that waits for it -/
theorem onStockReserved_waiting {e : StockReservedEvent} {s : Saga}
    (hl : db.loadSagaForStep e.orderId .reserveStock = some s) (hwf : WF db) :
    ∃ o ∈ db.orders, o.id = e.orderId ∧
      db.onStockReserved g q e =
        (db.updateOrder (detailedOrder q db o .confirmed e.total e.items) >>= fun mid =>
          .ok (mid.startPayment g s o e)) := by
  obtain ⟨hs, hso, hstep, o, ho, hos, hp⟩ := hwf.loaded hl
  rw [Phase, hstep] at hp
  refine ⟨o, ho, hos.trans hso, ?_⟩
  unfold OrderDb.onStockReserved
  rw [hl]
  show (db.getOrder q e.orderId >>= _) = _
  rw [← hso, ← hos, hwf.getOrder q ho, bind_ok,
    Order.confirm_pending (o := db.toDomain q o) hp.2.2, bind_ok, hos, hso]
  show (db.updateOrder (detailedOrder q db o .confirmed e.total e.items) >>= _) = _
  cases db.updateOrder (detailedOrder q db o .confirmed e.total e.items) with
  | error err => rfl
  | ok mid =>
    rw [bind_ok, bind_ok, Saga.advance_reserveStock g.now hstep, bind_ok]
    rfl

/-- a reservation that commits has updated its order -/
theorem onStockReserved_ok {e : StockReservedEvent} {s : Saga}
    (hl : db.loadSagaForStep e.orderId .reserveStock = some s) (hwf : WF db)
    (hok : db.onStockReserved g q e = .ok db') :
    ∃ o ∈ db.orders, o.id = e.orderId ∧
      ∃ mid, db.updateOrder (detailedOrder q db o .confirmed e.total e.items) = .ok mid ∧
        db' = mid.startPayment g s o e := by
  obtain ⟨o, ho, hoe, heq⟩ := onStockReserved_waiting g q hl hwf
  rw [heq] at hok
  obtain ⟨mid, hu, hmid⟩ := bind_eq_ok hok
  exact ⟨o, ho, hoe, mid, hu, (Except.ok.inj hmid).symm⟩

include h hne in
/-- a reservation details the item rows of its order, if the saga waits for it -/
theorem onStockReserved_items {e : StockReservedEvent} (he : db.onStockReserved g q e = .ok db') :
    db'.orderItems = itemsAfter db (.stockReserved e) := by
  cases hl : db.loadSagaForStep e.orderId .reserveStock with
  | none =>
    unfold OrderDb.onStockReserved at he
    rw [hl] at he
    cases he
    simp only [itemsAfter, hl]
  | some s =>
    obtain ⟨o, _, hoe, mid, hu, rfl⟩ := onStockReserved_ok g q hl h he
    simp only [itemsAfter, hl]
    show mid.orderItems = priceRows e.items e.orderId db.orderItems
    rw [updateOrder_details h.itemIds hne q o .confirmed e.total e.items hu, hoe]

include h hne in
/-- **What a reply that commits makes of the item rows**: STOCK_RESERVED details those of its order,
if the saga waits for it, and all other replies leave them alone. -/
theorem handleReply_items {ev : ReplyEvent} (he : db.handleReply g q ev = .ok db') :
    db'.orderItems = itemsAfter db ev := by
  cases ev with
  | stockReserved e => exact onStockReserved_items h hne g q he
  | stockReservationFailed e =>
    change db.onStockReservationFailed g q e = .ok db' at he
    unfold OrderDb.onStockReservationFailed at he
    cases hl : db.loadSagaForStep e.orderId .reserveStock with
    | none =>
      rw [hl] at he
      cases he
      rfl
    | some s =>
      obtain ⟨hs, hso, hstep, o, ho, hos, hp⟩ := h.loaded hl
      rw [Phase, hstep] at hp
      rw [hl, ← hso] at he
      exact performCancellation_items h hne g q ho hos (Or.inl hp.2.2) he
  | paymentProcessed e =>
    change db.onPaymentProcessed g q e = .ok db' at he
    unfold OrderDb.onPaymentProcessed at he
    cases hl : db.loadSagaForStep e.orderId .processPayment with
    | none =>
      rw [hl] at he
      cases he
      rfl
    | some s =>
      obtain ⟨hs, hso, hstep, o, ho, hos, _⟩ := h.loaded hl
      rw [hl] at he
      dsimp only at he
      rw [Saga.advance_processPayment g.now hstep, bind_ok] at he
      rw [h.getOrder_updateSaga q ho (hos.trans hso), bind_ok] at he
      cases he
      rfl
  | paymentFailed e =>
    change db.onPaymentFailed g q e = .ok db' at he
    unfold OrderDb.onPaymentFailed at he
    cases hl : db.loadSagaForStep e.orderId .processPayment with
    | none =>
      rw [hl] at he
      cases he
      rfl
    | some s =>
      obtain ⟨hs, hso, hstep, o, ho, hos, _⟩ := h.loaded hl
      rw [hl] at he
      dsimp only at he
      rw [h.getOrder_updateSaga q ho (hos.trans hso), bind_ok] at he
      cases he
      rfl
  | stockReleased e =>
    change db.onStockReleased g q e = .ok db' at he
    unfold OrderDb.onStockReleased at he
    cases hl : db.loadSagaForStep e.orderId .releaseStock with
    | none =>
      rw [hl] at he
      cases he
      rfl
    | some s =>
      obtain ⟨hs, hso, hstep, o, ho, hos, hp⟩ := h.loaded hl
      rw [Phase, hstep] at hp
      rw [hl, ← hso] at he
      exact performCancellation_items h hne g q ho hos (Or.inr hp.2.2) he

theorem resendCommand_items (s : Saga) (o : Order) :
    (db.resendCommand g s o).orderItems = db.orderItems := by
  unfold OrderDb.resendCommand
  split <;> rfl

/-- a retry does not touch the item rows -/
theorem retrySaga_items {id : String} (he : db.retrySaga g q id = .ok db') :
    db'.orderItems = db.orderItems := by
  unfold OrderDb.retrySaga at he
  split at he
  · cases he
    rfl
  · rename_i s _
    split at he
    · cases he
      rfl
    · dsimp only at he
      obtain ⟨o, _, he⟩ := bind_eq_ok he
      cases he
      exact resendCommand_items g s o

end

/-! ## one action of order-service -/

/-- the item rows after an action that is no new order -/
def ItemsStep (db db' : OrderDb) : OrderAction → Prop
  | .create _ _ _ => True
  | .reply _ _ ev => db' = db ∨ db'.orderItems = itemsAfter db ev
  | _ => db'.orderItems = db.orderItems

theorem step_items {w : OrderSystem} (h : WF w.db) (hne : ∀ r ∈ w.db.orderItems, r.id ≠ "")
    (a : OrderAction) : ItemsStep w.db (w.step a).db a := by
  cases a with
  | wait ms => exact rfl
  | create u ids input => exact trivial
  | reply u q ev =>
    show commit w.db (w.db.handleReply ⟨u, w.clock⟩ q ev) = w.db ∨
      (commit w.db (w.db.handleReply ⟨u, w.clock⟩ q ev)).orderItems = _
    cases he : w.db.handleReply ⟨u, w.clock⟩ q ev with
    | error e => exact Or.inl rfl
    | ok db' => exact Or.inr (handleReply_items h hne ⟨u, w.clock⟩ q he)
  | findStuck q => exact rfl
  | retry k u q =>
    show (w.step (.retry k u q)).db.orderItems = _
    simp only [OrderSystem.step]
    split
    · rename_i saga _ _
      show (commit w.db (w.db.retrySaga ⟨u, w.clock⟩ q saga.id)).orderItems = _
      cases he : w.db.retrySaga ⟨u, w.clock⟩ q saga.id with
      | error e => rfl
      | ok db' => exact retrySaga_items ⟨u, w.clock⟩ q he
    · rfl
  | skipLocked k =>
    show (w.step (.skipLocked k)).db.orderItems = _
    simp only [OrderSystem.step]
    split <;> rfl

theorem newItemRows_ids_ne (o : String) (us : List Uuid) (items : List OrderItem) :
    ∀ r ∈ OrderDb.newItemRows o us items, r.id ≠ "" := by
  induction us generalizing items with
  | nil => exact fun r hr => absurd hr List.not_mem_nil
  | cons u us ih =>
    cases items with
    | nil => exact fun r hr => absurd hr List.not_mem_nil
    | cons i items =>
      intro r hr
      rcases List.mem_cons.mp hr with rfl | hr
      · intro he
        have hlen := u.len
        rw [show u.val = "" from he] at hlen
        exact absurd hlen (by decide)
      · exact ih items r hr

/-- the ids of item rows are generated -/
theorem DbStep.itemIds {db db' : OrderDb} (hs : DbStep db db')
    (hne : ∀ r ∈ db.orderItems, r.id ≠ "") : ∀ r ∈ db'.orderItems, r.id ≠ "" := by
  have hcore : db'.orderItems.map OrderDb.core = db.orderItems.map OrderDb.core →
      ∀ r ∈ db'.orderItems, r.id ≠ "" := by
    intro hc r hr
    have hm : OrderDb.core r ∈ db.orderItems.map OrderDb.core := hc ▸ List.mem_map_of_mem hr
    obtain ⟨r₀, hr₀, he⟩ := List.mem_map.mp hm
    have hid : r₀.id = r.id := congrArg Prod.fst he
    exact hid ▸ hne r₀ hr₀
  cases hs with
  | same => exact hne
  | created g ids input hf =>
    intro r hr
    rcases List.mem_append.mp hr with hr | hr
    · exact hne r hr
    · exact newItemRows_ids_ne _ _ _ r hr
  | replied g q ev ho hf m => exact hcore m.core
  | retried g q hr ht m => exact hcore m.core

/-! ## the lines of an order -/

def OrderDb.lineOf (r : OrderItemRow) : OrderCreatedEventItem :=
  ⟨r.productId, r.productName, r.quantity, r.unitPrice⟩

/-- the lines of an order with their details, as its item rows hold them -/
def OrderDb.detailsOf (db : OrderDb) (x : String) : List OrderCreatedEventItem :=
  (db.orderItems.filter fun r => decide (r.orderId = x)).map OrderDb.lineOf

/-- reading the order brings them, in some order -/
theorem toDomain_details (q : RowOrder OrderItemRow) (db : OrderDb) (o : OrderRow) :
    ((db.toDomain q o).items.map fun i =>
      (⟨i.productId, i.productName, i.quantity, i.unitPrice⟩ : OrderCreatedEventItem)).Perm
      (db.detailsOf o.id) := by
  show ((List.map OrderDb.toItem _).map _).Perm _
  rw [List.map_map]
  exact (q.perm _).map _

/-- the rows of another order than the one that is detailed -/
theorem filter_priceRows {x y : String} (h : x ≠ y) (ds : List OrderCreatedEventItem)
    (rows : List OrderItemRow) :
    ((priceRows ds y rows).filter fun r => decide (r.orderId = x)) =
      rows.filter fun r => decide (r.orderId = x) := by
  unfold priceRows
  induction rows with
  | nil => rfl
  | cons r rows ih =>
    rw [List.map_cons]
    by_cases hr : r.orderId = y
    · have hx : r.orderId ≠ x := fun e => h (e.symm.trans hr)
      have ho : (detailed ds r).orderId = r.orderId :=
        congrArg (fun c => c.2.1) (detailed_core ds r)
      rw [if_pos hr, List.filter_cons_of_neg (by simpa [ho] using hx),
        List.filter_cons_of_neg (by simpa using hx), ih]
    · rw [if_neg hr]
      by_cases hx : r.orderId = x
      · rw [List.filter_cons_of_pos (by simpa using hx),
          List.filter_cons_of_pos (by simpa using hx), ih]
      · rw [List.filter_cons_of_neg (by simpa using hx),
          List.filter_cons_of_neg (by simpa using hx), ih]

end Shop
