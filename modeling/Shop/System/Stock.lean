import Shop.System.Compensation
import Shop.System.Totals
import Shop.Product.Specification

/-!
# Where the stock is

The transactions of product-service are serial here, as those of the whole `World` are.

* `supplies w a`         the units that a creation or an edit of a product brings;
* `takes w a`            the units that `POST /products/reserve` takes;
* `heldUnits w s p`      the units of a product that the saga's order holds: reserved, not released;
* `lostUnits w xs s p`   the units that a refused reservation of the saga has taken all the same;
* `stock_conserved`      in every reachable state what is on stock, held, lost and taken is what was
                         supplied;
* `Admitted a`           the quantities that validation lets through;
* `never_oversold`       the orders of completed sagas never take more than was supplied;
* `stocks_fit`           without edits of the stock, every stock fits its column.

The deliveries of the stock commands are summed order by order: an order has at most one reservation
and one release that were executed (`Joint.reserved_once`, `Joint.released_once`).
-/

set_option linter.unusedSectionVars false

namespace Shop
open Lib

/-! ## supply and demand -/

/-- the units of one product -/
def unitsOf (id : String) (n : Int) (p : String) : Int := if id = p then n else 0

/-- the units that an action brings: the stock that a product is created with, and what an edit sets
the stock to beyond what it was -/
def supplies (w : World) : Action → List (String → Int)
  | .createProduct id input =>
    if id.val ∈ w.products.products.map Product.id ∨ input.storable = false then []
    else [unitsOf id.val input.stock]
  | .updateProduct id input =>
    match findActive id w.products.products, input.stock.join with
    | some product, some stock =>
      if input.storable then [unitsOf product.id (stock - product.stock)] else []
    | _, _ => []
  | _ => []

/-- the units that `POST /products/reserve` takes -/
def takes (w : World) : Action → List (String → Int)
  | .reserveProducts items =>
    match w.products.reserveStock items with
    | .ok _ => [quantityOf items]
    | .error _ => []
  | _ => []

/-- what a list of changes comes to -/
def totalOf (ds : List (String → Int)) (p : String) : Int := (ds.map fun d => d p).sum

/-- the units that the saga's order holds -/
def heldUnits (w : World) (s : Saga) (p : String) : Int :=
  if Recorded w.products.idempotencyKeys s.id .stockReserved ∧
      ¬ Recorded w.products.idempotencyKeys (releaseId s.id) .stockReleased then
    quantityOf (w.orders.db.linesOf s.orderId) p
  else 0

/-- the units that the saga's reservation has taken, although it was refused -/
def lostUnits (w : World) (xs : List Execution) (s : Saga) (p : String) : Int :=
  if Recorded w.products.idempotencyKeys s.id .stockReservationFailed then
    -((executedFor .reserveStock s.orderId xs).map fun x => x.delta p).sum
  else 0

/-- the sum over all sagas -/
def overSagas (w : World) (f : Saga → Int) : Int := (w.orders.db.sagas.map f).sum

/-- the units in the orders whose saga is COMPLETED -/
def soldUnits (w : World) (p : String) : Int :=
  overSagas w fun s =>
    if s.status = .completed then quantityOf (w.orders.db.linesOf s.orderId) p else 0

/-! ## one action -/

theorem totalOf_append (ds es : List (String → Int)) (p : String) :
    totalOf (ds ++ es) p = totalOf ds p + totalOf es p := by
  unfold totalOf
  rw [List.map_append, List.sum_append]

theorem totalOf_single (d : String → Int) (p : String) : totalOf [d] p = d p := by
  show ([d p] : List Int).sum = d p
  rw [List.sum_singleton]

/-- what the stock commands in a list of executions have done -/
def movedBy (xs : List Execution) (p : String) : Int :=
  ((stockExecutions xs).map fun x => x.delta p).sum

theorem movedBy_append (xs ys : List Execution) (p : String) :
    movedBy (xs ++ ys) p = movedBy xs p + movedBy ys p := by
  unfold movedBy stockExecutions
  rw [List.filter_append, List.map_append, List.sum_append]

/-- the delivery of a message that is no stock command leaves the stock alone -/
theorem executionOf_moved (w : World) (ids : DeliveryIds) {m : Message} {v : World}
    (hv : Handled v ids m w) (u : World) (hu : u.products = v.products) (p : String) :
    stockOf w.products.products p =
      stockOf u.products.products p + movedBy (executionOf u w m) p := by
  have hquiet : ∀ xs, movedBy xs p = 0 → w.products = u.products →
      stockOf w.products.products p = stockOf u.products.products p + movedBy xs p := by
    intro xs hxs he
    rw [hxs, he, Int.add_zero]
  cases hv with
  | reserveStock c =>
    show _ = _ + ([stockDelta u _ p] : List Int).sum
    rw [List.sum_singleton]
    unfold stockDelta
    omega
  | releaseStock c =>
    show _ = _ + ([stockDelta u _ p] : List Int).sum
    rw [List.sum_singleton]
    unfold stockDelta
    omega
  | processPayment c => exact hquiet _ rfl hu.symm
  | reply _ ev hev => exact hquiet _ (by rw [reply_executionOf hev]; rfl) hu.symm
  | ignored _ _ hno => exact hquiet _ (by rw [hno]; rfl) hu.symm

/-- a product that is new to the table -/
theorem stockOf_concat {t : List Product} {r : Product} (hr : r.id ∉ t.map Product.id)
    (p : String) : stockOf (t ++ [r]) p = stockOf t p + unitsOf r.id r.stock p := by
  have hnone : selectBy Product.id r.id t = none :=
    selectBy_none.mpr fun q hq he => hr (he ▸ List.mem_map_of_mem hq)
  unfold stockOf unitsOf
  by_cases he : r.id = p
  · subst he
    have hfind : selectBy Product.id r.id (t ++ [r]) = some r := by
      unfold selectBy at hnone ⊢
      rw [List.find?_append, hnone]
      simp
    rw [hfind, hnone, if_pos rfl]
    exact (Int.zero_add _).symm
  · have hfind : selectBy Product.id p (t ++ [r]) = selectBy Product.id p t := by
      unfold selectBy
      rw [List.find?_append]
      simp [he]
    rw [hfind, if_neg he, Int.add_zero]

section
variable {db : ProductDb} (hnd : (db.products.map Product.id).Nodup)

theorem create_stock (w : World) (id : Uuid) (input : ProductDb.CreateProductInput) (p : String) :
    stockOf (w.step (.createProduct id input)).products.products p =
      stockOf w.products.products p + totalOf (supplies w (.createProduct id input)) p := by
  show stockOf (commit w.products (w.products.create _ input)).products p = _
  unfold ProductDb.create
  by_cases hno : id.val ∈ w.products.products.map Product.id ∨ input.storable = false
  · simp only [supplies, if_pos hno]
    exact (Int.add_zero _).symm
  · simp only [supplies, if_neg hno]
    rw [totalOf_single]
    exact stockOf_concat (fun h => hno (Or.inl h)) p

include hnd in
/-- a row that is replaced by one with the same id -/
theorem stockOf_update {product : Product} (hp : product ∈ db.products) (f : Product → Product)
    (hf : ∀ q, (f q).id = q.id) (p : String) :
    stockOf (updateBy Product.id product.id (fun _ => f product) db.products) p =
      stockOf db.products p + unitsOf product.id ((f product).stock - product.stock) p := by
  have hcongr : updateBy Product.id product.id (fun _ => f product) db.products =
      updateBy Product.id product.id f db.products :=
    updateBy_congr fun q hq he => by rw [key_inj hnd hq hp he]
  rw [hcongr]
  unfold stockOf unitsOf
  by_cases he : product.id = p
  · subst he
    rw [selectBy_updateBy_self hf, selectBy_mem hnd hp, if_pos rfl]
    show (f product).stock = product.stock + ((f product).stock - product.stock)
    omega
  · rw [selectBy_updateBy_ne hf (fun e => he e.symm), if_neg he, Int.add_zero]

end

section
variable {w : World} (hnd : (w.products.products.map Product.id).Nodup)
include hnd

theorem update_stock (id : String) (input : ProductDb.UpdateProductInput) (p : String) :
    stockOf (w.step (.updateProduct id input)).products.products p =
      stockOf w.products.products p + totalOf (supplies w (.updateProduct id input)) p := by
  show stockOf (commit w.products (w.products.update id input)).products p = _
  unfold ProductDb.update
  cases hf : findActive id w.products.products with
  | none =>
    simp only [supplies, hf]
    exact (Int.add_zero _).symm
  | some product =>
    have hmem := (findActive_some hf).1
    by_cases hstore : input.storable = true
    · simp only [supplies, hf, if_pos hstore]
      show stockOf (updateBy _ _ (fun _ => ProductDb.assign input product) _) p = _
      rw [stockOf_update hnd hmem (ProductDb.assign input) fun _ => rfl]
      show _ + unitsOf product.id (input.stock.join.getD product.stock - product.stock) p = _
      cases input.stock.join with
      | none =>
        show _ + unitsOf product.id (product.stock - product.stock) p = _ + (0 : Int)
        unfold unitsOf
        rw [Int.sub_self, ite_self]
      | some stock => exact congrArg _ (totalOf_single _ p).symm
    · simp only [supplies, hf, if_neg hstore]
      cases input.stock.join <;> exact (Int.add_zero _).symm

theorem remove_stock (id : String) (p : String) :
    stockOf (w.step (.removeProduct id)).products.products p = stockOf w.products.products p := by
  show stockOf (commit w.products (w.products.remove id)).products p = _
  unfold ProductDb.remove
  cases hf : findActive id w.products.products with
  | none => rfl
  | some product =>
    have hmem := (findActive_some hf).1
    have hconst : updateBy Product.id product.id Product.deactivate w.products.products =
        updateBy Product.id product.id (fun _ => product.deactivate) w.products.products :=
      updateBy_congr fun q hq he => by rw [key_inj hnd hq hmem he]
    show stockOf (updateBy _ _ _ _) p = _
    rw [hconst, stockOf_update hnd hmem Product.deactivate fun _ => rfl]
    show _ + unitsOf product.id (product.stock - product.stock) p = _
    unfold unitsOf
    rw [Int.sub_self, ite_self, Int.add_zero]

theorem reserve_stock (items : List LineItem) (p : String) :
    stockOf (w.step (.reserveProducts items)).products.products p + totalOf (takes w
      (.reserveProducts items)) p = stockOf w.products.products p := by
  show stockOf (commit w.products (w.products.reserveStock items)).products p + _ = _
  cases hr : reserveItems w.products.products items with
  | mk t res =>
    cases res with
    | error e =>
      have hres : w.products.reserveStock items = .error e := by
        unfold ProductDb.reserveStock
        rw [hr]
      simp only [takes, hres]
      exact Int.add_zero _
    | ok evs =>
      have hres : w.products.reserveStock items = .ok { w.products with products := t } := by
        unfold ProductDb.reserveStock
        rw [hr]
      simp only [takes, hres]
      show stockOf t p + totalOf [quantityOf items] p = _
      rw [totalOf_single, (reserveItems_stock hnd hr).1 p]
      omega

/-- the stock changes by what is supplied and taken, and by what the stock commands do -/
theorem stock_step (a : Action) (p : String) :
    stockOf (w.step a).products.products p + totalOf (takes w a) p =
      stockOf w.products.products p + totalOf (supplies w a) p + movedBy (executions w a) p := by
  have hkept : ∀ {t : List Product}, t = w.products.products → stockOf t p + totalOf [] p =
      stockOf w.products.products p + totalOf [] p + movedBy [] p := by
    rintro t rfl
    exact (Int.add_zero _).symm
  cases a with
  | deliver index again ids =>
    cases hm : w.inflight[index]? with
    | none =>
      simp only [World.step, executions, hm]
      exact hkept rfl
    | some m =>
      simp only [executions, hm]
      obtain ⟨v, hv, hstep⟩ := deliver_handle hm again ids
      rw [hstep]
      show _ + (0 : Int) = _ + (0 : Int) + _
      rw [Int.add_zero, Int.add_zero]
      exact executionOf_moved _ ids (handled v ids m) w hv.symm p
  | createProduct id input =>
    show _ + (0 : Int) = _ + (0 : Int)
    rw [Int.add_zero, Int.add_zero, create_stock]
  | updateProduct id input =>
    show _ + (0 : Int) = _ + (0 : Int)
    rw [Int.add_zero, Int.add_zero, update_stock hnd]
  | removeProduct id =>
    show _ + (0 : Int) = _ + (0 : Int) + (0 : Int)
    rw [Int.add_zero, Int.add_zero, Int.add_zero, remove_stock hnd]
  | reserveProducts items =>
    show _ = _ + (0 : Int) + (0 : Int)
    rw [Int.add_zero, Int.add_zero, reserve_stock hnd]
  | order b =>
    simp only [World.step]
    split <;> exact hkept rfl
  | publish service row =>
    simp only [World.step]
    repeat' split
    all_goals exact hkept rfl
  | markPublished service row =>
    simp only [World.step]
    repeat' split
    all_goals cases service <;> exact hkept rfl
  | markFailed service row error =>
    simp only [World.step]
    repeat' split
    all_goals cases service <;> exact hkept rfl
  | userRegistered walletId initialBalance userId => exact hkept rfl
  | topUp walletId userId amount => exact hkept rfl

end

/-- **A run changes the stock by what is supplied and taken, and by what the stock commands do.** -/
theorem stock_run {w : World} {xs : List Execution} (hj : Joint w xs) (as : List Action)
    (p : String) : stockOf (run World.step w as).products.products p +
      totalOf (emits World.step takes w as) p = stockOf w.products.products p +
        totalOf (emits World.step supplies w as) p + movedBy (emits World.step executions w as) p := by
  induction as generalizing w xs with
  | nil =>
    show _ + (0 : Int) = _ + (0 : Int) + (0 : Int)
    rw [Int.add_zero, Int.add_zero, Int.add_zero, run_nil]
  | cons a as ih =>
    have hrest := ih (joint_step w xs a hj)
    have hone := stock_step hj.stock.productIds a p
    show _ + totalOf (takes w a ++ _) p =
      _ + totalOf (supplies w a ++ _) p + movedBy (executions w a ++ _) p
    rw [run_cons, totalOf_append, totalOf_append, movedBy_append]
    omega

/-! ## order by order -/

/-- the entries of a list, collected by a key that is in a list without repetitions -/
theorem sum_fibers {α : Type} (key : α → String) (f : α → Int) {ks : List String} (hnd : ks.Nodup)
    (xs : List α) (hx : ∀ x ∈ xs, key x ∈ ks) :
    (ks.map fun k => ((xs.filter fun x => decide (key x = k)).map f).sum).sum = (xs.map f).sum := by
  induction ks generalizing xs with
  | nil =>
    have hnil : xs = [] := List.eq_nil_iff_forall_not_mem.mpr fun x h =>
      absurd (hx x h) List.not_mem_nil
    rw [hnil]
    rfl
  | cons k ks ih =>
    obtain ⟨hk, hnd⟩ := List.nodup_cons.mp hnd
    -- the entries of the other keys
    let rest := xs.filter fun x => !decide (key x = k)
    have hrest : ∀ x ∈ rest, key x ∈ ks := by
      intro x h
      obtain ⟨hmem, hne⟩ := List.mem_filter.mp h
      exact (List.mem_cons.mp (hx x hmem)).resolve_left (by simpa using hne)
    have hsame : ∀ k' ∈ ks, (rest.filter fun x => decide (key x = k')) =
        xs.filter fun x => decide (key x = k') := by
      intro k' hk'
      rw [List.filter_filter]
      refine List.filter_congr fun x _ => ?_
      by_cases he : key x = k'
      · have hne : k' ≠ k := fun e => hk (e ▸ hk')
        simp [he, hne]
      · simp [he]
    have hih := ih hnd rest hrest
    rw [List.map_congr_left fun k' hk' => by rw [hsame k' hk']] at hih
    rw [List.map_cons, List.sum_cons, hih, ← List.sum_append, ← List.map_append]
    exact ((List.filter_append_perm _ xs).map f).sum_eq

section
variable {w : World} {xs : List Execution} (h : Joint w xs)
include h

/-- an executed stock command is one of a saga -/
theorem Joint.saga_of_execution {x : Execution} (hx : x ∈ stockExecutions xs)
    (he : x.executed = true) : x.orderId ∈ w.orders.db.sagas.map Saga.orderId := by
  cases h.stock.execution x hx with
  | reserved c delta hc _ =>
    obtain ⟨s, hs, _, ho, _⟩ := h.order.ofReserve hc
    exact List.mem_map.mpr ⟨s, hs, ho.symm⟩
  | released c delta hc _ =>
    obtain ⟨s, hs, _, ho, _⟩ := h.order.ofRelease hc
    exact List.mem_map.mpr ⟨s, hs, ho.symm⟩
  | replayed _ hno _ =>
    rw [he] at hno
    cases hno

/-- only what was executed counts -/
theorem Joint.sum_executed {l : List Execution} (hl : ∀ x ∈ l, x ∈ xs) (p : String) :
    ((l.filter Execution.executed).map fun x => x.delta p).sum = (l.map fun x => x.delta p).sum := by
  induction l with
  | nil => rfl
  | cons x l ih =>
    have hrest := ih fun y hy => hl y (List.mem_cons_of_mem _ hy)
    rw [List.map_cons, List.sum_cons, ← hrest]
    cases he : x.executed with
    | true => rw [List.filter_cons_of_pos he, List.map_cons, List.sum_cons]
    | false =>
      rw [List.filter_cons_of_neg (by simp [he]), h.replay_delta (hl x List.mem_cons_self) he,
        Int.zero_add]

/-- the stock commands of all orders together -/
theorem Joint.moved_orders (p : String) :
    movedBy xs p = overSagas w fun s => stockChange xs s.orderId p := by
  have hsub : ∀ x ∈ stockExecutions xs, x ∈ xs := fun x hx => (List.mem_filter.mp hx).1
  have hnd : (w.orders.db.sagas.map Saga.orderId).Nodup := by
    rw [h.order.wf.paired]
    exact h.order.wf.orderIds
  have hfib := sum_fibers Execution.orderId (fun x => x.delta p) hnd
    ((stockExecutions xs).filter Execution.executed) fun x hx =>
      h.saga_of_execution (List.mem_filter.mp hx).1 (List.mem_filter.mp hx).2
  unfold movedBy overSagas
  rw [← h.sum_executed hsub, ← hfib, List.map_map]
  refine congrArg List.sum (List.map_congr_left fun s _ => ?_)
  -- the stock commands of one order
  have hsplit : (xs.filter fun x => !x.isPayment && decide (x.orderId = s.orderId)) =
      (stockExecutions xs).filter fun x => decide (x.orderId = s.orderId) := by
    unfold stockExecutions
    rw [List.filter_filter]
    exact List.filter_congr fun x _ => Bool.and_comm _ _
  have hmine : ∀ x ∈ (stockExecutions xs).filter fun x => decide (x.orderId = s.orderId), x ∈ xs :=
    fun x hx => hsub x (List.mem_filter.mp hx).1
  unfold stockChange
  rw [hsplit, ← h.sum_executed hmine]
  show ((List.filter _ (List.filter _ _)).map _).sum = ((List.filter _ (List.filter _ _)).map _).sum
  rw [List.filter_filter, List.filter_filter]
  refine congrArg (fun l => (List.map (fun x : Execution => x.delta p) l).sum) ?_
  exact List.filter_congr fun x _ => Bool.and_comm _ _

/-- a reservation is recorded as made or as refused -/
theorem Joint.reserve_recorded {s : Saga} (hs : s ∈ w.orders.db.sagas)
    (hk : s.id ∈ w.products.idempotencyKeys.map IdempotencyKey.key) :
    Recorded w.products.idempotencyKeys s.id .stockReserved ∨
      Recorded w.products.idempotencyKeys s.id .stockReservationFailed := by
  obtain ⟨r, hr, hid⟩ := List.mem_map.mp hk
  cases h.stock.record r hr with
  | reserved c items hc _ => exact Or.inl ⟨_, hr, hid, rfl⟩
  | notReserved c e hc => exact Or.inr ⟨_, hr, hid, rfl⟩
  | released c hc => exact absurd hid (h.release_ne hs hc)

/-- what was never recorded was never executed -/
theorem Joint.executedFor_unrecorded {s : Saga} (hs : s ∈ w.orders.db.sagas) :
    (s.id ∉ w.products.idempotencyKeys.map IdempotencyKey.key →
      executedFor .reserveStock s.orderId xs = []) ∧
    (releaseId s.id ∉ w.products.idempotencyKeys.map IdempotencyKey.key →
      executedFor .releaseStock s.orderId xs = []) := by
  rw [← h.stock.executed, h.executedFor_reserve hs, h.executedFor_release hs]
  exact ⟨filter_of_no_key, filter_of_no_key⟩

/-- **What the stock commands of an order have taken is held, or was lost.** -/
theorem Joint.order_units {s : Saga} (hs : s ∈ w.orders.db.sagas) (p : String) :
    stockChange xs s.orderId p + (heldUnits w s p + lostUnits w xs s p) = 0 := by
  rw [stockChange_eq (fun z hz he i => h.replay_delta hz he i)]
  unfold heldUnits lostUnits
  obtain ⟨hnone, hunreleased⟩ := h.executedFor_unrecorded hs
  by_cases hres : Recorded w.products.idempotencyKeys s.id .stockReserved
  · have hno : ¬ Recorded w.products.idempotencyKeys s.id .stockReservationFailed := fun hf =>
      absurd (hres.topic_unique h.stock.keys hf) (by decide)
    obtain ⟨x, hx, hdx⟩ := h.reserved_once hs hres
    rw [if_neg hno, hx, List.map_singleton, List.sum_singleton, hdx]
    by_cases hk : releaseId s.id ∈ w.products.idempotencyKeys.map IdempotencyKey.key
    · obtain ⟨y, hy, hdy⟩ := h.released_once hs hk
      rw [if_neg fun hn => hn.2 (h.ofReleased hs hk).2, hy, List.map_singleton, List.sum_singleton,
        hdy]
      omega
    · have hno : ¬ Recorded w.products.idempotencyKeys (releaseId s.id) .stockReleased := by
        rintro ⟨r, hr, hid, _⟩
        exact hk (hid ▸ List.mem_map_of_mem hr)
      rw [if_pos ⟨hres, hno⟩, hunreleased hk]
      simp
  · -- without a reservation nothing is released
    have hk : releaseId s.id ∉ w.products.idempotencyKeys.map IdempotencyKey.key := by
      intro hk
      obtain ⟨⟨c, hc, hid⟩, _⟩ := h.ofReleased hs hk
      obtain ⟨s', hs', hid', _, _, _, hpay⟩ := h.order.ofRelease hc
      have hss : s' = s := h.order.wf.saga_id_inj hs' hs (releaseId_inj.mp (hid'.symm.trans hid))
      exact hres (hss ▸ h.reserved_of_paid hs' hpay)
    rw [if_neg fun hn => hres hn.1, hunreleased hk]
    by_cases hf : Recorded w.products.idempotencyKeys s.id .stockReservationFailed
    · rw [if_pos hf]
      simp
    · rw [if_neg hf, hnone fun hk => (h.reserve_recorded hs hk).elim hres hf]
      rfl

/-- the same for the orders together -/
theorem Joint.orders_units (p : String) : overSagas w (fun s => stockChange xs s.orderId p) +
    (overSagas w (fun s => heldUnits w s p) + overSagas w fun s => lostUnits w xs s p) = 0 := by
  have hunits : ∀ l : List Saga, (∀ s ∈ l, s ∈ w.orders.db.sagas) →
      (l.map fun s => stockChange xs s.orderId p).sum + ((l.map fun s => heldUnits w s p).sum +
        (l.map fun s => lostUnits w xs s p).sum) = 0 := by
    intro l hl
    induction l with
    | nil => rfl
    | cons s l ih =>
      have hs := h.order_units (hl s List.mem_cons_self) p
      have hrest := ih fun y hy => hl y (List.mem_cons_of_mem _ hy)
      simp only [List.map_cons, List.sum_cons]
      omega
  exact hunits _ fun _ hs => hs

end

theorem units_kept (now : Nat) (as : List Action) (p : String) :
    stockOf (run World.step (World.init now) as).products.products p +
      overSagas (run World.step (World.init now) as)
        (fun s => heldUnits (run World.step (World.init now) as) s p) +
      overSagas (run World.step (World.init now) as)
        (fun s => lostUnits (run World.step (World.init now) as)
          (emits World.step executions (World.init now) as) s p) +
      totalOf (emits World.step takes (World.init now) as) p =
        totalOf (emits World.step supplies (World.init now) as) p := by
  have h := joint_run now as
  have hstock : _ = (0 : Int) + _ + _ := stock_run (Joint.init now) as p
  have hunits := h.orders_units p
  rw [h.moved_orders] at hstock
  omega

/-- **No unit is made or vanishes.**  In every reachable state, what is on stock, what the orders
hold, what refused reservations have taken and what `POST /products/reserve` has taken are together
what creations and edits have brought into the catalogue. -/
theorem stock_conserved (now : Nat) (as : List Action) :
    let w := run World.step (World.init now) as
    let xs := emits World.step executions (World.init now) as
    ∀ p, stockOf w.products.products p + overSagas w (fun s => heldUnits w s p) +
      overSagas w (fun s => lostUnits w xs s p) +
      totalOf (emits World.step takes (World.init now) as) p =
        totalOf (emits World.step supplies (World.init now) as) p := by
  intro w xs p
  exact units_kept now as p

/-! ## quantities that validation lets through -/

/-- at least one piece a line, and no negative stock -/
def Admitted : Action → Prop
  | .order (.create _ _ input) => ∀ i ∈ input.items, 0 < i.quantity
  | .createProduct _ input => 0 ≤ input.stock
  | .updateProduct _ input => ∀ n ∈ input.stock.join, 0 ≤ n
  | .reserveProducts items => ∀ i ∈ items, 0 < i.quantity
  | _ => True

instance : DecidablePred Admitted
  | .order (.create _ _ input) => inferInstanceAs (Decidable (∀ i ∈ input.items, 0 < i.quantity))
  | .createProduct _ input => inferInstanceAs (Decidable (0 ≤ input.stock))
  | .updateProduct _ input => inferInstanceAs (Decidable (∀ n ∈ input.stock.join, 0 ≤ n))
  | .reserveProducts items => inferInstanceAs (Decidable (∀ i ∈ items, 0 < i.quantity))
  | .order (.wait _) | .order (.reply _ _ _) | .order (.findStuck _) | .order (.retry _ _ _)
  | .order (.skipLocked _) | .publish _ _ | .markPublished _ _ | .markFailed _ _ _
  | .deliver _ _ _ | .removeProduct _ | .userRegistered _ _ _ | .topUp _ _ _ => .isTrue trivial

/-- every line of every order is for at least one piece -/
def PositiveLines (db : OrderDb) : Prop := ∀ x, ∀ i ∈ db.linesOf x, 0 < i.quantity

theorem PositiveLines.act {w : OrderSystem} (h : PositiveLines w.db) (hwf : WF w.db)
    {a : OrderAction} (ha : Admitted (.order a)) : PositiveLines (w.step a).db := by
  have hs := order_step hwf a
  generalize (w.step a).db = db' at hs ⊢
  generalize gaveUp w a = gave at hs
  cases hs with
  | same _ => exact h
  | created u ids input hf =>
    intro x i hi
    by_cases hx : x = ids.order.val
    · rw [hx, linesOf_created_new hwf hf] at hi
      exact ha i hi
    · rw [linesOf_created_old hx] at hi
      exact h x i hi
  | replied u q ev _ _ m =>
    intro x i hi
    rw [m.linesOf] at hi
    exact h x i hi
  | retried k u q _ _ m =>
    intro x i hi
    rw [m.linesOf] at hi
    exact h x i hi

theorem PositiveLines.step {w : World} {xs : List Execution} (h : PositiveLines w.orders.db)
    (hj : Joint w xs) {a : Action} (ha : Admitted a) : PositiveLines (w.step a).orders.db := by
  have hs := world_step w a
  generalize w.step a = w' at hs ⊢
  cases hs with
  | same _ => exact h
  | acts b hb _ => exact h.act hj.order.wf (hb ▸ ha)
  | publishes _ _ => exact h
  | @marks service _ _ _ _ _ _ _ => cases service <;> exact h
  | delivers _ _ _ _ hw' _ =>
    cases hw' with
    | reply _ ev _ => exact h.act hj.order.wf (a := .reply _ _ ev) trivial
    | _ => exact h
  | catalogue _ _ => exact h
  | wallets _ _ => exact h

/-! ## stock is never negative -/

def NoDebt (t : List Product) : Prop := ∀ p ∈ t, 0 ≤ p.stock

theorem NoDebt.updateBy {t : List Product} (h : NoDebt t) (id : String) {f : Product → Product}
    (hf : ∀ p ∈ t, p.id = id → 0 ≤ (f p).stock) : NoDebt (updateBy Product.id id f t) := by
  intro p hp
  obtain ⟨q, hq, ⟨he, rfl⟩ | ⟨_, rfl⟩⟩ := mem_updateBy.mp hp
  · exact hf q hq he
  · exact h p hq

/-- a line is reserved only if the stock covers it -/
theorem NoDebt.reserveItem {t t' : List Product} (h : NoDebt t) {i : LineItem}
    {r : OrderCreatedEventItem} (hr : reserveItem t i = .ok (t', r)) : NoDebt t' := by
  unfold Shop.reserveItem reserveRow at hr
  cases hf : findActive i.productId t with
  | none =>
    simp only [hf] at hr
    cases hr
  | some p =>
    simp only [hf] at hr
    by_cases hlt : p.stock < i.quantity
    · rw [if_pos hlt] at hr
      cases hr
    · rw [if_neg hlt] at hr
      cases hr
      refine h.updateBy _ fun q _ _ => ?_
      show 0 ≤ p.stock - i.quantity
      omega

theorem NoDebt.reserveItems (items : List LineItem) {t : List Product} (h : NoDebt t) :
    NoDebt (reserveItems t items).1 := by
  induction items generalizing t with
  | nil => exact h
  | cons i items ih =>
    cases hi : Shop.reserveItem t i with
    | error e =>
      unfold Shop.reserveItems
      rw [hi]
      exact h
    | ok p =>
      obtain ⟨t', r⟩ := p
      rw [reserveItems_cons_ok hi]
      exact ih (h.reserveItem hi)

theorem NoDebt.releaseItems {items : List LineItem} (hpos : ∀ i ∈ items, 0 < i.quantity)
    {t : List Product} (h : NoDebt t) : NoDebt (releaseItems t items) := by
  induction items generalizing t with
  | nil => exact h
  | cons i items ih =>
    have hi := hpos i List.mem_cons_self
    refine ih (fun j hj => hpos j (List.mem_cons_of_mem _ hj)) (h.updateBy _ fun p hp _ => ?_)
    have hp0 := h p hp
    show 0 ≤ p.stock + i.quantity
    omega

/-- what the endpoints of the catalogue write -/
theorem NoDebt.commit {db : ProductDb} (h : NoDebt db.products)
    {r : Except ProductsError ProductDb} (hr : ∀ db', r = .ok db' → NoDebt db'.products) :
    NoDebt (Lib.commit db r).products := by
  cases r with
  | error e => exact h
  | ok db' => exact hr db' rfl

theorem NoDebt.create {db : ProductDb} (h : NoDebt db.products) (g : RowDefaults)
    {input : ProductDb.CreateProductInput} (hin : 0 ≤ input.stock) :
    NoDebt (Lib.commit db (db.create g input)).products := by
  refine h.commit fun db' he => ?_
  unfold ProductDb.create at he
  split at he
  · cases he
  · cases he
    intro p hp
    rcases List.mem_append.mp hp with hp | hp
    · exact h p hp
    · rw [List.mem_singleton.mp hp]
      exact hin

theorem NoDebt.update {db : ProductDb} (h : NoDebt db.products) (id : String)
    {input : ProductDb.UpdateProductInput} (hin : ∀ n ∈ input.stock.join, 0 ≤ n) :
    NoDebt (Lib.commit db (db.update id input)).products := by
  refine h.commit fun db' he => ?_
  unfold ProductDb.update at he
  cases hf : findActive id db.products with
  | none =>
    rw [hf] at he
    cases he
  | some p =>
    rw [hf] at he
    dsimp only at he
    split at he
    · cases he
      refine h.updateBy _ fun _ _ _ => ?_
      show 0 ≤ input.stock.join.getD p.stock
      cases hs : input.stock.join with
      | none => exact h p (findActive_some hf).1
      | some n => exact hin n hs
    · cases he

theorem NoDebt.remove {db : ProductDb} (h : NoDebt db.products) (id : String) :
    NoDebt (Lib.commit db (db.remove id)).products := by
  refine h.commit fun db' he => ?_
  unfold ProductDb.remove at he
  cases hf : findActive id db.products with
  | none =>
    rw [hf] at he
    cases he
  | some p =>
    rw [hf] at he
    cases he
    exact h.updateBy _ fun q hq _ => h q hq

theorem NoDebt.reserveStock {db : ProductDb} (h : NoDebt db.products) (items : List LineItem) :
    NoDebt (Lib.commit db (db.reserveStock items)).products := by
  refine h.commit fun db' he => ?_
  unfold ProductDb.reserveStock at he
  have hres := h.reserveItems items
  cases hr : Shop.reserveItems db.products items with
  | mk t res =>
    rw [hr] at he hres
    cases res with
    | error e => cases he
    | ok evs =>
      cases he
      exact hres

/-- what a handler of the saga commits; a reservation takes stock off, if anything -/
theorem NoDebt.handle {w : World} {xs : List Execution} (h : NoDebt w.products.products)
    (hlines : PositiveLines w.orders.db) (hj : Joint w xs) {m : Message} (hm : m ∈ w.inflight)
    {v v' : World} (hv : v.products = w.products) {ids : DeliveryIds} (hv' : Handled v ids m v') :
    NoDebt v'.products.products ∧ ∀ x ∈ executionOf w v' m, x.kind = .reserveStock →
      ∀ p, x.delta p ≤ 0 := by
  have hpub := hj.wire.inflight m hm
  rw [← hv] at h
  cases hv' with
  | reserveStock c =>
    obtain ⟨s, _, _, _, hperm⟩ := hj.order.ofReserve (hj.origin hpub (Or.inl rfl))
    have hpos : ∀ i ∈ c.items, 0 < i.quantity := fun i hi => hlines _ i (hperm.mem_iff.mp hi)
    have hprod : (v.products.handleReserveStock ⟨ids.outbox, v.clock⟩ c).products =
        v.products.products ∨ (v.products.handleReserveStock ⟨ids.outbox, v.clock⟩ c).products =
        (Shop.reserveItems v.products.products c.items).1 := by
      unfold ProductDb.handleReserveStock
      split
      · exact Or.inl rfl
      · exact Or.inr rfl
    have hle := reserveItems_le (hv ▸ hj.stock.productIds) hpos
    constructor
    · show NoDebt (v.products.handleReserveStock _ c).products
      rcases hprod with he | he
      · rw [he]
        exact h
      · rw [he]
        exact h.reserveItems c.items
    · intro x hx _ p
      rw [List.mem_singleton.mp hx]
      show stockOf (v.products.handleReserveStock _ c).products p - _ ≤ 0
      rw [← hv]
      rcases hprod with he | he
      · rw [he]
        omega
      · have hp := hle p
        rw [he]
        omega
  | releaseStock c =>
    obtain ⟨s, _, _, _, hperm, _⟩ := hj.order.ofRelease (hj.origin hpub (Or.inr (Or.inl rfl)))
    have hpos : ∀ i ∈ c.items, 0 < i.quantity := fun i hi => hlines _ i (hperm.mem_iff.mp hi)
    constructor
    · show NoDebt (v.products.handleReleaseStock _ c).products
      unfold ProductDb.handleReleaseStock
      split
      · exact h
      · exact h.releaseItems hpos
    · intro x hx hk
      rw [List.mem_singleton.mp hx] at hk
      cases hk
  | processPayment c =>
    refine ⟨h, fun x hx hk => ?_⟩
    rw [List.mem_singleton.mp hx] at hk
    cases hk
  | reply _ ev hev =>
    rw [reply_executionOf hev]
    exact ⟨h, fun x hx => absurd hx List.not_mem_nil⟩
  | ignored _ _ hno =>
    rw [hno]
    exact ⟨h, fun x hx => absurd hx List.not_mem_nil⟩

/-- no stock below zero, and no reservation that puts stock on -/
structure Sold (w : World) (xs : List Execution) : Prop where
  lines : PositiveLines w.orders.db
  stock : NoDebt w.products.products
  taken : ∀ x ∈ xs, x.kind = .reserveStock → ∀ p, x.delta p ≤ 0

theorem Sold.step {w : World} {xs : List Execution} (h : Sold w xs) (hj : Joint w xs) {a : Action}
    (ha : Admitted a) : Sold (w.step a) (xs ++ executions w a) := by
  have hboth : NoDebt (w.step a).products.products ∧ ∀ x ∈ executions w a,
      x.kind = .reserveStock → ∀ p, x.delta p ≤ 0 := by
    have hnone : ∀ x ∈ ([] : List Execution), x.kind = .reserveStock → ∀ p, x.delta p ≤ 0 :=
      fun x hx => absurd hx List.not_mem_nil
    cases a with
    | deliver index again ids =>
      cases hm : w.inflight[index]? with
      | none =>
        simp only [World.step, executions, hm]
        exact ⟨h.stock, hnone⟩
      | some m =>
        obtain ⟨v, hv, hstep⟩ := deliver_handle hm again ids
        simp only [executions, hm]
        rw [hstep]
        exact h.stock.handle h.lines hj (List.mem_of_getElem? hm) hv (handled v ids m)
    | createProduct id input => exact ⟨h.stock.create _ ha, hnone⟩
    | updateProduct id input => exact ⟨h.stock.update id ha, hnone⟩
    | removeProduct id => exact ⟨h.stock.remove id, hnone⟩
    | reserveProducts items => exact ⟨h.stock.reserveStock items, hnone⟩
    | order b =>
      refine ⟨?_, hnone⟩
      simp only [World.step]
      split <;> exact h.stock
    | publish service row =>
      refine ⟨?_, hnone⟩
      simp only [World.step]
      repeat' split
      all_goals exact h.stock
    | markPublished service row =>
      refine ⟨?_, hnone⟩
      simp only [World.step]
      repeat' split
      all_goals cases service <;> exact h.stock
    | markFailed service row error =>
      refine ⟨?_, hnone⟩
      simp only [World.step]
      repeat' split
      all_goals cases service <;> exact h.stock
    | userRegistered walletId initialBalance userId => exact ⟨h.stock, hnone⟩
    | topUp walletId userId amount => exact ⟨h.stock, hnone⟩
  refine ⟨h.lines.step hj ha, hboth.1, fun x hx => ?_⟩
  rcases List.mem_append.mp hx with hx | hx
  · exact h.taken x hx
  · exact hboth.2 x hx

theorem sold_run (now : Nat) (as : List Action) (h : ∀ a ∈ as, Admitted a) :
    Sold (run World.step (World.init now) as) (emits World.step executions (World.init now) as) := by
  have hinit : Sold (World.init now) [] :=
    ⟨fun _ _ hi => absurd hi List.not_mem_nil, fun _ hp => absurd hp List.not_mem_nil,
      fun _ hx => absurd hx List.not_mem_nil⟩
  refine (invariant_emits_of World.step (I := fun w xs => Joint w xs ∧ Sold w xs)
    (fun w xs a hw ha => ?_) (World.init now) as ⟨Joint.init now, hinit⟩ h).2
  exact ⟨joint_step w xs a hw.1, hw.2.step hw.1 ha⟩

section
variable {w : World} {xs : List Execution} (hsold : Sold w xs) (hj : Joint w xs)
include hsold

theorem Sold.held_nonneg (s : Saga) (p : String) : 0 ≤ heldUnits w s p := by
  unfold heldUnits
  split
  · exact quantityOf_nonneg (hsold.lines _) p
  · exact Int.le_refl 0

theorem Sold.lost_nonneg (s : Saga) (p : String) : 0 ≤ lostUnits w xs s p := by
  have hsum : ∀ l : List Execution, (∀ x ∈ l, x.delta p ≤ 0) →
      (l.map fun x => x.delta p).sum ≤ 0 := by
    intro l hl
    induction l with
    | nil => exact Int.le_refl 0
    | cons x l ih =>
      have hx := hl x List.mem_cons_self
      have hrest := ih fun y hy => hl y (List.mem_cons_of_mem _ hy)
      rw [List.map_cons, List.sum_cons]
      omega
  have htaken := hsum (executedFor .reserveStock s.orderId xs) fun x hx => by
    obtain ⟨hmem, hk⟩ := List.mem_filter.mp hx
    simp only [Bool.and_eq_true, decide_eq_true_eq] at hk
    exact hsold.taken x hmem hk.1.2 p
  unfold lostUnits
  split
  · omega
  · exact Int.le_refl 0

theorem Sold.stock_nonneg (p : String) : 0 ≤ stockOf w.products.products p := by
  unfold stockOf
  cases hp : selectBy Product.id p w.products.products with
  | none => exact Int.le_refl 0
  | some r => exact hsold.stock r (selectBy_some hp).1

include hj

/-- the order of a completed saga holds its lines -/
theorem Sold.completed_held {s : Saga} (hs : s ∈ w.orders.db.sagas) (hdone : s.status = .completed)
    (p : String) : heldUnits w s p = quantityOf (w.orders.db.linesOf s.orderId) p := by
  obtain ⟨o, ho, hos⟩ := hj.order.wf.order_of hs
  have hstep : s.currentStep = .completed :=
    (phase_iff (hj.order.wf.phase s hs o ho hos)).2.2.1.mp hdone
  have hstage := hj.order.stage s hs
  rw [Stage, hstep] at hstage
  have hkept : ¬ Recorded w.products.idempotencyKeys (releaseId s.id) .stockReleased := by
    rintro ⟨r, hr, hid, _⟩
    obtain ⟨⟨c, hc, hid'⟩, _⟩ := hj.ofReleased hs (hid ▸ List.mem_map_of_mem hr)
    obtain ⟨s', hs', hcid, _, _, hend, _⟩ := hj.order.ofRelease hc
    rw [hj.order.wf.saga_id_inj hs' hs (releaseId_inj.mp (hcid.symm.trans hid')), hstep] at hend
    cases hend <;> rename_i e <;> cases e
  unfold heldUnits
  rw [if_pos ⟨hstage.1, hkept⟩]

theorem Sold.sold_le (p : String) : soldUnits w p ≤ overSagas w fun s => heldUnits w s p := by
  have hunits : ∀ l : List Saga, (∀ s ∈ l, s ∈ w.orders.db.sagas) →
      (l.map fun s => if s.status = .completed then quantityOf (w.orders.db.linesOf s.orderId) p
        else 0).sum ≤ (l.map fun s => heldUnits w s p).sum := by
    intro l hl
    induction l with
    | nil => exact Int.le_refl 0
    | cons s l ih =>
      have hrest := ih fun y hy => hl y (List.mem_cons_of_mem _ hy)
      have hh : (if s.status = .completed then quantityOf (w.orders.db.linesOf s.orderId) p
          else 0) ≤ heldUnits w s p := by
        split
        · rename_i hdone
          rw [hsold.completed_held hj (hl s List.mem_cons_self) hdone]
        · exact hsold.held_nonneg s p
      simp only [List.map_cons, List.sum_cons]
      omega
  exact hunits _ fun _ hs => hs

end

/-- what `POST /products/reserve` takes is not negative -/
theorem takes_nonneg (w : World) {as : List Action} (h : ∀ a ∈ as, Admitted a) (p : String) :
    0 ≤ totalOf (emits World.step takes w as) p := by
  induction as generalizing w with
  | nil => exact Int.le_refl 0
  | cons a as ih =>
    have hrest := ih (w.step a) fun b hb => h b (List.mem_cons_of_mem _ hb)
    have hone : 0 ≤ totalOf (takes w a) p := by
      have ha := h a List.mem_cons_self
      cases a with
      | reserveProducts items =>
        cases hr : w.products.reserveStock items with
        | error e =>
          simp only [takes, hr]
          exact Int.le_refl 0
        | ok db =>
          simp only [takes, hr]
          rw [totalOf_single]
          exact quantityOf_nonneg ha p
      | _ => exact Int.le_refl 0
    show 0 ≤ totalOf (takes w a ++ _) p
    rw [totalOf_append]
    exact Int.add_nonneg hone hrest

/-- a sum over the sagas of what is never negative -/
theorem overSagas_nonneg (w : World) {f : Saga → Int} (hf : ∀ s, 0 ≤ f s) : 0 ≤ overSagas w f := by
  unfold overSagas
  induction w.orders.db.sagas with
  | nil => exact Int.le_refl 0
  | cons s l ih =>
    have hs := hf s
    rw [List.map_cons, List.sum_cons]
    omega

/-- **The shop never sells more than it has.**  In every run in which every line is for at least one
piece and no stock is created or set below zero, no stock falls below zero, and the units of a
product in the orders that were completed, those that `POST /products/reserve` has taken and those
still on stock are at most what creations and edits have brought. -/
theorem never_oversold (now : Nat) (as : List Action) (h : ∀ a ∈ as, Admitted a) :
    ∀ p, 0 ≤ stockOf (run World.step (World.init now) as).products.products p ∧
      0 ≤ totalOf (emits World.step takes (World.init now) as) p ∧
      soldUnits (run World.step (World.init now) as) p +
        totalOf (emits World.step takes (World.init now) as) p +
        stockOf (run World.step (World.init now) as).products.products p ≤
          totalOf (emits World.step supplies (World.init now) as) p := by
  intro p
  have hsold := sold_run now as h
  have hheld := hsold.sold_le (joint_run now as) p
  have hlost := overSagas_nonneg (run World.step (World.init now) as) fun s =>
    hsold.lost_nonneg s p
  have hall := units_kept now as p
  refine ⟨hsold.stock_nonneg p, takes_nonneg _ h p, ?_⟩
  omega

/-- five pens, two of them sold -/
theorem never_oversold_sale :
    let as := oneSale 2 ++ send .order 0 'a' ++ send .product 0 'b' ++ send .order 1 'a' ++
      send .payment 0 'c'
    let w := run World.step (World.init 0) as
    let pen := (Uuid.sample '7').val
    soldUnits w pen = 2 ∧ totalOf (emits World.step supplies (World.init 0) as) pen = 5 ∧
      0 ≤ stockOf w.products.products pen ∧
      0 ≤ totalOf (emits World.step takes (World.init 0) as) pen ∧
      soldUnits w pen + totalOf (emits World.step takes (World.init 0) as) pen +
        stockOf w.products.products pen ≤
          totalOf (emits World.step supplies (World.init 0) as) pen :=
  ⟨by decide +kernel, by decide +kernel, never_oversold 0 _ (by decide +kernel) _⟩

/-! ## the range of the stock column -/

/-- an edit that sets the stock of a product -/
def Action.setsStock : Action → Prop
  | .updateProduct _ input => input.stock.join.isSome = true
  | _ => False

instance : DecidablePred Action.setsStock
  | .updateProduct _ input => inferInstanceAs (Decidable (input.stock.join.isSome = true))
  | .order _ | .publish _ _ | .markPublished _ _ | .markFailed _ _ _ | .deliver _ _ _
  | .createProduct _ _ | .removeProduct _ | .reserveProducts _ | .userRegistered _ _ _
  | .topUp _ _ _ => .isFalse id

/-- no message changes which products there are -/
theorem Handled.product_ids {v v' : World} {ids : DeliveryIds} {m : Message}
    (h : Handled v ids m v') :
    v'.products.products.map Product.id = v.products.products.map Product.id := by
  cases h with
  | reserveStock c =>
    show (v.products.handleReserveStock ⟨ids.outbox, v.clock⟩ c).products.map Product.id = _
    unfold ProductDb.handleReserveStock
    split
    · rfl
    · exact reserveItems_ids c.items _
  | releaseStock c =>
    show (v.products.handleReleaseStock ⟨ids.outbox, v.clock⟩ c).products.map Product.id = _
    unfold ProductDb.handleReleaseStock
    split
    · rfl
    · exact releaseItems_ids c.items _
  | processPayment c => rfl
  | reply _ _ _ => rfl
  | ignored _ _ _ => rfl

/-- no product leaves the table -/
theorem product_ids_step (w : World) (a : Action) (p : String)
    (h : p ∈ w.products.products.map Product.id) :
    p ∈ (w.step a).products.products.map Product.id := by
  have hs := world_step w a
  generalize w.step a = w' at hs ⊢
  cases hs with
  | same _ => exact h
  | acts _ _ _ => exact h
  | publishes _ _ => exact h
  | @marks service _ _ _ _ _ _ _ => cases service <;> exact h
  | delivers _ _ _ _ hw' _ =>
    rw [hw'.product_ids]
    exact h
  | catalogue _ hc => exact hc.old p h
  | wallets _ _ => exact h

/-- what was brought for a product fits its column, and nothing was brought for any other -/
def SuppliesFit (w : World) (ds : List (String → Int)) : Prop :=
  ∀ p, totalOf ds p < 2 ^ 31 ∧ (p ∉ w.products.products.map Product.id → totalOf ds p = 0)

/-- a product that is created is in the table, with a stock that fits its column -/
theorem create_stored {w : World} {id : Uuid} {input : ProductDb.CreateProductInput}
    (hno : ¬ (id.val ∈ w.products.products.map Product.id ∨ input.storable = false)) :
    id.val ∈ (w.step (.createProduct id input)).products.products.map Product.id ∧
      fitsInt input.stock = true := by
  refine ⟨?_, ?_⟩
  · show id.val ∈ (commit w.products (w.products.create _ input)).products.map Product.id
    unfold ProductDb.create
    rw [if_neg hno]
    show id.val ∈ (w.products.products ++ [_]).map Product.id
    rw [List.map_append]
    exact List.mem_append_right _ (List.mem_singleton.mpr rfl)
  · have hstore := (not_or.mp hno).2
    unfold ProductDb.CreateProductInput.storable at hstore
    simp only [Bool.not_eq_false, Bool.and_eq_true] at hstore
    exact hstore.2

/-- what is brought for a product is the stock that it is created with -/
theorem SuppliesFit.step {w : World} {ds : List (String → Int)} (h : SuppliesFit w ds) {a : Action}
    (ha : ¬ a.setsStock) : SuppliesFit (w.step a) (ds ++ supplies w a) := by
  intro p
  have hkept : totalOf ds p < 2 ^ 31 ∧
      (p ∉ (w.step a).products.products.map Product.id → totalOf ds p = 0) :=
    ⟨(h p).1, fun hp => (h p).2 fun hin => hp (product_ids_step w a p hin)⟩
  rw [totalOf_append]
  have hnone : totalOf [] p = 0 := rfl
  cases a with
  | createProduct id input =>
    by_cases hno : id.val ∈ w.products.products.map Product.id ∨ input.storable = false
    · simp only [supplies, if_pos hno]
      rw [hnone, Int.add_zero]
      exact hkept
    · obtain ⟨hmade, hfits⟩ := create_stored hno
      have hmax := (fitsInt_iff.mp hfits).2
      simp only [supplies, if_neg hno]
      rw [totalOf_single]
      unfold unitsOf
      by_cases he : id.val = p
      · have hzero := (h p).2 (he ▸ (not_or.mp hno).1)
        rw [if_pos he]
        exact ⟨by omega, fun hp => absurd (he ▸ hmade) hp⟩
      · rw [if_neg he, Int.add_zero]
        exact hkept
  | updateProduct id input =>
    have hstock : input.stock.join = none := by
      cases hs : input.stock.join with
      | none => rfl
      | some n => exact absurd (show input.stock.join.isSome = true by rw [hs]; rfl) ha
    have hbrings : supplies w (.updateProduct id input) = [] := by
      simp only [supplies, hstock]
      cases findActive id w.products.products <;> rfl
    rw [hbrings, hnone, Int.add_zero]
    exact hkept
  | _ =>
    show totalOf ds p + (0 : Int) < _ ∧ (_ → totalOf ds p + (0 : Int) = 0)
    rw [Int.add_zero]
    exact hkept

/-- **Every stock fits its column.**  In every run in which every line is for at least one piece, no
product is created with a negative stock and no edit sets a stock, every stock is from 0 to
2147483647: the check of the column's range, which the handlers leave out, finds nothing. -/
theorem stocks_fit (now : Nat) (as : List Action) (h : ∀ a ∈ as, Admitted a ∧ ¬ a.setsStock) :
    ∀ r ∈ (run World.step (World.init now) as).products.products, fitsInt r.stock = true := by
  intro r hr
  have hsold := sold_run now as fun a ha => (h a ha).1
  have hfit : SuppliesFit (run World.step (World.init now) as)
      (emits World.step supplies (World.init now) as) :=
    invariant_emits_of World.step (I := SuppliesFit) (fun _ _ _ hw ha => hw.step ha) _ as
      (fun _ => ⟨show (0 : Int) < 2 ^ 31 by decide, fun _ => rfl⟩) fun a ha => (h a ha).2
  have hheld := overSagas_nonneg (run World.step (World.init now) as) fun s =>
    hsold.held_nonneg s r.id
  have hlost := overSagas_nonneg (run World.step (World.init now) as) fun s =>
    hsold.lost_nonneg s r.id
  have htaken := takes_nonneg (World.init now) (fun a ha => (h a ha).1) r.id
  have hall := units_kept now as r.id
  have hmax := (hfit r.id).1
  have hmin := hsold.stock r hr
  have hstock : stockOf (run World.step (World.init now) as).products.products r.id = r.stock := by
    unfold stockOf
    rw [selectBy_mem (joint_run now as).stock.productIds hr]
  rw [fitsInt_iff]
  omega

/-- five pens, two of them reserved -/
theorem stocks_fit_sale :
    let as := oneSale 2 ++ send .order 0 'a'
    (run World.step (World.init 0) as).products.products.map Product.stock = [3] ∧
    ∀ r ∈ (run World.step (World.init 0) as).products.products, fitsInt r.stock = true :=
  ⟨by decide +kernel, stocks_fit 0 _ (by decide +kernel)⟩

end Shop
