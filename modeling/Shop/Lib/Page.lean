import Mathlib.Data.List.Nodup
import Mathlib.Data.List.Range
import Mathlib.Data.List.Sort

/-!
# Pages of a sorted query

A query sorts its rows by a key, the largest first, and cuts a page out of them; rows with one key
come in an order that each query chooses anew.

* `SortedOrder`     the order in which a query returns its rows;
* `page`, `pages`   one page, and all of them, each cut by a query of its own;
* `Straddled`       a page ends between two rows with one key;
* `pages_perm_iff`  the pages have every row once, whatever the queries choose, exactly if no page
  ends so; and then they are sorted (`pages_sorted`).
-/

set_option linter.unusedSectionVars false

namespace Lib

open scoped List

section
variable {ρ : Type} (key : ρ → Nat)

/-- the largest key first -/
def Descending (l : List ρ) : Prop := l.Pairwise fun a b => key b ≤ key a

/-- `ORDER BY key DESC` -/
structure SortedOrder where
  apply : List ρ → List ρ
  perm : ∀ l, (apply l).Perm l
  sorted : ∀ l, Descending key (apply l)

def SortedOrder.stored : SortedOrder key where
  apply l := l.insertionSort fun a b => key b ≤ key a
  perm l := List.perm_insertionSort _ l
  sorted l := by
    have htotal : Std.Total fun a b : ρ => key b ≤ key a := ⟨fun a b => Nat.le_total _ _⟩
    have htrans : IsTrans ρ fun a b => key b ≤ key a := ⟨fun a b c hab hbc => Nat.le_trans hbc hab⟩
    exact List.pairwise_insertionSort _ l

/-- rows with one key the other way round -/
def SortedOrder.reversed : SortedOrder key where
  apply l := (SortedOrder.stored key).apply l.reverse
  perm l := ((SortedOrder.stored key).perm _).trans l.reverse_perm
  sorted l := (SortedOrder.stored key).sorted l.reverse

variable {key}

/-- `skip` and `take` of the page with this number, from 1 -/
def page (limit number : Nat) (l : List ρ) : List ρ := (l.drop ((number - 1) * limit)).take limit

def totalPages (limit total : Nat) : Nat := (total + limit - 1) / limit

/-- the first `n` pages -/
def pages (q : Nat → SortedOrder key) (limit n : Nat) (rows : List ρ) : List ρ :=
  (List.range n).flatMap fun k => page limit (k + 1) ((q (k + 1)).apply rows)

variable (key) in
/-- the rows with a larger key -/
def newer (rows : List ρ) (c : Nat) : Nat := rows.countP fun r => decide (c < key r)

variable (key) in
/-- the rows with this key or a larger one -/
def upTo (rows : List ρ) (c : Nat) : Nat := rows.countP fun r => decide (c ≤ key r)

variable (key) in
/-- a page ends after some but not all rows with one key -/
def Straddled (limit : Nat) (rows : List ρ) : Prop :=
  ∃ r ∈ rows, ∃ k, newer key rows (key r) < k * limit ∧ k * limit < upTo key rows (key r)

/-! ## what does not depend on the choice -/

theorem countP_eq_zero_of_lt {l : List ρ} {c : Nat} (h : ∀ r ∈ l, key r < c) :
    (l.countP fun r => decide (c ≤ key r)) = 0 := by
  refine List.countP_eq_zero.mpr fun r hr => ?_
  have := h r hr
  simp
  omega

/-- the rows down to a key come first -/
theorem take_upTo {l : List ρ} (h : Descending key l) (c : Nat) :
    l.take (upTo key l c) = l.filter fun r => decide (c ≤ key r) := by
  induction l with
  | nil => rfl
  | cons a l ih =>
    obtain ⟨ha, hl⟩ := List.pairwise_cons.mp h
    unfold upTo
    by_cases hc : c ≤ key a
    · rw [List.countP_cons_of_pos (by simpa using hc), List.take_succ_cons,
        List.filter_cons_of_pos (by simpa using hc)]
      exact congrArg _ (ih hl)
    · have hsmall : ∀ r ∈ a :: l, key r < c := by
        intro r hr
        rcases List.mem_cons.mp hr with rfl | hr
        · omega
        · have := ha r hr
          omega
      rw [countP_eq_zero_of_lt hsmall, List.take_zero]
      refine (List.filter_eq_nil_iff.mpr fun r hr => ?_).symm
      have := hsmall r hr
      simp
      omega

theorem newer_eq_upTo (l : List ρ) (c : Nat) : newer key l c = upTo key l (c + 1) := rfl

theorem upTo_perm {l l' : List ρ} (h : l.Perm l') (c : Nat) : upTo key l c = upTo key l' c :=
  h.countP_eq _

/-- a row is among those down to a key exactly if its place is -/
theorem le_key_iff {l : List ρ} (h : Descending key l) {i : Nat} {x : ρ} (hx : l[i]? = some x)
    (c : Nat) : c ≤ key x ↔ i < upTo key l c := by
  have hlt : i < l.length := (List.getElem?_eq_some_iff.mp hx).1
  have hget : l[i] = x := (List.getElem?_eq_some_iff.mp hx).2
  constructor
  · intro hc
    refine Nat.lt_of_not_le fun hle => ?_
    -- the row would be among those that are not counted
    have hdrop : x ∈ l.drop (upTo key l c) := by
      rw [← hget, List.mem_drop_iff_getElem]
      exact ⟨i - upTo key l c, by omega, by simp [Nat.add_sub_cancel' hle]⟩
    have hcount : upTo key l c = (l.take (upTo key l c)).countP (fun r => decide (c ≤ key r)) +
        (l.drop (upTo key l c)).countP (fun r => decide (c ≤ key r)) := by
      rw [← List.countP_append, List.take_append_drop]
      rfl
    have htake : (l.take (upTo key l c)).countP (fun r => decide (c ≤ key r)) = upTo key l c := by
      rw [take_upTo h, List.countP_filter]
      simp [upTo]
    have hpos : 0 < (l.drop (upTo key l c)).countP fun r => decide (c ≤ key r) :=
      List.countP_pos_iff.mpr ⟨x, hdrop, by simpa using hc⟩
    omega
  · intro hi
    have htake : x ∈ l.take (upTo key l c) := by
      rw [← hget, List.mem_take_iff_getElem]
      exact ⟨i, by omega, rfl⟩
    rw [take_upTo h] at htake
    simpa using (List.mem_filter.mp htake).2

/-- a place is within the rows with the key of the row there -/
theorem newer_le {l : List ρ} (h : Descending key l) {i : Nat} {x : ρ} (hx : l[i]? = some x) :
    newer key l (key x) ≤ i ∧ i < upTo key l (key x) := by
  have hnewer := (le_key_iff h hx (key x + 1)).not
  have hupTo := (le_key_iff h hx (key x)).mp (Nat.le_refl _)
  rw [newer_eq_upTo]
  exact ⟨Nat.le_of_not_lt (hnewer.mp (by omega)), hupTo⟩

/-- **What a page boundary cuts off does not depend on the choice**, if it cuts between keys. -/
theorem take_perm {l l' : List ρ} (h : Descending key l) (h' : Descending key l')
    (hperm : l.Perm l') {n : Nat}
    (hcut : ∀ r ∈ l, ¬(newer key l (key r) < n ∧ n < upTo key l (key r))) :
    (l.take n).Perm (l'.take n) := by
  cases n with
  | zero => simp
  | succ i =>
    cases hx : l[i]? with
    | none =>
      have hlen := List.getElem?_eq_none_iff.mp hx
      have hlen' := hperm.length_eq
      rw [List.take_of_length_le (by omega), List.take_of_length_le (by omega)]
      exact hperm
    | some x =>
      obtain ⟨hnewer, hupTo⟩ := newer_le h hx
      have hnot := hcut x (List.mem_of_getElem? hx)
      have hcount : i + 1 = upTo key l (key x) := by omega
      have hcount' := hcount.trans (upTo_perm hperm _)
      rw [hcount, take_upTo h, ← hcount, hcount', take_upTo h']
      exact hperm.filter _

/-! ## all pages -/

theorem pages_succ (q : Nat → SortedOrder key) (limit n : Nat) (rows : List ρ) :
    pages q limit (n + 1) rows =
      pages q limit n rows ++ page limit (n + 1) ((q (n + 1)).apply rows) := by
  rw [pages, List.range_succ, List.flatMap_append]
  simp [pages]

theorem take_page (limit n : Nat) (l : List ρ) :
    l.take ((n + 1) * limit) = l.take (n * limit) ++ page limit (n + 1) l := by
  rw [page, Nat.add_sub_cancel, Nat.succ_mul, List.take_add]

theorem not_straddled {limit : Nat} {rows : List ρ} (h : ¬Straddled key limit rows)
    (q : SortedOrder key) (k : Nat) : ∀ r ∈ q.apply rows,
      ¬(newer key (q.apply rows) (key r) < k * limit ∧
        k * limit < upTo key (q.apply rows) (key r)) := by
  intro r hr hcut
  rw [newer_eq_upTo, upTo_perm (q.perm rows), upTo_perm (q.perm rows)] at hcut
  exact h ⟨r, (q.perm rows).mem_iff.mp hr, k, hcut⟩

/-- the first pages are the first rows, whatever the queries choose -/
theorem pages_take {limit : Nat} {rows : List ρ} (h : ¬Straddled key limit rows)
    (q : Nat → SortedOrder key) (q' : SortedOrder key) (n : Nat) :
    (pages q limit n rows).Perm ((q'.apply rows).take (n * limit)) := by
  induction n with
  | zero => simp [pages]
  | succ n ih =>
    have hlast := q (n + 1)
    have hboth : ∀ k, ((q (n + 1)).apply rows).take (k * limit) ~
        (q'.apply rows).take (k * limit) := fun k =>
      take_perm ((q (n + 1)).sorted rows) (q'.sorted rows)
        (((q (n + 1)).perm rows).trans (q'.perm rows).symm) (not_straddled h (q (n + 1)) k)
    rw [pages_succ]
    exact ((ih.trans (hboth n).symm).append_right _).trans (take_page limit n _ ▸ hboth (n + 1))

theorem pages_sorted {limit : Nat} {rows : List ρ} (h : ¬Straddled key limit rows)
    (q : Nat → SortedOrder key) (n : Nat) : Descending key (pages q limit n rows) := by
  induction n with
  | zero => exact List.Pairwise.nil
  | succ n ih =>
    have hsorted := (q (n + 1)).sorted rows
    rw [Descending, ← List.take_append_drop (n * limit) ((q (n + 1)).apply rows),
      List.pairwise_append] at hsorted
    obtain ⟨_, hdrop, hcross⟩ := hsorted
    rw [pages_succ, Descending, List.pairwise_append]
    refine ⟨ih, ?_, fun a ha b hb => ?_⟩
    · exact (hdrop.sublist (List.take_sublist _ _))
    · have hmem := (pages_take h q (q (n + 1)) n).mem_iff.mp ha
      exact hcross a hmem b (List.mem_of_mem_take hb)

theorem lt_totalPages {limit : Nat} (h : 0 < limit) (total k : Nat) :
    k < totalPages limit total ↔ k * limit < total := by
  rw [totalPages, ← Nat.succ_le_iff, Nat.le_div_iff_mul_le h, Nat.succ_mul]
  omega

theorem le_totalPages {limit : Nat} (h : 0 < limit) (total : Nat) :
    total ≤ totalPages limit total * limit := by
  have := (lt_totalPages h total (totalPages limit total)).not
  omega

/-- a page after the last one is empty -/
theorem page_empty {limit : Nat} (h : 0 < limit) {l : List ρ} {number : Nat}
    (hn : totalPages limit l.length < number) : page limit number l = [] := by
  have hle := le_totalPages h l.length
  have hmul : totalPages limit l.length * limit ≤ (number - 1) * limit :=
    Nat.mul_le_mul_right _ (by omega)
  rw [page, List.drop_eq_nil_of_le (by omega), List.take_nil]

theorem pages_perm {limit : Nat} (hlimit : 0 < limit) {rows : List ρ}
    (h : ¬Straddled key limit rows) (q : Nat → SortedOrder key) :
    (pages q limit (totalPages limit rows.length) rows).Perm rows := by
  have hperm := pages_take h q (SortedOrder.stored key) (totalPages limit rows.length)
  have hle := le_totalPages hlimit rows.length
  rw [List.take_of_length_le] at hperm
  · exact hperm.trans ((SortedOrder.stored key).perm rows)
  · rw [((SortedOrder.stored key).perm rows).length_eq]
    exact hle

/-! ## two queries that disagree -/

theorem pages_add (q : Nat → SortedOrder key) (limit m j : Nat) (rows : List ρ) :
    ∃ rest, pages q limit (m + j) rows = pages q limit m rows ++ rest := by
  induction j with
  | zero => exact ⟨[], (List.append_nil _).symm⟩
  | succ j ih =>
    obtain ⟨rest, hrest⟩ := ih
    exact ⟨rest ++ _, by rw [← Nat.add_assoc, pages_succ, hrest, List.append_assoc]⟩

theorem mem_page {limit number i : Nat} {l : List ρ} {x : ρ} (hi : i < limit)
    (hx : l[(number - 1) * limit + i]? = some x) : x ∈ page limit number l := by
  refine List.mem_of_getElem? (i := i) ?_
  rw [page, List.getElem?_take_of_lt hi, List.getElem?_drop, hx]

theorem descending_map {l : List ρ} :
    Descending key l ↔ (l.map key).Pairwise fun a b => b ≤ a := by
  rw [List.pairwise_map]
  rfl

/-- the order of one query, changed for these rows -/
theorem exists_sortedOrder {rows l : List ρ} (hperm : l.Perm rows) (h : Descending key l) :
    ∃ q : SortedOrder key, q.apply rows = l := by
  classical
  refine ⟨⟨fun l' => if l' = rows then l else (SortedOrder.stored key).apply l', fun l' => ?_,
    fun l' => ?_⟩, if_pos rfl⟩
  · split
    · rename_i heq
      rw [heq]
      exact hperm
    · exact (SortedOrder.stored key).perm l'
  · split
    · exact h
    · exact (SortedOrder.stored key).sorted l'

/-- rows with one key on either side of a page boundary, in two orders -/
theorem straddled_swap {limit : Nat} {rows : List ρ} {r : ρ} {k : Nat}
    (hnewer : newer key rows (key r) < k * limit) (hupTo : k * limit < upTo key rows (key r)) :
    ∃ (q q' : SortedOrder key) (x : ρ), (q.apply rows)[k * limit - 1]? = some x ∧
      (q'.apply rows)[k * limit]? = some x := by
  have hperm := (SortedOrder.stored key).perm rows
  have hsorted := (SortedOrder.stored key).sorted rows
  generalize (SortedOrder.stored key).apply rows = l at hperm hsorted
  rw [newer_eq_upTo, ← upTo_perm hperm] at hnewer
  rw [← upTo_perm hperm] at hupTo
  have hlen : upTo key l (key r) ≤ l.length := List.countP_le_length
  obtain ⟨b, hb⟩ : ∃ b, k * limit = b + 1 := ⟨k * limit - 1, by omega⟩
  rw [hb] at hnewer hupTo ⊢
  have hx : l[b]? = some l[b] := List.getElem?_eq_getElem (by omega)
  have hy : l[b + 1]? = some l[b + 1] := List.getElem?_eq_getElem (by omega)
  have hkey : ∀ {i : Nat} {z : ρ}, l[i]? = some z → b ≤ i → i ≤ b + 1 → key z = key r := by
    intro i z hz hlo hhi
    have hle := (le_key_iff hsorted hz (key r)).mpr (by omega)
    have hge := (le_key_iff hsorted hz (key r + 1)).not.mpr (by omega)
    omega
  have heq : key l[b + 1] = key l[b] :=
    (hkey hy (by omega) (by omega)).trans (hkey hx (by omega) (by omega)).symm
  have hsplit : l = l.take b ++ l[b] :: l[b + 1] :: l.drop (b + 2) := by
    rw [← List.drop_eq_getElem_cons, ← List.drop_eq_getElem_cons, List.take_append_drop]
  have hswap : (l.take b ++ l[b + 1] :: l[b] :: l.drop (b + 2)).Perm l := by
    conv_rhs => rw [hsplit]
    exact List.Perm.append_left _ (List.Perm.swap _ _ _)
  have hswap' : Descending key (l.take b ++ l[b + 1] :: l[b] :: l.drop (b + 2)) := by
    have hmap : (l.take b ++ l[b + 1] :: l[b] :: l.drop (b + 2)).map key = l.map key := by
      conv_rhs => rw [hsplit]
      simp only [List.map_append, List.map_cons, heq]
    rw [descending_map, hmap, ← descending_map]
    exact hsorted
  obtain ⟨q, hq⟩ := exists_sortedOrder hperm hsorted
  obtain ⟨q', hq'⟩ := exists_sortedOrder (hswap.trans hperm) hswap'
  refine ⟨q, q', l[b], by rw [hq]; exact hx, ?_⟩
  have htake : (l.take b).length = b := List.length_take_of_le (by omega)
  rw [hq', List.getElem?_append_right (by omega), htake, Nat.add_sub_cancel_left]
  rfl

theorem not_pages_perm {limit : Nat} {rows : List ρ} (hnodup : rows.Nodup) (hlimit : 0 < limit)
    (h : Straddled key limit rows) : ∃ q : Nat → SortedOrder key,
      ¬(pages q limit (totalPages limit rows.length) rows).Perm rows := by
  obtain ⟨r, _, k, hnewer, hupTo⟩ := h
  obtain ⟨q, q', x, hx, hx'⟩ := straddled_swap hnewer hupTo
  have hpos : 0 < k := by
    refine Nat.pos_of_ne_zero ?_
    rintro rfl
    omega
  refine ⟨fun number => if number ≤ k then q else q', fun hperm => ?_⟩
  have hlen : upTo key rows (key r) ≤ rows.length := List.countP_le_length
  have hlast := (lt_totalPages hlimit rows.length k).mpr (by omega)
  -- the row is the last one of its page, and the first one of the next
  obtain ⟨j, rfl⟩ : ∃ j, k = j + 1 := ⟨k - 1, by omega⟩
  obtain ⟨m, hm⟩ : ∃ m, totalPages limit rows.length = j + 1 + 1 + m :=
    ⟨totalPages limit rows.length - (j + 1 + 1), by omega⟩
  obtain ⟨rest, hrest⟩ := pages_add (fun number => if number ≤ j + 1 then q else q') limit
    (j + 1 + 1) m rows
  have hnd := hperm.nodup_iff.mpr hnodup
  rw [hm, hrest, pages_succ, pages_succ] at hnd
  have hfirst : x ∈ page limit (j + 1) (q.apply rows) := by
    refine mem_page (i := limit - 1) (by omega) ?_
    have hplace : (j + 1 - 1) * limit + (limit - 1) = (j + 1) * limit - 1 := by
      rw [Nat.add_sub_cancel, Nat.succ_mul]
      omega
    rw [hplace]
    exact hx
  have hsecond : x ∈ page limit (j + 1 + 1) (q'.apply rows) := mem_page hlimit hx'
  rw [if_pos (Nat.le_refl _), if_neg (by omega)] at hnd
  have hdisjoint := (List.nodup_append.mp (List.nodup_append.mp hnd).1).2.2
  exact hdisjoint x (List.mem_append_right _ hfirst) x hsecond rfl

/-- **The pages have every row once, whatever each query chooses, exactly if no page ends between
two rows with one key.** -/
theorem pages_perm_iff {limit : Nat} {rows : List ρ} (hnodup : rows.Nodup) (hlimit : 0 < limit) :
    (∀ q : Nat → SortedOrder key,
      (pages q limit (totalPages limit rows.length) rows).Perm rows) ↔
      ¬Straddled key limit rows := by
  constructor
  · intro h hstraddled
    obtain ⟨q, hq⟩ := not_pages_perm hnodup hlimit hstraddled
    exact hq (h q)
  · exact fun h q => pages_perm hlimit h q

end

end Lib
