import Shop.Lib.Flight
import Shop.Lib.Run
import Shop.Product.Service

/-!
# Concurrent cache misses

`findById` of `products.service.ts` on one instance, with `dedup`, `cacheGet` and `cacheSet`: any
number of calls for any ids, each taking its next step whenever it comes.  The database may find the
product, find nothing or fail; the cache may fail.

* `FindState`, `FindAction`, `FindState.step`   the calls and the fetches, and what can happen next;
* `FindState.reads`       the reads that an action brings to their end;
* `readAnswer id r`       what a caller is to get for the read `r`;
* `FindInv`               every fetch holds what its read has given, every caller waits for a fetch
  of his id;
* `InflightExact`, `inflight_exact`   what that means for the reads, the callers and the map;
* `after_cleanup`         a fetch that is over gets no caller any more.

The body of a fetch begins, and its promise is put into the map, before anything else can run; the
callback of `finally` runs after the body has come to its outcome, and the callers are resumed after
that.
-/

set_option linter.unusedSectionVars false

namespace Shop
open Lib

def keyOne (id : String) : String := "product:" ++ id

theorem keyOne_inj {a b : String} (h : keyOne a = keyOne b) : a = b :=
  (String.append_right_inj "product:").mp h

inductive FindError where
  | products (e : ProductsError)
  -- the database failed the query
  | query (message : String)
deriving DecidableEq, Repr

abbrev FindAnswer := Except FindError ProductResult

/-- how a query ends: with the table as it is then, or with an error -/
abbrev DbRead := Except String (List Product)

/-- a fetch waits for `findOne`, and then for `cacheSet` -/
inductive Fetching where
  | finding (id : String)
  | setting (result : ProductResult)
deriving DecidableEq, Repr

/-- a call of `findById` waits for `cacheGet`, or for the promise of a fetch; an answer comes from a
fetch or from the cache -/
inductive FindPhase where
  | getting
  | joined (fetch : Nat)
  | answered (fetch : Option Nat) (answer : FindAnswer)

structure FindCall where
  id : String
  phase : FindPhase

structure FindState where
  inflight : Flights String Fetching FindAnswer
  calls : List FindCall

inductive FindAction where
  | findById (id : String)
  | cacheGot (call : Nat) (got : Except String (Option ProductResult))
  | findOne (fetch : Nat) (read : DbRead)
  | cacheSet (fetch : Nat) (set : Except String Unit)
  | cleanup (fetch : Nat)
  | resume (call : Nat)

namespace ProductsService

def dedup (inflight : Flights String Fetching FindAnswer) (key : String) (fn : Fetching) :
    Nat × Flights String Fetching FindAnswer :=
  inflight.join key fn

/-- a cache that fails is a miss -/
def cacheGet : Except String (Option ProductResult) → Option ProductResult
  | .ok value => value
  | .error _ => none

/-- the fetch of `findById`, when `findOne` has ended -/
def afterFindOne (read : DbRead) : Fetching → Option (Fetching ⊕ FindAnswer)
  | .finding id =>
    match read with
    | .error message => some (.inr (.error (.query message)))
    | .ok t =>
      match findActive id t with
      | none => some (.inr (.error (.products (.productNotFound id))))
      | some product => some (.inl (.setting (toResult product)))
  | .setting _ => none

/-- and when `cacheSet` has, which catches an error of the cache -/
def afterCacheSet (_ : Except String Unit) : Fetching → Option (Fetching ⊕ FindAnswer)
  | .finding _ => none
  | .setting result => some (.inr (.ok result))

end ProductsService

namespace FindState
open ProductsService

def init : FindState := ⟨Flights.empty, []⟩

def step (s : FindState) : FindAction → FindState
  | .findById id => { s with calls := s.calls ++ [⟨id, .getting⟩] }
  | .cacheGot i got =>
    match s.calls[i]? with
    | some ⟨id, .getting⟩ =>
      match cacheGet got with
      | some cached => { s with calls := s.calls.set i ⟨id, .answered none (.ok cached)⟩ }
      | none =>
        let (f, inflight) := dedup s.inflight (keyOne id) (.finding id)
        ⟨inflight, s.calls.set i ⟨id, .joined f⟩⟩
    | _ => s
  | .findOne f read => { s with inflight := s.inflight.advance f (afterFindOne read) }
  | .cacheSet f set => { s with inflight := s.inflight.advance f (afterCacheSet set) }
  | .cleanup f => { s with inflight := s.inflight.cleanup f }
  | .resume i =>
    match s.calls[i]? with
    | some ⟨id, .joined f⟩ =>
      match s.inflight.outcome f with
      | some answer => { s with calls := s.calls.set i ⟨id, .answered (some f) answer⟩ }
      | none => s
    | _ => s

/-- the read that an action ends, with the fetch that has made it -/
def reads (s : FindState) : FindAction → List (Nat × DbRead)
  | .findOne f read =>
    match s.inflight.all[f]? with
    | some ⟨_, .working (.finding _)⟩ => [(f, read)]
    | _ => []
  | _ => []

end FindState

/-- what `findById` is to answer for a read -/
def readAnswer (id : String) : DbRead → FindAnswer
  | .error message => .error (.query message)
  | .ok t =>
    match findActive id t with
    | none => .error (.products (.productNotFound id))
    | some product => .ok (ProductsService.toResult product)

/-- the fetch that a call waits for, or was answered from -/
def FindCall.fetch (c : FindCall) : Option Nat :=
  match c.phase with
  | .getting => none
  | .joined f => some f
  | .answered f _ => f

/-! ## what the fetches and the callers hold -/

/-- the one read of the fetch `f` is answered with `a` -/
def ReadBy (xs : List (Nat × DbRead)) (f : Nat) (key : String) (a : FindAnswer) : Prop :=
  ∃ id read, key = keyOne id ∧ (f, read) ∈ xs ∧ (∀ r, (f, r) ∈ xs → r = read) ∧
    readAnswer id read = a

def FetchSound (xs : List (Nat × DbRead)) (f : Nat) (x : Flight String Fetching FindAnswer) :
    Prop :=
  match x.stage with
  | .working (.finding id) => x.key = keyOne id ∧ ∀ r, (f, r) ∉ xs
  | .working (.setting result) => ReadBy xs f x.key (.ok result)
  | .settled a => ReadBy xs f x.key a
  | .cleaned a => ReadBy xs f x.key a

/-- a caller waits for a fetch of his id, and has its outcome when he is answered -/
def CallSound (fs : Flights String Fetching FindAnswer) (c : FindCall) : Prop :=
  match c.phase with
  | .joined f => ∃ x, fs.all[f]? = some x ∧ x.key = keyOne c.id
  | .answered (some f) a =>
    ∃ x, fs.all[f]? = some x ∧ x.key = keyOne c.id ∧ x.stage = .cleaned a
  | _ => True

structure FindInv (s : FindState) (xs : List (Nat × DbRead)) : Prop where
  table : s.inflight.Sound
  fetch : ∀ f x, s.inflight.all[f]? = some x → FetchSound xs f x
  known : ∀ p ∈ xs, p.1 < s.inflight.all.length
  call : ∀ c ∈ s.calls, CallSound s.inflight c

theorem FindInv.init : FindInv FindState.init [] where
  table := Flights.Sound.empty
  fetch := fun _ _ h => nomatch h
  known := fun _ h => absurd h List.not_mem_nil
  call := fun _ h => absurd h List.not_mem_nil

theorem ReadBy.append {xs : List (Nat × DbRead)} {f g : Nat} {key : String} {a : FindAnswer}
    (h : ReadBy xs f key a) (hne : g ≠ f) (read : DbRead) : ReadBy (xs ++ [(g, read)]) f key a := by
  obtain ⟨id, r, hk, hr, hall, ha⟩ := h
  refine ⟨id, r, hk, List.mem_append_left _ hr, fun r' hr' => ?_, ha⟩
  rcases List.mem_append.mp hr' with hr' | hr'
  · exact hall r' hr'
  · exact absurd (congrArg Prod.fst (List.mem_singleton.mp hr')).symm hne

/-- the first read of a fetch is its only one -/
theorem ReadBy.first {xs : List (Nat × DbRead)} {f : Nat} {id : String} (h : ∀ r, (f, r) ∉ xs)
    (read : DbRead) : ReadBy (xs ++ [(f, read)]) f (keyOne id) (readAnswer id read) := by
  refine ⟨id, read, rfl, List.mem_append_right _ (List.mem_singleton.mpr rfl), fun r hr => ?_, rfl⟩
  rcases List.mem_append.mp hr with hr | hr
  · exact absurd hr (h r)
  · exact congrArg Prod.snd (List.mem_singleton.mp hr)

theorem FetchSound.append {xs : List (Nat × DbRead)} {f g : Nat}
    {x : Flight String Fetching FindAnswer} (h : FetchSound xs f x) (hne : g ≠ f) (read : DbRead) :
    FetchSound (xs ++ [(g, read)]) f x := by
  unfold FetchSound at *
  split at h
  · refine ⟨h.1, fun r hr => ?_⟩
    rcases List.mem_append.mp hr with hr | hr
    · exact h.2 r hr
    · exact absurd (congrArg Prod.fst (List.mem_singleton.mp hr)).symm hne
  · exact ReadBy.append h hne read
  · exact ReadBy.append h hne read
  · exact ReadBy.append h hne read

theorem afterFindOne_finding (read : DbRead) (id : String) :
    ∃ next, ProductsService.afterFindOne read (.finding id) = some next := by
  cases read with
  | error message => exact ⟨_, rfl⟩
  | ok t =>
    simp only [ProductsService.afterFindOne]
    cases findActive id t with
    | none => exact ⟨_, rfl⟩
    | some product => exact ⟨_, rfl⟩

/-- what `findOne` gives is kept for those who wait -/
theorem FetchSound.found {xs : List (Nat × DbRead)} {f : Nat} {id : String}
    (h : ∀ r, (f, r) ∉ xs) (read : DbRead) {next : Fetching ⊕ FindAnswer}
    (hnext : ProductsService.afterFindOne read (.finding id) = some next) :
    FetchSound (xs ++ [(f, read)]) f ⟨keyOne id, next.elim .working .settled⟩ := by
  have hread : ReadBy _ f (keyOne id) (readAnswer id read) := ReadBy.first h read
  cases read with
  | error message =>
    cases hnext
    exact hread
  | ok t =>
    cases hp : findActive id t with
    | none =>
      simp only [ProductsService.afterFindOne, hp, Option.some.injEq] at hnext
      simp only [readAnswer, hp] at hread
      rw [← hnext]
      exact hread
    | some product =>
      simp only [ProductsService.afterFindOne, hp, Option.some.injEq] at hnext
      simp only [readAnswer, hp] at hread
      rw [← hnext]
      exact hread

/-- a caller's fetch stays his -/
theorem CallSound.later {fs fs' : Flights String Fetching FindAnswer} {c : FindCall}
    (h : CallSound fs c) (hl : fs.Later fs') : CallSound fs' c := by
  unfold CallSound at *
  split at h
  · obtain ⟨x, hx, hk⟩ := h
    obtain ⟨y, hy, hk', -⟩ := hl _ x hx
    exact ⟨y, hy, hk'.trans hk⟩
  · obtain ⟨x, hx, hk, hst⟩ := h
    obtain ⟨y, hy, hk', hlead⟩ := hl _ x hx
    rw [hst] at hlead
    exact ⟨y, hy, hk'.trans hk, hlead⟩
  · trivial

/-! ## one step -/

theorem mem_set {β : Type} {l : List β} {i : Nat} {x y : β} (h : y ∈ l.set i x) : y = x ∨ y ∈ l :=
  (List.mem_or_eq_of_mem_set h).symm

/-- the fetches go on; no call moves -/
theorem FindInv.flights {s : FindState} {xs ys : List (Nat × DbRead)} (h : FindInv s xs)
    {fs : Flights String Fetching FindAnswer} (htable : fs.Sound) (hl : s.inflight.Later fs)
    (hfetch : ∀ f x, fs.all[f]? = some x → FetchSound ys f x)
    (hknown : ∀ p ∈ ys, p.1 < fs.all.length) : FindInv { s with inflight := fs } ys where
  table := htable
  fetch := hfetch
  known := hknown
  call := fun c hc => (h.call c hc).later hl

/-- a call moves; the fetches stay -/
theorem FindInv.calls {s : FindState} {xs : List (Nat × DbRead)} (h : FindInv s xs) {i : Nat}
    {c : FindCall} (hc : CallSound s.inflight c) :
    FindInv { s with calls := s.calls.set i c } xs where
  table := h.table
  fetch := h.fetch
  known := h.known
  call := by
    intro d hd
    rcases mem_set hd with rfl | hd
    · exact hc
    · exact h.call d hd

/-- one fetch is written -/
theorem FindInv.set {s : FindState} {xs ys : List (Nat × DbRead)} (h : FindInv s xs) {f : Nat}
    {x : Flight String Fetching FindAnswer} (hf : s.inflight.all[f]? = some x)
    {fs : Flights String Fetching FindAnswer} (htable : fs.Sound) (hl : s.inflight.Later fs)
    {st : FlightStage Fetching FindAnswer} (hall : fs.all = s.inflight.all.set f ⟨x.key, st⟩)
    (hst : FetchSound ys f ⟨x.key, st⟩)
    (hothers : ∀ g y, g ≠ f → FetchSound xs g y → FetchSound ys g y)
    (hknown : ∀ p ∈ ys, p ∈ xs ∨ p.1 = f) : FindInv { s with inflight := fs } ys := by
  refine h.flights htable hl (fun g y hy => ?_) fun p hp => ?_
  · rw [hall, Flights.getElem?_set_of_some hf] at hy
    by_cases hfg : f = g
    · rw [if_pos hfg] at hy
      cases hy
      exact hfg ▸ hst
    · rw [if_neg hfg] at hy
      exact hothers g y (fun e => hfg e.symm) (h.fetch g y hy)
  · rw [hall, List.length_set]
    rcases hknown p hp with hp | hp
    · exact h.known p hp
    · rw [hp]
      exact (List.getElem?_eq_some_iff.mp hf).1

section
open ProductsService
variable {s : FindState} {xs : List (Nat × DbRead)} (h : FindInv s xs)
include h

theorem FindInv.findById (id : String) :
    FindInv { s with calls := s.calls ++ [⟨id, .getting⟩] } xs where
  table := h.table
  fetch := h.fetch
  known := h.known
  call := by
    intro c hc
    rcases List.mem_append.mp hc with hc | hc
    · exact h.call c hc
    · rw [List.mem_singleton.mp hc]
      trivial

/-- a miss joins the fetch of its id, or begins one that has read nothing yet -/
theorem FindInv.dedup (id : String) :
    FindInv { s with inflight := (dedup s.inflight (keyOne id) (.finding id)).2 } xs := by
  have htable := h.table.join (keyOne id) (.finding id)
  have hl := Flights.later_join s.inflight (keyOne id) (.finding id)
  unfold ProductsService.dedup
  unfold Flights.join at *
  cases hk : s.inflight.entry (keyOne id) with
  | some f => exact h
  | none =>
    simp only [hk] at htable hl ⊢
    refine h.flights htable hl (fun f x hx => ?_) fun p hp => ?_
    · by_cases hlast : f = s.inflight.all.length
      · rw [hlast, List.getElem?_concat_length] at hx
        cases hx
        exact ⟨rfl, fun r hr => absurd (h.known _ hr) (by rw [hlast]; exact Nat.lt_irrefl _)⟩
      · have hlt : f < (s.inflight.all ++ [(⟨keyOne id, .working (.finding id)⟩ :
            Flight String Fetching FindAnswer)]).length := (List.getElem?_eq_some_iff.mp hx).1
        rw [List.length_append, List.length_singleton] at hlt
        rw [List.getElem?_append_left (by omega)] at hx
        exact h.fetch f x hx
    · rw [List.length_append]
      exact Nat.lt_add_right _ (h.known p hp)

theorem FindInv.findOne (f : Nat) (read : DbRead) :
    FindInv { s with inflight := s.inflight.advance f (afterFindOne read) }
      (xs ++ s.reads (.findOne f read)) := by
  have htable := h.table.advance f (afterFindOne read)
  have hl := Flights.later_advance s.inflight f (afterFindOne read)
  by_cases hfinding : ∃ k id, s.inflight.all[f]? = some ⟨k, .working (.finding id)⟩
  · obtain ⟨k, id, hf⟩ := hfinding
    have hreads : s.reads (.findOne f read) = [(f, read)] := by simp only [FindState.reads, hf]
    obtain ⟨next, hnext⟩ := afterFindOne_finding read id
    obtain ⟨hkey, hnone⟩ : k = keyOne id ∧ ∀ r, (f, r) ∉ xs := h.fetch f _ hf
    have hadvance := Flights.advance_working hf hnext
    rw [hreads]
    refine h.set hf htable hl (congrArg Flights.all hadvance) ?_
      (fun g y hg hy => hy.append (fun e => hg e.symm) read) fun p hp => ?_
    · show FetchSound _ f ⟨k, _⟩
      rw [hkey]
      exact FetchSound.found hnone read hnext
    · rcases List.mem_append.mp hp with hp | hp
      · exact Or.inl hp
      · rw [List.mem_singleton.mp hp]
        exact Or.inr rfl
  · have hidle : s.inflight.advance f (afterFindOne read) = s.inflight := by
      refine Flights.advance_idle fun k w hf => ?_
      cases w with
      | finding id => exact absurd ⟨k, id, hf⟩ hfinding
      | setting result => rfl
    have hreads : s.reads (.findOne f read) = [] := by
      simp only [FindState.reads]
      split
      · rename_i k id hf
        exact absurd ⟨k, id, hf⟩ hfinding
      · rfl
    rw [hidle, hreads, List.append_nil]
    exact h

theorem FindInv.cacheSet (f : Nat) (set : Except String Unit) :
    FindInv { s with inflight := s.inflight.advance f (afterCacheSet set) } xs := by
  have htable := h.table.advance f (afterCacheSet set)
  have hl := Flights.later_advance s.inflight f (afterCacheSet set)
  by_cases hsetting : ∃ k result, s.inflight.all[f]? = some ⟨k, .working (.setting result)⟩
  · obtain ⟨k, result, hf⟩ := hsetting
    have hread : ReadBy xs f k (.ok result) := h.fetch f _ hf
    have hadvance : s.inflight.advance f (afterCacheSet set) = _ :=
      Flights.advance_working hf rfl
    exact h.set hf htable hl (congrArg Flights.all hadvance) hread (fun _ _ _ hy => hy)
      fun _ hp => Or.inl hp
  · have hidle : s.inflight.advance f (afterCacheSet set) = s.inflight := by
      refine Flights.advance_idle fun k w hf => ?_
      cases w with
      | finding id => rfl
      | setting result => exact absurd ⟨k, result, hf⟩ hsetting
    rw [hidle]
    exact h

theorem FindInv.cleanup (f : Nat) : FindInv { s with inflight := s.inflight.cleanup f } xs := by
  have htable := h.table.cleanup f
  have hl := Flights.later_cleanup s.inflight f
  by_cases hsettled : ∃ k a, s.inflight.all[f]? = some ⟨k, .settled a⟩
  · obtain ⟨k, a, hf⟩ := hsettled
    have hread : ReadBy xs f k a := h.fetch f _ hf
    have hcleanup := Flights.cleanup_settled hf
    exact h.set hf htable hl (congrArg Flights.all hcleanup) hread (fun _ _ _ hy => hy)
      fun _ hp => Or.inl hp
  · rw [Flights.cleanup_idle fun k a hf => hsettled ⟨k, a, hf⟩]
    exact h

end

/-- **Every action keeps what the fetches and the callers hold.** -/
theorem find_step (s : FindState) (xs : List (Nat × DbRead)) (a : FindAction) (h : FindInv s xs) :
    FindInv (s.step a) (xs ++ s.reads a) := by
  cases a with
  | findOne f read => exact h.findOne f read
  | findById id =>
    rw [show s.reads (.findById id) = [] from rfl, List.append_nil]
    exact h.findById id
  | cacheSet f set =>
    rw [show s.reads (.cacheSet f set) = [] from rfl, List.append_nil]
    exact h.cacheSet f set
  | cleanup f =>
    rw [show s.reads (.cleanup f) = [] from rfl, List.append_nil]
    exact h.cleanup f
  | cacheGot i got =>
    rw [show s.reads (.cacheGot i got) = [] from rfl, List.append_nil]
    simp only [FindState.step]
    split
    · rename_i id hcall
      split
      · exact h.calls trivial
      · obtain ⟨x, hx, hkey, -⟩ := h.table.joined (keyOne id) (.finding id)
        exact (h.dedup id).calls (c := ⟨id, .joined _⟩) ⟨x, hx, hkey⟩
    · exact h
  | resume i =>
    rw [show s.reads (.resume i) = [] from rfl, List.append_nil]
    simp only [FindState.step]
    split
    · rename_i id f hcall
      split
      · rename_i answer houtcome
        obtain ⟨k, hf⟩ := Flights.outcome_eq_some.mp houtcome
        obtain ⟨x, hx, hkey⟩ : ∃ x, s.inflight.all[f]? = some x ∧ x.key = keyOne id :=
          h.call _ (List.mem_of_getElem? hcall)
        rw [hf] at hx
        cases hx
        exact h.calls ⟨_, hf, hkey, rfl⟩
      · exact h
    · exact h

theorem find_run (as : List FindAction) : FindInv (run FindState.step FindState.init as)
    (emits FindState.step FindState.reads FindState.init as) :=
  invariant_emits FindState.step find_step FindState.init as FindInv.init

/-! ## what becomes of a fetch -/

theorem later_step (s : FindState) (a : FindAction) : s.inflight.Later (s.step a).inflight := by
  cases a with
  | findById id => exact Flights.Later.refl _
  | findOne f read => exact Flights.later_advance _ f _
  | cacheSet f set => exact Flights.later_advance _ f _
  | cleanup f => exact Flights.later_cleanup _ f
  | cacheGot i got =>
    simp only [FindState.step]
    split
    · split
      · exact Flights.Later.refl _
      · exact Flights.later_join _ _ _
    · exact Flights.Later.refl _
  | resume i =>
    simp only [FindState.step]
    split
    · split <;> exact Flights.Later.refl _
    · exact Flights.Later.refl _

/-- a call comes to a fetch through the map only -/
theorem fetch_step (s : FindState) (a : FindAction) {i : Nat} {c : FindCall}
    (hc : (s.step a).calls[i]? = some c) {f : Nat} (hf : c.fetch = some f) :
    (∃ c₀, s.calls[i]? = some c₀ ∧ c₀.fetch = some f) ∨
      ∃ k, (s.step a).inflight.entry k = some f := by
  cases a with
  | findOne g read => exact Or.inl ⟨c, hc, hf⟩
  | cacheSet g set => exact Or.inl ⟨c, hc, hf⟩
  | cleanup g => exact Or.inl ⟨c, hc, hf⟩
  | findById id =>
    change (s.calls ++ [(⟨id, .getting⟩ : FindCall)])[i]? = some c at hc
    rcases Nat.lt_or_ge i s.calls.length with hlt | hge
    · rw [List.getElem?_append_left hlt] at hc
      exact Or.inl ⟨c, hc, hf⟩
    · rw [List.getElem?_append_right hge] at hc
      rw [List.mem_singleton.mp (List.mem_of_getElem? hc)] at hf
      cases hf
  | cacheGot j got =>
    simp only [FindState.step] at hc ⊢
    split at hc
    · rename_i id hcall
      split at hc
      · rw [Flights.getElem?_set_of_some hcall] at hc
        split at hc
        · cases hc
          cases hf
        · exact Or.inl ⟨c, hc, hf⟩
      · rw [Flights.getElem?_set_of_some hcall] at hc
        split at hc
        · cases hc
          cases hf
          exact Or.inr ⟨keyOne id, Flights.join_entry _ _ _⟩
        · exact Or.inl ⟨c, hc, hf⟩
    · exact Or.inl ⟨c, hc, hf⟩
  | resume j =>
    simp only [FindState.step] at hc
    split at hc
    · rename_i id g hcall
      split at hc
      · rw [Flights.getElem?_set_of_some hcall] at hc
        split at hc
        · rename_i hij
          cases hc
          cases hf
          exact Or.inl ⟨_, hij ▸ hcall, rfl⟩
        · exact Or.inl ⟨c, hc, hf⟩
      · exact Or.inl ⟨c, hc, hf⟩
    · exact Or.inl ⟨c, hc, hf⟩

/-- **A fetch that has been cleaned up is in the map no more, and no further call comes to it.** -/
theorem after_cleanup {s : FindState} {xs : List (Nat × DbRead)} (h : FindInv s xs) {f : Nat}
    {x : Flight String Fetching FindAnswer} (hf : s.inflight.all[f]? = some x)
    (hx : x.stage.pending = false) (post : List FindAction) :
    (∀ k, (run FindState.step s post).inflight.entry k ≠ some f) ∧
    ∀ (i : Nat) c, (run FindState.step s post).calls[i]? = some c → c.fetch = some f →
      ∃ c₀, s.calls[i]? = some c₀ ∧ c₀.fetch = some f := by
  have hrun : (∃ ys, FindInv (run FindState.step s post) ys) ∧
      s.inflight.Later (run FindState.step s post).inflight ∧
      ∀ (i : Nat) c, (run FindState.step s post).calls[i]? = some c → c.fetch = some f →
        ∃ c₀, s.calls[i]? = some c₀ ∧ c₀.fetch = some f := by
    refine invariant_run (I := fun t => (∃ ys, FindInv t ys) ∧ s.inflight.Later t.inflight ∧
      ∀ (i : Nat) c, t.calls[i]? = some c → c.fetch = some f →
        ∃ c₀, s.calls[i]? = some c₀ ∧ c₀.fetch = some f) FindState.step ?_ s post
      ⟨⟨xs, h⟩, Flights.Later.refl _, fun i c hc hcf => ⟨c, hc, hcf⟩⟩
    rintro t a ⟨⟨ys, ht⟩, hl, hcalls⟩
    have ht' := find_step t ys a ht
    have hl' := hl.trans (later_step t a)
    refine ⟨⟨_, ht'⟩, hl', fun i c hc hcf => ?_⟩
    rcases fetch_step t a hc hcf with ⟨c₀, hc₀, hcf₀⟩ | ⟨k, hk⟩
    · exact hcalls i c₀ hc₀ hcf₀
    · exact absurd hk (hl'.entry_ne ht'.table hf hx k)
  obtain ⟨⟨ys, ht⟩, hl, hcalls⟩ := hrun
  exact ⟨fun k => hl.entry_ne ht.table hf hx k, hcalls⟩

/-! ## nobody is left waiting -/

section
variable {s : FindState} {i f : Nat} {id k : String}

theorem served_cleaned (hc : s.calls[i]? = some ⟨id, .joined f⟩) {a : FindAnswer}
    (hf : s.inflight.all[f]? = some ⟨k, .cleaned a⟩) :
    (s.step (.resume i)).calls[i]? = some ⟨id, .answered (some f) a⟩ := by
  have houtcome : s.inflight.outcome f = some a := Flights.outcome_eq_some.mpr ⟨k, hf⟩
  simp only [FindState.step, hc, houtcome]
  exact Flights.getElem?_set_self_of_some hc _

theorem served_settled (hc : s.calls[i]? = some ⟨id, .joined f⟩) {a : FindAnswer}
    (hf : s.inflight.all[f]? = some ⟨k, .settled a⟩) :
    (run FindState.step s [.cleanup f, .resume i]).calls[i]? =
      some ⟨id, .answered (some f) a⟩ := by
  have hf' : (s.step (.cleanup f)).inflight.all[f]? = some ⟨k, .cleaned a⟩ :=
    Flights.cleanup_self hf
  exact served_cleaned (s := s.step (.cleanup f)) hc hf'

theorem served_setting (hc : s.calls[i]? = some ⟨id, .joined f⟩) {result : ProductResult}
    (hf : s.inflight.all[f]? = some ⟨k, .working (.setting result)⟩) (set : Except String Unit) :
    (run FindState.step s [.cacheSet f set, .cleanup f, .resume i]).calls[i]? =
      some ⟨id, .answered (some f) (.ok result)⟩ := by
  have hb : ProductsService.afterCacheSet set (.setting result) = some (.inr (.ok result)) := rfl
  have hf' : (s.step (.cacheSet f set)).inflight.all[f]? = some ⟨k, .settled (.ok result)⟩ :=
    Flights.advance_self hf hb
  exact served_settled (s := s.step (.cacheSet f set)) hc hf'

/-- a fetch whose read ends serves its callers, whatever the read and the cache come to -/
theorem served_finding (hc : s.calls[i]? = some ⟨id, .joined f⟩) {x : String}
    (hf : s.inflight.all[f]? = some ⟨k, .working (.finding x)⟩) (read : DbRead) :
    ∃ post, (run FindState.step s (.findOne f read :: post)).calls[i]? =
      some ⟨id, .answered (some f) (readAnswer x read)⟩ := by
  obtain ⟨next, hnext⟩ := afterFindOne_finding read x
  have hf' : (s.step (.findOne f read)).inflight.all[f]? =
      some ⟨k, next.elim .working .settled⟩ := Flights.advance_self hf hnext
  cases read with
  | error message =>
    cases hnext
    exact ⟨[.cleanup f, .resume i], served_settled (s := s.step (.findOne f _)) hc hf'⟩
  | ok t =>
    cases hp : findActive x t with
    | none =>
      simp only [ProductsService.afterFindOne, hp, Option.some.injEq] at hnext
      subst hnext
      simp only [readAnswer, hp]
      exact ⟨[.cleanup f, .resume i], served_settled (s := s.step (.findOne f _)) hc hf'⟩
    | some product =>
      simp only [ProductsService.afterFindOne, hp, Option.some.injEq] at hnext
      subst hnext
      simp only [readAnswer, hp]
      exact ⟨[.cacheSet f (.ok ()), .cleanup f, .resume i],
        served_setting (s := s.step (.findOne f _)) hc hf' (.ok ())⟩

end

theorem FindInv.served {s : FindState} {xs : List (Nat × DbRead)} (h : FindInv s xs) {i f : Nat}
    {id : String} (hc : s.calls[i]? = some ⟨id, .joined f⟩) :
    ∃ post a, (run FindState.step s post).calls[i]? = some ⟨id, .answered (some f) a⟩ := by
  obtain ⟨⟨k, st⟩, hf, -⟩ : ∃ x, s.inflight.all[f]? = some x ∧ x.key = keyOne id :=
    h.call _ (List.mem_of_getElem? hc)
  cases st with
  | working w =>
    cases w with
    | finding x =>
      obtain ⟨post, hpost⟩ := served_finding hc hf (.error "")
      exact ⟨_, _, hpost⟩
    | setting result => exact ⟨_, _, served_setting hc hf (.ok ())⟩
  | settled a => exact ⟨_, _, served_settled hc hf⟩
  | cleaned a => exact ⟨[.resume i], _, served_cleaned hc hf⟩

/-! ## the deduplication is exact -/

/-- the fetch `f` has a query for `id` in flight -/
def FindState.reading (s : FindState) (f : Nat) (id : String) : Prop :=
  ∃ k, s.inflight.all[f]? = some ⟨k, .working (.finding id)⟩

/-- Of one state: one query an id in flight; a caller that has joined waits for a fetch of his id,
can be served, and is answered with the result of its read; the map has the fetches that have not
been cleaned up, and none where there is none; a call that misses joins one of them. -/
structure InflightExact (s : FindState) (xs : List (Nat × DbRead)) : Prop where
  oneRead : ∀ f g id, s.reading f id → s.reading g id → f = g
  joined : ∀ (i : Nat) id f, s.calls[i]? = some ⟨id, .joined f⟩ →
    (∃ x, s.inflight.all[f]? = some x ∧ x.key = keyOne id) ∧
    ∃ post a, (run FindState.step s post).calls[i]? = some ⟨id, .answered (some f) a⟩
  answered : ∀ (i : Nat) id f a, s.calls[i]? = some ⟨id, .answered (some f) a⟩ →
    ∃ read, (f, read) ∈ xs ∧ (∀ r, (f, r) ∈ xs → r = read) ∧ a = readAnswer id read
  entry : ∀ k f, s.inflight.entry k = some f ↔
    ∃ x, s.inflight.all[f]? = some x ∧ x.key = k ∧ x.stage.pending = true
  empty : (∀ x ∈ s.inflight.all, x.stage.pending = false) → ∀ k, s.inflight.entry k = none
  miss : ∀ (i : Nat) id got, s.calls[i]? = some ⟨id, .getting⟩ →
    ProductsService.cacheGet got = none →
    ∃ f x, (s.step (.cacheGot i got)).calls[i]? = some ⟨id, .joined f⟩ ∧
      (s.step (.cacheGot i got)).inflight.all[f]? = some x ∧ x.key = keyOne id ∧
      x.stage.pending = true

theorem FindInv.exact {s : FindState} {xs : List (Nat × DbRead)} (h : FindInv s xs) :
    InflightExact s xs where
  oneRead := by
    rintro f g id ⟨k, hf⟩ ⟨k', hg⟩
    obtain ⟨hk, -⟩ : k = keyOne id ∧ _ := h.fetch f _ hf
    obtain ⟨hk', -⟩ : k' = keyOne id ∧ _ := h.fetch g _ hg
    exact h.table.unique hf hg (hk.trans hk'.symm) rfl rfl
  joined := fun i id f hc => ⟨h.call _ (List.mem_of_getElem? hc), h.served hc⟩
  answered := by
    intro i id f a hc
    obtain ⟨⟨k, st⟩, hf, hkey, hst⟩ : ∃ x, s.inflight.all[f]? = some x ∧ x.key = keyOne id ∧
        x.stage = .cleaned a := h.call _ (List.mem_of_getElem? hc)
    cases hst
    obtain ⟨id', read, hk, hr, hall, ha⟩ : ReadBy xs f k a := h.fetch f _ hf
    rw [keyOne_inj (hkey.symm.trans hk)]
    exact ⟨read, hr, hall, ha.symm⟩
  entry := h.table
  empty := h.table.entry_none
  miss := by
    intro i id got hc hmiss
    obtain ⟨x, hx, hkey, hp⟩ := h.table.joined (keyOne id) (.finding id)
    refine ⟨(s.inflight.join (keyOne id) (.finding id)).1, x, ?_, ?_, hkey, hp⟩
    · simp only [FindState.step, hc, hmiss]
      exact Flights.getElem?_set_self_of_some hc _
    · simp only [FindState.step, hc, hmiss]
      exact hx

/-- **In every reachable state the deduplication is exact, and a fetch that has been cleaned up is
in the map no more and gets no further caller**, whatever comes after. -/
theorem inflight_exact (as : List FindAction) :
    let s := run FindState.step FindState.init as
    InflightExact s (emits FindState.step FindState.reads FindState.init as) ∧
    ∀ f x, s.inflight.all[f]? = some x → x.stage.pending = false → ∀ post,
      (∀ k, (run FindState.step s post).inflight.entry k ≠ some f) ∧
      ∀ (i : Nat) c, (run FindState.step s post).calls[i]? = some c → c.fetch = some f →
        ∃ c₀, s.calls[i]? = some c₀ ∧ c₀.fetch = some f :=
  ⟨(find_run as).exact, fun _ _ hf hx post => after_cleanup (find_run as) hf hx post⟩

/-- two calls share a query that fails, and the next one begins another -/
example :
    let s := run FindState.step FindState.init [.findById "p", .findById "p",
      .cacheGot 0 (.error "down"), .cacheGot 1 (.ok none), .findOne 0 (.error "down"), .cleanup 0,
      .resume 0, .resume 1, .findById "p", .cacheGot 2 (.ok none)]
    s.calls.map FindCall.fetch = [some 0, some 0, some 1] ∧
      s.inflight.entry (keyOne "p") = some 1 := by
  decide +kernel

end Shop
