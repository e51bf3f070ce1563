import Shop.Shared.Messages
import Shop.Lib.Table

/-!
# Idempotency keys

`idempotency.service.ts`, the same in product-service and payment-service.  The key of a command is
its id; the row remembers the reply.

* `findKey k t`      `IdempotencyService.find`;
* `saveKey k r t`    `IdempotencyService.save`: the `save` of an entity whose primary key is given
                     selects that key, inserts the row if there is none and updates it otherwise.
-/

set_option linter.unusedSectionVars false

namespace Shop
open Lib

def findKey (k : String) (t : List IdempotencyKey) : Option StoredResult :=
  (selectBy IdempotencyKey.key k t).map IdempotencyKey.result

def IdempotencyKey.withResult (r : StoredResult) (row : IdempotencyKey) : IdempotencyKey :=
  { row with result := r }

theorem IdempotencyKey.withResult_key (r : StoredResult) (row : IdempotencyKey) :
    (row.withResult r).key = row.key := rfl

def saveKey (k : String) (r : StoredResult) (t : List IdempotencyKey) : List IdempotencyKey :=
  match findKey k t with
  | none => t ++ [⟨k, r⟩]
  | some _ => updateBy IdempotencyKey.key k (IdempotencyKey.withResult r) t

theorem findKey_some {k : String} {t : List IdempotencyKey} {r : StoredResult}
    (h : findKey k t = some r) : (⟨k, r⟩ : IdempotencyKey) ∈ t := by
  obtain ⟨row, hrow, rfl⟩ := Option.map_eq_some_iff.mp h
  obtain ⟨hm, rfl⟩ := selectBy_some hrow
  exact hm

theorem findKey_none {k : String} {t : List IdempotencyKey} :
    findKey k t = none ↔ k ∉ t.map IdempotencyKey.key := by
  unfold findKey
  rw [Option.map_eq_none_iff, selectBy_none, List.mem_map]
  constructor
  · rintro h ⟨row, hrow, rfl⟩
    exact h row hrow rfl
  · intro h row hrow he
    exact h ⟨row, hrow, he⟩

theorem saveKey_none {k : String} {r : StoredResult} {t : List IdempotencyKey}
    (h : findKey k t = none) : saveKey k r t = t ++ [⟨k, r⟩] := by
  unfold saveKey
  rw [h]

theorem saveKey_some {k : String} {r r' : StoredResult} {t : List IdempotencyKey}
    (h : findKey k t = some r') :
    saveKey k r t = updateBy IdempotencyKey.key k (IdempotencyKey.withResult r) t := by
  unfold saveKey
  rw [h]

theorem findKey_saveKey (k : String) (r : StoredResult) (t : List IdempotencyKey) :
    findKey k (saveKey k r t) = some r := by
  cases h : findKey k t with
  | none =>
    unfold findKey at h ⊢
    rw [saveKey_none h, selectBy_append, Option.map_eq_none_iff.mp h, if_pos rfl]
    rfl
  | some r' =>
    obtain ⟨row, hrow, _⟩ := Option.map_eq_some_iff.mp h
    unfold findKey
    rw [saveKey_some h, selectBy_updateBy_self (IdempotencyKey.withResult_key r), hrow]
    rfl

theorem saveKey_mem (k : String) (r : StoredResult) (t : List IdempotencyKey) :
    (⟨k, r⟩ : IdempotencyKey) ∈ saveKey k r t := findKey_some (findKey_saveKey k r t)

theorem findKey_saveKey_ne {k k' : String} (hne : k' ≠ k) (r : StoredResult)
    (t : List IdempotencyKey) : findKey k' (saveKey k r t) = findKey k' t := by
  cases h : findKey k t with
  | none =>
    unfold findKey
    rw [saveKey_none h, selectBy_append_ne (fun e => hne e.symm)]
  | some r' =>
    unfold findKey
    rw [saveKey_some h, selectBy_updateBy_ne (IdempotencyKey.withResult_key r) hne]

/-- a row after a save remembers the reply that was saved, or was there before -/
theorem saveKey_result {k : String} {r : StoredResult} {t : List IdempotencyKey}
    {row : IdempotencyKey} (h : row ∈ saveKey k r t) : row.result = r ∨ row ∈ t := by
  cases hk : findKey k t with
  | none =>
    rw [saveKey_none hk] at h
    rcases List.mem_append.mp h with h | h
    · exact Or.inr h
    · exact Or.inl (by rw [List.mem_singleton.mp h])
  | some r' =>
    rw [saveKey_some hk] at h
    obtain ⟨row₀, h₀, ⟨_, rfl⟩ | ⟨_, rfl⟩⟩ := mem_updateBy.mp h
    · exact Or.inl rfl
    · exact Or.inr h₀

/-- the key is recorded between the two tables -/
def newKey (k : String) (t t' : List IdempotencyKey) : Bool :=
  (findKey k t).isNone && (findKey k t').isSome

theorem newKey_saveKey {k : String} {r : StoredResult} {t : List IdempotencyKey}
    (h : findKey k t = none) : newKey k t (saveKey k r t) = true := by
  unfold newKey
  rw [h, findKey_saveKey]
  rfl

theorem newKey_some {k : String} {r : StoredResult} {t : List IdempotencyKey}
    (h : findKey k t = some r) (t' : List IdempotencyKey) : newKey k t t' = false := by
  unfold newKey
  rw [h]
  rfl

theorem newKey_self (k : String) (t : List IdempotencyKey) : newKey k t t = false := by
  unfold newKey
  cases findKey k t <;> rfl

/-- an append of a new key keeps the keys unique -/
theorem nodup_append_key {k : String} {r : StoredResult} {t : List IdempotencyKey}
    (hnd : (t.map IdempotencyKey.key).Nodup) (h : findKey k t = none) :
    ((t ++ [(⟨k, r⟩ : IdempotencyKey)]).map IdempotencyKey.key).Nodup := by
  rw [List.map_append]
  exact hnd.append (List.nodup_singleton _) (by simpa using findKey_none.mp h)

end Shop
