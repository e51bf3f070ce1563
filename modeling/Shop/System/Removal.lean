import Shop.Product.Editing
import Shop.User.Service

/-!
# Soft deletion

`remove` of user-service and of product-service marks a row as inactive, and so does no other call.
An `update` that has read the row before saves it as it was: active.

* `removed_iff`     in both services, what was removed stays removed in exactly the runs in which no
                    save makes an inactive row active again;
* `removed_fails`   an update that reads a profile, and a product, before it is removed.
-/

set_option linter.unusedSectionVars false

namespace Shop
open Lib

/-- once a `remove` of the profile has returned, the row is inactive -/
def profileGone (id : String) (now : Nat) (row₀ : Option Profile)
    (p : Pool (SaveDb UserCall (Option Profile))
      (SaveCall UserCall (Option Profile) ProfileObject UsersError)) (a : SaveAction UserCall) :
    Prop :=
  (SavePool.step (usersOps id now) p a).db.Removed UserCall.removes Profile.removed row₀ →
    Profile.removed (SavePool.step (usersOps id now) p a).db.row

/-- once a `remove` of the product has returned, the row is inactive -/
def productGone (row₀ : Product) (p : Pool (SaveDb ProductCall Product) EditCall)
    (a : SaveAction ProductCall) : Prop :=
  (SavePool.step productsOps p a).db.Removed ProductCall.removes (fun row => row.isActive = false)
    row₀ → (SavePool.step productsOps p a).db.row.isActive = false

instance (id : String) (now : Nat) (row₀ : Option Profile) (p) (a : SaveAction UserCall) :
    Decidable (profileGone id now row₀ p a) := inferInstanceAs (Decidable (_ → _))

instance (row₀ : Product) (p) (a : SaveAction ProductCall) : Decidable (productGone row₀ p a) :=
  inferInstanceAs (Decidable (_ → _))

/-- **Soft deletion is permanent**, in both services, in exactly the runs in which no save finds the
row inactive and makes it active again. -/
theorem removed_iff (id : String) (now : Nat) (profile₀ : Option Profile) (product₀ : Product)
    (us : List (SaveAction UserCall)) (ps : List (SaveAction ProductCall)) :
    (Along (SavePool.step (usersOps id now)) (profileGone id now profile₀) ⟨⟨profile₀, []⟩, []⟩ us ↔
      Along (SavePool.step (usersOps id now))
        (Pool.allows (staysDead Profile.removed ProfileObject.revives)) ⟨⟨profile₀, []⟩, []⟩ us) ∧
    (Along (SavePool.step productsOps) (productGone product₀) ⟨⟨product₀, []⟩, []⟩ ps ↔
      Along (SavePool.step productsOps)
        (Pool.allows (staysDead (fun row => row.isActive = false) Product.revives))
        ⟨⟨product₀, []⟩, []⟩ ps) ∧
    (∀ row, Profile.removed row → activeProfile row = none) ∧
    ∀ row : Product, row.isActive = false → row.visible = none ∧ ∀ quantity,
      reserveRow [row] ⟨row.id, quantity⟩ = .error (.productNotFound row.id) :=
  ⟨permanent_iff (users_removal id now) profile₀ us, permanent_iff products_removal product₀ ps,
    fun _ h => activeProfile_removed h, fun _ h => Product.removed_unseen h⟩

/-- an `update` reads the row, then a `remove` runs, and then the `update` goes on -/
def updateAround {ε : Type} (update remove : ε) : List (SaveAction ε) :=
  [.start update, .access 0 .go, .start remove] ++ List.replicate 4 (.access 1 .go) ++
    List.replicate 3 (.access 0 .go)

/-- **An update that was under way makes a removed profile, and a removed product, active again.** -/
theorem removed_fails :
    (¬ ∀ (id : String) (now : Nat) (row₀ : Option Profile) (as : List (SaveAction UserCall)),
      Along (SavePool.step (usersOps id now)) (profileGone id now row₀) ⟨⟨row₀, []⟩, []⟩ as) ∧
    ¬ ∀ (row₀ : Product) (as : List (SaveAction ProductCall)),
      Along (SavePool.step productsOps) (productGone row₀) ⟨⟨row₀, []⟩, []⟩ as := by
  constructor
  · intro h
    let row₀ : Profile := (ProfileObject.create "user" "user@shop").insert 0
    let input : UpdateProfileInput :=
      ⟨some (some "Ann"), none, none, none, none, none, none, none⟩
    exact absurd (h "user" 0 (some row₀) (updateAround (.update input "user" []) (.remove [.admin])))
      (by decide +kernel)
  · intro h
    let input : ProductDb.UpdateProductInput := ⟨some (some "Biro"), none, none, none⟩
    exact absurd (h .pens (updateAround (.edit (.update input)) (.edit .remove)))
      (by decide +kernel)

end Shop
