import Mathlib.Data.List.Basic

/-!
# Who a request comes from

`packages/shared`: the roles, the payload of a token, and the user that the gateway puts into a
request.
-/

namespace Shop

inductive Role where
  | user | admin | moderator
deriving DecidableEq, Repr

/-- the enum's text, as tokens and headers carry it -/
def Role.text : Role → String
  | .user => "user"
  | .admin => "admin"
  | .moderator => "moderator"

theorem Role.text_inj {a b : Role} (h : a.text = b.text) : a = b := by
  cases a <;> cases b <;> first | rfl | exact absurd h (by decide)

/-- a field that is absent is `none`; `iat` and `exp` are in seconds -/
structure JwtPayload where
  sub : String
  email : String
  roles : Option (List Role)
  jti : Option String
  iat : Option Nat
  exp : Option Nat
deriving DecidableEq, Repr

structure RequestUser where
  id : String
  email : String
  roles : List Role
deriving DecidableEq, Repr

end Shop
