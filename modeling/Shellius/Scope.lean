import Shellius.Schema

/-!
# Customer scope

`lib/scope.js`: what a request may see.  `resolveScope` computes the scope of a
user; it is with the tables it reads, in `Tenancy`.
-/

namespace Shellius

/-- The effective scope of a caller. -/
inductive Scope where
  | unscoped
  | customers (customerIds : List Id)
deriving DecidableEq

/-- `assertServerInScope` -/
def inScope (scope : Scope) (server : Server) : Bool :=
  match scope with
  | .unscoped => true
  | .customers customerIds => server.customerId ∈ customerIds

/-- `customerScopeWhere`, as a test of a customer id. -/
def Scope.admits : Scope → Id → Bool
  | .unscoped, _ => true
  | .customers customerIds, customerId => customerId ∈ customerIds

/-- A scope lets through no more than another. -/
def Scope.Within : Scope → Scope → Prop
  | _, .unscoped => True
  | .unscoped, .customers _ => False
  | .customers customerIds, .customers customerIds' => customerIds ⊆ customerIds'

instance : (scope scope' : Scope) → Decidable (scope.Within scope')
  | _, .unscoped => .isTrue trivial
  | .unscoped, .customers _ => .isFalse id
  | .customers customerIds, .customers customerIds' =>
    inferInstanceAs (Decidable (customerIds ⊆ customerIds'))

end Shellius
