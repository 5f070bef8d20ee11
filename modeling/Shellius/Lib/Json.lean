import Mathlib.Data.Rat.Defs
import Mathlib.Data.List.Basic

/-!
# JSON as JavaScript reads it

What `JSON.parse` returns, and what a program finds in it: the truth of a value, its fields, its
elements and what a loop over it goes through.  Objects and arrays are compared by reference, so of
two values that were read apart only scalars can be the same.

Half of a surrogate pair is no character here.
-/

namespace Shellius.Lib

inductive Scalar where
  | null
  | bool (b : Bool)
  | number (q : ℚ)
  | string (s : String)
deriving DecidableEq

inductive Json where
  | scalar (s : Scalar)
  | array (items : List Json)
  | object (fields : List (String × Json))

/-- `Boolean(value)` -/
def Scalar.truthy : Scalar → Bool
  | .null => false
  | .bool b => b
  | .number q => q ≠ 0
  | .string s => s ≠ ""

namespace Json

def truthy : Json → Bool
  | .scalar s => s.truthy
  | .array _ | .object _ => true

/-- `value.key`, for a key that no object inherits; there may be no such field. -/
def field (key : String) : Json → Option Json
  | .object fields => fields.lookup key
  | .scalar _ | .array _ => none

/-- The code units of a string, with those that are characters. -/
def units (s : String) : List (Option Char) :=
  s.toList.flatMap fun c ↦ if c.val < 0x10000 then [some c] else [none, none]

/-- `value[i]` -/
def element (i : Nat) : Json → Option Json
  | .array items => items[i]?
  | .object fields => fields.lookup (toString i)
  | .scalar (.string s) => (units s)[i]?.join.map fun c ↦ .scalar (.string c.toString)
  | .scalar _ => none

/-- What a loop over `value || []` goes through; some values are not iterable. -/
def iterate : Option Json → Option (List Json)
  | none => some []
  | some value =>
    if value.truthy then
      match value with
      | .array items => some items
      | .scalar (.string s) => some (s.toList.map fun c ↦ .scalar (.string c.toString))
      | .scalar _ | .object _ => none
    else some []

/-- Whether two values that were read apart are equal. -/
def same : Json → Json → Bool
  | .scalar s, .scalar t => s = t
  | _, _ => false

end Json

end Shellius.Lib
