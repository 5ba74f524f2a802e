import TypeTraits.Decision
import TypeTraits.Descriptor.Spelling

/-!
# `TypeTraits.Query.Value`: what a query comes to

A query has a boolean, a size or a type as its value. Booleans and sizes are
conditions: a size is true when it is not zero. A type is no condition.
-/

set_option autoImplicit false

namespace TypeTraits

/-- The value of a query. -/
inductive Value where
  | bool (b : Bool)
  | size (n : Nat)
  | type (t : Descriptor)
deriving DecidableEq, Repr

namespace Value

instance : Truth Value :=
  ⟨fun
    | bool b => b
    | size n => n != 0
    | type _ => false⟩

/-- The value as a query prints it. -/
def text : Value → String
  | bool b => toString b
  | size n => toString n
  | type t => t.spelling

/-- The value together with its kind. -/
def describe : Value → String
  | bool b => "boolean `" ++ toString b ++ "`"
  | size n => "size `" ++ toString n ++ "`"
  | type t => "type `" ++ t.spelling ++ "`"

end Value

end TypeTraits
