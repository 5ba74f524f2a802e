/-!
# `TypeTraits.Text.CodePoint`: characters in ranges

Properties of Unicode are tables of ranges of code points. `isWithin` looks a
character up in one.
-/

set_option autoImplicit false

namespace TypeTraits.Text

/-- Whether the code point of the character lies in one of the ranges, ends included. -/
def isWithin (ranges : List (Nat × Nat)) (c : Char) : Bool :=
  ranges.any fun r => r.1 ≤ c.toNat && c.toNat ≤ r.2

end TypeTraits.Text
