/-!
# `TypeTraits.Text.Blank`: white space of Unicode

The characters with the property White_Space, and texts without those at their
ends.
-/

set_option autoImplicit false

namespace TypeTraits.Text

/-- Whether the character is white space. -/
def isWhite (c : Char) : Bool :=
  (0x09 ≤ c.toNat && c.toNat ≤ 0x0d) || (0x2000 ≤ c.toNat && c.toNat ≤ 0x200a) ||
    [0x20, 0x85, 0xa0, 0x1680, 0x2028, 0x2029, 0x202f, 0x205f, 0x3000].contains c.toNat

/-- The text without white space at its ends. -/
def trim (text : String) : String :=
  String.ofList ((text.toList.dropWhile isWhite).reverse.dropWhile isWhite).reverse

end TypeTraits.Text
