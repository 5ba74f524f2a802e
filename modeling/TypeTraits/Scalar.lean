/-!
# `TypeTraits.Scalar`: the built-in arithmetic types

The nineteen arithmetic types of the host, with the sizes and signedness of a
64-bit host where `char` and `wchar_t` are signed. `Scalar.toSigned` and
`Scalar.toUnsigned` are the sign changes; the character types that have no
counterpart of their own go by size.
-/

set_option autoImplicit false

namespace TypeTraits

/-- A built-in arithmetic type. -/
inductive Scalar where
  | bool
  | char
  | signedChar
  | unsignedChar
  | wchar
  | char8
  | char16
  | char32
  | short
  | unsignedShort
  | int
  | unsignedInt
  | long
  | unsignedLong
  | longLong
  | unsignedLongLong
  | float
  | double
  | longDouble
deriving DecidableEq, Repr, Inhabited

namespace Scalar

/-- Every arithmetic type, each once. -/
def all : List Scalar :=
  [bool, char, signedChar, unsignedChar, wchar, char8, char16, char32, short, unsignedShort,
    int, unsignedInt, long, unsignedLong, longLong, unsignedLongLong, float, double, longDouble]

/-- The list has every scalar. -/
theorem mem_all (k : Scalar) : k ∈ all := by
  cases k <;> decide

/-- The spelling that is printed. -/
def name : Scalar → String
  | bool => "bool"
  | char => "char"
  | signedChar => "signed char"
  | unsignedChar => "unsigned char"
  | wchar => "wchar_t"
  | char8 => "char8_t"
  | char16 => "char16_t"
  | char32 => "char32_t"
  | short => "short"
  | unsignedShort => "unsigned short"
  | int => "int"
  | unsignedInt => "unsigned int"
  | long => "long"
  | unsignedLong => "unsigned long"
  | longLong => "long long"
  | unsignedLongLong => "unsigned long long"
  | float => "float"
  | double => "double"
  | longDouble => "long double"

/-- Whether the type is a floating-point type. -/
def isFloatingPoint : Scalar → Bool
  | float | double | longDouble => true
  | _ => false

/-- Whether the type is an integral type: all but the floating-point ones. -/
def isIntegral (k : Scalar) : Bool := !k.isFloatingPoint

/-- Whether the type has negative values. -/
def isSigned : Scalar → Bool
  | char | signedChar | wchar | short | int | long | longLong | float | double | longDouble => true
  | _ => false

/-- The size in bytes. -/
def size : Scalar → Nat
  | bool | char | signedChar | unsignedChar | char8 => 1
  | char16 | short | unsignedShort => 2
  | wchar | char32 | int | unsignedInt | float => 4
  | long | unsignedLong | longLong | unsignedLongLong | double => 8
  | longDouble => 16

/-- The smallest standard signed integer type of a size. -/
def signedOfSize (n : Nat) : Option Scalar :=
  [signedChar, short, int, long].find? (·.size == n)

/-- The signed type of the same rank; `bool` and the floating-point types have none. -/
def toSigned : Scalar → Option Scalar
  | bool | float | double | longDouble => none
  | char | signedChar | unsignedChar => some signedChar
  | short | unsignedShort => some short
  | int | unsignedInt => some int
  | long | unsignedLong => some long
  | longLong | unsignedLongLong => some longLong
  | wchar => signedOfSize wchar.size
  | char8 => signedOfSize char8.size
  | char16 => signedOfSize char16.size
  | char32 => signedOfSize char32.size

/-- The unsigned type of the same rank, where there is a signed one. -/
def toUnsigned (k : Scalar) : Option Scalar :=
  k.toSigned.map fun
    | signedChar => unsignedChar
    | short => unsignedShort
    | int => unsignedInt
    | long => unsignedLong
    | _ => unsignedLongLong

end Scalar

end TypeTraits
