import TypeTraits.Attempt
import TypeTraits.Descriptor.Category

/-!
# `TypeTraits.Transformation`: functions from types to types

The unary transformations. Each is defined on every type: where the type that
it stands for cannot be formed, it gives back the type it was given.
`Transformation.all` lists them under their names, in the order in which reports show
them, and `Transformation.find?` looks one up.
-/

set_option autoImplicit false

namespace TypeTraits

namespace Descriptor

/-! ### Qualifiers -/

/-- The type without the given outermost qualifiers. -/
def strip (q : Qualifiers) (t : Descriptor) : Descriptor :=
  t.withQualifiers (t.qualifiers.without q)

/-- The type without outermost `const`. -/
def removeConst (t : Descriptor) : Descriptor := t.strip .const

/-- The type without outermost `volatile`. -/
def removeVolatile (t : Descriptor) : Descriptor := t.strip .volatile

/-- The type without outermost qualifiers. -/
def removeCv (t : Descriptor) : Descriptor := t.strip .cv

/-- The type with outermost `const`, where it can have it. -/
def addConst (t : Descriptor) : Descriptor := t.qualified .const

/-- The type with outermost `volatile`, where it can have it. -/
def addVolatile (t : Descriptor) : Descriptor := t.qualified .volatile

/-- The type with both outermost qualifiers, where it can have them. -/
def addCv (t : Descriptor) : Descriptor := t.qualified .cv

/-! ### References -/

/-- The type that a reference refers to; any other type itself. -/
def removeReference : Descriptor → Descriptor
  | lvalueRef t | rvalueRef t => t
  | t => t

/-- The lvalue reference to the type, or the type where there is none. -/
def addLvalueReference (t : Descriptor) : Descriptor := Attempt.orIdentity t.lvalueRefTo t

/-- The rvalue reference to the type, or the type where there is none. -/
def addRvalueReference (t : Descriptor) : Descriptor := Attempt.orIdentity t.rvalueRefTo t

/-! ### Arrays -/

/-- The element type of an array, its outermost dimension gone; any other type itself. -/
def removeExtent (t : Descriptor) : Descriptor := t.arrayElement.getD t

/-- The type inside all array dimensions, with the further qualifiers of the
dimensions passed so far. -/
def innermostElement (extra : Qualifiers) : Descriptor → Descriptor
  | array t _ q => t.innermostElement (q.union extra)
  | t => t.qualified extra

/-- The element type inside all array dimensions; a type that is no array itself. -/
def removeAllExtents (t : Descriptor) : Descriptor := t.innermostElement .none

/-! ### Pointers -/

/-- The type that a pointer points to; any other type itself. -/
def removePointer : Descriptor → Descriptor
  | pointer t _ => t
  | t => t

/-- The pointer to the type, any reference removed first. -/
def addPointer (t : Descriptor) : Descriptor := Attempt.orIdentity t.removeReference.pointerTo t

/-! ### Passing by value -/

/-- The type without reference and then without outermost qualifiers. -/
def removeCvref (t : Descriptor) : Descriptor := t.removeReference.removeCv

/-- The type of an argument passed by value: arrays and functions become pointers,
any other type loses reference and outermost qualifiers. -/
def decay (t : Descriptor) : Descriptor :=
  let value := t.removeReference
  -- Only one dimension goes: an array of arrays becomes a pointer to an array.
  if value.isArray then value.removeExtent.addPointer
  else if value.isFunction then value.addPointer
  else value.removeCv

/-- The type itself. -/
def typeIdentity (t : Descriptor) : Descriptor := t

/-! ### Signs -/

/-- The signed counterpart, or the type where there is none. -/
def makeSigned (t : Descriptor) : Descriptor := Attempt.orIdentity t.signedOf t

/-- The unsigned counterpart, or the type where there is none. -/
def makeUnsigned (t : Descriptor) : Descriptor := Attempt.orIdentity t.unsignedOf t

/-- The type that an enumeration is stored as; any other type itself. -/
def underlyingType (t : Descriptor) : Descriptor := Attempt.orIdentity t.underlyingOf t

end Descriptor

/-- A named function from types to types. -/
structure Transformation where
  name : String
  apply : Descriptor → Descriptor

namespace Transformation

/-- The transformations in the order of reports. -/
def all : List Transformation :=
  [⟨"remove_const", .removeConst⟩,
    ⟨"remove_volatile", .removeVolatile⟩,
    ⟨"remove_cv", .removeCv⟩,
    ⟨"add_const", .addConst⟩,
    ⟨"add_volatile", .addVolatile⟩,
    ⟨"add_cv", .addCv⟩,
    ⟨"remove_reference", .removeReference⟩,
    ⟨"add_lvalue_reference", .addLvalueReference⟩,
    ⟨"add_rvalue_reference", .addRvalueReference⟩,
    ⟨"remove_extent", .removeExtent⟩,
    ⟨"remove_all_extents", .removeAllExtents⟩,
    ⟨"remove_pointer", .removePointer⟩,
    ⟨"add_pointer", .addPointer⟩,
    ⟨"remove_cvref", .removeCvref⟩,
    ⟨"decay", .decay⟩,
    ⟨"type_identity", .typeIdentity⟩,
    ⟨"make_signed", .makeSigned⟩,
    ⟨"make_unsigned", .makeUnsigned⟩,
    ⟨"underlying_type", .underlyingType⟩]

/-- The transformation of a name. -/
def find? (name : String) : Option Transformation := all.find? (·.name == name)

end Transformation

end TypeTraits
