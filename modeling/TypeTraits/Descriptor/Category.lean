import TypeTraits.Descriptor.Formation

/-!
# `TypeTraits.Descriptor.Category`: questions about one type

The predicates on types, from the bottom up: the primary categories are read
off the outermost level, the composite categories are formulas over them, and
the properties ask for one more detail of that level. No predicate but
`isConst` and `isVolatile` looks at the qualifiers of the level.
-/

set_option autoImplicit false

namespace TypeTraits.Descriptor

/-! ### Primary categories -/

/-- Whether the type is `void`. -/
def isVoid : Descriptor → Bool
  | void _ => true
  | _ => false

/-- Whether the type is that of the null pointer literal. -/
def isNullPointer : Descriptor → Bool
  | nullPointer _ => true
  | _ => false

/-- Whether the type is an integral type; enumerations are not. -/
def isIntegral : Descriptor → Bool
  | scalar k _ => k.isIntegral
  | _ => false

/-- Whether the type is a floating-point type. -/
def isFloatingPoint : Descriptor → Bool
  | scalar k _ => k.isFloatingPoint
  | _ => false

/-- Whether the type is an array type, of a known bound or not. -/
def isArray : Descriptor → Bool
  | array _ _ _ => true
  | _ => false

/-- Whether the type is a pointer to an object or function; member pointers are not. -/
def isPointer : Descriptor → Bool
  | pointer _ _ => true
  | _ => false

/-- Whether the type is an lvalue reference. -/
def isLvalueReference : Descriptor → Bool
  | lvalueRef _ => true
  | _ => false

/-- Whether the type is an rvalue reference. -/
def isRvalueReference : Descriptor → Bool
  | rvalueRef _ => true
  | _ => false

/-- Whether the type is an enumeration. -/
def isEnum : Descriptor → Bool
  | enumType _ _ => true
  | _ => false

/-- Whether the type is a union. -/
def isUnion : Descriptor → Bool
  | classType c _ => c.isUnion
  | _ => false

/-- Whether the type is a class that is not a union. -/
def isClass : Descriptor → Bool
  | classType c _ => !c.isUnion
  | _ => false

/-- Whether the type is a function type: no reference, and `const` does not stay on it. -/
def isFunction (t : Descriptor) : Bool :=
  !(t.qualified .const).qualifiers.isConst && !t.isLvalueReference && !t.isRvalueReference

/-- Whether the type is a pointer to a member. -/
def isMemberPointer : Descriptor → Bool
  | memberPointer _ _ _ => true
  | _ => false

/-- Whether the type is a pointer to a member function. -/
def isMemberFunctionPointer : Descriptor → Bool
  | memberPointer _ t _ => t.isFunction
  | _ => false

/-- Whether the type is a pointer to a data member. -/
def isMemberObjectPointer (t : Descriptor) : Bool :=
  t.isMemberPointer && !t.isMemberFunctionPointer

/-! ### Composite categories -/

/-- Whether the type is a reference of either kind. -/
def isReference (t : Descriptor) : Bool := t.isLvalueReference || t.isRvalueReference

/-- Whether the type is a built-in number type. -/
def isArithmetic (t : Descriptor) : Bool := t.isIntegral || t.isFloatingPoint

/-- Whether the type is built into the host. -/
def isFundamental (t : Descriptor) : Bool := t.isArithmetic || t.isVoid || t.isNullPointer

/-- Whether the type is a scalar type: arithmetic, enumeration or some kind of pointer. -/
def isScalar (t : Descriptor) : Bool :=
  t.isArithmetic || t.isEnum || t.isPointer || t.isMemberPointer || t.isNullPointer

/-- Whether the type is the type of objects. -/
def isObject (t : Descriptor) : Bool := t.isScalar || t.isArray || t.isUnion || t.isClass

/-- Whether the type is built from other declarations or types. -/
def isCompound (t : Descriptor) : Bool := !t.isFundamental

/-! ### Properties -/

/-- Whether the outermost level is `const`. -/
def isConst (t : Descriptor) : Bool := t.qualifiers.isConst

/-- Whether the outermost level is `volatile`. -/
def isVolatile (t : Descriptor) : Bool := t.qualifiers.isVolatile

/-- Whether the type is arithmetic and has negative values. -/
def isSigned : Descriptor → Bool
  | scalar k _ => k.isSigned
  | _ => false

/-- Whether the type is arithmetic and has no negative values. -/
def isUnsigned (t : Descriptor) : Bool := t.isArithmetic && !t.isSigned

/-- Whether the type is an array type of known bound. -/
def isBoundedArray : Descriptor → Bool
  | array _ n _ => n.isSome
  | _ => false

/-- Whether the type is an array type of unknown bound. -/
def isUnboundedArray : Descriptor → Bool
  | array _ n _ => n.isNone
  | _ => false

/-- Whether the type is an enumeration whose enumerators are scoped. -/
def isScopedEnum : Descriptor → Bool
  | enumType e _ => e.isScoped
  | _ => false

/-- Whether there are references to the type. -/
def isReferenceable (t : Descriptor) : Bool := t.lvalueRefTo.isOk

/-- Whether the type is one of the candidates. -/
def isAnyOf (t : Descriptor) (candidates : List Descriptor) : Bool := candidates.any (t == ·)

end TypeTraits.Descriptor
