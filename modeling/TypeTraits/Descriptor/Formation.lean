import TypeTraits.Descriptor.Basic

/-!
# `TypeTraits.Descriptor.Formation`: which types can be formed

Each way to build a compound type is a function that may refuse. A refusal is
an `IllFormed` value that holds the offending type, and `IllFormed.on` gives it
back. Formation puts descriptors into canonical shape:

* references collapse: a reference to a reference is one reference
  (`lvalueRefTo`, `rvalueRefTo`);
* an array takes over the qualifiers of its element (`arrayOf`);
* function parameters are adjusted: an array becomes a pointer to its element,
  a function a pointer to itself, and qualifiers are dropped
  (`adjustParameter`).
-/

set_option autoImplicit false

namespace TypeTraits

/-- Why a type cannot be formed. -/
inductive IllFormed where
  /-- There are no references to `void`. -/
  | referenceTo (t : Descriptor)
  /-- There are no pointers to references. -/
  | pointerToReference (t : Descriptor)
  /-- The type cannot be an array element. -/
  | arrayOf (t : Descriptor)
  /-- An array holds at least one element. -/
  | zeroBound
  /-- The type cannot be returned from a function. -/
  | functionReturning (t : Descriptor)
  /-- The type cannot be a parameter. -/
  | invalidParameter (t : Descriptor)
  /-- A class or union is needed. -/
  | notAClass (t : Descriptor)
  /-- The type cannot be a member. -/
  | memberPointerTo (t : Descriptor)
  /-- An integral or enumeration type is needed. -/
  | notIntegral (t : Descriptor)
  /-- An enumeration is needed. -/
  | notAnEnum (t : Descriptor)
  /-- The condition of a gate is false. -/
  | disabled
deriving DecidableEq, Repr

/-- The type that a refusal is about, where there is one. -/
def IllFormed.on : IllFormed → Option Descriptor
  | referenceTo t | pointerToReference t | arrayOf t | functionReturning t | invalidParameter t
  | notAClass t | memberPointerTo t | notIntegral t | notAnEnum t => some t
  | zeroBound | disabled => none

namespace Descriptor

/-- The pointer to a type. -/
def pointerTo : Descriptor → Except IllFormed Descriptor
  | t@(lvalueRef _) | t@(rvalueRef _) => .error (.pointerToReference t)
  | t => .ok (pointer t .none)

/-- The lvalue reference to a type; of a reference, to what it refers to. -/
def lvalueRefTo : Descriptor → Except IllFormed Descriptor
  | t@(void _) => .error (.referenceTo t)
  | lvalueRef t | rvalueRef t => .ok (lvalueRef t)
  | t => .ok (lvalueRef t)

/-- The rvalue reference to a type; a reference stays as it is. -/
def rvalueRefTo : Descriptor → Except IllFormed Descriptor
  | t@(void _) => .error (.referenceTo t)
  | t@(lvalueRef _) | t@(rvalueRef _) => .ok t
  | t => .ok (rvalueRef t)

/-- Whether objects of the type can lie side by side in an array. -/
def isElement : Descriptor → Bool
  | void _ | function _ _ _ | lvalueRef _ | rvalueRef _ | array _ none _ => false
  | _ => true

/-- The array of a type, of a known bound or not. The type is looked at before the bound. -/
def arrayOf (t : Descriptor) (bound : Option Nat) : Except IllFormed Descriptor :=
  if !t.isElement then .error (.arrayOf t)
  else if bound = some 0 then .error .zeroBound
  -- The qualifiers of the element are those of the array.
  else .ok (array t.unqualified bound t.qualifiers)

/-- The type that a function takes for a parameter written with the given type. -/
def adjustParameter : Descriptor → Except IllFormed Descriptor
  | t@(void _) => .error (.invalidParameter t)
  | array t _ q => (t.qualified q).pointerTo
  | t@(function _ _ _) => t.pointerTo
  | t => .ok t.unqualified

/-- The function type of a result, parameters and an optional `...`. The result is
looked at first, then the parameters from the left. -/
def functionOf (result : Descriptor) (params : List Descriptor) (isVariadic : Bool) :
    Except IllFormed Descriptor :=
  match result with
  | array _ _ _ | function _ _ _ => .error (.functionReturning result)
  | _ => do return function result (← params.mapM adjustParameter) isVariadic

/-- The pointer to a member of a class or union. -/
def memberPointerTo (owner pointee : Descriptor) : Except IllFormed Descriptor :=
  match owner, pointee with
  | classType _ _, void _ | classType _ _, lvalueRef _ | classType _ _, rvalueRef _ =>
    .error (.memberPointerTo pointee)
  | classType c _, _ => .ok (memberPointer c pointee .none)
  | _, _ => .error (.notAClass owner)

/-- The signed counterpart of an integral or enumeration type, with its qualifiers. -/
def signedOf (t : Descriptor) : Except IllFormed Descriptor :=
  let kind := match t with
    | scalar k _ => k.toSigned
    | enumType e _ => Scalar.signedOfSize e.underlying.size
    | _ => none
  match kind with
  | some k => .ok (scalar k t.qualifiers)
  | none => .error (.notIntegral t)

/-- The unsigned counterpart of an integral or enumeration type, with its qualifiers. -/
def unsignedOf (t : Descriptor) : Except IllFormed Descriptor :=
  let kind := match t with
    | scalar k _ => k.toUnsigned
    -- By way of the signed type of the same size.
    | enumType e _ => (Scalar.signedOfSize e.underlying.size).bind Scalar.toUnsigned
    | _ => none
  match kind with
  | some k => .ok (scalar k t.qualifiers)
  | none => .error (.notIntegral t)

/-- The integral type that an enumeration is stored as. -/
def underlyingOf : Descriptor → Except IllFormed Descriptor
  | enumType e _ => .ok (scalar e.underlying .none)
  | t => .error (.notAnEnum t)

end Descriptor

end TypeTraits
