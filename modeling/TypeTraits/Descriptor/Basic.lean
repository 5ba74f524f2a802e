import TypeTraits.Qualifiers
import TypeTraits.Scalar

/-!
# `TypeTraits.Descriptor.Basic`: the structure of a type

A `Descriptor` is the structure of one type: what it is built from, level by
level, with the qualifiers of each level that can have some. References and
functions have no qualifiers of their own, so their constructors carry none
and qualifying them changes nothing.

The qualifiers of an array are those of its elements. They are kept at the
array, and `Descriptor.arrayElement` hands them back to the element.

Two descriptors are the same type exactly when they are equal; equality is
decidable (`Descriptor.beq_iff`).
-/

set_option autoImplicit false

namespace TypeTraits

/-- A declared class or union. -/
structure ClassType where
  name : String
  isUnion : Bool
deriving DecidableEq, Repr, Inhabited

/-- A declared enumeration. -/
structure EnumType where
  name : String
  isScoped : Bool
  underlying : Scalar
deriving DecidableEq, Repr, Inhabited

/-- The structure of a type. -/
inductive Descriptor where
  | void (quals : Qualifiers)
  | nullPointer (quals : Qualifiers)
  | scalar (kind : Scalar) (quals : Qualifiers)
  | classType (decl : ClassType) (quals : Qualifiers)
  | enumType (decl : EnumType) (quals : Qualifiers)
  | pointer (pointee : Descriptor) (quals : Qualifiers)
  | memberPointer (owner : ClassType) (pointee : Descriptor) (quals : Qualifiers)
  | array (element : Descriptor) (bound : Option Nat) (quals : Qualifiers)
  | lvalueRef (referent : Descriptor)
  | rvalueRef (referent : Descriptor)
  | function (result : Descriptor) (params : List Descriptor) (isVariadic : Bool)
deriving Repr, Inhabited

namespace Descriptor

/-! ### Equality -/

mutual

/-- Whether two descriptors are the same type. -/
def beq : Descriptor → Descriptor → Bool
  | void q, void q' => q == q'
  | nullPointer q, nullPointer q' => q == q'
  | scalar k q, scalar k' q' => k == k' && q == q'
  | classType c q, classType c' q' => c == c' && q == q'
  | enumType e q, enumType e' q' => e == e' && q == q'
  | pointer t q, pointer t' q' => beq t t' && q == q'
  | memberPointer c t q, memberPointer c' t' q' => c == c' && beq t t' && q == q'
  | array t n q, array t' n' q' => beq t t' && n == n' && q == q'
  | lvalueRef t, lvalueRef t' => beq t t'
  | rvalueRef t, rvalueRef t' => beq t t'
  | function r ps v, function r' ps' v' => beq r r' && beqList ps ps' && v == v'
  | _, _ => false

/-- Whether two lists hold the same types in the same order. -/
def beqList : List Descriptor → List Descriptor → Bool
  | [], [] => true
  | t :: ts, t' :: ts' => beq t t' && beqList ts ts'
  | _, _ => false

end

mutual

/-- The test for equality tells types apart exactly. -/
theorem beq_iff : ∀ t t' : Descriptor, beq t t' = true ↔ t = t'
  | void _, t' | nullPointer _, t' | scalar _ _, t' | classType _ _, t' | enumType _ _, t' => by
    cases t' <;> simp [beq]
  | pointer t _, t' => by cases t' <;> simp [beq, beq_iff t]
  | memberPointer _ t _, t' => by cases t' <;> simp [beq, beq_iff t, and_assoc]
  | array t _ _, t' => by cases t' <;> simp [beq, beq_iff t, and_assoc]
  | lvalueRef t, t' => by cases t' <;> simp [beq, beq_iff t]
  | rvalueRef t, t' => by cases t' <;> simp [beq, beq_iff t]
  | function r ps _, t' => by
    cases t' <;> simp [beq, beq_iff r, beqList_iff ps, and_assoc]

/-- It does so for each type of a list. -/
theorem beqList_iff : ∀ ts ts' : List Descriptor, beqList ts ts' = true ↔ ts = ts'
  | [], ts' => by cases ts' <;> simp [beqList]
  | t :: ts, ts' => by cases ts' <;> simp [beqList, beq_iff t, beqList_iff ts]

end

instance : DecidableEq Descriptor := fun t t' => decidable_of_iff _ (beq_iff t t')

/-! ### Leaves -/

/-- The `int` type. -/
def int : Descriptor := scalar .int .none

/-- The class of a name. -/
def ofClass (name : String) : Descriptor := classType ⟨name, false⟩ .none

/-- The union of a name. -/
def ofUnion (name : String) : Descriptor := classType ⟨name, true⟩ .none

/-! ### Qualifiers -/

/-- The qualifiers of the outermost level. -/
def qualifiers : Descriptor → Qualifiers
  | void q | nullPointer q | scalar _ q | classType _ q | enumType _ q | pointer _ q
  | memberPointer _ _ q | array _ _ q => q
  | lvalueRef _ | rvalueRef _ | function _ _ _ => .none

/-- The type with exactly the given outermost qualifiers, where it can have some. -/
def withQualifiers (q : Qualifiers) : Descriptor → Descriptor
  | void _ => void q
  | nullPointer _ => nullPointer q
  | scalar k _ => scalar k q
  | classType c _ => classType c q
  | enumType e _ => enumType e q
  | pointer t _ => pointer t q
  | memberPointer c t _ => memberPointer c t q
  | array t n _ => array t n q
  | lvalueRef t => lvalueRef t
  | rvalueRef t => rvalueRef t
  | function r ps v => function r ps v

/-- The type with further outermost qualifiers, where it can have some. -/
def qualified (q : Qualifiers) (t : Descriptor) : Descriptor :=
  t.withQualifiers (t.qualifiers.union q)

/-- The type without outermost qualifiers. -/
def unqualified (t : Descriptor) : Descriptor := t.withQualifiers .none

/-- Giving a type the qualifiers that it has changes nothing. -/
@[simp] theorem withQualifiers_qualifiers (t : Descriptor) :
    t.withQualifiers t.qualifiers = t := by
  cases t <;> rfl

/-- Of two ways to set the outermost qualifiers, the last one counts. -/
@[simp] theorem withQualifiers_withQualifiers (q r : Qualifiers) (t : Descriptor) :
    (t.withQualifiers q).withQualifiers r = t.withQualifiers r := by
  cases t <;> rfl

/-- No qualifiers add nothing. -/
@[simp] theorem qualified_none (t : Descriptor) : t.qualified .none = t := by
  simp [qualified]

/-! ### Arrays -/

/-- The element type of an array, with the array's qualifiers; nothing for other types. -/
def arrayElement : Descriptor → Option Descriptor
  | array t _ q => some (t.qualified q)
  | _ => none

/-- The number of array dimensions. -/
def rank : Descriptor → Nat
  | array t _ _ => t.rank + 1
  | _ => 0

/-- The bound of a dimension, the outermost being dimension 0. It is 0 where the
bound is unknown and where there is no such dimension. -/
def extent : Descriptor → Nat → Nat
  | array _ n _, 0 => n.getD 0
  | array t _ _, i + 1 => t.extent i
  | _, _ => 0

end Descriptor

end TypeTraits
