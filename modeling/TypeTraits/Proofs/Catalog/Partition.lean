import TypeTraits.Catalog.Standard
import TypeTraits.Proofs.Catalog.Layers
import TypeTraits.Proofs.Descriptor.Categories

/-!
# `TypeTraits.Proofs.Catalog.Partition`: every type is in one category

The outermost level of a type puts it into one of fourteen categories
(`Descriptor.primaryCategory`), and the predicate of a category asks for that one
(`PrimaryCategory.holds_iff`). So exactly one of the fourteen predicates holds of a type, although
three of them are not read off the level alone: `isFunction` tries what `const` does to the
type, and the two on member pointers ask `isFunction` about the member.

The composite predicates are coarser divisions of the same kind. None of them sees the qualifiers
of the level, because no primary category does and a formula over predicates that do not see
them does not see them either (`Descriptor.IgnoresQualifiers`).

`categories_cover_once` is the main theorem.
-/

set_option autoImplicit false

namespace TypeTraits

/-- One of the categories into which the outermost level divides the types. -/
inductive PrimaryCategory where
  | void
  | nullPointer
  | integral
  | floatingPoint
  | array
  | pointer
  | lvalueReference
  | rvalueReference
  | memberObjectPointer
  | memberFunctionPointer
  | enum
  | union
  | classType
  | function
deriving DecidableEq, Repr

namespace PrimaryCategory

/-- Every category, each once. -/
def all : List PrimaryCategory :=
  [void, nullPointer, integral, floatingPoint, array, pointer, lvalueReference, rvalueReference,
    memberObjectPointer, memberFunctionPointer, enum, union, classType, function]

/-- The list has every category. -/
theorem mem_all (c : PrimaryCategory) : c ∈ all := by
  cases c <;> decide

/-- The list has no category twice. -/
theorem nodup_all : all.Nodup := by
  decide

/-- The predicate of the category. -/
def holds : PrimaryCategory → Descriptor → Bool
  | void => Descriptor.isVoid
  | nullPointer => Descriptor.isNullPointer
  | integral => Descriptor.isIntegral
  | floatingPoint => Descriptor.isFloatingPoint
  | array => Descriptor.isArray
  | pointer => Descriptor.isPointer
  | lvalueReference => Descriptor.isLvalueReference
  | rvalueReference => Descriptor.isRvalueReference
  | memberObjectPointer => Descriptor.isMemberObjectPointer
  | memberFunctionPointer => Descriptor.isMemberFunctionPointer
  | enum => Descriptor.isEnum
  | union => Descriptor.isUnion
  | classType => Descriptor.isClass
  | function => Descriptor.isFunction

end PrimaryCategory

namespace Descriptor

/-! ### Primary categories -/

/-- The category of the outermost level. -/
def primaryCategory : Descriptor → PrimaryCategory
  | void _ => .void
  | nullPointer _ => .nullPointer
  | scalar k _ => if k.isFloatingPoint then .floatingPoint else .integral
  | classType c _ => if c.isUnion then .union else .classType
  | enumType _ _ => .enum
  | pointer _ _ => .pointer
  | memberPointer _ t _ => if t.isFunction then .memberFunctionPointer else .memberObjectPointer
  | array _ _ _ => .array
  | lvalueRef _ => .lvalueReference
  | rvalueRef _ => .rvalueReference
  | function _ _ _ => .function

/-- The category of a type does not depend on its qualifiers. -/
theorem primaryCategory_withQualifiers (t : Descriptor) (q : Qualifiers) :
    (t.withQualifiers q).primaryCategory = t.primaryCategory := by
  cases t <;> rfl

end Descriptor

open Descriptor

namespace PrimaryCategory

variable {c : PrimaryCategory} {t : Descriptor}

/-! ### The predicates of the categories -/

/-- A type answers to the predicate of its own category. -/
theorem holds_primaryCategory (t : Descriptor) : t.primaryCategory.holds t = true := by
  cases t with
  | scalar k q =>
    cases hk : k.isFloatingPoint <;>
      simp [primaryCategory, hk, holds, isFloatingPoint, isIntegral, Scalar.isIntegral]
  | classType decl q =>
    cases hu : decl.isUnion <;> simp [primaryCategory, hu, holds, isUnion, isClass]
  | memberPointer owner s q =>
    cases hf : s.isFunction <;>
      simp [primaryCategory, hf, holds, isMemberObjectPointer, isMemberFunctionPointer,
        isMemberPointer]
  | function r ps v => exact isFunction_function r ps v
  | _ => rfl

/-- It answers to the predicate of no other category. -/
theorem primaryCategory_eq_of_holds (h : c.holds t = true) : t.primaryCategory = c := by
  cases c with
  | void | nullPointer | array | pointer | lvalueReference | rvalueReference | enum =>
    -- These are read off the constructor alone.
    cases t <;> first | rfl | cases h
  | integral =>
    cases t with
    | scalar k q => exact if_neg (by simpa [holds, isIntegral, Scalar.isIntegral] using h)
    | _ => cases h
  | floatingPoint =>
    cases t with
    | scalar k q => exact if_pos h
    | _ => cases h
  | union =>
    cases t with
    | classType decl q => exact if_pos h
    | _ => cases h
  | classType =>
    cases t with
    | classType decl q => exact if_neg (by simpa [holds, isClass] using h)
    | _ => cases h
  | memberFunctionPointer =>
    cases t with
    | memberPointer owner s q => exact if_pos h
    | _ => cases h
  | memberObjectPointer =>
    cases t with
    | memberPointer owner s q =>
      exact if_neg (by
        simpa [holds, isMemberObjectPointer, isMemberPointer, isMemberFunctionPointer] using h)
    | _ => cases h
  | function =>
    obtain ⟨r, ps, v, rfl⟩ := isFunction_iff.mp h
    rfl

/-- The predicate of a category holds of the types that are in it. -/
theorem holds_iff : c.holds t = true ↔ t.primaryCategory = c := by
  constructor
  · exact primaryCategory_eq_of_holds
  · rintro rfl
    exact holds_primaryCategory t

/-- One category holds of every type, and only one. -/
theorem countP_holds (t : Descriptor) : (all.map holds).countP (· t) = 1 := by
  have hcount : (all.map holds).countP (· t) = all.count t.primaryCategory := by
    rw [List.countP_map, List.count]
    refine List.countP_congr fun c _ => ?_
    rw [Function.comp_apply, holds_iff, beq_iff_eq, eq_comm]
  rw [hcount, List.count_eq_one_of_mem nodup_all (mem_all _)]

end PrimaryCategory

namespace Descriptor

variable {p p' : Descriptor → Bool}

/-! ### Coarser divisions -/

/-- Objects, functions, references and `void` are four kinds of types, and there is no other. -/
theorem countP_isObject_isFunction_isReference_isVoid (t : Descriptor) :
    [isObject, isFunction, isReference, isVoid].countP (· t) = 1 := by
  have hobject : t.isObject = (!t.isVoid && !t.isFunction && !t.isReference) := by
    rw [Bool.eq_iff_iff, isObject_iff]
    simp [and_assoc]
  cases hf : t.isFunction with
  | true =>
    obtain ⟨hv, hr⟩ := isVoid_and_isReference_of_isFunction hf
    simp [hobject, hf, hv, hr]
  | false =>
    cases hr : t.isReference with
    | true => simp [hobject, hf, hr, isVoid_of_isReference hr]
    | false => cases hv : t.isVoid <;> simp [hobject, hf, hr, hv]

/-- Every type is either fundamental or compound. -/
theorem countP_isFundamental_isCompound (t : Descriptor) :
    [isFundamental, isCompound].countP (· t) = 1 := by
  cases h : t.isFundamental <;> simp [isCompound, h]

/-- Only numbers have a sign. -/
theorem isArithmetic_of_isSigned {t : Descriptor} (h : t.isSigned = true) :
    t.isArithmetic = true := by
  cases t with
  | scalar k q => simp [isArithmetic, isIntegral, isFloatingPoint, Scalar.isIntegral]
  | _ => cases h

/-- The arithmetic types are signed or unsigned. -/
theorem isSigned_or_isUnsigned_iff {t : Descriptor} :
    t.isSigned = true ∨ t.isUnsigned = true ↔ t.isArithmetic = true := by
  cases hs : t.isSigned with
  | true => simp [isArithmetic_of_isSigned hs]
  | false => simp [isUnsigned, hs]

/-! ### Predicates that do not see qualifiers -/

/-- The answer of the predicate does not depend on the qualifiers of the outermost level. -/
def IgnoresQualifiers (p : Descriptor → Bool) : Prop :=
  ∀ (t : Descriptor) (q : Qualifiers), p (t.withQualifiers q) = p t

/-- If neither of two predicates sees qualifiers, then their disjunction sees none. -/
theorem IgnoresQualifiers.or (h : IgnoresQualifiers p) (h' : IgnoresQualifiers p') :
    IgnoresQualifiers fun t => p t || p' t :=
  fun t q => congrArg₂ (· || ·) (h t q) (h' t q)

/-- Nor does their conjunction. -/
theorem IgnoresQualifiers.and (h : IgnoresQualifiers p) (h' : IgnoresQualifiers p') :
    IgnoresQualifiers fun t => p t && p' t :=
  fun t q => congrArg₂ (· && ·) (h t q) (h' t q)

/-- Nor does the negation of one. -/
theorem IgnoresQualifiers.not (h : IgnoresQualifiers p) : IgnoresQualifiers fun t => !p t :=
  fun t q => congrArg (!·) (h t q)

/-- Whether a type is in a category does not depend on its qualifiers. -/
theorem ignoresQualifiers_holds (c : PrimaryCategory) : IgnoresQualifiers c.holds := by
  intro t q
  rw [Bool.eq_iff_iff, c.holds_iff, c.holds_iff, primaryCategory_withQualifiers]

/-- Nor does whether it is a pointer to a member, of either kind. -/
theorem ignoresQualifiers_isMemberPointer : IgnoresQualifiers isMemberPointer := fun t q => by
  cases t <;> rfl

/-- Nor does whether it is arithmetic. -/
theorem ignoresQualifiers_isArithmetic : IgnoresQualifiers isArithmetic :=
  (ignoresQualifiers_holds .integral).or (ignoresQualifiers_holds .floatingPoint)

/-- Nor does whether it is fundamental. -/
theorem ignoresQualifiers_isFundamental : IgnoresQualifiers isFundamental :=
  (ignoresQualifiers_isArithmetic.or (ignoresQualifiers_holds .void)).or
    (ignoresQualifiers_holds .nullPointer)

/-- Nor does whether it is scalar. -/
theorem ignoresQualifiers_isScalar : IgnoresQualifiers isScalar :=
  (((ignoresQualifiers_isArithmetic.or (ignoresQualifiers_holds .enum)).or
    (ignoresQualifiers_holds .pointer)).or ignoresQualifiers_isMemberPointer).or
    (ignoresQualifiers_holds .nullPointer)

/-- Nor does whether it is an object type. -/
theorem ignoresQualifiers_isObject : IgnoresQualifiers isObject :=
  ((ignoresQualifiers_isScalar.or (ignoresQualifiers_holds .array)).or
    (ignoresQualifiers_holds .union)).or (ignoresQualifiers_holds .classType)

/-- Nor does whether it has a sign. -/
theorem ignoresQualifiers_isSigned : IgnoresQualifiers isSigned := fun t q => by
  cases t <;> rfl

/-- Nor does whether references to it can be formed. -/
theorem ignoresQualifiers_isReferenceable : IgnoresQualifiers isReferenceable := fun t q => by
  cases t <;> rfl

/-- Nor does whether it is an array with a bound. -/
theorem ignoresQualifiers_isBoundedArray : IgnoresQualifiers isBoundedArray := fun t q => by
  cases t <;> rfl

/-- Nor does whether it is a scoped enumeration. -/
theorem ignoresQualifiers_isScopedEnum : IgnoresQualifiers isScopedEnum := fun t q => by
  cases t <;> rfl

end Descriptor

namespace Catalog

/-- Of the definitions, only the two that ask for a qualifier see any. -/
theorem ignoresQualifiers_of_mem_standardDefinitions :
    ∀ d ∈ standardDefinitions, d.name ≠ "is_const" → d.name ≠ "is_volatile" →
      IgnoresQualifiers d.holds := by
  simp only [standardDefinitions, List.forall_mem_cons]
  -- One definition after the other; the two that are excepted have a hypothesis against them.
  refine ⟨fun _ _ => ignoresQualifiers_holds .void,
    fun _ _ => ignoresQualifiers_holds .nullPointer,
    fun _ _ => ignoresQualifiers_holds .integral,
    fun _ _ => ignoresQualifiers_holds .floatingPoint,
    fun _ _ => ignoresQualifiers_holds .array,
    fun _ _ => ignoresQualifiers_holds .pointer,
    fun _ _ => ignoresQualifiers_holds .lvalueReference,
    fun _ _ => ignoresQualifiers_holds .rvalueReference,
    fun _ _ => ignoresQualifiers_holds .enum,
    fun _ _ => ignoresQualifiers_holds .union,
    fun _ _ => ignoresQualifiers_holds .classType,
    fun _ _ => ignoresQualifiers_isMemberPointer,
    fun hconst _ => absurd rfl hconst,
    fun _ hvolatile => absurd rfl hvolatile,
    fun _ _ => ignoresQualifiers_holds .function,
    fun _ _ => ignoresQualifiers_holds .memberFunctionPointer,
    fun _ _ => ignoresQualifiers_holds .memberObjectPointer,
    fun _ _ => isReference_withQualifiers,
    fun _ _ => ignoresQualifiers_isArithmetic,
    fun _ _ => ignoresQualifiers_isFundamental,
    fun _ _ => ignoresQualifiers_isScalar,
    fun _ _ => ignoresQualifiers_isObject,
    fun _ _ => ignoresQualifiers_isFundamental.not,
    fun _ _ => ignoresQualifiers_isSigned,
    fun _ _ => ignoresQualifiers_isArithmetic.and ignoresQualifiers_isSigned.not,
    fun _ _ => ignoresQualifiers_isBoundedArray,
    fun _ _ => isUnboundedArray_withQualifiers,
    fun _ _ => ignoresQualifiers_isScopedEnum,
    fun _ _ => ignoresQualifiers_isReferenceable,
    fun _ h => nomatch h⟩

/-- A checked predicate answers as its definition does. -/
theorem exists_definition_of_mem_standard {p : Predicate} (hp : p ∈ standard.predicates) :
    ∃ d ∈ standardDefinitions, p.name = d.name ∧ p.holds = d.holds := by
  obtain ⟨hlayered, hstandard⟩ := ofDefinitions_eq_ok_iff.mp ofDefinitions_standard
  obtain ⟨layer, -, hassign⟩ := exists_isLayering hlayered
  rw [hstandard, hassign] at hp
  obtain ⟨d, hd, rfl⟩ := List.mem_map.mp hp
  exact ⟨d, hd, rfl, rfl⟩

/-- Every type is in one category, whether the fourteen primary ones are asked for, the kinds of
types that they belong to, or whether the type is built in. The arithmetic types are divided once
more, into the signed and the unsigned ones. Only `is_const` and `is_volatile` see the
qualifiers of the type. -/
theorem categories_cover_once (t : Descriptor) :
    [isVoid, isNullPointer, isIntegral, isFloatingPoint, isArray, isPointer, isLvalueReference,
      isRvalueReference, isMemberObjectPointer, isMemberFunctionPointer, isEnum, isUnion, isClass,
      isFunction].countP (· t) = 1 ∧
    [isObject, isFunction, isReference, isVoid].countP (· t) = 1 ∧
    [isFundamental, isCompound].countP (· t) = 1 ∧
    (¬ (t.isSigned = true ∧ t.isUnsigned = true) ∧
      (t.isSigned = true ∨ t.isUnsigned = true ↔ t.isArithmetic = true)) ∧
    ∀ q, ∀ p ∈ standard.predicates, p.name ≠ "is_const" → p.name ≠ "is_volatile" →
      p.holds (t.qualified q) = p.holds t := by
  refine ⟨PrimaryCategory.countP_holds t, countP_isObject_isFunction_isReference_isVoid t,
    countP_isFundamental_isCompound t, ⟨?_, isSigned_or_isUnsigned_iff⟩, ?_⟩
  · rintro ⟨hs, hu⟩
    simp [isUnsigned, hs] at hu
  · intro q p hp hconst hvolatile
    -- A predicate is checked as its definition, since layers have no part in it.
    obtain ⟨d, hd, hname, hholds⟩ := exists_definition_of_mem_standard hp
    rw [hname] at hconst hvolatile
    rw [hholds, qualified]
    exact ignoresQualifiers_of_mem_standardDefinitions d hd hconst hvolatile t _

end Catalog

end TypeTraits
