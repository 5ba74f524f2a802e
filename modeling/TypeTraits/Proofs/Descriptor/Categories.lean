import TypeTraits.Proofs.Descriptor.Parameters

/-!
# `TypeTraits.Proofs.Descriptor.Categories`: categories and what can be formed

Formation refuses a type by its shape, and the predicates on types are formulas that are built up
from the primary categories, one of which is not read off the shape at all. The two say the
same about types: `formation_succeeds_iff` gives for each way to form a type the predicates
that hold exactly where it succeeds.

What both agree on is the division of types into `void`, functions, references and the
rest, which are the types of objects (`isObject_iff`).
-/

set_option autoImplicit false

namespace TypeTraits.Descriptor

section
variable {t : Descriptor}

/-! ### Objects, functions, references and `void` -/

/-- The types of objects are those that are neither `void` nor functions nor references. -/
theorem isObject_iff : t.isObject = true ↔
    t.isVoid = false ∧ t.isFunction = false ∧ t.isReference = false := by
  cases t with
  | function r ps v =>
    simp [isObject, isScalar, isArithmetic, isIntegral, isFloatingPoint, isEnum, isPointer,
      isMemberPointer, isNullPointer, isArray, isUnion, isClass]
  | _ =>
    rw [isFunction_eq_false (by simp)]
    simp [isObject, isScalar, isArithmetic, isIntegral, isFloatingPoint, isEnum, isPointer,
      isMemberPointer, isNullPointer, isArray, isUnion, isClass, isVoid, isReference,
      isLvalueReference, isRvalueReference, Scalar.isIntegral]

/-- A function is neither `void` nor a reference. -/
theorem isVoid_and_isReference_of_isFunction (h : t.isFunction = true) :
    t.isVoid = false ∧ t.isReference = false := by
  obtain ⟨r, ps, v, rfl⟩ := isFunction_iff.mp h
  exact ⟨rfl, rfl⟩

/-- A reference is not `void`. -/
theorem isVoid_of_isReference (h : t.isReference = true) : t.isVoid = false := by
  cases t with
  | lvalueRef s | rvalueRef s => rfl
  | _ => exact nomatch h

/-- A member is an object or a function. -/
theorem isObject_or_isFunction_iff : t.isObject = true ∨ t.isFunction = true ↔
    t.isVoid = false ∧ t.isReference = false := by
  rw [isObject_iff]
  constructor
  · rintro (⟨hv, -, hr⟩ | hf)
    · exact ⟨hv, hr⟩
    · exact isVoid_and_isReference_of_isFunction hf
  · rintro ⟨hv, hr⟩
    cases hf : t.isFunction with
    | true => exact .inr rfl
    | false => exact .inl ⟨hv, rfl, hr⟩

/-- What is not `void` is an object, a function or a reference. -/
theorem isVoid_eq_false_iff : t.isVoid = false ↔
    t.isObject = true ∨ t.isFunction = true ∨ t.isReference = true := by
  rw [← or_assoc, isObject_or_isFunction_iff]
  constructor
  · intro hv
    cases hr : t.isReference with
    | true => exact .inr rfl
    | false => exact .inl ⟨hv, rfl⟩
  · rintro (⟨hv, -⟩ | hr)
    · exact hv
    · exact isVoid_of_isReference hr

/-- Classes and unions are the class types of the model. -/
theorem isClass_or_isUnion_iff :
    t.isClass = true ∨ t.isUnion = true ↔ ∃ c q, t = classType c q := by
  cases t with
  | classType c q => cases hu : c.isUnion <;> simp [isClass, isUnion, hu]
  | _ => simp [isClass, isUnion]

/-! ### Where formation succeeds -/

/-- Pointers are formed of everything but references. -/
theorem isOk_pointerTo_iff : t.pointerTo.isOk = true ↔ t.isReference = false := by
  simp only [except_isOk_iff, pointerTo_eq_ok_iff, exists_and_left, exists_eq, and_true]

/-- Lvalue references are formed of everything but `void`. -/
theorem isOk_lvalueRefTo_iff : t.lvalueRefTo.isOk = true ↔ t.isVoid = false := by
  simp only [except_isOk_iff, lvalueRefTo_eq_ok_iff, exists_and_left, exists_eq, and_true]

/-- So are rvalue references. -/
theorem isOk_rvalueRefTo_iff : t.rvalueRefTo.isOk = true ↔ t.isVoid = false := by
  simp only [except_isOk_iff, rvalueRefTo_eq_ok_iff, exists_and_left, exists_eq, and_true]

/-- Arrays are formed of objects whose size is known. -/
theorem isOk_arrayOf_iff {n : Option Nat} : (t.arrayOf n).isOk = true ↔
    t.isObject = true ∧ t.isUnboundedArray = false ∧ n ≠ some 0 := by
  simp only [except_isOk_iff, arrayOf_eq_ok_iff, exists_and_left, exists_eq, and_true,
    isElement_iff, isObject_iff, and_assoc]

/-- Functions are formed of canonical parameters none of which is `void`. -/
theorem isOk_functionOf_iff {ps : List Descriptor} {v : Bool} (hps : ∀ p ∈ ps, p.IsCanonical) :
    (t.functionOf ps v).isOk = true ↔
      (t.isArray = false ∧ t.isFunction = false) ∧ ∀ p ∈ ps, p.isVoid = false := by
  have hvoid : (∀ p ∈ ps, p.isVoid = false) ↔ ps.find? isVoid = none := by
    simp only [List.find?_eq_none, Bool.not_eq_true]
  rw [except_isOk_iff, hvoid]
  constructor
  · rintro ⟨u, hu⟩
    -- Only then `void` among the parameters is what is left to refuse.
    obtain ⟨ha, hf, -⟩ := functionOf_eq_ok_iff.mp hu
    rw [functionOf_eq_of_forall_isCanonical ha hf hps] at hu
    cases hfind : ps.find? isVoid with
    | none => exact ⟨⟨ha, hf⟩, rfl⟩
    | some p =>
      rw [hfind] at hu
      exact nomatch hu
  · rintro ⟨⟨ha, hf⟩, hfind⟩
    rw [functionOf_eq_of_forall_isCanonical ha hf hps, hfind]
    exact ⟨_, rfl⟩

/-- Member pointers are formed of a class or union and of objects or functions. -/
theorem isOk_memberPointerTo_iff {c : Descriptor} : (c.memberPointerTo t).isOk = true ↔
    (c.isClass = true ∨ c.isUnion = true) ∧ (t.isObject = true ∨ t.isFunction = true) := by
  rw [except_isOk_iff, isClass_or_isUnion_iff, isObject_or_isFunction_iff]
  simp only [memberPointerTo_eq_ok_iff]
  constructor
  · rintro ⟨_, c, q, rfl, hv, hr, -⟩
    exact ⟨⟨c, q, rfl⟩, hv, hr⟩
  · rintro ⟨⟨c, q, rfl⟩, hv, hr⟩
    exact ⟨_, c, q, rfl, hv, hr, rfl⟩

/-- Each way to form a type succeeds exactly where the predicates say so: pointers to all that is
no reference; references to objects, functions and references, which is all that is not `void`;
arrays of objects, but not of arrays of unknown bound, and of any bound but 0; functions that
return neither an array nor a function and take no `void`; and pointers to members of
classes and unions that are objects or functions. -/
theorem formation_succeeds_iff {ps : List Descriptor} (hps : ∀ p ∈ ps, p.IsCanonical)
    (c t : Descriptor) (n : Option Nat) (v : Bool) :
    (t.pointerTo.isOk = true ↔ t.isReference = false) ∧
    ((t.lvalueRefTo.isOk = true ↔ t.isVoid = false) ∧
      (t.rvalueRefTo.isOk = true ↔ t.isVoid = false) ∧
      (t.isReferenceable = true ↔ t.isVoid = false) ∧
      (t.isVoid = false ↔ t.isObject = true ∨ t.isFunction = true ∨ t.isReference = true)) ∧
    ((t.arrayOf n).isOk = true ↔ t.isObject = true ∧ t.isUnboundedArray = false ∧ n ≠ some 0) ∧
    ((t.functionOf ps v).isOk = true ↔
      (t.isArray = false ∧ t.isFunction = false) ∧ ∀ p ∈ ps, p.isVoid = false) ∧
    ((c.memberPointerTo t).isOk = true ↔
      (c.isClass = true ∨ c.isUnion = true) ∧ (t.isObject = true ∨ t.isFunction = true)) :=
  ⟨isOk_pointerTo_iff,
    ⟨isOk_lvalueRefTo_iff, isOk_rvalueRefTo_iff, isOk_lvalueRefTo_iff, isVoid_eq_false_iff⟩,
    isOk_arrayOf_iff, isOk_functionOf_iff hps, isOk_memberPointerTo_iff⟩

end

/-- An array of unknown bound can be pointed to, referred to and the member of a union. There is no
array of it, and no function that returns it; one that returns `void` may take a reference
to it and an array. -/
theorem formation_succeeds_iff_of_flexible_member :
    let t := array int none .const
    let ps := [lvalueRef t, array int (some 2) .volatile]
    let owner := classType ⟨"packet", true⟩ .volatile
    (∀ p ∈ ps, p.IsCanonical) ∧ t.pointerTo.isOk = true ∧ t.isReferenceable = true ∧
      (owner.memberPointerTo t).isOk = true ∧ (t.arrayOf (some 2)).isOk = false ∧
      (t.functionOf ps false).isOk = false ∧ ((void .cv).functionOf ps false).isOk = true := by
  intro t ps owner
  have hps : ∀ p ∈ ps, p.IsCanonical := by decide +kernel
  obtain ⟨hpointer, ⟨-, -, href, -⟩, harray, hreturn, hmember⟩ :=
    formation_succeeds_iff hps owner t (some 2) false
  obtain ⟨-, -, -, hfunction, -⟩ := formation_succeeds_iff hps owner (void .cv) none false
  -- An array without a bound is neither an element nor a result.
  have hnoArray : (t.arrayOf (some 2)).isOk ≠ true := fun h => nomatch (harray.mp h).2.1
  have hnoReturn : (t.functionOf ps false).isOk ≠ true := fun h => nomatch (hreturn.mp h).1.1
  exact ⟨hps, hpointer.mpr rfl, href.mpr rfl, hmember.mpr ⟨.inr rfl, .inl rfl⟩,
    Bool.eq_false_iff.mpr hnoArray, Bool.eq_false_iff.mpr hnoReturn,
    hfunction.mpr ⟨⟨rfl, by decide⟩, by decide⟩⟩

end TypeTraits.Descriptor
