import TypeTraits.Proofs.Support.Except
import TypeTraits.Transformation

/-!
# `TypeTraits.Proofs.Descriptor.Formation`: when a type is formed, and which

One equation for each way to form a type: it says exactly when the formation
succeeds and what comes out. `pointerTo_eq_ok_iff`, `lvalueRefTo_eq_ok_iff`,
`rvalueRefTo_eq_ok_iff`, `arrayOf_eq_ok_iff`, `functionOf_eq_ok_iff`,
`memberPointerTo_eq_ok_iff` and `underlyingOf_eq_ok_iff` are the interface of
`TypeTraits.Descriptor.Formation` to the other proofs, which do not unfold its
functions. The conditions are spoken in the predicates of `TypeTraits.Descriptor.Category`.
-/

set_option autoImplicit false

namespace TypeTraits.Descriptor

/-- The test by qualification recognises the function types. -/
theorem isFunction_iff {t : Descriptor} :
    t.isFunction = true ↔ ∃ r ps v, t = function r ps v := by
  cases t <;> simp [isFunction, isLvalueReference, isRvalueReference, qualified, withQualifiers,
    qualifiers, Qualifiers.union, Qualifiers.const, Qualifiers.none]

/-- The test says so of a function type. -/
@[simp] theorem isFunction_function (r : Descriptor) (ps : List Descriptor) (v : Bool) :
    (function r ps v).isFunction = true :=
  isFunction_iff.mpr ⟨r, ps, v, rfl⟩

/-- A type of any other shape is no function type. -/
theorem isFunction_eq_false {t : Descriptor} (h : ∀ r ps v, t ≠ function r ps v) :
    t.isFunction = false := by
  rw [← Bool.not_eq_true, isFunction_iff]
  rintro ⟨r, ps, v, rfl⟩
  exact h r ps v rfl

/-- Types that are `void` up to qualifiers. -/
theorem isVoid_iff {t : Descriptor} : t.isVoid = true ↔ ∃ q, t = void q := by
  cases t <;> simp [isVoid]

/-- Types whose outermost level is an array. -/
theorem isArray_iff {t : Descriptor} : t.isArray = true ↔ ∃ s n q, t = array s n q := by
  cases t <;> simp [isArray]

/-! ### Predicates and the outermost qualifiers -/

section
variable (t : Descriptor) (q : Qualifiers)

/-- Whether a type is `void` does not depend on its qualifiers. -/
@[simp] theorem isVoid_withQualifiers : (t.withQualifiers q).isVoid = t.isVoid := by
  cases t <;> rfl

/-- Nor does whether it is an array. -/
@[simp] theorem isArray_withQualifiers : (t.withQualifiers q).isArray = t.isArray := by
  cases t <;> rfl

/-- Nor does whether it is an array of unknown bound. -/
@[simp] theorem isUnboundedArray_withQualifiers :
    (t.withQualifiers q).isUnboundedArray = t.isUnboundedArray := by
  cases t <;> rfl

/-- Nor does whether it is a reference. -/
@[simp] theorem isReference_withQualifiers :
    (t.withQualifiers q).isReference = t.isReference := by
  cases t <;> rfl

/-- Nor does whether it is a function. -/
@[simp] theorem isFunction_withQualifiers :
    (t.withQualifiers q).isFunction = t.isFunction := by
  rw [Bool.eq_iff_iff, isFunction_iff, isFunction_iff]
  cases t <;> simp [withQualifiers]

/-- A type without its qualifiers has none. -/
@[simp] theorem qualifiers_unqualified : t.unqualified.qualifiers = .none := by
  cases t <;> rfl

/-- Which qualifiers are taken off does not matter to what is left. -/
@[simp] theorem unqualified_withQualifiers : (t.withQualifiers q).unqualified = t.unqualified :=
  withQualifiers_withQualifiers q .none t

end

/-- A type that can have qualifiers takes the ones it is given. -/
theorem qualifiers_withQualifiers {t : Descriptor} (hf : t.isFunction = false)
    (hr : t.isReference = false) (q : Qualifiers) : (t.withQualifiers q).qualifiers = q := by
  cases t with
  | lvalueRef t | rvalueRef t => exact nomatch hr
  | function r ps v => simp at hf
  | _ => rfl

/-- Functions and references stay as they are. -/
theorem withQualifiers_eq_self {t : Descriptor} (h : t.isFunction = true ∨ t.isReference = true)
    (q : Qualifiers) : t.withQualifiers q = t := by
  rcases h with hf | hr
  · obtain ⟨r, ps, v, rfl⟩ := isFunction_iff.mp hf
    rfl
  · cases t with
    | lvalueRef t | rvalueRef t => rfl
    | _ => exact nomatch hr

/-! ### Formation -/

variable {t u : Descriptor}

/-- A pointer is formed to everything but references. -/
theorem pointerTo_eq_ok_iff :
    t.pointerTo = .ok u ↔ t.isReference = false ∧ u = pointer t .none := by
  cases t <;>
    simp [pointerTo, isReference, isLvalueReference, isRvalueReference, eq_comm]

/-- An lvalue reference is formed to everything but `void`, to what a reference refers to
where there is one already. -/
theorem lvalueRefTo_eq_ok_iff :
    t.lvalueRefTo = .ok u ↔ t.isVoid = false ∧ u = lvalueRef t.removeReference := by
  cases t <;> simp [lvalueRefTo, isVoid, removeReference, eq_comm]

/-- An rvalue reference is formed to everything but `void`; references stay as they are. -/
theorem rvalueRefTo_eq_ok_iff :
    t.rvalueRefTo = .ok u ↔
      t.isVoid = false ∧ u = if t.isReference then t else rvalueRef t := by
  cases t <;>
    simp [rvalueRefTo, isVoid, isReference, isLvalueReference, isRvalueReference, eq_comm]

/-- Types that can lie side by side: no `void`, no functions, no references and nothing of unknown
length. -/
theorem isElement_iff :
    t.isElement = true ↔ t.isVoid = false ∧ t.isFunction = false ∧ t.isReference = false ∧
      t.isUnboundedArray = false := by
  cases t with
  | function r ps v => simp [isElement]
  | array e n q =>
    rw [isFunction_eq_false (by simp)]
    cases n <;> simp [isElement, isVoid, isReference, isLvalueReference, isRvalueReference,
      isUnboundedArray]
  | _ =>
    rw [isFunction_eq_false (by simp)]
    simp [isElement, isVoid, isReference, isLvalueReference, isRvalueReference, isUnboundedArray]

/-- An array is formed of the types that can lie side by side, unless its bound is zero. -/
theorem arrayOf_eq_ok_iff {n : Option Nat} :
    t.arrayOf n = .ok u ↔
      t.isElement = true ∧ n ≠ some 0 ∧ u = array t.unqualified n t.qualifiers := by
  unfold arrayOf
  cases t.isElement with
  | false => simp
  | true =>
    by_cases hn : n = some 0
    · simp [hn]
    · simp [hn, eq_comm]

/-- A function is formed of a result that is neither array nor function and of parameters
that can all be adjusted. -/
theorem functionOf_eq_ok_iff {ps : List Descriptor} {v : Bool} :
    t.functionOf ps v = .ok u ↔ t.isArray = false ∧ t.isFunction = false ∧
      ∃ qs, List.Forall₂ (fun p q => p.adjustParameter = .ok q) ps qs ∧ u = function t qs v := by
  cases t with
  | array e n q => simp [functionOf, isArray]
  | function r qs w => simp [functionOf]
  | _ =>
    rw [isFunction_eq_false (by simp)]
    simp [functionOf, isArray, except_bind_eq_ok, mapM_eq_ok_iff, @eq_comm _ u]

/-- A member pointer is formed of a class or union and of what can be a member. -/
theorem memberPointerTo_eq_ok_iff {s : Descriptor} :
    s.memberPointerTo t = .ok u ↔ ∃ c q, s = classType c q ∧ t.isVoid = false ∧
      t.isReference = false ∧ u = memberPointer c t .none := by
  cases s <;> cases t <;>
    simp [memberPointerTo, isVoid, isReference, isLvalueReference, isRvalueReference, eq_comm]

/-- What an integral or enumeration type has for its signed or unsigned counterpart is an
arithmetic type with the same qualifiers. -/
theorem exists_eq_scalar_of_signs (h : t.signedOf = .ok u ∨ t.unsignedOf = .ok u) :
    ∃ k, u = scalar k t.qualifiers := by
  unfold signedOf unsignedOf at h
  dsimp only at h
  rcases h with h | h <;> split at h
  · exact ⟨_, (Except.ok.inj h).symm⟩
  · cases h
  · exact ⟨_, (Except.ok.inj h).symm⟩
  · cases h

/-- Only enumerations are stored as another type, which is an arithmetic one. -/
theorem underlyingOf_eq_ok_iff :
    t.underlyingOf = .ok u ↔ ∃ e q, t = enumType e q ∧ u = scalar e.underlying .none := by
  cases t <;> simp [underlyingOf, eq_comm]

end TypeTraits.Descriptor
