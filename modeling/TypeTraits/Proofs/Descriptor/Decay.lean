import TypeTraits.Proofs.Descriptor.Dimensions
import TypeTraits.Proofs.Descriptor.Parameters

/-!
# `TypeTraits.Proofs.Descriptor.Decay`: passing by value is a projection

What is passed by value is of a type that is neither array nor function nor reference and has no
outermost qualifiers (`Descriptor.IsValueType`). `Descriptor.decay` takes every canonical type to
such a type and leaves those that are such types alone, so a second decay finds nothing to do. It
looks through references first, and so it cannot tell how a type is referred to
(`decay_eq_of_removeReference_eq`).

`decay_is_projection` is the main theorem. Arrays are its one case in which qualifiers count:
those of an array are the ones of its elements, and the pointer that is left of the
array points to an element that has them.
-/

set_option autoImplicit false

namespace TypeTraits.Descriptor

/-- Whether values of the type are passed as they are. -/
structure IsValueType (t : Descriptor) : Prop where
  isArray : t.isArray = false
  isFunction : t.isFunction = false
  isReference : t.isReference = false
  qualifiers : t.qualifiers = .none

section
variable {t u : Descriptor}

/-! ### Value types -/

/-- Unqualified pointers are value types. -/
theorem isValueType_pointer (t : Descriptor) : (pointer t .none).IsValueType where
  isArray := rfl
  isFunction := isFunction_eq_false (by simp)
  isReference := rfl
  qualifiers := rfl

/-- So is, without its qualifiers, every type that is neither array nor function nor reference. -/
theorem isValueType_unqualified (ha : t.isArray = false) (hf : t.isFunction = false)
    (hr : t.isReference = false) : t.unqualified.IsValueType where
  isArray := by rw [unqualified, isArray_withQualifiers, ha]
  isFunction := by rw [unqualified, isFunction_withQualifiers, hf]
  isReference := by rw [unqualified, isReference_withQualifiers, hr]
  qualifiers := qualifiers_unqualified t

/-- Value types do not decay. -/
theorem IsValueType.decay_eq_self (h : t.IsValueType) : t.decay = t := by
  rw [decay_eq_unqualified h.isReference h.isArray h.isFunction, unqualified, ← h.qualifiers,
    withQualifiers_qualifiers]

/-! ### What is left of arrays, functions and other types -/

/-- Of a reference to an array, as of an array, a pointer to the element is left. -/
theorem IsCanonical.decay_of_isArray (h : t.IsCanonical) (ha : t.removeReference.isArray = true) :
    t.decay = pointer t.removeReference.removeExtent .none := by
  obtain ⟨s, n, q, hs⟩ := isArray_iff.mp ha
  have harray : (array s n q).IsCanonical := hs ▸ h.removeReference
  have helement : (s.qualified q).isReference = false := by
    rw [qualified, isReference_withQualifiers, harray.level.2.2.2.1]
  show (if t.removeReference.isArray then t.removeReference.removeExtent.addPointer else _) = _
  rw [if_pos ha, hs]
  exact addPointer_of_not_isReference helement

/-- What a canonical type decays to is a value type. -/
theorem IsCanonical.isValueType_decay (h : t.IsCanonical) : t.decay.IsValueType := by
  have hr : t.removeReference.isReference = false := h.isReference_removeReference
  -- An array and a function become pointers, and other types lose their qualifiers.
  cases ha : t.removeReference.isArray with
  | true =>
    rw [h.decay_of_isArray ha]
    exact isValueType_pointer _
  | false =>
    cases hf : t.removeReference.isFunction with
    | true =>
      have hdecay : t.decay = t.removeReference.addPointer := by simp [Descriptor.decay, ha, hf]
      rw [hdecay, addPointer_of_not_isReference hr]
      exact isValueType_pointer _
    | false =>
      have hdecay : t.decay = t.removeReference.unqualified := by
        simp [Descriptor.decay, ha, hf, removeCv_eq_unqualified]
      rw [hdecay]
      exact isValueType_unqualified ha hf hr

/-- Types that are left alone are value types. -/
theorem IsCanonical.decay_eq_self_iff (h : t.IsCanonical) : t.decay = t ↔ t.IsValueType := by
  constructor
  · intro ht
    rw [← ht]
    exact h.isValueType_decay
  · exact IsValueType.decay_eq_self

/-! ### References and qualifiers -/

/-- Only what is behind a reference decays. -/
theorem decay_eq_of_removeReference_eq (h : t.removeReference = u.removeReference) :
    t.decay = u.decay := by
  simp only [decay, h]

/-- There are no references to `void`. -/
theorem addReference_of_isVoid (hv : t.isVoid = true) :
    t.addLvalueReference = t ∧ t.addRvalueReference = t := by
  obtain ⟨q, rfl⟩ := isVoid_iff.mp hv
  exact ⟨rfl, rfl⟩

/-- The lvalue reference to a type takes the place of a reference that it is. -/
theorem addLvalueReference_eq (hv : t.isVoid = false) :
    t.addLvalueReference = lvalueRef t.removeReference := by
  rw [addLvalueReference, lvalueRefTo_eq_ok_iff.mpr ⟨hv, rfl⟩]
  rfl

/-- The rvalue reference to a type leaves references as they are. -/
theorem addRvalueReference_eq (hv : t.isVoid = false) :
    t.addRvalueReference = if t.isReference then t else rvalueRef t := by
  rw [addRvalueReference, rvalueRefTo_eq_ok_iff.mpr ⟨hv, rfl⟩]
  rfl

/-- Adding an lvalue reference does not change what is referred to. -/
theorem removeReference_addLvalueReference (t : Descriptor) :
    t.addLvalueReference.removeReference = t.removeReference := by
  cases hv : t.isVoid with
  | true => rw [(addReference_of_isVoid hv).1]
  | false =>
    rw [addLvalueReference_eq hv]
    rfl

/-- Nor does adding an rvalue reference. -/
theorem removeReference_addRvalueReference (t : Descriptor) :
    t.addRvalueReference.removeReference = t.removeReference := by
  cases hv : t.isVoid with
  | true => rw [(addReference_of_isVoid hv).2]
  | false =>
    rw [addRvalueReference_eq hv]
    cases hr : t.isReference with
    | true => rfl
    | false => exact (removeReference_eq_self hr).symm

/-- Apart from arrays, a type decays without regard to its qualifiers. -/
theorem decay_withQualifiers (ha : t.isArray = false) (q : Qualifiers) :
    (t.withQualifiers q).decay = t.decay := by
  by_cases h : t.isFunction = true ∨ t.isReference = true
  · rw [withQualifiers_eq_self h]
  · simp only [not_or, Bool.not_eq_true] at h
    obtain ⟨hf, hr⟩ := h
    rw [decay_eq_unqualified hr ha hf, decay_eq_unqualified (by simpa) (by simpa) (by simpa),
      unqualified_withQualifiers]

/-- Decay projects the canonical types onto the value types. It does not see references, however
they are removed or added, nor qualifiers, except those of arrays. Of an array, or of a
reference to it, a pointer to the element is left, and the element has the array's
qualifiers. -/
theorem decay_is_projection (h : t.IsCanonical) :
    (t.decay.isArray = false ∧ t.decay.isFunction = false ∧ t.decay.isReference = false ∧
      t.decay.qualifiers = .none) ∧
    (t.decay.decay = t.decay ∧ (t.decay = t ↔ t.IsValueType)) ∧
    (t.removeReference.decay = t.decay ∧ t.addLvalueReference.decay = t.decay ∧
      t.addRvalueReference.decay = t.decay) ∧
    (t.isArray = false → ∀ q, (t.withQualifiers q).decay = t.decay ∧
      (t.qualified q).decay = t.decay ∧ (t.strip q).decay = t.decay) ∧
    (t.removeReference.isArray = true →
      t.decay.removePointer = t.removeReference.removeExtent ∧
        t.decay.removePointer.qualifiers = t.removeReference.qualifiers) := by
  have hvalue := h.isValueType_decay
  refine ⟨⟨hvalue.isArray, hvalue.isFunction, hvalue.isReference, hvalue.qualifiers⟩,
    ⟨hvalue.decay_eq_self, h.decay_eq_self_iff⟩, ⟨?_, ?_, ?_⟩, ?_, ?_⟩
  -- References go first, so types with the same type behind them decay alike.
  · exact decay_eq_of_removeReference_eq (removeReference_eq_self h.isReference_removeReference)
  · exact decay_eq_of_removeReference_eq (removeReference_addLvalueReference t)
  · exact decay_eq_of_removeReference_eq (removeReference_addRvalueReference t)
  -- Qualifiers go last, but those of an array are on its elements by then.
  · intro ha q
    exact ⟨decay_withQualifiers ha _, decay_withQualifiers ha _, decay_withQualifiers ha _⟩
  · intro ha
    rw [h.decay_of_isArray ha]
    exact ⟨rfl, h.removeReference.qualifiers_removeExtent⟩

end

/-- A reference to a table of constant numbers decays to the pointer to its first row, whose
numbers are constant. -/
theorem decay_is_projection_of_table :
    let row (q : Qualifiers) := array int (some 3) q
    let t := rvalueRef (array (row .none) none .const)
    t.IsCanonical ∧ t.decay.removePointer = row .const ∧ t.decay.decay = t.decay ∧
      t.addLvalueReference.decay = t.decay ∧
      (∀ q, (t.withQualifiers q).decay = t.decay) := by
  intro row t
  have h : t.IsCanonical := by decide +kernel
  obtain ⟨-, ⟨htwice, -⟩, ⟨-, hlvalue, -⟩, hquals, harray⟩ := decay_is_projection h
  exact ⟨h, (harray rfl).1, htwice, hlvalue, fun q => (hquals rfl q).1⟩

end TypeTraits.Descriptor
