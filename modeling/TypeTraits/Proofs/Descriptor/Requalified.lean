import TypeTraits.Proofs.Descriptor.Dimensions

/-!
# `TypeTraits.Proofs.Descriptor.Requalified`: changes of qualifiers

A `QualifierChange` is one of the six transformations that add or remove outermost
qualifiers. Made one after the other, they come to one exchange of the qualifiers of the
outermost level, for what the same changes make of the set of qualifiers
(`QualifierChange.applyEach_eq`). Functions and references have no qualifiers to exchange.

An array has the qualifiers of its element, so it does not matter whether the array is
changed or its element: changes pass through the formation of an array and through both ways
to take dimensions off, in both directions. This is `QualifierChange.applyEach_through_arrays`.
-/

set_option autoImplicit false

namespace TypeTraits

/-- A transformation that adds or removes outermost qualifiers. -/
inductive QualifierChange where
  | removeConst
  | removeVolatile
  | removeCv
  | addConst
  | addVolatile
  | addCv
deriving DecidableEq, Repr

namespace QualifierChange

/-- What the change makes of a type. -/
def apply : QualifierChange → Descriptor → Descriptor
  | removeConst => Descriptor.removeConst
  | removeVolatile => Descriptor.removeVolatile
  | removeCv => Descriptor.removeCv
  | addConst => Descriptor.addConst
  | addVolatile => Descriptor.addVolatile
  | addCv => Descriptor.addCv

/-- What the change makes of a set of qualifiers. -/
def onQualifiers : QualifierChange → Qualifiers → Qualifiers
  | removeConst, q => q.without .const
  | removeVolatile, q => q.without .volatile
  | removeCv, q => q.without .cv
  | addConst, q => q.union .const
  | addVolatile, q => q.union .volatile
  | addCv, q => q.union .cv

/-- What changes make of a type, the first one first. -/
def applyEach (cs : List QualifierChange) (t : Descriptor) : Descriptor :=
  cs.foldl (fun t c => c.apply t) t

/-- What changes make of a set of qualifiers, the first one first. -/
def onQualifiersEach (cs : List QualifierChange) (q : Qualifiers) : Qualifiers :=
  cs.foldl (fun q c => c.onQualifiers q) q

end QualifierChange

namespace Descriptor

variable {t : Descriptor}

/-! ### Arrays and an exchange of qualifiers -/

/-- The array of an element is formed with the qualifiers that the element has. -/
theorem arrayOf_withQualifiers {n : Option Nat} {a : Descriptor} (h : t.arrayOf n = .ok a)
    (q : Qualifiers) : (t.withQualifiers q).arrayOf n = .ok (a.withQualifiers q) := by
  obtain ⟨he, hn, rfl⟩ := arrayOf_eq_ok_iff.mp h
  obtain ⟨hv, hf, hr, hu⟩ := isElement_iff.mp he
  have he' : (t.withQualifiers q).isElement = true :=
    isElement_iff.mpr (by simp [hv, hf, hr, hu])
  refine arrayOf_eq_ok_iff.mpr ⟨he', hn, ?_⟩
  rw [unqualified_withQualifiers, qualifiers_withQualifiers hf hr]
  rfl

/-- An array has the qualifiers of the element that it is formed of. -/
theorem qualifiers_of_arrayOf {n : Option Nat} {a : Descriptor} (h : t.arrayOf n = .ok a) :
    a.qualifiers = t.qualifiers := by
  obtain ⟨-, -, rfl⟩ := arrayOf_eq_ok_iff.mp h
  rfl

/-- The element of a canonical array gets the qualifiers that the array is given. -/
theorem IsCanonical.removeExtent_withQualifiers (h : t.IsCanonical) (q : Qualifiers) :
    (t.withQualifiers q).removeExtent = t.removeExtent.withQualifiers q := by
  cases t with
  | array s n r =>
    have hs : s.qualifiers = .none := h.level.1
    show s.withQualifiers (s.qualifiers.union q) = (s.withQualifiers _).withQualifiers q
    rw [hs, Qualifiers.none_union, withQualifiers_withQualifiers]
  | _ => rfl

/-- So does the innermost element. -/
theorem IsCanonical.removeAllExtents_withQualifiers (h : t.IsCanonical) (q : Qualifiers) :
    (t.withQualifiers q).removeAllExtents = t.removeAllExtents.withQualifiers q := by
  induction t using dimension_induction with
  | base t ha =>
    rw [removeAllExtents_eq_self ha, removeAllExtents_eq_self (by rwa [isArray_withQualifiers])]
  | step t ha ih =>
    rw [← removeAllExtents_removeExtent, h.removeExtent_withQualifiers, ih h.removeExtent,
      removeAllExtents_removeExtent]

/-- Through all dimensions, the innermost element of a canonical type has the type's qualifiers. -/
theorem IsCanonical.qualifiers_removeAllExtents (h : t.IsCanonical) :
    t.removeAllExtents.qualifiers = t.qualifiers := by
  induction t using dimension_induction with
  | base t ha => rw [removeAllExtents_eq_self ha]
  | step t ha ih =>
    rw [← removeAllExtents_removeExtent, ih h.removeExtent, h.qualifiers_removeExtent]

end Descriptor

namespace QualifierChange

open Descriptor

variable (cs : List QualifierChange) {t : Descriptor}

/-! ### Sequences of changes -/

/-- A change gives a type other qualifiers and leaves the rest of it alone. -/
theorem apply_eq (c : QualifierChange) (t : Descriptor) :
    c.apply t = t.withQualifiers (c.onQualifiers t.qualifiers) := by
  cases c <;> rfl

/-- Changes come to one exchange of the outermost qualifiers. -/
theorem applyEach_eq (t : Descriptor) :
    applyEach cs t = t.withQualifiers (onQualifiersEach cs t.qualifiers) := by
  induction cs generalizing t with
  | nil => exact (withQualifiers_qualifiers t).symm
  | cons c cs ih =>
    show applyEach cs (c.apply t) = t.withQualifiers (onQualifiersEach cs (c.onQualifiers _))
    rw [ih, apply_eq, withQualifiers_withQualifiers]
    -- The next change finds what this one has made, unless there are no qualifiers at all.
    by_cases h : t.isFunction = true ∨ t.isReference = true
    · rw [withQualifiers_eq_self h, withQualifiers_eq_self h]
    · simp only [not_or, Bool.not_eq_true] at h
      rw [qualifiers_withQualifiers h.1 h.2]

/-- Changes pass through what hands the qualifiers on. -/
theorem applyEach_through {f : Descriptor → Descriptor}
    (hf : ∀ q, f (t.withQualifiers q) = (f t).withQualifiers q)
    (hq : (f t).qualifiers = t.qualifiers) : f (applyEach cs t) = applyEach cs (f t) := by
  rw [applyEach_eq, hf, applyEach_eq, hq]

/-- Changes of qualifiers leave everything else of a type alone. They make of its qualifiers what
they make of sets, and nothing of functions and references, which have none. To change an array
or its element is the same, whether an array is formed of the element, or one dimension is
taken off, or all of them. -/
theorem applyEach_through_arrays (h : t.IsCanonical) :
    (applyEach cs t).unqualified = t.unqualified ∧
    (t.isFunction = false → t.isReference = false →
      (applyEach cs t).qualifiers = onQualifiersEach cs t.qualifiers) ∧
    (t.isFunction = true ∨ t.isReference = true → applyEach cs t = t) ∧
    (∀ n a, t.arrayOf n = .ok a → (applyEach cs t).arrayOf n = .ok (applyEach cs a)) ∧
    (applyEach cs t).removeExtent = applyEach cs t.removeExtent ∧
    (applyEach cs t).removeAllExtents = applyEach cs t.removeAllExtents := by
  -- All steps together replace the qualifiers once (`applyEach_eq`).
  refine ⟨?_, ?_, ?_, ?_, ?_, ?_⟩
  · rw [applyEach_eq, unqualified_withQualifiers]
  · intro hf hr
    rw [applyEach_eq, qualifiers_withQualifiers hf hr]
  · intro hnone
    rw [applyEach_eq, withQualifiers_eq_self hnone]
  · intro n a ha
    rw [applyEach_eq, applyEach_eq, qualifiers_of_arrayOf ha]
    exact arrayOf_withQualifiers ha _
  · exact applyEach_through cs h.removeExtent_withQualifiers h.qualifiers_removeExtent
  · exact applyEach_through cs h.removeAllExtents_withQualifiers h.qualifiers_removeAllExtents

/-- A table of constant pointers loses `const` and gets `volatile`, and so do its rows, its
entries, and the table of unknown length that is formed of its rows. -/
theorem applyEach_through_arrays_of_table :
    let cs := [addCv, removeVolatile, removeConst, addVolatile]
    let row (q : Qualifiers) := array (pointer int .none) (some 3) q
    let table (q : Qualifiers) := array (row .none) (some 2) q
    (table .const).IsCanonical ∧ applyEach cs (table .const) = table .volatile ∧
      (applyEach cs (table .const)).removeExtent = applyEach cs (row .const) ∧
      (applyEach cs (table .const)).removeAllExtents = applyEach cs (pointer int .const) ∧
      (applyEach cs (row .const)).arrayOf none =
        .ok (applyEach cs (array (row .none) none .const)) := by
  intro cs row table
  have htable : (table .const).IsCanonical := by decide +kernel
  have hrow : (row .const).IsCanonical := by decide +kernel
  obtain ⟨-, -, -, -, hextent, hextents⟩ := applyEach_through_arrays cs htable
  obtain ⟨-, -, -, harray, -⟩ := applyEach_through_arrays cs hrow
  exact ⟨htable, rfl, hextent, hextents, harray none _ rfl⟩

end QualifierChange

end TypeTraits
