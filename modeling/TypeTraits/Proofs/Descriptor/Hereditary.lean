import TypeTraits.Proofs.Descriptor.Formation
import TypeTraits.Proofs.Descriptor.Levels

/-!
# `TypeTraits.Proofs.Descriptor.Hereditary`: what transformations keep

A transformation takes a type apart, forms a pointer or a reference, changes the outermost
qualifiers, or gives an arithmetic type. A property of types that all of these keep is
hereditary (`Descriptor.Hereditary`), and so every listed transformation keeps it
(`Descriptor.Hereditary.apply`).
-/

set_option autoImplicit false

namespace TypeTraits.Descriptor

/-- Arithmetic types have the property, and it passes from a type to its parts and to what is
formed from it. -/
structure Hereditary (P : Descriptor → Prop) : Prop where
  scalar : ∀ k q, P (scalar k q)
  withQualifiers : ∀ {t : Descriptor} (q : Qualifiers), P t → P (t.withQualifiers q)
  removeReference : ∀ {t : Descriptor}, P t → P t.removeReference
  removePointer : ∀ {t : Descriptor}, P t → P t.removePointer
  element : ∀ {t : Descriptor} {n : Option Nat} {q : Qualifiers}, P (array t n q) → P t
  pointerTo : ∀ {t u : Descriptor}, P t → t.pointerTo = .ok u → P u
  lvalueRefTo : ∀ {t u : Descriptor}, P t → t.lvalueRefTo = .ok u → P u
  rvalueRefTo : ∀ {t u : Descriptor}, P t → t.rvalueRefTo = .ok u → P u

/-- An attempt that falls back to a type ends in it, or in what it was to come to. -/
theorem forall_orIdentity {P : Descriptor → Prop} {a : Attempt Descriptor} {t : Descriptor}
    (h : P t) (ha : ∀ u, a = .ok u → P u) : P (Attempt.orIdentity a t) := by
  cases a with
  | ok u => exact ha u rfl
  | error e => exact h

namespace Hereditary

variable {P : Descriptor → Prop} {t : Descriptor} (hP : Hereditary P)
include hP

/-- Adding qualifiers keeps it. -/
theorem qualified (h : P t) (q : Qualifiers) : P (t.qualified q) := hP.withQualifiers _ h

/-- Taking the element of an array keeps it. The array's qualifiers are added to the element. -/
theorem removeExtent (h : P t) : P t.removeExtent := by
  cases t with
  | array t n q => exact hP.qualified (hP.element h) q
  | _ => exact h

/-- Taking the innermost element keeps it, whatever qualifiers are collected on the way. -/
theorem innermostElement (h : P t) (q : Qualifiers) : P (t.innermostElement q) := by
  induction t generalizing q with
  | array t n r ih => exact ih (hP.element h) _
  | _ => exact hP.qualified h q

/-- Adding a pointer keeps it, whether there is a reference to take off or not. -/
theorem addPointer (h : P t) : P t.addPointer :=
  forall_orIdentity h fun _ hu => hP.pointerTo (hP.removeReference h) hu

/-- Decay keeps it, for arrays, functions and all other types. -/
theorem decay (h : P t) : P t.decay := by
  unfold Descriptor.decay
  simp only
  -- Arrays become pointers to their elements, functions pointers to themselves.
  split
  · exact hP.addPointer (hP.removeExtent (hP.removeReference h))
  · split
    · exact hP.addPointer (hP.removeReference h)
    · exact hP.withQualifiers _ (hP.removeReference h)

/-- Every transformation keeps a hereditary property. -/
theorem apply {f : Transformation} (hf : f ∈ Transformation.all) (h : P t) : P (f.apply t) := by
  -- Types with other signs are arithmetic, and so is the type that an enumeration is stored as.
  have signs : ∀ u, t.signedOf = .ok u ∨ t.unsignedOf = .ok u → P u := by
    intro u hu
    obtain ⟨k, rfl⟩ := exists_eq_scalar_of_signs hu
    exact hP.scalar k _
  simp only [Transformation.all, List.mem_cons, List.not_mem_nil, or_false] at hf
  -- One goal a listed transformation, in the order of the list.
  rcases hf with rfl | rfl | rfl | rfl | rfl | rfl | rfl | rfl | rfl | rfl | rfl | rfl | rfl |
    rfl | rfl | rfl | rfl | rfl | rfl
  iterate 6 exact hP.withQualifiers _ h
  · exact hP.removeReference h
  · exact forall_orIdentity h fun _ hu => hP.lvalueRefTo h hu
  · exact forall_orIdentity h fun _ hu => hP.rvalueRefTo h hu
  · exact hP.removeExtent h
  · exact hP.innermostElement h .none
  · exact hP.removePointer h
  · exact hP.addPointer h
  · exact hP.withQualifiers _ (hP.removeReference h)
  · exact hP.decay h
  · exact h
  · exact forall_orIdentity h fun u hu => signs u (.inl hu)
  · exact forall_orIdentity h fun u hu => signs u (.inr hu)
  · refine forall_orIdentity h fun u hu => ?_
    obtain ⟨e, q, -, rfl⟩ := underlyingOf_eq_ok_iff.mp hu
    exact hP.scalar _ _

end Hereditary

end TypeTraits.Descriptor
