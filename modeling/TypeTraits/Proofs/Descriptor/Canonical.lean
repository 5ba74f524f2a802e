import TypeTraits.Proofs.Descriptor.Hereditary

/-!
# `TypeTraits.Proofs.Descriptor.Canonical`: the canonical form of descriptors

A type is canonical (`Descriptor.IsCanonical`) when each of its levels obeys the
rules of `Descriptor.CanonicalLevel`. Two more rules hold by the shape of `Descriptor`
and need no clause: functions and references have no qualifiers, and neither has the
class of a member pointer (`Descriptor.unqualified_of_mem_levels`).

The `isCanonical_*` lemmas read canonical form off a constructor: one rule for the
level, and canonical form of the parts. Every operation on types keeps canonical
form (`IsCanonical.pointerTo` and its companions). So canonical form is hereditary, and
every listed transformation keeps it (`IsCanonical.transformation`).
-/

set_option autoImplicit false

namespace TypeTraits.Descriptor

/-! ### Canonical form -/

/-- What canonical form asks of the outermost level of a type. -/
def CanonicalLevel : Descriptor → Prop
  | pointer t _ => t.isReference = false
  | memberPointer _ t _ | lvalueRef t | rvalueRef t => t.isVoid = false ∧ t.isReference = false
  | array t n _ =>
    t.qualifiers = .none ∧ t.isVoid = false ∧ t.isFunction = false ∧ t.isReference = false ∧
      t.isUnboundedArray = false ∧ n ≠ some 0
  | function r ps _ =>
    r.isArray = false ∧ r.isFunction = false ∧
      ∀ p ∈ ps, p.qualifiers = .none ∧ p.isVoid = false ∧ p.isArray = false ∧ p.isFunction = false
  | void _ | nullPointer _ | scalar _ _ | classType _ _ | enumType _ _ => True

instance : DecidablePred CanonicalLevel
  | pointer _ _ => inferInstanceAs (Decidable (_ = _))
  | memberPointer _ _ _ | lvalueRef _ | rvalueRef _ | array _ _ _ | function _ _ _ =>
    inferInstanceAs (Decidable (_ ∧ _))
  | void _ | nullPointer _ | scalar _ _ | classType _ _ | enumType _ _ =>
    inferInstanceAs (Decidable True)

/-- Whether every level of the type is canonical. -/
def IsCanonical (t : Descriptor) : Prop := ∀ s ∈ t.levels, s.CanonicalLevel

instance (t : Descriptor) : Decidable t.IsCanonical :=
  inferInstanceAs (Decidable (∀ s ∈ t.levels, s.CanonicalLevel))

/-- At every level, functions and references have no qualifiers, and the class of a member pointer
is a level of its own that has none. -/
theorem unqualified_of_mem_levels {t s : Descriptor} (hs : s ∈ t.levels) :
    (s.isFunction = true ∨ s.isReference = true → s.qualifiers = .none) ∧
      ∀ c u q, s = memberPointer c u q → classType c .none ∈ t.levels := by
  refine ⟨?_, fun c u q h => classType_mem_levels (h ▸ hs)⟩
  rintro (hf | hr)
  · obtain ⟨r, ps, v, rfl⟩ := isFunction_iff.mp hf
    rfl
  · cases s with
    | lvalueRef u | rvalueRef u => rfl
    | _ => exact nomatch hr

/-- The rules hold of a canonical type itself. -/
theorem IsCanonical.level {t : Descriptor} (h : t.IsCanonical) : t.CanonicalLevel :=
  h t t.mem_levels_self

section
variable (t : Descriptor) (q : Qualifiers)

/-- Canonical form asks nothing of `void`. -/
@[simp] theorem isCanonical_void : (void q).IsCanonical := by
  simp [IsCanonical, levels, CanonicalLevel]

/-- Nor does it ask anything of the type of null pointers. -/
@[simp] theorem isCanonical_nullPointer : (nullPointer q).IsCanonical := by
  simp [IsCanonical, levels, CanonicalLevel]

/-- Nor of arithmetic types. -/
@[simp] theorem isCanonical_scalar (k : Scalar) : (scalar k q).IsCanonical := by
  simp [IsCanonical, levels, CanonicalLevel]

/-- Nor of classes and unions. -/
@[simp] theorem isCanonical_classType (c : ClassType) : (classType c q).IsCanonical := by
  simp [IsCanonical, levels, CanonicalLevel]

/-- Nor of enumerations. -/
@[simp] theorem isCanonical_enumType (e : EnumType) : (enumType e q).IsCanonical := by
  simp [IsCanonical, levels, CanonicalLevel]

/-- A pointer points to a canonical type that is no reference. -/
@[simp] theorem isCanonical_pointer :
    (pointer t q).IsCanonical ↔ t.isReference = false ∧ t.IsCanonical := by
  simp [IsCanonical, levels, CanonicalLevel]

/-- A member pointer does the same, and does not point to `void` either. -/
@[simp] theorem isCanonical_memberPointer (c : ClassType) :
    (memberPointer c t q).IsCanonical ↔
      (t.isVoid = false ∧ t.isReference = false) ∧ t.IsCanonical := by
  simp [IsCanonical, levels, CanonicalLevel]

/-- Of an array, canonical form asks what it asks of its level, and that the element has it. -/
@[simp] theorem isCanonical_array (n : Option Nat) :
    (array t n q).IsCanonical ↔ (array t n q).CanonicalLevel ∧ t.IsCanonical := by
  simp [IsCanonical, levels]

/-- An lvalue reference refers to a canonical type that is neither `void` nor a reference. -/
@[simp] theorem isCanonical_lvalueRef :
    (lvalueRef t).IsCanonical ↔ (t.isVoid = false ∧ t.isReference = false) ∧ t.IsCanonical := by
  simp [IsCanonical, levels, CanonicalLevel]

/-- So does an rvalue reference. -/
@[simp] theorem isCanonical_rvalueRef :
    (rvalueRef t).IsCanonical ↔ (t.isVoid = false ∧ t.isReference = false) ∧ t.IsCanonical := by
  simp [IsCanonical, levels, CanonicalLevel]

/-- Of a function, it asks what it asks of its level, and that the result and all parameters have
it. -/
@[simp] theorem isCanonical_function (ps : List Descriptor) (v : Bool) :
    (function t ps v).IsCanonical ↔
      (function t ps v).CanonicalLevel ∧ t.IsCanonical ∧ ∀ p ∈ ps, p.IsCanonical := by
  simp only [IsCanonical, levels, List.forall_mem_cons, List.forall_mem_append, mem_levelsEach]
  refine and_congr_right' (and_congr_right' ?_)
  constructor
  · intro h p hp s hs
    exact h s ⟨p, hp, hs⟩
  · rintro h s ⟨p, hp, hs⟩
    exact h p hp s hs

/-- Canonical form does not look at the outermost qualifiers. -/
@[simp] theorem isCanonical_withQualifiers :
    (t.withQualifiers q).IsCanonical ↔ t.IsCanonical := by
  cases t <;> simp [withQualifiers, CanonicalLevel]

/-- Further qualifiers make no difference to it. -/
@[simp] theorem isCanonical_qualified : (t.qualified q).IsCanonical ↔ t.IsCanonical :=
  isCanonical_withQualifiers t _

/-- Nor does it matter if the outermost qualifiers are taken off. -/
@[simp] theorem isCanonical_unqualified : t.unqualified.IsCanonical ↔ t.IsCanonical :=
  isCanonical_withQualifiers t _

end

/-- An element in canonical form makes an array as it is, and its qualifiers are those of the
array. -/
theorem arrayOf_qualified {t : Descriptor} {n : Option Nat} {q : Qualifiers}
    (h : (array t n q).CanonicalLevel) (r : Qualifiers) :
    (t.qualified r).arrayOf n = .ok (array t n r) := by
  obtain ⟨hq, hv, hf, hr, hu, hn⟩ := h
  have hself : t.unqualified = t := by rw [unqualified, ← hq, withQualifiers_qualifiers]
  -- Forming the array takes the qualifiers off the element and keeps them.
  rw [qualified, hq, Qualifiers.none_union]
  refine arrayOf_eq_ok_iff.mpr ⟨isElement_iff.mpr ?_, hn, ?_⟩
  · simp [hv, hf, hr, hu]
  · rw [qualifiers_withQualifiers hf hr, unqualified_withQualifiers, hself]

/-! ### Operations keep canonical form -/

section
variable {t u : Descriptor}

/-- The element of an array is a part of it, up to qualifiers. -/
theorem IsCanonical.arrayElement (h : t.IsCanonical) (hu : t.arrayElement = some u) :
    u.IsCanonical := by
  cases t with
  | array e n q =>
    cases hu
    exact (isCanonical_qualified _ _).mpr ((isCanonical_array _ _ _).mp h).2
  | _ => exact nomatch hu

/-- What a reference refers to is a part of it. -/
theorem IsCanonical.removeReference (h : t.IsCanonical) : t.removeReference.IsCanonical := by
  cases t with
  | lvalueRef s => exact ((isCanonical_lvalueRef s).mp h).2
  | rvalueRef s => exact ((isCanonical_rvalueRef s).mp h).2
  | _ => exact h

/-- A type that is no reference refers to itself. -/
theorem removeReference_eq_self (h : t.isReference = false) : t.removeReference = t := by
  cases t with
  | lvalueRef s | rvalueRef s => exact nomatch h
  | _ => rfl

/-- What a canonical reference refers to is no reference. -/
theorem IsCanonical.isReference_removeReference (h : t.IsCanonical) :
    t.removeReference.isReference = false := by
  cases t with
  | lvalueRef s => exact h.level.2
  | rvalueRef s => exact h.level.2
  | _ => rfl

/-- What a canonical reference refers to is not `void`. -/
theorem IsCanonical.isVoid_removeReference (h : t.IsCanonical) :
    t.removeReference.isVoid = t.isVoid := by
  cases t with
  | lvalueRef s => exact h.level.1
  | rvalueRef s => exact h.level.1
  | _ => rfl

/-- A pointer that is formed is canonical, since references have no pointers. -/
theorem IsCanonical.pointerTo (h : t.IsCanonical) (hu : t.pointerTo = .ok u) :
    u.IsCanonical := by
  obtain ⟨hr, rfl⟩ := pointerTo_eq_ok_iff.mp hu
  exact (isCanonical_pointer _ _).mpr ⟨hr, h⟩

/-- An lvalue reference that is formed is canonical. It takes the place of a reference, so there are
never two. -/
theorem IsCanonical.lvalueRefTo (h : t.IsCanonical) (hu : t.lvalueRefTo = .ok u) :
    u.IsCanonical := by
  obtain ⟨hv, rfl⟩ := lvalueRefTo_eq_ok_iff.mp hu
  rw [isCanonical_lvalueRef, h.isVoid_removeReference]
  exact ⟨⟨hv, h.isReference_removeReference⟩, h.removeReference⟩

/-- An rvalue reference that is formed is canonical. -/
theorem IsCanonical.rvalueRefTo (h : t.IsCanonical) (hu : t.rvalueRefTo = .ok u) :
    u.IsCanonical := by
  obtain ⟨hv, rfl⟩ := rvalueRefTo_eq_ok_iff.mp hu
  -- A reference stays what it is, so there are two results to look at.
  cases hr : t.isReference with
  | true => exact h
  | false => exact (isCanonical_rvalueRef t).mpr ⟨⟨hv, hr⟩, h⟩

/-- An array that is formed is canonical, with the qualifiers of the element put outside. -/
theorem IsCanonical.arrayOf {n : Option Nat} (h : t.IsCanonical) (hu : t.arrayOf n = .ok u) :
    u.IsCanonical := by
  obtain ⟨he, hn, rfl⟩ := arrayOf_eq_ok_iff.mp hu
  obtain ⟨hv, hf, hr, ha⟩ := isElement_iff.mp he
  refine (isCanonical_array _ _ _).mpr ⟨⟨qualifiers_unqualified t, ?_⟩, ?_⟩
  · simpa [unqualified] using ⟨hv, hf, hr, ha, hn⟩
  · exact (isCanonical_unqualified t).mpr h

/-- An adjusted parameter is what canonical form asks of parameters. -/
theorem IsCanonical.adjustParameter (h : t.IsCanonical) (hu : t.adjustParameter = .ok u) :
    (u.qualifiers = .none ∧ u.isVoid = false ∧ u.isArray = false ∧ u.isFunction = false) ∧
      u.IsCanonical := by
  cases t with
  | void q => exact nomatch hu
  | array e n q =>
    -- The pointer to the element, which the array's qualifiers are handed to.
    obtain ⟨hr, rfl⟩ := pointerTo_eq_ok_iff.mp hu
    exact ⟨⟨rfl, rfl, rfl, rfl⟩, (isCanonical_pointer _ _).mpr ⟨hr, h.arrayElement rfl⟩⟩
  | function r ps v =>
    cases hu
    exact ⟨⟨rfl, rfl, rfl, rfl⟩, (isCanonical_pointer _ _).mpr ⟨rfl, h⟩⟩
  -- Every other type loses its qualifiers and is then neither array nor function.
  | _ =>
    cases hu
    exact ⟨⟨rfl, rfl, rfl, rfl⟩, (isCanonical_unqualified _).mpr h⟩

/-- A function that is formed is canonical, since its parameters are adjusted. -/
theorem IsCanonical.functionOf {ps : List Descriptor} {v : Bool} (h : t.IsCanonical)
    (hps : ∀ p ∈ ps, p.IsCanonical) (hu : t.functionOf ps v = .ok u) : u.IsCanonical := by
  obtain ⟨ha, hf, qs, hqs, rfl⟩ := functionOf_eq_ok_iff.mp hu
  have hadj : ∀ q ∈ qs, (q.qualifiers = .none ∧ q.isVoid = false ∧ q.isArray = false ∧
      q.isFunction = false) ∧ q.IsCanonical := by
    intro q hq
    obtain ⟨p, hp, hpq⟩ := exists_mem_of_forall₂ hqs hq
    exact (hps p hp).adjustParameter hpq
  rw [isCanonical_function]
  exact ⟨⟨ha, hf, fun q hq => (hadj q hq).1⟩, h, fun q hq => (hadj q hq).2⟩

/-- A member pointer that is formed is canonical. -/
theorem IsCanonical.memberPointerTo {s : Descriptor} (h : t.IsCanonical)
    (hu : s.memberPointerTo t = .ok u) : u.IsCanonical := by
  obtain ⟨c, q, rfl, hv, hr, rfl⟩ := memberPointerTo_eq_ok_iff.mp hu
  exact (isCanonical_memberPointer _ _ _).mpr ⟨⟨hv, hr⟩, h⟩

/-- The signed counterpart of a type is arithmetic, and so canonical. -/
theorem isCanonical_of_signedOf (hu : t.signedOf = .ok u) : u.IsCanonical := by
  obtain ⟨k, rfl⟩ := exists_eq_scalar_of_signs (.inl hu)
  exact isCanonical_scalar _ k

/-- So is the unsigned counterpart. -/
theorem isCanonical_of_unsignedOf (hu : t.unsignedOf = .ok u) : u.IsCanonical := by
  obtain ⟨k, rfl⟩ := exists_eq_scalar_of_signs (.inr hu)
  exact isCanonical_scalar _ k

/-- So is the type that an enumeration is stored as. -/
theorem isCanonical_of_underlyingOf (hu : t.underlyingOf = .ok u) : u.IsCanonical := by
  obtain ⟨e, q, -, rfl⟩ := underlyingOf_eq_ok_iff.mp hu
  exact isCanonical_scalar _ _

/-! ### The transformations -/

/-- Canonical form passes from a type to its parts and to what is formed from it. -/
theorem hereditary_isCanonical : Hereditary IsCanonical where
  scalar k q := isCanonical_scalar q k
  withQualifiers q h := (isCanonical_withQualifiers _ q).mpr h
  removeReference h := h.removeReference
  removePointer {t} h := by
    cases t with
    | pointer s q => exact ((isCanonical_pointer _ _).mp h).2
    | _ => exact h
  element h := ((isCanonical_array _ _ _).mp h).2
  pointerTo h hu := h.pointerTo hu
  lvalueRefTo h hu := h.lvalueRefTo hu
  rvalueRefTo h hu := h.rvalueRefTo hu

/-- An attempt to form a type leads from canonical types to canonical ones, whether it succeeds or
falls back. -/
theorem IsCanonical.orIdentity {a : Attempt Descriptor} (h : t.IsCanonical)
    (ha : ∀ u, a = .ok u → u.IsCanonical) : (Attempt.orIdentity a t).IsCanonical :=
  forall_orIdentity h ha

/-- The element of a canonical array is canonical. -/
theorem IsCanonical.removeExtent (h : t.IsCanonical) : t.removeExtent.IsCanonical :=
  hereditary_isCanonical.removeExtent h

/-- Every transformation keeps canonical form. -/
theorem IsCanonical.transformation {f : Transformation} (hf : f ∈ Transformation.all)
    (h : t.IsCanonical) : (f.apply t).IsCanonical :=
  hereditary_isCanonical.apply hf h

end

end TypeTraits.Descriptor
