import TypeTraits.Proofs.Token.Lexing
import TypeTraits.Proofs.Universe.Invariant

/-!
# `TypeTraits.Proofs.Universe.Readable`: types that a universe can read back

A type is printed with the names of its classes, unions and enumerations and with the
bounds of its arrays. It can be read back (`Descriptor.IsReadable`) when each name in it
is an identifier that the universe declares with what the type has under this name, and
each bound is a size.

There is one equation for each constructor, and formation keeps types readable
(`Descriptor.closed_isReadable`), which also means that elaboration does.
-/

set_option autoImplicit false

namespace TypeTraits

namespace Descriptor

/-- The name that the outermost level of the type is printed as. -/
def name? : Descriptor → Option String
  | classType c _ => some c.name
  | enumType e _ => some e.name
  | _ => none

/-- The level can be read back: bounds are sizes, and names are plain and declared. -/
structure IsReadableLevel (u : Universe) (s : Descriptor) : Prop where
  bound : ∀ t n q, s = array t (some n) q → n < sizeLimit
  name : ∀ name, s.name? = some name →
    IsPlainName name ∧ u.lookup? name = some s.unqualified

/-- Every level of the type can be read back. -/
def IsReadable (u : Universe) (t : Descriptor) : Prop := ∀ s ∈ t.levels, s.IsReadableLevel u

section
variable (u : Universe) (t : Descriptor) (q : Qualifiers)

/-- Other qualifiers change the first level only. -/
theorem levels_withQualifiers : (t.withQualifiers q).levels =
    t.withQualifiers q :: t.levels.tail := by
  cases t <;> rfl

/-- A type can be read back if the first of its levels can, and all the others. -/
theorem isReadable_iff_level_and_tail :
    t.IsReadable u ↔ t.IsReadableLevel u ∧ ∀ s ∈ t.levels.tail, s.IsReadableLevel u := by
  rw [← List.forall_mem_cons]
  cases t <;> rfl

/-- Names and bounds have nothing to do with qualifiers. -/
theorem isReadableLevel_withQualifiers (h : t.IsReadableLevel u) :
    (t.withQualifiers q).IsReadableLevel u where
  bound s n r hs := by
    cases t <;> cases hs
    exact h.bound _ n _ rfl
  name name hname := by
    rw [unqualified, withQualifiers_withQualifiers]
    refine h.name name ?_
    cases t <;> exact hname

/-- A level without name and bound can be read back in any case. -/
theorem isReadableLevel_of_plain (harray : t.isArray = false) (hname : t.name? = none) :
    t.IsReadableLevel u where
  bound s n r hs := by
    subst hs
    exact nomatch harray
  name name h := by
    rw [hname] at h
    exact nomatch h

/-- A class or an enumeration can be read back where it is declared by its plain name. -/
theorem isReadableLevel_of_name {name : String} (hname : t.name? = some name)
    (hplain : IsPlainName name) (hlookup : u.lookup? name = some t.unqualified) :
    t.IsReadableLevel u where
  bound s n r hs := by
    subst hs
    exact nomatch hname
  name name' h := by
    rw [hname] at h
    cases h
    exact ⟨hplain, hlookup⟩

end

section
variable {u : Universe} {t t' : Descriptor} {q : Qualifiers}

/-- Qualifiers that are replaced have nothing to do with it. -/
@[simp] theorem isReadable_withQualifiers : (t.withQualifiers q).IsReadable u ↔ t.IsReadable u := by
  -- The outermost level is the one that is qualified, and that there and back.
  have key : ∀ s r, IsReadable u s → (s.withQualifiers r).IsReadable u := by
    intro s r h
    obtain ⟨hlevel, htail⟩ := (isReadable_iff_level_and_tail u s).mp h
    rw [IsReadable, levels_withQualifiers, List.forall_mem_cons]
    exact ⟨isReadableLevel_withQualifiers u s r hlevel, htail⟩
  refine ⟨fun h => ?_, key t q⟩
  have h' := key _ t.qualifiers h
  rwa [withQualifiers_withQualifiers, withQualifiers_qualifiers] at h'

/-- Nor have those that are added. -/
@[simp] theorem isReadable_qualified : (t.qualified q).IsReadable u ↔ t.IsReadable u :=
  isReadable_withQualifiers

/-- Nor have those that are removed. -/
@[simp] theorem isReadable_unqualified : t.unqualified.IsReadable u ↔ t.IsReadable u :=
  isReadable_withQualifiers

/-- A level without name and bound leaves it to the levels below. -/
theorem isReadable_iff_of_plain {ss : List Descriptor} (hlevels : t.levels = t :: ss)
    (harray : t.isArray = false) (hname : t.name? = none) :
    t.IsReadable u ↔ ∀ s ∈ ss, s.IsReadableLevel u := by
  rw [IsReadable, hlevels, List.forall_mem_cons]
  exact and_iff_right (isReadableLevel_of_plain u t harray hname)

/-- `void` can be read back. -/
@[simp] theorem isReadable_void : (void q).IsReadable u :=
  (isReadable_iff_of_plain rfl rfl rfl).mpr nofun

/-- So can the type of `nullptr`. -/
@[simp] theorem isReadable_nullPointer : (nullPointer q).IsReadable u :=
  (isReadable_iff_of_plain rfl rfl rfl).mpr nofun

/-- So can any arithmetic type. -/
@[simp] theorem isReadable_scalar (k : Scalar) : (scalar k q).IsReadable u :=
  (isReadable_iff_of_plain rfl rfl rfl).mpr nofun

/-- A pointer can be read back if the type behind it can. -/
@[simp] theorem isReadable_pointer : (pointer t q).IsReadable u ↔ t.IsReadable u :=
  isReadable_iff_of_plain rfl rfl rfl

/-- So can an lvalue reference. -/
@[simp] theorem isReadable_lvalueRef : (lvalueRef t).IsReadable u ↔ t.IsReadable u :=
  isReadable_iff_of_plain rfl rfl rfl

/-- So can an rvalue reference. -/
@[simp] theorem isReadable_rvalueRef : (rvalueRef t).IsReadable u ↔ t.IsReadable u :=
  isReadable_iff_of_plain rfl rfl rfl

/-- A member pointer can be read back if its class can, and the type of the member. -/
@[simp] theorem isReadable_memberPointer (c : ClassType) :
    (memberPointer c t q).IsReadable u ↔ (classType c .none).IsReadable u ∧ t.IsReadable u := by
  rw [isReadable_iff_of_plain rfl rfl rfl, List.forall_mem_cons]
  exact and_congr_left fun _ => (List.forall_mem_singleton (a := classType c .none)).symm

/-- A function can be read back if all its types can. -/
@[simp] theorem isReadable_function {ps : List Descriptor} {v : Bool} :
    (function t ps v).IsReadable u ↔ t.IsReadable u ∧ ∀ p ∈ ps, p.IsReadable u := by
  rw [isReadable_iff_of_plain rfl rfl rfl, List.forall_mem_append]
  refine and_congr_right fun _ => ⟨fun h p hp s hs => h s (mem_levelsEach.mpr ⟨p, hp, hs⟩), ?_⟩
  intro h s hs
  obtain ⟨p, hp, hs⟩ := mem_levelsEach.mp hs
  exact h p hp s hs

/-- An array can be read back if its elements can, and its bound is one that the lexer reads. -/
@[simp] theorem isReadable_array {n : Option Nat} :
    (array t n q).IsReadable u ↔ (∀ m, n = some m → m < sizeLimit) ∧ t.IsReadable u := by
  rw [IsReadable, levels, List.forall_mem_cons]
  refine and_congr_left fun _ => ⟨fun h m hm => h.bound t m q (by rw [hm]), fun h => ?_⟩
  constructor
  · intro s m r hs
    cases hs
    exact h m rfl
  · intro name hname
    cases hname

/-! ### Formation -/

/-- The type behind a reference can be read back with it. -/
theorem IsReadable.removeReference (h : t.IsReadable u) : t.removeReference.IsReadable u := by
  cases t with
  | lvalueRef t => exact isReadable_lvalueRef.mp h
  | rvalueRef t => exact isReadable_rvalueRef.mp h
  | _ => exact h

/-- A formed pointer can be read back, since a reference in the way only goes. -/
theorem IsReadable.pointerTo (h : t.IsReadable u) (hs : t.pointerTo = .ok t') :
    t'.IsReadable u := by
  obtain ⟨-, rfl⟩ := pointerTo_eq_ok_iff.mp hs
  exact isReadable_pointer.mpr h

/-- An adjusted parameter has the levels of the given one, up to a pointer in their place. -/
theorem IsReadable.adjustParameter (h : t.IsReadable u) (hs : t.adjustParameter = .ok t') :
    t'.IsReadable u := by
  cases t with
  | void q => exact nomatch hs
  | array s n q => exact (isReadable_qualified.mpr (isReadable_array.mp h).2).pointerTo hs
  | function r ps v => exact h.pointerTo hs
  | _ =>
    cases hs
    exact isReadable_unqualified.mpr h

/-- Formation keeps types readable; the class of a member pointer is looked up as it is
declared, without the qualifiers that an alias of it may have. -/
theorem closed_isReadable (u : Universe) : Closed (IsReadable u) where
  qualified q h := isReadable_qualified.mpr h
  pointerTo h hs := h.pointerTo hs
  lvalueRefTo h hs := by
    obtain ⟨-, rfl⟩ := lvalueRefTo_eq_ok_iff.mp hs
    exact isReadable_lvalueRef.mpr h.removeReference
  rvalueRefTo h hs := by
    obtain ⟨-, rfl⟩ := rvalueRefTo_eq_ok_iff.mp hs
    split
    · exact h
    · exact isReadable_rvalueRef.mpr h
  functionOf hr hps hs := by
    obtain ⟨-, -, qs, hqs, rfl⟩ := functionOf_eq_ok_iff.mp hs
    -- Each stored parameter is one of the given ones, as adjusted.
    refine isReadable_function.mpr ⟨hr, fun q hq => ?_⟩
    obtain ⟨p, hp, hpq⟩ := exists_mem_of_forall₂ hqs hq
    exact (hps p hp).adjustParameter hpq
  memberPointerTo hc h hs := by
    -- The class is stored without its qualifiers.
    obtain ⟨c, q, rfl, -, -, rfl⟩ := memberPointerTo_eq_ok_iff.mp hs
    exact (isReadable_memberPointer c).mpr ⟨isReadable_unqualified.mpr hc, h⟩

/-- A formed array can be read back if its bound can. -/
theorem IsReadable.arrayOf {n : Option Nat} (h : t.IsReadable u)
    (hn : ∀ m, n = some m → m < sizeLimit) (hs : t.arrayOf n = .ok t') : t'.IsReadable u := by
  obtain ⟨-, -, rfl⟩ := arrayOf_eq_ok_iff.mp hs
  exact isReadable_array.mpr ⟨hn, isReadable_unqualified.mpr h⟩

/-- Names that were declared stay so. -/
theorem IsReadable.mono {u' : Universe} (h : t.IsReadable u)
    (hu : ∀ name s, u.lookup? name = some s → u'.lookup? name = some s) : t.IsReadable u' :=
  fun s hs => ⟨(h s hs).bound, fun name hname =>
    ((h s hs).name name hname).imp_right (hu name s.unqualified)⟩

end

end Descriptor

end TypeTraits
