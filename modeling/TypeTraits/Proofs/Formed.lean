import TypeTraits.Proofs.Descriptor.Parameters
import TypeTraits.Proofs.Query.Canonical
import TypeTraits.Proofs.Universe.Reached
import TypeTraits.Selector

/-!
# `TypeTraits.Proofs.Formed`: the types that can be formed

`Descriptor.Formed` holds of the types that some finite sequence of operations builds
from the leaves: qualifying, forming, changing signs, gating, transforming, and reading
a type or a query in a universe of such types.

`formed_iff_isCanonical`: these are exactly the canonical types, and a universe that is
reached declares no others. No operation breaks canonical form
(`Formed.isCanonical`), and each canonical type is put together again from its parts
(`IsCanonical.formed`). So two ways to build a type lead to equal descriptors or to
different types.
-/

set_option autoImplicit false

namespace TypeTraits.Descriptor

/-- The types that are built from the leaves by operations on types. -/
inductive Formed : Descriptor → Prop where
  | void : Formed (void .none)
  | nullPointer : Formed (nullPointer .none)
  | scalar (k : Scalar) : Formed (scalar k .none)
  | ofClass (name : String) : Formed (ofClass name)
  | ofUnion (name : String) : Formed (ofUnion name)
  | ofEnum (e : EnumType) : Formed (enumType e .none)
  | qualified {t : Descriptor} (q : Qualifiers) (ht : Formed t) : Formed (t.qualified q)
  | withQualifiers {t : Descriptor} (q : Qualifiers) (ht : Formed t) :
    Formed (t.withQualifiers q)
  | unqualified {t : Descriptor} (ht : Formed t) : Formed t.unqualified
  | arrayElement {t u : Descriptor} (ht : Formed t) (hu : t.arrayElement = some u) : Formed u
  | pointerTo {t u : Descriptor} (ht : Formed t) (hu : t.pointerTo = .ok u) : Formed u
  | lvalueRefTo {t u : Descriptor} (ht : Formed t) (hu : t.lvalueRefTo = .ok u) : Formed u
  | rvalueRefTo {t u : Descriptor} (ht : Formed t) (hu : t.rvalueRefTo = .ok u) : Formed u
  | arrayOf {t u : Descriptor} {n : Option Nat} (ht : Formed t) (hu : t.arrayOf n = .ok u) :
    Formed u
  | functionOf {r u : Descriptor} {ps : List Descriptor} {v : Bool} (hr : Formed r)
    (hps : ∀ p ∈ ps, Formed p) (hu : r.functionOf ps v = .ok u) : Formed u
  | memberPointerTo {c t u : Descriptor} (hc : Formed c) (ht : Formed t)
    (hu : c.memberPointerTo t = .ok u) : Formed u
  | signedOf {t u : Descriptor} (ht : Formed t) (hu : t.signedOf = .ok u) : Formed u
  | unsignedOf {t u : Descriptor} (ht : Formed t) (hu : t.unsignedOf = .ok u) : Formed u
  | underlyingOf {t u : Descriptor} (ht : Formed t) (hu : t.underlyingOf = .ok u) : Formed u
  | enableIfVoid {condition : Bool} {u : Descriptor} (hu : enableIfVoid condition = .ok u) :
    Formed u
  | transformation {f : Transformation} {t : Descriptor} (hf : f ∈ Transformation.all)
    (ht : Formed t) : Formed (f.apply t)
  | parseType {u : Universe} {text : String} {t : Descriptor}
    (hu : ∀ e ∈ u.entries, Formed e.2) (ht : u.parseType text = .ok t) : Formed t
  | evaluateText {u : Universe} {text : String} {t : Descriptor}
    (hu : ∀ e ∈ u.entries, Formed e.2)
    (ht : (Scope.ofUniverse u).evaluateText text = .ok (.type t)) : Formed t

/-- Every operation keeps canonical form. -/
theorem Formed.isCanonical {t : Descriptor} (h : t.Formed) : t.IsCanonical := by
  induction h with
  | void | nullPointer | scalar | ofEnum => simp
  | ofClass name | ofUnion name => exact isCanonical_classType _ _
  | qualified q _ ih => exact (isCanonical_qualified _ q).mpr ih
  | withQualifiers q _ ih => exact (isCanonical_withQualifiers _ q).mpr ih
  | unqualified _ ih => exact (isCanonical_unqualified _).mpr ih
  | arrayElement _ hu ih => exact ih.arrayElement hu
  | pointerTo _ hu ih => exact ih.pointerTo hu
  | lvalueRefTo _ hu ih => exact ih.lvalueRefTo hu
  | rvalueRefTo _ hu ih => exact ih.rvalueRefTo hu
  | arrayOf _ hu ih => exact ih.arrayOf hu
  | functionOf _ _ hu ihr ihps => exact ihr.functionOf ihps hu
  | memberPointerTo _ _ hu _ ih => exact ih.memberPointerTo hu
  | signedOf _ hu _ => exact isCanonical_of_signedOf hu
  | unsignedOf _ hu _ => exact isCanonical_of_unsignedOf hu
  | underlyingOf _ hu _ => exact isCanonical_of_underlyingOf hu
  | @enableIfVoid condition u hu =>
    cases condition with
    | true =>
      cases hu
      exact isCanonical_void _
    | false => exact nomatch hu
  | transformation hf _ ih => exact ih.transformation hf
  -- In the last two, `ih` says that the universe is canonical.
  | parseType _ ht ih => exact Universe.IsCanonical.parseType ih ht
  | @evaluateText u _ _ _ ht ih =>
    have hs : (Scope.ofUniverse u).types.IsCanonical := ih
    obtain ⟨q, -, hq⟩ := except_bind_eq_ok.mp ht
    exact Scope.isCanonical_of_evaluate hs q hq

/-- A canonical type is formed of its parts. -/
theorem IsCanonical.formed {t : Descriptor} (h : t.IsCanonical) : t.Formed := by
  -- Each level is one formation, and then its qualifiers are put on. An array gets
  -- them through its element.
  induction t with
  | void q => exact .withQualifiers q .void
  | nullPointer q => exact .withQualifiers q .nullPointer
  | scalar k q => exact .withQualifiers q (.scalar k)
  | classType c q =>
    obtain ⟨name, isUnion⟩ := c
    cases isUnion with
    | false => exact .withQualifiers q (.ofClass name)
    | true => exact .withQualifiers q (.ofUnion name)
  | enumType e q => exact .withQualifiers q (.ofEnum e)
  | pointer t q ih =>
    obtain ⟨hr, ht⟩ := (isCanonical_pointer t q).mp h
    exact .withQualifiers q (.pointerTo (ih ht) (pointerTo_eq_ok_iff.mpr ⟨hr, rfl⟩))
  | memberPointer c t q ih =>
    obtain ⟨⟨hv, hr⟩, ht⟩ := (isCanonical_memberPointer t q c).mp h
    obtain ⟨name, isUnion⟩ := c
    -- The class of a member is formed first, as a class or as a union.
    have hu : ∀ b : Bool, (classType ⟨name, b⟩ .none).memberPointerTo t
        = .ok (memberPointer ⟨name, b⟩ t .none) :=
      fun b => memberPointerTo_eq_ok_iff.mpr ⟨_, _, rfl, hv, hr, rfl⟩
    cases isUnion with
    | false => exact .withQualifiers q (.memberPointerTo (.ofClass name) (ih ht) (hu false))
    | true => exact .withQualifiers q (.memberPointerTo (.ofUnion name) (ih ht) (hu true))
  | array t n q ih =>
    obtain ⟨hl, ht⟩ := (isCanonical_array t q n).mp h
    exact .arrayOf (.qualified q (ih ht)) (arrayOf_qualified hl q)
  | lvalueRef t ih =>
    obtain ⟨⟨hv, hr⟩, ht⟩ := (isCanonical_lvalueRef t).mp h
    refine .lvalueRefTo (ih ht) (lvalueRefTo_eq_ok_iff.mpr ⟨hv, ?_⟩)
    rw [removeReference_eq_self hr]
  | rvalueRef t ih =>
    obtain ⟨⟨hv, hr⟩, ht⟩ := (isCanonical_rvalueRef t).mp h
    refine .rvalueRefTo (ih ht) (rvalueRefTo_eq_ok_iff.mpr ⟨hv, ?_⟩)
    simp [hr]
  | function r ps v ihr ihps =>
    obtain ⟨hl, hr, hps⟩ := (isCanonical_function r ps v).mp h
    exact .functionOf (ihr hr) (fun p hp => ihps p hp (hps p hp)) (functionOf_eq_ok_self hl)

/-- The types that operations build are exactly the canonical ones, and every type that a
reached universe declares is one of them. -/
theorem formed_iff_isCanonical :
    (∀ t : Descriptor, t.Formed ↔ t.IsCanonical) ∧
      ∀ u : Universe, u.Reached → ∀ e ∈ u.entries, e.2.Formed := by
  constructor
  · intro t
    exact ⟨Formed.isCanonical, IsCanonical.formed⟩
  · intro u hu e he
    have hcanonical : e.2.IsCanonical := hu.isCanonical e he
    exact hcanonical.formed

/-- After a class and an alias, with a refused call between them, the alias stands for a
type that is built from the leaves. -/
theorem formed_of_declared_alias :
    ∃ u : Universe, u.Reached ∧ ("handle", pointer (ofClass "widget") .cv) ∈ u.entries ∧
      (pointer (ofClass "widget") .cv).Formed := by
  let calls : List Declaration :=
    [.ofClass "widget", .ofUnion "widget", .alias "handle" "widget* volatile const"]
  have hreached : (calls.foldl Universe.attempt .empty).Reached := .calls calls
  have hmem : ("handle", pointer (ofClass "widget") .cv) ∈
      (calls.foldl Universe.attempt .empty).entries := by decide +kernel
  obtain ⟨-, hformed⟩ := formed_iff_isCanonical
  exact ⟨_, hreached, hmem, hformed _ hreached _ hmem⟩

end TypeTraits.Descriptor
