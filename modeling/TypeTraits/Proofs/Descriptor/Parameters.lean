import TypeTraits.Proofs.Descriptor.Canonical

/-!
# `TypeTraits.Proofs.Descriptor.Parameters`: parameters of functions and passing by value

A function type does not hold its parameters as they are written, but as
`Descriptor.adjustParameter` leaves them. What an argument becomes when it is passed by value is
written down a second time, as the transformation `Descriptor.decay`. The two go different
ways: one looks at the shape of the type, the other removes a reference and then asks for
predicates. They agree on canonical types (`IsCanonical.adjustParameter_eq`). A reference is the
one exception, since it is a parameter as it stands and decays to what it refers to; and
`void` decays to `void`, but is no parameter.

`Descriptor.functionOf_eq_of_canonical` is the main theorem. It says for which lists of
parameters there is a function type, and which two lists make the same one.
-/

set_option autoImplicit false

namespace TypeTraits.Descriptor

/-- The type as which an argument is passed: a reference as it is, anything else decayed. -/
def passed (t : Descriptor) : Descriptor := if t.isReference then t else t.decay

/-! ### Decay, by the shape of the type -/

/-- The pointer to a type that is no reference. -/
theorem addPointer_of_not_isReference {t : Descriptor} (h : t.isReference = false) :
    t.addPointer = pointer t .none := by
  rw [addPointer, removeReference_eq_self h, pointerTo_eq_ok_iff.mpr ⟨h, rfl⟩]
  rfl

/-- Both ways to take the qualifiers off are the same. -/
theorem removeCv_eq_unqualified (t : Descriptor) : t.removeCv = t.unqualified := by
  rw [removeCv, strip, Qualifiers.without_cv, unqualified]

/-- A type that is neither reference, array nor function loses its qualifiers. -/
theorem decay_eq_unqualified {t : Descriptor} (hr : t.isReference = false)
    (ha : t.isArray = false) (hf : t.isFunction = false) : t.decay = t.unqualified := by
  simp [decay, removeReference_eq_self hr, ha, hf, removeCv_eq_unqualified]

/-- An array decays to the pointer to its element, and the element gets the array's qualifiers. -/
theorem decay_array {t : Descriptor} {n : Option Nat} {q : Qualifiers}
    (h : t.isReference = false) : (array t n q).decay = pointer (t.qualified q) .none := by
  have hq : (t.qualified q).isReference = false := by
    rw [qualified, isReference_withQualifiers, h]
  simp [decay, removeReference, isArray, removeExtent, arrayElement,
    addPointer_of_not_isReference hq]

/-- A function decays to the pointer to it. -/
theorem decay_function (r : Descriptor) (ps : List Descriptor) (v : Bool) :
    (function r ps v).decay = pointer (function r ps v) .none := by
  have hr : (function r ps v).isReference = false := rfl
  simp [decay, removeReference, isArray, addPointer_of_not_isReference hr]

/-! ### Parameters -/

/-- A canonical parameter is adjusted to the type that it is passed as, and `void` is no
parameter. -/
theorem IsCanonical.adjustParameter_eq {t : Descriptor} (h : t.IsCanonical) :
    t.adjustParameter = if t.isVoid then .error (.invalidParameter t) else .ok t.passed := by
  cases t with
  | void q => rfl
  | array e n q =>
    -- The elements are passed by a pointer, with the qualifiers of the array.
    have he : e.isReference = false := h.level.2.2.2.1
    have hq : (e.qualified q).isReference = false := by
      rw [qualified, isReference_withQualifiers, he]
    show (e.qualified q).pointerTo = .ok (array e n q).decay
    rw [decay_array he]
    exact pointerTo_eq_ok_iff.mpr ⟨hq, rfl⟩
  | function r ps v =>
    show (function r ps v).pointerTo = .ok (function r ps v).decay
    rw [decay_function]
    rfl
  | lvalueRef s | rvalueRef s => rfl
  | nullPointer q | scalar k q | classType c q | enumType e q | pointer s q
  | memberPointer c s q =>
    exact congrArg Except.ok (decay_eq_unqualified rfl rfl (isFunction_eq_false (by simp))).symm

/-- Passing makes nothing `void` but `void`. -/
theorem IsCanonical.isVoid_passed {t : Descriptor} (h : t.IsCanonical) :
    t.passed.isVoid = t.isVoid := by
  cases hv : t.isVoid with
  | true =>
    obtain ⟨q, rfl⟩ := isVoid_iff.mp hv
    -- `void` is not passed at all, but it has a decayed type too.
    have hdecay : (void q).decay = (void q).unqualified :=
      decay_eq_unqualified rfl rfl (isFunction_eq_false (by simp))
    show (void q).decay.isVoid = true
    rw [hdecay]
    rfl
  | false =>
    -- Anything else is stored as it is passed, and no stored parameter is `void`.
    have hadjust := h.adjustParameter_eq
    rw [hv, if_neg Bool.false_ne_true] at hadjust
    exact (h.adjustParameter hadjust).1.2.1

/-- A function whose result can be returned is formed once its parameters are adjusted. -/
theorem functionOf_eq_map {r : Descriptor} (ha : r.isArray = false) (hf : r.isFunction = false)
    (ps : List Descriptor) (v : Bool) :
    r.functionOf ps v = (ps.mapM adjustParameter).map (function r · v) := by
  unfold functionOf
  split
  · exact nomatch ha
  · simp at hf
  · cases ps.mapM adjustParameter with
    | error e => rfl
    | ok qs => rfl

/-- A parameter in canonical form is its own adjustment. -/
theorem adjustParameter_eq_self {p : Descriptor} (hq : p.qualifiers = .none)
    (hv : p.isVoid = false) (ha : p.isArray = false) (hf : p.isFunction = false) :
    p.adjustParameter = .ok p := by
  have hself : p.unqualified = p := by rw [unqualified, ← hq, withQualifiers_qualifiers]
  cases p with
  | void q => cases hv
  | array t n q => cases ha
  | function r ps v => simp at hf
  | _ => exact congrArg Except.ok hself

/-- Parameters in canonical form make a function type as they are. -/
theorem functionOf_eq_ok_self {r : Descriptor} {ps : List Descriptor} {v : Bool}
    (h : (function r ps v).CanonicalLevel) : r.functionOf ps v = .ok (function r ps v) := by
  refine functionOf_eq_ok_iff.mpr ⟨h.1, h.2.1, ps, ?_, rfl⟩
  refine List.forall₂_same.mpr fun p hp => ?_
  obtain ⟨hq, hv, ha, hf⟩ := h.2.2 p hp
  exact adjustParameter_eq_self hq hv ha hf

/-- Canonical parameters are taken as they are passed, up to the first that is `void`. -/
theorem functionOf_eq_of_forall_isCanonical {r : Descriptor} {ps : List Descriptor} {v : Bool}
    (ha : r.isArray = false) (hf : r.isFunction = false) (hps : ∀ p ∈ ps, p.IsCanonical) :
    r.functionOf ps v = match ps.find? isVoid with
      | some p => .error (.invalidParameter p)
      | none => .ok (function r (ps.map passed) v) := by
  rw [functionOf_eq_map ha hf, mapM_eq_of_fails fun p hp => (hps p hp).adjustParameter_eq]
  cases ps.find? isVoid with
  | none => rfl
  | some p => rfl

/-- A function type is formed of canonical parameters if none of them is passed as `void`, and
it holds what they are passed as. -/
theorem functionOf_eq_ok_iff_passed {r t : Descriptor} {ps : List Descriptor} {v : Bool}
    (ha : r.isArray = false) (hf : r.isFunction = false) (hps : ∀ p ∈ ps, p.IsCanonical) :
    r.functionOf ps v = .ok t ↔
      (∀ q ∈ ps.map passed, q.isVoid = false) ∧ t = function r (ps.map passed) v := by
  have hvoid : (∀ q ∈ ps.map passed, q.isVoid = false) ↔ ps.find? isVoid = none := by
    rw [List.find?_eq_none, List.forall_mem_map]
    refine forall₂_congr fun p hp => ?_
    rw [(hps p hp).isVoid_passed, Bool.not_eq_true]
  rw [functionOf_eq_of_forall_isCanonical ha hf hps, hvoid]
  cases ps.find? isVoid with
  | none => simp [eq_comm]
  | some p => simp

/-- What canonical parameters are passed as is in the form that a function holds. -/
theorem canonicalLevel_function_passed {r : Descriptor} {ps : List Descriptor} (v : Bool)
    (ha : r.isArray = false) (hf : r.isFunction = false) (hps : ∀ p ∈ ps, p.IsCanonical)
    (hvoid : ∀ q ∈ ps.map passed, q.isVoid = false) :
    (function r (ps.map passed) v).CanonicalLevel := by
  refine ⟨ha, hf, List.forall_mem_map.mpr fun p hp => ?_⟩
  have hv : p.isVoid = false := by
    rw [← (hps p hp).isVoid_passed]
    exact hvoid _ (List.mem_map_of_mem hp)
  have hadjust := (hps p hp).adjustParameter_eq
  rw [hv, if_neg Bool.false_ne_true] at hadjust
  exact ((hps p hp).adjustParameter hadjust).1

/-- Of canonical parameters, and of a result that can be returned, a function type is formed unless
a parameter is `void`, and the first that is `void` is to blame. The function holds its parameters
as they are passed. So its own parameters make it again, and lists of parameters make the same
function exactly if they are passed alike. -/
theorem functionOf_eq_of_canonical {r : Descriptor} {ps : List Descriptor} {v : Bool}
    (ha : r.isArray = false) (hf : r.isFunction = false) (hps : ∀ p ∈ ps, p.IsCanonical) :
    ((∃ e, r.functionOf ps v = .error e) ↔ ∃ p ∈ ps, p.isVoid = true) ∧
    (r.functionOf ps v = match ps.find? isVoid with
      | some p => .error (.invalidParameter p)
      | none => .ok (function r (ps.map passed) v)) ∧
    ∀ t, r.functionOf ps v = .ok t →
      (∃ qs, t = function r qs v ∧ r.functionOf qs v = .ok t) ∧
      ∀ ps' : List Descriptor, (∀ p ∈ ps', p.IsCanonical) →
        (r.functionOf ps' v = .ok t ↔ ps'.map passed = ps.map passed) := by
  have hform := functionOf_eq_of_forall_isCanonical (v := v) ha hf hps
  refine ⟨?_, hform, ?_⟩
  · rw [hform, ← List.find?_isSome]
    cases ps.find? isVoid with
    | none => simp
    | some p => simp
  · intro t ht
    obtain ⟨hvoid, rfl⟩ := (functionOf_eq_ok_iff_passed ha hf hps).mp ht
    have hlevel := canonicalLevel_function_passed v ha hf hps hvoid
    refine ⟨⟨_, rfl, functionOf_eq_ok_self hlevel⟩, fun ps' hps' => ?_⟩
    rw [functionOf_eq_ok_iff_passed ha hf hps']
    constructor
    -- The stored parameters are part of the type.
    · rintro ⟨-, h⟩
      exact (function.inj h).2.1.symm
    · intro h
      rw [h]
      exact ⟨hvoid, rfl⟩

/-- A matrix of unknown length whose entries are `const`, a function, a reference to an array and
a qualified number, and a second list that is passed alike. Of two `void` parameters the
first is to blame. -/
theorem functionOf_eq_of_matrix_and_callback :
    let row := array int (some 3) .const
    let callback := function int [] true
    let table := lvalueRef (array int none .volatile)
    let ps := [array (array int (some 3) .none) none .const, callback, table, scalar .double .cv]
    let qs := [pointer row .none, pointer callback .none, table, scalar .double .none]
    let ps' := [array (array int (some 3) .none) (some 7) .const, pointer callback .const, table,
      scalar .double .volatile]
    int.functionOf ps false = .ok (function int qs false) ∧
      int.functionOf qs false = .ok (function int qs false) ∧
      int.functionOf ps' false = .ok (function int qs false) ∧
      int.functionOf [table, void .const, void .none] true =
        .error (.invalidParameter (void .const)) := by
  intro row callback table ps qs ps'
  have ha : int.isArray = false := rfl
  have hf : int.isFunction = false := rfl
  have hcanonical : ∀ p ∈ ps, p.IsCanonical := by decide +kernel
  obtain ⟨-, hform, hsame⟩ := functionOf_eq_of_canonical (v := false) ha hf hcanonical
  have hps : int.functionOf ps false = .ok (function int qs false) := by
    rw [hform]
    decide +kernel
  obtain ⟨⟨_, hqs, hself⟩, halike⟩ := hsame _ hps
  cases hqs
  have hcanonical' : ∀ p ∈ [table, void .const, void .none], p.IsCanonical := by decide +kernel
  obtain ⟨-, hvoid, -⟩ := functionOf_eq_of_canonical (v := true) ha hf hcanonical'
  exact ⟨hps, hself, (halike ps' (by decide +kernel)).mpr (by decide +kernel), hvoid⟩

end TypeTraits.Descriptor
