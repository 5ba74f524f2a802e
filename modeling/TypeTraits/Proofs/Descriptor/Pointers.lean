import TypeTraits.Proofs.Descriptor.Decay

/-!
# `TypeTraits.Proofs.Descriptor.Pointers`: adding and removing pointers

`Descriptor.addPointer` may refuse to form a pointer and then falls back to the type it was given.
On canonical types this never happens: it removes a reference first, and what a canonical reference
refers to is no reference, so there is a pointer to it (`IsCanonical.pointerTo_removeReference`).

So a pointer that is added can be removed again. Only a reference is lost on the way, and it is lost
with the first pointer. `pointers_invert` is the main theorem.
-/

set_option autoImplicit false

namespace TypeTraits.Descriptor

section
variable {t : Descriptor}

/-- There is a pointer to what is left of a canonical type without its reference. -/
theorem IsCanonical.pointerTo_removeReference (h : t.IsCanonical) :
    t.removeReference.pointerTo = .ok (pointer t.removeReference .none) :=
  pointerTo_eq_ok_iff.mpr ⟨h.isReference_removeReference, rfl⟩

/-- The attempt to add a pointer to a canonical type never falls back. -/
theorem IsCanonical.addPointer_eq (h : t.IsCanonical) :
    t.addPointer = pointer t.removeReference .none := by
  rw [Descriptor.addPointer, h.pointerTo_removeReference]
  rfl

/-- Of a canonical pointer, the one to its pointee has lost the outermost qualifiers. -/
theorem IsCanonical.addPointer_removePointer (h : t.IsCanonical) (hp : t.isPointer = true) :
    t.removePointer.addPointer = t.removeCv := by
  cases t with
  | pointer s q =>
    have hr : s.isReference = false := h.level
    rw [removeCv_eq_unqualified]
    exact addPointer_of_not_isReference hr
  | _ => exact nomatch hp

/-- As many pointers as are added to a type that is no reference are removed from it again. -/
theorem iterate_removePointer_addPointer (h : t.isReference = false) (n : Nat) :
    removePointer^[n] (addPointer^[n] t) = t := by
  induction n generalizing t with
  | zero => rfl
  | succ n ih =>
    -- The pointer that is added first is removed last.
    rw [Function.iterate_succ_apply addPointer, Function.iterate_succ_apply' removePointer,
      addPointer_of_not_isReference h, ih rfl]
    rfl

/-- The pointer to a canonical type without its reference is always formed, and it is what adding a
pointer leads to, whatever would be fallen back to. Adding a pointer does not see references.
One or more pointers that are added and then removed leave the type without its reference. A
pointer that is removed and then added has no outermost qualifiers. -/
theorem pointers_invert (h : t.IsCanonical) :
    (t.removeReference.pointerTo = .ok (pointer t.removeReference .none) ∧
      t.addPointer = pointer t.removeReference .none ∧
      ∀ fallback, Attempt.orElse t.removeReference.pointerTo fallback = t.addPointer) ∧
    t.addPointer.removePointer = t.removeReference ∧
    (t.addLvalueReference.addPointer = t.addPointer ∧
      t.addRvalueReference.addPointer = t.addPointer) ∧
    (∀ n, 1 ≤ n → removePointer^[n] (addPointer^[n] t) = t.removeReference) ∧
    (t.isPointer = true → t.removePointer.addPointer = t.removeCv) := by
  have hadd := h.addPointer_eq
  have hlvalue : t.addLvalueReference.IsCanonical := h.orIdentity fun _ hu => h.lvalueRefTo hu
  have hrvalue : t.addRvalueReference.IsCanonical := h.orIdentity fun _ hu => h.rvalueRefTo hu
  refine ⟨⟨h.pointerTo_removeReference, hadd, fun fallback => ?_⟩, ?_, ⟨?_, ?_⟩, ?_,
    h.addPointer_removePointer⟩
  · rw [h.pointerTo_removeReference, Attempt.orElse_ok, hadd]
  · rw [hadd]
    rfl
  · rw [hlvalue.addPointer_eq, removeReference_addLvalueReference, hadd]
  · rw [hrvalue.addPointer_eq, removeReference_addRvalueReference, hadd]
  · intro n hn
    obtain ⟨k, rfl⟩ := Nat.exists_eq_add_one.mpr hn
    -- With the first pointer the reference is gone, and the other `k` leave that pointer alone.
    rw [Function.iterate_succ_apply addPointer, Function.iterate_succ_apply' removePointer, hadd,
      iterate_removePointer_addPointer rfl]
    rfl

end

/-- A reference to an array of unknown bound of constant numbers, and a qualified pointer to a
function. -/
theorem pointers_invert_of_table_and_callback :
    let table := array int none .const
    let callback := function (void .none) [int] true
    (rvalueRef table).IsCanonical ∧ (pointer callback .cv).IsCanonical ∧
      (rvalueRef table).addPointer = pointer table .none ∧
      (rvalueRef table).addLvalueReference.addPointer = pointer table .none ∧
      removePointer^[3] (addPointer^[3] (rvalueRef table)) = table ∧
      (pointer callback .cv).removePointer.addPointer = pointer callback .none := by
  intro table callback
  have htable : (rvalueRef table).IsCanonical := by decide +kernel
  have hcallback : (pointer callback .cv).IsCanonical := by decide +kernel
  obtain ⟨⟨-, hadd, -⟩, -, ⟨hlvalue, -⟩, hiterate, -⟩ := pointers_invert htable
  obtain ⟨-, -, -, -, hback⟩ := pointers_invert hcallback
  exact ⟨htable, hcallback, hadd, hlvalue.trans hadd, hiterate 3 (by decide), hback rfl⟩

end TypeTraits.Descriptor
