import Mathlib.Logic.Function.Iterate
import TypeTraits.Proofs.Descriptor.Canonical

/-!
# `TypeTraits.Proofs.Descriptor.Dimensions`: the dimensions of an array

`Descriptor.removeExtent` takes the outermost dimension off an array and `Descriptor.arrayOf`
puts one on. The first hands the qualifiers of the array to the element and the second takes
them from there, so a canonical array is formed again of what is behind its outermost
dimension and of the extent of this dimension (`IsCanonical.arrayOf_removeExtent`).

Ranks, extents and innermost elements are not computed by taking off one dimension after
another, but each by a recursion of its own. All of them agree with `removeExtent` a step
at a time (`rank_removeExtent`, `extent_removeExtent`, `removeAllExtents_removeExtent`), and
`dimension_induction` carries this through all dimensions.

`determined_by_extents` is the main theorem: it says which extents a type has, and
rebuilds the type from them and its innermost element.
-/

set_option autoImplicit false

namespace TypeTraits.Descriptor

section
variable {t : Descriptor}

/-! ### Types without dimensions -/

/-- A type that is no array has no dimensions. -/
theorem rank_eq_zero (h : t.isArray = false) : t.rank = 0 := by
  cases t with
  | array s n q => exact nomatch h
  | _ => rfl

/-- Only the types that are no arrays have none. -/
theorem rank_eq_zero_iff (t : Descriptor) : t.rank = 0 ↔ t.isArray = false := by
  refine ⟨fun h => ?_, rank_eq_zero⟩
  cases t with
  | array s n q => exact nomatch h
  | _ => rfl

/-- Where there is no array, the innermost element is the type itself, with the qualifiers on the
way. -/
theorem innermostElement_of_not_isArray (h : t.isArray = false) (q : Qualifiers) :
    t.innermostElement q = t.qualified q := by
  cases t with
  | array s n r => exact nomatch h
  | _ => rfl

/-- No dimensions can be removed where there are none. -/
theorem removeAllExtents_eq_self (h : t.isArray = false) : t.removeAllExtents = t := by
  rw [removeAllExtents, innermostElement_of_not_isArray h, qualified_none]

/-! ### One dimension -/

/-- Qualifiers do not change the number of dimensions. -/
theorem rank_qualified (t : Descriptor) (q : Qualifiers) : (t.qualified q).rank = t.rank := by
  cases t <;> rfl

/-- Nor do they change an extent. -/
theorem extent_qualified (t : Descriptor) (q : Qualifiers) (i : Nat) :
    (t.qualified q).extent i = t.extent i := by
  cases t <;> cases i <;> rfl

/-- Further qualifiers reach the innermost element through all dimensions. -/
theorem removeAllExtents_qualified (t : Descriptor) (q : Qualifiers) :
    (t.qualified q).removeAllExtents = t.innermostElement q := by
  cases ha : t.isArray with
  | false =>
    rw [innermostElement_of_not_isArray ha]
    exact removeAllExtents_eq_self (by rwa [qualified, isArray_withQualifiers])
  | true =>
    obtain ⟨s, n, r, rfl⟩ := isArray_iff.mp ha
    show s.innermostElement ((r.union q).union .none) = s.innermostElement (r.union q)
    rw [Qualifiers.union_none]

/-- An array has one dimension more than its element. -/
theorem rank_removeExtent (h : t.isArray = true) : t.removeExtent.rank + 1 = t.rank := by
  obtain ⟨s, n, q, rfl⟩ := isArray_iff.mp h
  exact congrArg (· + 1) (rank_qualified s q)

/-- The extents of the element are those of the array behind the outermost one. -/
theorem extent_removeExtent (h : t.isArray = true) (i : Nat) :
    t.removeExtent.extent i = t.extent (i + 1) := by
  obtain ⟨s, n, q, rfl⟩ := isArray_iff.mp h
  exact extent_qualified s q i

/-- It does not matter to the innermost element whether one dimension has been removed before. -/
theorem removeAllExtents_removeExtent (t : Descriptor) :
    t.removeExtent.removeAllExtents = t.removeAllExtents := by
  cases t with
  | array s n q =>
    show (s.qualified q).removeAllExtents = s.innermostElement (q.union .none)
    rw [removeAllExtents_qualified, Qualifiers.union_none]
  | _ => rfl

/-! ### One dimension of a canonical array -/

/-- The bound of a dimension with the given extent: where it is 0, the bound is unknown. -/
def boundOfExtent (n : Nat) : Option Nat := if n = 0 then none else some n

/-- No canonical array has a bound of zero, so its outermost extent tells the bound. -/
theorem IsCanonical.boundOfExtent_eq {n : Option Nat} {q : Qualifiers}
    (h : (array t n q).IsCanonical) : boundOfExtent ((array t n q).extent 0) = n := by
  obtain ⟨-, -, -, -, -, hn⟩ := h.level
  cases n with
  | none => rfl
  | some m => exact if_neg fun (hm : m = 0) => hn (congrArg some hm)

/-- Of a canonical array, the outermost extent is 0 exactly if the bound is unknown. -/
theorem IsCanonical.extent_zero_iff (h : t.IsCanonical) (ha : t.isArray = true) :
    t.extent 0 = 0 ↔ t.isUnboundedArray = true := by
  obtain ⟨s, n, q, rfl⟩ := isArray_iff.mp ha
  have hbound := h.boundOfExtent_eq
  constructor
  · intro h0
    rw [h0] at hbound
    subst hbound
    rfl
  · intro hu
    cases n with
    | none => rfl
    | some m => exact nomatch hu

/-- The elements of a canonical array have a known bound if they are arrays. -/
theorem IsCanonical.isUnboundedArray_removeExtent (h : t.IsCanonical) (ha : t.isArray = true) :
    t.removeExtent.isUnboundedArray = false := by
  obtain ⟨s, n, q, rfl⟩ := isArray_iff.mp ha
  obtain ⟨-, -, -, -, hu, -⟩ := h.level
  show (s.withQualifiers _).isUnboundedArray = false
  rwa [isUnboundedArray_withQualifiers]

/-- The element of a canonical array has exactly the qualifiers of the array. -/
theorem IsCanonical.qualifiers_removeExtent (h : t.IsCanonical) :
    t.removeExtent.qualifiers = t.qualifiers := by
  cases t with
  | array s n q =>
    obtain ⟨hs, -, hf, hr, -⟩ := h.level
    show (s.withQualifiers (s.qualifiers.union q)).qualifiers = q
    rw [qualifiers_withQualifiers hf hr, hs, Qualifiers.none_union]
  | _ => rfl

/-- A canonical array is formed of its element and its outermost extent. -/
theorem IsCanonical.arrayOf_removeExtent (h : t.IsCanonical) (ha : t.isArray = true) :
    t.removeExtent.arrayOf (boundOfExtent (t.extent 0)) = .ok t := by
  obtain ⟨s, n, q, rfl⟩ := isArray_iff.mp ha
  rw [h.boundOfExtent_eq]
  exact arrayOf_qualified h.level q

end

/-! ### All dimensions -/

/-- What holds of the types that are no arrays, and of each array of whose element it
holds, holds of all types. -/
theorem dimension_induction {motive : Descriptor → Prop}
    (base : ∀ t, t.isArray = false → motive t)
    (step : ∀ t, t.isArray = true → motive t.removeExtent → motive t) : ∀ t, motive t := by
  intro t
  induction hn : t.rank generalizing t with
  | zero =>
    cases ha : t.isArray with
    | false => exact base t ha
    | true => exact nomatch (rank_removeExtent ha).trans hn
  | succ n ih =>
    cases ha : t.isArray with
    | false => exact base t ha
    | true => exact step t ha (ih _ (Nat.succ.inj ((rank_removeExtent ha).trans hn)))

/-- The innermost element is what is left when each dimension has been taken off. -/
theorem removeAllExtents_eq_iterate (t : Descriptor) :
    t.removeAllExtents = removeExtent^[t.rank] t := by
  induction t using dimension_induction with
  | base t ha => rw [removeAllExtents_eq_self ha, rank_eq_zero ha, Function.iterate_zero_apply]
  | step t ha ih =>
    rw [← removeAllExtents_removeExtent, ih, ← rank_removeExtent ha, Function.iterate_succ_apply]

/-- No dimension is left when all of them are removed. -/
theorem isArray_removeAllExtents (t : Descriptor) : t.removeAllExtents.isArray = false := by
  induction t using dimension_induction with
  | base t ha => rwa [removeAllExtents_eq_self ha]
  | step t ha ih => rwa [← removeAllExtents_removeExtent]

/-- Beyond the rank there is no dimension. -/
theorem extent_eq_zero (t : Descriptor) {i : Nat} (hi : t.rank ≤ i) : t.extent i = 0 := by
  induction t using dimension_induction generalizing i with
  | base t ha =>
    cases t with
    | array s n q => exact nomatch ha
    | _ => rfl
  | step t ha ih =>
    have hrank := rank_removeExtent ha
    obtain ⟨j, rfl⟩ : ∃ j, i = j + 1 := Nat.exists_eq_add_one.mpr (by omega)
    rw [← extent_removeExtent ha]
    exact ih (by omega)

/-- Every dimension of a canonical array but the outermost has a bound. -/
theorem IsCanonical.extent_pos {t : Descriptor} (h : t.IsCanonical) {i : Nat} (hi : 0 < i)
    (hr : i < t.rank) : 1 ≤ t.extent i := by
  induction t using dimension_induction generalizing i with
  | base t ha =>
    rw [rank_eq_zero ha] at hr
    exact absurd hr (Nat.not_lt_zero i)
  | step t ha ih =>
    have hrank := rank_removeExtent ha
    obtain ⟨j, rfl⟩ := Nat.exists_eq_add_one.mpr hi
    rw [← extent_removeExtent ha]
    cases j with
    | succ k => exact ih h.removeExtent k.succ_pos (by omega)
    | zero =>
      -- The element is an array in its turn, and no element is an array of unknown bound.
      have he : t.removeExtent.isArray = true := by
        by_contra he
        rw [rank_eq_zero (Bool.not_eq_true _ ▸ he)] at hrank
        omega
      rw [Nat.one_le_iff_ne_zero, Ne, h.removeExtent.extent_zero_iff he,
        h.isUnboundedArray_removeExtent ha]
      exact Bool.false_ne_true

/-- The extents of all dimensions, the outermost first. -/
def extents (t : Descriptor) : List Nat := (List.range t.rank).map t.extent

/-- A type that is no array has no extents. -/
theorem extents_eq_nil {t : Descriptor} (h : t.isArray = false) : t.extents = [] := by
  rw [extents, rank_eq_zero h]
  rfl

/-- An array has its outermost extent in front of those of its element. -/
theorem extents_eq_cons {t : Descriptor} (h : t.isArray = true) :
    t.extents = t.extent 0 :: t.removeExtent.extents := by
  have htail : t.extent ∘ Nat.succ = t.removeExtent.extent :=
    funext fun i => (extent_removeExtent h i).symm
  rw [extents, extents, ← rank_removeExtent h, List.range_succ_eq_map, List.map_cons,
    List.map_map, htail]

/-- A canonical type is rebuilt from its innermost element by putting the dimensions on again,
the innermost one first. -/
theorem IsCanonical.foldlM_arrayOf_extents {t : Descriptor} (h : t.IsCanonical) :
    (t.extents.reverse.map boundOfExtent).foldlM Descriptor.arrayOf t.removeAllExtents = .ok t := by
  induction t using dimension_induction with
  | base t ha =>
    rw [extents_eq_nil ha, removeAllExtents_eq_self ha]
    rfl
  | step t ha ih =>
    -- The outermost dimension comes last, on what the other ones have made.
    rw [extents_eq_cons ha, List.reverse_cons, List.map_append, List.foldlM_append,
      ← removeAllExtents_removeExtent, ih h.removeExtent, except_bind_ok, List.map_singleton,
      List.foldlM_cons, h.arrayOf_removeExtent ha]
    rfl

/-- The innermost element of a canonical type is what is left when each dimension has been taken
off. There are no extents beyond the rank, and none is 0 but that of an outermost dimension
of unknown bound. The element of an array has the extents behind the outermost one. Putting the
extents on the innermost element, the innermost one first, succeeds and gives the type with its
qualifiers back, so the type is the only one with this innermost element and these extents. -/
theorem determined_by_extents {t : Descriptor} (h : t.IsCanonical) :
    (t.removeAllExtents = removeExtent^[t.rank] t ∧ t.removeAllExtents.isArray = false) ∧
    ((∀ i, t.rank ≤ i → t.extent i = 0) ∧ ∀ i, 0 < i → i < t.rank → 1 ≤ t.extent i) ∧
    (t.isArray = true → (t.extent 0 = 0 ↔ t.isUnboundedArray = true) ∧
      t.removeExtent.rank + 1 = t.rank ∧ ∀ i, t.removeExtent.extent i = t.extent (i + 1)) ∧
    (t.extents.reverse.map boundOfExtent).foldlM arrayOf t.removeAllExtents = .ok t ∧
    ∀ s : Descriptor, s.IsCanonical → s.removeAllExtents = t.removeAllExtents →
      s.extents = t.extents → s = t := by
  have hrebuilt := h.foldlM_arrayOf_extents
  refine ⟨⟨removeAllExtents_eq_iterate t, isArray_removeAllExtents t⟩,
    ⟨fun i => extent_eq_zero t, fun i => h.extent_pos⟩, ?_, hrebuilt, ?_⟩
  · intro ha
    exact ⟨h.extent_zero_iff ha, rank_removeExtent ha, extent_removeExtent ha⟩
  · intro s hs hinner hextents
    -- Both are rebuilt from the same extents.
    have hsame := hs.foldlM_arrayOf_extents
    rw [hinner, hextents, hrebuilt] at hsame
    exact (Except.ok.inj hsame).symm

/-- An array of unknown bound of arrays of three rows, each of the greatest length that a size can
have, with both qualifiers. -/
theorem determined_by_extents_of_rows :
    let greatest := 18446744073709551615
    let row := array (scalar .char .none) (some greatest) .none
    let t := array (array row (some 3) .none) none .cv
    t.IsCanonical ∧ t.extents = [0, 3, greatest] ∧ t.removeAllExtents = scalar .char .cv ∧
      removeExtent^[3] t = scalar .char .cv ∧ 1 ≤ t.extent 2 ∧ t.extent 3 = 0 ∧
      t.removeExtent.extent 1 = greatest ∧
      [some greatest, some 3, none].foldlM arrayOf (scalar .char .cv) = .ok t := by
  intro greatest row t
  have h : t.IsCanonical := by decide +kernel
  obtain ⟨⟨hiterate, -⟩, ⟨hbeyond, hpos⟩, harray, hrebuilt, -⟩ := determined_by_extents h
  obtain ⟨-, -, hshift⟩ := harray rfl
  exact ⟨h, by decide +kernel, rfl, hiterate.symm, hpos 2 (by decide) (by decide),
    hbeyond 3 (by decide), hshift 1, hrebuilt⟩

end TypeTraits.Descriptor
