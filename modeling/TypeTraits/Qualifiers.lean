/-!
# `TypeTraits.Qualifiers`: sets of `const` and `volatile`

A `Qualifiers` value is one of the four subsets of the two qualifiers. The
operations are those of sets, and `union_assoc` and `union_comm` are their laws
where a fold over qualifiers needs them.
-/

set_option autoImplicit false

namespace TypeTraits

/-- A subset of the two qualifiers. -/
structure Qualifiers where
  isConst : Bool
  isVolatile : Bool
deriving DecidableEq, Repr, Inhabited

namespace Qualifiers

/-- The empty set. -/
def none : Qualifiers := ⟨false, false⟩

/-- The set that holds `const` alone. -/
def const : Qualifiers := ⟨true, false⟩

/-- The set that holds `volatile` alone. -/
def volatile : Qualifiers := ⟨false, true⟩

/-- The full set. -/
def cv : Qualifiers := ⟨true, true⟩

/-- Whether the set holds nothing. -/
def isEmpty (q : Qualifiers) : Bool := !q.isConst && !q.isVolatile

/-- Whether every qualifier of `r` is in `q`. -/
def contains (q r : Qualifiers) : Bool :=
  (!r.isConst || q.isConst) && (!r.isVolatile || q.isVolatile)

/-- The qualifiers that are in one of the two sets. -/
def union (q r : Qualifiers) : Qualifiers :=
  ⟨q.isConst || r.isConst, q.isVolatile || r.isVolatile⟩

/-- The qualifiers of `q` that are not in `r`. -/
def without (q r : Qualifiers) : Qualifiers :=
  ⟨q.isConst && !r.isConst, q.isVolatile && !r.isVolatile⟩

/-- The place of the set in the order nothing, `const`, `volatile`, both. -/
def rank (q : Qualifiers) : Nat := q.isConst.toNat + 2 * q.isVolatile.toNat

instance : LT Qualifiers := ⟨fun q r => q.rank < r.rank⟩

instance (q r : Qualifiers) : Decidable (q < r) :=
  inferInstanceAs (Decidable (q.rank < r.rank))

/-- The qualifiers as words, `const` first; nothing for the empty set. -/
def text : Qualifiers → String
  | ⟨true, true⟩ => "const volatile"
  | ⟨true, false⟩ => "const"
  | ⟨false, true⟩ => "volatile"
  | ⟨false, false⟩ => ""

/-- Nothing is added by no qualifiers. -/
@[simp] theorem union_none (q : Qualifiers) : q.union none = q := by
  cases q; simp [union, none]

/-- What is added to no qualifiers is all that there is. -/
@[simp] theorem none_union (q : Qualifiers) : none.union q = q := by
  cases q; simp [union, none]

/-- It does not matter which qualifiers come first. -/
theorem union_comm (q r : Qualifiers) : q.union r = r.union q := by
  simp [union, Bool.or_comm]

/-- It does not matter in which order qualifiers are collected. -/
theorem union_assoc (q r s : Qualifiers) : (q.union r).union s = q.union (r.union s) := by
  simp [union, Bool.or_assoc]

/-- Without both qualifiers nothing is left. -/
@[simp] theorem without_cv (q : Qualifiers) : q.without cv = none := by
  simp [without, cv, none]

end Qualifiers

end TypeTraits
