import TypeTraits.Descriptor.Basic

/-!
# `TypeTraits.Proofs.Descriptor.Levels`: induction over types, and their levels

A function type holds a list of parameter types, so `Descriptor` is a nested type
and Lean's own induction principle speaks of lists of types as well.
`Descriptor.induction` is the principle that proofs want: the hypothesis for a
function is one for its result and one for each of its parameters.

`Descriptor.levels` lists the levels of a type: the type itself and the levels of
the types it is built from. What is asked of a type "at every level" is asked of
each member of this list.
-/

set_option autoImplicit false

namespace TypeTraits.Descriptor

/-- Induction over the types that a type is built from. -/
@[induction_eliminator]
theorem induction {motive : Descriptor → Prop}
    (void : ∀ q, motive (void q))
    (nullPointer : ∀ q, motive (nullPointer q))
    (scalar : ∀ k q, motive (scalar k q))
    (classType : ∀ c q, motive (classType c q))
    (enumType : ∀ e q, motive (enumType e q))
    (pointer : ∀ t q, motive t → motive (pointer t q))
    (memberPointer : ∀ c t q, motive t → motive (memberPointer c t q))
    (array : ∀ t n q, motive t → motive (array t n q))
    (lvalueRef : ∀ t, motive t → motive (lvalueRef t))
    (rvalueRef : ∀ t, motive t → motive (rvalueRef t))
    (function : ∀ r ps v, motive r → (∀ p ∈ ps, motive p) → motive (function r ps v)) :
    ∀ t, motive t := by
  intro t
  -- The recursor of the nested type has a second motive, for lists of types.
  refine Descriptor.rec (motive_1 := motive) (motive_2 := fun ts => ∀ t ∈ ts, motive t)
    void nullPointer scalar classType enumType pointer memberPointer array lvalueRef rvalueRef
    function ?_ ?_ t
  · intro t ht
    exact nomatch ht
  · intro t ts ht hts
    exact List.forall_mem_cons.mpr ⟨ht, hts⟩

/-! ### The levels of a type -/

mutual

/-- The type and the levels of the types it is built from, outermost first. The class of
a member pointer is a level of its own. -/
def levels : Descriptor → List Descriptor
  | void q => [void q]
  | nullPointer q => [nullPointer q]
  | scalar k q => [scalar k q]
  | classType c q => [classType c q]
  | enumType e q => [enumType e q]
  | pointer t q => pointer t q :: t.levels
  | memberPointer c t q => memberPointer c t q :: classType c .none :: t.levels
  | array t n q => array t n q :: t.levels
  | lvalueRef t => lvalueRef t :: t.levels
  | rvalueRef t => rvalueRef t :: t.levels
  | function r ps v => function r ps v :: (r.levels ++ levelsEach ps)

/-- The levels of the types of a list. -/
def levelsEach : List Descriptor → List Descriptor
  | [] => []
  | t :: ts => t.levels ++ levelsEach ts

end

/-- The type is its own outermost level. -/
theorem mem_levels_self (t : Descriptor) : t ∈ t.levels := by
  cases t <;> simp [levels]

/-- The levels of a list are those of its types, one type after another. -/
theorem levelsEach_eq_flatMap (ts : List Descriptor) : levelsEach ts = ts.flatMap levels := by
  induction ts with
  | nil => rfl
  | cons t ts ih => rw [levelsEach, ih, List.flatMap_cons]

/-- A level of a list is one of some type in it. -/
theorem mem_levelsEach {s : Descriptor} {ts : List Descriptor} :
    s ∈ levelsEach ts ↔ ∃ t ∈ ts, s ∈ t.levels := by
  rw [levelsEach_eq_flatMap, List.mem_flatMap]

/-- With each member pointer, its class is among the levels. -/
theorem classType_mem_levels {t s : Descriptor} {c : ClassType} {q : Qualifiers}
    (h : memberPointer c s q ∈ t.levels) : classType c .none ∈ t.levels := by
  induction t with
  | void r | nullPointer r | scalar k r | classType d r | enumType e r => simp [levels] at h
  | pointer t r ih | array t n r ih | lvalueRef t ih | rvalueRef t ih =>
    -- The member pointer is at a level further in.
    refine List.mem_cons_of_mem _ (ih ?_)
    simpa [levels] using h
  | memberPointer d t r ih =>
    simp only [levels, List.mem_cons, memberPointer.injEq, reduceCtorEq, false_or] at h ⊢
    rcases h with ⟨rfl, -, -⟩ | h
    · exact .inl rfl
    · exact .inr (ih h)
  | function r ps v ihr ihps =>
    simp only [levels, List.mem_cons, List.mem_append, mem_levelsEach, reduceCtorEq,
      false_or] at h ⊢
    rcases h with h | ⟨p, hp, h⟩
    · exact .inl (ihr h)
    · exact .inr ⟨p, hp, ihps p hp h⟩

end TypeTraits.Descriptor
