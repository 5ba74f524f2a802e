import TypeTraits.Proofs.Universe.Closed

/-!
# `TypeTraits.Proofs.Universe.Growth`: types in a universe with further declarations

A declaration puts one entry behind the others, so what was declared stays declared, as the
same type (`Universe.ExtendedBy`). Names that are not declared are another matter: a
specifier such as `class w` brings `w` in until somebody declares it, perhaps as a union. So
a written type keeps its type in every larger universe if the names behind its keys are
declared in the smaller one (`Universe.ExtendedBy.elaborate`).

The universe is asked for names in the leaves of a written type and nowhere else, so it is
enough to compare the leaves (`TypeId.Leaf.Refines`).
-/

set_option autoImplicit false

namespace TypeTraits

/-! ### Larger universes -/

/-- What is declared in the first universe is declared in the second, as the same type. -/
def Universe.ExtendedBy (u u' : Universe) : Prop :=
  ∀ name t, u.lookup? name = some t → u'.lookup? name = some t

namespace Universe.ExtendedBy

variable {u u' u'' : Universe}

/-- A universe extends itself. -/
theorem refl (u : Universe) : u.ExtendedBy u := fun _ _ h => h

/-- What extends an extension extends the universe. -/
theorem trans (h : u.ExtendedBy u') (h' : u'.ExtendedBy u'') : u.ExtendedBy u'' :=
  fun name t ht => h' name t (h name t ht)

/-- One declaration extends a universe. -/
theorem of_declare {d : Declaration} (h : u.declare d = .ok u') : u.ExtendedBy u' := by
  obtain ⟨t, -, -, -, rfl⟩ := declare_eq_ok_iff.mp h
  exact fun _ _ => lookup?_append

/-- So do any number of them. -/
theorem of_declareAll {ds : List Declaration} (h : u.declareAll ds = .ok u') :
    u.ExtendedBy u' :=
  declareAll_induction (motive := u.ExtendedBy) (fun hu hd => hu.trans (.of_declare hd)) (.refl u) h

/-- A declared name is looked up in the same way. -/
theorem lookup?_eq (hu : u.ExtendedBy u') {name : String} (h : u.contains name = true) :
    u'.lookup? name = u.lookup? name := by
  obtain ⟨t, ht⟩ := Option.isSome_iff_exists.mp h
  rw [hu name t ht, ht]

end Universe.ExtendedBy

/-! ### Leaves -/

/-- What the leaf gives in the first universe it gives in the second. A bound is no name. -/
def TypeId.Leaf.Refines (u u' : Universe) : TypeId.Leaf → Prop
  | base b => ∀ span, TypeTraits.Refines (u.elaborateBase span b) (u'.elaborateBase span b)
  | owner name => ∀ span, TypeTraits.Refines (u.resolve name span) (u'.resolve name span)
  | bound _ => True

/-- The leaves of a written type keep what they give, if the names behind its keys are
declared. -/
theorem Universe.ExtendedBy.leaf_refines {u u' : Universe} (hu : u.ExtendedBy u') {e : TypeId}
    (he : ∀ name ∈ e.keyedNames, u.contains name = true) :
    ∀ l ∈ e.leaves, l.Refines u u' := by
  have hresolve : ∀ name span, Refines (u.resolve name span) (u'.resolve name span) := by
    intro name span t ht
    exact u'.resolve_eq_ok_iff.mpr (hu name t (u.resolve_eq_ok_iff.mp ht))
  intro l hl
  cases l with
  | bound n => trivial
  | owner name => exact hresolve name
  | base b =>
    intro span
    -- A name behind a key is declared, so both universes look up the same.
    have hkeyed : ∀ name, b.keyedName? = some name → u'.lookup? name = u.lookup? name := by
      intro name hname
      exact hu.lookup?_eq (he name (List.mem_filterMap.mpr ⟨_, hl, hname⟩))
    cases b with
    | void | nullPointer | scalar k => exact .refl _
    | named name => exact hresolve name span
    | ofClass name | ofUnion name =>
      rw [elaborateBase, elaborateBase, classOrUnion, classOrUnion, hkeyed name rfl]
      exact .refl _
    | ofEnum name isScoped underlying =>
      rw [elaborateBase, elaborateBase, enumeration, enumeration, hkeyed name rfl]
      exact .refl _

/-! ### Written types -/

namespace Universe

variable {u u' : Universe}

/-- An operator asks for the class of a member pointer at most. -/
theorem applyOp_refines {op : PointerOp} (hl : ∀ l ∈ PointerOp.leavesEach [op], l.Refines u u')
    (t : Descriptor) : Refines (u.applyOp t op) (u'.applyOp t op) := by
  obtain ⟨kind, span⟩ := op
  cases kind with
  | pointer q | lvalueRef | rvalueRef => exact .refl _
  | member owner q =>
    have howner : Refines (u.resolve owner span) (u'.resolve owner span) :=
      hl (.owner owner) List.mem_cons_self span
    exact howner.bind fun c => .refl _

/-- So it is with operators in a row. -/
theorem applyOps_refines {ops : List PointerOp}
    (hl : ∀ l ∈ PointerOp.leavesEach ops, l.Refines u u') (t : Descriptor) :
    Refines (ops.foldlM u.applyOp t) (ops.foldlM u'.applyOp t) := by
  induction ops generalizing t with
  | nil => exact .refl _
  | cons op ops ih =>
    rw [PointerOp.leavesEach_cons, List.forall_mem_append] at hl
    rw [List.foldlM_cons, List.foldlM_cons]
    exact (applyOp_refines hl.1 t).bind fun s => ih hl.2 s

-- The statement for each syntactic class follows the recursion of the elaboration.
mutual

/-- A written type keeps its type where its leaves keep what they give. -/
theorem elaborate_refines : ∀ (e : TypeId), (∀ l ∈ e.leaves, l.Refines u u') →
    Refines (u.elaborate e) (u'.elaborate e)
  | .mk s d _, hl => by
    rw [TypeId.leaves, List.forall_mem_cons] at hl
    rw [elaborate, elaborate]
    have hspec : Refines (u.elaborateSpecifier s) (u'.elaborateSpecifier s) :=
      (hl.1 s.span).map _
    exact hspec.bind fun t => applyDeclarator_refines d hl.2 t

/-- A declarator makes of a type what it made of it. -/
theorem applyDeclarator_refines : ∀ (d : Declarator), (∀ l ∈ d.leaves, l.Refines u u') →
    ∀ t : Descriptor, Refines (u.applyDeclarator d t) (u'.applyDeclarator d t)
  | .flat ops suffixes, hl, t => by
    rw [Declarator.leaves, List.forall_mem_append] at hl
    rw [applyDeclarator, applyDeclarator]
    exact (applyOps_refines hl.1 t).bind fun s => applySuffixes_refines suffixes hl.2 s
  | .nested ops inner suffixes, hl, t => by
    rw [Declarator.leaves, List.forall_mem_append, List.forall_mem_append] at hl
    rw [applyDeclarator, applyDeclarator]
    exact (applyOps_refines hl.1 t).bind fun s =>
      (applySuffixes_refines suffixes hl.2.2 s).bind fun s' =>
        applyDeclarator_refines inner hl.2.1 s'

/-- So do suffixes. -/
theorem applySuffixes_refines : ∀ (ss : List Suffix),
    (∀ l ∈ Suffix.leavesEach ss, l.Refines u u') →
    ∀ t : Descriptor, Refines (u.applySuffixes ss t) (u'.applySuffixes ss t)
  | [], _, t => .refl _
  | s :: ss, hl, t => by
    rw [Suffix.leavesEach, List.forall_mem_append] at hl
    rw [applySuffixes, applySuffixes]
    exact (applySuffixes_refines ss hl.2 t).bind fun t' => applySuffix_refines s hl.1 t'

/-- So does a single suffix. -/
theorem applySuffix_refines : ∀ (s : Suffix), (∀ l ∈ s.leaves, l.Refines u u') →
    ∀ t : Descriptor, Refines (u.applySuffix s t) (u'.applySuffix s t)
  | .array n _, _, t => by
    rw [applySuffix, applySuffix]
    exact .refl _
  | .function params v _, hl, t => by
    rw [applySuffix, applySuffix]
    exact (elaborateEach_refines params hl).bind fun ps => .refl _

/-- So it is with a list of types. -/
theorem elaborateEach_refines : ∀ (es : List TypeId),
    (∀ l ∈ TypeId.leavesEach es, l.Refines u u') →
    Refines (u.elaborateEach es) (u'.elaborateEach es)
  | [], _ => .refl _
  | e :: es, hl => by
    rw [TypeId.leavesEach, List.forall_mem_append] at hl
    rw [elaborateEach, elaborateEach]
    exact (elaborate_refines e hl.1).bind fun t =>
      (elaborateEach_refines es hl.2).bind fun ts => .refl _

end

/-- A written type with no undeclared name behind a key keeps its type in a larger universe. -/
theorem ExtendedBy.elaborate (hu : u.ExtendedBy u') {e : TypeId}
    (he : ∀ name ∈ e.keyedNames, u.contains name = true) :
    Refines (u.elaborate e) (u'.elaborate e) :=
  elaborate_refines e (hu.leaf_refines he)

/-- So does a text. -/
theorem ExtendedBy.parseType (hu : u.ExtendedBy u') {text : String} (htext : u.DeclaresKeyed text) :
    Refines (u.parseType text) (u'.parseType text) := by
  intro t ht
  obtain ⟨e, hparse, he⟩ := except_bind_eq_ok.mp ht
  exact except_bind_eq_ok.mpr ⟨e, hparse, hu.elaborate (htext e hparse) t he⟩

end Universe

end TypeTraits
