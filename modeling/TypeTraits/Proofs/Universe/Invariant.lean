import TypeTraits.Proofs.Descriptor.Canonical
import TypeTraits.Proofs.TypeId.Leaves
import TypeTraits.Universe.Elaboration

/-!
# `TypeTraits.Proofs.Universe.Invariant`: what elaboration keeps

Elaboration builds a type by formation from what the leaves of the written type give:
the types of its bases, the classes of its member pointers, and its bounds
(`TypeId.leaves`). So a property of types that formation keeps (`Descriptor.Closed`)
passes from the leaves, those of parameters included, to the elaborated type:
`Descriptor.Closed.elaborate`.

Canonical form is such a property (`Descriptor.closed_isCanonical`).
-/

set_option autoImplicit false

namespace TypeTraits

/-- The type of a declared name is that of an entry. -/
theorem Universe.mem_entries_of_lookup? {u : Universe} {name : String} {t : Descriptor}
    (h : u.lookup? name = some t) : (name, t) ∈ u.entries := by
  obtain ⟨before, behind, he, -⟩ := List.lookup_eq_some_iff.mp h
  rw [he]
  exact List.mem_append_right _ List.mem_cons_self

/-- A name resolves to the type that it is declared with. -/
theorem Universe.resolve_eq_ok_iff (u : Universe) {name : String} {span : Span} {t : Descriptor} :
    u.resolve name span = .ok t ↔ u.lookup? name = some t := by
  unfold Universe.resolve
  cases u.lookup? name <;> simp

/-- A name that is not declared does not resolve. -/
theorem Universe.resolve_eq_error_iff (u : Universe) {name : String} {span : Span}
    {e : Diagnostic} :
    u.resolve name span = .error e ↔ u.lookup? name = none ∧ e = ⟨.unknownName name, span⟩ := by
  unfold Universe.resolve
  cases u.lookup? name <;> simp [eq_comm]

/-- A class or union is the one that its name is declared as, or a new one if there is none. -/
theorem Universe.classOrUnion_eq_ok_iff (u : Universe) {c : ClassType} {t : Descriptor} :
    u.classOrUnion c = .ok t ↔
      (u.lookup? c.name = some t ∧ ∃ d q, t = .classType d q ∧ d.isUnion = c.isUnion) ∨
        u.lookup? c.name = none ∧ t = .classType c .none := by
  unfold Universe.classOrUnion
  cases u.lookup? c.name with
  | none => simp [eq_comm]
  | some s => cases s <;> grind

/-- So is an enumeration. -/
theorem Universe.enumeration_eq_ok_iff (u : Universe) {name : String} {isScoped : Bool}
    {underlying : Option Scalar} {t : Descriptor} :
    u.enumeration name isScoped underlying = .ok t ↔
      (u.lookup? name = some t ∧ ∃ e q, t = .enumType e q ∧ e.isScoped = isScoped ∧
        (underlying = none ∨ underlying = some e.underlying)) ∨
      u.lookup? name = none ∧ (underlying.getD .int).isIntegral = true ∧
        t = .enumType ⟨name, isScoped, underlying.getD .int⟩ .none := by
  unfold Universe.enumeration
  cases u.lookup? name with
  | none =>
    dsimp only
    split
    · next hk => simp [hk, Eq.comm (b := t)]
    · next hk => simp [hk]
  | some s => cases s <;> grind

/-- A diagnosed formation succeeds exactly when the formation does. -/
theorem formedAt_eq_ok_iff {span : Span} {r : Except IllFormed Descriptor} {t : Descriptor} :
    formedAt span r = .ok t ↔ r = .ok t := by
  cases r <;> simp [formedAt]

/-- And it fails when the formation does, with the reason at the span. -/
theorem formedAt_eq_error_iff {span : Span} {r : Except IllFormed Descriptor} {e : Diagnostic} :
    formedAt span r = .error e ↔ ∃ reason, r = .error reason ∧ e = ⟨.illFormed reason, span⟩ := by
  cases r <;> simp [formedAt, eq_comm]

/-! ### Closed properties -/

/-- Every way to form a type keeps the property, arrays apart, whose bounds are leaves. -/
structure Descriptor.Closed (P : Descriptor → Prop) : Prop where
  qualified : ∀ {t : Descriptor} (q : Qualifiers), P t → P (t.qualified q)
  pointerTo : ∀ {t u : Descriptor}, P t → t.pointerTo = .ok u → P u
  lvalueRefTo : ∀ {t u : Descriptor}, P t → t.lvalueRefTo = .ok u → P u
  rvalueRefTo : ∀ {t u : Descriptor}, P t → t.rvalueRefTo = .ok u → P u
  functionOf : ∀ {r u : Descriptor} {ps : List Descriptor} {v : Bool},
    P r → (∀ p ∈ ps, P p) → r.functionOf ps v = .ok u → P u
  memberPointerTo : ∀ {c t u : Descriptor}, P c → P t → c.memberPointerTo t = .ok u → P u

/-- What the leaf gives in the universe has the property; a bound keeps it. -/
def TypeId.Leaf.Keeps (u : Universe) (P : Descriptor → Prop) : TypeId.Leaf → Prop
  | base b => ∀ span t, u.elaborateBase span b = .ok t → P t
  | owner name => ∀ t, u.lookup? name = some t → P t
  | bound n => ∀ t r, P t → t.arrayOf n = .ok r → P r

/-- Canonical form is kept by every way to form a type. -/
theorem Descriptor.closed_isCanonical : Descriptor.Closed IsCanonical where
  qualified q h := (isCanonical_qualified _ q).mpr h
  pointerTo h hu := h.pointerTo hu
  lvalueRefTo h hu := h.lvalueRefTo hu
  rvalueRefTo h hu := h.rvalueRefTo hu
  functionOf h hps hu := h.functionOf hps hu
  memberPointerTo _ h hu := h.memberPointerTo hu

namespace Descriptor.Closed

variable {P : Descriptor → Prop} {u : Universe}

/-- An operator forms a pointer or a reference; the class in a member pointer is declared. -/
theorem applyOp (hP : Closed P) {op : PointerOp} (hl : ∀ l ∈ PointerOp.leavesEach [op], l.Keeps u P)
    {t r : Descriptor} (ht : P t) (h : u.applyOp t op = .ok r) : P r := by
  obtain ⟨kind, span⟩ := op
  cases kind with
  | pointer q =>
    obtain ⟨s, hs, rfl⟩ := except_map_eq_ok.mp (formedAt_eq_ok_iff.mp h)
    exact hP.qualified _ (hP.pointerTo ht hs)
  | lvalueRef => exact hP.lvalueRefTo ht (formedAt_eq_ok_iff.mp h)
  | rvalueRef => exact hP.rvalueRefTo ht (formedAt_eq_ok_iff.mp h)
  | member owner q =>
    obtain ⟨c, hc, hf⟩ := except_bind_eq_ok.mp h
    obtain ⟨s, hs, rfl⟩ := except_map_eq_ok.mp (formedAt_eq_ok_iff.mp hf)
    -- The class is looked up, so it has the property as a leaf.
    have hclass := hl (.owner owner) List.mem_cons_self c (u.resolve_eq_ok_iff.mp hc)
    exact hP.qualified _ (hP.memberPointerTo hclass ht hs)

/-- Operators are applied in a row. -/
theorem applyOps (hP : Closed P) {ops : List PointerOp}
    (hl : ∀ l ∈ PointerOp.leavesEach ops, l.Keeps u P)
    {t r : Descriptor} (ht : P t) (h : ops.foldlM u.applyOp t = .ok r) : P r := by
  induction ops generalizing t with
  | nil =>
    cases h
    exact ht
  | cons op ops ih =>
    rw [PointerOp.leavesEach_cons, List.forall_mem_append] at hl
    rw [List.foldlM_cons] at h
    obtain ⟨s, hs, hr⟩ := except_bind_eq_ok.mp h
    exact ih hl.2 (hP.applyOp hl.1 ht hs) hr

-- The statement for each syntactic class follows the recursion of the elaboration.
mutual

/-- The type that a written type stands for has a closed property that its leaves keep. -/
theorem elaborate (hP : Closed P) :
    ∀ (e : TypeId), (∀ l ∈ e.leaves, l.Keeps u P) →
      ∀ {t : Descriptor}, u.elaborate e = .ok t → P t
  | .mk s d _, hl, t, h => by
    rw [TypeId.leaves, List.forall_mem_cons] at hl
    rw [Universe.elaborate] at h
    obtain ⟨r, hr, hd⟩ := except_bind_eq_ok.mp h
    obtain ⟨b, hbase, rfl⟩ := except_map_eq_ok.mp hr
    exact hP.applyDeclarator d hl.2 (hP.qualified _ (hl.1 _ _ hbase)) hd

/-- A declarator keeps the property, if its leaves do. -/
theorem applyDeclarator (hP : Closed P) :
    ∀ (d : Declarator), (∀ l ∈ d.leaves, l.Keeps u P) →
      ∀ {t r : Descriptor}, P t → u.applyDeclarator d t = .ok r → P r
  | .flat ops suffixes, hl, t, r, ht, h => by
    rw [Declarator.leaves, List.forall_mem_append] at hl
    rw [Universe.applyDeclarator] at h
    obtain ⟨s, hs, hr⟩ := except_bind_eq_ok.mp h
    exact hP.applySuffixes suffixes hl.2 (hP.applyOps hl.1 ht hs) hr
  | .nested ops inner suffixes, hl, t, r, ht, h => by
    rw [Declarator.leaves, List.forall_mem_append, List.forall_mem_append] at hl
    rw [Universe.applyDeclarator] at h
    obtain ⟨s, hs, h'⟩ := except_bind_eq_ok.mp h
    obtain ⟨s', hs', hr⟩ := except_bind_eq_ok.mp h'
    -- From the outside in: the operators, the suffixes, the declarator in parentheses.
    have hops := hP.applyOps hl.1 ht hs
    have hsuffixes := hP.applySuffixes suffixes hl.2.2 hops hs'
    exact hP.applyDeclarator inner hl.2.1 hsuffixes hr

/-- So do suffixes. -/
theorem applySuffixes (hP : Closed P) :
    ∀ (ss : List Suffix), (∀ l ∈ Suffix.leavesEach ss, l.Keeps u P) →
      ∀ {t r : Descriptor}, P t → u.applySuffixes ss t = .ok r → P r
  | [], _, t, r, ht, h => by
    cases h
    exact ht
  | s :: ss, hl, t, r, ht, h => by
    rw [Suffix.leavesEach, List.forall_mem_append] at hl
    rw [Universe.applySuffixes] at h
    obtain ⟨t', ht', hr⟩ := except_bind_eq_ok.mp h
    exact hP.applySuffix s hl.1 (hP.applySuffixes ss hl.2 ht ht') hr

/-- So does a single suffix. -/
theorem applySuffix (hP : Closed P) :
    ∀ (s : Suffix), (∀ l ∈ s.leaves, l.Keeps u P) →
      ∀ {t r : Descriptor}, P t → u.applySuffix s t = .ok r → P r
  | .array n _, hl, t, r, ht, h => by
    rw [Suffix.leaves, List.forall_mem_singleton] at hl
    exact hl t r ht (formedAt_eq_ok_iff.mp h)
  | .function params v _, hl, t, r, ht, h => by
    rw [Universe.applySuffix] at h
    obtain ⟨ps, hps, hr⟩ := except_bind_eq_ok.mp h
    exact hP.functionOf ht (hP.elaborateEach params hl hps) (formedAt_eq_ok_iff.mp hr)

/-- And each type of a list has it. -/
theorem elaborateEach (hP : Closed P) :
    ∀ (es : List TypeId), (∀ l ∈ TypeId.leavesEach es, l.Keeps u P) →
      ∀ {ts : List Descriptor}, u.elaborateEach es = .ok ts → ∀ t ∈ ts, P t
  | [], _, ts, h => by
    cases h
    intro t ht
    exact nomatch ht
  | e :: es, hl, ts, h => by
    rw [TypeId.leavesEach, List.forall_mem_append] at hl
    rw [Universe.elaborateEach] at h
    obtain ⟨t, ht, h'⟩ := except_bind_eq_ok.mp h
    obtain ⟨ts', hts', hr⟩ := except_bind_eq_ok.mp h'
    cases hr
    exact List.forall_mem_cons.mpr ⟨hP.elaborate e hl.1 ht, hP.elaborateEach es hl.2 hts'⟩

end

end Descriptor.Closed

/-! ### Canonical universes -/

namespace Universe

/-- Every declared type is canonical. -/
def IsCanonical (u : Universe) : Prop := ∀ e ∈ u.entries, e.2.IsCanonical

/-- Before anything is declared, there is no type that is not canonical. -/
theorem isCanonical_empty : empty.IsCanonical := by
  intro e he
  exact nomatch he

variable {u : Universe}

/-- The type of a declared name is canonical. -/
theorem IsCanonical.lookup? (hu : u.IsCanonical) {name : String} {t : Descriptor}
    (h : u.lookup? name = some t) : t.IsCanonical :=
  hu _ (u.mem_entries_of_lookup? h)

/-- A base stands for a canonical type in a canonical universe. -/
theorem IsCanonical.elaborateBase (hu : u.IsCanonical) {span : Span} {b : Base} {t : Descriptor}
    (h : u.elaborateBase span b = .ok t) : t.IsCanonical := by
  cases b with
  | void | nullPointer | scalar k =>
    cases h
    simp
  | named name => exact hu.lookup? (u.resolve_eq_ok_iff.mp h)
  | ofClass name | ofUnion name =>
    -- The name is declared, or the key introduces a type, which is canonical.
    rcases u.classOrUnion_eq_ok_iff.mp (formedAt_eq_ok_iff.mp h) with ⟨hlookup, -⟩ | ⟨-, rfl⟩
    · exact hu.lookup? hlookup
    · simp
  | ofEnum name isScoped underlying =>
    rcases u.enumeration_eq_ok_iff.mp (formedAt_eq_ok_iff.mp h) with ⟨hlookup, -⟩ | ⟨-, -, rfl⟩
    · exact hu.lookup? hlookup
    · simp

/-- A written type stands for a canonical one in a canonical universe. -/
theorem IsCanonical.elaborate (hu : u.IsCanonical) {e : TypeId} {t : Descriptor}
    (h : u.elaborate e = .ok t) : t.IsCanonical := by
  refine Descriptor.closed_isCanonical.elaborate e (fun l _ => ?_) h
  cases l with
  | base b => exact fun _ _ => hu.elaborateBase
  | owner name => exact fun _ => hu.lookup?
  | bound n => exact fun _ _ ht hr => ht.arrayOf hr

/-- So does a text that is parsed. -/
theorem IsCanonical.parseType (hu : u.IsCanonical) {text : String} {t : Descriptor}
    (h : u.parseType text = .ok t) : t.IsCanonical := by
  obtain ⟨e, -, he⟩ := except_bind_eq_ok.mp h
  exact hu.elaborate he

end Universe

end TypeTraits
