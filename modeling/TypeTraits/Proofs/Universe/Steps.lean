import TypeTraits.Proofs.Universe.Invariant

/-!
# `TypeTraits.Proofs.Universe.Steps`: declarators step by step

A declarator is a tree, and elaboration goes through it along the tree. Its meaning is easier to
say of a list: its steps (`Declarator.steps`) are its pointer operators from the left, then its
suffixes from the right, then the steps of the declarator in parentheses. Each step forms a type
from the type that the steps in front of it have come to. What it forms is said by
`Universe.formation`, once for all kinds of steps.

`Universe.elaborate_in_binding_order` is the main theorem. It says for every written type what it
stands for and, where it stands for none, which step is to blame and for what: the first that
cannot be applied.
-/

set_option autoImplicit false

namespace TypeTraits

/-- One step of a declarator. -/
inductive DeclaratorStep where
  | operator (op : PointerOp)
  | suffix (s : Suffix)

namespace DeclaratorStep

/-- Where the step was read. -/
def span : DeclaratorStep → Span
  | operator op => op.span
  | suffix s => s.span

/-- Operators from the left, then suffixes from the right. -/
def ofParts (ops : List PointerOp) (suffixes : List Suffix) : List DeclaratorStep :=
  ops.map operator ++ suffixes.reverse.map suffix

end DeclaratorStep

/-- The steps of a declarator, in the order in which they bind. -/
def Declarator.steps : Declarator → List DeclaratorStep
  | flat ops suffixes => DeclaratorStep.ofParts ops suffixes
  | nested ops inner suffixes => DeclaratorStep.ofParts ops suffixes ++ inner.steps

namespace Universe

variable (u : Universe)

/-- How a step forms a type. The class of a member must be declared for it, and the types of
parameters must have been formed. -/
def formation : DeclaratorStep → Except Diagnostic (Descriptor → Except IllFormed Descriptor)
  | .operator ⟨.pointer q, _⟩ => .ok fun t => t.pointerTo.map (·.qualified q)
  | .operator ⟨.lvalueRef, _⟩ => .ok Descriptor.lvalueRefTo
  | .operator ⟨.rvalueRef, _⟩ => .ok Descriptor.rvalueRefTo
  | .operator ⟨.member owner q, span⟩ =>
    (u.resolve owner span).map fun c t => (c.memberPointerTo t).map (·.qualified q)
  | .suffix (.array n _) => .ok (·.arrayOf n)
  | .suffix (.function params isVariadic _) =>
    (params.mapM u.elaborate).map fun ps t => t.functionOf ps isVariadic

/-- The steps can be applied to the first type, one after the other, and come to the second. -/
inductive Applies : List DeclaratorStep → Descriptor → Descriptor → Prop
  | nil (t : Descriptor) : Applies [] t t
  | cons {step : DeclaratorStep} {steps : List DeclaratorStep} {t t' t'' : Descriptor}
      {form : Descriptor → Except IllFormed Descriptor} :
    u.formation step = .ok form → form t = .ok t' → Applies steps t' t'' →
    Applies (step :: steps) t t''

/-- The step cannot be applied to the type, for the reason of the diagnostic. -/
inductive Refuses : DeclaratorStep → Descriptor → Diagnostic → Prop
  | noFormation {step : DeclaratorStep} {t : Descriptor} {e : Diagnostic} :
    u.formation step = .error e → Refuses step t e
  | illFormed {step : DeclaratorStep} {t : Descriptor} {reason : IllFormed}
      {form : Descriptor → Except IllFormed Descriptor} :
    u.formation step = .ok form → form t = .error reason →
    Refuses step t ⟨.illFormed reason, step.span⟩

/-! ### What a step makes of a type -/

/-- What a step makes of a type, or why it makes nothing of it. -/
def applyStep (t : Descriptor) (step : DeclaratorStep) : Except Diagnostic Descriptor := do
  let form ← u.formation step
  formedAt step.span (form t)

/-- A step makes of a type what the formation does that the step stands for. -/
theorem applyStep_eq_ok_iff {t t' : Descriptor} {step : DeclaratorStep} :
    u.applyStep t step = .ok t' ↔ ∃ form, u.formation step = .ok form ∧ form t = .ok t' := by
  simp only [applyStep, except_bind_eq_ok, formedAt_eq_ok_iff]

/-- A step fails where it has no formation, or where this one refuses the type. -/
theorem applyStep_eq_error_iff {t : Descriptor} {step : DeclaratorStep} {e : Diagnostic} :
    u.applyStep t step = .error e ↔ u.Refuses step t e := by
  simp only [applyStep, except_bind_eq_error, formedAt_eq_error_iff]
  constructor
  · rintro (h | ⟨form, hform, reason, hreason, rfl⟩)
    · exact .noFormation h
    · exact .illFormed hform hreason
  · intro h
    cases h with
    | noFormation h => exact .inl h
    | illFormed hform hreason => exact .inr ⟨_, hform, _, hreason, rfl⟩

/-- Steps can be applied if none of them fails on what those in front of it come to. -/
theorem foldlM_applyStep_eq_ok_iff {steps : List DeclaratorStep} {t t' : Descriptor} :
    steps.foldlM u.applyStep t = .ok t' ↔ u.Applies steps t t' := by
  induction steps generalizing t with
  | nil =>
    constructor
    · rintro ⟨⟩
      exact .nil _
    · rintro ⟨⟩
      rfl
  | cons step steps ih =>
    simp only [List.foldlM_cons, except_bind_eq_ok, applyStep_eq_ok_iff, ih]
    constructor
    · rintro ⟨s, ⟨form, hform, hs⟩, hsteps⟩
      exact .cons hform hs hsteps
    · intro h
      cases h with
      | cons hform hs hsteps => exact ⟨_, ⟨_, hform, hs⟩, hsteps⟩

/-! ### Elaboration goes through the steps -/

/-- Types are elaborated one after another. -/
theorem elaborateEach_eq_mapM (ts : List TypeId) : u.elaborateEach ts = ts.mapM u.elaborate := by
  induction ts with
  | nil => rfl
  | cons t ts ih => rw [elaborateEach, ih, List.mapM_cons]

/-- An operator is applied as a step. -/
theorem applyOp_eq (t : Descriptor) (op : PointerOp) :
    u.applyOp t op = u.applyStep t (.operator op) := by
  obtain ⟨kind, span⟩ := op
  cases kind with
  | pointer q | lvalueRef | rvalueRef => rfl
  | member owner q =>
    show u.resolve owner span >>= _ = (u.resolve owner span).map _ >>= _
    cases u.resolve owner span with
    | ok c => rfl
    | error e => rfl

/-- So is a suffix. -/
theorem applySuffix_eq (s : Suffix) (t : Descriptor) :
    u.applySuffix s t = u.applyStep t (.suffix s) := by
  cases s with
  | array n span =>
    rw [applySuffix]
    rfl
  | function params v span =>
    rw [applySuffix, elaborateEach_eq_mapM]
    show params.mapM u.elaborate >>= _ = (params.mapM u.elaborate).map _ >>= _
    cases params.mapM u.elaborate with
    | ok ps => rfl
    | error e => rfl

/-- The last suffix is the first one to be applied. -/
theorem applySuffixes_eq (ss : List Suffix) (t : Descriptor) :
    u.applySuffixes ss t = (ss.reverse.map .suffix).foldlM u.applyStep t := by
  induction ss with
  | nil =>
    rw [applySuffixes]
    rfl
  | cons s ss ih =>
    rw [applySuffixes, ih, List.reverse_cons, List.map_append, List.foldlM_append]
    refine except_bind_congr fun t' _ => ?_
    rw [applySuffix_eq]
    show _ = (u.applyStep t' (.suffix s) >>= fun t'' => pure t'')
    rw [bind_pure]

/-- Operators, then suffixes. -/
theorem foldlM_ofParts (ops : List PointerOp) (ss : List Suffix) (t : Descriptor) :
    (DeclaratorStep.ofParts ops ss).foldlM u.applyStep t =
      ops.foldlM u.applyOp t >>= u.applySuffixes ss := by
  rw [DeclaratorStep.ofParts, List.foldlM_append, List.foldlM_map]
  simp only [← applyOp_eq, ← applySuffixes_eq]

/-- A declarator is applied by its steps. -/
theorem applyDeclarator_eq_foldlM (d : Declarator) (t : Descriptor) :
    u.applyDeclarator d t = d.steps.foldlM u.applyStep t := by
  cases d with
  | flat ops ss => rw [applyDeclarator, Declarator.steps, foldlM_ofParts]
  | nested ops inner ss =>
    rw [applyDeclarator, Declarator.steps, List.foldlM_append, foldlM_ofParts, bind_assoc]
    simp only [← applyDeclarator_eq_foldlM inner]

/-! ### Which step is to blame -/

/-- A step has no way to form a type if the class of a member is not declared, or if a
parameter has no type; the first such parameter is to blame. -/
theorem formation_eq_error_iff {step : DeclaratorStep} {e : Diagnostic} :
    u.formation step = .error e ↔
      (∃ owner q span, step = .operator ⟨.member owner q, span⟩ ∧ u.lookup? owner = none ∧
        e = ⟨.unknownName owner, span⟩) ∨
      ∃ before p behind isVariadic span,
        step = .suffix (.function (before ++ p :: behind) isVariadic span) ∧
        (∀ p' ∈ before, ∃ t, u.elaborate p' = .ok t) ∧ u.elaborate p = .error e := by
  -- Only classes of members and types of parameters are looked up.
  cases step with
  | operator op =>
    obtain ⟨kind, span⟩ := op
    cases kind with
    | pointer q | lvalueRef | rvalueRef => simp [formation]
    | member owner q =>
      simp [formation, except_map_eq_error, resolve_eq_error_iff]
  | suffix s =>
    cases s with
    | array n span => simp [formation]
    | function params v span =>
      simp [formation, except_map_eq_error, mapM_eq_error_iff]

/-- A written type is elaborated by the steps of its declarator, from its base on. -/
theorem elaborate_eq_foldlM (s : Specifier) (d : Declarator) (span : Span) :
    u.elaborate (.mk s d span) =
      u.elaborateBase s.span s.base >>= fun base =>
        d.steps.foldlM u.applyStep (base.qualified s.quals) := by
  rw [elaborate, elaborateSpecifier]
  cases u.elaborateBase s.span s.base with
  | ok base => exact u.applyDeclarator_eq_foldlM d _
  | error e => rfl

/-- A written type stands for what its steps make of its base, with the qualifiers of the
specifier put on first. It stands for nothing if the base does not or if a step cannot be applied.
Then the first such step is to blame: those in front of it can be applied, and it is refused on
the type that they come to, either because it has no way to form a type or because this way
fails, for the reason that is given at its span. What is behind it plays no part. -/
theorem elaborate_in_binding_order (s : Specifier) (d : Declarator) (span : Span) :
    (∀ t, u.elaborate (.mk s d span) = .ok t ↔
      ∃ base, u.elaborateBase s.span s.base = .ok base ∧
        u.Applies d.steps (base.qualified s.quals) t) ∧
    (∀ e, u.elaborate (.mk s d span) = .error e ↔
      u.elaborateBase s.span s.base = .error e ∨
      ∃ base before step behind t, u.elaborateBase s.span s.base = .ok base ∧
        d.steps = before ++ step :: behind ∧ u.Applies before (base.qualified s.quals) t ∧
        u.Refuses step t e) ∧
    ∀ step e, u.formation step = .error e ↔
      (∃ owner q span, step = .operator ⟨.member owner q, span⟩ ∧ u.lookup? owner = none ∧
        e = ⟨.unknownName owner, span⟩) ∨
      ∃ before p behind isVariadic span,
        step = .suffix (.function (before ++ p :: behind) isVariadic span) ∧
        (∀ p' ∈ before, ∃ t, u.elaborate p' = .ok t) ∧ u.elaborate p = .error e := by
  refine ⟨fun t => ?_, fun e => ?_, fun step e => u.formation_eq_error_iff⟩
  · simp only [elaborate_eq_foldlM, except_bind_eq_ok, foldlM_applyStep_eq_ok_iff]
  · simp only [elaborate_eq_foldlM, except_bind_eq_error, foldlM_eq_error_iff,
      foldlM_applyStep_eq_ok_iff, applyStep_eq_error_iff, exists_and_left]

end Universe

end TypeTraits
