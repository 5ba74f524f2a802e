import TypeTraits.Proofs.Support.Except
import TypeTraits.Proofs.TypeId.Grammar
import TypeTraits.Universe.Elaboration

/-!
# `TypeTraits.Proofs.Universe.Spans`: elaboration does not look at places

The spans of a written type go into diagnostics and nowhere else. Moving them
moves the span of the diagnostic along and leaves a formed type as it is.

* `Universe.elaborate_mapSpans`: elaboration and a change of spans, in either order.
* `Universe.elaborate_bare_eq_ok_iff`: bare types stand for what they stood for.
-/

set_option autoImplicit false

namespace TypeTraits

/-- The diagnostic at another span. -/
def Diagnostic.mapSpan (f : Span → Span) (d : Diagnostic) : Diagnostic := ⟨d.problem, f d.span⟩

/-- Errors of either step are changed alike. -/
theorem mapError_bind {ε ε' : Type} {α β : Type} (f : ε → ε') (x : Except ε α)
    (g : α → Except ε β) :
    (x >>= g).mapError f = x.mapError f >>= fun a => (g a).mapError f := by
  cases x <;> rfl

namespace Universe

variable (u : Universe) (f : Span → Span)

/-- A formation that fails is blamed at the given span. -/
theorem formedAt_mapSpan (span : Span) (r : Except IllFormed Descriptor) :
    formedAt (f span) r = (formedAt span r).mapError (Diagnostic.mapSpan f) := by
  cases r <;> rfl

/-- A name that is not declared is blamed at the given span. -/
theorem resolve_mapSpan (name : String) (span : Span) :
    u.resolve name (f span) = (u.resolve name span).mapError (Diagnostic.mapSpan f) := by
  unfold resolve
  split <;> rfl

/-- A base has one span, which is where its diagnostic stands. -/
theorem elaborateBase_mapSpan (span : Span) (b : Base) :
    u.elaborateBase (f span) b = (u.elaborateBase span b).mapError (Diagnostic.mapSpan f) := by
  cases b with
  | named name => exact u.resolve_mapSpan f name span
  | ofClass name => exact formedAt_mapSpan f span _
  | ofUnion name => exact formedAt_mapSpan f span _
  | ofEnum name isScoped underlying => exact formedAt_mapSpan f span _
  | _ => rfl

/-- A specifier has its diagnostics from its base. -/
theorem elaborateSpecifier_mapSpan (s : Specifier) :
    u.elaborateSpecifier (s.mapSpan f) =
      (u.elaborateSpecifier s).mapError (Diagnostic.mapSpan f) := by
  have h := u.elaborateBase_mapSpan f s.span s.base
  unfold elaborateSpecifier
  rw [show (s.mapSpan f).span = f s.span from rfl, show (s.mapSpan f).base = s.base from rfl, h]
  cases u.elaborateBase s.span s.base <;> rfl

/-- An operator has one span too. -/
theorem applyOp_mapSpan (t : Descriptor) (op : PointerOp) :
    u.applyOp t (op.mapSpan f) = (u.applyOp t op).mapError (Diagnostic.mapSpan f) := by
  obtain ⟨kind, span⟩ := op
  cases kind with
  | member owner q =>
    -- Both the class and the pointer to its member may be refused.
    show (u.resolve owner (f span) >>= fun c => formedAt (f span) _) = _
    rw [u.resolve_mapSpan f owner span]
    show _ = (u.resolve owner span >>= fun c => formedAt span _).mapError _
    rw [mapError_bind]
    simp only [formedAt_mapSpan]
  | _ => exact formedAt_mapSpan f span _

/-- Operators have their diagnostics in their own spans, and the first one to fail is the same. -/
theorem foldlM_applyOp_mapSpan (ops : List PointerOp) (t : Descriptor) :
    (ops.map (·.mapSpan f)).foldlM u.applyOp t =
      (ops.foldlM u.applyOp t).mapError (Diagnostic.mapSpan f) := by
  induction ops generalizing t with
  | nil => rfl
  | cons op ops ih =>
    rw [List.map_cons, List.foldlM_cons, List.foldlM_cons, mapError_bind, u.applyOp_mapSpan f]
    simp only [ih]

mutual

/-- Elaboration and a change of spans, in either order. -/
theorem elaborate_mapSpans :
    ∀ t : TypeId, u.elaborate (t.mapSpans f) = (u.elaborate t).mapError (Diagnostic.mapSpan f)
  | .mk s d span => by
    rw [TypeId.mapSpans, elaborate, elaborate, mapError_bind, u.elaborateSpecifier_mapSpan f]
    simp only [applyDeclarator_mapSpans d]

/-- A declarator has its diagnostics in the spans of its operators and suffixes. -/
theorem applyDeclarator_mapSpans : ∀ (d : Declarator) (t : Descriptor),
    u.applyDeclarator (d.mapSpans f) t =
      (u.applyDeclarator d t).mapError (Diagnostic.mapSpan f)
  | .flat ops suffixes, t => by
    rw [Declarator.mapSpans, applyDeclarator, applyDeclarator, mapError_bind,
      u.foldlM_applyOp_mapSpan f]
    simp only [applySuffixes_mapSpans suffixes]
  | .nested ops inner suffixes, t => by
    rw [Declarator.mapSpans, applyDeclarator, applyDeclarator, mapError_bind,
      u.foldlM_applyOp_mapSpan f]
    simp only [mapError_bind, applySuffixes_mapSpans suffixes, applyDeclarator_mapSpans inner]

/-- Suffixes have theirs in their own spans. -/
theorem applySuffixes_mapSpans : ∀ (ss : List Suffix) (t : Descriptor),
    u.applySuffixes (Suffix.mapSpansEach f ss) t =
      (u.applySuffixes ss t).mapError (Diagnostic.mapSpan f)
  | [], t => rfl
  | s :: ss, t => by
    rw [Suffix.mapSpansEach, applySuffixes, applySuffixes, mapError_bind,
      applySuffixes_mapSpans ss]
    simp only [applySuffix_mapSpans s]

/-- So has a single suffix, and a parameter has them in its own. -/
theorem applySuffix_mapSpans : ∀ (s : Suffix) (t : Descriptor),
    u.applySuffix (s.mapSpans f) t = (u.applySuffix s t).mapError (Diagnostic.mapSpan f)
  | .array n span, t => by
    rw [Suffix.mapSpans, applySuffix, applySuffix, formedAt_mapSpan]
  | .function params isVariadic span, t => by
    rw [Suffix.mapSpans, applySuffix, applySuffix, mapError_bind, elaborateEach_mapSpans params]
    simp only [formedAt_mapSpan]

/-- A list of types has the diagnostic of the first one that fails. -/
theorem elaborateEach_mapSpans : ∀ ts : List TypeId,
    u.elaborateEach (TypeId.mapSpansEach f ts) =
      (u.elaborateEach ts).mapError (Diagnostic.mapSpan f)
  | [] => rfl
  | t :: ts => by
    rw [TypeId.mapSpansEach, elaborateEach, elaborateEach, mapError_bind, elaborate_mapSpans t]
    simp only [mapError_bind, elaborateEach_mapSpans ts]
    rfl

end

/-- Bare types stand for what they stood for. -/
theorem elaborate_bare_eq_ok_iff (e : TypeId) (t : Descriptor) :
    u.elaborate e.bare = .ok t ↔ u.elaborate e = .ok t := by
  rw [TypeId.bare, elaborate_mapSpans]
  cases u.elaborate e <;> simp [Except.mapError]

end Universe

end TypeTraits
