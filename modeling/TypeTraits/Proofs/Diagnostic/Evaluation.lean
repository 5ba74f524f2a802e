import TypeTraits.Proofs.Query.Nodes
import TypeTraits.Proofs.Query.Related
import TypeTraits.Proofs.Support.Except

/-!
# `TypeTraits.Proofs.Diagnostic.Evaluation`: where evaluation fails

A query that has no value is diagnosed at a place of its tree: the span of one of its nodes
or of a part of one (`Node.Marks`). The parts of a type are its specifier, its operators and
its suffixes, and a step of elaboration that is refused is diagnosed at the part that asked
for it. An operation fails where one of its arguments does, or else it points to an argument,
to its name or to the whole call.

* `Universe.elaborate_marks`: types, by mutual induction over the written type.
* `Operation.result?_onError`: operations, whatever their arguments are.
* `Scope.evaluate_marks`: queries.
-/

set_option autoImplicit false

namespace TypeTraits

/-- The span is the one of a node in the tree, or of a part of one. -/
def Node.Marks (n : Node) (s : Span) : Prop :=
  ∃ m, n.Contains m ∧ (s = m.span ∨ s ∈ m.parts)

namespace Node.Marks

variable {n m : Node} {s : Span}

/-- A node marks its own span. -/
theorem self (n : Node) : n.Marks n.span := ⟨n, .self n, .inl rfl⟩

/-- It marks the spans of its parts. -/
theorem part (h : s ∈ n.parts) : n.Marks s := ⟨n, .self n, .inr h⟩

/-- It marks what a child of it marks. -/
theorem of_child (hm : m ∈ n.children) (h : m.Marks s) : n.Marks s := by
  obtain ⟨k, hk, hs⟩ := h
  exact ⟨k, .under hm hk, hs⟩

end Node.Marks

/-! ### Types -/

/-- The span is one of the given ones, or it is marked in one of the types. -/
def MarkedIn (spans : List Span) (params : List TypeId) (s : Span) : Prop :=
  s ∈ spans ∨ ∃ p ∈ params, (Node.type p).Marks s

/-- A place that is marked in a part of a type is marked in the type. -/
theorem MarkedIn.mono {spans spans' : List Span} {params params' : List TypeId} {s : Span}
    (h : MarkedIn spans params s) (hspans : spans ⊆ spans') (hparams : params ⊆ params') :
    MarkedIn spans' params' s :=
  h.imp (fun hs => hspans hs) fun ⟨p, hp, hs⟩ => ⟨p, hparams hp, hs⟩

/-- What is marked in the parts of a type is marked in the type. -/
theorem MarkedIn.marks {t : TypeId} {s : Span}
    (h : MarkedIn (t.specifier.span :: t.declarator.spans) t.declarator.params s) :
    (Node.type t).Marks s := by
  rcases h with hs | ⟨p, hp, hs⟩
  · exact .part hs
  · exact .of_child (List.mem_map_of_mem hp) hs

namespace Universe

/-- What cannot be formed is reported at the span that is given. -/
theorem formedAt_onError (span : Span) (x : Except IllFormed Descriptor) :
    OnError (fun d => d.span = span) (formedAt span x) := by
  cases x with
  | ok t => exact .ok t
  | error reason => exact .error rfl

variable (u : Universe)

/-- So is a name that is not declared. -/
theorem resolve_onError (name : String) (span : Span) :
    OnError (fun d => d.span = span) (u.resolve name span) := by
  unfold resolve
  split
  · exact .ok _
  · exact .error rfl

/-- What is wrong with a specifier is reported at its span. -/
theorem elaborateSpecifier_onError (s : Specifier) :
    OnError (fun d => d.span = s.span) (u.elaborateSpecifier s) := by
  refine OnError.map ?_ _
  cases s.base with
  | void | nullPointer | scalar k => exact .ok _
  | named name => exact u.resolve_onError name s.span
  | ofClass name | ofUnion name | ofEnum name isScoped underlying => exact formedAt_onError _ _

/-- What a pointer operator cannot be applied to is reported at its span. -/
theorem applyOp_onError (t : Descriptor) (op : PointerOp) :
    OnError (fun d => d.span = op.span) (u.applyOp t op) := by
  unfold applyOp
  split
  · exact formedAt_onError _ _
  · exact formedAt_onError _ _
  · exact formedAt_onError _ _
  · exact (u.resolve_onError _ _).bind fun _ _ => formedAt_onError _ _

/-- Operators are applied one by one, each at its own span. -/
theorem applyOps_onError (ops : List PointerOp) (t : Descriptor) :
    OnError (fun d => d.span ∈ ops.map (·.span)) (ops.foldlM u.applyOp t) := by
  refine OnError.foldlM (fun op hop t => ?_) t
  exact (u.applyOp_onError t op).mono fun d hd => hd ▸ List.mem_map_of_mem hop

mutual

/-- A type that cannot be formed is diagnosed at a place in it. -/
theorem elaborate_marks : ∀ t : TypeId,
    OnError (fun d => (Node.type t).Marks d.span) (u.elaborate t)
  | .mk s d span => by
    unfold elaborate
    refine OnError.bind ?_ fun t _ => ?_
    · refine (u.elaborateSpecifier_onError s).mono fun e he => MarkedIn.marks (.inl ?_)
      exact he ▸ List.mem_cons_self
    · refine (applyDeclarator_marked d t).mono fun e he => MarkedIn.marks ?_
      exact he.mono (List.subset_cons_self _ _) (List.Subset.refl _)

/-- So is a declarator that cannot be applied. -/
theorem applyDeclarator_marked : ∀ (d : Declarator) (t : Descriptor),
    OnError (fun e => MarkedIn d.spans d.params e.span) (u.applyDeclarator d t)
  | .flat ops suffixes, t => by
    unfold applyDeclarator
    -- Each part is blamed in its own spans, which are some of those of the declarator.
    refine OnError.bind ?_ fun t' _ => ?_
    · refine (u.applyOps_onError ops t).mono fun e he => .inl ?_
      exact List.mem_append_left _ he
    · refine (applySuffixes_marked suffixes t').mono fun e he => he.mono ?_ (List.Subset.refl _)
      exact List.subset_append_right _ _
  | .nested ops inner suffixes, t => by
    unfold applyDeclarator
    -- The declarator in parentheses is applied last.
    refine OnError.bind ?_ fun t₁ _ => OnError.bind ?_ fun t₂ _ => ?_
    · refine (u.applyOps_onError ops t).mono fun e he => .inl ?_
      exact List.mem_append_left _ he
    · refine (applySuffixes_marked suffixes t₁).mono fun e he => he.mono ?_ ?_
      · exact List.subset_append_of_subset_right _ (List.subset_append_right _ _)
      · exact List.subset_append_right _ _
    · refine (applyDeclarator_marked inner t₂).mono fun e he => he.mono ?_ ?_
      · exact List.subset_append_of_subset_right _ (List.subset_append_left _ _)
      · exact List.subset_append_left _ _

/-- A failure in a row of suffixes is at one of them, or in one of their parameters. -/
theorem applySuffixes_marked : ∀ (suffixes : List Suffix) (t : Descriptor),
    OnError (fun e => MarkedIn (suffixes.map (·.span)) (suffixes.flatMap Suffix.params) e.span)
      (u.applySuffixes suffixes t)
  | [], t => .ok t
  | s :: ss, t => by
    unfold applySuffixes
    refine OnError.bind ?_ fun t' _ => ?_
    · refine (applySuffixes_marked ss t).mono fun e he => he.mono ?_ ?_
      · exact List.subset_cons_self _ _
      · exact List.subset_append_right _ _
    · refine (applySuffix_marked s t').mono fun e he => he.mono ?_ ?_
      · exact List.cons_subset_cons _ (List.nil_subset _)
      · exact List.subset_append_left _ _

/-- A failure in a suffix is at its span, or in one of its parameters. -/
theorem applySuffix_marked : ∀ (s : Suffix) (t : Descriptor),
    OnError (fun e => MarkedIn [s.span] s.params e.span) (u.applySuffix s t)
  | .array n span, t => by
    unfold applySuffix
    exact (formedAt_onError _ _).mono fun e he => .inl (he ▸ List.mem_cons_self)
  | .function params isVariadic span, t => by
    unfold applySuffix
    refine OnError.bind ?_ fun ts _ => ?_
    · exact (elaborateEach_marked params).mono fun e he => .inr he
    · exact (formedAt_onError _ _).mono fun e he => .inl (he ▸ List.mem_cons_self)

/-- A failure in a list of types is in one of them. -/
theorem elaborateEach_marked : ∀ ts : List TypeId,
    OnError (fun e => ∃ p ∈ ts, (Node.type p).Marks e.span) (u.elaborateEach ts)
  | [] => .ok []
  | t :: ts => by
    unfold elaborateEach
    refine OnError.bind ?_ fun t' _ => OnError.bind ?_ fun ts' _ => .ok _
    · exact (elaborate_marks t).mono fun e he => ⟨t, List.mem_cons_self, he⟩
    · refine (elaborateEach_marked ts).mono fun e ⟨p, hp, he⟩ => ?_
      exact ⟨p, List.mem_cons_of_mem t hp, he⟩

end

end Universe

/-! ### Operations -/

/-- The diagnostic is the argument's own, or it is one at the argument. -/
def Argument.Blamed (a : Argument) (d : Diagnostic) : Prop :=
  a.value () = .error d ∨ d.span = a.span

/-- Operations keep that failures have the property. -/
def OutcomeRelation.onError (P : Diagnostic → Prop) : OutcomeRelation where
  Holds x _ := OnError P x
  ok := .ok
  bind h hf := h.bind fun a _ => hf a

/-- An operation that fails on its arguments blames one of them. -/
theorem Operation.result?_onError {o : Operation} {args : List Argument}
    {x : Except Diagnostic Value} (hx : o.result? args = some x) :
    OnError (fun d => ∃ a ∈ args, a.Blamed d) x := by
  have hargs : List.Forall₂
      (Argument.Related (.onError fun d => ∃ a ∈ args, a.Blamed d)) args args := by
    refine List.forall₂_same.mpr fun a ha => ⟨fun d hd => ?_, fun p => ?_⟩
    · exact ⟨a, ha, .inl hd⟩
    · exact .error ⟨a, ha, .inr rfl⟩
  obtain ⟨_, -, h⟩ := result?_related hargs hx
  exact h

/-! ### Queries -/

namespace Scope

variable (s : Scope)

/-- A call fails at the name, at the whole or at an argument. -/
theorem call_onError (op : String) (opSpan : Span) (args : List Argument) (span : Span) :
    OnError (fun d => d.span = opSpan ∨ d.span = span ∨ ∃ a ∈ args, a.Blamed d)
      (s.call op opSpan args span) := by
  unfold call
  simp only
  split
  · exact .error (.inl rfl)
  · split
    · next heq => exact (Operation.result?_onError heq).mono fun d hd => .inr (.inr hd)
    · exact .error (.inr (.inl rfl))

mutual

/-- A query without a value is diagnosed at a place in it. -/
theorem evaluate_marks : ∀ q : Query,
    OnError (fun d => (Node.query q).Marks d.span) (s.evaluate q)
  | .bool _ _ => .ok _
  | .size _ _ => .ok _
  | .type t => by
    rw [evaluate]
    refine OnError.map ((s.types.elaborate_marks t).mono fun d hd => ?_) _
    exact .of_child List.mem_cons_self hd
  | .call op opSpan args span => by
    rw [evaluate]
    refine (s.call_onError op opSpan (s.suspend args) span).mono fun d hd => ?_
    -- A call is to blame for its name or as a whole, or one of its arguments is.
    rcases hd with hname | hwhole | ⟨a, ha, hblamed⟩
    · exact .part (hname ▸ List.mem_cons_self)
    · exact hwhole ▸ .self _
    · obtain ⟨q, hq, hspan, hvalue⟩ := suspend_marks args a ha
      rcases hblamed with hown | hat
      · exact .of_child (List.mem_map_of_mem hq) (hvalue d hown)
      · rw [hat, hspan]
        exact .part (List.mem_cons_of_mem opSpan (List.mem_map_of_mem hq))

/-- An argument is one of the queries, suspended. -/
theorem suspend_marks : ∀ (qs : List Query), ∀ a ∈ s.suspend qs,
    ∃ q ∈ qs, a.span = q.span ∧ OnError (fun d => (Node.query q).Marks d.span) (a.value ())
  | [] => nofun
  | q :: qs => by
    intro a ha
    rcases List.mem_cons.mp ha with rfl | ha
    · exact ⟨q, List.mem_cons_self, rfl, evaluate_marks q⟩
    · obtain ⟨q', hq', h⟩ := suspend_marks qs a ha
      exact ⟨q', List.mem_cons_of_mem q hq', h⟩

end

end Scope

end TypeTraits
