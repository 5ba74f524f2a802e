import TypeTraits.Proofs.Query.Nodes
import TypeTraits.Proofs.Universe.Invariant
import TypeTraits.Query.Evaluation

/-!
# `TypeTraits.Proofs.Query.Canonical`: queries that come to a type

An operation gets at types only through the values of its arguments, through the
listed transformations and as the `void` of a gate. Conditions are never types
(`Argument.condition_eq_ok_iff`), so the value that decides a connective is none
either (`Decision.decideFrom_forall`). So a property of types that `void` has and
transformations keep passes from the types in a query to the type that the query comes to
(`Scope.forall_of_evaluate`).

Hence a query that comes to a type in a canonical universe comes to a canonical one
(`Scope.isCanonical_of_evaluate`).
-/

set_option autoImplicit false

namespace TypeTraits

/-! ### The values of arguments -/

namespace Argument

variable {a : Argument}

/-- An argument is a type exactly if its value is that type. -/
theorem type_eq_ok_iff {t : Descriptor} : a.type = .ok t ↔ a.value () = .ok (.type t) := by
  unfold type
  rw [except_bind_eq_ok]
  constructor
  · rintro ⟨v, hv, h⟩
    cases v with
    | type s =>
      cases h
      exact hv
    | bool b | size n => exact nomatch h
  · intro h
    exact ⟨_, h, rfl⟩

/-- A condition is the argument's value, unless that is a type. -/
theorem condition_eq_ok_iff {v : Value} :
    a.condition = .ok v ↔ a.value () = .ok v ∧ ∀ t, v ≠ .type t := by
  unfold condition
  rw [except_bind_eq_ok]
  constructor
  · rintro ⟨w, hw, h⟩
    -- A type is the one value that is no condition.
    cases w with
    | type t => exact nomatch h
    | bool b | size n =>
      cases h
      exact ⟨hw, by simp⟩
  · rintro ⟨h, hv⟩
    refine ⟨v, h, ?_⟩
    cases v with
    | type t => exact absurd rfl (hv t)
    | bool b | size n => rfl

end Argument

/-! ### The operand that decides -/

/-- What all operands' values have in common, the deciding operand's value has. -/
theorem Decision.decideFrom_forall {ε α : Type} [Truth α] {P : α → Prop} {decisive : Bool}
    {operands : List (Unit → Except ε α)} (hP : ∀ run ∈ operands, ∀ v, run () = .ok v → P v)
    {index : Nat} {sofar d : Decision α} (hs : ∀ v ∈ sofar.operand?, P v)
    (h : decideFrom decisive index sofar operands = .ok d) : ∀ v ∈ d.operand?, P v := by
  induction operands generalizing index sofar with
  | nil =>
    cases h
    exact hs
  | cons run rest ih =>
    rw [List.forall_mem_cons] at hP
    obtain ⟨v, hv, h⟩ := except_bind_eq_ok.mp h
    -- The operand that was just run decides, or else it is the one so far.
    have hv : ∀ w ∈ (Decision.operand index v).operand?, P w := by
      rintro w ⟨⟩
      exact hP.1 v hv
    split at h
    · cases h
      exact hv
    · exact ih hP.2 hv h

namespace Operation

/-- A connective never comes to a type. -/
theorem decided_ne_type {decisive b : Bool} {args : List Argument} {t : Descriptor} :
    (decided <$> Decision.decideFrom decisive 0 (.vacuous b)
      (args.map fun a _ => a.condition)) ≠ .ok (.type t) := by
  intro h
  obtain ⟨d, hd, ht⟩ := except_map_eq_ok.mp h
  have hne : ∀ v ∈ d.operand?, ∀ t, v ≠ .type t := by
    refine Decision.decideFrom_forall ?_ (by simp [Decision.operand?]) hd
    intro run hrun v hv
    obtain ⟨a, -, rfl⟩ := List.mem_map.mp hrun
    exact (Argument.condition_eq_ok_iff.mp hv).2
  cases d with
  | operand i v => exact hne v rfl t ht
  | vacuous b => exact nomatch ht

/-- A type that an operation comes to is the `void` of a gate, the type of an argument or
what a transformation makes of the type of an argument. -/
theorem origin_of_result? {op : Operation} {args : List Argument} {t : Descriptor}
    (h : op.result? args = some (.ok (.type t))) :
    t = .void .none ∨ ∃ a ∈ args, ∃ s, a.type = .ok s ∧
      (t = s ∨ ∃ f, op = .transformation f ∧ t = f.apply s) := by
  -- An operation that returns the type of one of its arguments.
  have returned : ∀ a ∈ args,
      (do return Value.type (← a.type) : Except Diagnostic Value) = .ok (.type t) →
      t = .void .none ∨ ∃ a ∈ args, ∃ s, a.type = .ok s ∧
        (t = s ∨ ∃ f, op = .transformation f ∧ t = f.apply s) := by
    intro a ha h
    obtain ⟨s, hs, hst⟩ := except_bind_eq_ok.mp h
    cases hst
    exact .inr ⟨a, ha, t, hs, .inl rfl⟩
  unfold result? at h
  split at h
  case h_1 => exact absurd (Option.some.inj h) decided_ne_type
  case h_2 => exact absurd (Option.some.inj h) decided_ne_type
  case h_4 =>
    obtain ⟨v, -, h⟩ := except_bind_eq_ok.mp (Option.some.inj h)
    split at h
    · exact returned _ (by simp) h
    · exact returned _ (by simp) h
  case h_5 =>
    obtain ⟨v, -, h⟩ := except_bind_eq_ok.mp (Option.some.inj h)
    split at h
    · cases h
      exact .inl rfl
    · exact nomatch h
  case h_6 =>
    obtain ⟨v, -, h⟩ := except_bind_eq_ok.mp (Option.some.inj h)
    split at h
    · exact returned _ (by simp) h
    · exact nomatch h
  case h_13 f a =>
    obtain ⟨s, hs, hst⟩ := except_bind_eq_ok.mp (Option.some.inj h)
    cases hst
    exact .inr ⟨a, List.mem_cons_self, s, hs, .inr ⟨f, rfl, rfl⟩⟩
  case h_14 => exact nomatch h
  -- The others come to a boolean or a size, behind one argument or behind two.
  case h_3 | h_9 | h_10 | h_12 =>
    obtain ⟨v, -, h⟩ := except_bind_eq_ok.mp (Option.some.inj h)
    exact nomatch h
  case h_7 | h_8 | h_11 =>
    obtain ⟨v, -, h⟩ := except_bind_eq_ok.mp (Option.some.inj h)
    obtain ⟨w, -, h⟩ := except_bind_eq_ok.mp h
    exact nomatch h

/-- An operation that comes to a type comes to one with the property, if its arguments do. -/
theorem forall_of_result? {P : Descriptor → Prop} (hvoid : P (.void .none)) {op : Operation}
    (hop : ∀ f, op = .transformation f → ∀ t, P t → P (f.apply t)) {args : List Argument}
    (hargs : ∀ a ∈ args, ∀ t, a.value () = .ok (.type t) → P t) {t : Descriptor}
    (h : op.result? args = some (.ok (.type t))) : P t := by
  rcases origin_of_result? h with rfl | ⟨a, ha, s, hs, ht⟩
  · exact hvoid
  · have hP : P s := hargs a ha s (Argument.type_eq_ok_iff.mp hs)
    rcases ht with rfl | ⟨f, hf, rfl⟩
    · exact hP
    · exact hop f hf s hP

end Operation

namespace Scope

/-- A transformation that a name stands for is a listed one. -/
theorem mem_all_of_operation? {s : Scope} {name : String} {f : Transformation}
    (h : s.operation? name = some (.transformation f)) : f ∈ Transformation.all := by
  unfold operation? at h
  split at h
  -- The names of the language stand for no transformation.
  iterate 9 exact nomatch h
  split at h
  · exact nomatch h
  · obtain ⟨g, hg, hf⟩ := Option.map_eq_some_iff.mp h
    cases hf
    exact List.mem_of_find?_eq_some hg

variable {s : Scope} {P : Descriptor → Prop}

mutual

/-- What the types in a query have, what `void` has and what transformations keep, the type has
that the query comes to. -/
theorem forall_of_evaluate (hvoid : P (.void .none))
    (hkept : ∀ f ∈ Transformation.all, ∀ t, P t → P (f.apply t)) : ∀ (q : Query),
    (∀ e, (Node.query q).Contains (.type e) → ∀ t, s.types.elaborate e = .ok t → P t) →
    ∀ {t : Descriptor}, s.evaluate q = .ok (.type t) → P t
  | .bool b _, _, t, h => nomatch h
  | .size n _, _, t, h => nomatch h
  | .type e, htypes, t, h => by
    obtain ⟨r, hr, hrt⟩ := except_map_eq_ok.mp h
    cases hrt
    exact htypes e (.under List.mem_cons_self (.self _)) t hr
  | .call op opSpan args span, htypes, t, h => by
    obtain ⟨operation, hop, hv⟩ := exists_result?_of_call h
    -- The types in an argument are some of those in the query.
    have hargs := forall_of_suspend hvoid hkept args fun q hq e he =>
      htypes e (.under (List.mem_map_of_mem hq) he)
    refine operation.forall_of_result? hvoid ?_ hargs hv
    rintro f rfl
    exact hkept f (mem_all_of_operation? hop)

/-- So does the type of every argument that waits to be evaluated. -/
theorem forall_of_suspend (hvoid : P (.void .none))
    (hkept : ∀ f ∈ Transformation.all, ∀ t, P t → P (f.apply t)) : ∀ (qs : List Query),
    (∀ q ∈ qs, ∀ e, (Node.query q).Contains (.type e) → ∀ t, s.types.elaborate e = .ok t → P t) →
    ∀ a ∈ s.suspend qs, ∀ t, a.value () = .ok (.type t) → P t
  | [], _, a, ha, _, _ => nomatch ha
  | q :: qs, htypes, a, ha, t, h => by
    rw [List.forall_mem_cons] at htypes
    rw [suspend] at ha
    rcases List.mem_cons.mp ha with rfl | ha
    · exact forall_of_evaluate hvoid hkept q htypes.1 h
    · exact forall_of_suspend hvoid hkept qs htypes.2 a ha t h

end

/-- A query that comes to a type in a canonical universe comes to a canonical one. -/
theorem isCanonical_of_evaluate (hs : s.types.IsCanonical) (q : Query) {t : Descriptor}
    (h : s.evaluate q = .ok (.type t)) : t.IsCanonical :=
  forall_of_evaluate (Descriptor.isCanonical_void _) (fun _ hf _ ht => ht.transformation hf) q
    (fun _ _ _ he => hs.elaborate he) h

end Scope

end TypeTraits
