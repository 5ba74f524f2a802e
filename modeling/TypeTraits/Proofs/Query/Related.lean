import Mathlib.Data.List.Forall2
import TypeTraits.Query.Evaluation

/-!
# `TypeTraits.Proofs.Query.Related`: operations treat their arguments alike

An operation forces its arguments and makes its result of what they come to; that an argument
does not fit is the only other thing it can fail with on its own. So whatever relation between
outcomes is kept by steps behind one another (`OutcomeRelation`), an operation keeps it: related
arguments lead to related results (`Operation.result?_related`).

That a failure stands at one of the arguments, that values do not change in a larger universe
and that they do not depend on places are such relations.
-/

set_option autoImplicit false

namespace TypeTraits

/-- A relation between outcomes that equal values have and that steps behind one another keep. -/
structure OutcomeRelation where
  Holds : ∀ {α : Type}, Except Diagnostic α → Except Diagnostic α → Prop
  ok : ∀ {α : Type} (a : α), Holds (.ok a) (.ok a)
  bind : ∀ {α β : Type} {x y : Except Diagnostic α} {f g : α → Except Diagnostic β},
    Holds x y → (∀ a, Holds (f a) (g a)) → Holds (x >>= f) (y >>= g)

variable {R : OutcomeRelation}

/-- The arguments have related values, and what is wrong with these is related as well. -/
structure Argument.Related (R : OutcomeRelation) (a a' : Argument) : Prop where
  value : R.Holds (a.value ()) (a'.value ())
  misfit : ∀ {α : Type} (p : Problem),
    R.Holds (.error ⟨p, a.span⟩ : Except Diagnostic α) (.error ⟨p, a'.span⟩)

namespace Argument.Related

variable {a a' : Argument}

/-- Related arguments are related as types. -/
theorem type (h : a.Related R a') : R.Holds a.type a'.type := by
  refine R.bind h.value fun v => ?_
  cases v with
  | type t => exact R.ok t
  | bool b | size n => exact h.misfit _

/-- They are related as conditions. -/
theorem condition (h : a.Related R a') : R.Holds a.condition a'.condition := by
  refine R.bind h.value fun v => ?_
  cases v with
  | type t => exact h.misfit _
  | bool b | size n => exact R.ok _

/-- They are related as sizes. -/
theorem size (h : a.Related R a') : R.Holds a.size a'.size := by
  refine R.bind h.value fun v => ?_
  cases v with
  | size n => exact R.ok n
  | bool b | type t => exact h.misfit _

end Argument.Related

section

variable {args args' : List Argument}

/-- Related operands are run in the same order and up to the same one. -/
theorem Decision.decideFrom_related {decisive : Bool}
    (h : List.Forall₂ (Argument.Related R) args args') (index : Nat) (sofar : Decision Value) :
    R.Holds (decideFrom decisive index sofar (args.map fun a (_ : Unit) => a.condition))
      (decideFrom decisive index sofar (args'.map fun a (_ : Unit) => a.condition)) := by
  induction h generalizing index sofar with
  | nil => exact R.ok sofar
  | cons ha _ ih =>
    rw [List.map_cons, List.map_cons, decideFrom, decideFrom]
    refine R.bind ha.condition fun v => ?_
    split
    · exact R.ok _
    · exact ih _ _

/-- So are many of them, read one after another. -/
theorem mapM_type_related (h : List.Forall₂ (Argument.Related R) args args') :
    R.Holds (args.mapM Argument.type) (args'.mapM Argument.type) := by
  induction h with
  | nil => exact R.ok []
  | cons ha _ ih =>
    rw [List.mapM_cons, List.mapM_cons]
    exact R.bind ha.type fun t => R.bind ih fun ts => R.ok _

namespace Operation

/-- A value that is made of the type of an argument. -/
theorem related_of_type {a a' : Argument} (h : a.Related R a') (f : Descriptor → Value) :
    R.Holds (do return f (← a.type)) (do return f (← a'.type)) :=
  R.bind h.type fun _ => R.ok _

/-- Related arguments lead to related results. -/
theorem result?_related {o : Operation} (h : List.Forall₂ (Argument.Related R) args args')
    {x : Except Diagnostic Value} (hx : o.result? args = some x) :
    ∃ y, o.result? args' = some y ∧ R.Holds x y := by
  have connective : ∀ decisive b,
      R.Holds (decided <$> Decision.decideFrom decisive 0 (.vacuous b)
          (args.map fun a (_ : Unit) => a.condition))
        (decided <$> Decision.decideFrom decisive 0 (.vacuous b)
          (args'.map fun a (_ : Unit) => a.condition)) := by
    intro decisive b
    rw [map_eq_pure_bind, map_eq_pure_bind]
    exact R.bind (Decision.decideFrom_related h 0 _) fun d => R.ok _
  unfold result? at hx
  -- One case for each operation, with the arguments that it takes.
  split at hx
  case h_14 => cases hx
  all_goals obtain rfl := Option.some.inj hx
  case h_1 => exact ⟨_, rfl, connective _ _⟩
  case h_2 => exact ⟨_, rfl, connective _ _⟩
  all_goals obtain _ | ⟨ha, hrest⟩ := h
  case h_3.cons =>
    cases hrest
    exact ⟨_, rfl, R.bind ha.condition fun v => R.ok _⟩
  case h_4.cons =>
    obtain _ | ⟨hb, _ | ⟨hc, _ | _⟩⟩ := hrest
    refine ⟨_, rfl, R.bind ha.condition fun v => ?_⟩
    split
    · exact related_of_type hb _
    · exact related_of_type hc _
  case h_5.cons =>
    cases hrest
    refine ⟨_, rfl, R.bind ha.condition fun v => ?_⟩
    split
    · exact R.ok _
    · exact ha.misfit _
  case h_6.cons =>
    obtain _ | ⟨hb, _ | _⟩ := hrest
    refine ⟨_, rfl, R.bind ha.condition fun v => ?_⟩
    split
    · exact related_of_type hb _
    · exact ha.misfit _
  case h_7.cons =>
    obtain _ | ⟨hb, _ | _⟩ := hrest
    exact ⟨_, rfl, R.bind ha.type fun t => related_of_type hb _⟩
  case h_8.cons =>
    refine ⟨_, rfl, R.bind ha.type fun t => ?_⟩
    exact R.bind (mapM_type_related hrest) fun ts => R.ok _
  case h_11.cons =>
    obtain _ | ⟨hi, _ | _⟩ := hrest
    exact ⟨_, rfl, R.bind ha.type fun t => R.bind hi.size fun n => R.ok _⟩
  case h_9.cons | h_10.cons | h_12.cons | h_13.cons =>
    cases hrest
    exact ⟨_, rfl, related_of_type ha _⟩

end Operation

end

end TypeTraits
