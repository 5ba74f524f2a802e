import TypeTraits.Attempt

/-!
# `TypeTraits.Selector`: one of several constrained candidates

`enableIf` hands out a value only under a condition and is ill-formed
otherwise. A `Selector` is a list of named candidates, each an attempt on a
subject; `Selector.select` runs them all and picks the single one that works.
None and several are two different failures, which name the candidates
concerned in the order of the list.
-/

set_option autoImplicit false

namespace TypeTraits

/-- The value, if the condition is true. -/
def enableIf {α : Type} (condition : Bool) (value : α) : Attempt α :=
  if condition then .ok value else .error .disabled

/-- The `void` type, if the condition is true. -/
def enableIfVoid (condition : Bool) : Attempt Descriptor := enableIf condition (.void .none)

/-- A named way to get from a subject to a value. -/
structure Candidate (σ α : Type) where
  name : String
  attempt : σ → Attempt α

/-- A chosen candidate's name and value. -/
structure Selection (α : Type) where
  name : String
  value : α
deriving DecidableEq, Repr

/-- Why no candidate was chosen; the names are those of the candidates concerned. -/
inductive SelectionError where
  | noViableCandidate (names : List String)
  | ambiguous (names : List String)
deriving DecidableEq, Repr

/-- The names that a failure is about. -/
def SelectionError.names : SelectionError → List String
  | noViableCandidate names | ambiguous names => names

/-- The failure in words. -/
def SelectionError.message : SelectionError → String
  | noViableCandidate names => "no viable candidate among " ++ ", ".intercalate names
  | ambiguous names => "ambiguous selection between " ++ ", ".intercalate names

/-- Candidates that compete for a subject. -/
abbrev Selector (σ α : Type) := List (Candidate σ α)

namespace Selector

variable {σ α : Type}

/-- The candidates that work for a subject, with the values they give. -/
def viable (candidates : Selector σ α) (subject : σ) : List (Selection α) :=
  candidates.filterMap fun c => (Attempt.resolve (c.attempt subject)).map (⟨c.name, ·⟩)

/-- The only candidate that works for a subject. -/
def select (candidates : Selector σ α) (subject : σ) : Except SelectionError (Selection α) :=
  match candidates.viable subject with
  | [] => .error (.noViableCandidate (candidates.map (·.name)))
  | [only] => .ok only
  | several => .error (.ambiguous (several.map (·.name)))

end Selector

end TypeTraits
