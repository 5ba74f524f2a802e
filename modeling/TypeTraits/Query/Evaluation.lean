import TypeTraits.Catalog.Standard
import TypeTraits.Query.Basic
import TypeTraits.Transformation
import TypeTraits.Universe.Elaboration

/-!
# `TypeTraits.Query.Evaluation`: the value of a query

A query is evaluated in a `Scope`, which holds the universe for its types and
the catalog for its predicates. The arguments of an operation are suspended
(`Argument`): the operation forces those it needs, from the left, and what it
does not force may well be ill-formed. `Operation.result?` says which they are.

An operation is called by its name with or without one ending `_t` or `_v`.
-/

set_option autoImplicit false

namespace TypeTraits

/-- What the names in a query refer to. -/
structure Scope where
  types : Universe
  catalog : Catalog

/-- An argument that is evaluated when it is needed. -/
structure Argument where
  span : Span
  value : Unit → Except Diagnostic Value

namespace Argument

/-- The argument's value, which must be a type. -/
def type (a : Argument) : Except Diagnostic Descriptor := do
  match ← a.value () with
  | .type t => return t
  | other => throw ⟨.expectedType other, a.span⟩

/-- The argument's value, which must be a boolean or a size. -/
def condition (a : Argument) : Except Diagnostic Value := do
  match ← a.value () with
  | .type t => throw ⟨.expectedCondition t, a.span⟩
  | v => return v

/-- The argument's value, which must be a size. -/
def size (a : Argument) : Except Diagnostic Nat := do
  match ← a.value () with
  | .size n => return n
  | other => throw ⟨.expectedSize other, a.span⟩

end Argument

/-- What a name in front of `<` stands for. -/
inductive Operation where
  | conjunction
  | disjunction
  | negation
  | conditional
  | enableIf
  | isSame
  | isAnyOf
  | rank
  | extent
  | predicate (p : Predicate)
  | transformation (f : Transformation)

/-- The name without one ending `_t`, or else without one ending `_v`. -/
def Operation.baseName (op : String) : String :=
  match op.toList.reverse with
  | 't' :: '_' :: rest | 'v' :: '_' :: rest => String.ofList rest.reverse
  | _ => op

/-- The operation of a name. Names of the language come before predicates, and these
before transformations. -/
def Scope.operation? (s : Scope) (name : String) : Option Operation :=
  match name with
  | "conjunction" => some .conjunction
  | "disjunction" => some .disjunction
  | "negation" => some .negation
  | "conditional" => some .conditional
  | "enable_if" => some .enableIf
  | "is_same" => some .isSame
  | "is_any_of" => some .isAnyOf
  | "rank" => some .rank
  | "extent" => some .extent
  | _ =>
    -- Predicates are looked up before transformations.
    match s.catalog.get? name with
    | some p => some (.predicate p)
    | none => (Transformation.find? name).map .transformation

namespace Operation

/-- How many arguments the operation takes, where that is limited. -/
def arity? : Operation → Option Arity
  | conjunction | disjunction => none
  | negation | rank | predicate _ | transformation _ => some (.exactly 1)
  | isSame => some (.exactly 2)
  | conditional => some (.exactly 3)
  | enableIf | extent => some .oneOrTwo
  | isAnyOf => some .atLeastOne

/-- The value of a connective: that of the operand which decided. -/
def decided : Decision Value → Value
  | .operand _ v => v
  | .vacuous b => .bool b

/-- The value of the operation; nothing if it does not take that many arguments. -/
def result? : Operation → List Argument → Option (Except Diagnostic Value)
  | conjunction, args =>
    some (decided <$> Decision.conjunction (args.map fun a _ => a.condition))
  | disjunction, args =>
    some (decided <$> Decision.disjunction (args.map fun a _ => a.condition))
  | negation, [a] => some do return .bool (TypeTraits.negation (← a.condition))
  | conditional, [c, a, b] => some do
    -- The branch that is not chosen is not evaluated, whatever it is.
    if truth (← c.condition) then return .type (← a.type) else return .type (← b.type)
  | enableIf, [c] => some do
    if truth (← c.condition) then return .type (.void .none) else throw ⟨.disabled, c.span⟩
  | enableIf, [c, a] => some do
    if truth (← c.condition) then return .type (← a.type) else throw ⟨.disabled, c.span⟩
  | isSame, [a, b] => some do
    let t ← a.type
    let t' ← b.type
    return .bool (t == t')
  | isAnyOf, a :: candidates => some do
    let t ← a.type
    return .bool (t.isAnyOf (← candidates.mapM (·.type)))
  | rank, [a] => some do return .size (← a.type).rank
  | extent, [a] => some do return .size ((← a.type).extent 0)
  | extent, [a, i] => some do
    let t ← a.type
    return .size (t.extent (← i.size))
  | predicate p, [a] => some do return .bool (p.holds (← a.type))
  | transformation f, [a] => some do return .type (f.apply (← a.type))
  | _, _ => none

end Operation

namespace Scope

/-- The scope of the standard catalog. -/
def ofUniverse (u : Universe) : Scope := ⟨u, .standard⟩

/-- The value of a call. Neither an unknown name nor a wrong number of arguments looks at
the arguments. -/
def call (s : Scope) (op : String) (opSpan : Span) (args : List Argument) (span : Span) :
    Except Diagnostic Value :=
  let name := Operation.baseName op
  match s.operation? name with
  | none => .error ⟨.unknownOperation op, opSpan⟩
  | some operation =>
    match operation.result? args with
    | some value => value
    | none =>
      .error ⟨.wrongArity name (operation.arity?.getD (.exactly 0)) args.length, span⟩

section

variable {s : Scope} {op : String} {opSpan span : Span} {args : List Argument} {o : Operation}

/-- A call comes to what the operation of its name comes to. -/
theorem call_eq_of_result? {x : Except Diagnostic Value}
    (ho : s.operation? (Operation.baseName op) = some o) (hx : o.result? args = some x) :
    s.call op opSpan args span = x := by
  rw [call, ho]
  simp only [hx]

/-- A call that has a value is one of an operation that takes the arguments. -/
theorem exists_result?_of_call {v : Value} (h : s.call op opSpan args span = .ok v) :
    ∃ o, s.operation? (Operation.baseName op) = some o ∧ o.result? args = some (.ok v) := by
  rw [call] at h
  split at h
  · cases h
  · next o ho =>
    split at h
    · next x hx =>
      subst h
      exact ⟨o, ho, hx⟩
    · cases h

end

mutual

/-- The value of a query. -/
def evaluate (s : Scope) : Query → Except Diagnostic Value
  | .bool b _ => .ok (.bool b)
  | .size n _ => .ok (.size n)
  | .type t => (s.types.elaborate t).map .type
  | .call op opSpan args span => s.call op opSpan (s.suspend args) span

/-- The queries as arguments, none of them evaluated yet. -/
def suspend (s : Scope) : List Query → List Argument
  | [] => []
  | q :: qs => ⟨q.span, fun _ => s.evaluate q⟩ :: s.suspend qs

end

/-- Each argument is put off on its own, with the place where it stands. -/
theorem suspend_eq_map (s : Scope) (qs : List Query) :
    s.suspend qs = qs.map fun q => ⟨q.span, fun _ => s.evaluate q⟩ := by
  induction qs with
  | nil => rfl
  | cons q qs ih => rw [suspend, ih, List.map_cons]

/-- The value of the query that a text holds. -/
def evaluateText (s : Scope) (text : String) : Except Diagnostic Value := do
  s.evaluate (← Query.ofText text)

end Scope

end TypeTraits
