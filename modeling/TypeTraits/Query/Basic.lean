import TypeTraits.TypeId.Reading

/-!
# `TypeTraits.Query.Basic`: queries as written, and how they are read

A `Query` is a literal, a type, or an operation applied to queries, written
`op<query, query>`. A name with `<` behind it is always an operation; anything
else that is no literal is a type.
-/

set_option autoImplicit false

namespace TypeTraits

/-- A query as written. -/
inductive Query where
  | bool (value : Bool) (span : Span)
  | size (value : Nat) (span : Span)
  | type (t : TypeId)
  | call (op : String) (opSpan : Span) (args : List Query) (span : Span)

namespace Query

/-- Where the query was read. -/
def span : Query → Span
  | bool _ s | size _ s | call _ _ _ s => s
  | type t => t.span

/-- The kind of the query in words. -/
def describe : Query → String
  | bool _ _ => "a boolean"
  | size _ _ => "a size"
  | type _ => "a type"
  | call _ _ _ _ => "a query"

mutual

/-- The query with other spans. -/
def mapSpans (f : Span → Span) : Query → Query
  | bool b span => bool b (f span)
  | size n span => size n (f span)
  | type t => type (t.mapSpans f)
  | call op opSpan args span => call op (f opSpan) (mapSpansEach f args) (f span)

/-- The queries with other spans. -/
def mapSpansEach (f : Span → Span) : List Query → List Query
  | [] => []
  | q :: qs => q.mapSpans f :: mapSpansEach f qs

end

end Query

mutual

/-- Reads a query. -/
def readQuery (stop : Nat) : Nat → List Token → Except Halt (Query × List Token)
  | 0, _ => .error .exhausted
  | fuel + 1, ts =>
    match ts with
    | ⟨.keyword .true, span⟩ :: rest => .ok (.bool true span, rest)
    | ⟨.keyword .false, span⟩ :: rest => .ok (.bool false span, rest)
    | ⟨.literal digits, span⟩ :: rest =>
      match size? digits with
      | some n => .ok (.size n span, rest)
      -- The lexer takes any digits for a number. Only here one that is too large is refused.
      | none => .error (.diagnosed ⟨.invalidToken, span⟩)
    -- A name is that of an operation only if `<` is behind it.
    | ⟨.identifier op, opSpan⟩ :: ⟨.mark .less, _⟩ :: ts₁ => do
      let (args, rest) ← readArguments stop fuel ts₁
      return (.call op opSpan args (cover ts rest), rest)
    | ts => (TypeId.read stop ts).map fun (t, rest) => (.type t, rest)

/-- Reads arguments and the `>` behind them. -/
def readArguments (stop : Nat) : Nat → List Token → Except Halt (List Query × List Token)
  | 0, _ => .error .exhausted
  | fuel + 1, ts =>
    match ts with
    | ⟨.mark .greater, _⟩ :: rest => .ok ([], rest)
    | ts => readArgumentList stop fuel ts

/-- Reads one or more arguments and the `>` behind them. -/
def readArgumentList (stop : Nat) : Nat → List Token → Except Halt (List Query × List Token)
  | 0, _ => .error .exhausted
  | fuel + 1, ts => do
    let (arg, ts₁) ← readQuery stop fuel ts
    match ts₁ with
    | ⟨.mark .comma, _⟩ :: ts₂ => do
      let (args, rest) ← readArgumentList stop fuel ts₂
      return (arg :: args, rest)
    | ⟨.mark .greater, _⟩ :: rest => return ([arg], rest)
    | ts₁ => .error (unexpected stop .argumentEnd ts₁)

end

namespace Query

/-- Reads a query. -/
def read (stop : Nat) (ts : List Token) : Except Halt (Query × List Token) :=
  readQuery stop (readingFuel ts.length) ts

/-- The query that a text holds and nothing else. -/
def ofText (text : String) : Except Diagnostic Query := do
  (← TokenStream.ofText text).readAll read

end Query

end TypeTraits
