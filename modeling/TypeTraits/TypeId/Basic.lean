import TypeTraits.Token.Basic
import TypeTraits.Scalar

/-!
# `TypeTraits.TypeId.Basic`: types as written

A `TypeId` is the syntax tree of a type: a specifier (`const unsigned long`,
`class widget`, a name) followed by a declarator, which has pointer operators,
perhaps a declarator in parentheses, and array and function suffixes. Nothing
is looked up and nothing is checked; that is for
`TypeTraits.Universe.Elaboration`. Every node carries the span it was read from.

`TypeId.mapSpans` changes the spans of a tree and nothing else.
-/

set_option autoImplicit false

namespace TypeTraits

/-- What a specifier names. -/
inductive Base where
  | void
  | nullPointer
  | scalar (kind : Scalar)
  /-- A declared name. -/
  | named (name : String)
  | ofClass (name : String)
  | ofUnion (name : String)
  | ofEnum (name : String) (isScoped : Bool) (underlying : Option Scalar)
deriving DecidableEq, Repr

/-- The part of a type in front of its declarator. -/
structure Specifier where
  base : Base
  quals : Qualifiers
  span : Span
deriving DecidableEq, Repr

/-- What a pointer operator makes. -/
inductive PointerKind where
  | pointer (quals : Qualifiers)
  | lvalueRef
  | rvalueRef
  /-- A pointer to a member of the class of the name. -/
  | member (owner : String) (quals : Qualifiers)
deriving DecidableEq, Repr

/-- A pointer operator. -/
structure PointerOp where
  kind : PointerKind
  span : Span
deriving DecidableEq, Repr

mutual

/-- A type as written. -/
inductive TypeId where
  | mk (specifier : Specifier) (declarator : Declarator) (span : Span)

/-- What surrounds the place where a declared name would stand. -/
inductive Declarator where
  /-- Operators and suffixes. -/
  | flat (ops : List PointerOp) (suffixes : List Suffix)
  /-- Operators and suffixes around a declarator in parentheses. -/
  | nested (ops : List PointerOp) (inner : Declarator) (suffixes : List Suffix)

/-- An array bound or a parameter list. -/
inductive Suffix where
  | array (bound : Option Nat) (span : Span)
  | function (params : List TypeId) (isVariadic : Bool) (span : Span)

end

/-- The span of a suffix. -/
def Suffix.span : Suffix → Span
  | array _ s | function _ _ s => s

namespace Declarator

/-- The operators in front. -/
def ops : Declarator → List PointerOp
  | flat ops _ | nested ops _ _ => ops

/-- The declarator in parentheses. -/
def inner? : Declarator → Option Declarator
  | flat _ _ => none
  | nested _ inner _ => some inner

/-- The suffixes behind. -/
def suffixes : Declarator → List Suffix
  | flat _ suffixes | nested _ _ suffixes => suffixes

/-- Whether the declarator adds nothing to the specifier. -/
def isEmpty : Declarator → Bool
  | flat [] [] => true
  | _ => false

end Declarator

namespace TypeId

/-- The specifier in front. -/
def specifier : TypeId → Specifier
  | mk s _ _ => s

/-- The declarator behind. -/
def declarator : TypeId → Declarator
  | mk _ d _ => d

/-- Where the type was read. -/
def span : TypeId → Span
  | mk _ _ s => s

end TypeId

/-- The operator with another span. -/
def PointerOp.mapSpan (f : Span → Span) (op : PointerOp) : PointerOp := ⟨op.kind, f op.span⟩

/-- The specifier with another span. -/
def Specifier.mapSpan (f : Span → Span) (s : Specifier) : Specifier := ⟨s.base, s.quals, f s.span⟩

mutual

/-- The type with other spans. -/
def TypeId.mapSpans (f : Span → Span) : TypeId → TypeId
  | .mk s d span => .mk (s.mapSpan f) (d.mapSpans f) (f span)

/-- The declarator with other spans. -/
def Declarator.mapSpans (f : Span → Span) : Declarator → Declarator
  | .flat ops suffixes => .flat (ops.map (·.mapSpan f)) (Suffix.mapSpansEach f suffixes)
  | .nested ops inner suffixes =>
    .nested (ops.map (·.mapSpan f)) (inner.mapSpans f) (Suffix.mapSpansEach f suffixes)

/-- The suffix with other spans. -/
def Suffix.mapSpans (f : Span → Span) : Suffix → Suffix
  | .array n span => .array n (f span)
  | .function ps v span => .function (TypeId.mapSpansEach f ps) v (f span)

/-- The suffixes with other spans. -/
def Suffix.mapSpansEach (f : Span → Span) : List Suffix → List Suffix
  | [] => []
  | s :: ss => s.mapSpans f :: Suffix.mapSpansEach f ss

/-- The types with other spans. -/
def TypeId.mapSpansEach (f : Span → Span) : List TypeId → List TypeId
  | [] => []
  | t :: ts => t.mapSpans f :: TypeId.mapSpansEach f ts

end

end TypeTraits
