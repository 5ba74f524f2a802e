import TypeTraits.Query.Value
import TypeTraits.Token.Basic

/-!
# `TypeTraits.Diagnostic`: what is wrong with a text, and where

A `Problem` is the cause of a failure between text and value, and a
`Diagnostic` is a problem with the span it was found at. The wording of all
problems is here: message, code, label of the span and advice. One message
quotes the text itself, so `Diagnostic.message` takes the text that the span
belongs to.
-/

set_option autoImplicit false

namespace TypeTraits

/-- What a reader was looking for. -/
inductive Expectation where
  | symbol (s : Symbol)
  | identifier
  | type
  | underlyingType
  | argumentEnd
  | endOfInput
deriving DecidableEq, Repr

/-- The expectation in words. -/
def Expectation.text : Expectation → String
  | symbol s => "`" ++ s.text ++ "`"
  | identifier => "an identifier"
  | type => "a type"
  | underlyingType => "an underlying integer type"
  | argumentEnd => "`,` or `>`"
  | endOfInput => "end of input"

/-- How many arguments an operation takes. -/
inductive Arity where
  | exactly (n : Nat)
  | oneOrTwo
  | atLeastOne
deriving DecidableEq, Repr

/-- The arity in words. -/
def Arity.text : Arity → String
  | exactly n => toString n
  | oneOrTwo => "1 or 2"
  | atLeastOne => "at least 1"

/-- Why a text has no value. -/
inductive Problem where
  /-- No symbol begins with the character. -/
  | invalidToken
  | unexpectedToken (expected : Expectation) (found : Symbol)
  | unexpectedEnd (expected : Expectation)
  /-- The words at the span repeat one another or name a second type. -/
  | clashingSpecifier
  /-- The words, in the order of listings, spell no arithmetic type. -/
  | meaninglessSpecifier (words : List ScalarWord)
  | unknownName (name : String)
  | illFormed (reason : IllFormed)
  | unknownOperation (name : String)
  | wrongArity (operation : String) (expected : Arity) (found : Nat)
  | expectedType (found : Value)
  | expectedCondition (found : Descriptor)
  | expectedSize (found : Value)
  /-- The condition of a gate is false. -/
  | disabled
deriving DecidableEq, Repr

/-- A problem and the span it was found at. -/
structure Diagnostic where
  problem : Problem
  span : Span
deriving DecidableEq, Repr

namespace Problem

/-- The problem's place in the catalogue of codes. -/
def code : Problem → String
  | invalidToken => "parse::invalid_token"
  | unexpectedToken _ _ => "parse::unexpected_token"
  | unexpectedEnd _ => "parse::unexpected_eof"
  | clashingSpecifier | meaninglessSpecifier _ => "parse::invalid_specifier"
  | unknownName _ => "elaborate::unknown_type"
  | illFormed _ => "elaborate::ill_formed"
  | unknownOperation _ => "query::unknown_operation"
  | wrongArity _ _ _ => "query::arity"
  | expectedType _ => "query::expected_type"
  | expectedCondition _ => "query::expected_condition"
  | expectedSize _ => "query::expected_size"
  | disabled => "query::disabled"

/-- The words at the marked span. -/
def label : Problem → String
  | invalidToken => "not part of the type notation"
  | unexpectedToken _ _ => "unexpected token here"
  | unexpectedEnd _ => "input ends here"
  | clashingSpecifier | meaninglessSpecifier _ => "cannot be combined"
  | unknownName _ => "not declared"
  | illFormed _ => "cannot be formed"
  | unknownOperation _ => "no such predicate or transformation"
  | wrongArity _ _ _ => "wrong number of arguments"
  | expectedType _ => "a type is required here"
  | expectedCondition _ => "a boolean or size is required here"
  | expectedSize _ => "a dimension index is required here"
  | disabled => "condition is false"

/-- Advice, where there is some. -/
def help? : Problem → Option String
  | clashingSpecifier | meaninglessSpecifier _ =>
    some "combine at most one base type with `signed`, `unsigned`, `short` or `long`"
  | unknownName name =>
    some ("declare it in the universe manifest or write `class " ++ name ++ "`")
  | unknownOperation _ => some "run `tyq predicates` for the predicate names"
  | disabled => some "the gate has no type when its condition is false"
  | _ => none

end Problem

/-- The problem in words, for the text that the span belongs to. -/
def Diagnostic.message (d : Diagnostic) (text : String) : String :=
  match d.problem with
  | .invalidToken => "Invalid token"
  | .unexpectedToken expected found =>
    "Unexpected token: expected " ++ expected.text ++ ", found `" ++ found.text ++ "`"
  | .unexpectedEnd expected => "Unexpected end of input: expected " ++ expected.text
  | .clashingSpecifier => "Invalid type specifier `" ++ d.span.slice text ++ "`"
  | .meaninglessSpecifier words =>
    "Invalid type specifier `" ++ " ".intercalate (words.map (·.text)) ++ "`"
  | .unknownName name => "Unknown type `" ++ name ++ "`"
  | .illFormed reason => "Ill-formed type: " ++ reason.message
  | .unknownOperation name => "Unknown operation `" ++ name ++ "`"
  | .wrongArity operation expected found =>
    "`" ++ operation ++ "` expects " ++ expected.text ++ " arguments, found " ++ toString found
  | .expectedType found => "Expected a type, found " ++ found.describe
  | .expectedCondition found => "Expected a condition, found type `" ++ found.spelling ++ "`"
  | .expectedSize found => "Expected a size, found " ++ found.describe
  | .disabled => "Constraint not satisfied"

end TypeTraits
