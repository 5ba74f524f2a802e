import TypeTraits.Diagnostic
import TypeTraits.Token.Scan

/-!
# `TypeTraits.Token.Reading`: functions that read from a list of tokens

A reading function takes a list of tokens and gives back what it made of the
first of them together with the rest. It takes the offset of the text's end as
well, to point there when the tokens run out. The span of what was read runs
from its first token to its last (`cover`).

Reading functions that call one another are given fuel, which falls with every
call. Running out of it is an outcome of its own, `Halt.exhausted`, so that
enough fuel can be recognised by its absence.
-/

set_option autoImplicit false

namespace TypeTraits

/-- How a reading function ends without a result. -/
inductive Halt where
  | diagnosed (d : Diagnostic)
  | exhausted
deriving DecidableEq, Repr

/-- The span of the tokens of the first list that the second does not end with. -/
def cover (tokens rest : List Token) : Span :=
  let used := tokens.take (tokens.length - rest.length)
  ⟨(used.head?.map (·.span.start)).getD 0, (used.getLast?.map (·.span.stop)).getD 0⟩

/-- The failure at the first token, or at the end of the text. -/
def unexpected (stop : Nat) (expected : Expectation) : List Token → Halt
  | [] => .diagnosed ⟨.unexpectedEnd expected, ⟨stop, stop⟩⟩
  | t :: _ => .diagnosed ⟨.unexpectedToken expected t.symbol, t.span⟩

/-- Reads one given symbol. -/
def expect (stop : Nat) (s : Symbol) : List Token → Except Halt (List Token)
  | [] => .error (unexpected stop (.symbol s) [])
  | t :: rest => if t.symbol = s then .ok rest else .error (unexpected stop (.symbol s) (t :: rest))

/-- Reads a name. -/
def readIdentifier (stop : Nat) : List Token → Except Halt (String × List Token)
  | ⟨.identifier name, _⟩ :: rest => .ok (name, rest)
  | ts => .error (unexpected stop .identifier ts)

/-- Reads qualifiers, as many as there are. -/
def readQualifiers : List Token → Qualifiers × List Token
  | ⟨.keyword .const, _⟩ :: rest =>
    let (q, rest) := readQualifiers rest
    (q.union .const, rest)
  | ⟨.keyword .volatile, _⟩ :: rest =>
    let (q, rest) := readQualifiers rest
    (q.union .volatile, rest)
  | ts => (.none, ts)

/-- Sizes and array bounds have 64 bits: they are below this number. -/
def sizeLimit : Nat := 0x10000000000000000

/-- The number that decimal digits stand for. -/
def decimal (digits : List Char) : Nat :=
  digits.foldl (fun n d => 10 * n + (d.toNat - '0'.toNat)) 0

/-- The size that a literal stands for, unless it is too large. -/
def size? (digits : String) : Option Nat :=
  let n := decimal digits.toList
  if n < sizeLimit then some n else none

/-- The diagnostic that a reading function ended with. Without fuel the text's end
stands in for the place that was not reached. -/
def Halt.diagnostic (stop : Nat) : Halt → Diagnostic
  | diagnosed d => d
  | exhausted => ⟨.unexpectedEnd .type, ⟨stop, stop⟩⟩

/-- What a reading function makes of all tokens of a text. -/
def TokenStream.readAll {α : Type} (s : TokenStream)
    (read : Nat → List Token → Except Halt (α × List Token)) : Except Diagnostic α :=
  match read s.stop s.tokens with
  | .ok (a, []) => .ok a
  | .ok (_, rest) => .error ((unexpected s.stop .endOfInput rest).diagnostic s.stop)
  | .error h => .error (h.diagnostic s.stop)

/-- All tokens are read exactly if reading leaves none. -/
theorem TokenStream.readAll_eq_ok_iff {α : Type} {s : TokenStream}
    {read : Nat → List Token → Except Halt (α × List Token)} {a : α} :
    s.readAll read = .ok a ↔ read s.stop s.tokens = .ok (a, []) := by
  unfold readAll
  split
  · next heq => simp [heq]
  · next rest hne heq => simpa [heq] using fun _ => hne
  · next heq => simp [heq]

/-- The tokens of a text, or the diagnostic for the first character that begins none. -/
def TokenStream.ofText (text : String) : Except Diagnostic TokenStream :=
  match TokenStream.ofText? text with
  | .ok s => .ok s
  | .error span => .error ⟨.invalidToken, span⟩

end TypeTraits
