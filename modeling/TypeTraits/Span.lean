/-!
# `TypeTraits.Span`: byte ranges in a text

Positions in a text are UTF-8 byte offsets. A `Span` is the half-open range
between two of them; tokens, syntax trees and diagnostics all carry one.
`Span.slice` cuts the covered characters out of the text.
-/

set_option autoImplicit false

namespace TypeTraits

/-- The number of bytes that the characters take in UTF-8. -/
def byteLength : List Char → Nat
  | [] => 0
  | c :: cs => c.utf8Size + byteLength cs

/-- The characters that begin before byte `n`. -/
def takeBytes (n : Nat) : List Char → List Char
  | [] => []
  | c :: cs => if n = 0 then [] else c :: takeBytes (n - c.utf8Size) cs

/-- The characters that begin at byte `n` or later. -/
def dropBytes (n : Nat) : List Char → List Char
  | [] => []
  | c :: cs => if n = 0 then c :: cs else dropBytes (n - c.utf8Size) cs

/-- A range of byte offsets: `start` is in it, `stop` is not. -/
structure Span where
  start : Nat
  stop : Nat
deriving DecidableEq, Repr, Inhabited

namespace Span

/-- The number of bytes covered; an inverted range covers none. -/
def length (s : Span) : Nat := s.stop - s.start

/-- Whether the range covers no byte. -/
def isEmpty (s : Span) : Bool := s.length == 0

/-- The smallest range that covers both. -/
def merge (s t : Span) : Span := ⟨min s.start t.start, max s.stop t.stop⟩

/-- The range moved to the left by `n` bytes. -/
def shiftLeft (n : Nat) (s : Span) : Span := ⟨s.start - n, s.stop - n⟩

/-- The part of the text that the range covers. -/
def slice (s : Span) (text : String) : String :=
  String.ofList (takeBytes s.length (dropBytes s.start text.toList))

end Span

end TypeTraits
