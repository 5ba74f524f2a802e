import TypeTraits.Span
import TypeTraits.Text.Grapheme

/-!
# `TypeTraits.Text.Typed`: lines as they are typed

Input comes as lines in which a backspace takes back what was typed before it,
one grapheme cluster at a time. A line ends with a line feed, alone or behind a
carriage return, or with the input.

What is taken back is counted in bytes. The size of each cluster is remembered
modulo 256, so a cluster of 256 bytes or more is not taken back whole.
-/

set_option autoImplicit false

namespace TypeTraits.Text

/-- What is left of a line so far. -/
structure Typed where
  /-- The characters, the last one first. -/
  kept : List Char
  /-- The remembered sizes of the clusters that can be taken back, the last one first. -/
  sizes : List Nat

namespace Typed

/-- The line with one more cluster typed. -/
def push (t : Typed) (cluster : List Char) : Typed :=
  ⟨cluster.reverse ++ t.kept, byteLength cluster % 256 :: t.sizes⟩

/-- The line with its last cluster taken back. -/
def pop (t : Typed) : Typed :=
  match t.sizes with
  | [] => t
  | n :: sizes => ⟨dropBytes n t.kept, sizes⟩

/-- The line of the clusters that are typed. -/
def ofClusters (clusters : List (List Char)) : Typed :=
  clusters.foldl (fun t cluster => if cluster == ['\x08'] then t.pop else t.push cluster) ⟨[], []⟩

end Typed

/-- A line with its backspaces carried out. -/
def applyBackspaces (line : List Char) : List Char :=
  (Typed.ofClusters (clusters line)).kept.reverse

/-- The line without the carriage return at its end; both are given from their end. -/
def dropReturn : List Char → List Char
  | '\r' :: line => line
  | line => line

/-- The lines of an input after characters of the first line, which are given from their
end. -/
def linesAfter (line : List Char) : List Char → List (List Char)
  | [] => if line.isEmpty then [] else [line.reverse]
  | c :: cs =>
    if c == '\n' then (dropReturn line).reverse :: linesAfter [] cs else linesAfter (c :: line) cs

/-- The lines of an input, as their typing leaves them. -/
def typedLines (input : String) : List String :=
  (linesAfter [] input.toList).map fun line => String.ofList (applyBackspaces line)

end TypeTraits.Text
