import TypeTraits.Text.GraphemeBreak

/-!
# `TypeTraits.Text.Grapheme`: what a reader takes for one character

A text is cut into extended grapheme clusters, each the longest run of
characters that join by the rules of Unicode: a line break of two characters,
the parts of a Hangul syllable, a letter with its marks, consonants linked to a
conjunct, pictographs with a joiner between them, and pairs of letters that
stand for a flag. Controls join with nothing.

Whether a character joins the cluster in front of it depends on that cluster
alone (`joins`).
-/

set_option autoImplicit false

namespace TypeTraits.Text

/-- Whether a cluster, given from its end, ends in a conjunct that awaits a consonant: a
consonant and then marks, one of them a linker. `linked` says whether a linker was met. -/
def awaitsConsonant (linked : Bool) : List GraphemeBreak → Bool
  | .consonant :: _ => linked
  | .linker :: before => awaitsConsonant true before
  | .extend :: before | .joiner :: before => awaitsConsonant linked before
  | _ => false

/-- Whether a cluster, given from its end, ends in a pictograph and its marks. -/
def endsInPictograph : List GraphemeBreak → Bool
  | .pictograph :: _ => true
  | .extend :: before | .linker :: before | .nonJoiner :: before => endsInPictograph before
  | _ => false

/-- Whether a character joins the cluster in front of it, which is given from its end. -/
def joins (cluster : List GraphemeBreak) (next : GraphemeBreak) : Bool :=
  match cluster with
  | [] => false
  | last :: before =>
    match last, next with
    -- Controls are on their own, except in a line break of two characters.
    | .carriageReturn, .lineFeed => true
    | .carriageReturn, _ | .lineFeed, _ | .control, _ => false
    | _, .carriageReturn | _, .lineFeed | _, .control => false
    -- Marks join whatever is in front of them.
    | _, .extend | _, .linker | _, .nonJoiner | _, .joiner | _, .spacing => true
    | .prepend, _ => true
    -- The parts of a Hangul syllable.
    | .hangulLeading, .hangulLeading | .hangulLeading, .hangulVowel | .hangulLeading, .hangulOpen
    | .hangulLeading, .hangulClosed => true
    | .hangulOpen, .hangulVowel | .hangulOpen, .hangulTrailing => true
    | .hangulVowel, .hangulVowel | .hangulVowel, .hangulTrailing => true
    | .hangulClosed, .hangulTrailing | .hangulTrailing, .hangulTrailing => true
    -- Conjuncts, joined pictographs, and the letters of a flag.
    | _, .consonant => awaitsConsonant false cluster
    | .joiner, .pictograph => endsInPictograph before
    | .regional, .regional => (before.takeWhile (· == .regional)).length % 2 == 0
    | _, _ => false

/-- The clusters of a text after a first cluster that is given from its end. -/
def clustersAfter (cluster : List Char) : List Char → List (List Char)
  | [] => [cluster.reverse]
  | c :: cs =>
    if joins (cluster.map graphemeBreak) (graphemeBreak c) then clustersAfter (c :: cluster) cs
    else cluster.reverse :: clustersAfter [c] cs

/-- The clusters of a text. -/
def clusters : List Char → List (List Char)
  | [] => []
  | c :: cs => clustersAfter [c] cs

end TypeTraits.Text
