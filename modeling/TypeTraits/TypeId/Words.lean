import TypeTraits.Scalar
import TypeTraits.Token.Basic

/-!
# `TypeTraits.TypeId.Words`: spelling arithmetic types

An arithmetic type is spelled by a handful of keywords in any order, such as
`unsigned long` or `long unsigned int`. `Scalar.spellings` lists the ways, one
order each. `Scalar.ofWords?` finds the type of a collection of words without the
lists: it asks which words are there, and how often `long` is. A word that may
stand only once (`ScalarWord.allowance`) is not counted.

* `ofWords?_eq_of_perm`: the order of the words does not matter.
-/

set_option autoImplicit false

namespace TypeTraits

namespace Scalar

/-- The collections of words that spell the type, each in one order. -/
def spellings : Scalar → List (List ScalarWord)
  | bool => [[.bool]]
  | char => [[.char]]
  | signedChar => [[.signed, .char]]
  | unsignedChar => [[.unsigned, .char]]
  | wchar => [[.wchar]]
  | char8 => [[.char8]]
  | char16 => [[.char16]]
  | char32 => [[.char32]]
  | short => [[.short], [.short, .int], [.signed, .short], [.signed, .short, .int]]
  | unsignedShort => [[.unsigned, .short], [.unsigned, .short, .int]]
  | int => [[.int], [.signed], [.signed, .int]]
  | unsignedInt => [[.unsigned], [.unsigned, .int]]
  | long => [[.long], [.long, .int], [.signed, .long], [.signed, .long, .int]]
  | unsignedLong => [[.unsigned, .long], [.unsigned, .long, .int]]
  | longLong =>
    [[.long, .long], [.long, .long, .int], [.signed, .long, .long], [.signed, .long, .long, .int]]
  | unsignedLongLong => [[.unsigned, .long, .long], [.unsigned, .long, .long, .int]]
  | float => [[.float]]
  | double => [[.double]]
  | longDouble => [[.long, .double]]

/-- Whether the words spell the type, in whatever order. -/
def isSpelledBy (k : Scalar) (words : List ScalarWord) : Bool := k.spellings.any (·.isPerm words)

/-- The words that spell a type of their own and go with no other word. -/
def standalone : List (ScalarWord × Scalar) :=
  [(.bool, bool), (.wchar, wchar), (.char8, char8), (.char16, char16), (.char32, char32),
    (.float, float)]

/-- The type of words with `double` and none that stands alone. -/
def ofDoubleWords? (words : List ScalarWord) : Option Scalar :=
  if .signed ∈ words ∨ .unsigned ∈ words ∨ .short ∈ words ∨ .int ∈ words ∨ .char ∈ words ∨
      1 < words.count .long then none
  else some (if .long ∈ words then longDouble else double)

/-- The type of words with `char`, without `double` and any that stands alone. -/
def ofCharWords? (words : List ScalarWord) : Option Scalar :=
  if .short ∈ words ∨ .long ∈ words ∨ .int ∈ words then none
  else some (if .signed ∈ words then signedChar
    else if .unsigned ∈ words then unsignedChar else char)

/-- The signed integer type of the length that the words give. -/
def signedOfLength (words : List ScalarWord) : Scalar :=
  if .short ∈ words then short
  else match words.count .long with
    | 0 => int
    | 1 => long
    | _ => longLong

/-- The integer type of words among which are no others. -/
def ofIntegerWords? (words : List ScalarWord) : Option Scalar :=
  if .short ∈ words ∧ .long ∈ words then none
  else if .signed ∈ words ∨ .unsigned ∈ words ∨ .short ∈ words ∨ .long ∈ words ∨ .int ∈ words then
    if .unsigned ∈ words then (signedOfLength words).toUnsigned else some (signedOfLength words)
  else none

/-- The type that the words spell. What decides is a word that stands alone, else `double`,
else `char`; without these they can only spell an integer. -/
def ofWords? (words : List ScalarWord) : Option Scalar :=
  if .signed ∈ words ∧ .unsigned ∈ words then none
  else match standalone.filter (·.1 ∈ words) with
    | (_, k) :: more =>
      -- A word that stands alone goes with no other.
      if more ≠ [] ∨ .signed ∈ words ∨ .unsigned ∈ words ∨ .short ∈ words ∨ .long ∈ words ∨
          .int ∈ words ∨ .char ∈ words ∨ .double ∈ words then none
      else some k
    | [] =>
      if .double ∈ words then ofDoubleWords? words
      else if .char ∈ words then ofCharWords? words
      else ofIntegerWords? words

/-- Whether words spell a scalar does not depend on their order. -/
theorem isSpelledBy_eq_of_perm (k : Scalar) {ws ws' : List ScalarWord} (h : ws.Perm ws') :
    k.isSpelledBy ws = k.isSpelledBy ws' := by
  have key : ∀ s : List ScalarWord, s.isPerm ws = s.isPerm ws' := fun s => by
    rw [Bool.eq_iff_iff, List.isPerm_iff, List.isPerm_iff]
    exact ⟨fun p => p.trans h, fun p => p.trans h.symm⟩
  simp only [isSpelledBy, key]

/-- Neither does the scalar that they spell. -/
theorem ofWords?_eq_of_perm {ws ws' : List ScalarWord} (h : ws.Perm ws') :
    ofWords? ws = ofWords? ws' := by
  simp only [ofWords?, ofDoubleWords?, ofCharWords?, ofIntegerWords?, signedOfLength, h.mem_iff,
    h.count_eq]

end Scalar

namespace ScalarWord

/-- How often the word may stand in one specifier. -/
def allowance : ScalarWord → Nat
  | long => 2
  | _ => 1

/-- The words in the order of listings. -/
def sort (words : List ScalarWord) : List ScalarWord :=
  all.flatMap fun w => List.replicate (words.count w) w

end ScalarWord

end TypeTraits
