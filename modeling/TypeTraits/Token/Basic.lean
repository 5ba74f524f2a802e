import TypeTraits.Span
import TypeTraits.Qualifiers

/-!
# `TypeTraits.Token.Basic`: the symbols of type notation

A `Symbol` is a lexical element without its place in the text, and its
spelling is a function of it (`Symbol.text`). A `Token` is a symbol and the
span it was read from. A `TokenStream` holds the tokens of a text and the
offset where the text ends, which is where a reader that runs out of tokens
points to.
-/

set_option autoImplicit false

namespace TypeTraits

/-- A keyword that spells an arithmetic type or a part of one. The constructors stand
in the order in which such words are listed. -/
inductive ScalarWord where
  | signed
  | unsigned
  | short
  | long
  | int
  | char
  | wchar
  | char8
  | char16
  | char32
  | bool
  | float
  | double
deriving DecidableEq, Repr

namespace ScalarWord

/-- Every word once, in the order of listings. -/
def all : List ScalarWord :=
  [signed, unsigned, short, long, int, char, wchar, char8, char16, char32, bool, float, double]

/-- The list has every word. -/
theorem mem_all (w : ScalarWord) : w ∈ all := by
  cases w <;> decide

/-- The keyword. -/
def text : ScalarWord → String
  | signed => "signed"
  | unsigned => "unsigned"
  | short => "short"
  | long => "long"
  | int => "int"
  | char => "char"
  | wchar => "wchar_t"
  | char8 => "char8_t"
  | char16 => "char16_t"
  | char32 => "char32_t"
  | bool => "bool"
  | float => "float"
  | double => "double"

end ScalarWord

/-- A keyword other than the words of arithmetic types. -/
inductive Keyword where
  | const
  | volatile
  | void
  | nullptrT
  | decltype
  | nullptr
  | classKey
  | structKey
  | unionKey
  | enumKey
  | true
  | false
deriving DecidableEq, Repr

namespace Keyword

/-- Every keyword once. -/
def all : List Keyword :=
  [const, volatile, void, nullptrT, decltype, nullptr, classKey, structKey, unionKey, enumKey,
    true, false]

/-- The list has every keyword. -/
theorem mem_all (k : Keyword) : k ∈ all := by
  cases k <;> decide

/-- The keyword's letters. -/
def text : Keyword → String
  | const => "const"
  | volatile => "volatile"
  | void => "void"
  | nullptrT => "nullptr_t"
  | decltype => "decltype"
  | nullptr => "nullptr"
  | classKey => "class"
  | structKey => "struct"
  | unionKey => "union"
  | enumKey => "enum"
  | true => "true"
  | false => "false"

/-- The qualifier that a keyword stands for. -/
def qualifier? : Keyword → Option Qualifiers
  | const => some .const
  | volatile => some .volatile
  | _ => none

/-- Whether a type specifier other than an arithmetic type or a declared name begins
with the keyword. -/
def startsBase : Keyword → Bool
  | void | nullptrT | decltype | classKey | structKey | unionKey | enumKey => .true
  | _ => .false

end Keyword

/-- A punctuator. -/
inductive Mark where
  | star
  | amp
  | ampAmp
  | colonColon
  | colon
  | leftParen
  | rightParen
  | leftBracket
  | rightBracket
  | less
  | greater
  | comma
  | ellipsis
deriving DecidableEq, Repr

/-- The punctuator's characters. -/
def Mark.text : Mark → String
  | star => "*"
  | amp => "&"
  | ampAmp => "&&"
  | colonColon => "::"
  | colon => ":"
  | leftParen => "("
  | rightParen => ")"
  | leftBracket => "["
  | rightBracket => "]"
  | less => "<"
  | greater => ">"
  | comma => ","
  | ellipsis => "..."

/-- A lexical element. -/
inductive Symbol where
  | scalar (word : ScalarWord)
  | keyword (key : Keyword)
  | mark (mark : Mark)
  /-- A name that is no keyword. -/
  | identifier (name : String)
  /-- A whole number, digit by digit as written. -/
  | literal (digits : String)
deriving DecidableEq, Repr

namespace Symbol

/-- The characters of the symbol. -/
def text : Symbol → String
  | scalar w => w.text
  | keyword k => k.text
  | mark m => m.text
  | identifier name => name
  | literal digits => digits

/-- Whether the symbol is a word of an arithmetic type. -/
def isScalarWord : Symbol → Bool
  | scalar _ => true
  | _ => false

end Symbol

/-- A symbol and where it was read. -/
structure Token where
  symbol : Symbol
  span : Span
deriving DecidableEq, Repr

/-- The tokens of a text and the offset of the text's end. -/
structure TokenStream where
  tokens : List Token
  stop : Nat
deriving DecidableEq, Repr

end TypeTraits
