/-!
# `TypeTraits.Json`: data as JSON text

The part of JSON that reports need: strings, whole numbers, booleans, arrays
and objects whose members keep their order. `Json.compact` writes a value on
one line without blanks, `Json.pretty` with one member or element a line.
-/

set_option autoImplicit false

namespace TypeTraits

/-- A JSON value. -/
inductive Json where
  | string (s : String)
  | number (n : Nat)
  | bool (b : Bool)
  | array (items : List Json)
  | object (members : List (String × Json))

namespace Json

/-- The hexadecimal digit of a number below 16. -/
def hexDigit (n : Nat) : Char := "0123456789abcdef".toList.getD n '0'

/-- A character inside a string: quote, backslash and the characters below the blank are
escaped, by a letter where there is one. -/
def escape (c : Char) : List Char :=
  if c == '"' then ['\\', '"']
  else if c == '\\' then ['\\', '\\']
  else if c == '\n' then ['\\', 'n']
  else if c == '\r' then ['\\', 'r']
  else if c == '\t' then ['\\', 't']
  else if c == '\x08' then ['\\', 'b']
  else if c == '\x0c' then ['\\', 'f']
  else if c.toNat < 0x20 then
    ['\\', 'u', '0', '0', hexDigit (c.toNat / 16), hexDigit (c.toNat % 16)]
  else [c]

/-- A string in quotes. -/
def quote (s : String) : String :=
  "\"" ++ String.ofList (s.toList.flatMap escape) ++ "\""

/-- How the parts of an array or object are set apart. -/
structure Style where
  /-- The text in front of each part, at a depth. -/
  before : Nat → String
  /-- The text between the name and the value of a member. -/
  colon : String

/-- All on one line. -/
def Style.compact : Style := ⟨fun _ => "", ":"⟩

/-- Each part on a line of its own, two blanks further in than what holds it. -/
def Style.pretty : Style := ⟨fun depth => "\n" ++ "".pushn ' ' (2 * depth), ": "⟩

/-- Parts between two brackets; nothing stands between the brackets of no parts. -/
def Style.enclose (style : Style) (depth : Nat) (left right : String) (parts : List String) :
    String :=
  if parts.isEmpty then left ++ right
  else
    left ++ ",".intercalate (parts.map (style.before (depth + 1) ++ ·)) ++
      style.before depth ++ right

mutual

/-- The text of a value at a depth. -/
def write (style : Style) (depth : Nat) : Json → String
  | string s => quote s
  | number n => toString n
  | bool b => toString b
  | array items => style.enclose depth "[" "]" (writeItems style depth items)
  | object members => style.enclose depth "\x7b" "\x7d" (writeMembers style depth members)

/-- The texts of the elements of an array at a depth. -/
def writeItems (style : Style) (depth : Nat) : List Json → List String
  | [] => []
  | v :: vs => write style (depth + 1) v :: writeItems style depth vs

/-- The texts of the members of an object at a depth. -/
def writeMembers (style : Style) (depth : Nat) : List (String × Json) → List String
  | [] => []
  | (name, v) :: vs =>
    (quote name ++ style.colon ++ write style (depth + 1) v) :: writeMembers style depth vs

end

/-- The value on one line. -/
def compact (v : Json) : String := write .compact 0 v

/-- The value over several lines. -/
def pretty (v : Json) : String := write .pretty 0 v

end Json

end TypeTraits
