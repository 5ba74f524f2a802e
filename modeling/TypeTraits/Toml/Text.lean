/-!
# `TypeTraits.Toml.Text`: strings, keys and layout of TOML

The lexical part of TOML 1.0. A reading function takes the characters from a
place on and gives back what it made of them with the characters after it, or
nothing where the text is not TOML.

The bodies of strings are read by recursion on the characters; an escape that
takes several of them is decoded at its first and the others are skipped.
Within strings over several lines a line break is a line feed, however it is
written.
-/

set_option autoImplicit false

namespace TypeTraits.Toml

/-! ### Characters -/

/-- Whether the character is a blank or a tab. -/
def isBlank (c : Char) : Bool := c == ' ' || c == '\t'

/-- Whether the character may stand in comments and strings: no control character but
the tab. -/
def isPrintable (c : Char) : Bool := c == '\t' || (c.toNat >= 0x20 && c.toNat != 0x7f)

/-- The value of a digit in any base up to sixteen. -/
def digit? (c : Char) : Option Nat :=
  if c.isDigit then some (c.toNat - '0'.toNat)
  else if 'a' ≤ c ∧ c ≤ 'f' then some (c.toNat - 'a'.toNat + 10)
  else if 'A' ≤ c ∧ c ≤ 'F' then some (c.toNat - 'A'.toNat + 10)
  else none

/-- The number that digits of a base stand for; nothing if one is not of the base. -/
def natOfDigits? (base : Nat) (digits : List Char) : Option Nat :=
  digits.foldlM (fun n c => do
    let d ← digit? c
    if d < base then some (n * base + d) else none) 0

/-- The character of a code point in hexadecimal. -/
def charOfHex? (digits : List Char) : Option Char := do
  let n ← natOfDigits? 16 digits
  if n.isValidChar then some (Char.ofNat n) else none

/-! ### Layout -/

/-- Drops blanks. -/
def skipBlanks (cs : List Char) : List Char := cs.dropWhile isBlank

/-- Drops a comment, up to the line break or the end. -/
def skipComment : List Char → List Char
  | '#' :: cs => cs.dropWhile isPrintable
  | cs => cs

/-- Reads the rest of a line that holds nothing more than a comment. -/
def endLine? (cs : List Char) : Option (List Char) :=
  match skipComment (skipBlanks cs) with
  | [] => some []
  | '\n' :: rest | '\r' :: '\n' :: rest => some rest
  | _ => none

/-- The number of characters of blanks and line breaks at the beginning. -/
def layoutLength : List Char → Nat
  | ' ' :: cs | '\t' :: cs | '\n' :: cs => layoutLength cs + 1
  | '\r' :: '\n' :: cs => layoutLength cs + 2
  | _ => 0

/-- Drops blanks, line breaks and comments; `inComment` says whether the place is inside
a comment. -/
def skipLayout (inComment : Bool) : List Char → Option (List Char)
  | [] => some []
  | '\n' :: cs | '\r' :: '\n' :: cs => skipLayout false cs
  | c :: cs =>
    if inComment then if isPrintable c then skipLayout true cs else none
    else if c == '#' then skipLayout true cs
    else if isBlank c then skipLayout false cs
    else some (c :: cs)

/-! ### Strings -/

/-- The character that an escape stands for, read after the backslash, and the number of
characters that spell it. -/
def escape? : List Char → Option (Char × Nat)
  | 'b' :: _ => some ('\x08', 1)
  | 't' :: _ => some ('\t', 1)
  | 'n' :: _ => some ('\n', 1)
  | 'f' :: _ => some ('\x0c', 1)
  | 'r' :: _ => some ('\r', 1)
  | '"' :: _ => some ('"', 1)
  | '\\' :: _ => some ('\\', 1)
  | 'u' :: a :: b :: c :: d :: _ => (charOfHex? [a, b, c, d]).map (·, 5)
  | 'U' :: a :: b :: c :: d :: e :: f :: g :: h :: _ =>
    (charOfHex? [a, b, c, d, e, f, g, h]).map (·, 9)
  | _ => none

/-- The characters of a line continuation, read after the backslash: blanks, a line break,
and any layout behind it. -/
def continuation? (cs : List Char) : Option Nat :=
  let rest := skipBlanks cs
  match rest with
  | '\n' :: _ | '\r' :: '\n' :: _ => some (cs.length - rest.length + layoutLength rest)
  | _ => none

/-- One more character in front of what was read. -/
def consChar (c : Char) : List Char × List Char → List Char × List Char
  | (body, rest) => (c :: body, rest)

/-- Reads the body of a string with escapes and its closing quote, after `skip` more
characters. -/
def basicBody (skip : Nat) : List Char → Option (List Char × List Char)
  | [] => none
  | c :: cs =>
    match skip with
    | k + 1 => basicBody k cs
    | 0 =>
      if c == '"' then some ([], cs)
      else if c == '\\' then do
        let (x, size) ← escape? cs
        (basicBody size cs).map (consChar x)
      else if isPrintable c then (basicBody 0 cs).map (consChar c)
      else none

/-- Reads the body of a string without escapes and its closing quote. -/
def literalBody : List Char → Option (List Char × List Char)
  | [] => none
  | c :: cs =>
    if c == '\'' then some ([], cs)
    else if isPrintable c then (literalBody cs).map (consChar c)
    else none

/-- The closing quotes of a string over several lines, where the next characters are
those: the quotes of the body right before them, and the characters after them. A run of
quotes closes the string with its last three, but takes at most two into the body. -/
def closing? (quote : Char) (cs : List Char) : Option (List Char × List Char) :=
  let run := (cs.takeWhile (· == quote)).length
  if run < 3 then none
  else
    let kept := min (run - 3) 2
    some (List.replicate kept quote, cs.drop (kept + 3))

/-- Reads the body of a string with escapes over several lines and its closing quotes,
after `skip` more characters. -/
def multiLineBasicBody (skip : Nat) : List Char → Option (List Char × List Char)
  | [] => none
  | c :: cs =>
    match skip with
    | k + 1 => multiLineBasicBody k cs
    | 0 =>
      -- Fewer than three quotes are part of the text.
      match closing? '"' (c :: cs) with
      | some closed => some closed
      | none =>
        if c == '\\' then
          match continuation? cs with
          | some size => multiLineBasicBody size cs
          | none => do
            let (x, size) ← escape? cs
            (multiLineBasicBody size cs).map (consChar x)
        else if c == '\r' && cs.head? == some '\n' then multiLineBasicBody 0 cs
        else if c == '\n' || isPrintable c then (multiLineBasicBody 0 cs).map (consChar c)
        else none

/-- Reads the body of a string without escapes over several lines and its closing quotes. -/
def multiLineLiteralBody : List Char → Option (List Char × List Char)
  | [] => none
  | c :: cs =>
    match closing? '\'' (c :: cs) with
    | some closed => some closed
    | none =>
      if c == '\r' && cs.head? == some '\n' then multiLineLiteralBody cs
      else if c == '\n' || isPrintable c then (multiLineLiteralBody cs).map (consChar c)
      else none

/-- Drops the line break right behind opening quotes. -/
def dropFirstBreak : List Char → List Char
  | '\n' :: cs | '\r' :: '\n' :: cs => cs
  | cs => cs

/-- A read body as a string. -/
def toText : List Char × List Char → String × List Char
  | (body, rest) => (String.ofList body, rest)

/-- Reads a string on one line. -/
def readLineString : List Char → Option (String × List Char)
  | '"' :: cs => (basicBody 0 cs).map toText
  | '\'' :: cs => (literalBody cs).map toText
  | _ => none

/-- Reads a string of any of the four kinds. -/
def readString : List Char → Option (String × List Char)
  | '"' :: '"' :: '"' :: cs => (multiLineBasicBody 0 (dropFirstBreak cs)).map toText
  | '\'' :: '\'' :: '\'' :: cs => (multiLineLiteralBody (dropFirstBreak cs)).map toText
  | cs => readLineString cs

/-! ### Keys -/

/-- Whether a key can hold the character without quotes. -/
def isBareKeyChar (c : Char) : Bool := c.isAlphanum || c == '_' || c == '-'

/-- The parts of a key. A key with several, set apart by points, leads into a table
inside the table. -/
abbrev Key := List String

/-- Reads one part of a key and the blanks around it. -/
def readKeyPart (cs : List Char) : Option (String × List Char) := do
  let cs := skipBlanks cs
  let (part, rest) ←
    match cs.takeWhile isBareKeyChar with
    | [] => readLineString cs
    | bare => some (String.ofList bare, cs.dropWhile isBareKeyChar)
  return (part, skipBlanks rest)

/-- Reads a key of at most so many parts and the blanks around it. -/
def readKey : Nat → List Char → Option (Key × List Char)
  | 0, _ => none
  | limit + 1, cs => do
    match ← readKeyPart cs with
    | (part, '.' :: rest) =>
      let (key, rest) ← readKey limit rest
      return (part :: key, rest)
    | (part, rest) => return ([part], rest)

end TypeTraits.Toml
