import TypeTraits.Token.Basic

/-!
# `TypeTraits.Token.Scan`: the tokens of a text

`TokenStream.ofText?` cuts a text into tokens. At each place that is not blank
the longest symbol is taken (`Symbol.longest?`), and a name that is a keyword
is that keyword. Where no symbol begins, the answer is the span of that one
character.

* `Symbol.ofName_text`: a name keeps its letters, whatever it turns out to be.
-/

set_option autoImplicit false

namespace TypeTraits

/-- Whether the character separates tokens: blank, tab, line feed, carriage return or
form feed. -/
def isBlank (c : Char) : Bool :=
  c == ' ' || c == '\t' || c == '\n' || c == '\r' || c == '\x0c'

/-- Whether a name can begin with the character. -/
def isNameStart (c : Char) : Bool := c.isAlpha || c == '_'

/-- Whether a name can go on with the character. -/
def isNameChar (c : Char) : Bool := c.isAlphanum || c == '_'

namespace Symbol

/-- The keyword of the letters, or else the identifier. -/
def ofName (name : String) : Symbol :=
  match ScalarWord.all.find? (·.text == name) with
  | some w => scalar w
  | none =>
    match Keyword.all.find? (·.text == name) with
    | some k => keyword k
    | none => identifier name

/-- A word is a symbol that is spelled like the word. -/
theorem ofName_text (name : String) : (ofName name).text = name := by
  unfold ofName
  split
  · next w h => simpa [text] using List.find?_some h
  · split
    · next k h => simpa [text] using List.find?_some h
    · rfl

end Symbol

/-- The longest punctuator at the beginning of the characters. -/
def Mark.longest? : List Char → Option Mark
  | '*' :: _ => some star
  -- The longer of two that begin alike comes first.
  | '&' :: '&' :: _ => some ampAmp
  | '&' :: _ => some amp
  | ':' :: ':' :: _ => some colonColon
  | ':' :: _ => some colon
  | '(' :: _ => some leftParen
  | ')' :: _ => some rightParen
  | '[' :: _ => some leftBracket
  | ']' :: _ => some rightBracket
  | '<' :: _ => some less
  | '>' :: _ => some greater
  | ',' :: _ => some comma
  | '.' :: '.' :: '.' :: _ => some ellipsis
  | _ => none

/-- The longest symbol at the beginning of the characters. -/
def Symbol.longest? : List Char → Option Symbol
  | [] => none
  | c :: cs =>
    if isNameStart c then some (ofName (String.ofList (c :: cs.takeWhile isNameChar)))
    else if c.isDigit then some (literal (String.ofList (c :: cs.takeWhile Char.isDigit)))
    else (Mark.longest? (c :: cs)).map mark

namespace TokenStream

/-- The tokens of the characters from byte `offset` on, the first `skip` characters
being part of the token before. Symbols are ASCII, so their characters are their bytes. -/
def scan (skip offset : Nat) : List Char → Except Span (List Token)
  | [] => .ok []
  | c :: cs =>
    match skip with
    | k + 1 => scan k (offset + c.utf8Size) cs
    | 0 =>
      if isBlank c then scan 0 (offset + c.utf8Size) cs
      else
        match Symbol.longest? (c :: cs) with
        | none => .error ⟨offset, offset + c.utf8Size⟩
        | some s =>
          let size := s.text.length
          (scan (size - 1) (offset + c.utf8Size) cs).map (⟨s, ⟨offset, offset + size⟩⟩ :: ·)

/-- The tokens of a text, or the span of the first character that begins none. -/
def ofText? (text : String) : Except Span TokenStream :=
  (scan 0 0 text.toList).map fun tokens => ⟨tokens, text.utf8ByteSize⟩

end TokenStream

end TypeTraits
