import TypeTraits.Toml.Moment
import TypeTraits.Toml.Number

/-!
# `TypeTraits.Toml.Document`: values and tables of TOML

A `Document` is the part of TOML in which lists of records are written: entries
above the first header, then sections `[[name]]` with entries of their own.
`[name]` headers, which nest tables, are not read.

A table keeps its keys as they are written, also those of several parts. No two
of them lead to the same place: neither is the beginning of the other
(`Table.insert`). Arrays and inline tables nest up to a limit, and so do the
tables that a key leads into (`nestingLimit`).
-/

set_option autoImplicit false

namespace TypeTraits.Toml

/-- A value. -/
inductive Value where
  | string (s : String)
  | integer (n : Int)
  | floating (x : Floating)
  | boolean (b : Bool)
  | moment (m : Moment)
  | array (items : List Value)
  | table (entries : List (Key × Value))

/-- Keys and their values, in the order of the text. -/
abbrev Table := List (Key × Value)

/-- The table with one more key, which does not lead into a value that is there, nor
holds one. -/
def Table.insert (t : Table) (key : Key) (v : Value) : Option Table :=
  if t.any fun (k, _) => k.isPrefixOf key || key.isPrefixOf k then none else some (t ++ [(key, v)])

/-- How many arrays and inline tables may stand inside each other, and how many parts a
key may have. -/
def nestingLimit : Nat := 79

/-! ### Values -/

/-- Whether a boolean, a number or a moment can hold the character. -/
def isBareValueChar (c : Char) : Bool :=
  c.isAlphanum || c == '_' || c == '+' || c == '-' || c == '.' || c == ':'

/-- The characters of a boolean, a number or a moment. A moment goes on behind a blank
where a time follows a date. -/
def bareValueChars (cs : List Char) : List Char × List Char :=
  let word := cs.takeWhile isBareValueChar
  match cs.dropWhile isBareValueChar with
  | ' ' :: a :: b :: ':' :: rest =>
    if (readDate word).any (·.2.isEmpty) && a.isDigit && b.isDigit then
      (word ++ ' ' :: a :: b :: ':' :: rest.takeWhile isBareValueChar,
        rest.dropWhile isBareValueChar)
    else (word, ' ' :: a :: b :: ':' :: rest)
  | rest => (word, rest)

/-- The boolean, number or moment of the characters. -/
def bareValue? (cs : List Char) : Option Value :=
  if cs == ['t', 'r', 'u', 'e'] then some (.boolean true)
  else if cs == ['f', 'a', 'l', 's', 'e'] then some (.boolean false)
  else
    match integer? cs with
    | some n => some (.integer n)
    | none =>
      match floating? cs with
      | some x => some (.floating x)
      | none => (Moment.ofChars? cs).map .moment

mutual

/-- Reads a value with brackets up to a depth. Every value, element and entry takes
fuel. -/
def readValue (depth : Nat) : Nat → List Char → Option (Value × List Char)
  | 0, _ => none
  | fuel + 1, cs =>
    match cs with
    -- Arrays and inline tables are nested up to a limit.
    | '[' :: rest =>
      match depth with
      | 0 => none
      | inner + 1 => do
        let (items, rest) ← readItems inner fuel (← skipLayout false rest)
        return (.array items, rest)
    | '\x7b' :: rest =>
      match depth with
      | 0 => none
      | inner + 1 =>
        match skipBlanks rest with
        | '\x7d' :: rest => some (.table [], rest)
        | rest => do
          let (entries, rest) ← readEntries inner fuel [] rest
          return (.table entries, rest)
    | '"' :: _ | '\'' :: _ => (readString cs).map fun (s, rest) => (.string s, rest)
    | cs =>
      let (word, rest) := bareValueChars cs
      (bareValue? word).map (·, rest)

/-- Reads the elements of an array and the bracket behind them. A comma may stand behind
the last. -/
def readItems (depth : Nat) : Nat → List Char → Option (List Value × List Char)
  | 0, _ => none
  | fuel + 1, cs =>
    match cs with
    -- An array may end with a comma.
    | ']' :: rest => some ([], rest)
    | cs => do
      let (v, rest) ← readValue depth fuel cs
      match ← skipLayout false rest with
      | ',' :: rest => do
        let (vs, rest) ← readItems depth fuel (← skipLayout false rest)
        return (v :: vs, rest)
      | ']' :: rest => return ([v], rest)
      | _ => none

/-- Reads entries of an inline table after the given ones, and the brace behind them. -/
def readEntries (depth : Nat) : Nat → Table → List Char → Option (Table × List Char)
  | 0, _, _ => none
  | fuel + 1, table, cs => do
    match ← readKey nestingLimit cs with
    | (key, '=' :: rest) =>
      let (v, rest) ← readValue depth fuel (skipBlanks rest)
      -- A key is given once only.
      let table ← table.insert key v
      match skipBlanks rest with
      | ',' :: rest => readEntries depth fuel table rest
      | '\x7d' :: rest => return (table, rest)
      | _ => none
    | _ => none

end

/-! ### Documents -/

/-- The records of one `[[name]]` header. -/
structure Section where
  name : String
  entries : Table

/-- The entries above the first header, and the sections. -/
structure Document where
  entries : Table
  sections : List Section

/-- One line or several that belong together. -/
inductive Item where
  | blank
  | header (name : String)
  | entry (key : Key) (value : Value)

/-- Reads an item and its line break. -/
def readItem (cs : List Char) : Option (Item × List Char) := do
  let (item, rest) ←
    match skipBlanks cs with
    -- Only arrays of tables have headers, with one name in them.
    | '[' :: '[' :: cs =>
      match readKey nestingLimit cs with
      | some ([name], ']' :: ']' :: rest) => some (Item.header name, rest)
      | _ => none
    | [] => some (.blank, [])
    | c :: cs =>
      if c == '#' || c == '\n' || c == '\r' then some (.blank, c :: cs)
      else
        match readKey nestingLimit (c :: cs) with
        | some (key, '=' :: rest) =>
          let rest := skipBlanks rest
          (readValue nestingLimit (rest.length + 1) rest).map fun (v, rest) => (.entry key v, rest)
        | _ => none
  return (item, ← endLine? rest)

/-- The document with one more item. -/
def Document.add (d : Document) : Item → Option Document
  | .blank => some d
  | .header name => some { d with sections := d.sections ++ [⟨name, []⟩] }
  | .entry key v =>
    match d.sections.reverse with
    | [] => do return { d with entries := ← d.entries.insert key v }
    | last :: before => do
      return { d with sections := before.reverse ++ [⟨last.name, ← last.entries.insert key v⟩] }

/-- Reads all items after a document. Every item takes fuel. -/
def Document.read : Nat → Document → List Char → Option Document
  | _, d, [] => some d
  | 0, _, _ => none
  | fuel + 1, d, cs => do
    let (item, rest) ← readItem cs
    Document.read fuel (← d.add item) rest

/-- The document of a text. A byte order mark in front does not count. -/
def Document.ofText? (text : String) : Option Document :=
  let cs := match text.toList with
    | '\ufeff' :: cs => cs
    | cs => cs
  Document.read cs.length ⟨[], []⟩ cs

end TypeTraits.Toml
