import TypeTraits.Descriptor.Formation
import TypeTraits.Text.Alphanumeric

/-!
# `TypeTraits.Descriptor.Spelling`: types and refusals as text

`Descriptor.spelling` writes a type in declarator form: the specifier first,
then the declarator, which grows around its middle from the inside out. A
pointer or reference to an array or function is put in parentheses, since
`[...]` and `(...)` would bind first.

`IllFormed.message` is the one place that words the refusals of
`TypeTraits.Descriptor.Formation`.
-/

set_option autoImplicit false

namespace TypeTraits

open Text (startsWithWord)

/-- A specifier in front of a declarator, with a blank where the declarator begins
with a word. -/
def specify (name : String) (q : Qualifiers) (declarator : String) : String :=
  let base := if q.isEmpty then name else q.text ++ " " ++ name
  if startsWithWord declarator then base ++ " " ++ declarator else base ++ declarator

/-- An operator and its qualifiers in front of a declarator, with a blank between
two words. -/
def operate (op : String) (q : Qualifiers) (declarator : String) : String :=
  if q.isEmpty then op ++ declarator
  else if startsWithWord declarator then op ++ " " ++ q.text ++ " " ++ declarator
  else op ++ " " ++ q.text ++ declarator

namespace Descriptor

/-- Whether the declarator of a pointer to the type needs parentheses. -/
def bindsSuffix : Descriptor → Bool
  | array _ _ _ | function _ _ _ => true
  | _ => false

/-- The declarator of something that points to the type. -/
def group (t : Descriptor) (declarator : String) : String :=
  if t.bindsSuffix then "(" ++ declarator ++ ")" else declarator

mutual

/-- The type with further qualifiers on its outermost level, written around a declarator. -/
def spell (extra : Qualifiers) : Descriptor → String → String
  | void q, d => specify "void" (q.union extra) d
  | nullPointer q, d => specify "nullptr_t" (q.union extra) d
  | scalar k q, d => specify k.name (q.union extra) d
  | classType c q, d => specify c.name (q.union extra) d
  | enumType e q, d => specify e.name (q.union extra) d
  | pointer t q, d => spell .none t (t.group (operate "*" (q.union extra) d))
  | memberPointer c t q, d => spell .none t (t.group (operate (c.name ++ "::*") (q.union extra) d))
  -- The qualifiers of an array are written on its element.
  | array t n q, d => spell (q.union extra) t (d ++ "[" ++ (n.map toString).getD "" ++ "]")
  | lvalueRef t, d => spell .none t (t.group ("&" ++ d))
  | rvalueRef t, d => spell .none t (t.group ("&&" ++ d))
  | function r ps v, d =>
    spell .none r (d ++ "(" ++ ", ".intercalate (spellEach ps ++ if v then ["..."] else []) ++ ")")

/-- The types of a list, each written on its own. -/
def spellEach : List Descriptor → List String
  | [] => []
  | t :: ts => spell .none t "" :: spellEach ts

end

/-- The type in declarator form. -/
def spelling (t : Descriptor) : String := t.spell .none ""

instance : ToString Descriptor := ⟨spelling⟩

end Descriptor

/-- The refusal in words. -/
def IllFormed.message : IllFormed → String
  | referenceTo t => "cannot form a reference to `" ++ t.spelling ++ "`"
  | pointerToReference t => "cannot form a pointer to reference type `" ++ t.spelling ++ "`"
  | arrayOf t => "cannot form an array of `" ++ t.spelling ++ "`"
  | zeroBound => "array bound must be greater than zero"
  | functionReturning t => "function cannot return `" ++ t.spelling ++ "`"
  | invalidParameter t => "parameter cannot have type `" ++ t.spelling ++ "`"
  | notAClass t => "`" ++ t.spelling ++ "` is not a class type"
  | memberPointerTo t => "cannot form a pointer to member of type `" ++ t.spelling ++ "`"
  | notIntegral t => "`" ++ t.spelling ++ "` is not an integral or enumeration type"
  | notAnEnum t => "`" ++ t.spelling ++ "` is not an enumeration type"
  | disabled => "condition is not satisfied"

end TypeTraits
