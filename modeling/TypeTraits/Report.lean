import TypeTraits.Catalog.Basic
import TypeTraits.Descriptor.Spelling
import TypeTraits.Json
import TypeTraits.Transformation

/-!
# `TypeTraits.Report`: everything about one type

A `Report` holds the answers of all predicates of a catalog for one type, its
dimensions, and what each transformation makes of it. `Report.text` is the
form for reading, which leaves out the transformations that change nothing;
`Report.json` is the whole report as data.
-/

set_option autoImplicit false

namespace TypeTraits

/-- A predicate's answer. -/
structure PredicateEntry where
  name : String
  category : Category
  layer : Nat
  value : Bool
deriving DecidableEq, Repr

/-- A transformation's result, as text. -/
structure TransformationEntry where
  name : String
  result : String
deriving DecidableEq, Repr

/-- The answers for one type. -/
structure Report where
  type : String
  predicates : List PredicateEntry
  rank : Nat
  extents : List Nat
  transformations : List TransformationEntry
deriving DecidableEq, Repr

namespace Report

/-- The report on a type. -/
def ofType (c : Catalog) (t : Descriptor) : Report where
  type := t.spelling
  predicates := (c.classify t).map fun (p, value) => ⟨p.name, p.category, p.layer, value⟩
  rank := t.rank
  extents := (List.range t.rank).map t.extent
  transformations := Transformation.all.map fun f => ⟨f.name, (f.apply t).spelling⟩

/-- The names of the predicates that hold. -/
def holding (r : Report) : List String := (r.predicates.filter (·.value)).map (·.name)

/-- The text with blanks in front of it, up to the width. -/
def alignRight (width : Nat) (text : String) : String :=
  "".pushn ' ' (width - text.length) ++ text

/-- The number of dimensions and the size of each. -/
def dimensions (r : Report) : String :=
  toString r.rank ++ " [" ++ ", ".intercalate (r.extents.map toString) ++ "]"

/-- The lines of the form for reading. -/
def lines (r : Report) : List String :=
  ["type: " ++ r.type, "holds: " ++ ", ".intercalate r.holding] ++
    (if r.rank = 0 then [] else ["rank: " ++ r.dimensions]) ++
    (r.transformations.filter (·.result != r.type)).map fun e =>
      alignRight 22 e.name ++ ": " ++ e.result

/-- The form for reading. -/
def text (r : Report) : String := String.join (r.lines.map (· ++ "\n"))

/-- The whole report as data. -/
def json (r : Report) : Json :=
  .object [
    ("type", .string r.type),
    ("predicates", .array (r.predicates.map fun p => .object [
      ("name", .string p.name),
      ("category", .string p.category.name),
      ("layer", .number p.layer),
      ("value", .bool p.value)])),
    ("rank", .number r.rank),
    ("extents", .array (r.extents.map .number)),
    ("transforms", .array (r.transformations.map fun e => .object [
      ("name", .string e.name),
      ("result", .string e.result)]))]

end Report

end TypeTraits
