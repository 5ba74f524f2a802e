import TypeTraits.Descriptor.Category

/-!
# `TypeTraits.Catalog.Basic`: layered sets of predicates

Every predicate is defined with the names of the predicates that its formula
uses. A list of definitions makes a `Catalog` when no name is defined twice and
each definition uses only names defined before it; `Catalog.ofDefinitions`
checks this and says what is wrong first. The layer of a predicate is 0 when
it uses no other, and one more than the highest layer it uses otherwise.
-/

set_option autoImplicit false

namespace TypeTraits

/-- The family that a predicate is listed under. -/
inductive Category where
  | primary
  | composite
  | property
deriving DecidableEq, Repr

/-- The name of the family. -/
def Category.name : Category → String
  | primary => "primary"
  | composite => "composite"
  | property => "property"

/-- A predicate before it is checked. -/
structure Definition where
  name : String
  category : Category
  /-- The predicates that the formula uses. -/
  uses : List String
  holds : Descriptor → Bool

/-- A checked predicate. -/
structure Predicate where
  name : String
  category : Category
  /-- The predicates that the formula uses. -/
  uses : List String
  layer : Nat
  holds : Descriptor → Bool

/-- The predicate of a definition, once its layer is known. -/
def Definition.atLayer (d : Definition) (layer : Nat) : Predicate :=
  ⟨d.name, d.category, d.uses, layer, d.holds⟩

/-- What is wrong with a list of definitions. -/
inductive LayeringError where
  /-- The name is defined twice. -/
  | duplicate (name : String)
  /-- The predicate uses a name that is not defined. -/
  | undefined (predicate dependency : String)
  /-- The predicate uses a name that is not defined before it. -/
  | notLower (predicate dependency : String)
deriving DecidableEq, Repr

/-- The fault in words. -/
def LayeringError.message : LayeringError → String
  | duplicate name => "predicate `" ++ name ++ "` is defined more than once"
  | undefined predicate dependency =>
    "predicate `" ++ predicate ++ "` references undefined predicate `" ++ dependency ++ "`"
  | notLower predicate dependency =>
    "predicate `" ++ predicate ++ "` references `" ++ dependency ++
      "`, which is not at a lower layer"

/-- A checked list of predicates. -/
structure Catalog where
  predicates : List Predicate

namespace Catalog

/-- The names of the definitions. -/
def names (ds : List Definition) : List String := ds.map (·.name)

/-- The first name that is defined a second time. `seen` are the names before the list. -/
def firstRepeated (seen : List String) : List String → Option String
  | [] => none
  | n :: ns => if seen.contains n then some n else firstRepeated (n :: seen) ns

/-- The first use of a name that is not defined before it, together with the name
of the user. `defined` are all names, and `before` those before the list. -/
def firstMisuse (defined before : List String) : List Definition → Option LayeringError
  | [] => none
  | d :: ds =>
    match d.uses.find? (!before.contains ·) with
    | some u => some (if defined.contains u then .notLower d.name u else .undefined d.name u)
    | none => firstMisuse defined (d.name :: before) ds

/-- The layer above all predicates of the given names; names that are not there do
not count. -/
def layerAbove (predicates : List Predicate) (names : List String) : Nat :=
  (predicates.filter (names.contains ·.name)).foldl (fun n p => max n (p.layer + 1)) 0

/-- The definitions with their layers, after the predicates before them. -/
def assignLayers (before : List Predicate) : List Definition → List Predicate
  | [] => before
  | d :: ds =>
    assignLayers (before ++ [⟨d.name, d.category, d.uses, layerAbove before d.uses, d.holds⟩]) ds

/-- The catalog of a list of definitions. A repeated name is found before any misuse. -/
def ofDefinitions (ds : List Definition) : Except LayeringError Catalog :=
  let names := ds.map (·.name)
  match firstRepeated [] names, firstMisuse names [] ds with
  | some n, _ => .error (.duplicate n)
  | none, some e => .error e
  | none, none => .ok ⟨assignLayers [] ds⟩

/-- The predicate of a name. -/
def get? (c : Catalog) (name : String) : Option Predicate := c.predicates.find? (·.name == name)

/-- The number of predicates. -/
def size (c : Catalog) : Nat := c.predicates.length

/-- The number of layers. -/
def depth (c : Catalog) : Nat := c.predicates.foldl (fun n p => max n (p.layer + 1)) 0

/-- The predicates of each layer, the lowest layer first. -/
def layers (c : Catalog) : List (List Predicate) :=
  (List.range c.depth).map fun k => c.predicates.filter (·.layer == k)

/-- The predicates with their answers for a type. -/
def classify (c : Catalog) (t : Descriptor) : List (Predicate × Bool) :=
  c.predicates.map fun p => (p, p.holds t)

end Catalog

end TypeTraits
