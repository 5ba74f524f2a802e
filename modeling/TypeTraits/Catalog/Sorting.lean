import TypeTraits.Catalog.Basic

/-!
# `TypeTraits.Catalog.Sorting`: catalogs with layers along a sorted graph

`Catalog.ofDefinitions` assigns layers in the order of the list. `Catalog.ofSorted`
checks the list in the same way, and then has a `Sorter` choose the order. It makes a
graph of the definitions, with an edge to each name from the names that its definition
uses, and sets the layers one by one in the order that the sorter returns. If the sorter
names a node on a cycle instead, there is no catalog.

The sorter is a parameter. `Sorter.bySources` is a plain one, which takes away one node
after another that no edge leads to.
-/

set_option autoImplicit false

namespace TypeTraits

/-- Brings the nodes of a graph in an order, or names a node on a cycle. An edge leads from its
first node to its second. -/
abbrev Sorter := List String → List (String × String) → Except String (List String)

namespace Sorter

/-- Takes away one node after another, always the last of those that no node left has an edge to. -/
def removeSources (edges : List (String × String)) : Nat → List String → Except String (List String)
  | 0, _ => .ok []
  | k + 1, left =>
    match left.reverse.find? fun n => left.all fun u => !edges.contains (u, n) with
    | some n => (removeSources edges k (left.erase n)).map (n :: ·)
    | none => left.head?.elim (.ok []) .error

/-- Sorts a graph by removing sources. -/
def bySources : Sorter := fun nodes edges => removeSources edges nodes.length nodes

end Sorter

namespace Catalog

/-- Why a list of definitions makes no catalog. -/
inductive BuildError where
  /-- Something is wrong with the list. -/
  | layering (e : LayeringError)
  /-- The dependencies cannot be sorted, because the predicate depends on itself. -/
  | cycle (name : String)
deriving DecidableEq, Repr

/-- The edges of the graph: to each definition's name from the names that it uses. -/
def dependencies (ds : List Definition) : List (String × String) :=
  ds.flatMap fun d => d.uses.map (·, d.name)

/-- What the definition of a name uses. -/
def usesOf (ds : List Definition) (n : String) : List String :=
  (ds.find? (·.name == n)).elim [] (·.uses)

/-- One above the highest of the layers, and 0 if there is none. -/
def oneAbove (layers : List Nat) : Nat := layers.foldl (fun k n => max k (n + 1)) 0

/-- The layers that come out when the layer of each name is set in turn, from the layers set
before. -/
def layersAlong (ds : List Definition) (order : List String) : String → Nat :=
  order.foldl
    (fun layer n m => if m = n then oneAbove ((usesOf ds n).map layer) else layer m) fun _ => 0

/-- The predicates of the definitions, once the layer of each name is known. -/
def withLayers (layer : String → Nat) (ds : List Definition) : List Predicate :=
  ds.map fun d => d.atLayer (layer d.name)

/-- The catalog of a list of definitions, with layers along the order that a sorter chooses. -/
def ofSorted (sort : Sorter) (ds : List Definition) : Except BuildError Catalog :=
  match ofDefinitions ds with
  | .error e => .error (.layering e)
  | .ok _ =>
    match sort (names ds) (dependencies ds) with
    | .error n => .error (.cycle n)
    | .ok order => .ok ⟨withLayers (layersAlong ds order) ds⟩

end Catalog

end TypeTraits
