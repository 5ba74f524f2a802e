import Mathlib.Data.List.Nodup
import TypeTraits.Proofs.Query.Canonical
import TypeTraits.Proofs.Support.List
import TypeTraits.Proofs.Token.Lexing

/-!
# `TypeTraits.Proofs.Query.Operations`: the names that call operations

A name in front of `<` loses one ending, and what is left is looked up among the names of
the language, then in the catalog and last among the transformations. No name gets in the
way of another one: the tables have each name once and share none, no name ends in `_t` or
`_v` itself, and no name becomes a keyword by an ending.

* `Scope.calls_transformation`, `Scope.calls_predicate`: every entry of the two tables is
  called by its name.
* `Operation.Gives`: what an operation comes to, in terms of the values of its arguments.
-/

set_option autoImplicit false

namespace TypeTraits

/-- What the name of an operation may end in when it is called. -/
inductive Ending where
  | none
  | t
  | v
deriving DecidableEq, Repr

namespace Ending

/-- The characters of the ending. -/
def text : Ending → String
  | none => ""
  | t => "_t"
  | v => "_v"

end Ending

/-! ### Names and their endings -/

/-- An ending is taken away again. -/
theorem Operation.baseName_append {name : String} (h : baseName name = name) (e : Ending) :
    baseName (name ++ e.text) = name := by
  cases e with
  | none => rw [Ending.text, String.append_empty, h]
  | t | v => simp [baseName, Ending.text]

/-- The names that become a keyword by an ending, although they are none. -/
def keywordStems : List String := ["wchar", "char8", "char16", "char32"]

/-- Any other keyword without an ending is a keyword still. -/
theorem ofName_baseName_ne :
    (∀ w ∈ ScalarWord.all, Operation.baseName w.text ∈ keywordStems ∨
      Symbol.ofName (Operation.baseName w.text) ≠ .identifier (Operation.baseName w.text)) ∧
    ∀ k ∈ Keyword.all, Operation.baseName k.text ∈ keywordStems ∨
      Symbol.ofName (Operation.baseName k.text) ≠ .identifier (Operation.baseName k.text) := by
  decide +kernel

/-- An identifier that stands for itself in front of `<`, and does so with each ending. -/
structure IsOperationName (name : String) : Prop where
  isLexical : (Symbol.identifier name).IsLexical
  baseName_eq : Operation.baseName name = name
  notMem : name ∉ keywordStems

instance (name : String) : Decidable (IsOperationName name) :=
  decidable_of_iff
    ((Symbol.identifier name).IsLexical ∧ Operation.baseName name = name ∧ name ∉ keywordStems)
    ⟨fun ⟨h₁, h₂, h₃⟩ => ⟨h₁, h₂, h₃⟩, fun ⟨h₁, h₂, h₃⟩ => ⟨h₁, h₂, h₃⟩⟩

namespace IsOperationName

variable {name : String}

/-- An ending makes no keyword of the name. -/
theorem ofName_append (h : IsOperationName name) (e : Ending) :
    Symbol.ofName (name ++ e.text) = .identifier (name ++ e.text) := by
  have hname := (Symbol.identifier_isLexical_iff.mp h.isLexical).1
  -- A keyword would be the name again without the ending.
  have key : ∀ text : String, (Operation.baseName text ∈ keywordStems ∨
      Symbol.ofName (Operation.baseName text) ≠ .identifier (Operation.baseName text)) →
      text ≠ name ++ e.text := by
    rintro _ hstem rfl
    rw [Operation.baseName_append h.baseName_eq] at hstem
    exact hstem.elim h.notMem fun hne => hne hname
  obtain ⟨hwords, hkeys⟩ := ofName_baseName_ne
  exact Symbol.ofName_eq_identifier_iff.mpr
    ⟨fun w => key _ (hwords w w.mem_all), fun k => key _ (hkeys k k.mem_all)⟩

/-- The name is an identifier with each ending. -/
theorem isLexical_append (h : IsOperationName name) (e : Ending) :
    (Symbol.identifier (name ++ e.text)).IsLexical := by
  refine Symbol.isLexical_append h.isLexical ?_ (h.ofName_append e)
  cases e <;> simp [Ending.text, isNameChar]

end IsOperationName

/-- The transformations have names of operations. -/
theorem isOperationName_of_mem_transformations :
    ∀ f ∈ Transformation.all, IsOperationName f.name := by
  decide +kernel

/-- So have the predicates. -/
theorem isOperationName_of_mem_standard :
    ∀ p ∈ Catalog.standard.predicates, IsOperationName p.name := by
  decide +kernel

/-! ### Looking names up -/

/-- The names that the language has for itself. -/
def Operation.reservedNames : List String :=
  ["conjunction", "disjunction", "negation", "conditional", "enable_if", "is_same", "is_any_of",
    "rank", "extent"]

namespace Scope

variable {s : Scope}

/-- A name that the language does not have is looked up in the catalog first. -/
theorem operation?_eq_of_notMem {name : String} (h : name ∉ Operation.reservedNames) :
    s.operation? name =
      match s.catalog.get? name with
      | some p => some (.predicate p)
      | none => (Transformation.find? name).map .transformation := by
  unfold operation?
  split
  case h_10 => rfl
  all_goals exact absurd (by decide) h

/-- The name calls the operation, with each ending and without. -/
structure Calls (s : Scope) (name : String) (o : Operation) : Prop where
  isOperationName : IsOperationName name
  operation?_eq : s.operation? name = some o

/-- Every transformation is called by its name. -/
theorem calls_transformation {u : Universe} {f : Transformation} (hf : f ∈ Transformation.all) :
    (ofUniverse u).Calls f.name (.transformation f) := by
  have hreserved : ∀ f ∈ Transformation.all, f.name ∉ Operation.reservedNames := by
    decide +kernel
  have hcatalog : ∀ f ∈ Transformation.all, (Catalog.standard.get? f.name).isNone = true := by
    decide +kernel
  -- Neither a fixed operation nor a predicate has the name of a transformation.
  have hget : (ofUniverse u).catalog.get? f.name = none :=
    Option.isNone_iff_eq_none.mp (hcatalog f hf)
  have hdistinct : (Transformation.all.map Transformation.name).Nodup := by
    decide +kernel
  have hfind : Transformation.find? f.name = some f := find?_name_eq_some _ hdistinct hf
  refine ⟨isOperationName_of_mem_transformations f hf, ?_⟩
  rw [operation?_eq_of_notMem (hreserved f hf), hget, hfind]
  rfl

/-- Every predicate of the standard catalog is called by its name. -/
theorem calls_predicate {u : Universe} {p : Predicate} (hp : p ∈ Catalog.standard.predicates) :
    (ofUniverse u).Calls p.name (.predicate p) := by
  have hreserved : ∀ p ∈ Catalog.standard.predicates, p.name ∉ Operation.reservedNames := by
    decide +kernel
  have hdistinct : (Catalog.standard.predicates.map Predicate.name).Nodup := by
    decide +kernel
  have hget : (ofUniverse u).catalog.get? p.name = some p := find?_name_eq_some _ hdistinct hp
  refine ⟨isOperationName_of_mem_standard p hp, ?_⟩
  rw [operation?_eq_of_notMem (hreserved p hp), hget]

/-- The name `rank` stands for the number of dimensions. -/
theorem calls_rank (s : Scope) : s.Calls "rank" .rank :=
  ⟨by decide +kernel, rfl⟩

/-- The name `extent` stands for the extent of a dimension. -/
theorem calls_extent (s : Scope) : s.Calls "extent" .extent :=
  ⟨by decide +kernel, rfl⟩

/-- The name `is_same` stands for the test for equality. -/
theorem calls_isSame (s : Scope) : s.Calls "is_same" .isSame :=
  ⟨by decide +kernel, rfl⟩

end Scope

/-! ### Operations on values -/

namespace Operation

/-- The operation comes to the value for any arguments that have the given values. -/
def Gives (o : Operation) (vs : List Value) (w : Value) : Prop :=
  ∀ args : List Argument, args.map (·.value ()) = vs.map .ok → o.result? args = some (.ok w)

/-- An operation on one type. -/
theorem gives_of_type {o : Operation} {t : Descriptor} {w : Value}
    (h : ∀ a : Argument, a.type = .ok t → o.result? [a] = some (.ok w)) : o.Gives [.type t] w := by
  intro args hargs
  obtain ⟨a, rfl, ha⟩ := List.map_eq_singleton_iff.mp hargs
  exact h a (Argument.type_eq_ok_iff.mpr ha)

variable {t : Descriptor}

/-- A transformation takes a type to what it makes of it. -/
theorem gives_transformation (f : Transformation) :
    (transformation f).Gives [.type t] (.type (f.apply t)) :=
  gives_of_type fun a ha => by rw [result?, ha]; rfl

/-- A predicate takes a type to its answer. -/
theorem gives_predicate (p : Predicate) : (predicate p).Gives [.type t] (.bool (p.holds t)) :=
  gives_of_type fun a ha => by rw [result?, ha]; rfl

/-- The rank of a type is a size. -/
theorem gives_rank : rank.Gives [.type t] (.size t.rank) :=
  gives_of_type fun a ha => by rw [result?, ha]; rfl

/-- So is an extent, of the dimension that the second argument gives. -/
theorem gives_extent {n : Nat} : extent.Gives [.type t, .size n] (.size (t.extent n)) := by
  intro args hargs
  obtain ⟨a, as, rfl, ha, hrest⟩ := List.map_eq_cons_iff.mp hargs
  obtain ⟨b, rfl, hb⟩ := List.map_eq_singleton_iff.mp hrest
  have hsize : b.size = .ok n := by
    rw [Argument.size, hb]
    rfl
  rw [result?, Argument.type_eq_ok_iff.mpr ha]
  show some (do return Value.size (t.extent (← b.size))) = _
  rw [hsize]
  rfl

/-- Sameness is equality. -/
theorem gives_isSame {t' : Descriptor} :
    isSame.Gives [.type t, .type t'] (.bool (decide (t = t'))) := by
  intro args hargs
  obtain ⟨a, as, rfl, ha, hrest⟩ := List.map_eq_cons_iff.mp hargs
  obtain ⟨b, rfl, hb⟩ := List.map_eq_singleton_iff.mp hrest
  rw [result?, Argument.type_eq_ok_iff.mpr ha]
  show some (do return Value.bool (t == (← b.type))) = _
  rw [Argument.type_eq_ok_iff.mpr hb]
  rfl

end Operation

end TypeTraits
