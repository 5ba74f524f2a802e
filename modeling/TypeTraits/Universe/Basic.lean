import TypeTraits.Descriptor.Formation

/-!
# `TypeTraits.Universe.Basic`: the declared types

A `Universe` is a list of names with the types that they stand for, in the
order of declaration. A name finds its first entry.
-/

set_option autoImplicit false

namespace TypeTraits

/-- The declared names and their types. -/
structure Universe where
  entries : List (String × Descriptor)
deriving DecidableEq, Repr

namespace Universe

/-- The universe without declarations. -/
def empty : Universe := ⟨[]⟩

/-- The type of a name. -/
def lookup? (u : Universe) (name : String) : Option Descriptor := u.entries.lookup name

/-- Whether the name is declared. -/
def contains (u : Universe) (name : String) : Bool := (u.lookup? name).isSome

/-- The number of declared names. -/
def size (u : Universe) : Nat := u.entries.length

/-- Whether nothing is declared. -/
def isEmpty (u : Universe) : Bool := u.entries.isEmpty

end Universe

end TypeTraits
