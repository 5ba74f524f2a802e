import TypeTraits.Universe.Elaboration

/-!
# `TypeTraits.Universe.Declaration`: growing a universe

A `Declaration` adds one name to a universe. The name must be an identifier and
must be new. What an enumeration or an alias stands for is checked before its
name is. A refused declaration leaves the universe as it was.
-/

set_option autoImplicit false

namespace TypeTraits

/-- One declared name. -/
inductive Declaration where
  | ofClass (name : String)
  | ofUnion (name : String)
  | ofEnum (name : String) (isScoped : Bool) (underlying : Scalar)
  /-- Another name for the type of a text, which may use the names declared so far. -/
  | alias (name text : String)
deriving DecidableEq, Repr

/-- Why a name is not declared. -/
inductive DeclarationError where
  | duplicate (name : String)
  | invalidName (name : String)
  /-- The text is no integral type. -/
  | invalidUnderlying (name underlying : String)
  /-- The text has no type. -/
  | invalidAlias (name text : String) (reason : Diagnostic)
deriving DecidableEq, Repr

/-- The refusal in words. -/
def DeclarationError.message : DeclarationError → String
  | duplicate name => "`" ++ name ++ "` is declared more than once"
  | invalidName name => "`" ++ name ++ "` is not a valid type name"
  | invalidUnderlying name underlying =>
    "enum `" ++ name ++ "` has invalid underlying type `" ++ underlying ++ "`"
  | invalidAlias name text reason =>
    "alias `" ++ name ++ "` does not name a valid type: " ++ reason.message text

/-- Whether the text is a single identifier, perhaps with blanks around it. -/
def isIdentifier (name : String) : Bool :=
  match TokenStream.ofText? name with
  | .ok ⟨[⟨.identifier _, _⟩], _⟩ => true
  | _ => false

namespace Universe

/-- The universe with one more entry. -/
def insert (u : Universe) (name : String) (t : Descriptor) : Except DeclarationError Universe :=
  if !isIdentifier name then .error (.invalidName name)
  else if u.contains name then .error (.duplicate name)
  else .ok ⟨u.entries ++ [(name, t)]⟩

/-- The universe with one more declaration. -/
def declare (u : Universe) : Declaration → Except DeclarationError Universe
  | .ofClass name => u.insert name (.classType ⟨name, false⟩ .none)
  | .ofUnion name => u.insert name (.classType ⟨name, true⟩ .none)
  | .ofEnum name isScoped underlying =>
    if !underlying.isIntegral then .error (.invalidUnderlying name underlying.name)
    else u.insert name (.enumType ⟨name, isScoped, underlying⟩ .none)
  | .alias name text =>
    match u.parseType text with
    | .error reason => .error (.invalidAlias name text reason)
    | .ok t => u.insert name t

/-- The universe with further declarations, up to the first that is refused. -/
def declareAll (u : Universe) (ds : List Declaration) : Except DeclarationError Universe :=
  ds.foldlM declare u

/-- The universe as it is after a declaration, accepted or refused. -/
def attempt (u : Universe) (d : Declaration) : Universe :=
  match u.declare d with
  | .ok u' => u'
  | .error _ => u

end Universe

end TypeTraits
