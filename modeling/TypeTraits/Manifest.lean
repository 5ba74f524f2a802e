import TypeTraits.Toml.Document
import TypeTraits.Universe.Declaration

/-!
# `TypeTraits.Manifest`: universes from files

A manifest lists classes, unions, enumerations and aliases as TOML records
under the names `class`, `union`, `enum` and `alias`. Whatever their order in
the file, the classes are declared first, then the unions, the enumerations and
the aliases; an alias may use all names before it. The first declaration that
is refused decides the failure.

`Manifest.universe?` declares the lists of a manifest. Which text is which manifest
is up to a reader (`Universe.ofManifestWith`), and `Manifest.ofText?` is the one for
TOML.
-/

set_option autoImplicit false

namespace TypeTraits

/-- An enumeration as a manifest lists it. -/
structure EnumEntry where
  name : String
  isScoped : Bool
  /-- The text of the type that it is stored as. -/
  underlying : Option String
deriving DecidableEq, Repr

/-- An alias as a manifest lists it. -/
structure AliasEntry where
  name : String
  text : String
deriving DecidableEq, Repr

/-- The lists of a manifest. -/
structure Manifest where
  classes : List String
  unions : List String
  enums : List EnumEntry
  aliases : List AliasEntry
deriving DecidableEq, Repr

/-- Why a manifest gives no universe. -/
inductive ManifestError where
  /-- The text is no manifest. -/
  | unreadable
  | refused (e : DeclarationError)
deriving DecidableEq, Repr

/-- The integral type of a text, which must be unqualified and use no declared name. -/
def integralOfText? (text : String) : Option Scalar :=
  match Universe.empty.parseType text with
  | .ok (.scalar k q) => if k.isIntegral && q.isEmpty then some k else none
  | _ => none

/-- The declaration that an entry stands for. -/
def EnumEntry.declaration (e : EnumEntry) : Except DeclarationError Declaration :=
  match e.underlying with
  | none => .ok (.ofEnum e.name e.isScoped .int)
  | some text =>
    match integralOfText? text with
    | some k => .ok (.ofEnum e.name e.isScoped k)
    | none => .error (.invalidUnderlying e.name text)

/-- The universe with the enumeration of an entry. -/
def Universe.declareEnum (u : Universe) (e : EnumEntry) : Except DeclarationError Universe := do
  u.declare (← e.declaration)

namespace Manifest

/-- The universe of a manifest. -/
def universe? (m : Manifest) : Except DeclarationError Universe := do
  let u ← Universe.empty.declareAll (m.classes.map .ofClass)
  let u ← u.declareAll (m.unions.map .ofUnion)
  let u ← m.enums.foldlM Universe.declareEnum u
  u.declareAll (m.aliases.map fun a => .alias a.name a.text)

/-! ### Records -/

/-- The values of the given fields. A record is a table of these fields alone, or an array
that begins with a value for each of them in order. -/
def fields? (names : List String) : Toml.Value → Option (List (Option Toml.Value))
  | .table entries =>
    if entries.all fun (key, _) => names.any ([·] == key) then
      some (names.map fun n => entries.lookup [n])
    else none
  | .array items =>
    if items.length < names.length then none else some ((items.take names.length).map some)
  | _ => none

/-- A record of a class or union. -/
def name? (v : Toml.Value) : Option String :=
  match fields? ["name"] v with
  | some [some (.string name)] => some name
  | _ => none

/-- A record of an enumeration. -/
def enum? (v : Toml.Value) : Option EnumEntry := do
  match ← fields? ["name", "scoped", "underlying"] v with
  | [some (.string name), isScoped, underlying] =>
    -- A field may be missing, but not be of another kind.
    let isScoped ← match isScoped with
      | none => some false
      | some (.boolean b) => some b
      | some _ => none
    let underlying ← match underlying with
      | none => some none
      | some (.string text) => some (some text)
      | some _ => none
    return ⟨name, isScoped, underlying⟩
  | _ => none

/-- A record of an alias. -/
def alias? (v : Toml.Value) : Option AliasEntry :=
  match fields? ["name", "type"] v with
  | some [some (.string name), some (.string text)] => some ⟨name, text⟩
  | _ => none

/-! ### Documents -/

/-- The records under a name: the sections of the name, or the array that is its entry. -/
def records? (d : Toml.Document) (name : String) : Option (List Toml.Value) :=
  let sections := d.sections.filter (·.name == name)
  match d.entries.lookup [name] with
  | none => some (sections.map fun s => .table s.entries)
  -- The records stand in sections or in one array, not in both.
  | some (.array items) => if sections.isEmpty then some items else none
  | some _ => none

/-- The manifest of a document that holds nothing else. -/
def ofDocument? (d : Toml.Document) : Option Manifest := do
  let known := ["class", "union", "enum", "alias"]
  guard ((d.entries.map (·.1) ++ d.sections.map ([·.name])).all (known.map ([·])).contains)
  return {
    classes := ← (← records? d "class").mapM name?
    unions := ← (← records? d "union").mapM name?
    enums := ← (← records? d "enum").mapM enum?
    aliases := ← (← records? d "alias").mapM alias? }

/-- The manifest of a TOML text. -/
def ofText? (text : String) : Option Manifest := (Toml.Document.ofText? text).bind ofDocument?

end Manifest

namespace Universe

/-- The universe of a manifest's text, which a reader takes for a manifest or refuses. -/
def ofManifestWith (read : String → Option Manifest) (text : String) :
    Except ManifestError Universe :=
  match read text with
  | none => .error .unreadable
  | some m => m.universe?.mapError .refused

/-- The universe of a manifest in TOML. -/
def ofManifest : String → Except ManifestError Universe := ofManifestWith Manifest.ofText?

end Universe

end TypeTraits
