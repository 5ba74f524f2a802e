import TypeTraits.TypeId.Reading
import TypeTraits.Universe.Basic

/-!
# `TypeTraits.Universe.Elaboration`: the type that a written type stands for

`Universe.elaborate` forms the type of a `TypeId`. The specifier is looked up
first; then the declarator is applied to it from the inside of the binding
order outwards: pointer operators from the left, suffixes from the right, and
the declarator in parentheses last. A step that cannot be formed is reported at
its own span.

`class`, `union` and `enum` in front of a name ask for a declared type of that
kind, or introduce the type where the name is not declared.
-/

set_option autoImplicit false

namespace TypeTraits

/-- A formed type, or the diagnostic for the refusal at a span. -/
def formedAt (span : Span) : Except IllFormed Descriptor → Except Diagnostic Descriptor
  | .ok t => .ok t
  | .error reason => .error ⟨.illFormed reason, span⟩

namespace Universe

/-- The declared type of a name, used at a span. -/
def resolve (u : Universe) (name : String) (span : Span) : Except Diagnostic Descriptor :=
  match u.lookup? name with
  | some t => .ok t
  | none => .error ⟨.unknownName name, span⟩

/-- The class or union of a name: the declared one, or a new one. -/
def classOrUnion (u : Universe) (decl : ClassType) : Except IllFormed Descriptor :=
  match u.lookup? decl.name with
  -- The type is as declared: an alias for a qualified class keeps its qualifiers.
  | some t@(.classType c _) => if c.isUnion = decl.isUnion then .ok t else .error (.notAClass t)
  | some t => .error (.notAClass t)
  | none => .ok (.classType decl .none)

/-- The enumeration of a name: the declared one, which must be scoped alike and have the
underlying type if one is given, or a new one, stored as `int` unless one is given. -/
def enumeration (u : Universe) (name : String) (isScoped : Bool) (underlying : Option Scalar) :
    Except IllFormed Descriptor :=
  match u.lookup? name with
  | some t@(.enumType e _) =>
    if e.isScoped = isScoped ∧ (underlying = none ∨ underlying = some e.underlying) then .ok t
    else .error (.notAnEnum t)
  | some t => .error (.notAnEnum t)
  | none =>
    let k := underlying.getD .int
    if k.isIntegral then .ok (.enumType ⟨name, isScoped, k⟩ .none)
    else .error (.notIntegral (.scalar k .none))

/-- The type of a base, used at a span. -/
def elaborateBase (u : Universe) (span : Span) : Base → Except Diagnostic Descriptor
  | .void => .ok (.void .none)
  | .nullPointer => .ok (.nullPointer .none)
  | .scalar k => .ok (.scalar k .none)
  | .named name => u.resolve name span
  | .ofClass name => formedAt span (u.classOrUnion ⟨name, false⟩)
  | .ofUnion name => formedAt span (u.classOrUnion ⟨name, true⟩)
  | .ofEnum name isScoped underlying => formedAt span (u.enumeration name isScoped underlying)

/-- The type of a specifier. -/
def elaborateSpecifier (u : Universe) (s : Specifier) : Except Diagnostic Descriptor :=
  (u.elaborateBase s.span s.base).map (·.qualified s.quals)

/-- What a pointer operator makes of a type. -/
def applyOp (u : Universe) (t : Descriptor) (op : PointerOp) : Except Diagnostic Descriptor :=
  match op.kind with
  | .pointer q => formedAt op.span (t.pointerTo.map (·.qualified q))
  | .lvalueRef => formedAt op.span t.lvalueRefTo
  | .rvalueRef => formedAt op.span t.rvalueRefTo
  | .member owner q => do
    -- The class is looked up before anything is formed.
    let c ← u.resolve owner op.span
    formedAt op.span ((c.memberPointerTo t).map (·.qualified q))

mutual

/-- The type that a written type stands for. -/
def elaborate (u : Universe) : TypeId → Except Diagnostic Descriptor
  | .mk s d _ => do u.applyDeclarator d (← u.elaborateSpecifier s)

/-- What a declarator makes of a type. -/
def applyDeclarator (u : Universe) : Declarator → Descriptor → Except Diagnostic Descriptor
  | .flat ops suffixes, t => do u.applySuffixes suffixes (← ops.foldlM u.applyOp t)
  | .nested ops inner suffixes, t => do
    u.applyDeclarator inner (← u.applySuffixes suffixes (← ops.foldlM u.applyOp t))

/-- What suffixes make of a type, the last one first. -/
def applySuffixes (u : Universe) : List Suffix → Descriptor → Except Diagnostic Descriptor
  | [], t => .ok t
  | s :: ss, t => do u.applySuffix s (← u.applySuffixes ss t)

/-- What a suffix makes of a type. -/
def applySuffix (u : Universe) : Suffix → Descriptor → Except Diagnostic Descriptor
  | .array n span, t => formedAt span (t.arrayOf n)
  | .function params isVariadic span, t => do
    -- A parameter without a type is blamed before the result is looked at.
    formedAt span (t.functionOf (← u.elaborateEach params) isVariadic)

/-- The types that written types stand for. -/
def elaborateEach (u : Universe) : List TypeId → Except Diagnostic (List Descriptor)
  | [] => .ok []
  | t :: ts => do return (← u.elaborate t) :: (← u.elaborateEach ts)

end

/-- The type that a text stands for. -/
def parseType (u : Universe) (text : String) : Except Diagnostic Descriptor := do
  u.elaborate (← TypeId.ofText text)

end Universe

end TypeTraits
