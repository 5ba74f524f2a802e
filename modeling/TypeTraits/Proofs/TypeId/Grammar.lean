import TypeTraits.TypeId.Reading

/-!
# `TypeTraits.Proofs.TypeId.Grammar`: the grammar of type notation

The grammar as relations between lists of symbols and syntax trees, one rule a
constructor. Nothing here looks ahead, and no rule says where it ends: a list
of symbols is derived when it can be cut into the parts of a rule somehow. Where
a tree was read is not the grammar's business, so derived trees are bare: every
span in them is the default one.

```
type       := specifier declarator
specifier  := cv* base cv*  |  words with cv between them
declarator := op* [ '(' declarator ')' ] suffix*
op         := '*' cv*  |  '&'  |  '&&'  |  IDENT '::' '*' cv*
suffix     := '[' [INT] ']'  |  '(' params ')'
params     := nothing  |  'void'  |  '...'  |  type (',' type)* [',' '...']
```

A declarator in parentheses begins with an operator, and a lone `void` is the
empty parameter list and not a parameter.

* `TypeId.bare`: a tree without its spans.
* `IsType`: the grammar's types, with a relation for every other rule.
-/

set_option autoImplicit false

namespace TypeTraits

/-- The symbols of tokens. -/
abbrev symbols (ts : List Token) : List Symbol := ts.map (·.symbol)

/-- The specifier without the place it was read from. -/
def Specifier.bare (s : Specifier) : Specifier := s.mapSpan fun _ => default

/-- The type without the places it was read from. -/
def TypeId.bare (t : TypeId) : TypeId := t.mapSpans fun _ => default

/-- The declarator without the places it was read from. -/
def Declarator.bare (d : Declarator) : Declarator := d.mapSpans fun _ => default

/-- The operators without the places they were read from. -/
def PointerOp.bareEach (ops : List PointerOp) : List PointerOp :=
  ops.map (·.mapSpan fun _ => default)

/-- The suffixes without the places they were read from. -/
def Suffix.bareEach (ss : List Suffix) : List Suffix := Suffix.mapSpansEach (fun _ => default) ss

/-- The types without the places they were read from. -/
def TypeId.bareEach (ts : List TypeId) : List TypeId := TypeId.mapSpansEach (fun _ => default) ts

/-- A declarator keeps its own operators without their places. -/
theorem Declarator.ops_bare (d : Declarator) : d.bare.ops = PointerOp.bareEach d.ops := by
  cases d <;> rfl

namespace Grammar

/-! ### Specifiers -/

/-- Any number of qualifiers, and the set of them. One that is written twice counts
once. -/
inductive IsQualifiers : List Symbol → Qualifiers → Prop
  | nil : IsQualifiers [] .none
  | cons {key : Keyword} {q r : Qualifiers} {ss : List Symbol} :
    key.qualifier? = some q → IsQualifiers ss r → IsQualifiers (.keyword key :: ss) (q.union r)

/-- Words of an arithmetic type in this order, with qualifiers before, between and behind. -/
inductive IsWords : List Symbol → List ScalarWord → Qualifiers → Prop
  | nil : IsWords [] [] .none
  | word {w : ScalarWord} {ws : List ScalarWord} {q : Qualifiers} {ss : List Symbol} :
    IsWords ss ws q → IsWords (.scalar w :: ss) (w :: ws) q
  | qualifier {key : Keyword} {ws : List ScalarWord} {q r : Qualifiers} {ss : List Symbol} :
    key.qualifier? = some q → IsWords ss ws r → IsWords (.keyword key :: ss) ws (q.union r)

/-- Words need no qualifiers between them. -/
theorem isWords_map_scalar (ws : List ScalarWord) : IsWords (ws.map .scalar) ws .none := by
  induction ws with
  | nil => exact .nil
  | cons w ws ih => exact .word ih

/-- Qualifiers may stand in front of words. -/
theorem IsWords.of_qualifiers {ss ss' : List Symbol} {ws : List ScalarWord} {q r : Qualifiers}
    (hw : IsWords ss' ws r) (hq : IsQualifiers ss q) : IsWords (ss ++ ss') ws (q.union r) := by
  induction hq with
  | nil => rwa [Qualifiers.none_union]
  | cons hk _ ih =>
    rw [Qualifiers.union_assoc]
    exact .qualifier hk ih

/-- What may stand between `enum` and the name, scoped or not. -/
inductive IsEnumKey : List Symbol → Bool → Prop
  | unscoped : IsEnumKey [] false
  | scopedClass : IsEnumKey [.keyword .classKey] true
  | scopedStruct : IsEnumKey [.keyword .structKey] true

/-- The bases other than arithmetic types. -/
inductive IsBase : List Symbol → Base → Prop
  | void : IsBase [.keyword .void] .void
  | nullptrT : IsBase [.keyword .nullptrT] .nullPointer
  | decltype :
    IsBase [.keyword .decltype, .mark .leftParen, .keyword .nullptr, .mark .rightParen] .nullPointer
  | ofClass {name : String} : IsBase [.keyword .classKey, .identifier name] (.ofClass name)
  | ofStruct {name : String} : IsBase [.keyword .structKey, .identifier name] (.ofClass name)
  | ofUnion {name : String} : IsBase [.keyword .unionKey, .identifier name] (.ofUnion name)
  | ofEnum {ss : List Symbol} {isScoped : Bool} {name : String} :
    IsEnumKey ss isScoped →
    IsBase (.keyword .enumKey :: ss ++ [.identifier name]) (.ofEnum name isScoped none)
  | storedEnum {ss : List Symbol} {isScoped : Bool} {name : String} {ws : List ScalarWord}
      {k : Scalar} :
    IsEnumKey ss isScoped → k.isSpelledBy ws →
    IsBase (.keyword .enumKey :: ss ++ .identifier name :: .mark .colon :: ws.map .scalar)
      (.ofEnum name isScoped (some k))
  | named {name : String} : IsBase [.identifier name] (.named name)

/-- Specifiers: exactly one base, and qualifiers around it. -/
inductive IsSpecifier : List Symbol → Specifier → Prop
  | arithmetic {ss : List Symbol} {ws : List ScalarWord} {k : Scalar} {q : Qualifiers} :
    IsWords ss ws q → k.isSpelledBy ws → IsSpecifier ss ⟨.scalar k, q, default⟩
  | other {before ss behind : List Symbol} {b : Base} {q r : Qualifiers} :
    IsQualifiers before q → IsBase ss b → IsQualifiers behind r →
    IsSpecifier (before ++ ss ++ behind) ⟨b, q.union r, default⟩

/-! ### Declarators -/

/-- One pointer operator. -/
inductive IsOp : List Symbol → PointerKind → Prop
  | pointer {ss : List Symbol} {q : Qualifiers} :
    IsQualifiers ss q → IsOp (.mark .star :: ss) (.pointer q)
  | lvalueRef : IsOp [.mark .amp] .lvalueRef
  | rvalueRef : IsOp [.mark .ampAmp] .rvalueRef
  | member {ss : List Symbol} {owner : String} {q : Qualifiers} :
    IsQualifiers ss q →
    IsOp (.identifier owner :: .mark .colonColon :: .mark .star :: ss) (.member owner q)

/-- Any number of pointer operators. -/
inductive IsOps : List Symbol → List PointerOp → Prop
  | nil : IsOps [] []
  | cons {ss ss' : List Symbol} {k : PointerKind} {ops : List PointerOp} :
    IsOp ss k → IsOps ss' ops → IsOps (ss ++ ss') (⟨k, default⟩ :: ops)

/-- What may stand in the brackets of an array. -/
inductive IsBound : List Symbol → Option Nat → Prop
  | unknown : IsBound [] none
  | known {digits : String} :
    decimal digits.toList < sizeLimit → IsBound [.literal digits] (some (decimal digits.toList))

mutual

/-- Types. -/
inductive IsType : List Symbol → TypeId → Prop
  | mk {ss ss' : List Symbol} {s : Specifier} {d : Declarator} :
    IsSpecifier ss s → IsDeclarator ss' d → IsType (ss ++ ss') (.mk s d default)

/-- Declarators. Parentheses that group hold a declarator with an operator of its own;
without one they would be the parameters of a function. -/
inductive IsDeclarator : List Symbol → Declarator → Prop
  | flat {ss ss' : List Symbol} {ops : List PointerOp} {suffixes : List Suffix} :
    IsOps ss ops → IsSuffixes ss' suffixes → IsDeclarator (ss ++ ss') (.flat ops suffixes)
  | nested {ss ss' ss'' : List Symbol} {ops : List PointerOp} {inner : Declarator}
      {suffixes : List Suffix} :
    IsOps ss ops → IsDeclarator ss' inner → inner.ops ≠ [] → IsSuffixes ss'' suffixes →
    IsDeclarator (ss ++ .mark .leftParen :: (ss' ++ .mark .rightParen :: ss''))
      (.nested ops inner suffixes)

/-- Any number of suffixes. -/
inductive IsSuffixes : List Symbol → List Suffix → Prop
  | nil : IsSuffixes [] []
  | array {ss ss' : List Symbol} {bound : Option Nat} {suffixes : List Suffix} :
    IsBound ss bound → IsSuffixes ss' suffixes →
    IsSuffixes (.mark .leftBracket :: ss ++ .mark .rightBracket :: ss')
      (.array bound default :: suffixes)
  | function {ss ss' : List Symbol} {params : List TypeId} {isVariadic : Bool}
      {suffixes : List Suffix} :
    IsParams ss params isVariadic → IsSuffixes ss' suffixes →
    IsSuffixes (.mark .leftParen :: ss ++ .mark .rightParen :: ss')
      (.function params isVariadic default :: suffixes)

/-- Parameters and whether more may follow. -/
inductive IsParams : List Symbol → List TypeId → Bool → Prop
  | nothing : IsParams [] [] false
  | void : IsParams [.keyword .void] [] false
  | ellipsis : IsParams [.mark .ellipsis] [] true
  -- A lone `void` is also a type, so this rule has to leave it to the second.
  | list {ss : List Symbol} {params : List TypeId} :
    IsTypes ss params → ss ≠ [.keyword .void] → IsParams ss params false
  | variadic {ss : List Symbol} {params : List TypeId} :
    IsTypes ss params → IsParams (ss ++ [.mark .comma, .mark .ellipsis]) params true

/-- One or more types with commas between them. -/
inductive IsTypes : List Symbol → List TypeId → Prop
  | last {ss : List Symbol} {t : TypeId} : IsType ss t → IsTypes ss [t]
  | cons {ss ss' : List Symbol} {t : TypeId} {ts : List TypeId} :
    IsType ss t → IsTypes ss' ts → IsTypes (ss ++ .mark .comma :: ss') (t :: ts)

end

end Grammar

end TypeTraits
