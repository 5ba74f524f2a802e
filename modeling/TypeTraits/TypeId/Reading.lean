import TypeTraits.Token.Reading
import TypeTraits.TypeId.Basic
import TypeTraits.TypeId.Words

/-!
# `TypeTraits.TypeId.Reading`: from tokens to types as written

The grammar of types, one reading function a rule:

* a type is a specifier and a declarator;
* a specifier is one base with qualifiers before, behind and, for arithmetic
  types, between its words;
* a declarator is a run of pointer operators, then perhaps a declarator in
  parentheses, then a run of suffixes;
* a suffix is an array bound or a parameter list.

Two tokens decide where a rule leaves a choice. A parenthesis opens a
declarator when a pointer operator follows it and a parameter list otherwise;
a name begins a pointer operator when `::` follows it and is a declared type
otherwise.
-/

set_option autoImplicit false

namespace TypeTraits

/-! ### Specifiers -/

/-- The failure of a specifier, begun at `start`, that cannot go on with the token. -/
def clash {α : Type} (start : Nat) (t : Token) : Except Halt α :=
  .error (.diagnosed ⟨.clashingSpecifier, ⟨start, t.span.stop⟩⟩)

/-- Refuses a token that begins a second base. A declared name may follow: it belongs
to the declarator. -/
def refuseBase (start : Nat) : List Token → Except Halt Unit
  | t :: _ =>
    match t.symbol with
    | .scalar _ => clash start t
    | .keyword k => if k.startsBase then clash start t else .ok ()
    | _ => .ok ()
  | [] => .ok ()

/-- Reads words of an arithmetic type after the given ones, with any qualifiers between
them if `mixed`. No word may stand more often than is allowed. -/
def readWords (mixed : Bool) (start : Nat) (quals : Qualifiers) (words : List ScalarWord) :
    List Token → Except Halt ((Qualifiers × List ScalarWord) × List Token)
  | t :: rest =>
    match t.symbol with
    | .scalar w =>
      if words.count w < w.allowance then readWords mixed start quals (words ++ [w]) rest
      -- What is blamed begins with the specifier.
      else clash start t
    | .keyword k =>
      match k.qualifier? with
      | some q =>
        -- The type that an enumeration is stored as has no qualifiers.
        if mixed then readWords mixed start (quals.union q) words rest
        else .ok ((quals, words), t :: rest)
      | none => .ok ((quals, words), t :: rest)
    | _ => .ok ((quals, words), t :: rest)
  | [] => .ok ((quals, words), [])

/-- The arithmetic type of words read between two places. -/
def spelledScalar (words : List ScalarWord) (span : Span) : Except Halt Scalar :=
  match Scalar.ofWords? words with
  | some k => .ok k
  | none => .error (.diagnosed ⟨.meaninglessSpecifier (ScalarWord.sort words), span⟩)

/-- Reads the type that an enumeration is stored as. -/
def readUnderlying (stop : Nat) (ts : List Token) : Except Halt (Scalar × List Token) :=
  let start := (ts.head?.map (·.span.start)).getD stop
  match readWords false start .none [] ts with
  | .error h => .error h
  | .ok ((_, []), rest) => .error (unexpected stop .underlyingType rest)
  | .ok ((_, words), rest) => (spelledScalar words (cover ts rest)).map (·, rest)

/-- Reads an enumeration after its `enum`. -/
def readEnum (stop : Nat) (ts : List Token) : Except Halt (Base × List Token) := do
  let (isScoped, ts) := match ts with
    | ⟨.keyword .classKey, _⟩ :: rest | ⟨.keyword .structKey, _⟩ :: rest => (true, rest)
    | ts => (false, ts)
  let (name, ts) ← readIdentifier stop ts
  match ts with
  | ⟨.mark .colon, _⟩ :: rest =>
    let (k, rest) ← readUnderlying stop rest
    return (.ofEnum name isScoped (some k), rest)
  | ts => return (.ofEnum name isScoped none, ts)

/-- Reads a base other than an arithmetic type. -/
def readBase (stop : Nat) : List Token → Except Halt (Base × List Token)
  | ⟨.keyword .void, _⟩ :: rest => .ok (.void, rest)
  | ⟨.keyword .nullptrT, _⟩ :: rest => .ok (.nullPointer, rest)
  | ⟨.keyword .decltype, _⟩ :: rest => do
    let rest ← expect stop (.mark .leftParen) rest
    let rest ← expect stop (.keyword .nullptr) rest
    let rest ← expect stop (.mark .rightParen) rest
    return (.nullPointer, rest)
  | ⟨.keyword .classKey, _⟩ :: rest | ⟨.keyword .structKey, _⟩ :: rest => do
    let (name, rest) ← readIdentifier stop rest
    return (.ofClass name, rest)
  | ⟨.keyword .unionKey, _⟩ :: rest => do
    let (name, rest) ← readIdentifier stop rest
    return (.ofUnion name, rest)
  | ⟨.keyword .enumKey, _⟩ :: rest => readEnum stop rest
  -- A name with `::` behind it belongs to a pointer operator, so there is no base.
  | ts@(⟨.identifier _, _⟩ :: ⟨.mark .colonColon, _⟩ :: _) => .error (unexpected stop .type ts)
  | ⟨.identifier name, _⟩ :: rest => .ok (.named name, rest)
  | ts => .error (unexpected stop .type ts)

/-- Reads a specifier. -/
def readSpecifier (stop : Nat) (ts : List Token) : Except Halt (Specifier × List Token) := do
  let start := (ts.head?.map (·.span.start)).getD stop
  let (before, ts₁) := readQualifiers ts
  match ts₁ with
  -- Words of arithmetic types may have qualifiers between them. Any other base is one piece.
  | ⟨.scalar _, _⟩ :: _ =>
    let ((quals, words), rest) ← readWords true start before [] ts₁
    refuseBase start rest
    let k ← spelledScalar words (cover ts rest)
    return (⟨.scalar k, quals, cover ts rest⟩, rest)
  | _ =>
    let (base, ts₂) ← readBase stop ts₁
    let (behind, rest) := readQualifiers ts₂
    refuseBase start rest
    return (⟨base, before.union behind, cover ts rest⟩, rest)

/-! ### Declarators -/

/-- Reads pointer operators, as many as there are. -/
def readPointerOps (stop : Nat) : Nat → List Token → Except Halt (List PointerOp × List Token)
  | 0, _ => .error .exhausted
  | fuel + 1, ts =>
    -- One operator, which covers the tokens up to `ts₁`, and those behind it.
    let andMore (kind : PointerKind) (ts₁ : List Token) :
        Except Halt (List PointerOp × List Token) := do
      let (more, rest) ← readPointerOps stop fuel ts₁
      return (⟨kind, cover ts ts₁⟩ :: more, rest)
    match ts with
    | ⟨.mark .star, _⟩ :: ts₁ =>
      let (q, ts₂) := readQualifiers ts₁
      andMore (.pointer q) ts₂
    | ⟨.mark .amp, _⟩ :: ts₁ => andMore .lvalueRef ts₁
    | ⟨.mark .ampAmp, _⟩ :: ts₁ => andMore .rvalueRef ts₁
    | ⟨.identifier owner, _⟩ :: ⟨.mark .colonColon, _⟩ :: ts₁ => do
      let ts₁ ← expect stop (.mark .star) ts₁
      let (q, ts₂) := readQualifiers ts₁
      andMore (.member owner q) ts₂
    | ts => .ok ([], ts)

/-- Whether the tokens open a declarator in parentheses: a pointer operator follows. -/
def opensDeclarator : List Token → Bool
  | ⟨.mark .leftParen, _⟩ :: ⟨.mark m, _⟩ :: _ => m == .star || m == .amp || m == .ampAmp
  | ⟨.mark .leftParen, _⟩ :: ⟨.identifier _, _⟩ :: ⟨.mark .colonColon, _⟩ :: _ => true
  | _ => false

/-- Reads the bound and the bracket behind it. -/
def readBound (stop : Nat) (ts : List Token) : Except Halt (Option Nat × List Token) :=
  match ts with
  | ⟨.literal digits, span⟩ :: rest =>
    match size? digits with
    | some n => (expect stop (.mark .rightBracket) rest).map (some n, ·)
    | none => .error (.diagnosed ⟨.invalidToken, span⟩)
  | ts => (expect stop (.mark .rightBracket) ts).map (none, ·)

mutual

/-- Reads a type. -/
def readTypeId (stop : Nat) : Nat → List Token → Except Halt (TypeId × List Token)
  | 0, _ => .error .exhausted
  | fuel + 1, ts => do
    let (specifier, ts₁) ← readSpecifier stop ts
    let (declarator, rest) ← readDeclarator stop fuel ts₁
    return (.mk specifier declarator (cover ts rest), rest)

/-- Reads a declarator; there always is one, if only the empty one. -/
def readDeclarator (stop : Nat) : Nat → List Token → Except Halt (Declarator × List Token)
  | 0, _ => .error .exhausted
  | fuel + 1, ts => do
    let (ops, ts₁) ← readPointerOps stop fuel ts
    if opensDeclarator ts₁ then
      let (inner, ts₂) ← readDeclarator stop fuel ts₁.tail
      let ts₃ ← expect stop (.mark .rightParen) ts₂
      let (suffixes, rest) ← readSuffixes stop fuel ts₃
      return (.nested ops inner suffixes, rest)
    else
      let (suffixes, rest) ← readSuffixes stop fuel ts₁
      return (.flat ops suffixes, rest)

/-- Reads suffixes, as many as there are. -/
def readSuffixes (stop : Nat) : Nat → List Token → Except Halt (List Suffix × List Token)
  | 0, _ => .error .exhausted
  | fuel + 1, ts =>
    match ts with
    | ⟨.mark .leftBracket, _⟩ :: ts₁ => do
      let (bound, ts₂) ← readBound stop ts₁
      let (more, rest) ← readSuffixes stop fuel ts₂
      return (.array bound (cover ts ts₂) :: more, rest)
    | ⟨.mark .leftParen, _⟩ :: ts₁ => do
      let ((params, isVariadic), ts₂) ← readParams stop fuel ts₁
      let (more, rest) ← readSuffixes stop fuel ts₂
      return (.function params isVariadic (cover ts ts₂) :: more, rest)
    | ts => .ok ([], ts)

/-- Reads the parameters and the parenthesis behind them. A lone `void` stands for none. -/
def readParams (stop : Nat) : Nat → List Token → Except Halt ((List TypeId × Bool) × List Token)
  | 0, _ => .error .exhausted
  | fuel + 1, ts =>
    match ts with
    | ⟨.keyword .void, _⟩ :: ⟨.mark .rightParen, _⟩ :: rest => .ok (([], false), rest)
    | ⟨.mark .ellipsis, _⟩ :: ts₁ => (expect stop (.mark .rightParen) ts₁).map (([], true), ·)
    | ⟨.mark .rightParen, _⟩ :: rest => .ok (([], false), rest)
    | ts => readParamList stop fuel ts

/-- Reads one or more parameters, perhaps a `...`, and the parenthesis behind them. -/
def readParamList (stop : Nat) : Nat → List Token → Except Halt ((List TypeId × Bool) × List Token)
  | 0, _ => .error .exhausted
  | fuel + 1, ts => do
    let (param, ts₁) ← readTypeId stop fuel ts
    match ts₁ with
    | ⟨.mark .comma, _⟩ :: ⟨.mark .ellipsis, _⟩ :: ts₂ =>
      (expect stop (.mark .rightParen) ts₂).map (([param], true), ·)
    | ⟨.mark .comma, _⟩ :: ts₂ => do
      let ((params, isVariadic), rest) ← readParamList stop fuel ts₂
      return ((param :: params, isVariadic), rest)
    | ts₁ => (expect stop (.mark .rightParen) ts₁).map (([param], false), ·)

end

/-- Fuel with which no reading of so many tokens is exhausted. -/
def readingFuel (tokens : Nat) : Nat := 4 * tokens + 4

namespace TypeId

/-- Reads a type. -/
def read (stop : Nat) (ts : List Token) : Except Halt (TypeId × List Token) :=
  readTypeId stop (readingFuel ts.length) ts

/-- The type that a text holds and nothing else. -/
def ofText (text : String) : Except Diagnostic TypeId := do
  (← TokenStream.ofText text).readAll read

end TypeId

end TypeTraits
