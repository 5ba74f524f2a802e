import TypeTraits.Proofs.TypeId.Reads

/-!
# `TypeTraits.Proofs.TypeId.Trace`: what a reader passes on its way

The readers of types, with a note of each place to which they come back: where a function that is
called in a recursion is entered, and where a loop decides whether to go on (`Site`). Each note says
how many tokens were ahead (`Visit`). The notes are kept when the reader fails.

A traced reader comes to the same as the reader itself (`traceTypeId_outcome` and its companions),
so the notes are about the readers that run.
-/

set_option autoImplicit false

namespace TypeTraits

/-! ### Notes -/

/-- A place to which the readers come back. -/
inductive Site where
  /-- The loop over the arguments of an operation. -/
  | argument
  /-- The entry of the function for queries. -/
  | query
  /-- The entry of the function for operations and their arguments. -/
  | call
  /-- The loop over parameters. -/
  | parameter
  /-- The entry of the function for types. -/
  | type
  /-- The entry of the function for specifiers. -/
  | specifier
  /-- The loop over the words of the type that an enumeration is stored as. -/
  | underlyingWord
  /-- The loop over the words of a specifier. -/
  | specifierWord
  /-- The entry of the function for declarators. -/
  | declarator
  /-- The loop over the qualifiers of a pointer. -/
  | qualifier
  /-- The loop over pointer operators. -/
  | pointerOp
  /-- The loop over suffixes. -/
  | suffix
  /-- The entry of the function for parameters in parentheses. -/
  | parameterList
deriving DecidableEq, Repr

/-- A place that was passed, and the number of tokens that were ahead. -/
structure Visit where
  site : Site
  left : Nat
deriving DecidableEq, Repr

/-- Whether a function is entered at the place. The other places are loops. -/
def Site.isEntry : Site → Bool
  | query | call | type | specifier | declarator | parameterList => true
  | argument | parameter | underlyingWord | specifierWord | qualifier | pointerOp | suffix => false

/-- What was passed, in this order, how deep the functions were nested, and what it came to. -/
structure Traced (α : Type) where
  visits : List Visit
  depth : Nat
  outcome : Except Halt α

namespace Traced

variable {α β : Type}

/-- How often a loop decided whether to go on. -/
def iterations (x : Traced α) : Nat := x.visits.countP fun v => !v.site.isEntry

/-- How often a function was entered. -/
def entries (x : Traced α) : Nat := x.visits.countP fun v => v.site.isEntry

/-- What passes no place. -/
def lift (x : Except Halt α) : Traced α := ⟨[], 0, x⟩

/-- One thing after another. A failure leaves nothing to do. -/
def andThen (x : Traced α) (f : α → Traced β) : Traced β :=
  match x.outcome with
  | .ok a => ⟨x.visits ++ (f a).visits, max x.depth (f a).depth, (f a).outcome⟩
  | .error h => ⟨x.visits, x.depth, .error h⟩

instance : Monad Traced where
  pure a := lift (.ok a)
  bind := andThen

/-- A loop decides whether to go on, with the tokens ahead. -/
def visit (site : Site) (ts : List Token) : Traced Unit := ⟨[⟨site, ts.length⟩], 0, .ok ()⟩

/-- A function is entered with the tokens ahead. -/
def enter (site : Site) (ts : List Token) (body : Traced α) : Traced α :=
  ⟨⟨site, ts.length⟩ :: body.visits, body.depth + 1, body.outcome⟩

/-- What passes no place comes to what it is. -/
@[simp] theorem outcome_lift (x : Except Halt α) : (lift x).outcome = x := rfl

/-- So does a result. -/
@[simp] theorem outcome_pure (a : α) : (pure a : Traced α).outcome = .ok a := rfl

/-- A loop that decides whether to go on has not failed. -/
@[simp] theorem outcome_visit (site : Site) (ts : List Token) :
    (visit site ts).outcome = .ok () := rfl

/-- An entry does not change what a function comes to. -/
@[simp] theorem outcome_enter (site : Site) (ts : List Token) (body : Traced α) :
    (enter site ts body).outcome = body.outcome := rfl

/-- One thing after another comes to what the outcomes do after one another. -/
@[simp] theorem outcome_bind (x : Traced α) (f : α → Traced β) :
    (x >>= f).outcome = x.outcome >>= fun a => (f a).outcome := by
  show (andThen x f).outcome = _
  unfold andThen
  cases x.outcome <;> rfl

end Traced

open Traced

/-! ### Specifiers -/

/-- `readQualifiers` in a loop. -/
def traceQualifiers (site : Site) : List Token → Traced (Qualifiers × List Token)
  | ⟨.keyword .const, p⟩ :: rest => do
    visit site (⟨.keyword .const, p⟩ :: rest)
    let (q, rest) ← traceQualifiers site rest
    return (q.union .const, rest)
  | ⟨.keyword .volatile, p⟩ :: rest => do
    visit site (⟨.keyword .volatile, p⟩ :: rest)
    let (q, rest) ← traceQualifiers site rest
    return (q.union .volatile, rest)
  | ts => return (.none, ts)

/-- `readWords` in a loop. -/
def traceWords (site : Site) (mixed : Bool) (start : Nat) (quals : Qualifiers)
    (words : List ScalarWord) :
    List Token → Traced ((Qualifiers × List ScalarWord) × List Token)
  | t :: rest =>
    match t.symbol with
    | .scalar w => do
      -- A word is noted where it is taken. The round that ends the loop is noted by the caller.
      visit site (t :: rest)
      if words.count w < w.allowance then traceWords site mixed start quals (words ++ [w]) rest
      else lift (clash start t)
    | .keyword k =>
      match k.qualifier? with
      | some q =>
        if mixed then do
          visit site (t :: rest)
          traceWords site mixed start (quals.union q) words rest
        else return ((quals, words), t :: rest)
      | none => return ((quals, words), t :: rest)
    | _ => return ((quals, words), t :: rest)
  | [] => return ((quals, words), [])

/-- `readUnderlying` with its places. -/
def traceUnderlying (stop : Nat) (ts : List Token) : Traced (Scalar × List Token) := do
  let start := (ts.head?.map (·.span.start)).getD stop
  let ((_, words), rest) ← traceWords .underlyingWord false start .none [] ts
  visit .underlyingWord rest
  match words with
  | [] => lift (.error (unexpected stop .underlyingType rest))
  | words => lift ((spelledScalar words (cover ts rest)).map (·, rest))

/-- `readEnumName` with its places. -/
def traceEnumName (stop : Nat) (isScoped : Bool) (ts : List Token) :
    Traced (Base × List Token) := do
  let (name, ts) ← lift (readIdentifier stop ts)
  match ts with
  | ⟨.mark .colon, _⟩ :: rest =>
    let (k, rest) ← traceUnderlying stop rest
    return (.ofEnum name isScoped (some k), rest)
  | ts => return (.ofEnum name isScoped none, ts)

/-- `readEnum` with its places. -/
def traceEnum (stop : Nat) : List Token → Traced (Base × List Token)
  | ⟨.keyword .classKey, _⟩ :: rest | ⟨.keyword .structKey, _⟩ :: rest =>
    traceEnumName stop true rest
  | ts => traceEnumName stop false ts

/-- `readBase` with its places. Only enumerations have some. -/
def traceBase (stop : Nat) : List Token → Traced (Base × List Token)
  | ⟨.keyword .enumKey, _⟩ :: rest => traceEnum stop rest
  | ts => lift (readBase stop ts)

/-- `readSpecifier` with its places. What is before the base, the base and what is behind it are
read in one loop, which looks at the token behind them as well. -/
def traceSpecifier (stop : Nat) (ts : List Token) : Traced (Specifier × List Token) :=
  enter .specifier ts do
    let start := (ts.head?.map (·.span.start)).getD stop
    let (before, ts₁) ← traceQualifiers .specifierWord ts
    match ts₁ with
    | ⟨.scalar _, _⟩ :: _ =>
      let ((quals, words), rest) ← traceWords .specifierWord true start before [] ts₁
      -- What ends the loop is looked at before it is known to end it.
      visit .specifierWord rest
      lift (refuseBase start rest)
      let k ← lift (spelledScalar words (cover ts rest))
      return (⟨.scalar k, quals, cover ts rest⟩, rest)
    | _ =>
      visit .specifierWord ts₁
      let (base, ts₂) ← traceBase stop ts₁
      let (behind, rest) ← traceQualifiers .specifierWord ts₂
      visit .specifierWord rest
      lift (refuseBase start rest)
      return (⟨base, before.union behind, cover ts rest⟩, rest)

/-! ### Declarators -/

/-- The qualifiers of a pointer. -/
def tracePointerQualifiers (ts : List Token) : Traced (Qualifiers × List Token) := do
  let (q, rest) ← traceQualifiers .qualifier ts
  visit .qualifier rest
  return (q, rest)

/-- `readPointerOps` with its places. -/
def tracePointerOps (stop : Nat) : Nat → List Token → Traced (List PointerOp × List Token)
  | 0, _ => lift (.error .exhausted)
  | fuel + 1, ts => do
    visit .pointerOp ts
    let andMore (kind : PointerKind) (ts₁ : List Token) :
        Traced (List PointerOp × List Token) := do
      let (more, rest) ← tracePointerOps stop fuel ts₁
      return (⟨kind, cover ts ts₁⟩ :: more, rest)
    match ts with
    | ⟨.mark .star, _⟩ :: ts₁ =>
      let (q, ts₂) ← tracePointerQualifiers ts₁
      andMore (.pointer q) ts₂
    | ⟨.mark .amp, _⟩ :: ts₁ => andMore .lvalueRef ts₁
    | ⟨.mark .ampAmp, _⟩ :: ts₁ => andMore .rvalueRef ts₁
    | ⟨.identifier owner, _⟩ :: ⟨.mark .colonColon, _⟩ :: ts₁ =>
      let ts₁ ← lift (expect stop (.mark .star) ts₁)
      let (q, ts₂) ← tracePointerQualifiers ts₁
      andMore (.member owner q) ts₂
    | ts => return ([], ts)

mutual

/-- `readTypeId` with its places. -/
def traceTypeId (stop : Nat) : Nat → List Token → Traced (TypeId × List Token)
  | 0, _ => lift (.error .exhausted)
  | fuel + 1, ts => enter .type ts do
    let (specifier, ts₁) ← traceSpecifier stop ts
    let (declarator, rest) ← traceDeclarator stop fuel ts₁
    return (.mk specifier declarator (cover ts rest), rest)

/-- `readDeclarator` with its places. -/
def traceDeclarator (stop : Nat) : Nat → List Token → Traced (Declarator × List Token)
  | 0, _ => lift (.error .exhausted)
  | fuel + 1, ts => enter .declarator ts do
    let (ops, ts₁) ← tracePointerOps stop fuel ts
    if opensDeclarator ts₁ then
      let (inner, ts₂) ← traceDeclarator stop fuel ts₁.tail
      let ts₃ ← lift (expect stop (.mark .rightParen) ts₂)
      let (suffixes, rest) ← traceSuffixes stop fuel ts₃
      return (.nested ops inner suffixes, rest)
    else
      let (suffixes, rest) ← traceSuffixes stop fuel ts₁
      return (.flat ops suffixes, rest)

/-- `readSuffixes` with its places. -/
def traceSuffixes (stop : Nat) : Nat → List Token → Traced (List Suffix × List Token)
  | 0, _ => lift (.error .exhausted)
  | fuel + 1, ts => do
    visit .suffix ts
    match ts with
    | ⟨.mark .leftBracket, _⟩ :: ts₁ =>
      let (bound, ts₂) ← lift (readBound stop ts₁)
      let (more, rest) ← traceSuffixes stop fuel ts₂
      return (.array bound (cover ts ts₂) :: more, rest)
    | ⟨.mark .leftParen, _⟩ :: ts₁ =>
      let ((params, isVariadic), ts₂) ← enter .parameterList ts (traceParams stop fuel ts₁)
      let (more, rest) ← traceSuffixes stop fuel ts₂
      return (.function params isVariadic (cover ts ts₂) :: more, rest)
    | ts => return ([], ts)

/-- `readParams` with its places. -/
def traceParams (stop : Nat) : Nat → List Token → Traced ((List TypeId × Bool) × List Token)
  | 0, _ => lift (.error .exhausted)
  | fuel + 1, ts =>
    match ts with
    | ⟨.keyword .void, _⟩ :: ⟨.mark .rightParen, _⟩ :: rest => return (([], false), rest)
    | ⟨.mark .ellipsis, _⟩ :: ts₁ =>
      lift ((expect stop (.mark .rightParen) ts₁).map (([], true), ·))
    | ⟨.mark .rightParen, _⟩ :: rest => return (([], false), rest)
    | ts => traceParamList stop fuel ts

/-- `readParamList` with its places. -/
def traceParamList (stop : Nat) : Nat → List Token → Traced ((List TypeId × Bool) × List Token)
  | 0, _ => lift (.error .exhausted)
  | fuel + 1, ts => do
    visit .parameter ts
    let (param, ts₁) ← traceTypeId stop fuel ts
    match ts₁ with
    | ⟨.mark .comma, _⟩ :: ⟨.mark .ellipsis, _⟩ :: ts₂ =>
      lift ((expect stop (.mark .rightParen) ts₂).map (([param], true), ·))
    | ⟨.mark .comma, _⟩ :: ts₂ =>
      let ((params, isVariadic), rest) ← traceParamList stop fuel ts₂
      return ((param :: params, isVariadic), rest)
    | ts₁ => lift ((expect stop (.mark .rightParen) ts₁).map (([param], false), ·))

end

/-! ### Traced readers come to the same -/

variable {stop : Nat}

/-- A traced loop over qualifiers reads the qualifiers. -/
@[simp] theorem traceQualifiers_outcome (site : Site) (ts : List Token) :
    (traceQualifiers site ts).outcome = .ok (readQualifiers ts) := by
  fun_induction readQualifiers ts <;> simp_all [traceQualifiers]

/-- A traced loop over words reads the words. -/
@[simp] theorem traceWords_outcome (site : Site) (mixed : Bool) (start : Nat) (quals : Qualifiers)
    (words : List ScalarWord) (ts : List Token) :
    (traceWords site mixed start quals words ts).outcome =
      readWords mixed start quals words ts := by
  induction ts generalizing quals words with
  | nil => rfl
  | cons t rest ih =>
    unfold traceWords readWords
    cases t.symbol with
    | scalar w =>
      simp only [outcome_bind, outcome_visit, except_bind_ok]
      split
      · exact ih _ _
      · rfl
    | keyword k =>
      dsimp only
      cases k.qualifier? with
      | none => rfl
      | some q =>
        cases mixed with
        | false => rfl
        | true => exact ih _ _
    | _ => rfl

/-- The type that an enumeration is stored as is read the same. -/
@[simp] theorem traceUnderlying_outcome (ts : List Token) :
    (traceUnderlying stop ts).outcome = readUnderlying stop ts := by
  unfold traceUnderlying readUnderlying
  simp only [outcome_bind, traceWords_outcome]
  split <;> simp_all

/-- So are the name of an enumeration and what is behind it. -/
@[simp] theorem traceEnumName_outcome (isScoped : Bool) (ts : List Token) :
    (traceEnumName stop isScoped ts).outcome = readEnumName stop isScoped ts := by
  unfold traceEnumName readEnumName
  simp only [outcome_bind, outcome_lift]
  refine except_bind_congr fun r _ => ?_
  obtain ⟨name, ts₁⟩ := r
  dsimp only
  split <;> simp

/-- So is a whole enumeration. -/
@[simp] theorem traceEnum_outcome (ts : List Token) :
    (traceEnum stop ts).outcome = readEnum stop ts := by
  unfold traceEnum
  split
  · exact traceEnumName_outcome true _
  · exact traceEnumName_outcome true _
  · next hclass hstruct =>
    -- With neither `class` nor `struct` behind the key, the name follows.
    rw [traceEnumName_outcome]
    unfold readEnum
    split
    next hkey =>
      split at hkey
      · exact (hclass _ _ rfl).elim
      · exact (hstruct _ _ rfl).elim
      · cases hkey
        rfl

/-- So is a base. -/
@[simp] theorem traceBase_outcome (ts : List Token) :
    (traceBase stop ts).outcome = readBase stop ts := by
  unfold traceBase
  split
  · exact traceEnum_outcome _
  · rfl

/-- So is a specifier. -/
@[simp] theorem traceSpecifier_outcome (ts : List Token) :
    (traceSpecifier stop ts).outcome = readSpecifier stop ts := by
  unfold traceSpecifier readSpecifier
  simp only [outcome_enter, outcome_bind, traceQualifiers_outcome, except_bind_ok]
  split
  · next heq => simp [heq]
  · simp

/-- So are the qualifiers of a pointer. -/
@[simp] theorem tracePointerQualifiers_outcome (ts : List Token) :
    (tracePointerQualifiers ts).outcome = .ok (readQualifiers ts) := by
  simp [tracePointerQualifiers]

/-- So are pointer operators. -/
@[simp] theorem tracePointerOps_outcome (fuel : Nat) (ts : List Token) :
    (tracePointerOps stop fuel ts).outcome = readPointerOps stop fuel ts := by
  induction fuel generalizing ts with
  | zero => rfl
  | succ fuel ih =>
    unfold tracePointerOps readPointerOps
    simp only [outcome_bind, outcome_visit, except_bind_ok]
    split <;> simp [ih]

mutual

/-- A traced reader of types comes to what the reader of types does. -/
@[simp] theorem traceTypeId_outcome : ∀ (fuel : Nat) (ts : List Token),
    (traceTypeId stop fuel ts).outcome = readTypeId stop fuel ts
  | 0, _ => rfl
  | fuel + 1, ts => by
    have hdecl := traceDeclarator_outcome fuel
    simp [traceTypeId, readTypeId, hdecl]

/-- So does the one of declarators. -/
@[simp] theorem traceDeclarator_outcome : ∀ (fuel : Nat) (ts : List Token),
    (traceDeclarator stop fuel ts).outcome = readDeclarator stop fuel ts
  | 0, _ => rfl
  | fuel + 1, ts => by
    have hdecl := traceDeclarator_outcome fuel
    have hsuffixes := traceSuffixes_outcome fuel
    unfold traceDeclarator readDeclarator
    simp only [outcome_enter, outcome_bind, tracePointerOps_outcome]
    refine except_bind_congr fun (ops, ts₁) _ => ?_
    simp only
    split <;> simp [hdecl, hsuffixes]

/-- So does the one of suffixes. -/
@[simp] theorem traceSuffixes_outcome : ∀ (fuel : Nat) (ts : List Token),
    (traceSuffixes stop fuel ts).outcome = readSuffixes stop fuel ts
  | 0, _ => rfl
  | fuel + 1, ts => by
    have hsuffixes := traceSuffixes_outcome fuel
    have hparams := traceParams_outcome fuel
    unfold traceSuffixes readSuffixes
    simp only [outcome_bind, outcome_visit, except_bind_ok]
    split <;> simp [hsuffixes, hparams]

/-- So does the one of parameters in parentheses. -/
@[simp] theorem traceParams_outcome : ∀ (fuel : Nat) (ts : List Token),
    (traceParams stop fuel ts).outcome = readParams stop fuel ts
  | 0, _ => rfl
  | fuel + 1, ts => by
    have hlist := traceParamList_outcome fuel
    unfold traceParams readParams
    split <;> simp [hlist]

/-- So does the one of lists of parameters. -/
@[simp] theorem traceParamList_outcome : ∀ (fuel : Nat) (ts : List Token),
    (traceParamList stop fuel ts).outcome = readParamList stop fuel ts
  | 0, _ => rfl
  | fuel + 1, ts => by
    have htype := traceTypeId_outcome fuel
    have hlist := traceParamList_outcome fuel
    unfold traceParamList readParamList
    simp only [outcome_bind, outcome_visit, except_bind_ok, htype]
    refine except_bind_congr fun (param, ts₁) _ => ?_
    simp only
    split <;> simp [hlist]

end

end TypeTraits
