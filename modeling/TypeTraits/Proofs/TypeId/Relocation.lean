import TypeTraits.Proofs.TypeId.Reads
import TypeTraits.Proofs.Universe.Spans

/-!
# `TypeTraits.Proofs.TypeId.Relocation`: readers do not look at places

A `Relocation` says for each place where a token begins, and for each where one ends, where
that is in another text. A reading function that is given the same tokens at other places
makes the same of them, at other places (`Relocation.Carries`): it has the same tree with the
spans relocated, or it fails with the same problem at the relocated span.

There is one lemma for each reading function, by cases on the symbols that the function looks
at. What remains to be shown behind each choice is that the two runs go on alike, which
`Relocation.Carries.bind` puts together; `Relocation.carries_readTypeId` and the four with it
go by induction on the fuel.
-/

set_option autoImplicit false

namespace TypeTraits

/-- Where the places of a text are in another one. The ends of the two texts belong together,
and so do their beginnings, where readers place what has no token. -/
structure Relocation (stop stop' : Nat) where
  /-- For places where a token begins. -/
  start : Nat → Nat
  /-- For places where a token ends. -/
  finish : Nat → Nat
  start_zero : start 0 = 0
  finish_zero : finish 0 = 0
  start_stop : start stop = stop'
  finish_stop : finish stop = stop'

namespace Relocation

variable {stop stop' : Nat} (r : Relocation stop stop')

/-- The span in the other text. -/
def span (s : Span) : Span := ⟨r.start s.start, r.finish s.stop⟩

/-- The token in the other text. -/
def token (t : Token) : Token := ⟨t.symbol, r.span t.span⟩

/-- The tokens in the other text. -/
def tokens (ts : List Token) : List Token := ts.map r.token

/-- The failure in the other text. -/
def halt : Halt → Halt
  | .diagnosed d => .diagnosed (d.mapSpan r.span)
  | .exhausted => .exhausted

/-- The second outcome is the first one, relocated: its result as the function says, its
failure at the relocated span. -/
def Carries {α β : Type} (f : α → β) (x : Except Halt α) (y : Except Halt β) : Prop :=
  y = (x.map f).mapError r.halt

/-- The same for a result that comes with the tokens behind it. -/
abbrev CarriesReading {α β : Type} (f : α → β) (x : Except Halt (α × List Token))
    (y : Except Halt (β × List Token)) : Prop :=
  r.Carries (Prod.map f r.tokens) x y

variable {r}

namespace Carries

variable {α β γ δ : Type} {f : α → β} {g : γ → δ} {x : Except Halt α} {y : Except Halt β}

/-- What is carried is the outcome with result and error relocated. -/
theorem eq (h : r.Carries f x y) : y = (x.map f).mapError r.halt := h

/-- One outcome behind another. -/
theorem bind {h : α → Except Halt γ} {h' : β → Except Halt δ} (hx : r.Carries f x y)
    (hg : ∀ a, r.Carries g (h a) (h' (f a))) : r.Carries g (x >>= h) (y >>= h') := by
  subst hx
  cases x with
  | ok a => exact hg a
  | error e => rfl

/-- A change of the result. -/
theorem map {h : α → γ} {h' : β → δ} (hx : r.Carries f x y) (hg : ∀ a, h' (f a) = g (h a)) :
    r.Carries g (x.map h) (y.map h') := by
  subst hx
  cases x with
  | ok a => exact congrArg Except.ok (hg a)
  | error e => rfl

end Carries

variable (r)

/-! ### Tokens -/

/-- What readers cover is relocated with the tokens. -/
theorem span_cover (ts rest : List Token) :
    cover (r.tokens ts) (r.tokens rest) = r.span (cover ts rest) := by
  -- Where the tokens that are taken begin and end. There may be none of them.
  have first : ∀ us : List Token, ((r.tokens us).head?.map (·.span.start)).getD 0 =
      r.start ((us.head?.map (·.span.start)).getD 0) := by
    intro us
    cases us with
    | nil => exact r.start_zero.symm
    | cons t us => rfl
  have last : ∀ us : List Token, ((r.tokens us).getLast?.map (·.span.stop)).getD 0 =
      r.finish ((us.getLast?.map (·.span.stop)).getD 0) := by
    intro us
    rw [tokens, List.getLast?_map]
    cases us.getLast? with
    | none => exact r.finish_zero.symm
    | some t => rfl
  have hused : (r.tokens ts).take ((r.tokens ts).length - (r.tokens rest).length) =
      r.tokens (ts.take (ts.length - rest.length)) := by
    simp only [tokens, List.length_map, List.map_take]
  simp only [cover, hused, first, last]
  rfl

/-- The first of the tokens, or the end of the text. -/
theorem start_head (ts : List Token) :
    ((r.tokens ts).head?.map (·.span.start)).getD stop' =
      r.start ((ts.head?.map (·.span.start)).getD stop) := by
  cases ts with
  | nil => exact r.start_stop.symm
  | cons t ts => rfl

/-- A complaint about the token in front is made in the new place. -/
theorem halt_unexpected (e : Expectation) (ts : List Token) :
    unexpected stop' e (r.tokens ts) = r.halt (unexpected stop e ts) := by
  cases ts with
  | nil =>
    show Halt.diagnosed ⟨.unexpectedEnd e, ⟨stop', stop'⟩⟩ =
      .diagnosed ⟨.unexpectedEnd e, ⟨r.start stop, r.finish stop⟩⟩
    rw [r.start_stop, r.finish_stop]
  | cons t ts => rfl

/-- So is a failure with it, whatever the result would have been. -/
theorem carries_unexpected {α β : Type} (f : α → β) (e : Expectation) (ts : List Token) :
    r.Carries f (.error (unexpected stop e ts)) (.error (unexpected stop' e (r.tokens ts))) :=
  congrArg Except.error (r.halt_unexpected e ts)

/-- A symbol is expected in the new place as in the old one. -/
theorem carries_expect (s : Symbol) (ts : List Token) :
    r.Carries r.tokens (expect stop s ts) (expect stop' s (r.tokens ts)) := by
  cases ts with
  | nil => exact r.carries_unexpected r.tokens (.symbol s) []
  | cons t ts =>
    show r.Carries r.tokens (expect stop s (t :: ts)) (expect stop' s (r.token t :: r.tokens ts))
    rw [expect, expect]
    by_cases h : t.symbol = s
    · rw [if_pos h, if_pos (show (r.token t).symbol = s from h)]
      rfl
    · rw [if_neg h, if_neg (show (r.token t).symbol ≠ s from h)]
      exact r.carries_unexpected r.tokens (.symbol s) (t :: ts)

/-- A result that is complete with the symbol behind it. -/
theorem carries_expect_map {α β : Type} (f : α → β) (a : α) (s : Symbol) (ts : List Token) :
    r.CarriesReading f ((expect stop s ts).map (a, ·))
      ((expect stop' s (r.tokens ts)).map (f a, ·)) :=
  (r.carries_expect s ts).map fun _ => rfl

/-- So is an identifier. -/
theorem carries_readIdentifier (ts : List Token) :
    r.CarriesReading id (readIdentifier stop ts) (readIdentifier stop' (r.tokens ts)) := by
  obtain _ | ⟨⟨s, p⟩, ts⟩ := ts
  · exact r.carries_unexpected _ .identifier []
  · cases s with
    | identifier name => rfl
    | _ => exact r.carries_unexpected _ .identifier (_ :: ts)

/-- Qualifiers are the same in any place. -/
theorem readQualifiers_tokens (ts : List Token) :
    readQualifiers (r.tokens ts) = Prod.map id r.tokens (readQualifiers ts) := by
  induction ts with
  | nil => rfl
  | cons t ts ih =>
    obtain ⟨s, p⟩ := t
    -- Only qualifiers are taken away. Anything else ends the run at once.
    cases s with
    | keyword k =>
      cases k with
      | const | volatile =>
        simp only [tokens, token, List.map_cons, readQualifiers] at ih ⊢
        rw [ih]
        rfl
      | _ => rfl
    | _ => rfl

/-! ### Specifiers -/

/-- Another base is refused in the new place. -/
theorem carries_refuseBase (start : Nat) (ts : List Token) :
    r.Carries id (refuseBase start ts) (refuseBase (r.start start) (r.tokens ts)) := by
  obtain _ | ⟨⟨s, p⟩, ts⟩ := ts
  · rfl
  · cases s with
    | keyword k => cases k <;> rfl
    | _ => rfl

/-- Words are collected as before, up to a base that is refused. -/
theorem carries_readWords (mixed : Bool) (start : Nat) (quals : Qualifiers)
    (words : List ScalarWord) (ts : List Token) :
    r.CarriesReading id (readWords mixed start quals words ts)
      (readWords mixed (r.start start) quals words (r.tokens ts)) := by
  induction ts generalizing quals words with
  | nil => rfl
  | cons t ts ih =>
    obtain ⟨s, p⟩ := t
    -- Words and qualifiers go on with the run, wherever they stand.
    cases s with
    | scalar w =>
      simp only [tokens, token, List.map_cons, readWords] at ih ⊢
      split
      · exact ih quals (words ++ [w])
      · rfl
    | keyword k =>
      simp only [tokens, token, List.map_cons, readWords] at ih ⊢
      split
      · split
        · exact ih _ words
        · rfl
      · rfl
    | _ => rfl

/-- Words that spell nothing are blamed at the relocated span. -/
theorem carries_spelledScalar (words : List ScalarWord) (s : Span) :
    r.Carries id (spelledScalar words s) (spelledScalar words (r.span s)) := by
  unfold spelledScalar
  split <;> rfl

/-- The type that an enumeration is stored as is read as before. -/
theorem carries_readUnderlying (ts : List Token) :
    r.CarriesReading id (readUnderlying stop ts) (readUnderlying stop' (r.tokens ts)) := by
  unfold readUnderlying
  simp only [r.start_head]
  rw [(r.carries_readWords _ _ _ _ ts).eq]
  cases readWords false ((ts.head?.map (·.span.start)).getD stop) .none [] ts with
  | error h => rfl
  | ok result =>
    obtain ⟨⟨q, words⟩, rest⟩ := result
    -- Where there are no words, the token in their place is blamed.
    cases words with
    | nil => exact r.carries_unexpected _ .underlyingType rest
    | cons w words =>
      show r.CarriesReading id _
        ((spelledScalar (w :: words) (cover (r.tokens ts) (r.tokens rest))).map _)
      rw [r.span_cover]
      exact (r.carries_spelledScalar (w :: words) (cover ts rest)).map fun k => rfl

/-- So are the name of an enumeration and what is behind it. -/
theorem carries_readEnumName (isScoped : Bool) (ts : List Token) :
    r.CarriesReading id (readEnumName stop isScoped ts)
      (readEnumName stop' isScoped (r.tokens ts)) := by
  unfold readEnumName
  refine (r.carries_readIdentifier ts).bind fun ⟨name, ts⟩ => ?_
  -- Behind the name, only `:` goes on.
  obtain _ | ⟨⟨s, p⟩, ts⟩ := ts
  · rfl
  · cases s with
    | mark m =>
      cases m with
      | colon => exact (r.carries_readUnderlying ts).bind fun _ => rfl
      | _ => rfl
    | _ => rfl

/-- So is a whole enumeration, behind its keyword. -/
theorem carries_readEnum (ts : List Token) :
    r.CarriesReading id (readEnum stop ts) (readEnum stop' (r.tokens ts)) := by
  obtain _ | ⟨⟨s, p⟩, ts⟩ := ts
  · exact r.carries_readEnumName false []
  · cases s with
    | keyword k =>
      cases k with
      | classKey | structKey => exact r.carries_readEnumName true ts
      | _ => exact r.carries_readEnumName false (_ :: ts)
    | _ => exact r.carries_readEnumName false (_ :: ts)

/-- So is a base. -/
theorem carries_readBase (ts : List Token) :
    r.CarriesReading id (readBase stop ts) (readBase stop' (r.tokens ts)) := by
  obtain _ | ⟨⟨s, p⟩, ts⟩ := ts
  · exact r.carries_unexpected _ .type []
  · cases s with
    | keyword k =>
      cases k with
      | void | nullptrT => rfl
      | decltype =>
        refine (r.carries_expect (.mark .leftParen) ts).bind fun ts => ?_
        refine (r.carries_expect (.keyword .nullptr) ts).bind fun ts => ?_
        exact (r.carries_expect (.mark .rightParen) ts).bind fun ts => rfl
      | classKey | structKey | unionKey => exact (r.carries_readIdentifier ts).bind fun _ => rfl
      | enumKey => exact r.carries_readEnum ts
      | _ => exact r.carries_unexpected _ .type (_ :: ts)
    | identifier name =>
      -- What is behind a name tells whether it belongs to a pointer operator.
      obtain _ | ⟨⟨s', p'⟩, ts⟩ := ts
      · rfl
      · cases s' with
        | mark m =>
          cases m with
          | colonColon => exact r.carries_unexpected _ .type (_ :: _ :: ts)
          | _ => rfl
        | _ => rfl
    | _ => exact r.carries_unexpected _ .type (_ :: ts)

/-- A specifier is read as before, with its span relocated. -/
theorem carries_readSpecifier (ts : List Token) :
    r.CarriesReading (Specifier.mapSpan r.span) (readSpecifier stop ts)
      (readSpecifier stop' (r.tokens ts)) := by
  unfold readSpecifier
  simp only [r.start_head, r.readQualifiers_tokens]
  generalize (ts.head?.map (·.span.start)).getD stop = start
  obtain ⟨before, ts₁⟩ := readQualifiers ts
  -- A base that is no arithmetic type.
  have other : r.CarriesReading (Specifier.mapSpan r.span)
      (readBase stop ts₁ >>= fun b => refuseBase start (readQualifiers b.2).2 >>= fun _ =>
        pure (⟨b.1, before.union (readQualifiers b.2).1, cover ts (readQualifiers b.2).2⟩,
          (readQualifiers b.2).2))
      (readBase stop' (r.tokens ts₁) >>= fun b =>
        refuseBase (r.start start) (readQualifiers b.2).2 >>= fun _ =>
          pure (⟨b.1, before.union (readQualifiers b.2).1,
            cover (r.tokens ts) (readQualifiers b.2).2⟩, (readQualifiers b.2).2)) := by
    refine (r.carries_readBase ts₁).bind fun b => ?_
    simp only [Prod.map_fst, Prod.map_snd, id, r.readQualifiers_tokens]
    refine (r.carries_refuseBase start _).bind fun _ => ?_
    rw [r.span_cover]
    rfl
  obtain _ | ⟨⟨s, p⟩, ts₁⟩ := ts₁
  · exact other
  · cases s with
    | scalar w =>
      refine (r.carries_readWords true start before [] _).bind fun ⟨⟨quals, words⟩, rest⟩ => ?_
      refine (r.carries_refuseBase start rest).bind fun _ => ?_
      simp only [Prod.map_apply, r.span_cover]
      exact (r.carries_spelledScalar words (cover ts rest)).bind fun k => rfl
    | _ => exact other

/-! ### Declarators -/

/-- Pointer operators are read as before, with their spans relocated. -/
theorem carries_readPointerOps (fuel : Nat) (ts : List Token) :
    r.CarriesReading (List.map (PointerOp.mapSpan r.span)) (readPointerOps stop fuel ts)
      (readPointerOps stop' fuel (r.tokens ts)) := by
  induction fuel generalizing ts with
  | zero => rfl
  | succ fuel ih =>
    -- One operator is read; the others are behind it.
    have more : ∀ (us : List Token) (kind : PointerKind) (ts₁ : List Token),
        r.CarriesReading (List.map (PointerOp.mapSpan r.span))
          (readPointerOps stop fuel ts₁ >>= fun m => pure (⟨kind, cover us ts₁⟩ :: m.1, m.2))
          (readPointerOps stop' fuel (r.tokens ts₁) >>= fun m =>
            pure (⟨kind, cover (r.tokens us) (r.tokens ts₁)⟩ :: m.1, m.2)) := by
      intro us kind ts₁
      rw [r.span_cover]
      exact (ih ts₁).bind fun _ => rfl
    obtain _ | ⟨⟨s, p⟩, ts⟩ := ts
    · rfl
    · cases s with
      | mark m =>
        cases m with
        | star =>
          have h := more (⟨.mark .star, p⟩ :: ts) (.pointer (readQualifiers ts).1)
            (readQualifiers ts).2
          simp only [tokens, token, List.map_cons, readPointerOps] at h ⊢
          rw [show readQualifiers (ts.map r.token) = _ from r.readQualifiers_tokens ts]
          exact h
        | amp => exact more (_ :: ts) .lvalueRef ts
        | ampAmp => exact more (_ :: ts) .rvalueRef ts
        | _ => rfl
      | identifier owner =>
        obtain _ | ⟨⟨s', p'⟩, ts⟩ := ts
        · rfl
        · cases s' with
          | mark m =>
            cases m with
            | colonColon =>
              refine (r.carries_expect (.mark .star) ts).bind fun ts₁ => ?_
              simp only [r.readQualifiers_tokens]
              exact more _ _ _
            | _ => rfl
          | _ => rfl
      | _ => rfl

/-- A look past a parenthesis finds the same symbols. -/
theorem opensDeclarator_tokens (ts : List Token) :
    opensDeclarator (r.tokens ts) = opensDeclarator ts := by
  -- The look takes three symbols at most, and no spans.
  obtain _ | ⟨⟨s, p⟩, _ | ⟨⟨s', p'⟩, ts⟩⟩ := ts
  · rfl
  · cases s with
    | mark m => cases m <;> rfl
    | _ => rfl
  · cases s with
    | mark m =>
      cases m with
      | leftParen =>
        cases s' with
        | identifier name =>
          obtain _ | ⟨⟨s'', p''⟩, ts⟩ := ts
          · rfl
          · cases s'' with
            | mark m => cases m <;> rfl
            | _ => rfl
        | _ => rfl
      | _ => rfl
    | _ => rfl

/-- A bound is read as before. -/
theorem carries_readBound (ts : List Token) :
    r.CarriesReading id (readBound stop ts) (readBound stop' (r.tokens ts)) := by
  -- Without a literal the bracket follows at once.
  have nothing := r.carries_expect_map id (none : Option Nat) (.mark .rightBracket) ts
  obtain _ | ⟨⟨s, p⟩, ts⟩ := ts
  · exact nothing
  · cases s with
    | literal digits =>
      simp only [tokens, token, List.map_cons, readBound]
      split
      · exact r.carries_expect_map id (some _) (.mark .rightBracket) ts
      · rfl
    | _ => exact nothing

/-! ### Types -/

mutual

/-- A type with its spans relocated. -/
theorem carries_readTypeId (r : Relocation stop stop') : ∀ (fuel : Nat) (ts : List Token),
    r.CarriesReading (TypeId.mapSpans r.span) (readTypeId stop fuel ts)
      (readTypeId stop' fuel (r.tokens ts))
  | 0, _ => rfl
  | fuel + 1, ts => by
    unfold readTypeId
    refine (r.carries_readSpecifier ts).bind fun ⟨specifier, ts₁⟩ => ?_
    refine (r.carries_readDeclarator fuel ts₁).bind fun ⟨declarator, rest⟩ => ?_
    simp only [Prod.map_apply, r.span_cover]
    rfl

/-- A declarator with its spans relocated. -/
theorem carries_readDeclarator (r : Relocation stop stop') : ∀ (fuel : Nat) (ts : List Token),
    r.CarriesReading (Declarator.mapSpans r.span) (readDeclarator stop fuel ts)
      (readDeclarator stop' fuel (r.tokens ts))
  | 0, _ => rfl
  | fuel + 1, ts => by
    unfold readDeclarator
    refine (r.carries_readPointerOps fuel ts).bind fun ⟨ops, ts₁⟩ => ?_
    simp only [Prod.map_apply, r.opensDeclarator_tokens]
    split
    · -- Behind the parenthesis are the inner declarator, what closes it, and suffixes.
      rw [show (r.tokens ts₁).tail = r.tokens ts₁.tail from List.map_tail.symm]
      refine (r.carries_readDeclarator fuel ts₁.tail).bind fun ⟨inner, ts₂⟩ => ?_
      refine (r.carries_expect (.mark .rightParen) ts₂).bind fun ts₃ => ?_
      exact (r.carries_readSuffixes fuel ts₃).bind fun _ => rfl
    · exact (r.carries_readSuffixes fuel ts₁).bind fun _ => rfl

/-- Suffixes with their spans relocated. -/
theorem carries_readSuffixes (r : Relocation stop stop') : ∀ (fuel : Nat) (ts : List Token),
    r.CarriesReading (Suffix.mapSpansEach r.span) (readSuffixes stop fuel ts)
      (readSuffixes stop' fuel (r.tokens ts))
  | 0, _ => rfl
  | fuel + 1, [] => rfl
  | fuel + 1, ⟨s, p⟩ :: ts => by
    cases s with
    | mark m =>
      cases m with
      | leftBracket =>
        refine (r.carries_readBound ts).bind fun ⟨bound, ts₂⟩ => ?_
        refine (r.carries_readSuffixes fuel ts₂).bind fun ⟨more, rest⟩ => ?_
        rw [show cover _ _ = _ from r.span_cover (⟨.mark .leftBracket, p⟩ :: ts) ts₂]
        rfl
      | leftParen =>
        refine (r.carries_readParams fuel ts).bind fun ⟨⟨params, isVariadic⟩, ts₂⟩ => ?_
        refine (r.carries_readSuffixes fuel ts₂).bind fun ⟨more, rest⟩ => ?_
        rw [show cover _ _ = _ from r.span_cover (⟨.mark .leftParen, p⟩ :: ts) ts₂]
        rfl
      | _ => rfl
    | _ => rfl

/-- Parameters in parentheses with their spans relocated. -/
theorem carries_readParams (r : Relocation stop stop') : ∀ (fuel : Nat) (ts : List Token),
    r.CarriesReading (Prod.map (TypeId.mapSpansEach r.span) id) (readParams stop fuel ts)
      (readParams stop' fuel (r.tokens ts))
  | 0, _ => rfl
  | fuel + 1, ts => by
    have list := r.carries_readParamList fuel ts
    obtain _ | ⟨⟨s, p⟩, ts⟩ := ts
    · exact list
    · cases s with
      | keyword k =>
        cases k with
        | void =>
          -- A lone `void` is no parameter.
          obtain _ | ⟨⟨s', p'⟩, ts⟩ := ts
          · exact list
          · cases s' with
            | mark m =>
              cases m with
              | rightParen => rfl
              | _ => exact list
            | _ => exact list
        | _ => exact list
      | mark m =>
        cases m with
        | ellipsis => exact r.carries_expect_map _ ([], true) (.mark .rightParen) ts
        | rightParen => rfl
        | _ => exact list
      | _ => exact list

/-- A list of parameters with their spans relocated. -/
theorem carries_readParamList (r : Relocation stop stop') : ∀ (fuel : Nat) (ts : List Token),
    r.CarriesReading (Prod.map (TypeId.mapSpansEach r.span) id) (readParamList stop fuel ts)
      (readParamList stop' fuel (r.tokens ts))
  | 0, _ => rfl
  | fuel + 1, ts => by
    unfold readParamList
    refine (r.carries_readTypeId fuel ts).bind fun ⟨param, ts₁⟩ => ?_
    -- The list may end behind the parameter.
    have last := r.carries_expect_map (Prod.map (TypeId.mapSpansEach r.span) id) ([param], false)
      (.mark .rightParen) ts₁
    obtain _ | ⟨⟨s, p⟩, ts₁⟩ := ts₁
    · exact last
    · cases s with
      | mark m =>
        cases m with
        | comma =>
          -- Or it goes on behind a comma.
          have more : r.CarriesReading (Prod.map (TypeId.mapSpansEach r.span) id)
              (readParamList stop fuel ts₁ >>= fun m => pure ((param :: m.1.1, m.1.2), m.2))
              (readParamList stop' fuel (r.tokens ts₁) >>= fun m =>
                pure ((param.mapSpans r.span :: m.1.1, m.1.2), m.2)) :=
            (r.carries_readParamList fuel ts₁).bind fun _ => rfl
          obtain _ | ⟨⟨s', p'⟩, ts₂⟩ := ts₁
          · exact more
          · cases s' with
            | mark m =>
              cases m with
              | ellipsis => exact r.carries_expect_map _ ([param], true) (.mark .rightParen) ts₂
              | _ => exact more
            | _ => exact more
        | _ => exact last
      | _ => exact last

end

end Relocation

end TypeTraits
