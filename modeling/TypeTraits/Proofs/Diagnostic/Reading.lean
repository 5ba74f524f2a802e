import TypeTraits.Proofs.Query.Nodes

/-!
# `TypeTraits.Proofs.Diagnostic.Reading`: where readers fail

A reader that fails points to the end of the text, or to some of its tokens in a row
(`Diagnostic.IsOn`). There is always a token among them: a reader that finds another token
than it looked for points to this one, and one that refuses the words of a specifier points to
the words.

Each reading function has one lemma here, for all lists of tokens that it may be given
(`FailsOn`). What a function reads behind something else it reads from the tokens that are
left, and a failure on these is one on all of them (`FailsOn.behind`); which tokens are left
is what the soundness of the reading functions says.

* `readTypeId_failsOn`, `readQuery_failsOn`: types and queries, by mutual induction.
* `Query.readAll_onError`, `TypeId.readAll_onError`: the readers of all tokens of a text.
-/

set_option autoImplicit false

namespace TypeTraits

open Placed

/-! ### Spans of tokens -/

/-- The span is the one of some of the tokens in a row. -/
def Span.IsAmong (us : List Token) (s : Span) : Prop :=
  ∃ before part behind, us = before ++ part ++ behind ∧ HasHull part s

namespace Span.IsAmong

variable {us : List Token} {s : Span}

/-- A span that covers tokens is among them. -/
theorem of_hasHull (h : HasHull us s) : s.IsAmong us := ⟨[], us, [], by simp, h⟩

/-- It is among them with more tokens in front. -/
theorem append_left (h : s.IsAmong us) (front : List Token) : s.IsAmong (front ++ us) := by
  obtain ⟨before, part, behind, rfl, hpart⟩ := h
  exact ⟨front ++ before, part, behind, by simp only [List.append_assoc], hpart⟩

/-- It is among them with more tokens behind. -/
theorem append_right (h : s.IsAmong us) (rest : List Token) : s.IsAmong (us ++ rest) := by
  obtain ⟨before, part, behind, rfl, hpart⟩ := h
  exact ⟨before, part, behind ++ rest, by simp only [List.append_assoc], hpart⟩

/-- One token. -/
theorem head (t : Token) (us : List Token) : t.span.IsAmong (t :: us) :=
  (of_hasHull ⟨List.cons_ne_nil t [], rfl⟩).append_right us

end Span.IsAmong

/-- The diagnostic points to the end of a text, or to some of the tokens in a row. -/
def Diagnostic.IsOn (stop : Nat) (us : List Token) (d : Diagnostic) : Prop :=
  (∃ e, d = ⟨.unexpectedEnd e, ⟨stop, stop⟩⟩) ∨ d.span.IsAmong us

/-- A reader, given the tokens, succeeds or points to the end or to some of them. -/
def FailsOn {α : Type} (stop : Nat) (us : List Token) (x : Except Halt α) : Prop :=
  OnError (fun h => (h.diagnostic stop).IsOn stop us) x

namespace FailsOn

variable {α : Type} {stop : Nat} {us rest : List Token} {x : Except Halt α}

/-- Running out of fuel is no diagnostic. -/
theorem exhausted : FailsOn stop us (.error .exhausted : Except Halt α) :=
  .error (.inl ⟨_, rfl⟩)

/-- A failure at a span among the tokens is one on them. -/
theorem diagnosed {d : Diagnostic} (h : d.span.IsAmong us) :
    FailsOn stop us (.error (.diagnosed d) : Except Halt α) :=
  .error (.inr h)

/-- What is looked for is missing at the first token, or at the end. -/
theorem unexpected {e : Expectation} :
    FailsOn stop us (.error (unexpected stop e us) : Except Halt α) := by
  cases us with
  | nil => exact .error (.inl ⟨e, rfl⟩)
  | cons t us => exact .diagnosed (.head t us)

/-- A failure on the tokens that are left is one on all tokens. -/
theorem behind (h : FailsOn stop rest x) (front : List Token) : FailsOn stop (front ++ rest) x :=
  h.mono fun _ => .imp_right fun hs => hs.append_left front

/-- A failure on tokens is one on these with a token in front. -/
theorem cons (h : FailsOn stop rest x) (t : Token) : FailsOn stop (t :: rest) x :=
  h.behind [t]

/-- The same for tokens that are left behind given symbols. -/
theorem behind_reads {ss : List Symbol} (h : FailsOn stop rest x) (hr : Reads ss us rest) :
    FailsOn stop us x := by
  obtain ⟨front, rfl, -⟩ := hr.exists_append
  exact h.behind front

end FailsOn

variable {stop : Nat}

/-- What is there in place of an expected symbol is among the tokens, unless they have come to an
end. -/
theorem expect_failsOn {s : Symbol} {ts : List Token} : FailsOn stop ts (expect stop s ts) := by
  cases ts with
  | nil => exact .unexpected
  | cons t ts =>
    rw [expect]
    split
    · exact .ok _
    · exact .unexpected

/-- So is what is there in place of a name. -/
theorem readIdentifier_failsOn {ts : List Token} : FailsOn stop ts (readIdentifier stop ts) := by
  unfold readIdentifier
  split
  · exact .ok _
  · exact .unexpected

/-! ### Specifiers -/

section

variable {us rest ts : List Token}

/-- The tokens from the first of a specifier to one that it cannot go on with. -/
theorem clash_failsOn {α : Type} {t : Token} (h : ts = us ++ t :: rest) :
    FailsOn stop ts (clash ((ts.head?.map (·.span.start)).getD stop) t : Except Halt α) := by
  subst h
  have hspan : (⟨((us ++ t :: rest).head?.map (·.span.start)).getD stop, t.span.stop⟩ : Span) =
      hull (us ++ [t]) := by
    cases us with
    | nil => rfl
    | cons u us => exact (hull_bracketed u t us).symm
  have hne : us ++ [t] ≠ [] := List.append_ne_nil_of_right_ne_nil us (List.cons_ne_nil t [])
  rw [List.append_cons] at hspan ⊢
  exact .diagnosed ((Span.IsAmong.of_hasHull ⟨hne, hspan⟩).append_right rest)

/-- A second base is among the tokens that are read. -/
theorem refuseBase_failsOn (h : ts = us ++ rest) :
    FailsOn stop ts (refuseBase ((ts.head?.map (·.span.start)).getD stop) rest) := by
  unfold refuseBase
  split
  · split
    · exact clash_failsOn h
    · split
      · exact clash_failsOn h
      · exact .ok _
    · exact .ok _
  · exact .ok _

/-- The words of a specifier, the first tokens of which have been read. -/
theorem readWords_failsOn {mixed : Bool} {quals : Qualifiers} {words : List ScalarWord}
    (h : ts = us ++ rest) :
    FailsOn stop ts
      (readWords mixed ((ts.head?.map (·.span.start)).getD stop) quals words rest) := by
  -- With each step a token moves from `rest` to `us`.
  induction rest generalizing us quals words with
  | nil => exact .ok _
  | cons t rest ih =>
    have hnext : ts = us ++ [t] ++ rest := by rw [h, List.append_cons]
    unfold readWords
    split
    · split
      · exact ih hnext
      · exact clash_failsOn h
    · split
      · split
        · exact ih hnext
        · exact .ok _
      · exact .ok _
    · exact .ok _

/-- Words without a meaning are pointed to. -/
theorem spelledScalar_failsOn {words : List ScalarWord} (h : ts = us ++ rest) (hne : us ≠ []) :
    FailsOn stop ts (spelledScalar words (cover ts rest)) := by
  subst h
  unfold spelledScalar
  split
  · exact .ok _
  · rw [cover_append]
    exact .diagnosed ((Span.IsAmong.of_hasHull ⟨hne, rfl⟩).append_right rest)

end

/-- What is wrong with an underlying type is among its tokens. -/
theorem readUnderlying_failsOn {ts : List Token} : FailsOn stop ts (readUnderlying stop ts) := by
  have hwords : FailsOn stop ts
      (readWords false ((ts.head?.map (·.span.start)).getD stop) .none [] ts) :=
    readWords_failsOn (List.nil_append ts).symm
  unfold readUnderlying
  simp only
  split
  · next h heq => exact .error (hwords h heq)
  · next heq =>
    obtain ⟨ss, new, r, hr, -⟩ := readWords_sound heq
    exact FailsOn.unexpected.behind_reads hr
  · next q ws rest hws heq =>
    obtain ⟨ss, new, r, hr, -, rfl, -, honly⟩ := readWords_sound heq
    obtain ⟨us, rfl, hus⟩ := hr.exists_append
    -- The words are not nothing, so neither are the tokens that were taken for them.
    have hne : us ≠ [] := by
      rintro rfl
      rw [honly rfl] at hus
      exact hws (List.map_eq_nil_iff.mp hus.symm)
    exact (spelledScalar_failsOn rfl hne).map _

/-- What is wrong with an enumeration is among its tokens. -/
theorem readEnum_failsOn {ts : List Token} : FailsOn stop ts (readEnum stop ts) := by
  obtain ⟨ss, isScoped, ts₁, -, hkey, hread⟩ := readEnum_eq_readEnumName stop ts
  rw [hread]
  refine FailsOn.behind_reads ?_ hkey
  refine readIdentifier_failsOn.bind fun ⟨name, ts₂⟩ hname => ?_
  refine FailsOn.behind_reads ?_ (readIdentifier_eq_ok_iff.mp hname)
  simp only
  split
  · exact (readUnderlying_failsOn.cons _).bind fun _ _ => .ok _
  · exact .ok _

/-- What is wrong with a base is among its tokens. -/
theorem readBase_failsOn {ts : List Token} : FailsOn stop ts (readBase stop ts) := by
  -- The four keys with a name behind them read it in the same way.
  have named : ∀ (t : Token) (rest : List Token) (f : String → Base),
      FailsOn stop (t :: rest) (readIdentifier stop rest >>= fun r => pure (f r.1, r.2)) :=
    fun t rest f => (readIdentifier_failsOn.cons t).bind fun _ _ => .ok _
  unfold readBase
  split
  · exact .ok _
  · exact .ok _
  · refine FailsOn.cons ?_ _
    refine expect_failsOn.bind fun ts₁ h₁ => FailsOn.behind_reads ?_ (expect_eq_ok_iff.mp h₁)
    refine expect_failsOn.bind fun ts₂ h₂ => FailsOn.behind_reads ?_ (expect_eq_ok_iff.mp h₂)
    exact expect_failsOn.bind fun ts₃ _ => .ok _
  · exact named _ _ .ofClass
  · exact named _ _ .ofClass
  · exact named _ _ .ofUnion
  · exact readEnum_failsOn.cons _
  · exact .unexpected
  · exact .ok _
  · exact .unexpected

/-- The first word of an arithmetic type is always taken. -/
theorem readWords_scalar {mixed : Bool} {start : Nat} {quals : Qualifiers} {w : ScalarWord}
    {p : Span} {ts : List Token} :
    readWords mixed start quals [] (⟨.scalar w, p⟩ :: ts) =
      readWords mixed start quals [w] ts := by
  have hallowed : ([] : List ScalarWord).count w < w.allowance := by cases w <;> decide
  rw [readWords]
  simp only [hallowed, if_true, List.nil_append]

/-- What is wrong with a specifier is among its tokens. -/
theorem readSpecifier_failsOn {ts : List Token} : FailsOn stop ts (readSpecifier stop ts) := by
  obtain ⟨ss, hr, -⟩ := readQualifiers_sound ts
  obtain ⟨us, hus, -⟩ := hr.exists_append
  unfold readSpecifier
  simp only
  split
  · next w p ts₁ heq =>
    refine (readWords_failsOn hus).bind fun ⟨⟨q, ws⟩, rest⟩ hw => ?_
    -- The first word is among the tokens that were taken.
    rw [heq, readWords_scalar] at hw
    obtain ⟨ss', new, r, hr', -⟩ := readWords_sound hw
    obtain ⟨us', rfl, -⟩ := hr'.exists_append
    have htaken : ts = (us ++ ⟨.scalar w, p⟩ :: us') ++ rest := by
      rw [hus, heq, List.append_assoc, List.cons_append]
    have hne : us ++ ⟨.scalar w, p⟩ :: us' ≠ [] :=
      List.append_ne_nil_of_right_ne_nil us (List.cons_ne_nil _ us')
    refine (refuseBase_failsOn htaken).bind fun _ _ => ?_
    exact (spelledScalar_failsOn htaken hne).bind fun _ _ => .ok _
  · refine (readBase_failsOn.behind_reads hr).bind fun ⟨b, ts₂⟩ hb => ?_
    obtain ⟨ss', hr', -⟩ := readBase_sound hb
    obtain ⟨ss'', hr'', -⟩ := readQualifiers_sound ts₂
    obtain ⟨us', htaken, -⟩ := ((hr.append hr').append hr'').exists_append
    exact (refuseBase_failsOn htaken).bind fun _ _ => .ok _

/-! ### Declarators -/

/-- What is wrong with pointer operators is among their tokens. -/
theorem readPointerOps_failsOn {fuel : Nat} {ts : List Token} :
    FailsOn stop ts (readPointerOps stop fuel ts) := by
  induction fuel generalizing ts with
  | zero => exact .exhausted
  | succ fuel ih =>
    -- One operator is read; the others are behind it.
    have more : ∀ {ss : List Symbol} {kind : PointerKind} {ts₁ : List Token}, Reads ss ts ts₁ →
        FailsOn stop ts (readPointerOps stop fuel ts₁ >>= fun r =>
          pure (⟨kind, cover ts ts₁⟩ :: r.1, r.2)) := by
      intro ss kind ts₁ hr
      exact (ih.behind_reads hr).bind fun _ _ => .ok _
    unfold readPointerOps
    simp only
    split
    · next ts₁ =>
      obtain ⟨ss, hr, -⟩ := readQualifiers_sound ts₁
      exact more hr.cons
    · exact more (.cons (.nil _))
    · exact more (.cons (.nil _))
    · refine ((expect_failsOn.cons _).cons _).bind fun ts₂ hstar => ?_
      obtain ⟨ss, hr, -⟩ := readQualifiers_sound ts₂
      exact more ((expect_eq_ok_iff.mp hstar).append hr).cons.cons
    · exact .ok _

/-- What is wrong with a bound is among its tokens. -/
theorem readBound_failsOn {ts : List Token} : FailsOn stop ts (readBound stop ts) := by
  unfold readBound
  split
  · split
    · exact (expect_failsOn.cons _).map _
    · exact .diagnosed (.head _ _)
  · exact expect_failsOn.map _

mutual

/-- A type: what its specifier does not take is for its declarator. -/
theorem readTypeId_failsOn : ∀ (fuel : Nat) {ts : List Token},
    FailsOn stop ts (readTypeId stop fuel ts)
  | 0, _ => .exhausted
  | fuel + 1, ts => by
    unfold readTypeId
    refine readSpecifier_failsOn.bind fun ⟨s, ts₁⟩ hs => ?_
    obtain ⟨us, b, q, hts, -⟩ := readSpecifier_sound hs
    have hdecl : FailsOn stop ts (readDeclarator stop fuel ts₁) := by
      rw [hts]
      exact (readDeclarator_failsOn fuel).behind us
    exact hdecl.bind fun _ _ => .ok _

/-- What is wrong with a declarator is among its tokens, or among those behind an inner one. -/
theorem readDeclarator_failsOn : ∀ (fuel : Nat) {ts : List Token},
    FailsOn stop ts (readDeclarator stop fuel ts)
  | 0, _ => .exhausted
  | fuel + 1, ts => by
    unfold readDeclarator
    refine readPointerOps_failsOn.bind fun ⟨ops, ts₁⟩ hops => ?_
    obtain ⟨us, rfl, -⟩ := readPointerOps_sound hops
    refine FailsOn.behind ?_ us
    simp only
    split
    · next ho =>
      -- Behind the parenthesis are the inner declarator, what closes it, and suffixes.
      obtain ⟨p, ts₂, rfl, -⟩ := opensDeclarator_iff.mp ho
      refine FailsOn.cons ?_ ⟨.mark .leftParen, p⟩
      refine (readDeclarator_failsOn fuel).bind fun ⟨inner, ts₃⟩ hinner => ?_
      obtain ⟨us', rfl, -⟩ := readDeclarator_sound fuel hinner
      refine FailsOn.behind ?_ us'
      refine expect_failsOn.bind fun ts₄ hclose => ?_
      refine FailsOn.behind_reads ?_ (expect_eq_ok_iff.mp hclose)
      exact (readSuffixes_failsOn fuel).bind fun _ _ => .ok _
    · exact (readSuffixes_failsOn fuel).bind fun _ _ => .ok _

/-- What is wrong with suffixes is among their tokens. -/
theorem readSuffixes_failsOn : ∀ (fuel : Nat) {ts : List Token},
    FailsOn stop ts (readSuffixes stop fuel ts)
  | 0, _ => .exhausted
  | fuel + 1, ts => by
    unfold readSuffixes
    split
    · next p ts₁ =>
      refine FailsOn.cons ?_ _
      refine readBound_failsOn.bind fun ⟨bound, ts₂⟩ hbound => ?_
      -- Behind the bracket the next suffix begins where the bound ends.
      obtain ⟨us, p', rfl, -⟩ := readBound_sound hbound
      exact (((readSuffixes_failsOn fuel).cons _).behind us).bind fun _ _ => .ok _
    · next p ts₁ =>
      refine FailsOn.cons ?_ _
      refine (readParams_failsOn fuel).bind fun ⟨⟨params, v⟩, ts₂⟩ hparams => ?_
      obtain ⟨us, p', rfl, -⟩ := readParams_sound fuel hparams
      exact (((readSuffixes_failsOn fuel).cons _).behind us).bind fun _ _ => .ok _
    · exact .ok _

/-- What is wrong with parameters is among their tokens. -/
theorem readParams_failsOn : ∀ (fuel : Nat) {ts : List Token},
    FailsOn stop ts (readParams stop fuel ts)
  | 0, _ => .exhausted
  | fuel + 1, ts => by
    unfold readParams
    split
    · exact .ok _
    · exact (expect_failsOn.cons _).map _
    · exact .ok _
    · exact readParamList_failsOn fuel

/-- What is wrong with a list of them is. -/
theorem readParamList_failsOn : ∀ (fuel : Nat) {ts : List Token},
    FailsOn stop ts (readParamList stop fuel ts)
  | 0, _ => .exhausted
  | fuel + 1, ts => by
    unfold readParamList
    refine (readTypeId_failsOn fuel).bind fun ⟨param, ts₁⟩ hparam => ?_
    obtain ⟨us, rfl, -⟩ := readTypeId_sound fuel hparam
    refine FailsOn.behind ?_ us
    simp only
    split
    · exact ((expect_failsOn.cons _).cons _).map _
    · exact ((readParamList_failsOn fuel).cons _).bind fun _ _ => .ok _
    · exact expect_failsOn.map _

end

/-! ### Queries -/

mutual

/-- What is wrong with a query is among its tokens. -/
theorem readQuery_failsOn : ∀ (fuel : Nat) {ts : List Token},
    FailsOn stop ts (readQuery stop fuel ts)
  | 0, _ => .exhausted
  | fuel + 1, ts => by
    unfold readQuery
    split
    · exact .ok _
    · exact .ok _
    · split
      · exact .ok _
      · exact .diagnosed (.head _ _)
    · exact (((readArguments_failsOn fuel).cons _).cons _).bind fun _ _ => .ok _
    · exact (readTypeId_failsOn _).map _

/-- What is wrong with arguments is among their tokens. -/
theorem readArguments_failsOn : ∀ (fuel : Nat) {ts : List Token},
    FailsOn stop ts (readArguments stop fuel ts)
  | 0, _ => .exhausted
  | fuel + 1, ts => by
    unfold readArguments
    split
    · exact .ok _
    · exact readArgumentList_failsOn fuel

/-- What is wrong with a list of them is. -/
theorem readArgumentList_failsOn : ∀ (fuel : Nat) {ts : List Token},
    FailsOn stop ts (readArgumentList stop fuel ts)
  | 0, _ => .exhausted
  | fuel + 1, ts => by
    unfold readArgumentList
    refine (readQuery_failsOn fuel).bind fun ⟨arg, ts₁⟩ harg => ?_
    obtain ⟨us, rfl, -⟩ := readQuery_sound fuel harg
    refine FailsOn.behind ?_ us
    simp only
    split
    · exact ((readArgumentList_failsOn fuel).cons _).bind fun _ _ => .ok _
    · exact .ok _
    · exact .unexpected

end

/-! ### All tokens of a text -/

/-- What is left behind the whole is pointed to as well. -/
theorem TokenStream.readAll_onError {α : Type} {s : TokenStream}
    {read : Nat → List Token → Except Halt (α × List Token)}
    (hfails : FailsOn s.stop s.tokens (read s.stop s.tokens))
    (hsound : ∀ a rest, read s.stop s.tokens = .ok (a, rest) → ∃ us, s.tokens = us ++ rest) :
    OnError (Diagnostic.IsOn s.stop s.tokens) (s.readAll read) := by
  unfold readAll
  split
  · exact .ok _
  · next a rest _ heq =>
    -- What is left over are the last of the tokens, so one of them is blamed.
    obtain ⟨us, hus⟩ := hsound a rest heq
    have hrest : FailsOn s.stop s.tokens (.error (unexpected s.stop .endOfInput rest) :
        Except Halt α) := by
      rw [hus]
      exact FailsOn.unexpected.behind us
    exact .error (hrest _ rfl)
  · next h heq => exact .error (hfails h heq)

/-- A text that is refused as a type is refused on its tokens. -/
theorem TypeId.readAll_onError {s : TokenStream} :
    OnError (Diagnostic.IsOn s.stop s.tokens) (s.readAll read) :=
  TokenStream.readAll_onError (readTypeId_failsOn _) fun _ _ h =>
    (read_sound h).imp fun _ hus => hus.1

/-- A text that is refused as a query is refused on its tokens. -/
theorem Query.readAll_onError {s : TokenStream} :
    OnError (Diagnostic.IsOn s.stop s.tokens) (s.readAll read) :=
  TokenStream.readAll_onError (readQuery_failsOn _) fun _ _ h =>
    (readQuery_sound _ h).imp fun _ hus => hus.1

end TypeTraits
