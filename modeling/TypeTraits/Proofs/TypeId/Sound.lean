import TypeTraits.Proofs.TypeId.Placed
import TypeTraits.Proofs.TypeId.Reads

/-!
# `TypeTraits.Proofs.TypeId.Sound`: what is read is derived

Every reading function of `TypeTraits.TypeId.Reading` takes its result from the
tokens that it takes away: it is derived from them, places included, by the rule
that the function is for. Nothing is said here about how much fuel there is.

* `readSpecifier_sound`, `readPointerOps_sound`: the parts that hold no types.
* `readTypeId_sound`: types, by mutual induction over the block of five functions.
-/

set_option autoImplicit false

namespace TypeTraits

open Grammar

/-! ### Specifiers -/

/-- The qualifiers in front are taken away, and they are the ones that are returned. -/
theorem readQualifiers_sound (ts : List Token) :
    ∃ ss, Reads ss ts (readQualifiers ts).2 ∧ IsQualifiers ss (readQualifiers ts).1 := by
  induction ts with
  | nil => exact ⟨[], .nil _, .nil⟩
  | cons t ts ih =>
    obtain ⟨ss, hr, hq⟩ := ih
    by_cases h : ∃ k q, t.symbol = .keyword k ∧ k.qualifier? = some q
    · obtain ⟨k, q, hs, hk⟩ := h
      obtain ⟨s, span⟩ := t
      cases hs
      rw [readQualifiers_keyword hk]
      exact ⟨_, hr.cons, .cons hk hq⟩
    · -- Any other token is where the run ends.
      rw [readQualifiers_eq_self]
      · exact ⟨[], .nil _, .nil⟩
      · intro k span ts' heq
        cases heq
        cases hk : k.qualifier? with
        | none => rfl
        | some q => exact absurd ⟨k, q, rfl, hk⟩ h

/-- A word that would be one too many is not taken. -/
theorem readWords_isAllowed {mixed : Bool} {start : Nat} {quals q : Qualifiers}
    {words ws : List ScalarWord} {ts rest : List Token} (hwords : ScalarWord.IsAllowed words)
    (h : readWords mixed start quals words ts = .ok ((q, ws), rest)) :
    ScalarWord.IsAllowed ws := by
  induction ts generalizing quals words with
  | nil =>
    cases h
    exact hwords
  | cons t ts ih =>
    unfold readWords at h
    split at h
    · next w _ =>
      split at h
      · next hlt =>
        refine ih (fun v => ?_) h
        -- Only the new word is counted once more, and it was below its allowance.
        rw [List.count_append, List.count_singleton]
        split
        · next heq =>
          cases eq_of_beq heq
          exact hlt
        · exact hwords v
      · exact nomatch h
    · split at h
      · split at h
        · exact ih hwords h
        · cases h
          exact hwords
      · cases h
        exact hwords
    · cases h
      exact hwords

/-- The words read are new ones behind the given ones. Without qualifiers between them
nothing but words is taken away. -/
theorem readWords_sound {mixed : Bool} {start : Nat} {quals q : Qualifiers}
    {words ws : List ScalarWord} {ts rest : List Token}
    (h : readWords mixed start quals words ts = .ok ((q, ws), rest)) :
    ∃ ss new r, Reads ss ts rest ∧ IsWords ss new r ∧ ws = words ++ new ∧ q = quals.union r ∧
      (mixed = false → ss = new.map .scalar) := by
  induction ts generalizing quals words with
  | nil =>
    cases h
    exact ⟨[], [], .none, .nil _, .nil, by simp, by simp, fun _ => rfl⟩
  | cons t ts ih =>
    obtain ⟨s, span⟩ := t
    -- Every other symbol ends the run in front of itself.
    have stay : (.ok ((quals, words), ⟨s, span⟩ :: ts) : Except Halt _) = .ok ((q, ws), rest) →
        ∃ ss new r, Reads ss (⟨s, span⟩ :: ts) rest ∧ IsWords ss new r ∧ ws = words ++ new ∧
          q = quals.union r ∧ (mixed = false → ss = new.map .scalar) := by
      intro h
      cases h
      exact ⟨[], [], .none, .nil _, .nil, by simp, by simp, fun _ => rfl⟩
    unfold readWords at h
    cases s with
    | scalar w =>
      simp only at h
      split at h
      · obtain ⟨ss, new, r, hr, hw, rfl, rfl, hm⟩ := ih h
        refine ⟨_, w :: new, r, hr.cons, .word hw, by simp, rfl, fun e => ?_⟩
        rw [hm e, List.map_cons]
      · exact nomatch h
    | keyword k =>
      simp only at h
      split at h
      · next q' hq =>
        split at h
        · next hmixed =>
          -- A qualifier is taken only where they are allowed, so nothing is
          -- left to show for a run of words alone.
          obtain ⟨ss, new, r, hr, hw, rfl, rfl, -⟩ := ih h
          refine ⟨_, new, _, hr.cons, .qualifier hq hw, rfl, Qualifiers.union_assoc .., fun e => ?_⟩
          exact absurd hmixed (by simp [e])
        · exact stay h
      · exact stay h
    | mark m => exact stay h
    | identifier name => exact stay h
    | literal digits => exact stay h

/-- Behind the colon of an enumeration stand the words of a scalar, with no qualifier. -/
theorem readUnderlying_sound {stop : Nat} {k : Scalar} {ts rest : List Token}
    (h : readUnderlying stop ts = .ok (k, rest)) :
    ∃ ws, Reads (ws.map .scalar) ts rest ∧ k.isSpelledBy ws := by
  unfold readUnderlying at h
  simp only at h
  split at h
  · exact nomatch h
  · exact nomatch h
  · next hw =>
    obtain ⟨k', hk, heq⟩ := except_map_eq_ok.mp h
    cases heq
    obtain ⟨ss, ws, r, hr, -, hws, -, hm⟩ := readWords_sound hw
    -- No qualifiers are mixed in, so the symbols are just the words.
    have honly : ss = ws.map .scalar := hm rfl
    rw [honly] at hr
    rw [List.nil_append] at hws
    have hallowed := readWords_isAllowed ScalarWord.isAllowed_nil hw
    exact ⟨ws, hr, hws ▸ (spelledScalar_eq_ok_iff hallowed).mp hk⟩

/-- Behind `enum` stand the rest of its key, a name and perhaps an underlying scalar. -/
theorem readEnum_sound {stop : Nat} {b : Base} {ts rest : List Token}
    (h : readEnum stop ts = .ok (b, rest)) :
    ∃ ss, Reads ss ts rest ∧ IsBase (.keyword .enumKey :: ss) b := by
  obtain ⟨ss, isScoped, ts₁, hkey, hr, hread⟩ := readEnum_eq_readEnumName stop ts
  rw [hread] at h
  obtain ⟨⟨name, ts₂⟩, hname, h⟩ := except_bind_eq_ok.mp h
  have hn := readIdentifier_eq_ok_iff.mp hname
  simp only at h
  split at h
  · next span ts₃ =>
    -- A colon: the scalar that the enumeration is stored as.
    obtain ⟨⟨k, ts₄⟩, hk, h⟩ := except_bind_eq_ok.mp h
    cases h
    obtain ⟨ws, hws, hsp⟩ := readUnderlying_sound hk
    refine ⟨_, hr.append (hn.append hws.cons), ?_⟩
    exact .storedEnum hkey hsp
  · cases h
    exact ⟨_, hr.append hn, .ofEnum hkey⟩

/-- A base that is not arithmetic: one production for each word that it begins with. -/
theorem readBase_sound {stop : Nat} {b : Base} {ts rest : List Token}
    (h : readBase stop ts = .ok (b, rest)) : ∃ ss, Reads ss ts rest ∧ IsBase ss b := by
  unfold readBase at h
  -- The two that are refused (another keyword, and what begins no base at all)
  -- have no result to speak about.
  split at h
  · cases h
    exact ⟨_, .cons (.nil _), .void⟩
  · cases h
    exact ⟨_, .cons (.nil _), .nullptrT⟩
  · obtain ⟨ts₁, h₁, h⟩ := except_bind_eq_ok.mp h
    obtain ⟨ts₂, h₂, h⟩ := except_bind_eq_ok.mp h
    obtain ⟨ts₃, h₃, h⟩ := except_bind_eq_ok.mp h
    cases h
    have hnull := (expect_eq_ok_iff.mp h₂).append (expect_eq_ok_iff.mp h₃)
    have hr := (expect_eq_ok_iff.mp h₁).append hnull
    exact ⟨_, hr.cons, .decltype⟩
  · obtain ⟨⟨name, ts₁⟩, hname, h⟩ := except_bind_eq_ok.mp h
    cases h
    exact ⟨_, (readIdentifier_eq_ok_iff.mp hname).cons, .ofClass⟩
  · obtain ⟨⟨name, ts₁⟩, hname, h⟩ := except_bind_eq_ok.mp h
    cases h
    exact ⟨_, (readIdentifier_eq_ok_iff.mp hname).cons, .ofStruct⟩
  · obtain ⟨⟨name, ts₁⟩, hname, h⟩ := except_bind_eq_ok.mp h
    cases h
    exact ⟨_, (readIdentifier_eq_ok_iff.mp hname).cons, .ofUnion⟩
  · obtain ⟨ss, hr, hb⟩ := readEnum_sound h
    exact ⟨_, hr.cons, hb⟩
  · exact nomatch h
  · cases h
    exact ⟨_, .cons (.nil _), .named⟩
  · exact nomatch h

/-- A specifier: qualifiers may stand in front of its base and behind it, and also
between the words of an arithmetic one. -/
theorem readSpecifier_sound {stop : Nat} {s : Specifier} {ts rest : List Token}
    (h : readSpecifier stop ts = .ok (s, rest)) :
    ∃ us b q, ts = us ++ rest ∧ IsSpecifier (symbols us) ⟨b, q, default⟩ ∧ s = ⟨b, q, hull us⟩ := by
  -- What is taken away gives the specifier, and its span is the one of the tokens.
  have done : ∀ {ss : List Symbol} {b : Base} {q : Qualifiers}, Reads ss ts rest →
      IsSpecifier ss ⟨b, q, default⟩ → s = ⟨b, q, cover ts rest⟩ →
      ∃ us b q, ts = us ++ rest ∧ IsSpecifier (symbols us) ⟨b, q, default⟩ ∧
        s = ⟨b, q, hull us⟩ := by
    rintro ss b q hr hs rfl
    obtain ⟨us, rfl, rfl⟩ := hr.exists_append
    exact ⟨us, b, q, rfl, hs, by rw [cover_append]⟩
  obtain ⟨before, hbefore, hq⟩ := readQualifiers_sound ts
  unfold readSpecifier at h
  simp only at h
  split at h
  · -- An arithmetic base: its words and the qualifiers are one run.
    obtain ⟨⟨⟨q, ws⟩, ts₁⟩, hw, h⟩ := except_bind_eq_ok.mp h
    obtain ⟨-, -, h⟩ := except_bind_eq_ok.mp h
    obtain ⟨k, hk, h⟩ := except_bind_eq_ok.mp h
    cases h
    obtain ⟨ss, new, r, hr, hws, rfl, rfl, -⟩ := readWords_sound hw
    have hallowed := readWords_isAllowed ScalarWord.isAllowed_nil hw
    have hspelled := (spelledScalar_eq_ok_iff hallowed).mp hk
    exact done (hbefore.append hr) (.arithmetic (hws.of_qualifiers hq) hspelled) rfl
  · obtain ⟨⟨b, ts₁⟩, hb, h⟩ := except_bind_eq_ok.mp h
    obtain ⟨-, -, h⟩ := except_bind_eq_ok.mp h
    cases h
    obtain ⟨ss, hr, hbase⟩ := readBase_sound hb
    obtain ⟨behind, hbehind, hq'⟩ := readQualifiers_sound ts₁
    exact done ((hbefore.append hr).append hbehind) (.other hq hbase hq') rfl

/-! ### Declarators -/

/-- The operators of a declarator, by induction on the fuel: each takes one unit. -/
theorem readPointerOps_sound {stop fuel : Nat} {ops : List PointerOp} {ts rest : List Token}
    (h : readPointerOps stop fuel ts = .ok (ops, rest)) :
    ∃ us, ts = us ++ rest ∧ Placed.IsOps us ops := by
  induction fuel generalizing ts ops with
  | zero => exact nomatch h
  | succ fuel ih =>
    -- One operator is read; the others are behind it.
    have more : ∀ {ss : List Symbol} {kind : PointerKind} {ts₁ : List Token},
        Reads ss ts ts₁ → IsOp ss kind →
        (readPointerOps stop fuel ts₁ >>= fun r => pure (⟨kind, cover ts ts₁⟩ :: r.1, r.2)) =
          .ok (ops, rest) →
        ∃ us, ts = us ++ rest ∧ Placed.IsOps us ops := by
      intro ss kind ts₁ hr hop h
      obtain ⟨us, rfl, rfl⟩ := hr.exists_append
      rw [cover_append] at h
      obtain ⟨⟨more, ts₂⟩, hmore, h⟩ := except_bind_eq_ok.mp h
      cases h
      obtain ⟨us', rfl, hops⟩ := ih hmore
      exact ⟨us ++ us', by rw [List.append_assoc], .cons hop hops⟩
    unfold readPointerOps at h
    simp only at h
    split at h
    · next ts₁ =>
      obtain ⟨ss, hr, hq⟩ := readQualifiers_sound ts₁
      exact more hr.cons (.pointer hq) h
    · exact more (.cons (.nil _)) .lvalueRef h
    · exact more (.cons (.nil _)) .rvalueRef h
    · obtain ⟨ts₂, hstar, h⟩ := except_bind_eq_ok.mp h
      obtain ⟨ss, hr, hq⟩ := readQualifiers_sound ts₂
      exact more ((expect_eq_ok_iff.mp hstar).append hr).cons.cons (.member hq) h
    · cases h
      exact ⟨[], rfl, .nil⟩

/-- What is between the brackets of an array is a size that fits, or nothing. -/
theorem readBound_sound {stop : Nat} {bound : Option Nat} {ts rest : List Token}
    (h : readBound stop ts = .ok (bound, rest)) :
    ∃ us p, ts = us ++ ⟨.mark .rightBracket, p⟩ :: rest ∧ IsBound (symbols us) bound := by
  unfold readBound at h
  split at h
  · next digits span ts =>
    split at h
    · next n hn =>
      obtain ⟨ts₁, hend, heq⟩ := except_map_eq_ok.mp h
      cases heq
      rw [size?] at hn
      obtain ⟨hlt, rfl⟩ := Option.ite_some_none_eq_some.mp hn
      obtain ⟨p, _, rfl, rfl⟩ := expect_eq_ok_iff.mp hend
      exact ⟨[⟨.literal digits, span⟩], p, rfl, .known hlt⟩
    · exact nomatch h
  -- Without a literal the bracket follows at once.
  · obtain ⟨ts₁, hend, heq⟩ := except_map_eq_ok.mp h
    cases heq
    obtain ⟨p, _, rfl, rfl⟩ := expect_eq_ok_iff.mp hend
    exact ⟨[], p, rfl, .unknown⟩

/-- A declarator has the operators that were read first. -/
theorem ops_ne_nil_of_readDeclarator {stop fuel : Nat} {d : Declarator} {ts rest : List Token}
    (hb : BeginsOp ts) (h : readDeclarator stop fuel ts = .ok (d, rest)) : d.ops ≠ [] := by
  cases fuel with
  | zero => exact nomatch h
  | succ fuel =>
    unfold readDeclarator at h
    obtain ⟨⟨ops, ts₁⟩, hops, h⟩ := except_bind_eq_ok.mp h
    have hne : ops ≠ [] := readPointerOps_ne_nil hb hops
    simp only at h
    -- Both forms keep the operators; what is behind them does not matter.
    split at h
    · obtain ⟨⟨inner, ts₂⟩, -, h⟩ := except_bind_eq_ok.mp h
      obtain ⟨ts₃, -, h⟩ := except_bind_eq_ok.mp h
      obtain ⟨⟨suffixes, ts₄⟩, -, h⟩ := except_bind_eq_ok.mp h
      cases h
      exact hne
    · obtain ⟨⟨suffixes, ts₂⟩, -, h⟩ := except_bind_eq_ok.mp h
      cases h
      exact hne

mutual

/-- A type is a specifier with a declarator behind it. -/
theorem readTypeId_sound {stop : Nat} : ∀ (fuel : Nat) {ts rest : List Token} {t : TypeId},
    readTypeId stop fuel ts = .ok (t, rest) → ∃ us, ts = us ++ rest ∧ Placed.IsType us t
  | 0, _, _, _, h => nomatch h
  | fuel + 1, ts, rest, t, h => by
    unfold readTypeId at h
    obtain ⟨⟨s, ts₁⟩, hs, h⟩ := except_bind_eq_ok.mp h
    obtain ⟨⟨d, ts₂⟩, hd, h⟩ := except_bind_eq_ok.mp h
    cases h
    obtain ⟨us, b, q, rfl, hspec, rfl⟩ := readSpecifier_sound hs
    obtain ⟨us', rfl, hdecl⟩ := readDeclarator_sound fuel hd
    refine ⟨us ++ us', by rw [List.append_assoc], ?_⟩
    rw [← List.append_assoc, cover_append]
    exact .mk hspec hdecl

/-- A declarator: operators, perhaps another declarator in parentheses, and suffixes. -/
theorem readDeclarator_sound {stop : Nat} :
    ∀ (fuel : Nat) {ts rest : List Token} {d : Declarator},
    readDeclarator stop fuel ts = .ok (d, rest) → ∃ us, ts = us ++ rest ∧ Placed.IsDeclarator us d
  | 0, _, _, _, h => nomatch h
  | fuel + 1, ts, rest, d, h => by
    unfold readDeclarator at h
    obtain ⟨⟨ops, ts₁⟩, hread, hsplit⟩ := except_bind_eq_ok.mp h
    obtain ⟨us, rfl, hops⟩ := readPointerOps_sound hread
    simp only at hsplit
    split at hsplit
    · next ho =>
      -- The parenthesis is one of grouping: an operator is behind it, and the
      -- declarator read there has that operator.
      obtain ⟨⟨inner, ts₂⟩, hinner, hsplit⟩ := except_bind_eq_ok.mp hsplit
      obtain ⟨ts₃, hclose, hsplit⟩ := except_bind_eq_ok.mp hsplit
      obtain ⟨⟨suffixes, ts₄⟩, hsuf, hsplit⟩ := except_bind_eq_ok.mp hsplit
      cases hsplit
      obtain ⟨p, ts₅, rfl, hb⟩ := opensDeclarator_iff.mp ho
      have hne := ops_ne_nil_of_readDeclarator hb hinner
      obtain ⟨us', rfl, hin⟩ := readDeclarator_sound fuel hinner
      obtain ⟨p', _, rfl, rfl⟩ := expect_eq_ok_iff.mp hclose
      obtain ⟨us'', rfl, hsuffixes⟩ := readSuffixes_sound fuel hsuf
      refine ⟨us ++ ⟨.mark .leftParen, p⟩ :: (us' ++ ⟨.mark .rightParen, p'⟩ :: us''), ?_,
        .nested hops hin hne hsuffixes⟩
      simp
    · obtain ⟨⟨suffixes, ts₂⟩, hsuf, hsplit⟩ := except_bind_eq_ok.mp hsplit
      cases hsplit
      obtain ⟨us', rfl, hsuffixes⟩ := readSuffixes_sound fuel hsuf
      exact ⟨us ++ us', by rw [List.append_assoc], .flat hops hsuffixes⟩

/-- Suffixes: bounds of arrays and parameters of functions, from left to right. -/
theorem readSuffixes_sound {stop : Nat} :
    ∀ (fuel : Nat) {ts rest : List Token} {suffixes : List Suffix},
    readSuffixes stop fuel ts = .ok (suffixes, rest) →
    ∃ us, ts = us ++ rest ∧ Placed.IsSuffixes us suffixes
  | 0, _, _, _, h => nomatch h
  | fuel + 1, ts, rest, suffixes, h => by
    unfold readSuffixes at h
    split at h
    · next p ts₁ =>
      obtain ⟨⟨bound, ts₂⟩, hb, h⟩ := except_bind_eq_ok.mp h
      obtain ⟨⟨more, ts₃⟩, hmore, h⟩ := except_bind_eq_ok.mp h
      cases h
      obtain ⟨us, p', rfl, hbound⟩ := readBound_sound hb
      obtain ⟨us', rfl, hsuffixes⟩ := readSuffixes_sound fuel hmore
      rw [cover_bracketed]
      exact ⟨⟨.mark .leftBracket, p⟩ :: us ++ ⟨.mark .rightBracket, p'⟩ :: us', by simp,
        .array hbound hsuffixes⟩
    · next p ts₁ =>
      obtain ⟨⟨⟨params, isVariadic⟩, ts₂⟩, hp, h⟩ := except_bind_eq_ok.mp h
      obtain ⟨⟨more, ts₃⟩, hmore, h⟩ := except_bind_eq_ok.mp h
      cases h
      obtain ⟨us, p', rfl, hparams⟩ := readParams_sound fuel hp
      obtain ⟨us', rfl, hsuffixes⟩ := readSuffixes_sound fuel hmore
      rw [cover_bracketed]
      exact ⟨⟨.mark .leftParen, p⟩ :: us ++ ⟨.mark .rightParen, p'⟩ :: us', by simp,
        .function hparams hsuffixes⟩
    · cases h
      exact ⟨[], rfl, .nil⟩

/-- What is between the parentheses of a function, with the closing one behind it. -/
theorem readParams_sound {stop : Nat} :
    ∀ (fuel : Nat) {ts rest : List Token} {params : List TypeId} {isVariadic : Bool},
    readParams stop fuel ts = .ok ((params, isVariadic), rest) →
    ∃ us p, ts = us ++ ⟨.mark .rightParen, p⟩ :: rest ∧ Placed.IsParams us params isVariadic
  | 0, _, _, _, _, h => nomatch h
  | fuel + 1, ts, rest, params, isVariadic, h => by
    unfold readParams at h
    split at h
    · next p p' ts =>
      cases h
      exact ⟨[⟨.keyword .void, p⟩], p', rfl, .void⟩
    · next p ts =>
      obtain ⟨ts₁, hend, heq⟩ := except_map_eq_ok.mp h
      cases heq
      obtain ⟨p', _, rfl, rfl⟩ := expect_eq_ok_iff.mp hend
      exact ⟨[⟨.mark .ellipsis, p⟩], p', rfl, .ellipsis⟩
    · next p ts =>
      cases h
      exact ⟨[], p, rfl, .nothing⟩
    · next hvoid _ _ =>
      obtain ⟨us, p, rfl, hl⟩ := readParamList_sound fuel h
      refine ⟨us, p, rfl, ?_⟩
      rcases hl with ⟨rfl, hl⟩ | ⟨us', p', p'', rfl, rfl, hl⟩
      · -- A list that is `void` alone was taken by the first production.
        refine .list hl fun heq => ?_
        obtain ⟨span, us', rfl, hus'⟩ := exists_cons_of_symbols heq
        cases List.map_eq_nil_iff.mp hus'
        exact hvoid span p rest rfl
      · exact .variadic hl

/-- A list of parameters: one at least, and `, ...` behind them when it is variadic. -/
theorem readParamList_sound {stop : Nat} :
    ∀ (fuel : Nat) {ts rest : List Token} {params : List TypeId} {isVariadic : Bool},
    readParamList stop fuel ts = .ok ((params, isVariadic), rest) →
    ∃ us p, ts = us ++ ⟨.mark .rightParen, p⟩ :: rest ∧
      (isVariadic = false ∧ Placed.IsTypes us params ∨
        ∃ us' p p', isVariadic = true ∧ us = us' ++ [⟨.mark .comma, p⟩, ⟨.mark .ellipsis, p'⟩] ∧
          Placed.IsTypes us' params)
  | 0, _, _, _, _, h => nomatch h
  | fuel + 1, ts, rest, params, isVariadic, h => by
    unfold readParamList at h
    obtain ⟨⟨param, ts₁⟩, hparam, hsplit⟩ := except_bind_eq_ok.mp h
    obtain ⟨us, rfl, hty⟩ := readTypeId_sound fuel hparam
    simp only at hsplit
    split at hsplit
    · next p p' ts =>
      obtain ⟨ts₂, hend, heq⟩ := except_map_eq_ok.mp hsplit
      cases heq
      obtain ⟨p'', _, rfl, rfl⟩ := expect_eq_ok_iff.mp hend
      exact ⟨us ++ [⟨.mark .comma, p⟩, ⟨.mark .ellipsis, p'⟩], p'', by simp,
        .inr ⟨us, p, p', rfl, rfl, .last hty⟩⟩
    · next p ts _ =>
      obtain ⟨⟨⟨more, v⟩, ts₂⟩, hmore, heq⟩ := except_bind_eq_ok.mp hsplit
      cases heq
      obtain ⟨us', p', rfl, hl⟩ := readParamList_sound fuel hmore
      refine ⟨us ++ ⟨.mark .comma, p⟩ :: us', p', by simp, ?_⟩
      -- The last of the others decides whether the list is variadic.
      rcases hl with ⟨rfl, hl⟩ | ⟨us'', q, q', rfl, rfl, hl⟩
      · exact .inl ⟨rfl, .cons hty hl⟩
      · exact .inr ⟨us ++ ⟨.mark .comma, p⟩ :: us'', q, q', rfl, by simp, .cons hty hl⟩
    · obtain ⟨ts₂, hend, heq⟩ := except_map_eq_ok.mp hsplit
      cases heq
      obtain ⟨p, _, rfl, rfl⟩ := expect_eq_ok_iff.mp hend
      exact ⟨us, p, rfl, .inl ⟨rfl, .last hty⟩⟩

end

end TypeTraits
