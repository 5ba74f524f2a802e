import TypeTraits.Proofs.TypeId.Follow
import TypeTraits.Proofs.TypeId.Placed

/-!
# `TypeTraits.Proofs.TypeId.Complete`: what is derived is read

Where a rule derives a tree from the first of some tokens, and what stands behind
may stand there, the reading function of the rule gives this tree, places included,
and leaves what stands behind. Fuel of four times the number of tokens is enough, up
to a constant for each rule.

* `readSpecifier_complete`, `readPointerOps_complete`: the parts that hold no types.
* `readTypeId_complete`: types, by mutual induction over the derivations.
-/

set_option autoImplicit false

namespace TypeTraits

open Grammar

/-! ### Qualifiers and words -/

/-- Behind a specifier there are no more qualifiers. -/
theorem readQualifiers_of_follows {ts : List Token} (h : Follows Symbol.endsSpecifier ts) :
    readQualifiers ts = (.none, ts) := by
  refine readQualifiers_eq_self fun k span ts' heq => ?_
  subst heq
  exact nomatch h

/-- Qualifiers are all taken where no more of them stand behind. -/
theorem readQualifiers_complete {ss : List Symbol} {q : Qualifiers} {ts rest : List Token}
    (hq : IsQualifiers ss q) (hr : Reads ss ts rest) (hrest : readQualifiers rest = (.none, rest)) :
    readQualifiers ts = (q, rest) := by
  induction hq generalizing ts with
  | nil => rw [show ts = rest from hr, hrest]
  | cons hk _ ih =>
    obtain ⟨span, ts', rfl, hr'⟩ := hr
    rw [readQualifiers_keyword hk, ih hr']

/-- A run of words ends in front of anything but a word, and in front of qualifiers only
if they are not part of it. -/
theorem readWords_stop {mixed : Bool} {start : Nat} {quals : Qualifiers} {words : List ScalarWord}
    {ts : List Token} (h : Follows Symbol.endsBase ts)
    (hmixed : mixed = true → Follows Symbol.endsSpecifier ts) :
    readWords mixed start quals words ts = .ok ((quals, words), ts) := by
  cases ts with
  | nil => rfl
  | cons t ts =>
    obtain ⟨s, span⟩ := t
    unfold readWords
    cases s with
    | scalar w => exact nomatch h
    | keyword k =>
      cases mixed with
      -- Without qualifiers between the words, any keyword ends them.
      | false => simp only; split <;> rfl
      | true => exact nomatch hmixed rfl
    | _ => rfl

/-- A run of words is read whole. The words so far are part of the induction: a word is
refused when it would be one too many, so all of them together are bounded. -/
theorem readWords_complete {mixed : Bool} {start : Nat} {quals q : Qualifiers}
    {words ws : List ScalarWord} {ss : List Symbol} {ts rest : List Token}
    (hw : IsWords ss ws q) (hr : Reads ss ts rest) (hmixed : mixed = true ∨ ss = ws.map .scalar)
    (hcount : ScalarWord.IsAllowed (words ++ ws))
    (hrest : ∀ quals words, readWords mixed start quals words rest = .ok ((quals, words), rest)) :
    readWords mixed start quals words ts = .ok ((quals.union q, words ++ ws), rest) := by
  induction hw generalizing ts quals words with
  | nil => rw [show ts = rest from hr, hrest, Qualifiers.union_none, List.append_nil]
  | @word w ws q ss _ ih =>
    obtain ⟨span, ts', rfl, hr'⟩ := hr
    have hlt : words.count w < w.allowance := by
      have := hcount w
      simp only [List.count_append, List.count_cons_self] at this
      omega
    unfold readWords
    simp only [hlt, if_true]
    have hmixed' := hmixed.imp_right fun h => (List.cons.inj h).2
    rw [ih hr' hmixed' (by simpa using hcount)]
    simp
  | @qualifier k ws q r ss hk _ ih =>
    obtain ⟨span, ts', rfl, hr'⟩ := hr
    -- A run that has a qualifier in it is not one of words alone.
    have hm : mixed = true := by
      rcases hmixed with h | h
      · exact h
      · cases ws <;> exact nomatch h
    unfold readWords
    simp only [hk, hm, if_true]
    rw [hm] at ih
    rw [ih hr' (.inl rfl) hcount, Qualifiers.union_assoc]

/-! ### Specifiers -/

/-- Words begin with qualifiers and then a word. -/
theorem Grammar.IsWords.exists_scalar {ss : List Symbol} {ws : List ScalarWord} {q : Qualifiers}
    (h : IsWords ss ws q) (hne : ws ≠ []) :
    ∃ before w ss' q₁ q₂, ss = before ++ .scalar w :: ss' ∧ IsQualifiers before q₁ ∧
      IsWords (.scalar w :: ss') ws q₂ ∧ q = q₁.union q₂ := by
  induction h with
  | nil => exact absurd rfl hne
  | @word w ws q ss h _ => exact ⟨[], w, ss, .none, q, rfl, .nil, .word h, by simp⟩
  | qualifier hk _ ih =>
    obtain ⟨before, w, ss', q₁, q₂, rfl, hq, hw, rfl⟩ := ih hne
    exact ⟨_, w, ss', _, q₂, rfl, .cons hk hq, hw, (Qualifiers.union_assoc ..).symm⟩

/-- The scalar behind the colon of an enumeration. -/
theorem readUnderlying_complete {stop : Nat} {ws : List ScalarWord} {k : Scalar}
    {ts rest : List Token} (hk : k.isSpelledBy ws) (hr : Reads (ws.map .scalar) ts rest)
    (hrest : Follows Symbol.endsBase rest) : readUnderlying stop ts = .ok (k, rest) := by
  have hallowed := Scalar.isAllowed_of_isSpelledBy hk
  have hread : readWords false ((ts.head?.map (·.span.start)).getD stop) .none [] ts =
      .ok ((Qualifiers.none.union .none, [] ++ ws), rest) :=
    readWords_complete (isWords_map_scalar ws) hr (.inr rfl) hallowed
      fun _ _ => readWords_stop hrest Bool.noConfusion
  unfold readUnderlying
  simp only
  rw [hread]
  -- `readUnderlying` looks at whether there were words at all.
  obtain ⟨w, ws', rfl⟩ := List.exists_cons_of_ne_nil (Scalar.ne_nil_of_isSpelledBy hk)
  exact except_map_eq_ok.mpr ⟨k, (spelledScalar_eq_ok_iff hallowed).mpr hk, rfl⟩

/-- The key of an enumeration is read in front of its name, whether it is scoped or not. -/
theorem readEnum_of_isEnumKey {stop : Nat} {ss : List Symbol} {isScoped : Bool} {name : String}
    {ts rest : List Token} (hkey : IsEnumKey ss isScoped)
    (hr : Reads (ss ++ [.identifier name]) ts rest) :
    ∃ ts₁, Reads [.identifier name] ts₁ rest ∧
      readEnum stop ts = readEnumName stop isScoped ts₁ := by
  cases hkey with
  | unscoped =>
    obtain ⟨_, _, rfl, rfl⟩ := hr
    exact ⟨_, .cons (.nil _), rfl⟩
  | scopedClass =>
    obtain ⟨_, _, rfl, _, _, rfl, rfl⟩ := hr
    exact ⟨_, .cons (.nil _), rfl⟩
  | scopedStruct =>
    obtain ⟨_, _, rfl, _, _, rfl, rfl⟩ := hr
    exact ⟨_, .cons (.nil _), rfl⟩

/-- A base that is not arithmetic is read whole. Each rule has fixed its first symbols, so
the reading function computes, except where it looks for a colon or `::` behind a name. -/
theorem readBase_complete {stop : Nat} {ss : List Symbol} {b : Base} {ts rest : List Token}
    (hb : IsBase ss b) (hr : Reads ss ts rest) (hrest : Follows Symbol.endsBase rest) :
    readBase stop ts = .ok (b, rest) := by
  cases hb with
  | void =>
    obtain ⟨_, _, rfl, rfl⟩ := hr
    rfl
  | nullptrT =>
    obtain ⟨_, _, rfl, rfl⟩ := hr
    rfl
  | decltype =>
    obtain ⟨_, _, rfl, _, _, rfl, _, _, rfl, _, _, rfl, rfl⟩ := hr
    rfl
  | ofClass =>
    obtain ⟨_, _, rfl, _, _, rfl, rfl⟩ := hr
    rfl
  | ofStruct =>
    obtain ⟨_, _, rfl, _, _, rfl, rfl⟩ := hr
    rfl
  | ofUnion =>
    obtain ⟨_, _, rfl, _, _, rfl, rfl⟩ := hr
    rfl
  | ofEnum hkey =>
    obtain ⟨_, _, rfl, hr'⟩ := hr
    obtain ⟨ts₁, hname, hread⟩ := readEnum_of_isEnumKey hkey hr'
    refine hread.trans ?_
    rw [readEnumName, readIdentifier_eq_ok_iff.mpr hname, except_bind_ok]
    simp only
    split
    · exact nomatch hrest
    · rfl
  | @storedEnum ss isScoped name ws k hkey hk =>
    obtain ⟨_, ts₁, rfl, hr'⟩ := hr
    -- Cut behind the name, where the rule for a key cuts.
    have hcut : Reads ((ss ++ [.identifier name]) ++ .mark .colon :: ws.map .scalar) ts₁ rest := by
      simpa using hr'
    obtain ⟨_, hbefore, span, ts₂, rfl, hwords⟩ := Reads.append_iff.mp hcut
    obtain ⟨ts₃, hname, hread⟩ := readEnum_of_isEnumKey hkey hbefore
    refine hread.trans ?_
    rw [readEnumName, readIdentifier_eq_ok_iff.mpr hname, except_bind_ok]
    exact except_bind_eq_ok.mpr ⟨_, readUnderlying_complete hk hwords hrest, rfl⟩
  | named =>
    obtain ⟨_, ts', rfl, rfl⟩ := hr
    -- A `::` behind the name would not be the end of a base.
    obtain _ | ⟨⟨s, span⟩, ts'⟩ := ts'
    · rfl
    · cases s with
      | mark m => cases m <;> first | rfl | exact nomatch hrest
      | _ => rfl

/-- What may stand behind a specifier is not a second base. -/
theorem refuseBase_of_follows {start : Nat} {ts : List Token}
    (h : Follows Symbol.endsSpecifier ts) : refuseBase start ts = .ok () := by
  cases ts with
  | nil => rfl
  | cons t ts =>
    obtain ⟨s, span⟩ := t
    cases s with
    | scalar w => exact nomatch h
    | keyword k => exact nomatch h
    | _ => rfl

/-- A base begins with neither a qualifier nor a word. -/
theorem Grammar.IsBase.readQualifiers_eq {ss : List Symbol} {b : Base} {ts rest : List Token}
    (hb : IsBase ss b) (hr : Reads ss ts rest) :
    readQualifiers ts = (.none, ts) ∧ ∀ w span ts', ts ≠ ⟨.scalar w, span⟩ :: ts' := by
  cases hb <;> obtain ⟨span, ts', rfl, -⟩ := hr <;> exact ⟨rfl, fun w span ts' h => nomatch h⟩

/-- A specifier is read whole, wherever its qualifiers stand. -/
theorem readSpecifier_complete (stop : Nat) {b : Base} {q : Qualifiers} {us rest : List Token}
    (hs : IsSpecifier (symbols us) ⟨b, q, default⟩) (hrest : Follows Symbol.endsSpecifier rest) :
    readSpecifier stop (us ++ rest) = .ok (⟨b, q, hull us⟩, rest) := by
  have hr := Reads.of_append us rest
  rw [← cover_append us rest]
  generalize symbols us = ss, us ++ rest = ts at hs hr
  unfold readSpecifier
  simp only
  cases hs with
  | arithmetic hw hk =>
    -- The qualifiers in front are read on their own, the others with the words.
    obtain ⟨before, w, ss', q₁, q₂, rfl, hq, hw', rfl⟩ :=
      hw.exists_scalar (Scalar.ne_nil_of_isSpelledBy hk)
    obtain ⟨ts₁, hr₁, hr₂⟩ := Reads.append_iff.mp hr
    obtain ⟨span, ts₂, rfl, -⟩ := id hr₂
    rw [readQualifiers_complete hq hr₁ rfl]
    simp only
    have hallowed := Scalar.isAllowed_of_isSpelledBy hk
    rw [readWords_complete hw' hr₂ (.inl rfl) (show ScalarWord.IsAllowed ([] ++ _) from hallowed)
      (fun _ _ => readWords_stop hrest.endsBase fun _ => hrest)]
    rw [except_bind_ok, refuseBase_of_follows hrest, except_bind_ok, List.nil_append,
      (spelledScalar_eq_ok_iff hallowed).mpr hk, except_bind_ok]
    rfl
  | other hq hb hq' =>
    obtain ⟨ts₂, hr, hr₃⟩ := Reads.append_iff.mp hr
    obtain ⟨ts₁, hr₁, hr₂⟩ := Reads.append_iff.mp hr
    obtain ⟨hstop, hscalar⟩ := hb.readQualifiers_eq hr₂
    rw [readQualifiers_complete hq hr₁ hstop]
    -- `hscalar` is what rules out the branch for words.
    simp only
    rw [readBase_complete hb hr₂ (hq'.follows_endsBase hr₃ hrest), except_bind_ok,
      readQualifiers_complete hq' hr₃ (readQualifiers_of_follows hrest),
      refuseBase_of_follows hrest, except_bind_ok]
    rfl

/-! ### Declarators -/

/-- Operators are read whole, with a unit of fuel for each and one for the end. -/
theorem readPointerOps_complete (stop fuel : Nat) (rest : List Token) {us : List Token}
    {ops : List PointerOp} (h : Placed.IsOps us ops) (hrest : Follows Symbol.endsOps rest)
    (hfuel : us.length < fuel) :
    readPointerOps stop fuel (us ++ rest) = .ok (ops, rest) := by
  induction h generalizing fuel with
  | nil =>
    obtain ⟨fuel, rfl⟩ := Nat.exists_eq_succ_of_ne_zero (Nat.ne_of_gt hfuel)
    exact readPointerOps_eq_nil hrest.not_beginsOp
  | @cons us us' k ops hop hops ih =>
    obtain ⟨fuel, rfl⟩ := Nat.exists_eq_succ_of_ne_zero (Nat.ne_of_gt (Nat.zero_lt_of_lt hfuel))
    -- An operator has a symbol, so the others have fuel enough.
    have hlen : 1 ≤ us.length := by
      have hpos := List.length_pos_of_ne_nil hop.ne_nil
      rwa [symbols, List.length_map] at hpos
    rw [List.length_append] at hfuel
    have hread := ih fuel (by omega)
    have hmid := hops.erase.follows (Reads.of_append us' rest) hrest
    have hq := readQualifiers_of_follows hmid
    have hr := Reads.of_append us (us' ++ rest)
    rw [List.append_assoc, ← cover_append us (us' ++ rest)]
    generalize symbols us = ss, us ++ (us' ++ rest) = ts at hop hr
    unfold readPointerOps
    simp only
    cases hop with
    | pointer hquals =>
      obtain ⟨span, ts₁, rfl, hr⟩ := hr
      simp only [readQualifiers_complete hquals hr hq]
      rw [hread, except_bind_ok]
      rfl
    | lvalueRef =>
      obtain ⟨span, ts₁, rfl, rfl⟩ := hr
      simp only
      rw [hread, except_bind_ok]
      rfl
    | rvalueRef =>
      obtain ⟨span, ts₁, rfl, rfl⟩ := hr
      simp only
      rw [hread, except_bind_ok]
      rfl
    | member hquals =>
      obtain ⟨span, ts₁, rfl, span', ts₂, rfl, span'', ts₃, rfl, hr⟩ := hr
      simp only
      rw [expect_eq_ok_iff.mpr (.cons (.nil ts₃)), except_bind_ok]
      simp only [readQualifiers_complete hquals hr hq]
      rw [hread, except_bind_ok]
      rfl

/-- The bound of an array is read up to its bracket. -/
theorem readBound_complete {stop : Nat} {ss : List Symbol} {bound : Option Nat}
    {ts rest : List Token} (h : IsBound ss bound)
    (hr : Reads (ss ++ [.mark .rightBracket]) ts rest) :
    readBound stop ts = .ok (bound, rest) := by
  cases h with
  | unknown =>
    obtain ⟨span, ts', rfl, rfl⟩ := hr
    rfl
  | known hlt =>
    obtain ⟨span, ts', rfl, hr⟩ := hr
    unfold readBound
    simp only [size?, hlt, if_true]
    exact except_map_eq_ok.mpr ⟨_, expect_eq_ok_iff.mpr hr, rfl⟩

/-- Types are read as a list unless one of the short forms stands there. -/
theorem readParams_eq_readParamList {stop fuel : Nat} {ss ss' : List Symbol} {s : Symbol}
    {types : List TypeId} {ts rest : List Token} (h : IsTypes ss types)
    (hr : Reads (ss ++ s :: ss') ts rest)
    (hvoid : ss = [.keyword .void] → s ≠ .mark .rightParen) :
    readParams stop (fuel + 1) ts = readParamList stop fuel ts := by
  obtain ⟨x, ss₁, rfl, hx⟩ := h.head
  obtain ⟨span, ts₁, rfl, hr⟩ := hr
  unfold readParams
  split
  · next heq =>
    -- `void` and `)`: either the whole list and what is behind it, which `hvoid`
    -- excludes, or the beginning of a longer list.
    cases heq
    obtain _ | ⟨y, ss₁⟩ := ss₁
    · obtain ⟨_, _, heq, -⟩ := hr
      cases heq
      exact absurd rfl (hvoid rfl)
    · obtain ⟨_, _, heq, -⟩ := hr
      cases heq
      exact absurd rfl h.ne_void_close
  · next heq =>
    cases heq
    exact nomatch hx
  · next heq =>
    cases heq
    exact nomatch hx
  · rfl

/-! ### Types

The constants in the bounds on the fuel are chosen so that each call leaves enough
for those that it makes: a function that hands all of its tokens on to another has
the greater constant, and where a token was taken before the call, four units are
free. -/

mutual

/-- A type is read where it is derived. -/
theorem readTypeId_complete (stop : Nat) : ∀ {us : List Token} {t : TypeId}, Placed.IsType us t →
    ∀ (fuel : Nat) (rest : List Token), Follows Symbol.endsType rest → 4 * us.length ≤ fuel →
    readTypeId stop fuel (us ++ rest) = .ok (t, rest)
  | _, _, @Placed.IsType.mk us us' _ _ _ hs hd, fuel, rest, hrest, hfuel => by
    -- The specifier takes a token, so there is fuel left for the declarator.
    have hlen : 1 ≤ us.length := by
      obtain ⟨x, ss, hus, -⟩ := hs.head
      obtain ⟨p, vs, rfl, -⟩ := exists_cons_of_symbols hus
      exact Nat.succ_pos _
    rw [List.length_append] at hfuel
    obtain ⟨fuel, rfl⟩ := Nat.exists_eq_succ_of_ne_zero (show fuel ≠ 0 by omega)
    have hmid := hd.erase.follows (Reads.of_append us' rest) hrest
    rw [readTypeId, List.append_assoc, readSpecifier_complete stop hs hmid, except_bind_ok]
    simp only
    rw [readDeclarator_complete stop hd fuel rest hrest (by omega), except_bind_ok,
      ← List.append_assoc, cover_append]
    rfl

/-- A declarator is read where it is derived. -/
theorem readDeclarator_complete (stop : Nat) : ∀ {us : List Token} {d : Declarator},
    Placed.IsDeclarator us d → ∀ (fuel : Nat) (rest : List Token),
    Follows Symbol.endsType rest → 4 * us.length + 2 ≤ fuel →
    readDeclarator stop fuel (us ++ rest) = .ok (d, rest)
  | _, _, @Placed.IsDeclarator.flat _ us' _ _ hops hsuf, fuel, rest, hrest, hfuel => by
    rw [List.length_append] at hfuel
    obtain ⟨fuel, rfl⟩ := Nat.exists_eq_succ_of_ne_zero (show fuel ≠ 0 by omega)
    have hr := Reads.of_append us' rest
    rw [readDeclarator, List.append_assoc,
      readPointerOps_complete stop fuel _ hops (hsuf.erase.follows hr hrest) (by omega),
      except_bind_ok]
    simp only [hsuf.erase.not_opensDeclarator hr hrest]
    rw [if_neg Bool.noConfusion, readSuffixes_complete stop hsuf fuel rest hrest (by omega),
      except_bind_ok]
    rfl
  | _, _, @Placed.IsDeclarator.nested _ us' us'' p p' _ _ _ hops hin hne hsuf, fuel, rest, hrest,
      hfuel => by
    simp only [List.length_append, List.length_cons] at hfuel
    obtain ⟨fuel, rfl⟩ := Nat.exists_eq_succ_of_ne_zero (show fuel ≠ 0 by omega)
    -- The declarator inside has an operator, so the parenthesis is taken for its own.
    have hbegins : BeginsOp (us' ++ ⟨.mark .rightParen, p'⟩ :: (us'' ++ rest)) := by
      refine hin.erase.beginsOp (fun h => hne ?_) (Reads.of_append us' _)
      exact List.map_eq_nil_iff.mp ((Declarator.ops_bare _).symm.trans h)
    have hopens := opensDeclarator_iff.mpr ⟨p, _, rfl, hbegins⟩
    have hreads := readPointerOps_complete stop fuel
      (⟨.mark .leftParen, p⟩ :: (us' ++ ⟨.mark .rightParen, p'⟩ :: (us'' ++ rest))) hops rfl
      (by omega)
    have hreads' := readDeclarator_complete stop hin fuel
      (⟨.mark .rightParen, p'⟩ :: (us'' ++ rest)) rfl (by omega)
    simp only [List.append_assoc, List.cons_append]
    rw [readDeclarator, hreads, except_bind_ok]
    simp only
    rw [if_pos hopens, List.tail_cons, hreads', except_bind_ok]
    simp only
    rw [expect_eq_ok_iff.mpr (.cons (.nil _)), except_bind_ok,
      readSuffixes_complete stop hsuf fuel rest hrest (by omega), except_bind_ok]
    rfl

/-- Suffixes are read where they are derived. -/
theorem readSuffixes_complete (stop : Nat) : ∀ {us : List Token} {suffixes : List Suffix},
    Placed.IsSuffixes us suffixes → ∀ (fuel : Nat) (rest : List Token),
    Follows Symbol.endsType rest → 4 * us.length + 1 ≤ fuel →
    readSuffixes stop fuel (us ++ rest) = .ok (suffixes, rest)
  | _, _, .nil, fuel, rest, hrest, hfuel => by
    obtain ⟨fuel, rfl⟩ := Nat.exists_eq_succ_of_ne_zero (show fuel ≠ 0 by omega)
    rw [List.nil_append]
    unfold readSuffixes
    -- What may stand behind a type opens no suffix.
    split
    · exact nomatch hrest
    · exact nomatch hrest
    · rfl
  | _, _, @Placed.IsSuffixes.array us us' _ p' _ _ hb hsuf, fuel, rest, hrest, hfuel => by
    simp only [List.length_append, List.length_cons] at hfuel
    obtain ⟨fuel, rfl⟩ := Nat.exists_eq_succ_of_ne_zero (show fuel ≠ 0 by omega)
    have hr := (Reads.of_append us (⟨.mark .rightBracket, p'⟩ :: (us' ++ rest))).append
      (.cons (.nil (us' ++ rest)))
    simp only [List.append_assoc, List.cons_append]
    rw [readSuffixes, readBound_complete hb hr, except_bind_ok]
    simp only
    rw [readSuffixes_complete stop hsuf fuel rest hrest (by omega), except_bind_ok, cover_bracketed]
    rfl
  | _, _, .function hp hsuf, fuel, rest, hrest, hfuel => by
    simp only [List.length_append, List.length_cons] at hfuel
    obtain ⟨fuel, rfl⟩ := Nat.exists_eq_succ_of_ne_zero (show fuel ≠ 0 by omega)
    simp only [List.append_assoc, List.cons_append]
    rw [readSuffixes, readParams_complete stop hp fuel _ _ (by omega), except_bind_ok]
    simp only
    rw [readSuffixes_complete stop hsuf fuel rest hrest (by omega), except_bind_ok, cover_bracketed]
    rfl

/-- Parameters are read up to their closing parenthesis. -/
theorem readParams_complete (stop : Nat) : ∀ {us : List Token} {params : List TypeId}
    {isVariadic : Bool}, Placed.IsParams us params isVariadic →
    ∀ (fuel : Nat) (p : Span) (rest : List Token), 4 * us.length + 2 ≤ fuel →
    readParams stop fuel (us ++ ⟨.mark .rightParen, p⟩ :: rest) = .ok ((params, isVariadic), rest)
  | _, _, _, .nothing, fuel, p, rest, hfuel => by
    obtain ⟨fuel, rfl⟩ := Nat.exists_eq_succ_of_ne_zero (show fuel ≠ 0 by omega)
    rfl
  | _, _, _, .void, fuel, p, rest, hfuel => by
    obtain ⟨fuel, rfl⟩ := Nat.exists_eq_succ_of_ne_zero (show fuel ≠ 0 by omega)
    rfl
  | _, _, _, .ellipsis, fuel, p, rest, hfuel => by
    obtain ⟨fuel, rfl⟩ := Nat.exists_eq_succ_of_ne_zero (show fuel ≠ 0 by omega)
    rfl
  | us, _, _, .list hts hne, fuel, p, rest, hfuel => by
    obtain ⟨fuel, rfl⟩ := Nat.exists_eq_succ_of_ne_zero (show fuel ≠ 0 by omega)
    have hr := (Reads.of_append us (⟨.mark .rightParen, p⟩ :: rest)).append (.cons (.nil rest))
    -- The list is not `void` alone, so it is read as a list.
    rw [readParams_eq_readParamList hts.erase hr fun h => absurd h hne]
    exact readParamList_complete stop hts fuel (.inl ⟨rfl, rfl⟩) (by omega)
  | _, _, _, @Placed.IsParams.variadic us p₁ p₂ _ hts, fuel, p, rest, hfuel => by
    obtain ⟨fuel, rfl⟩ := Nat.exists_eq_succ_of_ne_zero (show fuel ≠ 0 by omega)
    rw [List.length_append] at hfuel
    have hr := (Reads.of_append us
      (⟨.mark .comma, p₁⟩ :: ⟨.mark .ellipsis, p₂⟩ :: ⟨.mark .rightParen, p⟩ :: rest)).append
      (.cons (.cons (.cons (.nil rest))))
    rw [List.append_assoc, List.cons_append, List.cons_append, List.nil_append,
      readParams_eq_readParamList hts.erase hr fun _ => by decide]
    exact readParamList_complete stop hts fuel (.inr ⟨rfl, _, _, rfl⟩) (by omega)

/-- A list of parameters is read up to the closing parenthesis, with `, ...` in front of it
when the list is variadic. -/
theorem readParamList_complete (stop : Nat) : ∀ {us : List Token} {params : List TypeId},
    Placed.IsTypes us params →
    ∀ {isVariadic : Bool} (fuel : Nat) {p : Span} {mid rest : List Token},
    (isVariadic = false ∧ mid = ⟨.mark .rightParen, p⟩ :: rest ∨ isVariadic = true ∧ ∃ p₁ p₂,
      mid = ⟨.mark .comma, p₁⟩ :: ⟨.mark .ellipsis, p₂⟩ :: ⟨.mark .rightParen, p⟩ :: rest) →
    4 * us.length + 1 ≤ fuel →
    readParamList stop fuel (us ++ mid) = .ok ((params, isVariadic), rest)
  | _, _, .last ht, isVariadic, fuel, p, mid, rest, hend, hfuel => by
    obtain ⟨fuel, rfl⟩ := Nat.exists_eq_succ_of_ne_zero (show fuel ≠ 0 by omega)
    have hmid : Follows Symbol.endsType mid := by
      rcases hend with ⟨-, rfl⟩ | ⟨-, _, _, rfl⟩ <;> rfl
    rw [readParamList, readTypeId_complete stop ht fuel _ hmid (by omega), except_bind_ok]
    rcases hend with ⟨rfl, rfl⟩ | ⟨rfl, _, _, rfl⟩
    · rfl
    · rfl
  | _, _, @Placed.IsTypes.cons _ us' p' _ _ ht hts, isVariadic, fuel, p, mid, rest, hend,
      hfuel => by
    obtain ⟨fuel, rfl⟩ := Nat.exists_eq_succ_of_ne_zero (show fuel ≠ 0 by omega)
    simp only [List.length_append, List.length_cons] at hfuel
    have hread := readTypeId_complete stop ht fuel (⟨.mark .comma, p'⟩ :: (us' ++ mid)) rfl
      (by omega)
    have hreads := readParamList_complete stop hts fuel hend (by omega)
    rw [List.append_assoc, List.cons_append, readParamList, hread, except_bind_ok]
    -- Behind the comma is a type, so it is not the comma of an ellipsis.
    obtain ⟨x, ss, hus', hx⟩ := hts.erase.head
    obtain ⟨span', us'', rfl, -⟩ := exists_cons_of_symbols hus'
    rw [List.cons_append] at hreads ⊢
    simp only
    split
    · next heq =>
      cases heq
      exact nomatch hx
    · next heq =>
      cases heq
      rw [hreads, except_bind_ok]
      rfl
    · next h =>
      exact absurd rfl (h _ _)

end

end TypeTraits
