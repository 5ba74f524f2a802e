import TypeTraits.Proofs.TypeId.Exact

/-!
# `TypeTraits.Proofs.TypeId.WordOrder`: specifier words mean the same in any order

A text of nothing but words of arithmetic types and qualifiers, such as `long const unsigned`, is a
specifier without a declarator. It is read word by word, and each word is checked against those in
front of it. Still the order does not matter: `TypeId.ofText_specifierWords` says that the text is
accepted exactly if the words of arithmetic types, as a multiset, are listed as a spelling, and
that qualifiers may be anywhere among them and be repeated.

The reader is known to accept what the grammar derives, so the work is to say what the grammar
derives from such symbols: words and qualifiers as they are (`Grammar.isWords_iff`), and no other
base and no declarator (`Grammar.isType_iff_of_specifierWords`).
-/

set_option autoImplicit false

namespace TypeTraits

namespace Symbol

/-- Whether the symbol is a word of an arithmetic type or a qualifier. -/
def isSpecifierWord : Symbol → Bool
  | scalar _ => true
  | keyword k => k.qualifier?.isSome
  | _ => false

/-- The word of an arithmetic type that the symbol is. -/
def scalarWord? : Symbol → Option ScalarWord
  | scalar w => some w
  | _ => none

/-- The words of arithmetic types among the symbols. -/
def scalarWords (ss : List Symbol) : List ScalarWord := ss.filterMap scalarWord?

/-- The qualifiers that are among the symbols. -/
def qualifiersAmong (ss : List Symbol) : Qualifiers :=
  ⟨ss.contains (.keyword .const), ss.contains (.keyword .volatile)⟩

/-- A qualifier in front is among the others. -/
theorem qualifiersAmong_keyword {k : Keyword} {q : Qualifiers} (h : k.qualifier? = some q)
    (ss : List Symbol) : qualifiersAmong (.keyword k :: ss) = q.union (qualifiersAmong ss) := by
  cases k <;> cases h <;> simp [qualifiersAmong, Qualifiers.union, Qualifiers.const,
    Qualifiers.volatile]

/-- A word in front is none of them. -/
theorem qualifiersAmong_scalar (w : ScalarWord) (ss : List Symbol) :
    qualifiersAmong (.scalar w :: ss) = qualifiersAmong ss := by
  simp [qualifiersAmong]

/-- Whether a qualifier is there does not depend on the order. -/
theorem qualifiersAmong_eq_of_perm {ss ss' : List Symbol} (h : ss.Perm ss') :
    qualifiersAmong ss = qualifiersAmong ss' := by
  simp only [qualifiersAmong, List.contains_eq_mem, h.mem_iff]

end Symbol

namespace Grammar

open TypeTraits.Symbol

variable {ss : List Symbol}

/-! ### What is derived from specifier words -/

/-- Words and qualifiers are derived from just those symbols, one from each. -/
theorem isWords_iff {ws : List ScalarWord} {q : Qualifiers} :
    IsWords ss ws q ↔
      (∀ s ∈ ss, s.isSpecifierWord = true) ∧ ws = scalarWords ss ∧ q = qualifiersAmong ss := by
  -- By the derivation one way, and by the symbols the other way.
  constructor
  · intro h
    induction h with
    | nil => exact ⟨nofun, rfl, rfl⟩
    | @word w ws q ss _ ih =>
      obtain ⟨hss, rfl, rfl⟩ := ih
      exact ⟨List.forall_mem_cons.mpr ⟨rfl, hss⟩, rfl, (qualifiersAmong_scalar w ss).symm⟩
    | @qualifier k ws q r ss hk _ ih =>
      obtain ⟨hss, rfl, rfl⟩ := ih
      have hword : (Symbol.keyword k).isSpecifierWord = true := Option.isSome_of_eq_some hk
      exact ⟨List.forall_mem_cons.mpr ⟨hword, hss⟩, rfl, (qualifiersAmong_keyword hk ss).symm⟩
  · rintro ⟨hwords, rfl, rfl⟩
    induction ss with
    | nil => exact .nil
    | cons s ss ih =>
      obtain ⟨hs, hss⟩ := List.forall_mem_cons.mp hwords
      cases s with
      | scalar w =>
        rw [qualifiersAmong_scalar]
        exact .word (ih hss)
      | keyword k =>
        obtain ⟨q, hk⟩ := Option.isSome_iff_exists.mp hs
        rw [qualifiersAmong_keyword hk]
        exact .qualifier hk (ih hss)
      | _ => exact nomatch hs

/-- A base that is not arithmetic has a symbol of another kind. -/
theorem IsBase.exists_not_specifierWord {b : Base} (h : IsBase ss b) :
    ∃ s ∈ ss, s.isSpecifierWord = false := by
  cases h <;> exact ⟨_, List.mem_cons_self, rfl⟩

/-- No operators are derived from nothing. -/
theorem IsOps.eq_nil {ops : List PointerOp} (h : IsOps [] ops) : ops = [] := by
  generalize hss : [] = ss at h
  cases h with
  | nil => rfl
  | cons hop _ => exact absurd (List.append_eq_nil_iff.mp hss.symm).1 hop.ne_nil

/-- The declarator that is derived from nothing adds nothing. -/
theorem IsDeclarator.eq_flat_nil {d : Declarator} (h : IsDeclarator [] d) : d = .flat [] [] := by
  generalize hss : [] = ss at h
  cases h with
  | flat hops hsuf =>
    obtain ⟨rfl, rfl⟩ := List.append_eq_nil_iff.mp hss.symm
    cases hops.eq_nil
    cases hsuf
    rfl
  | nested _ _ _ _ => simp at hss

/-- Only the empty declarator is derived from specifier words, and from none of them. -/
theorem IsDeclarator.eq_nil_of_specifierWords {d : Declarator} (h : IsDeclarator ss d)
    (hwords : ∀ s ∈ ss, s.isSpecifierWord = true) : ss = [] ∧ d = .flat [] [] := by
  cases ss with
  | nil => exact ⟨rfl, h.eq_flat_nil⟩
  | cons s ss =>
    have hs := hwords s List.mem_cons_self
    have hbegins : s.beginsOp = true ∨ s.beginsSuffix = true := h.head
    -- Operators and suffixes begin with marks or names.
    cases s with
    | scalar w | keyword k => simp [Symbol.beginsOp, Symbol.beginsSuffix] at hbegins
    | _ => exact nomatch hs

/-- From specifier words the arithmetic type is derived that the words spell, with the
qualifiers that are there, and nothing else. -/
theorem isType_iff_of_specifierWords (hwords : ∀ s ∈ ss, s.isSpecifierWord = true) {t : TypeId} :
    IsType ss t ↔ ∃ k : Scalar, k.isSpelledBy (scalarWords ss) = true ∧
      t = .mk ⟨.scalar k, qualifiersAmong ss, default⟩ (.flat [] []) default := by
  constructor
  · intro h
    cases h with
    | mk hs hd =>
      -- The symbols of the declarator are specifier words too, so it has none.
      obtain ⟨hspec, hdecl⟩ := List.forall_mem_append.mp hwords
      obtain ⟨rfl, rfl⟩ := hd.eq_nil_of_specifierWords hdecl
      cases hs with
      | arithmetic hw hk =>
        obtain ⟨-, rfl, rfl⟩ := isWords_iff.mp hw
        rw [List.append_nil]
        exact ⟨_, hk, rfl⟩
      | other _ hb _ =>
        obtain ⟨s, hs, hnot⟩ := hb.exists_not_specifierWord
        have hword := hspec s (List.mem_append_left _ (List.mem_append_right _ hs))
        rw [hnot] at hword
        exact nomatch hword
  · rintro ⟨k, hk, rfl⟩
    have hs : IsSpecifier ss ⟨.scalar k, qualifiersAmong ss, default⟩ :=
      .arithmetic (isWords_iff.mpr ⟨hwords, rfl, rfl⟩) hk
    have h := IsType.mk hs (.flat .nil .nil)
    rwa [List.append_nil, List.append_nil] at h

end Grammar

/-! ### Texts of specifier words -/

/-- A declarator that adds nothing does so wherever it was read. -/
theorem Declarator.eq_flat_nil_of_mapSpans {f : Span → Span} {d : Declarator}
    (h : d.mapSpans f = .flat [] []) : d = .flat [] [] := by
  cases d with
  | flat ops suffixes =>
    obtain ⟨hops, hsuf⟩ := Declarator.flat.inj h
    cases List.map_eq_nil_iff.mp hops
    cases suffixes with
    | nil => rfl
    | cons s ss => exact nomatch hsuf
  | nested ops inner suffixes => exact nomatch h

namespace TypeId

open Grammar TypeTraits.Symbol

variable {text : String} {s : TokenStream}

/-- A text of specifier words is read as the type that they spell. -/
theorem map_bare_ofText_eq_ok_iff (h : TokenStream.ofText text = .ok s)
    (hwords : ∀ x ∈ symbols s.tokens, x.isSpecifierWord = true) {t : TypeId} :
    (ofText text).map bare = .ok t ↔
      ∃ k : Scalar, k.isSpelledBy (scalarWords (symbols s.tokens)) = true ∧
        t = .mk ⟨.scalar k, qualifiersAmong (symbols s.tokens), default⟩ (.flat [] []) default := by
  rw [← isType_iff_of_specifierWords hwords, ← readAll_bare_eq_ok_iff, ofText, h, except_bind_ok]

/-- In another order the same words are read as the same type, or refused as well. -/
theorem toOption_ofText_eq_of_perm {text' : String} {s' : TokenStream}
    (h : TokenStream.ofText text = .ok s) (h' : TokenStream.ofText text' = .ok s')
    (hperm : (symbols s'.tokens).Perm (symbols s.tokens))
    (hwords : ∀ x ∈ symbols s.tokens, x.isSpecifierWord = true) :
    ((ofText text').map bare).toOption = ((ofText text).map bare).toOption := by
  have hwords' : ∀ x ∈ symbols s'.tokens, x.isSpecifierWord = true :=
    fun x hx => hwords x (hperm.mem_iff.mp hx)
  have hscalars : (scalarWords (symbols s'.tokens)).Perm (scalarWords (symbols s.tokens)) :=
    hperm.filterMap scalarWord?
  refine Option.ext fun t => ?_
  rw [except_toOption_eq_some, except_toOption_eq_some, map_bare_ofText_eq_ok_iff h' hwords',
    map_bare_ofText_eq_ok_iff h hwords, qualifiersAmong_eq_of_perm hperm]
  simp only [Scalar.isSpelledBy_eq_of_perm _ hscalars]

/-- A text of words of arithmetic types and qualifiers is accepted exactly if the words, in some
order, are listed as a spelling of a type. Then it has this type as its base, the qualifiers that
are there, and no declarator. So the same words and qualifiers in another order are read as the
same type, or are refused as well. -/
theorem ofText_specifierWords (h : TokenStream.ofText text = .ok s)
    (hwords : ∀ x ∈ symbols s.tokens, x.isSpecifierWord = true) :
    ((∃ t, ofText text = .ok t) ↔
      ∃ k : Scalar, ∃ ws ∈ k.spellings, ws.Perm (scalarWords (symbols s.tokens))) ∧
    (∀ t, ofText text = .ok t →
      ∀ k : Scalar, (∃ ws ∈ k.spellings, ws.Perm (scalarWords (symbols s.tokens))) →
        t.specifier.base = .scalar k ∧
          t.specifier.quals = qualifiersAmong (symbols s.tokens) ∧ t.declarator = .flat [] []) ∧
    ∀ text' s', TokenStream.ofText text' = .ok s' →
      (symbols s'.tokens).Perm (symbols s.tokens) →
        ((ofText text').map bare).toOption = ((ofText text).map bare).toOption := by
  refine ⟨?_, ?_, fun text' s' h' hperm => toOption_ofText_eq_of_perm h h' hperm hwords⟩
  · simp only [← Scalar.isSpelledBy_iff]
    constructor
    · rintro ⟨t, ht⟩
      have hbare : (ofText text).map bare = .ok t.bare := by rw [ht]; rfl
      obtain ⟨k, hk, -⟩ := (map_bare_ofText_eq_ok_iff h hwords).mp hbare
      exact ⟨k, hk⟩
    · rintro ⟨k, hk⟩
      have hread := (map_bare_ofText_eq_ok_iff h hwords).mpr ⟨k, hk, rfl⟩
      obtain ⟨t, ht, -⟩ := except_map_eq_ok.mp hread
      exact ⟨t, ht⟩
  · intro t ht k hk
    have hread := (map_bare_ofText_eq_ok_iff h hwords).mpr ⟨k, Scalar.isSpelledBy_iff.mpr hk, rfl⟩
    rw [ht] at hread
    have hbare := Except.ok.inj hread
    obtain ⟨spec, d, span⟩ := t
    obtain ⟨hspec, hdecl, -⟩ := TypeId.mk.inj hbare
    refine ⟨congrArg Specifier.base hspec, congrArg Specifier.quals hspec, ?_⟩
    exact Declarator.eq_flat_nil_of_mapSpans hdecl

/-- `long const unsigned const int` is `unsigned long` with `const`, and so it is in another order.
There is no `long char`, with a qualifier between the words or without one. -/
theorem ofText_specifierWords_of_unsigned_long :
    let text := "long const unsigned const int"
    let text' := "const int unsigned\tconst long"
    (∃ t, ofText text = .ok t ∧ t.specifier.base = .scalar .unsignedLong ∧
      t.specifier.quals = .const ∧ t.declarator = .flat [] []) ∧
    ((ofText text').map bare).toOption = ((ofText text).map bare).toOption ∧
    ¬∃ t, ofText "long volatile char" = .ok t := by
  intro text text'
  have h : TokenStream.ofText text = .ok
      ⟨[⟨.scalar .long, ⟨0, 4⟩⟩, ⟨.keyword .const, ⟨5, 10⟩⟩, ⟨.scalar .unsigned, ⟨11, 19⟩⟩,
        ⟨.keyword .const, ⟨20, 25⟩⟩, ⟨.scalar .int, ⟨26, 29⟩⟩], 29⟩ := by
    decide +kernel
  have h' : TokenStream.ofText text' = .ok
      ⟨[⟨.keyword .const, ⟨0, 5⟩⟩, ⟨.scalar .int, ⟨6, 9⟩⟩, ⟨.scalar .unsigned, ⟨10, 18⟩⟩,
        ⟨.keyword .const, ⟨19, 24⟩⟩, ⟨.scalar .long, ⟨25, 29⟩⟩], 29⟩ := by
    decide +kernel
  have hclash : TokenStream.ofText "long volatile char" = .ok
      ⟨[⟨.scalar .long, ⟨0, 4⟩⟩, ⟨.keyword .volatile, ⟨5, 13⟩⟩, ⟨.scalar .char, ⟨14, 18⟩⟩],
        18⟩ := by
    decide +kernel
  obtain ⟨haccept, hmeaning, hperm⟩ := ofText_specifierWords h (by decide)
  obtain ⟨hrefuse, -, -⟩ := ofText_specifierWords hclash (by decide)
  have hspelled : ∃ ws ∈ Scalar.unsignedLong.spellings, ws.Perm [.long, .unsigned, .int] :=
    ⟨[.unsigned, .long, .int], by decide, by decide⟩
  obtain ⟨t, ht⟩ := haccept.mpr ⟨_, hspelled⟩
  refine ⟨⟨t, ht, hmeaning t ht _ hspelled⟩, hperm text' _ h' (by decide), fun haccepted => ?_⟩
  obtain ⟨k, hk⟩ := hrefuse.mp haccepted
  have hnone : ∀ k : Scalar, ¬∃ ws ∈ k.spellings, ws.Perm [.long, .char] := by
    intro k
    cases k <;> decide
  exact hnone k hk

end TypeId

end TypeTraits
