import TypeTraits.Proofs.Token.Places

/-!
# `TypeTraits.Proofs.TypeId.Placed`: the grammar with places

The same grammar as in `TypeTraits.Proofs.TypeId.Grammar`, this time between tokens and
trees with spans: what is derived from some tokens has the span that runs from the first
of them to the last (`hull`). The rules without types inside are those of the grammar, put
to the symbols of the tokens.

The two grammars derive the same trees up to places, and places follow from the tokens.

* `Placed.IsType.erase`, `Grammar.IsType.place`: from one grammar to the other.
* `Placed.IsType.span_eq`: the span of a type is that of its tokens.
* `Placed.IsType.shiftLeft`: where the tokens go, the type goes.
-/

set_option autoImplicit false

namespace TypeTraits

/-- The symbols of tokens behind one another are behind one another. -/
theorem symbols_append (us us' : List Token) : symbols (us ++ us') = symbols us ++ symbols us' :=
  List.map_append

/-- The symbol of the first token is the first symbol. -/
theorem symbols_cons (t : Token) (us : List Token) : symbols (t :: us) = t.symbol :: symbols us :=
  rfl

/-- Tokens with symbols in two parts are two parts. -/
theorem exists_append_of_symbols {us : List Token} {ss ss' : List Symbol}
    (h : symbols us = ss ++ ss') : ∃ vs vs', us = vs ++ vs' ∧ symbols vs = ss ∧ symbols vs' = ss' :=
  List.map_eq_append_iff.mp h

/-- The token of the first symbol. -/
theorem exists_cons_of_symbols {us : List Token} {s : Symbol} {ss : List Symbol}
    (h : symbols us = s :: ss) : ∃ span vs, us = ⟨s, span⟩ :: vs ∧ symbols vs = ss := by
  obtain ⟨t, vs, rfl, rfl, hvs⟩ := List.map_eq_cons_iff.mp h
  exact ⟨t.span, vs, rfl, hvs⟩

namespace Placed

/-- Any number of pointer operators. -/
inductive IsOps : List Token → List PointerOp → Prop
  | nil : IsOps [] []
  | cons {us us' : List Token} {k : PointerKind} {ops : List PointerOp} :
    Grammar.IsOp (symbols us) k → IsOps us' ops → IsOps (us ++ us') (⟨k, hull us⟩ :: ops)

mutual

/-- Types. -/
inductive IsType : List Token → TypeId → Prop
  | mk {us us' : List Token} {b : Base} {q : Qualifiers} {d : Declarator} :
    Grammar.IsSpecifier (symbols us) ⟨b, q, default⟩ → IsDeclarator us' d →
    IsType (us ++ us') (.mk ⟨b, q, hull us⟩ d (hull (us ++ us')))

/-- Declarators. -/
inductive IsDeclarator : List Token → Declarator → Prop
  | flat {us us' : List Token} {ops : List PointerOp} {suffixes : List Suffix} :
    IsOps us ops → IsSuffixes us' suffixes → IsDeclarator (us ++ us') (.flat ops suffixes)
  | nested {us us' us'' : List Token} {p p' : Span} {ops : List PointerOp} {inner : Declarator}
      {suffixes : List Suffix} :
    IsOps us ops → IsDeclarator us' inner → inner.ops ≠ [] → IsSuffixes us'' suffixes →
    IsDeclarator (us ++ ⟨.mark .leftParen, p⟩ :: (us' ++ ⟨.mark .rightParen, p'⟩ :: us''))
      (.nested ops inner suffixes)

/-- Any number of suffixes. -/
inductive IsSuffixes : List Token → List Suffix → Prop
  | nil : IsSuffixes [] []
  | array {us us' : List Token} {p p' : Span} {bound : Option Nat} {suffixes : List Suffix} :
    Grammar.IsBound (symbols us) bound → IsSuffixes us' suffixes →
    IsSuffixes (⟨.mark .leftBracket, p⟩ :: us ++ ⟨.mark .rightBracket, p'⟩ :: us')
      (.array bound ⟨p.start, p'.stop⟩ :: suffixes)
  | function {us us' : List Token} {p p' : Span} {params : List TypeId} {isVariadic : Bool}
      {suffixes : List Suffix} :
    IsParams us params isVariadic → IsSuffixes us' suffixes →
    IsSuffixes (⟨.mark .leftParen, p⟩ :: us ++ ⟨.mark .rightParen, p'⟩ :: us')
      (.function params isVariadic ⟨p.start, p'.stop⟩ :: suffixes)

/-- Parameters and whether more may follow. -/
inductive IsParams : List Token → List TypeId → Bool → Prop
  | nothing : IsParams [] [] false
  | void {p : Span} : IsParams [⟨.keyword .void, p⟩] [] false
  | ellipsis {p : Span} : IsParams [⟨.mark .ellipsis, p⟩] [] true
  | list {us : List Token} {params : List TypeId} :
    IsTypes us params → symbols us ≠ [.keyword .void] → IsParams us params false
  | variadic {us : List Token} {p p' : Span} {params : List TypeId} :
    IsTypes us params → IsParams (us ++ [⟨.mark .comma, p⟩, ⟨.mark .ellipsis, p'⟩]) params true

/-- One or more types with commas between them. -/
inductive IsTypes : List Token → List TypeId → Prop
  | last {us : List Token} {t : TypeId} : IsType us t → IsTypes us [t]
  | cons {us us' : List Token} {p : Span} {t : TypeId} {ts : List TypeId} :
    IsType us t → IsTypes us' ts → IsTypes (us ++ ⟨.mark .comma, p⟩ :: us') (t :: ts)

end

/-- The span of a type is that of its tokens. -/
theorem IsType.span_eq {us : List Token} {t : TypeId} (h : IsType us t) : t.span = hull us := by
  cases h
  rfl

/-! ### Without places -/

/-- Operators that are derived with places are derived without them. -/
theorem IsOps.erase {us : List Token} {ops : List PointerOp} (h : IsOps us ops) :
    Grammar.IsOps (symbols us) (PointerOp.bareEach ops) := by
  induction h with
  | nil => exact .nil
  | cons hop _ ih =>
    rw [symbols_append]
    exact .cons hop ih

mutual

/-- A type that is derived with places is derived without them. -/
theorem IsType.erase : ∀ {us : List Token} {t : TypeId}, IsType us t →
    Grammar.IsType (symbols us) t.bare
  | _, _, .mk hs hd => by
    rw [symbols_append]
    exact .mk hs hd.erase

/-- So is a declarator. -/
theorem IsDeclarator.erase : ∀ {us : List Token} {d : Declarator}, IsDeclarator us d →
    Grammar.IsDeclarator (symbols us) d.bare
  | _, _, .flat hops hsuf => by
    rw [symbols_append]
    exact .flat hops.erase hsuf.erase
  | _, _, .nested hops hin hne hsuf => by
    rw [symbols_append, symbols_cons, symbols_append, symbols_cons]
    refine .nested hops.erase hin.erase (fun h => hne ?_) hsuf.erase
    exact List.map_eq_nil_iff.mp ((Declarator.ops_bare _).symm.trans h)

/-- So are suffixes. -/
theorem IsSuffixes.erase : ∀ {us : List Token} {suffixes : List Suffix}, IsSuffixes us suffixes →
    Grammar.IsSuffixes (symbols us) (Suffix.bareEach suffixes)
  | _, _, .nil => .nil
  | _, _, .array hb hsuf => by
    rw [symbols_append, symbols_cons]
    exact .array hb hsuf.erase
  | _, _, .function hp hsuf => by
    rw [symbols_append, symbols_cons]
    exact .function hp.erase hsuf.erase

/-- So are parameters in parentheses. -/
theorem IsParams.erase : ∀ {us : List Token} {params : List TypeId} {v : Bool},
    IsParams us params v → Grammar.IsParams (symbols us) (TypeId.bareEach params) v
  | _, _, _, .nothing => .nothing
  | _, _, _, .void => .void
  | _, _, _, .ellipsis => .ellipsis
  | _, _, _, .list hts hne => .list hts.erase hne
  | _, _, _, .variadic hts => by
    rw [symbols_append]
    exact .variadic hts.erase

/-- So is a list of types. -/
theorem IsTypes.erase : ∀ {us : List Token} {ts : List TypeId}, IsTypes us ts →
    Grammar.IsTypes (symbols us) (TypeId.bareEach ts)
  | _, _, .last ht => .last ht.erase
  | _, _, .cons ht hts => by
    rw [symbols_append, symbols_cons]
    exact .cons ht.erase hts.erase

end

end Placed

/-! ### Other places -/

namespace Placed

variable (n : Nat)

/-- Operators have their places further to the left with their tokens. -/
theorem IsOps.shiftLeft {us : List Token} {ops : List PointerOp} (h : IsOps us ops) :
    IsOps (us.map (Token.shiftLeft n)) (ops.map (·.mapSpan (Span.shiftLeft n))) := by
  induction h with
  | nil => exact .nil
  | @cons us us' k ops hop _ ih =>
    rw [List.map_append, List.map_cons, PointerOp.mapSpan, ← hull_map_shiftLeft]
    exact .cons (by rwa [symbols_map_shiftLeft]) ih

mutual

/-- Tokens that stand further to the left derive the type with places further to the left. -/
theorem IsType.shiftLeft : ∀ {us : List Token} {t : TypeId}, IsType us t →
    IsType (us.map (Token.shiftLeft n)) (t.mapSpans (Span.shiftLeft n))
  | _, _, @IsType.mk us us' _ _ _ hs hd => by
    rw [TypeId.mapSpans, Specifier.mapSpan, ← hull_map_shiftLeft, ← hull_map_shiftLeft,
      List.map_append]
    exact .mk (by rwa [symbols_map_shiftLeft]) hd.shiftLeft

/-- So has a declarator. -/
theorem IsDeclarator.shiftLeft : ∀ {us : List Token} {d : Declarator}, IsDeclarator us d →
    IsDeclarator (us.map (Token.shiftLeft n)) (d.mapSpans (Span.shiftLeft n))
  | _, _, .flat hops hsuf => by
    rw [List.map_append]
    exact .flat (hops.shiftLeft n) hsuf.shiftLeft
  | _, _, @IsDeclarator.nested _ _ _ _ _ _ inner _ hops hin hne hsuf => by
    rw [List.map_append, List.map_cons, List.map_append, List.map_cons]
    refine .nested (hops.shiftLeft n) hin.shiftLeft (fun h => hne ?_) hsuf.shiftLeft
    cases inner <;> exact List.map_eq_nil_iff.mp h

/-- So have suffixes. -/
theorem IsSuffixes.shiftLeft : ∀ {us : List Token} {suffixes : List Suffix},
    IsSuffixes us suffixes →
    IsSuffixes (us.map (Token.shiftLeft n)) (Suffix.mapSpansEach (Span.shiftLeft n) suffixes)
  | _, _, .nil => .nil
  | _, _, .array hb hsuf => by
    rw [List.map_append, List.map_cons, List.map_cons]
    exact .array (by rwa [symbols_map_shiftLeft]) hsuf.shiftLeft
  | _, _, .function hp hsuf => by
    rw [List.map_append, List.map_cons, List.map_cons]
    exact .function hp.shiftLeft hsuf.shiftLeft

/-- So have parameters in parentheses. -/
theorem IsParams.shiftLeft : ∀ {us : List Token} {params : List TypeId} {v : Bool},
    IsParams us params v →
    IsParams (us.map (Token.shiftLeft n)) (TypeId.mapSpansEach (Span.shiftLeft n) params) v
  | _, _, _, .nothing => .nothing
  | _, _, _, .void => .void
  | _, _, _, .ellipsis => .ellipsis
  | _, _, _, .list hts hne => .list hts.shiftLeft (by rwa [symbols_map_shiftLeft])
  | _, _, _, .variadic hts => by
    rw [List.map_append]
    exact .variadic hts.shiftLeft

/-- So has a list of types. -/
theorem IsTypes.shiftLeft : ∀ {us : List Token} {ts : List TypeId}, IsTypes us ts →
    IsTypes (us.map (Token.shiftLeft n)) (TypeId.mapSpansEach (Span.shiftLeft n) ts)
  | _, _, .last ht => .last ht.shiftLeft
  | _, _, .cons ht hts => by
    rw [List.map_append, List.map_cons]
    exact .cons ht.shiftLeft hts.shiftLeft

end

end Placed

/-! ### With places -/

namespace Grammar

/-- The grammar's specifiers have no places. -/
theorem IsSpecifier.exists_eq {ss : List Symbol} {s : Specifier} (h : IsSpecifier ss s) :
    ∃ b q, s = ⟨b, q, default⟩ := by
  cases h <;> exact ⟨_, _, rfl⟩

/-- Operators that are derived from symbols have places in any tokens with these symbols. -/
theorem IsOps.place {ss : List Symbol} {ops : List PointerOp} (h : IsOps ss ops)
    {us : List Token} (hus : symbols us = ss) :
    ∃ ops', Placed.IsOps us ops' ∧ PointerOp.bareEach ops' = ops := by
  induction h generalizing us with
  | nil =>
    rw [List.map_eq_nil_iff.mp hus]
    exact ⟨[], .nil, rfl⟩
  | cons hop _ ih =>
    obtain ⟨vs, vs', rfl, rfl, hvs'⟩ := exists_append_of_symbols hus
    obtain ⟨ops', hops, rfl⟩ := ih hvs'
    exact ⟨_, .cons hop hops, rfl⟩

mutual

/-- A type that is derived from the symbols of tokens is derived from the tokens, with the
places that they give it. -/
theorem IsType.place : ∀ {ss : List Symbol} {t : TypeId}, IsType ss t →
    ∀ {us : List Token}, symbols us = ss → ∃ t', Placed.IsType us t' ∧ t'.bare = t
  | _, _, .mk (s := s) hs hd, us, hus => by
    obtain ⟨vs, vs', rfl, rfl, hvs'⟩ := exists_append_of_symbols hus
    obtain ⟨d', hd', rfl⟩ := hd.place hvs'
    obtain ⟨b, q, rfl⟩ := hs.exists_eq
    exact ⟨_, .mk hs hd', rfl⟩

/-- So has a declarator. -/
theorem IsDeclarator.place : ∀ {ss : List Symbol} {d : Declarator}, IsDeclarator ss d →
    ∀ {us : List Token}, symbols us = ss → ∃ d', Placed.IsDeclarator us d' ∧ d'.bare = d
  | _, _, .flat hops hsuf, us, hus => by
    obtain ⟨vs, vs', rfl, hvs, hvs'⟩ := exists_append_of_symbols hus
    obtain ⟨ops', hops', rfl⟩ := hops.place hvs
    obtain ⟨suf', hsuf', rfl⟩ := hsuf.place hvs'
    exact ⟨_, .flat hops' hsuf', rfl⟩
  | _, _, .nested hops hin hne hsuf, us, hus => by
    obtain ⟨vs, us₁, rfl, hvs, h₁⟩ := exists_append_of_symbols hus
    obtain ⟨p, us₂, rfl, h₂⟩ := exists_cons_of_symbols h₁
    obtain ⟨vs', us₃, rfl, hvs', h₃⟩ := exists_append_of_symbols h₂
    obtain ⟨p', vs'', rfl, hvs''⟩ := exists_cons_of_symbols h₃
    obtain ⟨ops', hops', rfl⟩ := hops.place hvs
    obtain ⟨in', hin', rfl⟩ := hin.place hvs'
    obtain ⟨suf', hsuf', rfl⟩ := hsuf.place hvs''
    -- With or without places, there are as many operators in the parentheses.
    refine ⟨_, .nested hops' hin' (fun h => hne ?_) hsuf', rfl⟩
    rw [Declarator.ops_bare, h]
    rfl

/-- So have suffixes. -/
theorem IsSuffixes.place : ∀ {ss : List Symbol} {suffixes : List Suffix}, IsSuffixes ss suffixes →
    ∀ {us : List Token}, symbols us = ss →
    ∃ suffixes', Placed.IsSuffixes us suffixes' ∧ Suffix.bareEach suffixes' = suffixes
  | _, _, .nil, us, hus => by
    rw [List.map_eq_nil_iff.mp hus]
    exact ⟨[], .nil, rfl⟩
  | _, _, .array hb hsuf, us, hus => by
    obtain ⟨p, us₁, rfl, h₁⟩ := exists_cons_of_symbols hus
    obtain ⟨vs, us₂, rfl, rfl, h₂⟩ := exists_append_of_symbols h₁
    obtain ⟨p', vs', rfl, hvs'⟩ := exists_cons_of_symbols h₂
    obtain ⟨suf', hsuf', rfl⟩ := hsuf.place hvs'
    exact ⟨_, .array hb hsuf', rfl⟩
  | _, _, .function hp hsuf, us, hus => by
    obtain ⟨p, us₁, rfl, h₁⟩ := exists_cons_of_symbols hus
    obtain ⟨vs, us₂, rfl, hvs, h₂⟩ := exists_append_of_symbols h₁
    obtain ⟨p', vs', rfl, hvs'⟩ := exists_cons_of_symbols h₂
    obtain ⟨ps', hp', rfl⟩ := hp.place hvs
    obtain ⟨suf', hsuf', rfl⟩ := hsuf.place hvs'
    exact ⟨_, .function hp' hsuf', rfl⟩

/-- So have parameters in parentheses. -/
theorem IsParams.place : ∀ {ss : List Symbol} {params : List TypeId} {v : Bool},
    IsParams ss params v → ∀ {us : List Token}, symbols us = ss →
    ∃ params', Placed.IsParams us params' v ∧ TypeId.bareEach params' = params
  | _, _, _, .nothing, us, hus => by
    rw [List.map_eq_nil_iff.mp hus]
    exact ⟨[], .nothing, rfl⟩
  | _, _, _, .void, us, hus => by
    obtain ⟨p, us₁, rfl, h₁⟩ := exists_cons_of_symbols hus
    rw [List.map_eq_nil_iff.mp h₁]
    exact ⟨[], .void, rfl⟩
  | _, _, _, .ellipsis, us, hus => by
    obtain ⟨p, us₁, rfl, h₁⟩ := exists_cons_of_symbols hus
    rw [List.map_eq_nil_iff.mp h₁]
    exact ⟨[], .ellipsis, rfl⟩
  | _, _, _, .list hts hne, us, hus => by
    obtain ⟨ps', hps', rfl⟩ := hts.place hus
    exact ⟨ps', .list hps' (hus ▸ hne), rfl⟩
  | _, _, _, .variadic hts, us, hus => by
    obtain ⟨vs, us₁, rfl, hvs, h₁⟩ := exists_append_of_symbols hus
    obtain ⟨p, us₂, rfl, h₂⟩ := exists_cons_of_symbols h₁
    obtain ⟨p', us₃, rfl, h₃⟩ := exists_cons_of_symbols h₂
    rw [List.map_eq_nil_iff.mp h₃]
    obtain ⟨ps', hps', rfl⟩ := hts.place hvs
    exact ⟨ps', .variadic hps', rfl⟩

/-- So has a list of types. -/
theorem IsTypes.place : ∀ {ss : List Symbol} {ts : List TypeId}, IsTypes ss ts →
    ∀ {us : List Token}, symbols us = ss → ∃ ts', Placed.IsTypes us ts' ∧ TypeId.bareEach ts' = ts
  | _, _, .last ht, us, hus => by
    obtain ⟨t', ht', rfl⟩ := ht.place hus
    exact ⟨_, .last ht', rfl⟩
  | _, _, .cons ht hts, us, hus => by
    obtain ⟨vs, us₁, rfl, hvs, h₁⟩ := exists_append_of_symbols hus
    obtain ⟨p, vs', rfl, hvs'⟩ := exists_cons_of_symbols h₁
    obtain ⟨t', ht', rfl⟩ := ht.place hvs
    obtain ⟨ts', hts', rfl⟩ := hts.place hvs'
    exact ⟨_, .cons ht' hts', rfl⟩

end

end Grammar

end TypeTraits
