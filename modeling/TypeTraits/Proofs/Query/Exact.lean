import TypeTraits.Proofs.Query.Reading

/-!
# `TypeTraits.Proofs.Query.Exact`: the reader of queries and its grammar agree

The grammar of queries as relations between lists of symbols and bare trees, over the
grammar of types in `TypeTraits.Proofs.TypeId.Grammar`:

```
query := 'true'  |  'false'  |  INT  |  IDENT '<' [query (',' query)*] '>'  |  type
```

It derives the same queries, places aside, as the grammar with places that the reader is
proved against. So a text is read as a query exactly when the grammar derives this query
from all of its symbols, and as the reader gives one answer, the grammar is unambiguous.

* `Grammar.IsQuery`: the grammar's queries.
* `Grammar.IsQuery.isCall_iff`: calls are told from all else by their first two symbols.
* `Query.ofText_eq_ok_iff_isQuery`: the reader of queries on the text.
-/

set_option autoImplicit false

namespace TypeTraits

/-- The query without the places it was read from. -/
def Query.bare (q : Query) : Query := q.mapSpans fun _ => default

/-- The queries without the places they were read from. -/
def Query.bareEach (qs : List Query) : List Query := Query.mapSpansEach (fun _ => default) qs

namespace Grammar

mutual

/-- Queries. -/
inductive IsQuery : List Symbol → Query → Prop
  | true : IsQuery [.keyword .true] (.bool true default)
  | false : IsQuery [.keyword .false] (.bool false default)
  | size {digits : String} :
    decimal digits.toList < sizeLimit →
    IsQuery [.literal digits] (.size (decimal digits.toList) default)
  | call {ss : List Symbol} {op : String} {args : List Query} :
    IsArguments ss args →
    IsQuery (.identifier op :: .mark .less :: (ss ++ [.mark .greater]))
      (.call op default args default)
  | type {ss : List Symbol} {t : TypeId} : IsType ss t → IsQuery ss (.type t)

/-- What stands between `<` and `>`. -/
inductive IsArguments : List Symbol → List Query → Prop
  | nothing : IsArguments [] []
  | list {ss : List Symbol} {args : List Query} : IsQueries ss args → IsArguments ss args

/-- One or more queries with commas between them. -/
inductive IsQueries : List Symbol → List Query → Prop
  | last {ss : List Symbol} {q : Query} : IsQuery ss q → IsQueries ss [q]
  | cons {ss ss' : List Symbol} {q : Query} {qs : List Query} :
    IsQuery ss q → IsQueries ss' qs → IsQueries (ss ++ .mark .comma :: ss') (q :: qs)

end

end Grammar

/-! ### Without places -/

namespace Placed

mutual

/-- A query that is derived with places is derived without them. -/
theorem IsQuery.erase : ∀ {us : List Token} {q : Query}, IsQuery us q →
    Grammar.IsQuery (symbols us) q.bare
  | _, _, .true => .true
  | _, _, .false => .false
  | _, _, .size hlt => .size hlt
  | _, _, .type ht => .type ht.erase
  | _, _, .call hargs => by
    rw [List.cons_append, List.cons_append, symbols_cons, symbols_cons, symbols_append]
    exact .call hargs.erase

/-- Arguments are derived without their places too. -/
theorem IsArguments.erase : ∀ {us : List Token} {args : List Query}, IsArguments us args →
    Grammar.IsArguments (symbols us) (Query.bareEach args)
  | _, _, .nothing => .nothing
  | _, _, .list hargs => .list hargs.erase

/-- So is a list of them. -/
theorem IsQueries.erase : ∀ {us : List Token} {qs : List Query}, IsQueries us qs →
    Grammar.IsQueries (symbols us) (Query.bareEach qs)
  | _, _, .last hq => .last hq.erase
  | _, _, .cons hq hqs => by
    rw [symbols_append, symbols_cons]
    exact .cons hq.erase hqs.erase

end

end Placed

/-! ### With places -/

namespace Grammar

mutual

/-- A query that is derived from the symbols of tokens is derived from the tokens, with the
places that they give it. -/
theorem IsQuery.place : ∀ {ss : List Symbol} {q : Query}, IsQuery ss q →
    ∀ {us : List Token}, symbols us = ss → ∃ q', Placed.IsQuery us q' ∧ q'.bare = q
  | _, _, .true, us, hus => by
    obtain ⟨p, vs, rfl, hvs⟩ := exists_cons_of_symbols hus
    rw [List.map_eq_nil_iff.mp hvs]
    exact ⟨_, .true, rfl⟩
  | _, _, .false, us, hus => by
    obtain ⟨p, vs, rfl, hvs⟩ := exists_cons_of_symbols hus
    rw [List.map_eq_nil_iff.mp hvs]
    exact ⟨_, .false, rfl⟩
  | _, _, .size hlt, us, hus => by
    obtain ⟨p, vs, rfl, hvs⟩ := exists_cons_of_symbols hus
    rw [List.map_eq_nil_iff.mp hvs]
    exact ⟨_, .size hlt, rfl⟩
  | _, _, .type ht, us, hus => by
    obtain ⟨t', ht', rfl⟩ := ht.place hus
    exact ⟨_, .type ht', rfl⟩
  | _, _, .call hargs, us, hus => by
    -- A call has three tokens of its own around its arguments.
    obtain ⟨p, us₁, rfl, h₁⟩ := exists_cons_of_symbols hus
    obtain ⟨p', us₂, rfl, h₂⟩ := exists_cons_of_symbols h₁
    obtain ⟨vs, us₃, rfl, hvs, h₃⟩ := exists_append_of_symbols h₂
    obtain ⟨p'', us₄, rfl, h₄⟩ := exists_cons_of_symbols h₃
    rw [List.map_eq_nil_iff.mp h₄]
    obtain ⟨args', hargs', rfl⟩ := hargs.place hvs
    exact ⟨_, .call hargs', rfl⟩

/-- Arguments are derived with places, wherever their symbols stand. -/
theorem IsArguments.place : ∀ {ss : List Symbol} {args : List Query}, IsArguments ss args →
    ∀ {us : List Token}, symbols us = ss →
    ∃ args', Placed.IsArguments us args' ∧ Query.bareEach args' = args
  | _, _, .nothing, us, hus => by
    rw [List.map_eq_nil_iff.mp hus]
    exact ⟨[], .nothing, rfl⟩
  | _, _, .list hargs, us, hus => by
    obtain ⟨args', hargs', rfl⟩ := hargs.place hus
    exact ⟨args', .list hargs', rfl⟩

/-- So is a list of them. -/
theorem IsQueries.place : ∀ {ss : List Symbol} {qs : List Query}, IsQueries ss qs →
    ∀ {us : List Token}, symbols us = ss →
    ∃ qs', Placed.IsQueries us qs' ∧ Query.bareEach qs' = qs
  | _, _, .last hq, us, hus => by
    obtain ⟨q', hq', rfl⟩ := hq.place hus
    exact ⟨_, .last hq', rfl⟩
  | _, _, .cons hq hqs, us, hus => by
    obtain ⟨vs, us₁, rfl, hvs, h₁⟩ := exists_append_of_symbols hus
    obtain ⟨p, vs', rfl, hvs'⟩ := exists_cons_of_symbols h₁
    obtain ⟨q', hq', rfl⟩ := hq.place hvs
    obtain ⟨qs', hqs', rfl⟩ := hqs.place hvs'
    exact ⟨_, .cons hq' hqs', rfl⟩

end

end Grammar

/-! ### The reader -/

/-- All tokens are read as the query, places aside, exactly if the grammar derives it from
their symbols. -/
theorem Query.readAll_bare_eq_ok_iff (s : TokenStream) (q : Query) :
    (s.readAll read).map bare = .ok q ↔ Grammar.IsQuery (symbols s.tokens) q := by
  rw [except_map_eq_ok]
  constructor
  · rintro ⟨q', h, rfl⟩
    exact (readAll_eq_ok_iff.mp h).erase
  · intro h
    obtain ⟨q', hq', rfl⟩ := h.place rfl
    exact ⟨q', readAll_eq_ok_iff.mpr hq', rfl⟩

namespace Grammar

/-- The grammar is unambiguous, since the one answer of the reader is every query that it
derives. -/
theorem IsQuery.unique {ss : List Symbol} {q q' : Query} (h : IsQuery ss q)
    (h' : IsQuery ss q') : q = q' := by
  rw [← symbols_tokensOf ss] at h h'
  have e := (Query.readAll_bare_eq_ok_iff ⟨tokensOf ss, 0⟩ q).mpr h
  have e' := (Query.readAll_bare_eq_ok_iff ⟨tokensOf ss, 0⟩ q').mpr h'
  rw [e] at e'
  exact Except.ok.inj e'

/-- A type that begins with a name has no `<` behind the name. -/
theorem IsType.ne_name_less {ss ss' : List Symbol} {t : TypeId} {name : String}
    (h : IsType ss t) : ss ≠ .identifier name :: .mark .less :: ss' := by
  rintro rfl
  -- Some tokens with the symbols, and nothing behind them.
  have hr : Reads (.identifier name :: .mark .less :: ss')
      (tokensOf (.identifier name :: .mark .less :: ss')) [] := by
    have hr := Reads.of_append (tokensOf (.identifier name :: .mark .less :: ss')) []
    rwa [symbols_tokensOf, List.append_nil] at hr
  have hfollows : Follows Symbol.endsBase (tokensOf (.mark .less :: ss')) :=
    h.follows_name hr trivial
  exact nomatch hfollows

/-- A query is a call exactly if its first two symbols are a name and `<`. -/
theorem IsQuery.isCall_iff {ss : List Symbol} {q : Query} (h : IsQuery ss q) :
    (∃ op args, q = .call op default args default) ↔
      ∃ name ss', ss = .identifier name :: .mark .less :: ss' := by
  constructor
  · rintro ⟨op, args, rfl⟩
    cases h with
    | call _ => exact ⟨op, _, rfl⟩
  · rintro ⟨name, ss', hss⟩
    cases h with
    | true | false | size _ => exact nomatch hss
    | type ht => exact absurd hss ht.ne_name_less
    | call _ => exact ⟨_, _, rfl⟩

/-- The queries that are types are those of the grammar of types. -/
theorem isQuery_type_iff {ss : List Symbol} {t : TypeId} : IsQuery ss (.type t) ↔ IsType ss t := by
  constructor
  · intro h
    cases h with
    | type ht => exact ht
  · exact .type

end Grammar

open Grammar in
/-- A text of tokens is read as a query, places aside, exactly if the grammar derives the query
from the symbols of all its tokens; it is a type among the queries exactly if it is read as this
type. No symbols are derived as two queries, and they are a call, as a whole or as an argument,
exactly if they begin with a name and `<`. -/
theorem Query.ofText_eq_ok_iff_isQuery {text : String} {s : TokenStream}
    (h : TokenStream.ofText text = .ok s) :
    (∀ q, (Query.ofText text).map bare = .ok q ↔ IsQuery (symbols s.tokens) q) ∧
      (∀ t, IsQuery (symbols s.tokens) (.type t) ↔ (TypeId.ofText text).map TypeId.bare = .ok t) ∧
      (∀ ss q q', IsQuery ss q → IsQuery ss q' → q = q') ∧
      ∀ ss q, IsQuery ss q → ((∃ op args, q = .call op default args default) ↔
        ∃ name ss', ss = .identifier name :: .mark .less :: ss') := by
  refine ⟨fun q => ?_, fun t => ?_, fun ss q q' hq hq' => hq.unique hq',
    fun ss q hq => hq.isCall_iff⟩
  · rw [← readAll_bare_eq_ok_iff, ofText, h, except_bind_ok]
  · rw [isQuery_type_iff, ← TypeId.readAll_bare_eq_ok_iff, TypeId.ofText, h, except_bind_ok]

open Grammar in
/-- In `extent<int c::*, 07>` the first name calls, the second one begins an operator, and the
digits are a size. -/
theorem Query.ofText_of_member_pointer :
    TokenStream.ofText "extent<int c::*, 07>" =
      .ok ⟨[⟨.identifier "extent", ⟨0, 6⟩⟩, ⟨.mark .less, ⟨6, 7⟩⟩, ⟨.scalar .int, ⟨7, 10⟩⟩,
        ⟨.identifier "c", ⟨11, 12⟩⟩, ⟨.mark .colonColon, ⟨12, 14⟩⟩, ⟨.mark .star, ⟨14, 15⟩⟩,
        ⟨.mark .comma, ⟨15, 16⟩⟩, ⟨.literal "07", ⟨17, 19⟩⟩, ⟨.mark .greater, ⟨19, 20⟩⟩], 20⟩ ∧
    (Query.ofText "extent<int c::*, 07>").map bare =
      .ok (.call "extent" default
        [.type (.mk ⟨.scalar .int, .none, default⟩ (.flat [⟨.member "c" .none, default⟩] []) default),
          .size 7 default] default) := by
  have htokens : TokenStream.ofText "extent<int c::*, 07>" =
      .ok ⟨[⟨.identifier "extent", ⟨0, 6⟩⟩, ⟨.mark .less, ⟨6, 7⟩⟩, ⟨.scalar .int, ⟨7, 10⟩⟩,
        ⟨.identifier "c", ⟨11, 12⟩⟩, ⟨.mark .colonColon, ⟨12, 14⟩⟩, ⟨.mark .star, ⟨14, 15⟩⟩,
        ⟨.mark .comma, ⟨15, 16⟩⟩, ⟨.literal "07", ⟨17, 19⟩⟩, ⟨.mark .greater, ⟨19, 20⟩⟩], 20⟩ := by
    decide +kernel
  obtain ⟨hread, -⟩ := Query.ofText_eq_ok_iff_isQuery htokens
  refine ⟨htokens, (hread _).mpr ?_⟩
  have hspec : IsSpecifier [.scalar .int] ⟨.scalar .int, .none, default⟩ :=
    .arithmetic (.word .nil) (by decide)
  have hdecl : IsDeclarator [.identifier "c", .mark .colonColon, .mark .star]
      (.flat [⟨.member "c" .none, default⟩] []) :=
    .flat (.cons (.member .nil) .nil) .nil
  have hindex : IsQuery [.literal "07"] (.size 7 default) := @IsQuery.size "07" (by decide)
  exact .call (.list (.cons (.type (.mk hspec hdecl)) (.last hindex)))

end TypeTraits
