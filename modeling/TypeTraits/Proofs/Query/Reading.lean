import TypeTraits.Proofs.TypeId.Exact
import TypeTraits.Query.Basic

/-!
# `TypeTraits.Proofs.Query.Reading`: the grammar of queries, and its reader

```
query     := 'true' | 'false' | INT | type | IDENT '<' arguments '>'
arguments := nothing | query (',' query)*
```

The rules are relations between tokens and queries with places, over those of
`TypeTraits.Proofs.TypeId.Placed`. A type that begins with a name has no `<` behind that
name, so a query has one derivation only, and the reader finds it.

* `readQuery_sound`, `readQuery_complete`: what is read is derived, and the other way round.
* `Query.readAll_eq_ok_iff`: the reader of queries on any list of tokens.
-/

set_option autoImplicit false

namespace TypeTraits

namespace Placed

mutual

/-- Queries. -/
inductive IsQuery : List Token → Query → Prop
  | true {p : Span} : IsQuery [⟨.keyword .true, p⟩] (.bool true p)
  | false {p : Span} : IsQuery [⟨.keyword .false, p⟩] (.bool false p)
  | size {digits : String} {p : Span} :
    decimal digits.toList < sizeLimit →
    IsQuery [⟨.literal digits, p⟩] (.size (decimal digits.toList) p)
  | type {us : List Token} {t : TypeId} : IsType us t → IsQuery us (.type t)
  | call {us : List Token} {op : String} {p p' p'' : Span} {args : List Query} :
    IsArguments us args →
    IsQuery (⟨.identifier op, p⟩ :: (⟨.mark .less, p'⟩ :: us) ++ [⟨.mark .greater, p''⟩])
      (.call op p args ⟨p.start, p''.stop⟩)

/-- What stands between `<` and `>`. -/
inductive IsArguments : List Token → List Query → Prop
  | nothing : IsArguments [] []
  | list {us : List Token} {args : List Query} : IsQueries us args → IsArguments us args

/-- One or more queries with commas between them. -/
inductive IsQueries : List Token → List Query → Prop
  | last {us : List Token} {q : Query} : IsQuery us q → IsQueries us [q]
  | cons {us us' : List Token} {p : Span} {q : Query} {qs : List Query} :
    IsQuery us q → IsQueries us' qs → IsQueries (us ++ ⟨.mark .comma, p⟩ :: us') (q :: qs)

end

/-- A query with places has the span of its tokens. -/
theorem IsQuery.span_eq {us : List Token} {q : Query} (h : IsQuery us q) : q.span = hull us := by
  cases h with
  | true | false | size _ => rfl
  | type ht => exact ht.span_eq
  | call _ =>
    rw [hull_bracketed]
    rfl

/-- A type has a token. -/
theorem IsType.exists_cons {us : List Token} {t : TypeId} (h : IsType us t) :
    ∃ x vs, us = x :: vs ∧ x.symbol.beginsType = true := by
  obtain ⟨s, ss, hss, hs⟩ := h.erase.head
  obtain ⟨p, vs, rfl, -⟩ := exists_cons_of_symbols hss
  exact ⟨⟨s, p⟩, vs, rfl, hs⟩

/-- A query has a token, which is not the `>` that ends arguments. -/
theorem IsQuery.exists_cons {us : List Token} {q : Query} (h : IsQuery us q) :
    ∃ x vs, us = x :: vs ∧ x.symbol ≠ .mark .greater := by
  cases h with
  | true | false | size _ | call _ => exact ⟨_, _, rfl, nofun⟩
  | type ht =>
    obtain ⟨x, vs, rfl, hx⟩ := ht.exists_cons
    refine ⟨x, vs, rfl, fun h => ?_⟩
    rw [h] at hx
    exact nomatch hx

/-- Arguments begin with a token, and not with the mark that ends them. -/
theorem IsQueries.exists_cons {us : List Token} {qs : List Query} (h : IsQueries us qs) :
    ∃ x vs, us = x :: vs ∧ x.symbol ≠ .mark .greater := by
  cases h with
  | last hq => exact hq.exists_cons
  | cons hq _ =>
    obtain ⟨x, vs, rfl, hx⟩ := hq.exists_cons
    exact ⟨x, _, rfl, hx⟩

mutual

/-- Tokens that stand further to the left derive the query with places further to the left. -/
theorem IsQuery.shiftLeft (n : Nat) : ∀ {us : List Token} {q : Query}, IsQuery us q →
    IsQuery (us.map (Token.shiftLeft n)) (q.mapSpans (Span.shiftLeft n))
  | _, _, .true => .true
  | _, _, .false => .false
  | _, _, .size hlt => .size hlt
  | _, _, .type ht => .type (ht.shiftLeft n)
  | _, _, .call hargs => by
    rw [List.map_append, List.map_cons, List.map_cons]
    exact .call (hargs.shiftLeft n)

/-- Arguments are derived from their tokens moved to the left. -/
theorem IsArguments.shiftLeft (n : Nat) : ∀ {us : List Token} {args : List Query},
    IsArguments us args →
    IsArguments (us.map (Token.shiftLeft n)) (Query.mapSpansEach (Span.shiftLeft n) args)
  | _, _, .nothing => .nothing
  | _, _, .list hargs => .list (hargs.shiftLeft n)

/-- So is a list of them. -/
theorem IsQueries.shiftLeft (n : Nat) : ∀ {us : List Token} {qs : List Query},
    IsQueries us qs →
    IsQueries (us.map (Token.shiftLeft n)) (Query.mapSpansEach (Span.shiftLeft n) qs)
  | _, _, .last hq => .last (hq.shiftLeft n)
  | _, _, .cons hq hqs => by
    rw [List.map_append, List.map_cons]
    exact .cons (hq.shiftLeft n) (hqs.shiftLeft n)

end

end Placed

/-! ### What is read is derived -/

mutual

/-- A query is taken from the tokens that derive it. -/
theorem readQuery_sound {stop : Nat} : ∀ (fuel : Nat) {ts rest : List Token} {q : Query},
    readQuery stop fuel ts = .ok (q, rest) → ∃ us, ts = us ++ rest ∧ Placed.IsQuery us q
  | 0, _, _, _, h => nomatch h
  | fuel + 1, ts, rest, q, h => by
    unfold readQuery at h
    split at h
    · cases h
      exact ⟨_, rfl, .true⟩
    · cases h
      exact ⟨_, rfl, .false⟩
    · next digits p _ =>
      split at h
      · next n hn =>
        cases h
        obtain ⟨hlt, rfl⟩ := Option.ite_some_none_eq_some.mp hn
        exact ⟨[⟨.literal digits, p⟩], rfl, .size hlt⟩
      · exact nomatch h
    · next op p p' ts₁ =>
      obtain ⟨⟨args, ts₂⟩, hread, h⟩ := except_bind_eq_ok.mp h
      cases h
      obtain ⟨us, p'', rfl, hargs⟩ := readArguments_sound fuel hread
      -- The call covers everything from its name to the closing bracket.
      rw [← List.cons_append, cover_bracketed]
      exact ⟨⟨.identifier op, p⟩ :: (⟨.mark .less, p'⟩ :: us) ++ [⟨.mark .greater, p''⟩], by simp,
        .call hargs⟩
    · obtain ⟨⟨t, ts₁⟩, hread, heq⟩ := except_map_eq_ok.mp h
      cases heq
      obtain ⟨us, rfl, ht⟩ := TypeId.read_sound hread
      exact ⟨us, rfl, .type ht⟩

/-- Arguments are taken together with the `>` behind them. -/
theorem readArguments_sound {stop : Nat} : ∀ (fuel : Nat) {ts rest : List Token}
    {args : List Query}, readArguments stop fuel ts = .ok (args, rest) →
    ∃ us p, ts = us ++ ⟨.mark .greater, p⟩ :: rest ∧ Placed.IsArguments us args
  | 0, _, _, _, h => nomatch h
  | fuel + 1, ts, rest, args, h => by
    unfold readArguments at h
    split at h
    · next p _ =>
      cases h
      exact ⟨[], p, rfl, .nothing⟩
    · obtain ⟨us, p, rfl, hargs⟩ := readArgumentList_sound fuel h
      exact ⟨us, p, rfl, .list hargs⟩

/-- So are one or more arguments. -/
theorem readArgumentList_sound {stop : Nat} : ∀ (fuel : Nat) {ts rest : List Token}
    {args : List Query}, readArgumentList stop fuel ts = .ok (args, rest) →
    ∃ us p, ts = us ++ ⟨.mark .greater, p⟩ :: rest ∧ Placed.IsQueries us args
  | 0, _, _, _, h => nomatch h
  | fuel + 1, ts, rest, args, h => by
    unfold readArgumentList at h
    obtain ⟨⟨arg, ts₁⟩, harg, hsplit⟩ := except_bind_eq_ok.mp h
    obtain ⟨us, rfl, hq⟩ := readQuery_sound fuel harg
    simp only at hsplit
    split at hsplit
    · next p _ =>
      obtain ⟨⟨args', ts₂⟩, hargs, heq⟩ := except_bind_eq_ok.mp hsplit
      cases heq
      obtain ⟨us', p', rfl, hqs⟩ := readArgumentList_sound fuel hargs
      exact ⟨us ++ ⟨.mark .comma, p⟩ :: us', p', by simp, .cons hq hqs⟩
    · next p _ =>
      cases hsplit
      exact ⟨us, p, rfl, .last hq⟩
    · exact nomatch hsplit

end

/-! ### What is derived is read -/

/-- Where a type is derived, no other form of a query stands. -/
theorem readQuery_type {stop fuel : Nat} {us rest : List Token} {t : TypeId}
    (h : Placed.IsType us t) (hrest : Follows Symbol.endsType rest) :
    readQuery stop (fuel + 1) (us ++ rest) = .ok (.type t, rest) := by
  have hread := TypeId.read_complete stop h hrest
  have hr := Reads.of_append us rest
  have ht := h.erase
  obtain ⟨⟨s, p⟩, vs, rfl, hs⟩ := h.exists_cons
  rw [List.cons_append] at hread hr ⊢
  unfold readQuery
  split
  · next heq =>
    cases heq
    exact nomatch hs
  · next heq =>
    cases heq
    exact nomatch hs
  · next heq =>
    cases heq
    exact nomatch hs
  · next heq =>
    -- A name in front of a type has something else behind it than `<`.
    obtain ⟨heq, hvs⟩ := List.cons.inj heq
    cases heq
    rw [hvs] at hr
    exact nomatch ht.follows_name hr hrest
  · exact except_map_eq_ok.mpr ⟨_, hread, rfl⟩

mutual

/-- A query is read where it is derived. -/
theorem readQuery_complete (stop : Nat) : ∀ {us : List Token} {q : Query}, Placed.IsQuery us q →
    ∀ (fuel : Nat) (rest : List Token), Follows Symbol.endsType rest → 4 * us.length ≤ fuel →
    readQuery stop fuel (us ++ rest) = .ok (q, rest)
  | _, _, .true, fuel, rest, hrest, hfuel => by
    -- Any query has a token, so there is fuel for a step.
    rw [List.length_singleton] at hfuel
    obtain ⟨fuel, rfl⟩ := Nat.exists_eq_succ_of_ne_zero (show fuel ≠ 0 by omega)
    rfl
  | _, _, .false, fuel, rest, hrest, hfuel => by
    rw [List.length_singleton] at hfuel
    obtain ⟨fuel, rfl⟩ := Nat.exists_eq_succ_of_ne_zero (show fuel ≠ 0 by omega)
    rfl
  | _, _, .size hlt, fuel, rest, hrest, hfuel => by
    rw [List.length_singleton] at hfuel
    obtain ⟨fuel, rfl⟩ := Nat.exists_eq_succ_of_ne_zero (show fuel ≠ 0 by omega)
    rw [List.cons_append, readQuery]
    simp only [size?, hlt, if_true, List.nil_append]
  | us, _, .type ht, fuel, rest, hrest, hfuel => by
    have hlen : us.length ≠ 0 := by
      obtain ⟨x, vs, rfl, -⟩ := ht.exists_cons
      exact Nat.succ_ne_zero _
    obtain ⟨fuel, rfl⟩ := Nat.exists_eq_succ_of_ne_zero (show fuel ≠ 0 by omega)
    exact readQuery_type ht hrest
  | _, _, @Placed.IsQuery.call us _ p p' p'' _ hargs, fuel, rest, hrest, hfuel => by
    simp only [List.length_append, List.length_cons] at hfuel
    obtain ⟨fuel, rfl⟩ := Nat.exists_eq_succ_of_ne_zero (show fuel ≠ 0 by omega)
    have hread := readArguments_complete stop hargs fuel p'' rest (by omega)
    simp only [List.append_assoc, List.cons_append, List.nil_append]
    rw [readQuery, hread, except_bind_ok]
    simp only
    rw [← List.cons_append, cover_bracketed]
    rfl

/-- Arguments are read up to the `>` behind them. -/
theorem readArguments_complete (stop : Nat) : ∀ {us : List Token} {args : List Query},
    Placed.IsArguments us args → ∀ (fuel : Nat) (p : Span) (rest : List Token),
    4 * us.length + 2 ≤ fuel →
    readArguments stop fuel (us ++ ⟨.mark .greater, p⟩ :: rest) = .ok (args, rest)
  | _, _, .nothing, fuel, p, rest, hfuel => by
    obtain ⟨fuel, rfl⟩ := Nat.exists_eq_succ_of_ne_zero (show fuel ≠ 0 by omega)
    rfl
  | us, _, .list hargs, fuel, p, rest, hfuel => by
    obtain ⟨fuel, rfl⟩ := Nat.exists_eq_succ_of_ne_zero (show fuel ≠ 0 by omega)
    have hread := readArgumentList_complete stop hargs fuel p rest (by omega)
    obtain ⟨x, vs, rfl, hx⟩ := hargs.exists_cons
    -- Arguments do not begin with `>`, so the reader goes on to the list.
    unfold readArguments
    split
    · next heq =>
      cases heq
      exact absurd rfl hx
    · exact hread

/-- So are one or more arguments. -/
theorem readArgumentList_complete (stop : Nat) : ∀ {us : List Token} {args : List Query},
    Placed.IsQueries us args → ∀ (fuel : Nat) (p : Span) (rest : List Token),
    4 * us.length + 1 ≤ fuel →
    readArgumentList stop fuel (us ++ ⟨.mark .greater, p⟩ :: rest) = .ok (args, rest)
  | _, _, .last hq, fuel, p, rest, hfuel => by
    obtain ⟨fuel, rfl⟩ := Nat.exists_eq_succ_of_ne_zero (show fuel ≠ 0 by omega)
    have hread := readQuery_complete stop hq fuel (⟨.mark .greater, p⟩ :: rest) rfl (by omega)
    rw [readArgumentList, hread]
    rfl
  | _, _, @Placed.IsQueries.cons _ us' p' _ _ hq hqs, fuel, p, rest, hfuel => by
    simp only [List.length_append, List.length_cons] at hfuel
    obtain ⟨fuel, rfl⟩ := Nat.exists_eq_succ_of_ne_zero (show fuel ≠ 0 by omega)
    -- The first argument ends at the comma.
    have hread := readQuery_complete stop hq fuel
      (⟨.mark .comma, p'⟩ :: (us' ++ ⟨.mark .greater, p⟩ :: rest)) rfl (by omega)
    have hreads := readArgumentList_complete stop hqs fuel p rest (by omega)
    rw [List.append_assoc, List.cons_append, readArgumentList, hread, except_bind_ok]
    simp only
    rw [hreads]
    rfl

end

/-- All tokens are read as the query exactly if it is derived from them. -/
theorem Query.readAll_eq_ok_iff {s : TokenStream} {q : Query} :
    s.readAll read = .ok q ↔ Placed.IsQuery s.tokens q := by
  rw [TokenStream.readAll_eq_ok_iff]
  constructor
  · intro h
    obtain ⟨us, hus, hq⟩ := readQuery_sound _ h
    rwa [hus, List.append_nil]
  · intro h
    have hread := readQuery_complete s.stop h (readingFuel s.tokens.length) [] trivial
      (Nat.le_add_right _ _)
    rwa [List.append_nil] at hread

end TypeTraits
