import TypeTraits.Proofs.Query.Operations
import TypeTraits.Proofs.Query.Reading
import TypeTraits.Proofs.Universe.Spans
import TypeTraits.Universe.Declaration

/-!
# `TypeTraits.Proofs.Query.Composition`: queries put together from texts

What a text denotes (`Scope.Denotes`) it denotes as an argument as well, whatever stands
around it. The symbols of an argument do not join those of the call (`<`, `>` and the comma
are no part of a longer symbol), they are read there as they are read alone, and where they
stand in the text makes no difference to the value. So the texts of queries can be put
together like the queries themselves: `Scope.Denotes.call` is the one step, and chains of
transformations repeat it.

* `Scope.Denotes.evaluateText`: a text is evaluated to what it denotes.
* `Scope.denotes_of_parseType`: the text of a type denotes this type.
* `Scope.Denotes.call`: a call of texts denotes the operation on their values.
* `Scope.evaluateText_chain`: chains of transformations, and predicates, ranks, extents and
  comparisons of them, are what the functions of these names compute.
-/

set_option autoImplicit false

namespace TypeTraits

namespace Scope

variable {s : Scope}

/-! ### Symbols -/

/-- The symbols are a query of the value, wherever they stand. -/
def Yields (s : Scope) (ss : List Symbol) (v : Value) : Prop :=
  ∀ us, symbols us = ss → ∃ q, Placed.IsQuery us q ∧ s.evaluate q = .ok v

/-- The symbols are arguments of the values, wherever they stand. -/
def YieldsEach (s : Scope) (ss : List Symbol) (vs : List Value) : Prop :=
  ∀ us, symbols us = ss → ∃ qs, Placed.IsArguments us qs ∧ qs.map s.evaluate = vs.map .ok

/-- A call has the value of its operation. -/
theorem YieldsEach.call {op : String} {o : Operation} {ss : List Symbol} {vs : List Value}
    {w : Value} (h : s.YieldsEach ss vs) (ho : s.operation? (Operation.baseName op) = some o)
    (hw : o.Gives vs w) :
    s.Yields (.identifier op :: .mark .less :: (ss ++ [.mark .greater])) w := by
  intro us hus
  -- The tokens are a name, a bracket, the arguments and the other bracket.
  obtain ⟨p, us₁, rfl, hus₁⟩ := exists_cons_of_symbols hus
  obtain ⟨p', us₂, rfl, hus₂⟩ := exists_cons_of_symbols hus₁
  obtain ⟨us₃, us₄, rfl, hus₃, hus₄⟩ := exists_append_of_symbols hus₂
  obtain ⟨p'', us₅, rfl, hus₅⟩ := exists_cons_of_symbols hus₄
  obtain rfl := List.map_eq_nil_iff.mp hus₅
  obtain ⟨qs, hqs, hvalues⟩ := h us₃ hus₃
  have hresult : o.result? (s.suspend qs) = some (.ok w) := by
    refine hw _ ?_
    rw [suspend_eq_map, List.map_map]
    exact hvalues
  exact ⟨_, @Placed.IsQuery.call _ _ p p' p'' _ hqs, call_eq_of_result? ho hresult⟩

/-! ### Texts -/

/-- The text consists of symbols that yield the value. -/
def Denotes (s : Scope) (text : String) (v : Value) : Prop :=
  ∃ ss, Lexes text.toList ss ∧ s.Yields ss v

/-- A text is evaluated to what it denotes. -/
theorem Denotes.evaluateText {text : String} {v : Value} (h : s.Denotes text v) :
    s.evaluateText text = .ok v := by
  obtain ⟨ss, hlex, hv⟩ := h
  obtain ⟨ts, hts, hss⟩ := TokenStream.ofText_eq_ok_iff.mpr hlex
  obtain ⟨q, hq, hvalue⟩ := hv _ hss
  rw [Scope.evaluateText, Query.ofText, hts, except_bind_ok, Query.readAll_eq_ok_iff.mpr hq,
    except_bind_ok, hvalue]

/-- The text of a type denotes the type. -/
theorem denotes_of_parseType {text : String} {t : Descriptor}
    (h : s.types.parseType text = .ok t) : s.Denotes text (.type t) := by
  obtain ⟨e, he, helaborate⟩ := except_bind_eq_ok.mp h
  obtain ⟨ts, hts, hread⟩ := except_bind_eq_ok.mp he
  refine ⟨symbols ts.tokens, TokenStream.ofText_eq_ok_iff.mp ⟨ts, hts, rfl⟩, fun us hus => ?_⟩
  -- The same symbols in other places are the same type in other places.
  obtain ⟨e', he', hbare⟩ := (TypeId.readAll_eq_ok_iff.mp hread).erase.place hus
  refine ⟨.type e', .type he', ?_⟩
  rw [evaluate, (s.types.elaborate_bare_eq_ok_iff e' t).mp ?_]
  · rfl
  · rw [hbare]
    exact (s.types.elaborate_bare_eq_ok_iff e t).mpr helaborate

/-- Digits denote a size, as far as they fit into one. -/
theorem denotes_size {digits : String} (hne : digits.toList ≠ [])
    (hdigits : ∀ c ∈ digits.toList, c.isDigit = true) (hlt : decimal digits.toList < sizeLimit) :
    s.Denotes digits (.size (decimal digits.toList)) := by
  refine ⟨[.literal digits], .of_symbol (Symbol.literal_isLexical hne hdigits), fun us hus => ?_⟩
  obtain ⟨⟨_, p⟩, rfl, rfl⟩ := List.map_eq_singleton_iff.mp hus
  exact ⟨_, .size hlt, rfl⟩

/-- Blanks in front of a text do not count. -/
theorem Denotes.behind_blanks {gap text : String} {v : Value} (h : s.Denotes text v)
    (hgap : ∀ c ∈ gap.toList, isBlank c = true) : s.Denotes (gap ++ text) v := by
  obtain ⟨ss, hlex, hv⟩ := h
  refine ⟨ss, ?_, hv⟩
  rw [String.toList_append]
  exact hlex.blanks hgap

/-- One or more texts with commas between them denote arguments. -/
theorem exists_isQueries_of_denotes {texts : List String} {vs : List Value}
    (h : List.Forall₂ s.Denotes texts vs) (hne : texts ≠ []) :
    ∃ ss, Lexes (",".intercalate texts).toList ss ∧
      ∀ us, symbols us = ss → ∃ qs, Placed.IsQueries us qs ∧ qs.map s.evaluate = vs.map .ok := by
  induction h with
  | nil => exact absurd rfl hne
  | @cons text v texts vs htext htexts ih =>
    obtain ⟨ss, hlex, hv⟩ := htext
    -- There is a comma between two arguments, so the last one is on its own.
    cases htexts with
    | nil =>
      refine ⟨ss, by rwa [String.intercalate_singleton], fun us hus => ?_⟩
      obtain ⟨q, hq, hvalue⟩ := hv us hus
      exact ⟨[q], .last hq, congrArg (· :: []) hvalue⟩
    | cons _ _ =>
      obtain ⟨ss', hlex', hvs⟩ := ih (List.cons_ne_nil _ _)
      refine ⟨ss ++ .mark .comma :: ss', ?_, fun us hus => ?_⟩
      · rw [String.intercalate_cons_cons, String.toList_append, String.toList_append,
          List.append_assoc]
        exact hlex.comma hlex'
      · obtain ⟨us₁, us₂, rfl, hus₁, hus₂⟩ := exists_append_of_symbols hus
        obtain ⟨p, us₃, rfl, hus₃⟩ := exists_cons_of_symbols hus₂
        obtain ⟨q, hq, hvalue⟩ := hv us₁ hus₁
        obtain ⟨qs, hqs, hvalues⟩ := hvs us₃ hus₃
        exact ⟨q :: qs, .cons hq hqs, congrArg₂ List.cons hvalue hvalues⟩

/-- Texts with commas between them denote arguments, none of them as well. -/
theorem exists_yieldsEach_of_denotes {texts : List String} {vs : List Value}
    (h : List.Forall₂ s.Denotes texts vs) :
    ∃ ss, Lexes (",".intercalate texts).toList ss ∧ s.YieldsEach ss vs := by
  cases texts with
  | nil =>
    cases h
    -- Without texts there is nothing between the brackets.
    refine ⟨[], .nil, fun us hus => ?_⟩
    obtain rfl := List.map_eq_nil_iff.mp hus
    exact ⟨[], .nothing, rfl⟩
  | cons text texts =>
    obtain ⟨ss, hlex, hvs⟩ := exists_isQueries_of_denotes h (List.cons_ne_nil _ _)
    refine ⟨ss, hlex, fun us hus => ?_⟩
    obtain ⟨qs, hqs, hvalues⟩ := hvs us hus
    exact ⟨qs, .list hqs, hvalues⟩

end Scope

/-- The text of a call. -/
def callText (op : String) (args : List String) : String := op ++ "<" ++ ",".intercalate args ++ ">"

namespace Scope

variable {s : Scope}

/-- A call of texts denotes what the operation gives for their values. -/
theorem Denotes.call {name : String} {o : Operation} (ho : s.Calls name o) (e : Ending)
    {texts : List String} {vs : List Value} (h : List.Forall₂ s.Denotes texts vs) {w : Value}
    (hw : o.Gives vs w) : s.Denotes (callText (name ++ e.text) texts) w := by
  obtain ⟨ss, hlex, hvs⟩ := exists_yieldsEach_of_denotes h
  have hop : s.operation? (Operation.baseName (name ++ e.text)) = some o := by
    rw [Operation.baseName_append ho.isOperationName.baseName_eq, ho.operation?_eq]
  -- The name is a symbol of its own, since no name goes on with `<`.
  have hcall := (Lexes.of_symbol (ho.isOperationName.isLexical_append e)).bracketed_behind
    (m := .less) rfl hlex
  have htext : (callText (name ++ e.text) texts).toList = (name ++ e.text).toList ++
      (Mark.less.text.toList ++ ((",".intercalate texts).toList ++ Mark.greater.text.toList)) := by
    simp only [callText, Mark.text, String.toList_append, List.append_assoc]
  refine ⟨_, ?_, hvs.call hop hw⟩
  rw [htext]
  exact hcall

end Scope

/-! ### Chains of transformations -/

/-- The text of transformations one inside the other, each called with an ending or without,
around a text. -/
def chainText (fs : List (Transformation × Ending)) (text : String) : String :=
  fs.foldr (fun f text => callText (f.1.name ++ f.2.text) [text]) text

/-- What the transformations make of a type, the last one first. -/
def chainType (fs : List (Transformation × Ending)) (t : Descriptor) : Descriptor :=
  fs.foldr (fun f t => f.1.apply t) t

namespace Scope

variable {u : Universe}

/-- Each link of the chain is a call. -/
theorem Denotes.chain {text : String} {t : Descriptor}
    (h : (ofUniverse u).Denotes text (.type t)) {fs : List (Transformation × Ending)}
    (hfs : ∀ f ∈ fs, f.1 ∈ Transformation.all) :
    (ofUniverse u).Denotes (chainText fs text) (.type (chainType fs t)) := by
  induction fs with
  | nil => exact h
  | cons f fs ih =>
    rw [List.forall_mem_cons] at hfs
    exact .call (calls_transformation hfs.1) f.2 (.cons (ih hfs.2) .nil)
      (Operation.gives_transformation f.1)

/-- Queries compute the functions of the library. A chain of transformations around the text of
a type comes to what the functions make of the type. A predicate, the rank or an extent of the
chain, and the comparison of two chains, come to what their functions say of these types. The
names have one of the endings or none, and an argument behind a comma may have blanks in front. -/
theorem evaluateText_chain {text : String} {t : Descriptor} (ht : u.parseType text = .ok t)
    {fs : List (Transformation × Ending)} (hfs : ∀ f ∈ fs, f.1 ∈ Transformation.all) :
    (ofUniverse u).evaluateText (chainText fs text) = .ok (.type (chainType fs t)) ∧
    (∀ p ∈ Catalog.standard.predicates, ∀ e : Ending,
      (ofUniverse u).evaluateText (callText (p.name ++ e.text) [chainText fs text]) =
        .ok (.bool (p.holds (chainType fs t)))) ∧
    (∀ e : Ending,
      (ofUniverse u).evaluateText (callText ("rank" ++ e.text) [chainText fs text]) =
        .ok (.size (chainType fs t).rank)) ∧
    (∀ (e : Ending) (gap digits : String), (∀ c ∈ gap.toList, isBlank c = true) →
      digits.toList ≠ [] → (∀ c ∈ digits.toList, c.isDigit = true) →
      decimal digits.toList < sizeLimit →
      (ofUniverse u).evaluateText
          (callText ("extent" ++ e.text) [chainText fs text, gap ++ digits]) =
        .ok (.size ((chainType fs t).extent (decimal digits.toList)))) ∧
    ∀ (e : Ending) (gap text' : String) (t' : Descriptor) (fs' : List (Transformation × Ending)),
      (∀ c ∈ gap.toList, isBlank c = true) → u.parseType text' = .ok t' →
      (∀ f ∈ fs', f.1 ∈ Transformation.all) →
      (ofUniverse u).evaluateText
          (callText ("is_same" ++ e.text) [chainText fs text, gap ++ chainText fs' text']) =
        .ok (.bool (decide (chainType fs t = chainType fs' t'))) := by
  -- The same for both types that `is_same` compares.
  have chain {text : String} {t : Descriptor} {fs : List (Transformation × Ending)}
      (ht : u.parseType text = .ok t) (hfs : ∀ f ∈ fs, f.1 ∈ Transformation.all) :=
    (denotes_of_parseType (s := ofUniverse u) ht).chain hfs
  have h := chain ht hfs
  refine ⟨h.evaluateText, fun p hp e => ?_, fun e => ?_, ?_, ?_⟩
  · exact (Denotes.call (calls_predicate hp) e (.cons h .nil)
      (Operation.gives_predicate p)).evaluateText
  · exact (Denotes.call (calls_rank _) e (.cons h .nil) Operation.gives_rank).evaluateText
  · intro e gap digits hgap hne hdigits hlt
    have hindex := (denotes_size (s := ofUniverse u) hne hdigits hlt).behind_blanks hgap
    exact (Denotes.call (calls_extent _) e (.cons h (.cons hindex .nil))
      Operation.gives_extent).evaluateText
  · intro e gap text' t' fs' hgap ht' hfs'
    have h' := (chain ht' hfs').behind_blanks hgap
    exact (Denotes.call (calls_isSame _) e (.cons h (.cons h' .nil))
      Operation.gives_isSame).evaluateText

/-- An alias of a reference to an array, and the type of the rows in this array. -/
theorem evaluateText_chain_of_alias :
    let u := Universe.empty.attempt (.alias "rows" "int(&)[2][3]")
    let s := ofUniverse u
    let row := Descriptor.array .int (some 3) .none
    u.parseType "rows" = .ok (.lvalueRef (.array row (some 2) .none)) ∧
      s.evaluateText "remove_extent_t<remove_reference<rows>>" = .ok (.type row) ∧
      s.evaluateText "is_bounded_array_v<remove_extent_t<remove_reference<rows>>>" =
        .ok (.bool true) ∧
      s.evaluateText "rank<remove_extent_t<remove_reference<rows>>>" = .ok (.size 1) ∧
      s.evaluateText "extent_v<remove_extent_t<remove_reference<rows>>,\t00>" = .ok (.size 3) ∧
      s.evaluateText "is_same<remove_extent_t<remove_reference<rows>>, decay_v<int[4]>>" =
        .ok (.bool false) := by
  intro u s row
  have hrows : u.parseType "rows" = .ok (.lvalueRef (.array row (some 2) .none)) := by
    decide +kernel
  have hfour : u.parseType "int[4]" = .ok (.array .int (some 4) .none) := by decide +kernel
  let fs : List (Transformation × Ending) :=
    [(⟨"remove_extent", .removeExtent⟩, .t), (⟨"remove_reference", .removeReference⟩, .none)]
  let fs' : List (Transformation × Ending) := [(⟨"decay", .decay⟩, .v)]
  have hfs : ∀ f ∈ fs, f.1 ∈ Transformation.all := by simp [fs, Transformation.all]
  have hfs' : ∀ f ∈ fs', f.1 ∈ Transformation.all := by simp [fs', Transformation.all]
  obtain ⟨hchain, hpredicate, hrank, hextent, hsame⟩ := evaluateText_chain hrows hfs
  obtain ⟨p, hp, hname, hholds⟩ : ∃ p ∈ Catalog.standard.predicates,
      p.name = "is_bounded_array" ∧
        p.holds (chainType fs (.lvalueRef (.array row (some 2) .none))) = true := by
    decide +kernel
  -- What is left is to compute both texts and both values.
  have key : ∀ {a b : String} {v w : Value}, s.evaluateText a = .ok v → a = b → v = w →
      s.evaluateText b = .ok w := by
    rintro a _ v _ h rfl rfl
    exact h
  refine ⟨hrows, key hchain (by decide +kernel) (by decide +kernel), ?_, ?_, ?_, ?_⟩
  · refine key (hpredicate p hp .v) ?_ (by rw [hholds])
    rw [hname]
    decide +kernel
  · exact key (hrank .none) (by decide +kernel) (by decide +kernel)
  · exact key (hextent .v "\t" "00" (by simp [isBlank]) (by simp) (by simp) (by decide +kernel))
      (by decide +kernel) (by decide +kernel)
  · exact key (hsame .none " " "int[4]" _ fs' (by simp [isBlank]) hfour hfs')
      (by decide +kernel) (by decide +kernel)

end Scope

end TypeTraits
