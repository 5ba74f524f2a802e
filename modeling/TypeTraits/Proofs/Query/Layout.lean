import TypeTraits.Proofs.Diagnostic.InText
import TypeTraits.Proofs.Query.Relocation
import TypeTraits.Proofs.Token.Layout

/-!
# `TypeTraits.Proofs.Query.Layout`: answers do not depend on the layout

Symbols can be given places without a text: each the number that it has among them
(`TokenStream.numbered`). Whatever text the symbols are in, its tokens are these, relocated to
where they stand in the text (`Relocation.ofStream`), so the answer for the text is the answer
for the numbered symbols with its span relocated (`Scope.evaluateText_moves`). Two texts with
the same symbols have the same numbered ones in common.

The numbers in the span of a failure say which tokens it runs over
(`TokenStream.SamePlace.of_isOn`). Together with what tokens keep of a text this is
`TokenStream.layout_is_immaterial`.
-/

set_option autoImplicit false

namespace TypeTraits

/-- The symbols at places that are their numbers, counted from 1. -/
def TokenStream.numbered (ss : List Symbol) : TokenStream :=
  ⟨ss.mapIdx fun i s => ⟨s, ⟨i + 1, i + 1⟩⟩, ss.length + 1⟩

/-- From the numbers of symbols to their places in a text. -/
def Relocation.ofStream (s : TokenStream) :
    Relocation (TokenStream.numbered (symbols s.tokens)).stop s.stop where
  start
    | 0 => 0
    | i + 1 => (s.tokens[i]?.map (·.span.start)).getD s.stop
  finish
    | 0 => 0
    | i + 1 => (s.tokens[i]?.map (·.span.stop)).getD s.stop
  start_zero := rfl
  finish_zero := rfl
  start_stop := by simp [TokenStream.numbered, symbols]
  finish_stop := by simp [TokenStream.numbered, symbols]

namespace TokenStream

variable {s s' : TokenStream}

/-- In the numbered tokens, each stands at its number. -/
theorem getElem?_numbered (ss : List Symbol) (i : Nat) :
    (numbered ss).tokens[i]? = ss[i]?.map fun s => ⟨s, ⟨i + 1, i + 1⟩⟩ :=
  List.getElem?_mapIdx

/-- The tokens of a text are its symbols, relocated. -/
theorem tokens_numbered (s : TokenStream) :
    (Relocation.ofStream s).tokens (numbered (symbols s.tokens)).tokens = s.tokens := by
  refine List.ext_getElem? fun i => ?_
  rw [Relocation.tokens, List.getElem?_map, getElem?_numbered, List.getElem?_map]
  cases h : s.tokens[i]? with
  | none => rfl
  | some t =>
    simp [Relocation.token, Relocation.span, Relocation.ofStream, h]

/-- The two spans run over tokens of the same numbers, or both stand at the end. -/
inductive SamePlace (s s' : TokenStream) : Span → Span → Prop
  | atEnd : SamePlace s s' ⟨s.stop, s.stop⟩ ⟨s'.stop, s'.stop⟩
  | tokens {i j : Nat} {t u t' u' : Token} :
    i ≤ j → s.tokens[i]? = some t → s.tokens[j]? = some u →
    s'.tokens[i]? = some t' → s'.tokens[j]? = some u' →
    SamePlace s s' ⟨t.span.start, u.span.stop⟩ ⟨t'.span.start, u'.span.stop⟩

/-- A span of numbered tokens in a row runs from a number to another that is not smaller. -/
theorem exists_of_isAmong_numbered {ss : List Symbol} {p : Span}
    (h : p.IsAmong (numbered ss).tokens) :
    ∃ i j, i ≤ j ∧ j < ss.length ∧ p = ⟨i + 1, j + 1⟩ := by
  obtain ⟨before, part, behind, htokens, hne, rfl⟩ := h
  have hpos : 0 < part.length := List.length_pos_iff.mpr hne
  -- The tokens of the part are numbered from behind those in front.
  have hplace : ∀ {k : Nat} {t : Token}, k < part.length → part[k]? = some t →
      before.length + k < ss.length ∧ t.span = ⟨before.length + k + 1, before.length + k + 1⟩ := by
    intro k t hk ht
    have hget : (numbered ss).tokens[before.length + k]? = some t := by
      rw [htokens, List.append_assoc, List.getElem?_append_right (Nat.le_add_right _ k),
        Nat.add_sub_cancel_left, List.getElem?_append_left hk, ht]
    rw [getElem?_numbered] at hget
    obtain ⟨s, hs, rfl⟩ := Option.map_eq_some_iff.mp hget
    exact ⟨(List.getElem?_eq_some_iff.mp hs).1, rfl⟩
  have hlast : part.length - 1 < part.length := by omega
  have hhead? : part.head? = some part[0] := by
    rw [List.head?_eq_getElem?, List.getElem?_eq_getElem hpos]
  have hlast? : part.getLast? = some part[part.length - 1] := by
    rw [List.getLast?_eq_getElem?, List.getElem?_eq_getElem hlast]
  obtain ⟨-, ht⟩ := hplace hpos (List.getElem?_eq_getElem hpos)
  obtain ⟨hlt, hu⟩ := hplace hlast (List.getElem?_eq_getElem hlast)
  refine ⟨before.length, before.length + (part.length - 1), Nat.le_add_right _ _, hlt, ?_⟩
  simp [hull, hhead?, hlast?, ht, hu]

/-- Relocated to two texts, the place of a failure on the numbered symbols is the same place. -/
theorem SamePlace.of_isOn {d : Diagnostic} (h : symbols s.tokens = symbols s'.tokens)
    (hd : d.IsOn (numbered (symbols s.tokens)).stop (numbered (symbols s.tokens)).tokens) :
    SamePlace s s' ((Relocation.ofStream s).span d.span) ((Relocation.ofStream s').span d.span) := by
  have hlen : s.tokens.length = s'.tokens.length := by simpa using congrArg List.length h
  -- Diagnosed is the end of the text, or what some of its tokens cover.
  rcases hd with ⟨e, rfl⟩ | hamong
  · have hstop : (numbered (symbols s.tokens)).stop = (numbered (symbols s'.tokens)).stop := by
      rw [h]
    show SamePlace s s' ⟨(Relocation.ofStream s).start _, (Relocation.ofStream s).finish _⟩
      ⟨(Relocation.ofStream s').start _, (Relocation.ofStream s').finish _⟩
    rw [(Relocation.ofStream s).start_stop, (Relocation.ofStream s).finish_stop, hstop,
      (Relocation.ofStream s').start_stop, (Relocation.ofStream s').finish_stop]
    exact .atEnd
  · obtain ⟨i, j, hij, hj, hspan⟩ := exists_of_isAmong_numbered hamong
    have hj : j < s.tokens.length := by simpa using hj
    have hi : i < s.tokens.length := by omega
    have hplace : SamePlace s s' _ _ := .tokens hij (List.getElem?_eq_getElem hi)
      (List.getElem?_eq_getElem hj) (List.getElem?_eq_getElem (hlen ▸ hi))
      (List.getElem?_eq_getElem (hlen ▸ hj))
    rw [hspan]
    simpa [Relocation.span, Relocation.ofStream, hi, hj, hlen ▸ hi, hlen ▸ hj] using hplace

end TokenStream

namespace Scope

variable (scope : Scope)

/-- The value of the query that the tokens hold. -/
def evaluateStream (s : TokenStream) : Except Diagnostic Value := do
  scope.evaluate (← s.readAll Query.read)

/-- A failure is one at the end or at tokens. -/
theorem evaluateStream_onError (s : TokenStream) :
    OnError (Diagnostic.IsOn s.stop s.tokens) (scope.evaluateStream s) := by
  refine Query.readAll_onError.bind fun q hq => ?_
  have hon : (Node.query q).IsOn s.tokens := Query.readAll_eq_ok_iff.mp hq
  exact (scope.evaluate_marks q).mono fun d hd => .inr (hd.isAmong hon)

/-- The answer for a text is the answer for its numbered symbols, relocated. -/
theorem evaluateText_moves {text : String} {s : TokenStream}
    (h : TokenStream.ofText text = .ok s) :
    Moves (Relocation.ofStream s).span
      (scope.evaluateStream (TokenStream.numbered (symbols s.tokens)))
      (scope.evaluateText text) := by
  have hread := (Relocation.ofStream s).readAll_query
  rw [TokenStream.tokens_numbered] at hread
  rw [evaluateText, Query.ofText, h, except_bind_ok, hread]
  unfold evaluateStream
  cases (TokenStream.numbered (symbols s.tokens)).readAll Query.read with
  | error d => rfl
  | ok q => exact scope.evaluate_mapSpans _ q

end Scope

/-- The tokens of a text are its characters but for the blanks, and nothing but their symbols
matters to an answer: two texts with the same symbols have the same value in every scope, or
fail with the same problem at the same tokens. -/
theorem TokenStream.layout_is_immaterial :
    (∀ (text : String) (s : TokenStream), TokenStream.ofText text = .ok s → s.IsLayoutOf text) ∧
    ∀ (text text' : String) (s s' : TokenStream) (scope : Scope),
      TokenStream.ofText text = .ok s → TokenStream.ofText text' = .ok s' →
      symbols s.tokens = symbols s'.tokens →
      (∃ v, scope.evaluateText text = .ok v ∧ scope.evaluateText text' = .ok v) ∨
      ∃ d d', scope.evaluateText text = .error d ∧ scope.evaluateText text' = .error d' ∧
        d.problem = d'.problem ∧ s.SamePlace s' d.span d'.span := by
  refine ⟨fun text s h => isLayoutOf h, fun text text' s s' scope h h' hsymbols => ?_⟩
  -- Both texts are compared with one that has the symbols at the places of their numbers.
  have hmoves := scope.evaluateText_moves h
  have hmoves' := scope.evaluateText_moves h'
  have hsame : scope.evaluateStream (numbered (symbols s'.tokens)) =
      scope.evaluateStream (numbered (symbols s.tokens)) := by
    rw [hsymbols]
  cases hvalue : scope.evaluateStream (numbered (symbols s.tokens)) with
  | ok v =>
    rw [hvalue] at hmoves
    rw [hsame, hvalue] at hmoves'
    exact .inl ⟨v, hmoves, hmoves'⟩
  | error d =>
    have hplace := SamePlace.of_isOn hsymbols (scope.evaluateStream_onError _ d hvalue)
    rw [hvalue] at hmoves
    rw [hsame, hvalue] at hmoves'
    exact .inr ⟨_, _, hmoves, hmoves', rfl, hplace⟩

/-- The same query without a blank and with many. The name that is not declared is the fifth
token of both. -/
theorem TokenStream.layout_is_immaterial_of_respaced :
    let text := "rank<decay<w>>"
    let text' := " rank <\tdecay<w >\n>"
    let scope := Scope.ofUniverse .empty
    let s : TokenStream := ⟨[⟨.identifier "rank", ⟨0, 4⟩⟩, ⟨.mark .less, ⟨4, 5⟩⟩,
      ⟨.identifier "decay", ⟨5, 10⟩⟩, ⟨.mark .less, ⟨10, 11⟩⟩, ⟨.identifier "w", ⟨11, 12⟩⟩,
      ⟨.mark .greater, ⟨12, 13⟩⟩, ⟨.mark .greater, ⟨13, 14⟩⟩], 14⟩
    let s' : TokenStream := ⟨[⟨.identifier "rank", ⟨1, 5⟩⟩, ⟨.mark .less, ⟨6, 7⟩⟩,
      ⟨.identifier "decay", ⟨8, 13⟩⟩, ⟨.mark .less, ⟨13, 14⟩⟩, ⟨.identifier "w", ⟨14, 15⟩⟩,
      ⟨.mark .greater, ⟨16, 17⟩⟩, ⟨.mark .greater, ⟨18, 19⟩⟩], 19⟩
    s.IsLayoutOf text ∧ s'.IsLayoutOf text' ∧
      ∃ d d', scope.evaluateText text = .error d ∧ scope.evaluateText text' = .error d' ∧
        d = ⟨.unknownName "w", ⟨11, 12⟩⟩ ∧ d' = ⟨.unknownName "w", ⟨14, 15⟩⟩ ∧
        s.SamePlace s' d.span d'.span := by
  intro text text' scope s s'
  have h : TokenStream.ofText text = .ok s := by decide +kernel
  have h' : TokenStream.ofText text' = .ok s' := by decide +kernel
  have hfails : scope.evaluateText text = .error ⟨.unknownName "w", ⟨11, 12⟩⟩ := by
    decide +kernel
  have hfails' : scope.evaluateText text' = .error ⟨.unknownName "w", ⟨14, 15⟩⟩ := by
    decide +kernel
  obtain ⟨hlayout, hanswer⟩ := layout_is_immaterial
  refine ⟨hlayout text s h, hlayout text' s' h', ?_⟩
  rcases hanswer text text' s s' scope h h' rfl with ⟨v, hv, -⟩ | ⟨d, d', hd, hd', -, hplace⟩
  · exact nomatch hfails.symm.trans hv
  · exact ⟨d, d', hd, hd', Except.error.inj (hd.symm.trans hfails),
      Except.error.inj (hd'.symm.trans hfails'), hplace⟩

end TypeTraits
