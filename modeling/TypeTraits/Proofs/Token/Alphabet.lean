import Mathlib.Order.Bounds.Defs
import TypeTraits.Proofs.Token.Places

/-!
# `TypeTraits.Proofs.Token.Alphabet`: which texts have tokens

Whether a text has tokens depends on its characters one by one, except for dots, which are tokens
by threes. A text has tokens exactly if all of its characters are in the alphabet of tokens
(`isTokenChar`) and no dots are left over (`IsTokenText`).

In other texts, `IsFault` says which characters are to blame: those outside the alphabet, and of
the dots in a row the first that is left over. The scanner stops at the first of them, since
characters that are tokens are harmless (`IsHarmless.of_lexes`): they are not to blame, and what is
behind them is to blame exactly if it is without them. `TokenStream.ofText_eq_ok_iff_isTokenText`
is the main theorem.
-/

set_option autoImplicit false

namespace TypeTraits

/-- Whether tokens, or the blanks between them, have the character: blanks, letters, digits, `_` and
the characters of punctuators. -/
def isTokenChar (c : Char) : Bool :=
  isBlank c || isNameChar c || "*&:()[]<>,.".toList.contains c

/-- The characters are `k` dots in a row, between characters that are no dots. -/
structure IsDotRun (cs before : List Char) (k : Nat) (behind : List Char) : Prop where
  split : cs = before ++ (List.replicate k '.' ++ behind)
  starts : before.getLast? ≠ some '.'
  ends : behind.head? ≠ some '.'

/-- All characters are those of tokens, and dots come by threes. -/
structure IsTokenText (cs : List Char) : Prop where
  alphabet : ∀ c ∈ cs, isTokenChar c = true
  dots : ∀ before k behind, IsDotRun cs before k behind → 3 ∣ k

/-- The character at the position is not in the alphabet. -/
def IsForeign (cs : List Char) (i : Nat) : Prop := ∃ c, cs[i]? = some c ∧ isTokenChar c = false

/-- The character at the position is the first dot of its row that is left over when the dots are
taken by threes. -/
def IsLeftOver (cs : List Char) (i : Nat) : Prop :=
  ∃ before k behind, IsDotRun cs before k behind ∧ ¬ 3 ∣ k ∧ i = before.length + k / 3 * 3

/-- The character at the position is to blame. -/
def IsFault (cs : List Char) (i : Nat) : Prop := IsForeign cs i ∨ IsLeftOver cs i

/-- Without faults, a text is as it should be. -/
theorem isTokenText_iff {cs : List Char} : IsTokenText cs ↔ ∀ i, ¬ IsFault cs i := by
  constructor
  · rintro h i (⟨c, hi, hc⟩ | ⟨before, k, behind, hrun, hk, rfl⟩)
    · rw [h.alphabet c (List.mem_of_getElem? hi)] at hc
      exact nomatch hc
    · exact hk (h.dots before k behind hrun)
  · intro h
    refine ⟨fun c hc => ?_, fun before k behind hrun => ?_⟩
    · obtain ⟨i, hi⟩ := List.getElem?_of_mem hc
      by_contra hforeign
      exact h i (.inl ⟨c, hi, Bool.eq_false_iff.mpr hforeign⟩)
    · by_contra hk
      exact h _ (.inr ⟨before, k, behind, hrun, hk, rfl⟩)

/-! ### Dots in a row -/

section
variable {c : Char} {cs before behind : List Char} {i k : Nat}

/-- A character that is no dot ends any row of dots. -/
theorem isDotRun_cons_iff (hdot : c ≠ '.') :
    IsDotRun (c :: cs) before (k + 1) behind ↔
      ∃ before', before = c :: before' ∧ IsDotRun cs before' (k + 1) behind := by
  constructor
  · rintro ⟨hsplit, hstarts, hends⟩
    cases before with
    | nil =>
      cases hsplit
      exact absurd rfl hdot
    | cons b before =>
      cases hsplit
      -- In front of the row there is still no dot.
      refine ⟨before, rfl, rfl, fun hlast => hstarts ?_, hends⟩
      rw [List.getLast?_cons, hlast]
      rfl
  · rintro ⟨before, rfl, rfl, hstarts, hends⟩
    refine ⟨rfl, ?_, hends⟩
    rw [List.getLast?_cons]
    cases hlast : before.getLast? with
    | none => simpa using hdot
    | some b =>
      rw [hlast] at hstarts
      exact hstarts

/-- Within the first three of the characters there are only dots. -/
theorem eq_dot_of_mem {pre rest : List Char} (h : '.' :: '.' :: '.' :: cs = pre ++ rest)
    (hlen : pre.length ≤ 3) : ∀ d ∈ pre, d = '.' := by
  have hpre : pre <+: ['.', '.', '.'] :=
    List.prefix_of_prefix_length_le ⟨rest, h.symm⟩ ⟨cs, rfl⟩ hlen
  intro d hd
  simpa using hpre.subset hd

/-- And three or more of the characters begin with these. -/
theorem exists_eq_dots {pre rest : List Char} (h : '.' :: '.' :: '.' :: cs = pre ++ rest)
    (hlen : 3 ≤ pre.length) : ∃ pre', pre = '.' :: '.' :: '.' :: pre' ∧ cs = pre' ++ rest := by
  obtain ⟨pre', rfl⟩ : ['.', '.', '.'] <+: pre :=
    List.prefix_of_prefix_length_le ⟨cs, rfl⟩ ⟨rest, h.symm⟩ hlen
  exact ⟨pre', rfl, by simpa using h⟩

/-- Three dots in front are a row of their own, or the first of a longer row. -/
theorem isDotRun_dots_iff :
    IsDotRun ('.' :: '.' :: '.' :: cs) before k behind ↔
      (∃ before', before' ≠ [] ∧ before = '.' :: '.' :: '.' :: before' ∧
        IsDotRun cs before' k behind) ∨
      before = [] ∧ ∃ k', k = 3 + k' ∧ IsDotRun cs [] k' behind := by
  constructor
  · rintro ⟨hsplit, hstarts, hends⟩
    cases hlast : before.getLast? with
    | none =>
      obtain rfl := List.getLast?_eq_none_iff.mp hlast
      match k with
      | 0 | 1 | 2 =>
        cases hsplit
        exact absurd rfl hends
      | k + 3 =>
        cases hsplit
        exact .inr ⟨rfl, k, Nat.add_comm _ _, rfl, by simp, hends⟩
    | some d =>
      -- The last character in front of the row is no dot, so there are more than three.
      have hd : d ≠ '.' := fun hd => hstarts (by rw [hlast, hd])
      have hlong : 3 < before.length := by
        by_contra hlen
        exact hd (eq_dot_of_mem hsplit (not_lt.mp hlen) d (List.mem_of_getLast? hlast))
      obtain ⟨before, rfl, hcs⟩ := exists_eq_dots hsplit hlong.le
      have hne : before ≠ [] := List.ne_nil_of_length_pos (by simpa using hlong)
      refine .inl ⟨before, hne, rfl, hcs, ?_, hends⟩
      obtain ⟨b, before, rfl⟩ := List.exists_cons_of_ne_nil hne
      simpa using hstarts
  · rintro (⟨before, hne, rfl, rfl, hstarts, hends⟩ | ⟨rfl, k, rfl, rfl, -, hends⟩)
    · refine ⟨rfl, ?_, hends⟩
      obtain ⟨b, before, rfl⟩ := List.exists_cons_of_ne_nil hne
      simpa using hstarts
    · refine ⟨?_, by simp, hends⟩
      rw [Nat.add_comm]
      rfl

/-- Behind a character that is no dot, the same dots are left over. -/
theorem isLeftOver_cons_iff (hdot : c ≠ '.') :
    IsLeftOver (c :: cs) i ↔ ∃ j, i = 1 + j ∧ IsLeftOver cs j := by
  constructor
  · rintro ⟨before, k, behind, hrun, hk, rfl⟩
    -- In a row of no dots, none is left over.
    cases k with
    | zero => exact absurd (Nat.dvd_zero 3) hk
    | succ k =>
      obtain ⟨before, rfl, hrun'⟩ := (isDotRun_cons_iff hdot).mp hrun
      refine ⟨_, ?_, before, k + 1, behind, hrun', hk, rfl⟩
      rw [List.length_cons]
      omega
  · rintro ⟨_, rfl, before, k, behind, hrun, hk, rfl⟩
    cases k with
    | zero => exact absurd (Nat.dvd_zero 3) hk
    | succ k =>
      refine ⟨c :: before, k + 1, behind, (isDotRun_cons_iff hdot).mpr ⟨before, rfl, hrun⟩, hk, ?_⟩
      rw [List.length_cons]
      omega

/-- And behind three dots, since the other dots of their row are still taken by threes. -/
theorem isLeftOver_dots_iff :
    IsLeftOver ('.' :: '.' :: '.' :: cs) i ↔ ∃ j, i = 3 + j ∧ IsLeftOver cs j := by
  constructor
  · rintro ⟨before, k, behind, hrun, hk, rfl⟩
    -- The row begins further behind, or it goes on from the three dots.
    rcases isDotRun_dots_iff.mp hrun with ⟨before, -, rfl, hrun'⟩ | ⟨rfl, k, rfl, hrun'⟩
    · refine ⟨_, ?_, before, k, behind, hrun', hk, rfl⟩
      simp only [List.length_cons]
      omega
    · refine ⟨_, ?_, [], k, behind, hrun', by omega, rfl⟩
      simp only [List.length_nil]
      omega
  · rintro ⟨_, rfl, before, k, behind, hrun, hk, rfl⟩
    by_cases hne : before = []
    · subst hne
      refine ⟨[], 3 + k, behind, isDotRun_dots_iff.mpr (.inr ⟨rfl, k, rfl, hrun⟩), by omega, ?_⟩
      simp only [List.length_nil]
      omega
    · have hrun' := isDotRun_dots_iff.mpr (.inl ⟨before, hne, rfl, hrun⟩)
      refine ⟨_, k, behind, hrun', hk, ?_⟩
      simp only [List.length_cons]
      omega

end

/-! ### Characters without faults -/

/-- Behind characters of the alphabet, the same characters are foreign. -/
theorem isForeign_append_iff {cs rest : List Char} {i : Nat}
    (halphabet : ∀ c ∈ cs, isTokenChar c = true) :
    IsForeign (cs ++ rest) i ↔ ∃ j, i = cs.length + j ∧ IsForeign rest j := by
  constructor
  · rintro ⟨c, hi, hc⟩
    by_cases hlt : i < cs.length
    · rw [List.getElem?_append_left hlt] at hi
      rw [halphabet c (List.mem_of_getElem? hi)] at hc
      exact nomatch hc
    · rw [List.getElem?_append_right (not_lt.mp hlt)] at hi
      exact ⟨i - cs.length, by omega, c, hi, hc⟩
  · rintro ⟨j, rfl, c, hj, hc⟩
    refine ⟨c, ?_, hc⟩
    rwa [List.getElem?_append_right (Nat.le_add_right _ _), Nat.add_sub_cancel_left]

/-- What is behind the characters has the same faults as alone, and the characters have none. -/
def IsHarmless (cs : List Char) : Prop :=
  ∀ rest i, IsFault (cs ++ rest) i ↔ ∃ j, i = cs.length + j ∧ IsFault rest j

namespace IsHarmless

variable {cs cs' : List Char}

/-- No characters at all are harmless. -/
theorem nil : IsHarmless [] := by
  intro rest i
  simp

/-- Harmless characters can stand behind one another. -/
theorem append (h : IsHarmless cs) (h' : IsHarmless cs') : IsHarmless (cs ++ cs') := by
  intro rest i
  rw [List.append_assoc, h]
  constructor
  · rintro ⟨j, rfl, hj⟩
    obtain ⟨k, rfl, hk⟩ := (h' rest j).mp hj
    exact ⟨k, by rw [List.length_append, Nat.add_assoc], hk⟩
  · rintro ⟨k, rfl, hk⟩
    refine ⟨cs'.length + k, by rw [List.length_append, Nat.add_assoc], ?_⟩
    exact (h' rest _).mpr ⟨k, rfl, hk⟩

/-- Characters of the alphabet are harmless if no other dots are left over behind them. -/
theorem of_isLeftOver_iff (halphabet : ∀ c ∈ cs, isTokenChar c = true)
    (hdots : ∀ rest i, IsLeftOver (cs ++ rest) i ↔ ∃ j, i = cs.length + j ∧ IsLeftOver rest j) :
    IsHarmless cs := by
  intro rest i
  rw [IsFault, isForeign_append_iff halphabet, hdots]
  constructor
  · rintro (⟨j, rfl, hj⟩ | ⟨j, rfl, hj⟩)
    · exact ⟨j, rfl, .inl hj⟩
    · exact ⟨j, rfl, .inr hj⟩
  · rintro ⟨j, rfl, hj | hj⟩
    · exact .inl ⟨j, rfl, hj⟩
    · exact .inr ⟨j, rfl, hj⟩

/-- A character of the alphabet is harmless, unless it is a dot. -/
theorem singleton {c : Char} (hc : isTokenChar c = true) (hdot : c ≠ '.') : IsHarmless [c] :=
  .of_isLeftOver_iff (by simpa using hc) fun _ _ => isLeftOver_cons_iff hdot

/-- Dots are harmless by threes. -/
theorem dots : IsHarmless ['.', '.', '.'] := by
  have hdot : isTokenChar '.' = true := by decide
  exact .of_isLeftOver_iff (by simpa using hdot) fun _ _ => isLeftOver_dots_iff

/-- A blank is harmless. -/
theorem of_isBlank {c : Char} (h : isBlank c = true) : IsHarmless [c] := by
  refine .singleton (by simp [isTokenChar, h]) ?_
  rintro rfl
  exact nomatch h

/-- So is any number of characters of the alphabet without a dot among them. -/
theorem of_forall (h : ∀ c ∈ cs, isTokenChar c = true ∧ c ≠ '.') : IsHarmless cs := by
  induction cs with
  | nil => exact .nil
  | cons c cs ih =>
    rw [List.forall_mem_cons] at h
    exact append (.singleton h.1.1 h.1.2) (ih h.2)

/-- A punctuator is three dots or has no dots at all. -/
theorem of_mark (m : Mark) : IsHarmless m.text.toList := by
  have hplain : m = .ellipsis ∨ m.text.toList.all (fun c => isTokenChar c && c != '.') = true := by
    cases m <;> decide
  rcases hplain with rfl | hplain
  · exact .dots
  · exact .of_forall (by simpa using hplain)

/-- The characters of a whole symbol are harmless: a name and a number have no dots. -/
theorem of_isLexical {s : Symbol} (h : s.IsLexical) : IsHarmless s.text.toList := by
  rcases h.isNameChar_or_mark with hname | ⟨m, rfl⟩
  · refine .of_forall fun c hc => ⟨by simp [isTokenChar, hname c hc], ?_⟩
    rintro rfl
    exact nomatch hname _ hc
  · exact .of_mark m

/-- Characters that are tokens are harmless. -/
theorem of_lexes {ss : List Symbol} (h : Lexes cs ss) : IsHarmless cs := by
  induction h with
  | nil => exact .nil
  | blank hb _ ih => exact append (.of_isBlank hb) ih
  | symbol hs _ _ ih => exact append (.of_isLexical hs) ih

/-- Alone, harmless characters have no faults. -/
theorem isTokenText (h : IsHarmless cs) : IsTokenText cs := by
  have hnil : ∀ i, ¬ IsFault [] i := by
    rintro i (⟨c, hi, -⟩ | ⟨before, k, behind, hrun, hk, -⟩)
    · exact nomatch hi
    · cases k with
      | zero => exact hk (Nat.dvd_zero 3)
      | succ k => simpa [List.replicate_succ] using hrun.split
  refine isTokenText_iff.mpr fun i hi => ?_
  rw [← List.append_nil cs, h] at hi
  obtain ⟨j, -, hj⟩ := hi
  exact hnil j hj

end IsHarmless

/-! ### Where the scanner stops -/

/-- Of the characters of punctuators, only the dot is not always the beginning of one. -/
theorem Mark.eq_dot_of_longest?_eq_none {c : Char} {cs : List Char}
    (hc : c ∈ "*&:()[]<>,.".toList) (h : Mark.longest? (c :: cs) = none) : c = '.' := by
  unfold Mark.longest? at h
  split at h
  case h_14 => simp_all
  all_goals exact nomatch h

/-- Dots that begin no punctuator are one or two in a row. -/
theorem Mark.exists_isDotRun_of_longest?_eq_none {cs : List Char}
    (h : Mark.longest? ('.' :: cs) = none) :
    ∃ k behind, (k = 1 ∨ k = 2) ∧ IsDotRun ('.' :: cs) [] k behind := by
  cases cs with
  | nil => exact ⟨1, [], .inl rfl, rfl, by simp, by simp⟩
  | cons d cs =>
    by_cases hd : d = '.'
    · subst hd
      cases cs with
      | nil => exact ⟨2, [], .inr rfl, rfl, by simp, by simp⟩
      | cons b cs =>
        -- A third dot would make a punctuator.
        have hb : b ≠ '.' := by
          rintro rfl
          exact nomatch h
        exact ⟨2, b :: cs, .inr rfl, rfl, by simp, by simpa using hb⟩
    · exact ⟨1, d :: cs, .inl rfl, rfl, by simp, by simpa using hd⟩

/-- A character that begins no symbol is to blame. -/
theorem isFault_of_longest? {c : Char} {cs : List Char} (hb : isBlank c = false)
    (h : Symbol.longest? (c :: cs) = none) : IsFault (c :: cs) 0 := by
  cases hc : isTokenChar c with
  | false => exact .inl ⟨c, rfl, hc⟩
  | true =>
    -- The character begins no name and no number, so it is one of a punctuator.
    have hstart : isNameStart c = false := by
      by_contra hs
      rw [Symbol.longest?_cons_name (by simpa using hs)] at h
      exact nomatch h
    have hdigit : c.isDigit = false := by
      by_contra hd
      rw [Symbol.longest?_cons_literal hstart (by simpa using hd)] at h
      exact nomatch h
    rw [Symbol.longest?_cons_mark hstart hdigit, Option.map_eq_none_iff] at h
    have hname : isNameChar c = false := by
      rw [isNameStart, Bool.or_eq_false_iff] at hstart
      rw [isNameChar, Char.isAlphanum, hstart.1, hstart.2, hdigit]
      rfl
    have hmark : c ∈ "*&:()[]<>,.".toList := by
      simpa [isTokenChar, hb, hname] using hc
    obtain rfl := Mark.eq_dot_of_longest?_eq_none hmark h
    obtain ⟨k, behind, hk, hrun⟩ := Mark.exists_isDotRun_of_longest?_eq_none h
    exact .inr ⟨[], k, behind, hrun, by omega, by simp only [List.length_nil]; omega⟩

namespace TokenStream

/-- Where the scanner stops, it has passed characters that are tokens, and the next one begins
none. -/
theorem exists_of_scan_eq_error {cs : List Char} {offset : Nat} {span : Span}
    (h : scan 0 offset cs = .error span) :
    ∃ before c behind ts, cs = before ++ c :: behind ∧ LexesAt offset before ts ∧
      IsFault (c :: behind) 0 ∧ span.start = offset + byteLength before ∧
      span.stop = span.start + c.utf8Size := by
  induction cs using front_induction generalizing offset with
  | nil => exact nomatch h
  | blank d cs hb ih =>
    rw [scan_blank hb] at h
    obtain ⟨before, c, behind, ts, rfl, hlex, hfault, hstart, hstop⟩ := ih h
    have hbytes : offset + byteLength (d :: before) = offset + d.utf8Size + byteLength before := by
      rw [byteLength, Nat.add_assoc]
    exact ⟨d :: before, c, behind, ts, rfl, .blank hb hlex, hfault, by rw [hbytes, hstart], hstop⟩
  | symbol s cs hs hstops ih =>
    rw [scan_symbol hs hstops, except_map_eq_error] at h
    obtain ⟨before, c, behind, ts, rfl, hlex, hfault, hstart, hstop⟩ := ih h
    have hbytes : offset + byteLength (s.text.toList ++ before) =
        offset + s.text.length + byteLength before := by
      rw [byteLength_append, hs.byteLength_text, Nat.add_assoc]
    exact ⟨s.text.toList ++ before, c, behind, _, (List.append_assoc _ _ _).symm,
      .symbol hs hstops.of_append hlex, hfault, by rw [hbytes, hstart], hstop⟩
  | stuck c cs hb hlong =>
    rw [scan_stuck hb hlong] at h
    cases h
    exact ⟨[], c, cs, [], rfl, .nil, isFault_of_longest? hb hlong, rfl, rfl⟩

/-- The lexer fails where the scanner does, and says that there is no token. -/
theorem ofText_eq_error_iff {text : String} {d : Diagnostic} :
    TokenStream.ofText text = .error d ↔
      ∃ span, scan 0 0 text.toList = .error span ∧ d = ⟨.invalidToken, span⟩ := by
  unfold TokenStream.ofText TokenStream.ofText?
  cases scan 0 0 text.toList with
  | error span => simp [Except.map, eq_comm]
  | ok tokens => simp [Except.map]

/-- A text without tokens is diagnosed at the first character to blame. -/
theorem exists_of_ofText_eq_error {text : String} {d : Diagnostic}
    (h : TokenStream.ofText text = .error d) :
    ∃ before c behind, text.toList = before ++ c :: behind ∧
      IsLeast {i | IsFault text.toList i} before.length ∧
      d = ⟨.invalidToken, ⟨byteLength before, byteLength before + c.utf8Size⟩⟩ ∧
      ∃ s, TokenStream.ofText (String.ofList before) = .ok s := by
  obtain ⟨⟨start, stop⟩, hscan, rfl⟩ := ofText_eq_error_iff.mp h
  obtain ⟨before, c, behind, ts, htext, hlex, hfault, hstart, hstop⟩ :=
    exists_of_scan_eq_error hscan
  rw [Nat.zero_add] at hstart
  -- What is in front is cut into tokens, so it adds no fault.
  have hfaults := IsHarmless.of_lexes hlex.erase (c :: behind)
  refine ⟨before, c, behind, htext, ⟨?_, ?_⟩, ?_, ?_⟩
  · show IsFault text.toList before.length
    rw [htext, hfaults]
    exact ⟨0, rfl, hfault⟩
  · intro i (hi : IsFault text.toList i)
    rw [htext, hfaults] at hi
    obtain ⟨j, rfl, -⟩ := hi
    exact Nat.le_add_right _ _
  · simp only at hstart hstop
    rw [hstop, hstart]
  · refine ⟨⟨ts, _⟩, ofText_eq_ok_iff_lexesAt.mpr ⟨?_, rfl⟩⟩
    rwa [String.toList_ofList]

/-- A text has tokens exactly if all of its characters are in the alphabet and its dots come by
threes. Any other text is diagnosed at the first character to blame, and what is in front of it has
tokens. -/
theorem ofText_eq_ok_iff_isTokenText (text : String) :
    ((∃ s, TokenStream.ofText text = .ok s) ↔ IsTokenText text.toList) ∧
    ∀ d, TokenStream.ofText text = .error d → ∃ before c behind,
      text.toList = before ++ c :: behind ∧
      IsLeast {i | IsFault text.toList i} before.length ∧
      d = ⟨.invalidToken, ⟨byteLength before, byteLength before + c.utf8Size⟩⟩ ∧
      ∃ s, TokenStream.ofText (String.ofList before) = .ok s := by
  refine ⟨⟨?_, ?_⟩, fun d => exists_of_ofText_eq_error⟩
  · rintro ⟨s, h⟩
    have hlex := (ofText_eq_ok_iff_lexesAt.mp h).1
    exact (IsHarmless.of_lexes hlex.erase).isTokenText
  · intro h
    cases hd : TokenStream.ofText text with
    | ok s => exact ⟨s, rfl⟩
    | error d =>
      -- Where the lexer stops there is a fault.
      obtain ⟨before, c, behind, -, hleast, -, -⟩ := exists_of_ofText_eq_error hd
      exact absurd hleast.1 (isTokenText_iff.mp h _)

/-- Six dots are two times three. Of four dots in a row the last is to blame, and what is behind it
is not. -/
theorem ofText_eq_ok_iff_isTokenText_of_dots :
    IsTokenText "f(int&&, ......)".toList ∧ ¬ IsTokenText "f(....) é".toList ∧
      TokenStream.ofText "f(....) é" = .error ⟨.invalidToken, ⟨5, 6⟩⟩ ∧
      IsLeast {i | IsFault "f(....) é".toList i} 5 ∧
      ∃ s, TokenStream.ofText "f(..." = .ok s := by
  obtain ⟨hsix, -⟩ := ofText_eq_ok_iff_isTokenText "f(int&&, ......)"
  obtain ⟨hfour, hdiagnosed⟩ := ofText_eq_ok_iff_isTokenText "f(....) é"
  have h : TokenStream.ofText "f(....) é" = .error ⟨.invalidToken, ⟨5, 6⟩⟩ := by decide +kernel
  obtain ⟨before, c, behind, htext, hleast, hd, hfront⟩ := hdiagnosed _ h
  have hbytes : 5 = byteLength before := congrArg (·.span.start) hd
  have hbefore : before = "f(...".toList := by
    rw [← takeBytes_append before (c :: behind), ← htext, ← hbytes]
    decide +kernel
  rw [hbefore] at hleast hfront
  refine ⟨hsix.mp ⟨_, rfl⟩, ?_, h, hleast, ?_⟩
  · rw [← hfour, h]
    exact nofun
  · rwa [String.ofList_toList] at hfront

end TokenStream

end TypeTraits
