import TypeTraits.Proofs.Token.Places

/-!
# `TypeTraits.Proofs.Token.Layout`: what tokens keep of a text

The tokens of a text and the blanks between them are the whole text. A token covers at least
one character, ends before the next one begins, and its symbol is what its span covers; a
character that no span covers is blank (`TokenStream.isLayoutOf`).

So the symbols are all that a text says. One blank behind each symbol is always enough to keep
it apart from the next one, as no symbol goes on with a blank (`Lexes.intercalate`): a text can
be written again from its symbols, whatever its layout was.
-/

set_option autoImplicit false

namespace TypeTraits

/-! ### Spans in order -/

namespace Span

variable {lo hi : Nat} {ss : List Span}

/-- Spans in order begin behind the lower bound. -/
theorem InOrder.le_start {s : Span} (h : InOrder lo hi ss) (hs : s ∈ ss) : lo ≤ s.start := by
  induction ss generalizing lo with
  | nil => exact nomatch hs
  | cons s' ss ih =>
    rcases List.mem_cons.mp hs with rfl | hs
    · exact h.1
    · have := ih h.2.2 hs
      have := h.1
      have := h.2.1
      omega

/-- The former of two spans in order ends before the latter begins. -/
theorem InOrder.pairwise (h : InOrder lo hi ss) : ss.Pairwise fun s s' => s.stop ≤ s'.start := by
  induction ss generalizing lo with
  | nil => exact .nil
  | cons s ss ih => exact .cons (fun s' hs' => h.2.2.le_start hs') (ih h.2.2)

end Span

/-! ### Tokens and blanks -/

namespace LexesAt

variable {n : Nat} {cs : List Char} {ts : List Token}

/-- A token stands where its characters do, of which there is one at least. -/
theorem exists_of_mem {t : Token} (h : LexesAt n cs ts) (ht : t ∈ ts) :
    ∃ before behind, cs = before ++ (t.symbol.text.toList ++ behind) ∧
      t.span.start = n + byteLength before ∧
      t.span.stop = n + byteLength before + byteLength t.symbol.text.toList ∧
      t.span.start < t.span.stop := by
  induction h with
  | nil => exact nomatch ht
  | @blank n c cs ts _ _ ih =>
    obtain ⟨before, behind, rfl, hstart, hstop, hlt⟩ := ih ht
    refine ⟨c :: before, behind, rfl, ?_, ?_, hlt⟩
    · rw [hstart, byteLength, Nat.add_assoc]
    · rw [hstop, byteLength, Nat.add_assoc n]
  | @symbol n s cs ts hs _ _ ih =>
    rcases List.mem_cons.mp ht with rfl | ht
    · obtain ⟨c, rest, htext⟩ := hs.exists_cons
      -- A symbol is not empty, so it ends behind its beginning.
      have hlen : s.text.length ≠ 0 := by
        rw [← String.length_toList, htext]
        exact Nat.succ_ne_zero _
      refine ⟨[], cs, rfl, rfl, ?_, ?_⟩
      · rw [hs.byteLength_text]
        rfl
      · show n < n + s.text.length
        omega
    · obtain ⟨before, behind, rfl, hstart, hstop, hlt⟩ := ih ht
      refine ⟨s.text.toList ++ before, behind, by rw [List.append_assoc], ?_, ?_, hlt⟩
      · rw [hstart, byteLength_append, hs.byteLength_text, Nat.add_assoc]
      · rw [hstop, byteLength_append, hs.byteLength_text, Nat.add_assoc n]

/-- A character that belongs to no token is blank. -/
theorem isBlank_of_uncovered (before : List Char) {behind : List Char} {c : Char}
    (h : LexesAt n (before ++ c :: behind) ts)
    (hc : ∀ t ∈ ts, n + byteLength before < t.span.start ∨ t.span.stop ≤ n + byteLength before) :
    isBlank c = true := by
  generalize hcs : before ++ c :: behind = cs at h
  induction h generalizing before with
  | nil => exact absurd hcs (by simp)
  | @blank n b cs ts hb _ ih =>
    cases before with
    | nil =>
      cases hcs
      exact hb
    | cons b' before =>
      cases hcs
      rw [byteLength, ← Nat.add_assoc] at hc
      exact ih before hc rfl
  | @symbol n s cs ts hs _ _ ih =>
    have hbytes := hs.byteLength_text
    -- The character is behind the symbol, as the symbol's own characters are covered.
    rcases List.append_eq_append_iff.mp hcs with ⟨rest, htext, hrest⟩ | ⟨rest, rfl, rfl⟩
    · cases rest with
      | nil =>
        rw [List.append_nil] at htext
        rw [htext] at hbytes
        refine ih [] (fun t ht => ?_) hrest
        have := hc t (List.mem_cons_of_mem _ ht)
        simp only [byteLength]
        omega
      | cons c' rest =>
        have hhead := hc _ List.mem_cons_self
        rw [htext, byteLength_append] at hbytes
        have hpos : 0 < byteLength (c' :: rest) := Nat.add_pos_left c'.utf8Size_pos _
        simp only at hhead
        omega
    · refine ih rest (fun t ht => ?_) rfl
      have := hc t (List.mem_cons_of_mem _ ht)
      rw [byteLength_append, hbytes] at this
      omega

end LexesAt

/-! ### One blank between symbols -/

namespace Lexes

variable {ss : List Symbol}

/-- Symbols can be written with one blank between them. -/
theorem intercalate (h : ∀ s ∈ ss, s.IsLexical) :
    Lexes ([' '].intercalate (ss.map (·.text.toList))) ss := by
  induction ss with
  | nil => exact .nil
  | cons s ss ih =>
    rw [List.forall_mem_cons] at h
    cases ss with
    | nil => simpa [List.intercalate] using of_symbol h.1
    | cons s' ss =>
      -- Between two symbols there is a blank, and no symbol goes on with one.
      have hrest : Lexes (' ' :: [' '].intercalate ((s' :: ss).map (·.text.toList))) (s' :: ss) :=
        .blank rfl (ih h.2)
      have happend := (of_symbol h.1).append hrest fun s => s.joins_eq_false List.mem_cons_self
      simpa [List.intercalate] using happend

end Lexes

/-! ### The tokens of a text -/

/-- The tokens and the end behind them are those of the text, and are all that is in it. -/
structure TokenStream.IsLayoutOf (s : TokenStream) (text : String) : Prop where
  start_lt_stop : ∀ t ∈ s.tokens, t.span.start < t.span.stop
  inOrder : s.tokens.Pairwise fun t t' => t.span.stop ≤ t'.span.start
  text_eq : ∀ t ∈ s.tokens, t.symbol.text = t.span.slice text
  /-- A character in front of, behind or between the tokens is blank. -/
  mem_blanks : ∀ (before behind : List Char) (c : Char), text.toList = before ++ c :: behind →
    (∀ t ∈ s.tokens, byteLength before < t.span.start ∨ t.span.stop ≤ byteLength before) →
    c ∈ [' ', '\t', '\r', '\n', '\x0c']
  stop_eq : s.stop = text.utf8ByteSize
  /-- The text can be written again with one blank between its symbols. -/
  respaced : ∃ s', TokenStream.ofText (" ".intercalate (s.tokens.map (·.symbol.text))) = .ok s' ∧
    symbols s'.tokens = symbols s.tokens

namespace TokenStream

/-- The tokens of a text cover all of it but blanks, and each one stands for what is written in its
place. -/
theorem isLayoutOf {text : String} {s : TokenStream} (h : TokenStream.ofText text = .ok s) :
    s.IsLayoutOf text := by
  obtain ⟨hlex, hstop⟩ := ofText_eq_ok_iff_lexesAt.mp h
  exact
    { start_lt_stop := fun t ht => by
        obtain ⟨-, -, -, -, -, hlt⟩ := hlex.exists_of_mem ht
        exact hlt
      inOrder := List.pairwise_map.mp hlex.inOrder.pairwise
      text_eq := fun t ht => by
        obtain ⟨before, behind, htext, hstart, hstop, -⟩ := hlex.exists_of_mem ht
        rw [Nat.zero_add] at hstart hstop
        rw [Span.slice_eq htext hstart hstop, String.ofList_toList]
      mem_blanks := fun before behind c htext hc => by
        rw [htext] at hlex
        have hblank : isBlank c = true := hlex.isBlank_of_uncovered before (by simpa using hc)
        simp only [isBlank, Bool.or_eq_true, beq_iff_eq] at hblank
        simp only [List.mem_cons, List.not_mem_nil, or_false]
        tauto
      stop_eq := hstop
      respaced := by
        refine ofText_eq_ok_iff.mpr ?_
        have hspaced : (" ".intercalate (s.tokens.map (·.symbol.text))).toList =
            [' '].intercalate ((symbols s.tokens).map (·.text.toList)) := by
          rw [String.toList_intercalate, symbols, List.map_map, List.map_map]
          rfl
        rw [hspaced]
        exact Lexes.intercalate fun s hs => hlex.erase.isLexical_of_mem hs }

end TokenStream

end TypeTraits
