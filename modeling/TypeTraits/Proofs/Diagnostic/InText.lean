import TypeTraits.Proofs.Diagnostic.Evaluation
import TypeTraits.Proofs.Diagnostic.Reading

/-!
# `TypeTraits.Proofs.Diagnostic.InText`: every diagnostic points into the text

A text fails in one of three ways: a character of it begins no token, its tokens are not
those of a type or a query, or what was read has no type or value. In each case the
diagnostic points to whole characters of the text (`Diagnostic.PointsInto`), and to one at
least unless the text ended too early. `Diagnostic.pointsInto_of_error` is the main theorem;
it holds in every universe and every scope.

The three ways meet in `Diagnostic.pointsInto_of_cut`, which takes the characters that a
span covers. A character without a token has been found by the scanner, which counts bytes
(`TokenStream.scan_error`). Readers and evaluation point to tokens in a row
(`Diagnostic.IsOn`, `Node.Marks.isAmong`), and these have characters
(`TokenStream.exists_cut`).
-/

set_option autoImplicit false

namespace TypeTraits

/-- The diagnostic points to whole characters of the text, and to one at least unless the
text ended too early. What a message quotes from the text are these characters. -/
structure Diagnostic.PointsInto (d : Diagnostic) (text : String) : Prop where
  start_le_stop : d.span.start ≤ d.span.stop
  inText : d.span.start + d.span.length ≤ text.utf8ByteSize
  startsBetweenCharacters : (String.Pos.Raw.mk d.span.start).IsValid text
  stopsBetweenCharacters : (String.Pos.Raw.mk (d.span.start + d.span.length)).IsValid text
  length_pos : (∀ e, d.problem ≠ .unexpectedEnd e) → 0 < d.span.length
  quotes : ∃ before behind, text = before ++ (d.span.slice text ++ behind) ∧
    before.utf8ByteSize = d.span.start ∧ (d.span.slice text).utf8ByteSize = d.span.length

/-! ### Characters -/

/-- A place behind some of the characters of a text is one between characters. -/
theorem isValid_of_append {text : String} {cs cs' : List Char} (h : text.toList = cs ++ cs') :
    (String.Pos.Raw.mk (byteLength cs)).IsValid text := by
  rw [String.Pos.Raw.isValid_iff_exists_append]
  refine ⟨String.ofList cs, String.ofList cs', ?_, ?_⟩
  · rw [← String.ofList_append, ← h, String.ofList_toList]
  · rw [← utf8ByteSize_ofList]
    rfl

/-- A diagnostic whose span covers some of the characters points to these. -/
theorem Diagnostic.pointsInto_of_cut {d : Diagnostic} {text : String} {cs₁ cs₂ cs₃ : List Char}
    (htext : text.toList = cs₁ ++ (cs₂ ++ cs₃)) (hstart : d.span.start = byteLength cs₁)
    (hstop : d.span.stop = byteLength cs₁ + byteLength cs₂)
    (hne : (∀ e, d.problem ≠ .unexpectedEnd e) → cs₂ ≠ []) : d.PointsInto text := by
  have hslice : d.span.slice text = String.ofList cs₂ := Span.slice_eq htext hstart hstop
  have hlength : d.span.length = byteLength cs₂ := by
    rw [Span.length, hstart, hstop, Nat.add_sub_cancel_left]
  have hend : d.span.start + d.span.length = byteLength (cs₁ ++ cs₂) := by
    rw [hstart, hlength, byteLength_append]
  have hsize : text.utf8ByteSize = byteLength (cs₁ ++ cs₂) + byteLength cs₃ := by
    rw [utf8ByteSize_eq_byteLength, htext, ← List.append_assoc, byteLength_append]
  have hpos : (∀ e, d.problem ≠ .unexpectedEnd e) → 0 < byteLength cs₂ := by
    intro h
    obtain ⟨c, cs, rfl⟩ := List.exists_cons_of_ne_nil (hne h)
    exact Nat.add_pos_left c.utf8Size_pos _
  have hquotes : text = String.ofList cs₁ ++ (d.span.slice text ++ String.ofList cs₃) := by
    rw [hslice, ← String.ofList_append, ← String.ofList_append, ← htext, String.ofList_toList]
  -- Both ends are where characters end, so the three parts of the text are cut there.
  exact
    { start_le_stop := by omega
      inText := by omega
      startsBetweenCharacters := by
        rw [hstart]
        exact isValid_of_append htext
      stopsBetweenCharacters := by
        rw [hend]
        exact isValid_of_append (by rw [htext, List.append_assoc])
      length_pos := by rwa [hlength]
      quotes := by
        refine ⟨_, _, hquotes, ?_, ?_⟩
        · rw [utf8ByteSize_ofList, hstart]
        · rw [hslice, utf8ByteSize_ofList, hlength] }

/-- The span is the one of a character, where the first of the characters stands at the given
byte. -/
def Span.IsOfCharacter (offset : Nat) (cs : List Char) (s : Span) : Prop :=
  ∃ before c behind, cs = before ++ ([c] ++ behind) ∧ s.start = offset + byteLength before ∧
    s.stop = offset + byteLength before + byteLength [c]

/-- One more character in front moves the others by its bytes. -/
theorem Span.IsOfCharacter.cons {offset : Nat} {c : Char} {cs : List Char} {s : Span}
    (h : s.IsOfCharacter (offset + c.utf8Size) cs) : s.IsOfCharacter offset (c :: cs) := by
  obtain ⟨before, c', behind, rfl, hstart, hstop⟩ := h
  have hbytes : offset + byteLength (c :: before) = offset + c.utf8Size + byteLength before :=
    (Nat.add_assoc offset _ _).symm
  exact ⟨c :: before, c', behind, rfl, by rw [hbytes, hstart], by rw [hbytes, hstop]⟩

/-- The scanner stops at a character that begins no token, and it has counted the bytes of
those in front. -/
theorem TokenStream.scan_onError (skip offset : Nat) (cs : List Char) :
    OnError (fun span => span.IsOfCharacter offset cs) (scan skip offset cs) := by
  induction cs generalizing skip offset with
  | nil => exact .ok []
  | cons c cs ih =>
    have pass : ∀ skip, OnError (fun span => span.IsOfCharacter offset (c :: cs))
        (scan skip (offset + c.utf8Size) cs) :=
      fun skip => (ih skip _).mono fun _ h => h.cons
    unfold scan
    -- A character is skipped, is a blank, begins a symbol, or is to blame.
    split
    · exact pass _
    · split
      · exact pass 0
      · split
        · exact .error ⟨[], c, cs, rfl, rfl, rfl⟩
        · exact (pass _).map _

/-! ### The three ways to fail -/

namespace Diagnostic

variable {text : String}

/-- A text without tokens is diagnosed at a character. -/
theorem pointsInto_of_lexing :
    OnError (fun d => d.PointsInto text) (TokenStream.ofText text) := by
  have hscan := TokenStream.scan_onError 0 0 text.toList
  unfold TokenStream.ofText TokenStream.ofText?
  cases h : TokenStream.scan 0 0 text.toList with
  | ok tokens => exact .ok _
  | error span =>
    obtain ⟨before, c, behind, htext, hstart, hstop⟩ := hscan span h
    rw [Nat.zero_add] at hstart hstop
    exact .error (pointsInto_of_cut htext hstart hstop fun _ => List.cons_ne_nil c [])

/-- What is at tokens of the text is in the text. -/
theorem pointsInto_of_isAmong {s : TokenStream} {d : Diagnostic}
    (h : TokenStream.ofText text = .ok s) (hd : d.span.IsAmong s.tokens) : d.PointsInto text := by
  obtain ⟨before, us, behind, hs, hne, hspan⟩ := hd
  obtain ⟨cs₁, cs₂, cs₃, htext, hstart, hstop, hlex⟩ := TokenStream.exists_cut h hs hne
  rw [← hspan] at hstart hstop
  refine pointsInto_of_cut htext hstart hstop fun _ hnil => hne ?_
  rw [hnil] at hlex
  exact hlex.eq_nil

/-- What is at the end of the text or at tokens of it is in the text. -/
theorem pointsInto_of_isOn {s : TokenStream} {d : Diagnostic}
    (h : TokenStream.ofText text = .ok s) (hd : d.IsOn s.stop s.tokens) : d.PointsInto text := by
  rcases hd with ⟨e, rfl⟩ | hd
  · have hstop : s.stop = byteLength text.toList := by
      rw [(TokenStream.ofText_eq_ok_iff_lexesAt.mp h).2, utf8ByteSize_eq_byteLength]
    have htext : text.toList = text.toList ++ ([] ++ []) := (List.append_nil _).symm
    exact pointsInto_of_cut htext hstop hstop fun hend => absurd rfl (hend e)
  · exact pointsInto_of_isAmong h hd

end Diagnostic

/-- Tokens that are not those of a type or a query are diagnosed in the text. -/
theorem Diagnostic.pointsInto_of_reading {α : Type} {text : String}
    {read : Nat → List Token → Except Halt (α × List Token)}
    (hread : ∀ s : TokenStream, OnError (Diagnostic.IsOn s.stop s.tokens) (s.readAll read)) :
    OnError (fun d => d.PointsInto text) (do (← TokenStream.ofText text).readAll read) :=
  pointsInto_of_lexing.bind fun s hs => (hread s).mono fun _ hd => pointsInto_of_isOn hs hd

/-- What is marked in a tree stands on tokens of the tree. -/
theorem Node.Marks.isAmong {n : Node} {us : List Token} {s : Span} (h : n.Marks s)
    (hon : n.IsOn us) : s.IsAmong us := by
  obtain ⟨m, hm, hs⟩ := h
  obtain ⟨before, vs, behind, rfl, hvs⟩ := hon.contained hm
  have hamong : s.IsAmong vs := by
    rcases hs with rfl | hs
    · exact .of_hasHull hvs.hasHull
    · exact hvs.parts.exists_of_mem hs
  exact (hamong.append_left before).append_right behind

/-- What is marked in a tree that was read from a text is in the text. -/
theorem Node.ReadFrom.pointsInto {n : Node} {text : String} {d : Diagnostic}
    (h : n.ReadFrom text) (hd : n.Marks d.span) : d.PointsInto text := by
  obtain ⟨s, hs, hon⟩ := readFrom_iff_isOn.mp h
  exact Diagnostic.pointsInto_of_isAmong hs (hd.isAmong hon)

/-- A text that has no tokens, no type in some universe or no value in some scope is diagnosed
at whole characters of the text, and at one at least unless it ended too early. -/
theorem Diagnostic.pointsInto_of_error {text : String} {d : Diagnostic}
    (h : TokenStream.ofText text = .error d ∨
      (∃ u : Universe, u.parseType text = .error d) ∨
      ∃ s : Scope, s.evaluateText text = .error d) : d.PointsInto text := by
  -- What is read is blamed at tokens, and what is evaluated at a node that was read.
  rcases h with h | ⟨u, h⟩ | ⟨s, h⟩
  · exact pointsInto_of_lexing d h
  · have htype : OnError (fun d => d.PointsInto text) (u.parseType text) := by
      refine (pointsInto_of_reading fun _ => TypeId.readAll_onError).bind fun t ht => ?_
      have hread : (Node.type t).ReadFrom text := ht
      exact (u.elaborate_marks t).mono fun _ hd => hread.pointsInto hd
    exact htype d h
  · have hquery : OnError (fun d => d.PointsInto text) (s.evaluateText text) := by
      refine (pointsInto_of_reading fun _ => Query.readAll_onError).bind fun q hq => ?_
      have hread : (Node.query q).ReadFrom text := hq
      exact (s.evaluate_marks q).mono fun _ hd => hread.pointsInto hd
    exact hquery d h

/-- A character of two bytes that begins no token; words that repeat one another, which the
message quotes; and a name in an argument, which is not declared. -/
theorem Diagnostic.pointsInto_of_error_of_texts :
    (TokenStream.ofText "int é" = .error ⟨.invalidToken, ⟨4, 6⟩⟩ ∧
      Diagnostic.PointsInto ⟨.invalidToken, ⟨4, 6⟩⟩ "int é") ∧
    (Universe.empty.parseType "const int int*" = .error ⟨.clashingSpecifier, ⟨0, 13⟩⟩ ∧
      Diagnostic.PointsInto ⟨.clashingSpecifier, ⟨0, 13⟩⟩ "const int int*") ∧
    ((Scope.ofUniverse .empty).evaluateText "rank<decay<w>>" =
        .error ⟨.unknownName "w", ⟨11, 12⟩⟩ ∧
      Diagnostic.PointsInto ⟨.unknownName "w", ⟨11, 12⟩⟩ "rank<decay<w>>") := by
  have hlex : TokenStream.ofText "int é" = .error ⟨.invalidToken, ⟨4, 6⟩⟩ := by decide +kernel
  have htype : Universe.empty.parseType "const int int*" =
      .error ⟨.clashingSpecifier, ⟨0, 13⟩⟩ := by
    decide +kernel
  have hquery : (Scope.ofUniverse .empty).evaluateText "rank<decay<w>>" =
      .error ⟨.unknownName "w", ⟨11, 12⟩⟩ := by
    decide +kernel
  exact ⟨⟨hlex, Diagnostic.pointsInto_of_error (.inl hlex)⟩,
    ⟨htype, Diagnostic.pointsInto_of_error (.inr (.inl ⟨_, htype⟩))⟩,
    hquery, Diagnostic.pointsInto_of_error (.inr (.inr ⟨_, hquery⟩))⟩

end TypeTraits
