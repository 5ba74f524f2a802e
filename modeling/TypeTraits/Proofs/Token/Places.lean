import TypeTraits.Proofs.Token.Lexing

/-!
# `TypeTraits.Proofs.Token.Places`: where tokens stand

The tokens of a text stand in it one behind another (`LexesAt.inOrder`). Tokens in a row
have a span of their own, from the first to the last (`hull`), and the part of the text
that this span covers has just these tokens, with places that are counted from its
beginning: `TokenStream.ofText_slice`.

* `Span.InOrder`: spans behind one another.
* `Laid`: what stands on parts of some tokens, one behind another.
* `LexesAt.cut_left`, `LexesAt.cut_right`: the characters of tokens in a row.
-/

set_option autoImplicit false

namespace TypeTraits

/-! ### The span of some tokens -/

/-- The span from the first token to the last. -/
def hull (us : List Token) : Span :=
  ⟨(us.head?.map (·.span.start)).getD 0, (us.getLast?.map (·.span.stop)).getD 0⟩

/-- What readers cover is the span of the tokens they have taken. -/
theorem cover_append (us rest : List Token) : cover (us ++ rest) rest = hull us := by
  simp [cover, hull]

/-- The span of tokens with brackets around them is that of the brackets. -/
theorem hull_bracketed (t t' : Token) (us : List Token) :
    hull (t :: us ++ [t']) = ⟨t.span.start, t'.span.stop⟩ := by
  rw [hull, List.getLast?_concat]
  rfl

/-- What readers cover from one bracket to the other. -/
theorem cover_bracketed (t t' : Token) (us rest : List Token) :
    cover (t :: (us ++ t' :: rest)) rest = ⟨t.span.start, t'.span.stop⟩ := by
  have h := cover_append (t :: us ++ [t']) rest
  rwa [hull_bracketed, List.append_assoc] at h

/-- The token in a text that begins `n` bytes later. -/
def Token.shiftLeft (n : Nat) (t : Token) : Token := ⟨t.symbol, t.span.shiftLeft n⟩

/-- Tokens are moved with the symbols that they are. -/
theorem symbols_map_shiftLeft (n : Nat) (us : List Token) :
    symbols (us.map (Token.shiftLeft n)) = symbols us := by
  rw [symbols, List.map_map]
  rfl

/-- The span of moved tokens is moved as far as they are. -/
theorem hull_map_shiftLeft (n : Nat) (us : List Token) :
    hull (us.map (Token.shiftLeft n)) = (hull us).shiftLeft n := by
  rw [hull, List.head?_map, List.getLast?_map, Option.map_map, Option.map_map]
  unfold hull Span.shiftLeft
  cases us.head? <;> cases us.getLast? <;> simp [Token.shiftLeft, Span.shiftLeft]

/-! ### Spans in order -/

/-- The spans stand between the two places one behind another: none is inverted, and none
begins before the end of the one in front of it. -/
def Span.InOrder (lo hi : Nat) : List Span → Prop
  | [] => lo ≤ hi
  | s :: ss => lo ≤ s.start ∧ s.start ≤ s.stop ∧ InOrder s.stop hi ss

namespace Span

variable {lo hi lo' hi' : Nat} {ss ss' : List Span}

/-- Bounds that have spans in order between them are in order themselves. -/
theorem InOrder.le (h : InOrder lo hi ss) : lo ≤ hi := by
  induction ss generalizing lo with
  | nil => exact h
  | cons s ss ih => exact h.1.trans (h.2.1.trans (ih h.2.2))

/-- Wider bounds have the spans between them too. -/
theorem InOrder.mono (h : InOrder lo hi ss) (hlo : lo' ≤ lo) (hhi : hi ≤ hi') :
    InOrder lo' hi' ss := by
  induction ss generalizing lo lo' with
  | nil => exact hlo.trans (Nat.le_trans h hhi)
  | cons s ss ih => exact ⟨hlo.trans h.1, h.2.1, ih h.2.2 (Nat.le_refl _)⟩

/-- Spans behind spans: there is a place where the first end and the others begin. -/
theorem inOrder_append : InOrder lo hi (ss ++ ss') ↔ ∃ m, InOrder lo m ss ∧ InOrder m hi ss' := by
  induction ss generalizing lo with
  | nil =>
    refine ⟨fun h => ⟨lo, Nat.le_refl lo, h⟩, ?_⟩
    rintro ⟨m, hm, h⟩
    exact h.mono hm (Nat.le_refl hi)
  | cons s ss ih =>
    constructor
    · rintro ⟨h₁, h₂, h⟩
      obtain ⟨m, hm, h'⟩ := ih.mp h
      exact ⟨m, ⟨h₁, h₂, hm⟩, h'⟩
    · rintro ⟨m, ⟨h₁, h₂, hm⟩, h'⟩
      exact ⟨h₁, h₂, ih.mpr ⟨m, hm, h'⟩⟩

/-- Tokens in order have a span within the bounds, and are in order within this span. -/
theorem InOrder.hull {us : List Token} (h : InOrder lo hi (us.map Token.span)) (hne : us ≠ []) :
    lo ≤ (hull us).start ∧ (hull us).start ≤ (hull us).stop ∧ (hull us).stop ≤ hi ∧
      InOrder (hull us).start (hull us).stop (us.map Token.span) := by
  obtain ⟨t, vs, rfl⟩ := List.exists_cons_of_ne_nil hne
  -- The last token ends where the span does.
  have hlast : InOrder lo (TypeTraits.hull (t :: vs)).stop ((t :: vs).map Token.span) ∧
      (TypeTraits.hull (t :: vs)).stop ≤ hi := by
    obtain ⟨init, last, hsplit⟩ := (List.eq_nil_or_concat (t :: vs)).resolve_left hne
    rw [List.concat_eq_append] at hsplit
    have hstop : (TypeTraits.hull (t :: vs)).stop = last.span.stop := by
      rw [hsplit, TypeTraits.hull, List.getLast?_concat]
      rfl
    rw [hstop]
    rw [hsplit, List.map_append, inOrder_append] at h ⊢
    obtain ⟨m, hm, h₁, h₂, h₃⟩ := h
    exact ⟨⟨m, hm, h₁, h₂, Nat.le_refl _⟩, h₃⟩
  have hin : InOrder t.span.start (TypeTraits.hull (t :: vs)).stop ((t :: vs).map Token.span) :=
    ⟨Nat.le_refl _, hlast.1.2⟩
  exact ⟨h.1, hin.le, hlast.2, hin⟩

end Span

/-! ### Parts of some tokens -/

/-- The elements stand on parts of the tokens, one behind another. -/
inductive Laid {α : Type} (R : List Token → α → Prop) : List Token → List α → Prop
  | nil {us : List Token} : Laid R us []
  | cons {gap part us : List Token} {x : α} {xs : List α} :
    R part x → Laid R us xs → Laid R (gap ++ (part ++ us)) (x :: xs)

namespace Laid

variable {α : Type} {R : List Token → α → Prop} {us us' : List Token} {xs xs' : List α}

/-- More tokens in front do no harm. -/
theorem append_left (h : Laid R us xs) (gap : List Token) : Laid R (gap ++ us) xs := by
  cases h with
  | nil => exact .nil
  | cons hx h =>
    rw [← List.append_assoc]
    exact .cons hx h

/-- Elements on some tokens and elements on the tokens behind. -/
theorem append (h : Laid R us xs) (h' : Laid R us' xs') : Laid R (us ++ us') (xs ++ xs') := by
  induction h with
  | nil => exact h'.append_left _
  | cons hx _ ih =>
    rw [List.append_assoc, List.append_assoc]
    exact .cons hx ih

/-- One element on all the tokens. -/
theorem single {x : α} (h : R us x) : Laid R us [x] := by
  have h' : Laid R ([] ++ (us ++ [])) [x] := .cons h .nil
  rwa [List.append_nil] at h'

/-- More tokens behind do no harm either. -/
theorem append_right (h : Laid R us xs) (us' : List Token) : Laid R (us ++ us') xs := by
  have h' : Laid R (us ++ us') (xs ++ []) := h.append .nil
  rwa [List.append_nil] at h'

/-- What is mapped stands where it stood. -/
theorem map {β : Type} {R' : List Token → β → Prop} {f : α → β} (h : Laid R us xs)
    (hR : ∀ us x, R us x → R' us (f x)) : Laid R' us (xs.map f) := by
  induction h with
  | nil => exact .nil
  | cons hx _ ih => exact .cons (hR _ _ hx) ih

/-- Each element has tokens of its own. -/
theorem exists_of_mem (h : Laid R us xs) {x : α} (hx : x ∈ xs) :
    ∃ before part behind, us = before ++ part ++ behind ∧ R part x := by
  induction h with
  | nil => exact nomatch hx
  | @cons gap part us y xs hy _ ih =>
    rcases List.mem_cons.mp hx with rfl | hx
    · exact ⟨gap, part, us, by rw [List.append_assoc], hy⟩
    · obtain ⟨before, part', behind, rfl, hR⟩ := ih hx
      exact ⟨gap ++ part ++ before, part', behind, by simp only [List.append_assoc], hR⟩

/-- Where tokens are in order, so are the spans of what stands on them. -/
theorem inOrder {us : List Token} {ss : List Span} {lo hi : Nat}
    (h : Laid (fun part s => part ≠ [] ∧ s = hull part) us ss)
    (hin : Span.InOrder lo hi (us.map Token.span)) : Span.InOrder lo hi ss := by
  induction h generalizing lo with
  | nil => exact hin.le
  | cons hs _ ih =>
    obtain ⟨hne, rfl⟩ := hs
    rw [List.map_append, List.map_append, Span.inOrder_append] at hin
    obtain ⟨m, hgap, hin⟩ := hin
    obtain ⟨m', hpart, hin⟩ := Span.inOrder_append.mp hin
    obtain ⟨h₁, h₂, h₃, -⟩ := hpart.hull hne
    exact ⟨hgap.le.trans h₁, h₂, ih (hin.mono h₃ (Nat.le_refl hi))⟩

end Laid

/-! ### Bytes -/

/-- The size of characters as text is the sum of theirs. -/
theorem utf8ByteSize_ofList (cs : List Char) : (String.ofList cs).utf8ByteSize = byteLength cs := by
  induction cs with
  | nil => rfl
  | cons c cs ih =>
    rw [String.ofList_cons, String.utf8ByteSize_append, String.utf8ByteSize_singleton, ih]
    rfl

/-- So is the size of a text, for its characters. -/
theorem utf8ByteSize_eq_byteLength (text : String) :
    text.utf8ByteSize = byteLength text.toList := by
  rw [← utf8ByteSize_ofList, String.ofList_toList]

/-- Characters behind one another take their bytes together. -/
theorem byteLength_append (cs cs' : List Char) :
    byteLength (cs ++ cs') = byteLength cs + byteLength cs' := by
  induction cs with
  | nil => exact (Nat.zero_add _).symm
  | cons c cs ih =>
    show c.utf8Size + byteLength (cs ++ cs') = c.utf8Size + byteLength cs + byteLength cs'
    rw [ih, Nat.add_assoc]

/-- As many bytes as some characters take are dropped with them. -/
theorem dropBytes_append (cs cs' : List Char) : dropBytes (byteLength cs) (cs ++ cs') = cs' := by
  induction cs with
  | nil =>
    cases cs' with
    | nil => rfl
    | cons c cs' => exact if_pos rfl
  | cons c cs ih =>
    have hne : byteLength (c :: cs) ≠ 0 := Nat.ne_of_gt (Nat.add_pos_left c.utf8Size_pos _)
    rw [List.cons_append, dropBytes, if_neg hne, byteLength, Nat.add_sub_cancel_left, ih]

/-- And they are taken with them. -/
theorem takeBytes_append (cs cs' : List Char) : takeBytes (byteLength cs) (cs ++ cs') = cs := by
  induction cs with
  | nil =>
    cases cs' with
    | nil => rfl
    | cons c cs' => exact if_pos rfl
  | cons c cs ih =>
    have hne : byteLength (c :: cs) ≠ 0 := Nat.ne_of_gt (Nat.add_pos_left c.utf8Size_pos _)
    rw [List.cons_append, takeBytes, if_neg hne, byteLength, Nat.add_sub_cancel_left, ih]

/-! ### Tokens in a row -/

namespace LexesAt

variable {n : Nat} {cs : List Char} {ts ts' : List Token}

/-- Tokens stand one behind another. -/
theorem inOrder (h : LexesAt n cs ts) :
    Span.InOrder n (n + byteLength cs) (ts.map Token.span) := by
  induction h with
  | nil => exact Nat.le_refl _
  | blank _ _ ih =>
    rw [byteLength, ← Nat.add_assoc]
    exact ih.mono (Nat.le_add_right _ _) (Nat.le_refl _)
  | symbol hs _ _ ih =>
    rw [byteLength_append, hs.byteLength_text, ← Nat.add_assoc]
    exact ⟨Nat.le_refl _, Nat.le_add_right _ _, ih⟩

/-- Without characters there are no tokens. -/
theorem eq_nil (h : LexesAt n [] ts) : ts = [] := by
  generalize hcs : [] = cs at h
  cases h with
  | nil => rfl
  | blank _ _ => exact nomatch hcs
  | symbol hs _ _ =>
    obtain ⟨c, pre, htext⟩ := hs.exists_cons
    rw [htext] at hcs
    exact nomatch hcs

/-- In a text that begins later, everything stands further to the left. -/
theorem shiftLeft (h : LexesAt n cs ts) {m : Nat} (hm : m ≤ n) :
    LexesAt (n - m) cs (ts.map (Token.shiftLeft m)) := by
  induction h with
  | nil => exact .nil
  | blank hb _ ih =>
    have ih := ih (hm.trans (Nat.le_add_right _ _))
    rw [Nat.sub_add_comm hm] at ih
    exact .blank hb ih
  | symbol hs hstop _ ih =>
    have ih := ih (hm.trans (Nat.le_add_right _ _))
    rw [Nat.sub_add_comm hm] at ih
    rw [List.map_cons, Token.shiftLeft, Span.shiftLeft, Nat.sub_add_comm hm]
    exact .symbol hs hstop ih

/-- The characters from the first of some last tokens on, and these tokens alone. -/
theorem cut_left (h : LexesAt n cs (ts ++ ts')) (hne : ts' ≠ []) :
    ∃ before behind, cs = before ++ behind ∧ LexesAt (n + byteLength before) behind ts' ∧
      (hull ts').start = n + byteLength before := by
  -- The tokens are generalized, since there are fewer of them in front in each step.
  generalize hts : ts ++ ts' = us at h
  induction h generalizing ts with
  | nil => exact absurd (List.append_eq_nil_iff.mp hts).2 hne
  | @blank n c cs us _ _ ih =>
    obtain ⟨before, behind, rfl, hlex, hstart⟩ := ih hts
    refine ⟨c :: before, behind, rfl, ?_, ?_⟩
    · rwa [byteLength, ← Nat.add_assoc]
    · rwa [byteLength, ← Nat.add_assoc]
  | @symbol n s cs us hs hstop h ih =>
    cases ts with
    | nil =>
      rw [List.nil_append] at hts
      subst hts
      exact ⟨[], _, rfl, .symbol hs hstop h, rfl⟩
    | cons t ts =>
      obtain ⟨before, behind, rfl, hlex, hstart⟩ := ih (List.cons.inj hts).2
      have hbytes : n + byteLength (s.text.toList ++ before) =
          n + s.text.length + byteLength before := by
        rw [byteLength_append, hs.byteLength_text, Nat.add_assoc]
      refine ⟨s.text.toList ++ before, behind, by rw [List.append_assoc], ?_, ?_⟩
      · rwa [hbytes]
      · rwa [hbytes]

/-- The characters up to the last of some first tokens, and these tokens alone. -/
theorem cut_right (h : LexesAt n cs (ts ++ ts')) (hne : ts ≠ []) :
    ∃ before behind, cs = before ++ behind ∧ LexesAt n before ts ∧
      (hull ts).stop = n + byteLength before := by
  -- As above. Here the first tokens are never used up: the last of them says where to cut.
  generalize hts : ts ++ ts' = us at h
  induction h generalizing ts with
  | nil => exact absurd (List.append_eq_nil_iff.mp hts).1 hne
  | @blank n c cs us hb _ ih =>
    obtain ⟨before, behind, rfl, hlex, hstop⟩ := ih hne hts
    refine ⟨c :: before, behind, rfl, .blank hb hlex, ?_⟩
    rwa [byteLength, ← Nat.add_assoc]
  | @symbol n s cs us hs hstop h ih =>
    obtain ⟨t, ts, rfl⟩ := List.exists_cons_of_ne_nil hne
    obtain ⟨rfl, htail⟩ := List.cons.inj hts
    cases ts with
    | nil =>
      refine ⟨s.text.toList, cs, rfl, ?_, ?_⟩
      · have h' : LexesAt n (s.text.toList ++ []) _ := .symbol hs s.stops_nil .nil
        rwa [List.append_nil] at h'
      · rw [hs.byteLength_text]
        rfl
    | cons t ts =>
      obtain ⟨before, behind, rfl, hlex, hlast⟩ := ih (List.cons_ne_nil t ts) htail
      refine ⟨s.text.toList ++ before, behind, by rw [List.append_assoc],
        .symbol hs hstop.of_append hlex, ?_⟩
      rw [byteLength_append, hs.byteLength_text, ← Nat.add_assoc, ← hlast]
      simp [hull]

end LexesAt

/-- A span that begins behind some characters and covers the next ones is these. -/
theorem Span.slice_eq {span : Span} {text : String} {cs₁ cs₂ cs₃ : List Char}
    (htext : text.toList = cs₁ ++ (cs₂ ++ cs₃)) (hstart : span.start = byteLength cs₁)
    (hstop : span.stop = byteLength cs₁ + byteLength cs₂) :
    span.slice text = String.ofList cs₂ := by
  rw [slice, length, hstart, hstop, Nat.add_sub_cancel_left, htext, dropBytes_append,
    takeBytes_append]

/-- Tokens of a text in a row are the tokens of some characters, which their span covers. -/
theorem TokenStream.exists_cut {text : String} {s : TokenStream} {before us behind : List Token}
    (h : TokenStream.ofText text = .ok s) (hs : s.tokens = before ++ us ++ behind)
    (hne : us ≠ []) :
    ∃ cs₁ cs₂ cs₃, text.toList = cs₁ ++ (cs₂ ++ cs₃) ∧ (hull us).start = byteLength cs₁ ∧
      (hull us).stop = byteLength cs₁ + byteLength cs₂ ∧ LexesAt (byteLength cs₁) cs₂ us := by
  obtain ⟨hlex, -⟩ := ofText_eq_ok_iff_lexesAt.mp h
  rw [hs, List.append_assoc] at hlex
  -- First what is in front is cut off, and then what is behind.
  obtain ⟨cs₁, _, htext, hlex, hstart⟩ := hlex.cut_left (List.append_ne_nil_of_left_ne_nil hne _)
  obtain ⟨cs₂, cs₃, rfl, hlex, hstop⟩ := hlex.cut_right hne
  rw [Nat.zero_add] at hlex hstart hstop
  have hstart : (hull us).start = byteLength cs₁ := by
    rw [← hstart]
    obtain ⟨t, vs, rfl⟩ := List.exists_cons_of_ne_nil hne
    rfl
  exact ⟨cs₁, cs₂, cs₃, htext, hstart, hstop, hlex⟩

/-- The part of a text that tokens in a row cover has these tokens. -/
theorem TokenStream.ofText_slice {text : String} {s : TokenStream} {before us behind : List Token}
    (h : TokenStream.ofText text = .ok s) (hs : s.tokens = before ++ us ++ behind)
    (hne : us ≠ []) :
    ∃ stop, TokenStream.ofText ((hull us).slice text) =
      .ok ⟨us.map (Token.shiftLeft (hull us).start), stop⟩ := by
  obtain ⟨cs₁, cs₂, cs₃, htext, hstart, hstop, hlex⟩ := exists_cut h hs hne
  -- The tokens of these characters, counted from the first of them.
  have hshift := hlex.shiftLeft (Nat.le_refl _)
  rw [Nat.sub_self, ← hstart] at hshift
  rw [Span.slice_eq htext hstart hstop]
  refine ⟨_, ofText_eq_ok_iff_lexesAt.mpr ⟨?_, rfl⟩⟩
  rwa [String.toList_ofList]

end TypeTraits
