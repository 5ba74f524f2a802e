import Mathlib.Data.List.TakeWhile
import TypeTraits.Proofs.TypeId.Grammar
import TypeTraits.Proofs.Support.Except

/-!
# `TypeTraits.Proofs.Token.Lexing`: texts and their symbols

`Lexes cs ss` says that the characters `cs` are the symbols `ss` in this order,
with blanks anywhere between them and no symbol in front of a character that it
would go on with (`Symbol.joins`). `LexesAt n cs ts` says the same of tokens, which
have places, for characters that begin at byte `n`. This is what the scanner computes
without its count of characters to skip, and it can be put together from parts.

* `Symbol.longest?_eq_some_iff`: the longest symbol is a whole symbol that goes no further.
* `TokenStream.scan_eq_ok_iff`: the scanner in terms of `LexesAt`.
* `TokenStream.ofText_eq_ok_iff`: the scanner of texts in terms of `Lexes`.
* `Lexes.append`: two texts behind one another; `Lexes.bracketed`, `Lexes.comma`: a text between
  brackets, and two with a comma between them.
-/

set_option autoImplicit false

namespace TypeTraits

namespace Symbol

/-- Whether the symbol would go on with the character if it stood behind it. -/
def joins : Symbol → Char → Bool
  | scalar _, c => isNameChar c
  | keyword _, c => isNameChar c
  | identifier _, c => isNameChar c
  | literal _, c => c.isDigit
  | mark .amp, c => c == '&'
  | mark .colon, c => c == ':'
  | mark _, _ => false

/-- The symbol's text is read as this symbol. -/
def IsLexical (s : Symbol) : Prop := longest? s.text.toList = some s

instance (s : Symbol) : Decidable s.IsLexical := inferInstanceAs (Decidable (_ = _))

/-- The symbol can stand in front of the characters. -/
def Stops (s : Symbol) (cs : List Char) : Prop := ∀ c ∈ cs.head?, s.joins c = false

end Symbol

/-- The characters are the symbols, with blanks between them. -/
inductive Lexes : List Char → List Symbol → Prop
  | nil : Lexes [] []
  | blank {c : Char} {cs : List Char} {ss : List Symbol} :
    isBlank c = true → Lexes cs ss → Lexes (c :: cs) ss
  | symbol {s : Symbol} {cs : List Char} {ss : List Symbol} :
    s.IsLexical → s.Stops cs → Lexes cs ss → Lexes (s.text.toList ++ cs) (s :: ss)

/-- The characters, the first of which stands at the given byte, are the tokens. Symbols are
ASCII, so their characters are their bytes. -/
inductive LexesAt : Nat → List Char → List Token → Prop
  | nil {n : Nat} : LexesAt n [] []
  | blank {n : Nat} {c : Char} {cs : List Char} {ts : List Token} :
    isBlank c = true → LexesAt (n + c.utf8Size) cs ts → LexesAt n (c :: cs) ts
  | symbol {n : Nat} {s : Symbol} {cs : List Char} {ts : List Token} :
    s.IsLexical → s.Stops cs → LexesAt (n + s.text.length) cs ts →
    LexesAt n (s.text.toList ++ cs) (⟨s, ⟨n, n + s.text.length⟩⟩ :: ts)

/-- The tokens without places. -/
theorem LexesAt.erase {n : Nat} {cs : List Char} {ts : List Token} (h : LexesAt n cs ts) :
    Lexes cs (symbols ts) := by
  induction h with
  | nil => exact .nil
  | blank hb _ ih => exact .blank hb ih
  | symbol hs hstop _ ih => exact .symbol hs hstop ih

/-- The symbols with places. -/
theorem Lexes.place {cs : List Char} {ss : List Symbol} (h : Lexes cs ss) (n : Nat) :
    ∃ ts, LexesAt n cs ts ∧ symbols ts = ss := by
  induction h generalizing n with
  | nil => exact ⟨[], .nil, rfl⟩
  | blank hb _ ih =>
    obtain ⟨ts, hts, rfl⟩ := ih (n + _)
    exact ⟨ts, .blank hb hts, rfl⟩
  | symbol hs hstop _ ih =>
    obtain ⟨ts, hts, rfl⟩ := ih (n + _)
    exact ⟨_, .symbol hs hstop hts, rfl⟩

/-! ### The longest symbol -/

/-- The longest run of one kind of character ends where it is known to end. -/
theorem takeWhile_append_of_stop {p : Char → Bool} {cs rest : List Char}
    (h : ∀ c ∈ cs, p c = true) (hrest : ∀ c ∈ rest.head?, p c = false) :
    (cs ++ rest).takeWhile p = cs := by
  rw [List.takeWhile_append_of_pos h]
  cases rest with
  | nil => rw [List.takeWhile_nil, List.append_nil]
  | cons c rest => rw [List.takeWhile_cons_of_neg (by simp [hrest c rfl]), List.append_nil]

/-- Behind the longest run there is none of its characters. -/
theorem head?_dropWhile_eq_false {p : Char → Bool} {cs : List Char} {c : Char}
    (h : c ∈ (cs.dropWhile p).head?) : p c = false := by
  have := List.head?_dropWhile_not p cs
  rw [Option.mem_def.mp h] at this
  simpa using this

namespace Symbol

/-- A name goes on with the characters of names, whatever word it turns out to be. -/
theorem joins_ofName (name : String) (c : Char) : (ofName name).joins c = isNameChar c := by
  unfold ofName
  split
  · rfl
  · split <;> rfl

/-- Every punctuator is a symbol. -/
theorem mark_isLexical (m : Mark) : (mark m).IsLexical := by
  cases m <;> decide

/-- Any symbol can stand at the end. -/
theorem stops_nil (s : Symbol) : s.Stops [] := by
  intro c hc
  cases hc

/-- In front of a part of what is behind it, a symbol has the same character behind it, or none. -/
theorem Stops.of_append {s : Symbol} {cs cs' : List Char} (h : s.Stops (cs ++ cs')) :
    s.Stops cs := by
  intro c hc
  exact h c (by simp [List.head?_append, Option.mem_def.mp hc])

/-- No symbol goes on with a blank, a comma or a bracket of any kind. -/
theorem joins_eq_false (s : Symbol) {c : Char}
    (h : c ∈ [' ', ',', '(', ')', '[', ']', '<', '>']) : s.joins c = false := by
  have key : isNameChar c = false ∧ c.isDigit = false ∧ c ≠ '&' ∧ c ≠ ':' := by
    simp only [List.mem_cons, List.not_mem_nil, or_false] at h
    rcases h with rfl | rfl | rfl | rfl | rfl | rfl | rfl | rfl <;> decide
  obtain ⟨hname, hdigit, hamp, hcolon⟩ := key
  cases s with
  | mark m => cases m <;> simp [joins, hamp, hcolon]
  | literal _ => exact hdigit
  | _ => exact hname

end Symbol

namespace Mark

/-- A punctuator is found in front of anything that it does not go on with. -/
theorem longest?_append (m : Mark) {cs : List Char} (h : (Symbol.mark m).Stops cs) :
    longest? (m.text.toList ++ cs) = some m := by
  cases m with
  | amp =>
    cases cs with
    | nil => rfl
    | cons c cs =>
      -- `&&` is the one other punctuator that begins with `&`.
      have hc : c ≠ '&' := by simpa [Symbol.joins] using h c rfl
      simp [text, longest?, hc]
  | colon =>
    cases cs with
    | nil => rfl
    | cons c cs =>
      have hc : c ≠ ':' := by simpa [Symbol.joins] using h c rfl
      simp [text, longest?, hc]
  | _ => rfl

/-- What is found is in front, and does not go on with what is behind it. -/
theorem exists_of_longest? {m : Mark} {cs : List Char} (h : longest? cs = some m) :
    ∃ rest, cs = m.text.toList ++ rest ∧ (Symbol.mark m).Stops rest := by
  -- Only `&` and `:` go on with anything, and those come behind `&&` and `::`.
  have plain : ∀ {rest : List Char}, (∀ c, (Symbol.mark m).joins c = false) →
      cs = m.text.toList ++ rest →
      ∃ rest, cs = m.text.toList ++ rest ∧ (Symbol.mark m).Stops rest :=
    fun hj hcs => ⟨_, hcs, fun c _ => hj c⟩
  unfold longest? at h
  split at h
  case h_3 cs' hne =>
    cases h
    refine ⟨cs', rfl, fun c hc => ?_⟩
    obtain ⟨cs'', rfl⟩ : ∃ cs'', cs' = c :: cs'' := List.head?_eq_some_iff.mp hc
    simpa [Symbol.joins] using hne cs''
  case h_5 cs' hne =>
    cases h
    refine ⟨cs', rfl, fun c hc => ?_⟩
    obtain ⟨cs'', rfl⟩ : ∃ cs'', cs' = c :: cs'' := List.head?_eq_some_iff.mp hc
    simpa [Symbol.joins] using hne cs''
  case h_14 => exact nomatch h
  all_goals
    cases h
    exact plain (fun _ => rfl) rfl

end Mark

namespace Symbol

variable {c : Char} {cs : List Char}

/-- What begins as a name is the longest run of characters of names, whatever word that is. -/
theorem longest?_cons_name (hc : isNameStart c = true) :
    longest? (c :: cs) = some (ofName (String.ofList (c :: cs.takeWhile isNameChar))) :=
  if_pos hc

/-- What begins with a digit is the longest run of digits. -/
theorem longest?_cons_literal (hc : isNameStart c = false) (hd : c.isDigit = true) :
    longest? (c :: cs) = some (literal (String.ofList (c :: cs.takeWhile Char.isDigit))) := by
  rw [longest?, hc, hd]
  rfl

/-- Anything else is the longest punctuator, if it begins with one. -/
theorem longest?_cons_mark (hc : isNameStart c = false) (hd : c.isDigit = false) :
    longest? (c :: cs) = (Mark.longest? (c :: cs)).map mark := by
  rw [longest?, hc, hd]
  rfl

/-- A whole name or number is found in front of anything that it does not go on with. -/
theorem takeWhile_append_eq {p : Char → Bool} {rest : List Char} (hcs : cs.takeWhile p = cs)
    (hrest : ∀ d ∈ rest.head?, p d = false) : (cs ++ rest).takeWhile p = cs.takeWhile p := by
  rw [hcs]
  exact takeWhile_append_of_stop (List.takeWhile_eq_self_iff.mp hcs) hrest

/-- The longest symbol is a whole symbol with nothing behind that it would go on with. -/
theorem longest?_eq_some_iff {s : Symbol} {cs : List Char} :
    longest? cs = some s ↔ ∃ rest, cs = s.text.toList ++ rest ∧ s.IsLexical ∧ s.Stops rest := by
  constructor
  · intro h
    obtain _ | ⟨c, cs⟩ := cs
    · exact nomatch h
    -- The first character decides between a name, a number and a punctuator.
    cases hc : isNameStart c with
    | true =>
      rw [longest?_cons_name hc] at h
      obtain rfl := Option.some.inj h
      refine ⟨cs.dropWhile isNameChar, ?_, ?_, fun d hd => ?_⟩
      · rw [ofName_text, String.toList_ofList, List.cons_append, List.takeWhile_append_dropWhile]
      · rw [IsLexical, ofName_text, String.toList_ofList, longest?_cons_name hc,
          List.takeWhile_idem]
      · rw [joins_ofName]
        exact head?_dropWhile_eq_false hd
    | false =>
      cases hd : c.isDigit with
      | true =>
        rw [longest?_cons_literal hc hd] at h
        obtain rfl := Option.some.inj h
        refine ⟨cs.dropWhile Char.isDigit, ?_, ?_, fun d hd' => head?_dropWhile_eq_false hd'⟩
        · show c :: cs = (String.ofList _).toList ++ _
          rw [String.toList_ofList, List.cons_append, List.takeWhile_append_dropWhile]
        · show longest? (String.ofList _).toList = _
          rw [String.toList_ofList, longest?_cons_literal hc hd, List.takeWhile_idem]
      | false =>
        rw [longest?_cons_mark hc hd] at h
        obtain ⟨m, hm, rfl⟩ := Option.map_eq_some_iff.mp h
        obtain ⟨rest, hcs, hstop⟩ := Mark.exists_of_longest? hm
        exact ⟨rest, hcs, mark_isLexical m, hstop⟩
  · rintro ⟨rest, rfl, hs, hstop⟩
    -- The same decision on the symbol's own text; behind it, `hstop` ends the run.
    unfold IsLexical at hs
    generalize hcs : s.text.toList = cs at hs
    obtain _ | ⟨c, cs⟩ := cs
    · exact nomatch hs
    rw [List.cons_append]
    cases hc : isNameStart c with
    | true =>
      rw [longest?_cons_name hc] at hs ⊢
      obtain rfl := Option.some.inj hs
      rw [ofName_text, String.toList_ofList] at hcs
      rw [takeWhile_append_eq (List.cons.inj hcs).2 fun d hd => joins_ofName _ d ▸ hstop d hd]
    | false =>
      cases hd : c.isDigit with
      | true =>
        rw [longest?_cons_literal hc hd] at hs ⊢
        obtain rfl := Option.some.inj hs
        rw [text, String.toList_ofList] at hcs
        rw [takeWhile_append_eq (List.cons.inj hcs).2 hstop]
      | false =>
        rw [longest?_cons_mark hc hd] at hs ⊢
        obtain ⟨m, -, rfl⟩ := Option.map_eq_some_iff.mp hs
        rw [← List.cons_append, ← hcs]
        exact congrArg _ (Mark.longest?_append m hstop)

end Symbol

/-- No digit begins a name, so numbers and names are told apart by their first character. -/
theorem isNameStart_eq_false_of_isDigit {c : Char} (h : c.isDigit = true) :
    isNameStart c = false := by
  rw [Bool.eq_false_iff]
  intro hs
  unfold isNameStart Char.isAlpha Char.isUpper Char.isLower at hs
  unfold Char.isDigit at h
  simp only [Bool.or_eq_true, Bool.and_eq_true, decide_eq_true_eq, ge_iff_le,
    UInt32.le_iff_toNat_le, beq_iff_eq] at h hs
  -- All letters come behind the digits, and so does `_`.
  rcases hs with hs | rfl
  · have h9 : '9'.val.toNat = 57 := rfl
    have hA : 'A'.val.toNat = 65 := rfl
    have ha : 'a'.val.toNat = 97 := rfl
    omega
  · exact absurd h.2 (by decide)

/-- A run of digits is a symbol. -/
theorem Symbol.literal_isLexical {digits : String} (hne : digits.toList ≠ [])
    (hdigits : ∀ c ∈ digits.toList, c.isDigit = true) : (literal digits).IsLexical := by
  obtain ⟨c, cs, hcs⟩ := List.exists_cons_of_ne_nil hne
  rw [hcs] at hdigits
  have hd := hdigits c List.mem_cons_self
  have hall : cs.takeWhile Char.isDigit = cs :=
    List.takeWhile_eq_self_iff.mpr fun d hd => hdigits d (List.mem_cons_of_mem c hd)
  rw [IsLexical, text, hcs, longest?_cons_literal (isNameStart_eq_false_of_isDigit hd) hd, hall,
    ← hcs, String.ofList_toList]

/-! ### The scanner -/

/-- No symbol begins with a blank. -/
theorem isBlank_eq_false_of_longest? {s : Symbol} {c : Char} {cs : List Char}
    (h : Symbol.longest? (c :: cs) = some s) : isBlank c = false := by
  cases hb : isBlank c with
  | false => rfl
  | true =>
    simp only [isBlank, Bool.or_eq_true, beq_iff_eq] at hb
    rcases hb with (((rfl | rfl) | rfl) | rfl) | rfl <;> exact nomatch h

/-- A symbol has a character. -/
theorem Symbol.IsLexical.exists_cons {s : Symbol} (h : s.IsLexical) :
    ∃ c cs, s.text.toList = c :: cs := by
  unfold IsLexical at h
  cases hs : s.text.toList with
  | nil =>
    rw [hs] at h
    exact nomatch h
  | cons c cs => exact ⟨c, cs, rfl⟩

/-- What names and numbers consist of is ASCII. -/
theorem utf8Size_of_isNameChar {c : Char} (h : isNameChar c = true) : c.utf8Size = 1 := by
  rw [Char.utf8Size_eq_one_iff, UInt32.le_iff_toNat_le]
  unfold isNameChar Char.isAlphanum Char.isAlpha Char.isUpper Char.isLower Char.isDigit at h
  simp only [Bool.or_eq_true, Bool.and_eq_true, decide_eq_true_eq, UInt32.le_iff_toNat_le,
    ge_iff_le, beq_iff_eq] at h
  -- All these characters are below 128.
  have hZ : 'Z'.val.toNat = 90 := rfl
  have hz : 'z'.val.toNat = 122 := rfl
  have h9 : '9'.val.toNat = 57 := rfl
  have hbound : UInt32.toNat 127 = 127 := rfl
  rcases h with ((h | h) | h) | rfl
  · omega
  · omega
  · omega
  · decide

/-- Names and numbers go on with characters of names. -/
theorem Symbol.IsLexical.isNameChar_or_mark {s : Symbol} (h : s.IsLexical) :
    (∀ c ∈ s.text.toList, isNameChar c = true) ∨ ∃ m, s = mark m := by
  -- A run that begins and goes on with characters of names consists of these.
  have run : ∀ {c : Char} {cs : List Char} {p : Char → Bool}, isNameChar c = true →
      (∀ d, p d = true → isNameChar d = true) →
      ∀ d ∈ c :: cs.takeWhile p, isNameChar d = true := by
    intro c cs p hc hp d hd
    rcases List.mem_cons.mp hd with rfl | hd
    · exact hc
    · exact hp d (List.mem_takeWhile_imp hd)
  unfold IsLexical at h
  generalize hcs : s.text.toList = cs at h
  obtain _ | ⟨c, cs⟩ := cs
  · exact nomatch h
  cases hc : isNameStart c with
  | true =>
    rw [longest?_cons_name hc] at h
    obtain rfl := Option.some.inj h
    rw [ofName_text, String.toList_ofList] at hcs
    rw [← hcs]
    refine .inl (run ?_ fun _ hd => hd)
    simp only [isNameStart, Bool.or_eq_true] at hc
    simp only [isNameChar, Char.isAlphanum, Bool.or_eq_true]
    exact hc.imp_left .inl
  | false =>
    cases hd : c.isDigit with
    | true =>
      rw [longest?_cons_literal hc hd] at h
      obtain rfl := Option.some.inj h
      rw [text, String.toList_ofList] at hcs
      rw [← hcs]
      have hdigit : ∀ d : Char, d.isDigit = true → isNameChar d = true := by
        intro d hd
        simp [isNameChar, Char.isAlphanum, hd]
      exact .inl (run (hdigit c hd) hdigit)
    | false =>
      rw [longest?_cons_mark hc hd] at h
      obtain ⟨m, -, rfl⟩ := Option.map_eq_some_iff.mp h
      exact .inr ⟨m, rfl⟩

/-- Symbols are ASCII. -/
theorem Symbol.IsLexical.utf8Size_of_mem {s : Symbol} (h : s.IsLexical) :
    ∀ c ∈ s.text.toList, c.utf8Size = 1 := by
  rcases h.isNameChar_or_mark with hname | ⟨m, rfl⟩
  · intro c hc
    exact utf8Size_of_isNameChar (hname c hc)
  · cases m <;> simp [text, Mark.text, Char.utf8Size]

/-- The characters of a symbol are its bytes. -/
theorem Symbol.IsLexical.byteLength_text {s : Symbol} (h : s.IsLexical) :
    byteLength s.text.toList = s.text.length := by
  have key : ∀ cs : List Char, (∀ c ∈ cs, c.utf8Size = 1) → byteLength cs = cs.length := by
    intro cs hcs
    induction cs with
    | nil => rfl
    | cons c cs ih =>
      rw [List.forall_mem_cons] at hcs
      rw [byteLength, hcs.1, ih hcs.2, List.length_cons, Nat.add_comm]
  rw [key _ h.utf8Size_of_mem, String.length_toList]

namespace TokenStream

/-- Skipped characters count for the offset and for nothing else. -/
theorem scan_skip (offset : Nat) (pre cs : List Char) :
    scan pre.length offset (pre ++ cs) = scan 0 (offset + byteLength pre) cs := by
  induction pre generalizing offset with
  | nil => rfl
  | cons c pre ih =>
    rw [List.cons_append, List.length_cons, scan, ih, byteLength, Nat.add_assoc]

/-- A blank is passed over, and counts for the offset. -/
theorem scan_blank {c : Char} (h : isBlank c = true) (offset : Nat) (cs : List Char) :
    scan 0 offset (c :: cs) = scan 0 (offset + c.utf8Size) cs := by
  rw [scan, if_pos h]

/-- The scanner emits the symbol that stands in front, and counts its first character
before it skips the others. -/
theorem scan_symbol {s : Symbol} {cs : List Char} (hs : s.IsLexical) (hstop : s.Stops cs)
    (offset : Nat) :
    scan 0 offset (s.text.toList ++ cs) =
      (scan 0 (offset + s.text.length) cs).map (⟨s, ⟨offset, offset + s.text.length⟩⟩ :: ·) := by
  have hlong := Symbol.longest?_eq_some_iff.mpr ⟨cs, rfl, hs, hstop⟩
  obtain ⟨c, pre, htext⟩ := hs.exists_cons
  -- The first character is counted with the symbol, and only the others are skipped.
  have hlen : s.text.length - 1 = pre.length := by
    rw [← String.length_toList, htext, List.length_cons, Nat.add_sub_cancel]
  have hbytes := hs.byteLength_text
  rw [htext, byteLength] at hbytes
  rw [htext, List.cons_append] at hlong ⊢
  rw [scan, if_neg (by simp [isBlank_eq_false_of_longest? hlong])]
  simp only [hlong]
  rw [hlen, scan_skip, Nat.add_assoc, hbytes]

/-- A character that is no blank and begins no symbol is where the scanner stops. -/
theorem scan_stuck {c : Char} {cs : List Char} (hb : isBlank c = false)
    (hlong : Symbol.longest? (c :: cs) = none) (offset : Nat) :
    scan 0 offset (c :: cs) = .error ⟨offset, offset + c.utf8Size⟩ := by
  rw [scan, if_neg (by simp [hb])]
  simp only [hlong]

/-- The scanner goes on by a blank or by a symbol, or it is stuck. A symbol takes several characters
at once. -/
theorem front_induction {motive : List Char → Prop} (nil : motive [])
    (blank : ∀ c cs, isBlank c = true → motive cs → motive (c :: cs))
    (symbol : ∀ (s : Symbol) cs, s.IsLexical → s.Stops cs → motive cs →
      motive (s.text.toList ++ cs))
    (stuck : ∀ c cs, isBlank c = false → Symbol.longest? (c :: cs) = none → motive (c :: cs))
    (cs : List Char) : motive cs := by
  induction hn : cs.length using Nat.strong_induction_on generalizing cs with
  | _ n ih =>
    cases cs with
    | nil => exact nil
    | cons c cs =>
      cases hb : isBlank c with
      | true => exact blank c cs hb (ih _ (by simp [← hn]) cs rfl)
      | false =>
        cases hlong : Symbol.longest? (c :: cs) with
        | none => exact stuck c cs hb hlong
        | some s =>
          -- A symbol takes a character at least, so what is behind it is shorter.
          obtain ⟨rest, hcs, hs, hstop⟩ := Symbol.longest?_eq_some_iff.mp hlong
          obtain ⟨d, pre, htext⟩ := hs.exists_cons
          have hlt : rest.length < n := by
            rw [← hn, hcs, htext, List.cons_append, List.length_cons, List.length_append]
            omega
          rw [hcs]
          exact symbol s rest hs hstop (ih _ hlt rest rfl)

/-- What is scanned are the tokens of the characters. -/
theorem scan_eq_ok_iff {cs : List Char} {offset : Nat} {tokens : List Token} :
    scan 0 offset cs = .ok tokens ↔ LexesAt offset cs tokens := by
  -- One way by the steps of the scanner, and the other way by the tokens.
  constructor
  · intro h
    induction cs using front_induction generalizing offset tokens with
    | nil =>
      cases h
      exact .nil
    | blank c cs hb ih =>
      rw [scan_blank hb] at h
      exact .blank hb (ih h)
    | symbol s cs hs hstop ih =>
      rw [scan_symbol hs hstop] at h
      obtain ⟨more, hmore, rfl⟩ := except_map_eq_ok.mp h
      exact .symbol hs hstop (ih hmore)
    | stuck c cs hb hlong =>
      rw [scan_stuck hb hlong] at h
      exact nomatch h
  · intro h
    induction h with
    | nil => rfl
    | blank hb _ ih => exact (scan_blank hb _ _).trans ih
    | symbol hs hstop _ ih =>
      rw [scan_symbol hs hstop, ih]
      rfl

/-- A text has the tokens exactly if it is these tokens from its beginning. -/
theorem ofText_eq_ok_iff_lexesAt {text : String} {s : TokenStream} :
    TokenStream.ofText text = .ok s ↔
      LexesAt 0 text.toList s.tokens ∧ s.stop = text.utf8ByteSize := by
  rw [← scan_eq_ok_iff]
  unfold TokenStream.ofText TokenStream.ofText?
  cases scan 0 0 text.toList with
  | error span => simp [Except.map]
  | ok tokens =>
    obtain ⟨tokens', stop⟩ := s
    simp [Except.map, @eq_comm _ stop]

/-- A text has tokens with the given symbols exactly if it is these symbols. -/
theorem ofText_eq_ok_iff {text : String} {ss : List Symbol} :
    (∃ s, TokenStream.ofText text = .ok s ∧ symbols s.tokens = ss) ↔ Lexes text.toList ss := by
  constructor
  · rintro ⟨s, h, rfl⟩
    exact (ofText_eq_ok_iff_lexesAt.mp h).1.erase
  · intro h
    obtain ⟨tokens, hlex, hsymbols⟩ := h.place 0
    exact ⟨⟨tokens, _⟩, ofText_eq_ok_iff_lexesAt.mpr ⟨hlex, rfl⟩, hsymbols⟩

end TokenStream

/-- A text is one list of symbols at most. -/
theorem Lexes.unique {text : String} {ss ss' : List Symbol} (h : Lexes text.toList ss)
    (h' : Lexes text.toList ss') : ss = ss' := by
  obtain ⟨s, hs, rfl⟩ := TokenStream.ofText_eq_ok_iff.mpr h
  obtain ⟨s', hs', rfl⟩ := TokenStream.ofText_eq_ok_iff.mpr h'
  rw [hs] at hs'
  cases hs'
  rfl

/-! ### Texts behind one another -/

/-- The mark that ends what the mark opens. -/
def Mark.closing? : Mark → Option Mark
  | leftParen => some rightParen
  | leftBracket => some rightBracket
  | less => some greater
  | _ => none

namespace Lexes

variable {cs cs' : List Char} {ss ss' : List Symbol}

/-- The text of one symbol. -/
theorem of_symbol {s : Symbol} (hs : s.IsLexical) : Lexes s.text.toList [s] := by
  have h := Lexes.symbol hs s.stops_nil .nil
  rwa [List.append_nil] at h

/-- A punctuator that goes on with nothing can stand in front of anything. -/
theorem mark (m : Mark) (hm : ∀ c, (Symbol.mark m).joins c = false) (h : Lexes cs ss) :
    Lexes (m.text.toList ++ cs) (.mark m :: ss) :=
  .symbol (Symbol.mark_isLexical m) (fun c _ => hm c) h

/-- A text can stand behind any other if no symbol goes on with its first character. -/
theorem append {c : Char} (h : Lexes cs ss) (h' : Lexes (c :: cs') ss')
    (hc : ∀ s : Symbol, s.joins c = false) : Lexes (cs ++ c :: cs') (ss ++ ss') := by
  induction h with
  | nil => exact h'
  | blank hb _ ih => exact .blank hb ih
  | symbol hs hstop _ ih =>
    rw [List.append_assoc]
    refine .symbol hs (fun d hd => ?_) ih
    -- What is behind the symbol is the rest of its own text, or `c` if that is all.
    rw [List.head?_append] at hd
    rcases Option.or_eq_some_iff.mp hd with hd | ⟨-, hd⟩
    · exact hstop d hd
    · cases hd
      exact hc _

/-- What stands between two brackets is cut on its own. -/
theorem bracketed {m m' : Mark} (hm : m.closing? = some m') (h : Lexes cs ss) :
    Lexes (m.text.toList ++ (cs ++ m'.text.toList)) (.mark m :: (ss ++ [.mark m'])) := by
  have hclose : Lexes m'.text.toList [.mark m'] := .of_symbol (Symbol.mark_isLexical m')
  cases m with
  | leftParen | leftBracket | less =>
    cases hm
    exact .mark _ (fun _ => rfl) (h.append hclose fun s => s.joins_eq_false (by decide))
  | _ => exact nomatch hm

/-- Brackets with something between them, behind something else. -/
theorem bracketed_behind {m m' : Mark} (hm : m.closing? = some m') (h : Lexes cs ss)
    (h' : Lexes cs' ss') :
    Lexes (cs ++ (m.text.toList ++ (cs' ++ m'.text.toList)))
      (ss ++ .mark m :: (ss' ++ [.mark m'])) := by
  have hb := h'.bracketed hm
  cases m with
  | leftParen | leftBracket | less => exact h.append hb fun s => s.joins_eq_false (by decide)
  | _ => exact nomatch hm

/-- Two texts with a comma between them. -/
theorem comma (h : Lexes cs ss) (h' : Lexes cs' ss') :
    Lexes (cs ++ ',' :: cs') (ss ++ .mark .comma :: ss') :=
  h.append (.mark .comma (fun _ => rfl) h') fun s => s.joins_eq_false (by decide)

/-- Blanks in front of a text are passed over. -/
theorem blanks {gap : List Char} (hgap : ∀ c ∈ gap, isBlank c = true) (h : Lexes cs ss) :
    Lexes (gap ++ cs) ss := by
  induction gap with
  | nil => exact h
  | cons c gap ih =>
    rw [List.forall_mem_cons] at hgap
    exact .blank hgap.1 (ih hgap.2)

/-- A text begins with a blank or with its first symbol. -/
theorem head {c : Char} (h : Lexes (c :: cs) ss) :
    isBlank c = true ∨ ∃ s ss', ss = s :: ss' ∧ s.text.toList.head? = some c := by
  -- The characters are generalized, so that the derivation can be taken apart.
  generalize hcs : c :: cs = cs' at h
  cases h with
  | nil => exact nomatch hcs
  | blank hb _ =>
    cases hcs
    exact .inl hb
  | @symbol s _ _ hs _ _ =>
    obtain ⟨d, pre, htext⟩ := hs.exists_cons
    rw [htext] at hcs
    cases hcs
    exact .inr ⟨s, _, rfl, by rw [htext]; rfl⟩

/-- A symbol of a text is a whole symbol. -/
theorem isLexical_of_mem {s : Symbol} (h : Lexes cs ss) (hs : s ∈ ss) : s.IsLexical := by
  induction h with
  | nil => exact nomatch hs
  | blank _ _ ih => exact ih hs
  | symbol hlex _ _ ih =>
    rcases List.mem_cons.mp hs with rfl | hs
    · exact hlex
    · exact ih hs

/-- No symbol of a text is longer than the text. -/
theorem length_le_of_mem {s : Symbol} (h : Lexes cs ss) (hs : s ∈ ss) :
    s.text.length ≤ cs.length := by
  induction h with
  | nil => exact nomatch hs
  | blank _ _ ih => exact Nat.le_succ_of_le (ih hs)
  | symbol _ _ _ ih =>
    rw [List.length_append, String.length_toList]
    rcases List.mem_cons.mp hs with rfl | hs
    · exact Nat.le_add_right _ _
    · exact Nat.le_add_left_of_le (ih hs)

/-- A symbol whose text is all of the text is a whole symbol. -/
theorem isLexical_of_singleton {s : Symbol} (h : Lexes s.text.toList [s]) : s.IsLexical := by
  generalize hcs : s.text.toList = cs at h
  cases h with
  | blank _ h =>
    -- With a blank, the text would be longer than its one symbol.
    have hle := h.length_le_of_mem List.mem_cons_self
    have hlen := congrArg List.length hcs
    rw [String.length_toList, List.length_cons] at hlen
    rw [hlen] at hle
    exact absurd hle (Nat.not_succ_le_self _)
  | symbol hs _ _ => exact hs

end Lexes

/-! ### Names -/

namespace Symbol

/-- An identifier is a name that no keyword has. -/
theorem ofName_eq_identifier_iff {name : String} :
    ofName name = identifier name ↔
      (∀ w : ScalarWord, w.text ≠ name) ∧ ∀ k : Keyword, k.text ≠ name := by
  have hwords : ScalarWord.all.find? (·.text == name) = none ↔ ∀ w : ScalarWord, w.text ≠ name := by
    simp [List.find?_eq_none, ScalarWord.mem_all]
  have hkeys : Keyword.all.find? (·.text == name) = none ↔ ∀ k : Keyword, k.text ≠ name := by
    simp [List.find?_eq_none, Keyword.mem_all]
  rw [← hwords, ← hkeys, ofName]
  -- The words of arithmetic types are looked up before the keywords.
  split
  · next h => simp [h]
  · next h =>
    split
    · next h' => simp [h']
    · next h' => simp [h, h']

/-- A name is an identifier exactly if it is no keyword, begins as a name and goes on as one. -/
theorem identifier_isLexical_iff {name : String} :
    (identifier name).IsLexical ↔ ofName name = identifier name ∧
      ∃ c cs, name.toList = c :: cs ∧ isNameStart c = true ∧ ∀ d ∈ cs, isNameChar d = true := by
  constructor
  · intro h
    obtain ⟨c, cs, hcs⟩ := IsLexical.exists_cons h
    rw [IsLexical, hcs] at h
    rw [text] at hcs
    cases hc : isNameStart c with
    | true =>
      rw [longest?_cons_name hc] at h
      have hname := congrArg text (Option.some.inj h)
      rw [ofName_text, text] at hname
      -- The whole text is its own longest run, so it has no other characters.
      have hcs' : c :: cs.takeWhile isNameChar = c :: cs := by
        rw [← hcs, ← hname, String.toList_ofList]
      rw [hname] at h
      exact ⟨Option.some.inj h, c, cs, hcs, hc,
        List.takeWhile_eq_self_iff.mp (List.cons.inj hcs').2⟩
    | false =>
      cases hd : c.isDigit with
      | true =>
        rw [longest?_cons_literal hc hd] at h
        cases h
      | false =>
        rw [longest?_cons_mark hc hd] at h
        obtain ⟨m, -, hm⟩ := Option.map_eq_some_iff.mp h
        cases hm
  · rintro ⟨hname, c, cs, hcs, hc, hall⟩
    rw [IsLexical, text, hcs, longest?_cons_name hc, List.takeWhile_eq_self_iff.mpr hall, ← hcs,
      String.ofList_toList, hname]

/-- An identifier goes on as one, unless it becomes a keyword. -/
theorem isLexical_append {name ending : String} (h : (identifier name).IsLexical)
    (hending : ∀ c ∈ ending.toList, isNameChar c = true)
    (hname : ofName (name ++ ending) = identifier (name ++ ending)) :
    (identifier (name ++ ending)).IsLexical := by
  obtain ⟨-, c, cs, hcs, hc, hall⟩ := identifier_isLexical_iff.mp h
  refine identifier_isLexical_iff.mpr ⟨hname, c, cs ++ ending.toList, ?_, hc, ?_⟩
  · rw [String.toList_append, hcs, List.cons_append]
  · exact List.forall_mem_append.mpr ⟨hall, hending⟩

end Symbol

/-- The text is the identifier, with nothing but blanks around it. -/
def NamesIdentifier (text name : String) : Prop :=
  ∃ span stop, TokenStream.ofText text = .ok ⟨[⟨.identifier name, span⟩], stop⟩

/-- The name is an identifier as it stands. -/
def IsPlainName (name : String) : Prop := NamesIdentifier name name

/-- The same without the places. -/
theorem namesIdentifier_iff_lexes {text name : String} :
    NamesIdentifier text name ↔ Lexes text.toList [.identifier name] := by
  rw [← TokenStream.ofText_eq_ok_iff]
  constructor
  · rintro ⟨span, stop, h⟩
    exact ⟨_, h, rfl⟩
  · rintro ⟨⟨tokens, stop⟩, h, hsymbols⟩
    obtain ⟨⟨s, span⟩, rfl, rfl⟩ := List.map_eq_singleton_iff.mp hsymbols
    exact ⟨span, stop, h⟩

/-- A text has one identifier at most. -/
theorem NamesIdentifier.unique {text name name' : String} (h : NamesIdentifier text name)
    (h' : NamesIdentifier text name') : name = name' := by
  obtain ⟨span, stop, h⟩ := h
  obtain ⟨span', stop', h'⟩ := h'
  rw [h] at h'
  cases h'
  rfl

/-- A plain name is a symbol of its own. -/
theorem IsPlainName.isLexical {name : String} (h : IsPlainName name) :
    (Symbol.identifier name).IsLexical :=
  Lexes.isLexical_of_singleton (namesIdentifier_iff_lexes.mp h)

end TypeTraits
