import TypeTraits.Descriptor.Spelling
import TypeTraits.Proofs.Token.Lexing

/-!
# `TypeTraits.Proofs.Descriptor.Spelling`: the symbols of spelled types

The pieces that `Descriptor.spell` puts together, each with the symbols that its
text is cut into. A piece that is built around a declarator takes the symbols of
the declarator and says where they come to stand.

* `lexes_specify`: a specifier in front of a declarator.
* `lexes_operate`: a pointer operator in front of a declarator.
* `lexes_boundSymbols`: what stands between the brackets of an array.
-/

set_option autoImplicit false

namespace TypeTraits

open Text (startsWithWord isWordChar isAlphanumeric)

/-! ### Words -/

/-- The symbol is a word: it would go on with any character of a name. -/
def Symbol.IsWord (s : Symbol) : Prop := s.IsLexical ∧ ∀ c, s.joins c = isNameChar c

/-- The texts of the symbols with one blank between them. -/
def spaced : List Symbol → List Char
  | [] => []
  | [s] => s.text.toList
  | s :: s' :: ss => s.text.toList ++ ' ' :: spaced (s' :: ss)

/-- Two runs of words behind one another, when neither is empty. -/
theorem spaced_append {ss ss' : List Symbol} (h : ss ≠ []) (h' : ss' ≠ []) :
    spaced (ss ++ ss') = spaced ss ++ ' ' :: spaced ss' := by
  induction ss with
  | nil => exact absurd rfl h
  | cons s ss ih =>
    cases ss with
    | nil =>
      obtain ⟨s', ss', rfl⟩ := List.exists_cons_of_ne_nil h'
      rfl
    | cons s₁ ss =>
      rw [List.cons_append, List.cons_append, spaced, spaced, ← List.cons_append,
        ih (List.cons_ne_nil _ _), List.append_assoc, List.cons_append]

/-- Words with blanks between them are these words, in front of what is no character of a
name. -/
theorem lexes_spaced {ws : List Symbol} {cs : List Char} {ss : List Symbol}
    (hws : ∀ w ∈ ws, w.IsWord) (h : Lexes cs ss) (hcs : ∀ c ∈ cs.head?, isNameChar c = false) :
    Lexes (spaced ws ++ cs) (ws ++ ss) := by
  induction ws with
  | nil => exact h
  | cons w ws ih =>
    have hw := hws w List.mem_cons_self
    cases ws with
    | nil => exact .symbol hw.1 (fun c hc => (hw.2 c).trans (hcs c hc)) h
    | cons w' ws =>
      have hmore := ih fun v hv => hws v (List.mem_cons_of_mem w hv)
      rw [spaced, List.append_assoc, List.cons_append]
      refine .symbol hw.1 (fun c hc => ?_) (.blank rfl hmore)
      -- Behind a word that is not the last one stands the blank.
      cases hc
      exact w.joins_eq_false List.mem_cons_self

/-- Every character of a name is a character of a word. -/
theorem isWordChar_of_isNameChar {c : Char} (h : isNameChar c = true) : isWordChar c = true := by
  unfold isNameChar at h
  unfold isWordChar
  rw [Bool.or_eq_true] at h ⊢
  refine h.imp_left fun hc => ?_
  -- Letters and digits of names are ASCII, where the wider class agrees with them.
  have hlt : c.toNat < 0x80 := by
    unfold Char.isAlphanum Char.isAlpha Char.isUpper Char.isLower Char.isDigit at hc
    simp only [Bool.or_eq_true, Bool.and_eq_true, decide_eq_true_eq, ge_iff_le,
      UInt32.le_iff_toNat_le] at hc
    show c.val.toNat < 128
    have hz : 'z'.val.toNat = 122 := rfl
    have hZ : 'Z'.val.toNat = 90 := rfl
    have h9 : '9'.val.toNat = 57 := rfl
    omega
  rwa [Text.isAlphanumeric_of_lt hlt]

/-- The declarator behind a word: a blank keeps two words apart. -/
def behindWord (d : String) : String := if startsWithWord d then " " ++ d else d

/-- The blank is put exactly where a name could go on, and changes no symbols. -/
theorem lexes_behindWord {d : String} {ss : List Symbol} (h : Lexes d.toList ss) :
    Lexes (behindWord d).toList ss ∧ ∀ c ∈ (behindWord d).toList.head?, isNameChar c = false := by
  unfold behindWord
  split
  · rw [String.toList_append]
    refine ⟨.blank rfl h, fun c hc => ?_⟩
    cases hc
    rfl
  · next hd =>
    refine ⟨h, fun c hc => ?_⟩
    -- A character of a name would have called for the blank.
    rw [Bool.eq_false_iff]
    intro hname
    refine hd ?_
    rw [startsWithWord, Option.mem_def.mp hc]
    exact isWordChar_of_isNameChar hname

/-! ### Qualifiers and names -/

/-- The qualifiers as keywords, in the order they are written in. -/
def Qualifiers.symbols (q : Qualifiers) : List Symbol :=
  (if q.isConst then [.keyword .const] else []) ++
    if q.isVolatile then [.keyword .volatile] else []

/-- Qualifiers are printed as their keywords with a blank between them. -/
theorem Qualifiers.spaced_symbols (q : Qualifiers) : spaced q.symbols = q.text.toList := by
  obtain ⟨c, v⟩ := q
  cases c <;> cases v <;> decide

/-- No keywords stand for no qualifiers. -/
theorem Qualifiers.symbols_eq_nil {q : Qualifiers} (h : q.isEmpty = true) : q.symbols = [] := by
  obtain ⟨c, v⟩ := q
  cases c <;> cases v
  · rfl
  all_goals exact Bool.noConfusion h

/-- Some keyword stands for each set of qualifiers that is not empty. -/
theorem Qualifiers.symbols_ne_nil {q : Qualifiers} (h : q.isEmpty = false) : q.symbols ≠ [] := by
  obtain ⟨c, v⟩ := q
  cases c <;> cases v
  · exact Bool.noConfusion h
  all_goals exact List.cons_ne_nil _ _

/-- The grammar reads the keywords as the qualifiers that they were written for. -/
theorem Qualifiers.isQualifiers_symbols (q : Qualifiers) : Grammar.IsQualifiers q.symbols q := by
  have hconst : Keyword.const.qualifier? = some .const := rfl
  have hvolatile : Keyword.volatile.qualifier? = some .volatile := rfl
  obtain ⟨c, v⟩ := q
  cases c <;> cases v
  · exact .nil
  · exact .cons hvolatile .nil
  · exact .cons hconst .nil
  · exact .cons hconst (.cons hvolatile .nil)

/-- Keywords are words. -/
theorem Keyword.isWord (k : Keyword) : (Symbol.keyword k).IsWord :=
  ⟨by cases k <;> decide, fun _ => rfl⟩

/-- So are the words of arithmetic types. -/
theorem ScalarWord.isWord (w : ScalarWord) : (Symbol.scalar w).IsWord :=
  ⟨by cases w <;> decide, fun _ => rfl⟩

/-- So is all that is written for qualifiers. -/
theorem Qualifiers.isWord_of_mem_symbols {q : Qualifiers} {s : Symbol} (h : s ∈ q.symbols) :
    s.IsWord := by
  obtain ⟨c, v⟩ := q
  cases c <;> cases v <;> simp [symbols] at h
  · exact h ▸ Keyword.volatile.isWord
  · exact h ▸ Keyword.const.isWord
  · rcases h with rfl | rfl
    · exact Keyword.const.isWord
    · exact Keyword.volatile.isWord

/-- No name is among what is written for qualifiers. -/
theorem Qualifiers.identifier_notMem_symbols (q : Qualifiers) (name : String) :
    Symbol.identifier name ∉ q.symbols := by
  obtain ⟨c, v⟩ := q
  cases c <;> cases v <;> simp [symbols]

/-- No two arithmetic types are printed alike. -/
theorem Scalar.name_injective : Function.Injective Scalar.name := by
  have hnodup : (Scalar.all.map Scalar.name).Nodup := by decide
  exact fun k k' h => List.inj_on_of_nodup_map hnodup k.mem_all k'.mem_all h

/-- The printed name of an arithmetic type is one of its spellings. -/
theorem Scalar.exists_name_eq_spaced (k : Scalar) :
    ∃ ws ∈ k.spellings, k.name.toList = spaced (ws.map .scalar) := by
  cases k <;> decide

/-! ### In front of a declarator -/

/-- A specifier is its qualifiers, its words and then the declarator's symbols. -/
theorem lexes_specify {name : String} {ws : List Symbol} {q : Qualifiers} {d : String}
    {ss : List Symbol} (hname : name.toList = spaced ws) (hws : ∀ w ∈ ws, w.IsWord) (hne : ws ≠ [])
    (h : Lexes d.toList ss) : Lexes (specify name q d).toList (q.symbols ++ ws ++ ss) := by
  obtain ⟨hd, hstop⟩ := lexes_behindWord h
  -- Qualifiers and name are words in a row, with blanks between them.
  have hbase : (if q.isEmpty then name else q.text ++ " " ++ name).toList =
      spaced (q.symbols ++ ws) := by
    cases hq : q.isEmpty with
    | true => rw [if_pos rfl, q.symbols_eq_nil hq, List.nil_append, hname]
    | false =>
      rw [if_neg Bool.false_ne_true, spaced_append (q.symbols_ne_nil hq) hne, String.toList_append,
        String.toList_append, q.spaced_symbols, hname, List.append_assoc]
      rfl
  -- A word behind them needs a blank of its own.
  have htext : specify name q d =
      (if q.isEmpty then name else q.text ++ " " ++ name) ++ behindWord d := by
    unfold specify behindWord
    simp only
    split
    · rw [String.append_assoc]
    · rfl
  rw [htext, String.toList_append, hbase]
  refine lexes_spaced (fun w hw => ?_) hd hstop
  rcases List.mem_append.mp hw with hw | hw
  · exact q.isWord_of_mem_symbols hw
  · exact hws w hw

/-- An operator is its own symbols, its qualifiers and then the declarator's symbols. Any
operator will do that can stand in front of anything. -/
theorem lexes_operate {op : String} {os : List Symbol} {q : Qualifiers} {d : String}
    {ss : List Symbol} (hop : ∀ cs ss, Lexes cs ss → Lexes (op.toList ++ cs) (os ++ ss))
    (h : Lexes d.toList ss) : Lexes (operate op q d).toList (os ++ (q.symbols ++ ss)) := by
  unfold operate
  cases hq : q.isEmpty with
  | true =>
    rw [if_pos rfl, q.symbols_eq_nil hq, String.toList_append]
    exact hop _ _ h
  | false =>
    obtain ⟨hd, hstop⟩ := lexes_behindWord h
    -- The operator, a blank, and the qualifiers, which may need a blank behind them.
    have htext :
        (if startsWithWord d then op ++ " " ++ q.text ++ " " ++ d else op ++ " " ++ q.text ++ d) =
          op ++ " " ++ q.text ++ behindWord d := by
      unfold behindWord
      split
      · rw [String.append_assoc]
      · rfl
    have hquals := lexes_spaced (fun w hw => q.isWord_of_mem_symbols hw) hd hstop
    rw [if_neg Bool.false_ne_true, htext, String.toList_append, String.toList_append,
      String.toList_append, ← q.spaced_symbols, List.append_assoc, List.append_assoc]
    exact hop _ _ (.blank rfl hquals)

/-- The star of a pointer is a symbol of its own. -/
theorem lexes_star {cs : List Char} {ss : List Symbol} (h : Lexes cs ss) :
    Lexes ("*".toList ++ cs) ([.mark .star] ++ ss) :=
  .mark .star (fun _ => rfl) h

/-- The operator of a member pointer is three symbols: the class, two colons and a star. -/
theorem lexes_memberStar {name : String} (hname : (Symbol.identifier name).IsLexical)
    {cs : List Char} {ss : List Symbol} (h : Lexes cs ss) :
    Lexes ((name ++ "::*").toList ++ cs)
      ([.identifier name, .mark .colonColon, .mark .star] ++ ss) := by
  have hbehind : Lexes ("::*".toList ++ cs) ([.mark .colonColon, .mark .star] ++ ss) :=
    .mark .colonColon (fun _ => rfl) (lexes_star h)
  rw [String.toList_append, List.append_assoc]
  show Lexes ((Symbol.identifier name).text.toList ++ _) _
  refine .symbol hname (fun c hc => ?_) hbehind
  cases hc
  rfl

/-! ### Bounds of arrays -/

/-- The symbols in the brackets of an array. -/
def boundSymbols : Option Nat → List Symbol
  | none => []
  | some n => [.literal (toString n)]

/-- A number is read as what it was written from. -/
theorem decimal_toString (n : Nat) : decimal (toString n).toList = n := by
  rw [Nat.toString_eq_repr, Nat.toList_repr]
  exact Nat.ofDigitChars_ten_toDigits

/-- A number is written as one symbol. -/
theorem literal_toString_isLexical (n : Nat) : (Symbol.literal (toString n)).IsLexical := by
  apply Symbol.literal_isLexical
  · rw [Nat.toString_eq_repr, Nat.toList_repr]
    exact Nat.toDigits_ne_nil
  · intro c hc
    rw [Nat.toString_eq_repr, Nat.toList_repr] at hc
    exact Nat.isDigit_of_mem_toDigits (by decide) (by decide) hc

/-- What is written between the brackets of an array. -/
theorem lexes_boundSymbols (n : Option Nat) :
    Lexes ((n.map toString).getD "").toList (boundSymbols n) := by
  cases n with
  | none => exact .nil
  | some n =>
    have h := Lexes.of_symbol (literal_toString_isLexical n)
    rw [Symbol.text] at h
    rwa [Option.map_some, Option.getD_some, boundSymbols]

/-- The grammar reads it as the bound, as far as that is a size. -/
theorem isBound_boundSymbols {n : Option Nat} (h : ∀ m, n = some m → m < sizeLimit) :
    Grammar.IsBound (boundSymbols n) n := by
  cases n with
  | none => exact .unknown
  | some n =>
    have hn : decimal (toString n).toList < sizeLimit := by
      rw [decimal_toString]
      exact h n rfl
    have := Grammar.IsBound.known hn
    rwa [decimal_toString] at this

end TypeTraits
