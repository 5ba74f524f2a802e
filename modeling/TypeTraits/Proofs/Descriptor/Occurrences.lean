import TypeTraits.Descriptor.Spelling
import TypeTraits.Proofs.Descriptor.Canonical

/-!
# `TypeTraits.Proofs.Descriptor.Occurrences`: which characters a printed type is made of

A printed type grows around its declarator from the inside out, and all that is in the declarator
stays in the text. So it can be counted how often a kind of character occurs (`occurrences`): a
declarator with `n` more of them makes a text with `n` more of them
(`Outweighs.occurrences_spell`). Only the blank behind a word needs care. It is put or left out by
how the declarator begins, and so `Outweighs` compares declarators that begin alike.

Operators, dimensions and qualifiers each add characters of their own to the text of a type:

* `occurrences_spell_group`: an operator in front of the declarator.
* `occurrences_lt_array`: a dimension behind the declarator.
* `IsCanonical.occurrences_withQualifiers`: the outermost qualifiers.
-/

set_option autoImplicit false

namespace TypeTraits

open Text (startsWithWord)

/-- The qualifiers in front of a name, and the blank that keeps them apart from it. -/
def Qualifiers.front (q : Qualifiers) : String := if q.isEmpty then "" else q.text ++ " "

/-- How many characters of the text have the property. -/
def occurrences (p : Char → Bool) (s : String) : Nat := s.toList.countP p

section
variable {p : Char → Bool} {n : Nat} {d d' s : String}

/-- Characters are counted in each of two texts. -/
@[simp] theorem occurrences_append (p : Char → Bool) (s s' : String) :
    occurrences p (s ++ s') = occurrences p s + occurrences p s' := by
  rw [occurrences, String.toList_append, List.countP_append]
  rfl

/-- The empty text has no characters to count. -/
@[simp] theorem occurrences_empty (p : Char → Bool) : occurrences p "" = 0 := rfl

/-- What is put in front of a text that is no word begins as before. -/
theorem startsWithWord_append (h : startsWithWord s = false) (d : String) :
    startsWithWord (d ++ s) = startsWithWord d := by
  unfold startsWithWord at h ⊢
  rw [String.toList_append, List.head?_append]
  cases d.toList.head? with
  | none => exact h
  | some c => rfl

/-- What is in brackets is no word. -/
theorem startsWithWord_bracketed (s : String) :
    startsWithWord ("[" ++ s) = false ∧ startsWithWord ("(" ++ s) = false := by
  rw [startsWithWord, startsWithWord, String.toList_append, String.toList_append]
  exact ⟨rfl, rfl⟩

/-! ### Declarators that begin alike -/

/-- Both texts begin with a word, or none does, and the first one has `n` more of the
characters. -/
structure Outweighs (p : Char → Bool) (n : Nat) (d d' : String) : Prop where
  start : startsWithWord d = startsWithWord d'
  count : occurrences p d = occurrences p d' + n

namespace Outweighs

/-- A declarator outweighs none at all by what is written in it. -/
theorem empty (h : startsWithWord d = false) : Outweighs p (occurrences p d) d "" where
  start := h
  count := by simp

/-- It does so with the same text in front of both. -/
theorem prepend (h : Outweighs p n d d') (s : String) : Outweighs p n (s ++ d) (s ++ d') where
  start := by
    have hstart := h.start
    unfold startsWithWord at hstart ⊢
    rw [String.toList_append, String.toList_append, List.head?_append, List.head?_append]
    cases s.toList.head? with
    | none => exact hstart
    | some c => rfl
  count := by simp only [occurrences_append, h.count, Nat.add_assoc]

/-- It does so with the same text behind both, unless that text could be taken for a word. -/
theorem append (h : Outweighs p n d d') (hs : startsWithWord s = false) :
    Outweighs p n (d ++ s) (d' ++ s) where
  start := by rw [startsWithWord_append hs, startsWithWord_append hs, h.start]
  count := by
    simp only [occurrences_append, h.count]
    omega

/-- It does so in parentheses, which stand around both declarators or around neither. -/
theorem group (h : Outweighs p n d d') (t : Descriptor) :
    Outweighs p n (t.group d) (t.group d') := by
  unfold Descriptor.group
  split
  · exact (h.prepend "(").append rfl
  · exact h

/-- It does so behind the same operator. -/
theorem operate (h : Outweighs p n d d') (op : String) (q : Qualifiers) :
    Outweighs p n (operate op q d) (operate op q d') := by
  unfold TypeTraits.operate
  rw [h.start]
  split
  · exact h.prepend op
  · split
    · exact h.prepend _
    · exact h.prepend _

/-- Behind a specifier, the difference is still there. -/
theorem occurrences_specify (h : Outweighs p n d d') (name : String) (q : Qualifiers) :
    occurrences p (specify name q d) = occurrences p (specify name q d') + n := by
  unfold specify
  rw [h.start]
  simp only
  split
  · exact (h.prepend _).count
  · exact (h.prepend _).count

/-- What the declarator has more, the text of the type has more. -/
theorem occurrences_spell (h : Outweighs p n d d') (t : Descriptor) (extra : Qualifiers) :
    occurrences p (t.spell extra d) = occurrences p (t.spell extra d') + n := by
  induction t generalizing extra d d' with
  | void q => exact h.occurrences_specify _ _
  | nullPointer q => exact h.occurrences_specify _ _
  | scalar k q => exact h.occurrences_specify _ _
  | classType c q => exact h.occurrences_specify _ _
  | enumType e q => exact h.occurrences_specify _ _
  | pointer t q ih => exact ih ((h.operate _ _).group t) _
  | memberPointer c t q ih => exact ih ((h.operate _ _).group t) _
  | array t m q ih =>
    -- A suffix begins with a bracket. So it does not change whether the declarator begins with a
    -- word, even where the declarator is empty.
    simp only [Descriptor.spell, String.append_assoc]
    exact ih (h.append (startsWithWord_bracketed _).1) _
  | lvalueRef t ih => exact ih ((h.prepend _).group t) _
  | rvalueRef t ih => exact ih ((h.prepend _).group t) _
  | function r ps v ihr _ =>
    simp only [Descriptor.spell, String.append_assoc]
    exact ihr (h.append (startsWithWord_bracketed _).2) _

/-- Of two operators, the one with more of the characters makes the text with more of them. -/
theorem occurrences_lt (h : Outweighs p (n + 1) d d') (t : Descriptor) :
    occurrences p (t.spell .none (t.group d')) < occurrences p (t.spell .none (t.group d)) := by
  rw [(h.group t).occurrences_spell]
  omega

end Outweighs

namespace Descriptor

variable {t : Descriptor} {q : Qualifiers}

/-! ### Operators -/

/-- Qualifiers stand between an operator and the declarator, and add what is written for them. -/
theorem outweighs_operate_none (h : startsWithWord d = false) (op : String) (q : Qualifiers) :
    Outweighs p (occurrences p q.front) (operate op q d) (operate op .none d) := by
  have hnone : operate op .none d = op ++ d := rfl
  rw [hnone]
  unfold operate Qualifiers.front
  cases q.isEmpty with
  | true => exact ⟨rfl, rfl⟩
  | false =>
    rw [if_neg Bool.false_ne_true, if_neg Bool.false_ne_true, h, if_neg Bool.false_ne_true,
      String.append_assoc, String.append_assoc]
    refine Outweighs.prepend ⟨?_, ?_⟩ op
    · rw [h, startsWithWord, String.toList_append]
      rfl
    -- A blank is in front of the qualifiers here and behind them in `front`, which makes no
    -- difference to how often a character occurs.
    · simp only [occurrences_append]
      omega

/-- What is put in parentheses is no word either. -/
theorem startsWithWord_group (h : startsWithWord d = false) (t : Descriptor) :
    startsWithWord (t.group d) = false := by
  unfold group
  split
  · rw [String.append_assoc]
    exact (startsWithWord_bracketed _).2
  · exact h

/-- The text of what an operator points to holds all characters of its text without the
operator, and those of the operator. -/
theorem occurrences_spell_group (h : startsWithWord d = false) (t : Descriptor) :
    occurrences p (t.spell .none (t.group d)) =
      occurrences p t.spelling + occurrences p (t.group d) :=
  (Outweighs.empty (startsWithWord_group h t)).occurrences_spell t .none

/-- Parentheses take no characters away. -/
theorem occurrences_le_group (p : Char → Bool) (t : Descriptor) (d : String) :
    occurrences p d ≤ occurrences p (t.group d) := by
  unfold group
  split
  · simp only [occurrences_append]
    omega
  · exact Nat.le_refl _

/-- Parentheses do not count among other characters. -/
theorem occurrences_group (hleft : p '(' = false) (hright : p ')' = false) (t : Descriptor)
    (d : String) : occurrences p (t.group d) = occurrences p d := by
  have hl : occurrences p "(" = 0 := by simp [occurrences, hleft]
  have hr : occurrences p ")" = 0 := by simp [occurrences, hright]
  unfold group
  split
  · rw [occurrences_append, occurrences_append, hl, hr, Nat.zero_add, Nat.add_zero]
  · rfl

/-- What an operator adds in parentheses is more than nothing. -/
theorem occurrences_lt_spell_group (h : startsWithWord d = false) (hp : 0 < occurrences p d)
    (t : Descriptor) : occurrences p t.spelling < occurrences p (t.spell .none (t.group d)) := by
  have hle := occurrences_le_group p t d
  rw [occurrences_spell_group h]
  omega

/-- A pointer has a star more than what it points to. -/
theorem occurrences_lt_pointer (hp : p '*' = true) (t : Descriptor) (q : Qualifiers) :
    occurrences p t.spelling < occurrences p (pointer t q).spelling := by
  have hop := outweighs_operate_none (p := p) (d := "") rfl "*" (q.union .none)
  have hstar : occurrences p (operate "*" .none "") = 1 := by
    show occurrences p "*" = 1
    simp [occurrences, hp]
  refine occurrences_lt_spell_group hop.start ?_ t
  have hcount := hop.count
  omega

/-- An unqualified pointer adds only its star, and parentheses. -/
theorem occurrences_pointer_none (hstar : p '*' = false) (hleft : p '(' = false)
    (hright : p ')' = false) (t : Descriptor) :
    occurrences p (pointer t .none).spelling = occurrences p t.spelling := by
  have hop : occurrences p "*" = 0 := by simp [occurrences, hstar]
  have hcount := occurrences_spell_group (p := p) (d := "*") rfl t
  rw [occurrences_group hleft hright, hop, Nat.add_zero] at hcount
  exact hcount

/-- An lvalue reference has an ampersand more than what it refers to. -/
theorem occurrences_lt_lvalueRef (hp : p '&' = true) (t : Descriptor) :
    occurrences p t.spelling < occurrences p (lvalueRef t).spelling := by
  refine occurrences_lt_spell_group rfl ?_ t
  simp [occurrences, hp]

/-- So has an rvalue reference, which has two. -/
theorem occurrences_lt_rvalueRef (hp : p '&' = true) (t : Descriptor) :
    occurrences p t.spelling < occurrences p (rvalueRef t).spelling := by
  refine occurrences_lt_spell_group rfl ?_ t
  simp [occurrences, hp]

/-- What is referred to is written with no more characters than the reference. -/
theorem occurrences_removeReference_le (p : Char → Bool) (t : Descriptor) :
    occurrences p t.removeReference.spelling ≤ occurrences p t.spelling := by
  cases t with
  | lvalueRef s => exact Nat.le.intro (occurrences_spell_group (d := "&") rfl s).symm
  | rvalueRef s => exact Nat.le.intro (occurrences_spell_group (d := "&&") rfl s).symm
  | _ => exact Nat.le_refl _

/-! ### Qualifiers -/

/-- Qualifiers handed down from an outer level are as good as those of the type. -/
theorem spell_qualified (t : Descriptor) (q extra : Qualifiers) (d : String) :
    (t.qualified q).spell extra d = t.spell (q.union extra) d := by
  cases t <;> simp [qualified, withQualifiers, qualifiers, spell, Qualifiers.union_assoc]

/-- The text of a type with more qualifiers is its text with these handed down. -/
theorem spelling_qualified (t : Descriptor) (q : Qualifiers) :
    (t.qualified q).spelling = t.spell q "" := by
  rw [spelling, spell_qualified, Qualifiers.union_none]

/-- In a specifier, qualifiers add what is written for them. -/
theorem occurrences_specify_none (h : startsWithWord d = false) (name : String) (q : Qualifiers) :
    occurrences p (specify name q d) =
      occurrences p (specify name .none d) + occurrences p q.front := by
  have hnone : specify name .none d = name ++ d := by
    unfold specify
    rw [h]
    rfl
  rw [hnone]
  unfold specify Qualifiers.front
  simp only [h, Bool.false_eq_true, if_false]
  split
  · rfl
  · simp only [occurrences_append]
    omega

/-- Qualifiers are written wherever the type is, unless it can have none. -/
theorem IsCanonical.occurrences_spell_none (h : t.IsCanonical) (hf : t.isFunction = false)
    (hr : t.isReference = false) (hq : t.qualifiers = .none) (hd : startsWithWord d = false) :
    occurrences p (t.spell q d) = occurrences p (t.spell .none d) + occurrences p q.front := by
  induction t generalizing d with
  | void r | nullPointer r | scalar k r | classType c r | enumType e r =>
    cases hq
    exact occurrences_specify_none hd _ q
  | pointer t r _ =>
    cases hq
    exact ((outweighs_operate_none hd "*" q).group t).occurrences_spell t .none
  | memberPointer c t r _ =>
    cases hq
    exact ((outweighs_operate_none hd (c.name ++ "::*") q).group t).occurrences_spell t .none
  | array t n r ih =>
    cases hq
    -- The qualifiers of an array are written for its element, which has none of its own.
    obtain ⟨hlevel, ht⟩ := (isCanonical_array t .none n).mp h
    obtain ⟨htq, -, htf, htr, -⟩ := hlevel
    simp only [spell, String.append_assoc]
    refine ih ht htf htr htq ?_
    rw [startsWithWord_append (startsWithWord_bracketed _).1, hd]
  | lvalueRef t _ => exact nomatch hr
  | rvalueRef t _ => exact nomatch hr
  | function r ps v _ _ => exact nomatch hf

/-- The outermost qualifiers add what is written for them. -/
theorem IsCanonical.occurrences_withQualifiers (h : t.IsCanonical) (hf : t.isFunction = false)
    (hr : t.isReference = false) (q : Qualifiers) :
    occurrences p (t.withQualifiers q).spelling =
      occurrences p t.unqualified.spelling + occurrences p q.front := by
  have hqualified : t.withQualifiers q = t.unqualified.qualified q := by
    rw [qualified, qualifiers_unqualified, Qualifiers.none_union, unqualified,
      withQualifiers_withQualifiers]
  rw [hqualified, spelling_qualified]
  exact ((isCanonical_unqualified t).mpr h).occurrences_spell_none (by simpa [unqualified])
    (by simpa [unqualified]) (qualifiers_unqualified t) rfl

/-- Without the outermost qualifiers, the text has no more characters. -/
theorem IsCanonical.occurrences_unqualified_le (h : t.IsCanonical) :
    occurrences p t.unqualified.spelling ≤ occurrences p t.spelling := by
  by_cases hself : t.isFunction = true ∨ t.isReference = true
  · have hunqualified : t.unqualified = t := withQualifiers_eq_self hself .none
    exact Nat.le_of_eq (by rw [hunqualified])
  · simp only [not_or, Bool.not_eq_true] at hself
    have hcount := h.occurrences_withQualifiers (p := p) hself.1 hself.2 t.qualifiers
    rw [withQualifiers_qualifiers] at hcount
    omega

/-! ### Dimensions -/

/-- A dimension is written behind the declarator, and its qualifiers are those of the element. -/
theorem occurrences_lt_array (hp : p '[' = true) (t : Descriptor) (n : Option Nat)
    (q extra : Qualifiers) :
    occurrences p (t.spell (q.union extra) "") < occurrences p ((array t n q).spell extra "") := by
  have hbound : startsWithWord ("[" ++ ((n.map toString).getD "" ++ "]")) = false :=
    (startsWithWord_bracketed _).1
  have hcount := (Outweighs.empty hbound).occurrences_spell (p := p) t (q.union extra)
  have hbracket : occurrences p "[" = 1 := by simp [occurrences, hp]
  simp only [spell, String.append_assoc, String.empty_append]
  rw [hcount, occurrences_append, hbracket]
  omega

/-- The element of an array has fewer brackets, also when it gets the array's qualifiers. -/
theorem occurrences_qualified_lt_array (hp : p '[' = true) (t : Descriptor) (n : Option Nat)
    (q : Qualifiers) :
    occurrences p (t.qualified q).spelling < occurrences p (array t n q).spelling := by
  have hlt := occurrences_lt_array hp t n q .none
  rwa [Qualifiers.union_none, ← spelling_qualified] at hlt

/-- Dimensions that are taken off take their brackets along. -/
theorem occurrences_innermostElement_le (hp : p '[' = true) (t : Descriptor) (q : Qualifiers) :
    occurrences p (t.innermostElement q).spelling ≤ occurrences p (t.spell q "") := by
  induction t generalizing q with
  | array t n r ih =>
    exact Nat.le_trans (ih (r.union q)) (Nat.le_of_lt (occurrences_lt_array hp t n r q))
  | _ => exact Nat.le_of_eq (congrArg (occurrences p) (spelling_qualified _ q))

end Descriptor

end

end TypeTraits
