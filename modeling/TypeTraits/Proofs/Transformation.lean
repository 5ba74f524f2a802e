import TypeTraits.Proofs.Descriptor.Occurrences
import TypeTraits.Proofs.Descriptor.Pointers
import TypeTraits.Proofs.Descriptor.Spelling
import TypeTraits.Proofs.TypeId.Words
import TypeTraits.Proofs.Universe.Readable

/-!
# `TypeTraits.Proofs.Transformation`: changes that show

Two different types can be printed alike: a class and an enumeration may have the same name. But no
transformation of a canonical type leads from one of them to the other. What a transformation
changes can be seen in the text (`Descriptor.Shows`), and mostly just by counting.

A reference, a pointer, a dimension or qualifiers that come or go change how often some character
occurs. What is left are the transformations that replace an arithmetic type or an enumeration by an
arithmetic type. The names of these are different, and they are no names that can be declared.

* `IsCanonical.spelling_apply_eq_iff`: the text of a canonical type stays the same exactly if
  the type does.
-/

set_option autoImplicit false

namespace TypeTraits

/-- Qualifiers are told apart by how much is written for them. -/
theorem Qualifiers.eq_of_length_front {q r : Qualifiers}
    (h : occurrences (fun _ => true) q.front = occurrences (fun _ => true) r.front) : q = r := by
  obtain ⟨c, v⟩ := q
  obtain ⟨c', v'⟩ := r
  revert h
  cases c <;> cases v <;> cases c' <;> cases v' <;> decide

namespace Descriptor

/-- If the text of the type stays as it is, so does the type. -/
def Shows (t u : Descriptor) : Prop := u.spelling = t.spelling → u = t

variable {t u : Descriptor}

namespace Shows

/-- What does not change the type has nothing to show. -/
theorem refl (t : Descriptor) : t.Shows t := fun _ => rfl

/-- Where one kind of character is written more or less often, the texts are not the same. -/
theorem of_ne (p : Char → Bool)
    (h : occurrences p u.spelling ≠ occurrences p t.spelling) : t.Shows u :=
  fun heq => absurd (congrArg (occurrences p) heq) h

/-- So they are where it is written less often. -/
theorem of_lt (p : Char → Bool)
    (h : occurrences p u.spelling < occurrences p t.spelling) : t.Shows u := of_ne p h.ne

/-- And where it is written more often. -/
theorem of_gt (p : Char → Bool)
    (h : occurrences p t.spelling < occurrences p u.spelling) : t.Shows u := of_ne p h.ne'

end Shows

/-! ### Qualifiers -/

/-- A change of qualifiers shows in how much is written for them, since everything else stays. -/
theorem IsCanonical.shows_withQualifiers (h : t.IsCanonical) (q : Qualifiers) :
    t.Shows (t.withQualifiers q) := by
  by_cases hself : t.isFunction = true ∨ t.isReference = true
  · rw [withQualifiers_eq_self hself]
    exact .refl t
  · simp only [not_or, Bool.not_eq_true] at hself
    obtain ⟨hf, hr⟩ := hself
    have hcount := h.occurrences_withQualifiers (p := fun _ => true) hf hr
    intro heq
    -- The text of `t` is that of `t` with its own qualifiers.
    have hfront : q = t.qualifiers := by
      refine Qualifiers.eq_of_length_front ?_
      have hq := hcount q
      have ht := hcount t.qualifiers
      rw [withQualifiers_qualifiers] at ht
      rw [heq] at hq
      omega
    rw [hfront, withQualifiers_qualifiers]

/-! ### References -/

/-- A text without the ampersands of a reference is shorter. -/
theorem shows_removeReference (t : Descriptor) : t.Shows t.removeReference := by
  cases t with
  | lvalueRef s => exact .of_lt (fun _ => true) (occurrences_lt_lvalueRef rfl s)
  | rvalueRef s => exact .of_lt (fun _ => true) (occurrences_lt_rvalueRef rfl s)
  | _ => exact .refl _

/-- With the ampersand of an lvalue reference it is longer, or there is one ampersand in place of
two. -/
theorem shows_addLvalueReference (t : Descriptor) : t.Shows t.addLvalueReference := by
  cases hv : t.isVoid with
  | true =>
    rw [(addReference_of_isVoid hv).1]
    exact .refl t
  | false =>
    rw [addLvalueReference_eq hv]
    cases t with
    | lvalueRef s => exact .refl _
    | rvalueRef s =>
      -- Of the two operators, `&&` has one `&` more.
      have hop : Outweighs (· == '&') 1 "&&" "&" := ⟨by decide, by decide⟩
      exact .of_lt (· == '&') (hop.occurrences_lt s)
    | _ => exact .of_gt (fun _ => true) (occurrences_lt_lvalueRef rfl _)

/-- With those of an rvalue reference it is longer. To a reference and to `void` none is added. -/
theorem shows_addRvalueReference (t : Descriptor) : t.Shows t.addRvalueReference := by
  cases hv : t.isVoid with
  | true =>
    rw [(addReference_of_isVoid hv).2]
    exact .refl t
  | false =>
    rw [addRvalueReference_eq hv]
    split
    · exact .refl t
    · exact .of_gt (fun _ => true) (occurrences_lt_rvalueRef rfl t)

/-! ### Pointers -/

/-- A text without the asterisk of a pointer is shorter. -/
theorem shows_removePointer (t : Descriptor) : t.Shows t.removePointer := by
  cases t with
  | pointer s q => exact .of_lt (fun _ => true) (occurrences_lt_pointer rfl s q)
  | _ => exact .refl _

/-- With one more it is longer, or it has an asterisk more in place of ampersands. -/
theorem IsCanonical.shows_addPointer (h : t.IsCanonical) : t.Shows t.addPointer := by
  rw [h.addPointer_eq]
  cases t with
  | lvalueRef s =>
    have hop : Outweighs (· == '*') 1 (operate "*" .none "") "&" := ⟨by decide, by decide⟩
    exact .of_gt (· == '*') (hop.occurrences_lt s)
  | rvalueRef s =>
    have hop : Outweighs (· == '*') 1 (operate "*" .none "") "&&" := ⟨by decide, by decide⟩
    exact .of_gt (· == '*') (hop.occurrences_lt s)
  | _ => exact .of_gt (fun _ => true) (occurrences_lt_pointer rfl _ .none)

/-! ### Dimensions -/

/-- A text without the brackets of a dimension is shorter, whatever qualifiers go with them. -/
theorem shows_removeExtent (t : Descriptor) : t.Shows t.removeExtent := by
  cases t with
  | array s n q => exact .of_lt (fun _ => true) (occurrences_qualified_lt_array rfl s n q)
  | _ => exact .refl _

/-- So is a text without those of all dimensions. -/
theorem shows_removeAllExtents (t : Descriptor) : t.Shows t.removeAllExtents := by
  cases ha : t.isArray with
  | false =>
    rw [removeAllExtents_eq_self ha]
    exact .refl t
  | true =>
    obtain ⟨s, n, q, rfl⟩ := isArray_iff.mp ha
    refine .of_lt (fun _ => true) (Nat.lt_of_le_of_lt ?_ (occurrences_lt_array rfl s n q .none))
    exact occurrences_innermostElement_le rfl s (q.union .none)

/-! ### Passing by value -/

/-- A text without ampersands is shorter, without the qualifiers behind them or with them. Where
there is no reference, only qualifiers go. -/
theorem IsCanonical.shows_removeCvref (h : t.IsCanonical) : t.Shows t.removeCvref := by
  rw [removeCvref, removeCv_eq_unqualified]
  cases hr : t.isReference with
  | false =>
    rw [removeReference_eq_self hr]
    exact h.shows_withQualifiers .none
  | true =>
    refine .of_lt (fun _ => true) ?_
    refine Nat.lt_of_le_of_lt h.removeReference.occurrences_unqualified_le ?_
    cases t with
    | lvalueRef s => exact occurrences_lt_lvalueRef rfl s
    | rvalueRef s => exact occurrences_lt_rvalueRef rfl s
    | _ => exact nomatch hr

/-- An array has a bracket less, and a function has an asterisk more. For other types it is as for
`removeCvref`. -/
theorem IsCanonical.shows_decay (h : t.IsCanonical) : t.Shows t.decay := by
  cases ha : t.removeReference.isArray with
  | true =>
    rw [h.decay_of_isArray ha]
    obtain ⟨s, n, q, hs⟩ := isArray_iff.mp ha
    rw [hs]
    -- The bracket of the dimension is gone, and a pointer has none.
    refine .of_lt (· == '[') ?_
    have hpointer := occurrences_pointer_none (p := (· == '[')) rfl rfl rfl (s.qualified q)
    have helement := occurrences_qualified_lt_array (p := (· == '[')) rfl s n q
    have href := occurrences_removeReference_le (· == '[') t
    rw [hs] at href
    show occurrences _ (pointer (s.qualified q) .none).spelling < _
    omega
  | false =>
    cases hf : t.removeReference.isFunction with
    | true =>
      have hdecay : t.decay = t.addPointer := by
        rw [h.addPointer_eq, ← addPointer_of_not_isReference h.isReference_removeReference]
        simp [Descriptor.decay, ha, hf]
      rw [hdecay]
      exact h.shows_addPointer
    | false =>
      have hdecay : t.decay = t.removeCvref := by simp [Descriptor.decay, removeCvref, ha, hf]
      rw [hdecay]
      exact h.shows_removeCvref

/-! ### Arithmetic types -/

/-- An arithmetic type is printed as its qualifiers and its name. -/
theorem spelling_scalar (k : Scalar) (q : Qualifiers) :
    (scalar k q).spelling = q.front ++ k.name := by
  rw [spelling, spell, Qualifiers.union_none, specify, Qualifiers.front]
  cases q.isEmpty <;> simp [Text.startsWithWord]

/-- No two arithmetic types have the same name. -/
theorem shows_scalar (k k' : Scalar) (q : Qualifiers) : (scalar k q).Shows (scalar k' q) := by
  intro heq
  rw [spelling_scalar, spelling_scalar, String.append_right_inj] at heq
  rw [Scalar.name_injective heq]

/-- The text of an arithmetic type consists of words, behind its qualifiers. -/
theorem exists_lexes_scalar (k : Scalar) (q : Qualifiers) :
    ∃ ws : List ScalarWord, Lexes (scalar k q).spelling.toList (q.symbols ++ ws.map .scalar) := by
  obtain ⟨ws, hws, hname⟩ := k.exists_name_eq_spaced
  have hspelled : k.isSpelledBy ws := Scalar.isSpelledBy_iff.mpr ⟨ws, hws, List.Perm.refl ws⟩
  have hlex : Lexes (specify k.name q "").toList (q.symbols ++ ws.map .scalar ++ []) := by
    refine lexes_specify hname (fun w hw => ?_) (fun h => ?_) .nil
    · obtain ⟨v, -, rfl⟩ := List.mem_map.mp hw
      exact v.isWord
    · exact Scalar.ne_nil_of_isSpelledBy hspelled (List.map_eq_nil_iff.mp h)
  refine ⟨ws, ?_⟩
  rwa [spelling, spell, Qualifiers.union_none, ← List.append_nil (_ ++ _)]

/-- That of an enumeration with a plain name is one identifier there. -/
theorem lexes_enumType {e : EnumType} (hplain : IsPlainName e.name) (q : Qualifiers) :
    Lexes (enumType e q).spelling.toList (q.symbols ++ [.identifier e.name]) := by
  have hlex : Lexes (specify e.name q "").toList (q.symbols ++ [.identifier e.name] ++ []) := by
    refine lexes_specify rfl (fun w hw => ?_) (List.cons_ne_nil _ _) .nil
    rw [List.mem_singleton.mp hw]
    exact ⟨hplain.isLexical, fun _ => rfl⟩
  rwa [spelling, spell, Qualifiers.union_none, ← List.append_nil (_ ++ _)]

/-- No arithmetic type is printed with an identifier. -/
theorem shows_scalar_of_enumType {e : EnumType} (hplain : IsPlainName e.name) (q r : Qualifiers)
    (k : Scalar) : (enumType e q).Shows (scalar k r) := by
  intro heq
  obtain ⟨ws, hscalar⟩ := exists_lexes_scalar k r
  have henum := lexes_enumType hplain q
  rw [heq] at hscalar
  have hmem : Symbol.identifier e.name ∈ r.symbols ++ ws.map .scalar := by
    rw [← henum.unique hscalar]
    exact List.mem_append_right _ (List.mem_singleton_self _)
  rcases List.mem_append.mp hmem with hmem | hmem
  · exact absurd hmem (r.identifier_notMem_symbols e.name)
  · obtain ⟨w, -, hw⟩ := List.mem_map.mp hmem
    exact nomatch hw

/-- A transformation that may fail shows where it succeeds, since otherwise nothing changes. -/
theorem shows_orIdentity {a : Attempt Descriptor} (h : ∀ u, a = .ok u → t.Shows u) :
    t.Shows (Attempt.orIdentity a t) := by
  cases a with
  | ok u => exact h u rfl
  | error e => exact .refl t

section
variable (hname : ∀ name, t.name? = some name → IsPlainName name)
include hname

/-- A change of signs is one of an arithmetic type or of an enumeration. -/
theorem shows_of_signs (h : t.signedOf = .ok u ∨ t.unsignedOf = .ok u) : t.Shows u := by
  obtain ⟨k', rfl⟩ := exists_eq_scalar_of_signs h
  cases t with
  | scalar k q => exact shows_scalar k k' q
  | enumType e q => exact shows_scalar_of_enumType (hname e.name rfl) q q k'
  | _ => exact h.elim nofun nofun

/-- A signed type in place of an unsigned one shows. -/
theorem shows_makeSigned : t.Shows t.makeSigned :=
  shows_orIdentity fun _ hu => shows_of_signs hname (.inl hu)

/-- So does an unsigned type in place of a signed one. -/
theorem shows_makeUnsigned : t.Shows t.makeUnsigned :=
  shows_orIdentity fun _ hu => shows_of_signs hname (.inr hu)

/-- And so does the arithmetic type that an enumeration is stored as. -/
theorem shows_underlyingType : t.Shows t.underlyingType := by
  refine shows_orIdentity fun u hu => ?_
  cases t with
  | enumType e q =>
    cases hu
    exact shows_scalar_of_enumType (hname e.name rfl) q .none e.underlying
  | _ => exact nomatch hu

end

/-! ### All transformations -/

/-- The text of a canonical type stays as it is exactly if the type does, even where an enumeration
has the name of a class. -/
theorem IsCanonical.spelling_apply_eq_iff {f : Transformation} (hf : f ∈ Transformation.all)
    (h : t.IsCanonical) (hname : ∀ name, t.name? = some name → IsPlainName name) :
    (f.apply t).spelling = t.spelling ↔ f.apply t = t := by
  refine ⟨fun heq => ?_, congrArg spelling⟩
  revert heq
  show t.Shows (f.apply t)
  simp only [Transformation.all, List.mem_cons, List.not_mem_nil, or_false] at hf
  -- One goal a listed transformation, in the order of the list.
  rcases hf with rfl | rfl | rfl | rfl | rfl | rfl | rfl | rfl | rfl | rfl | rfl | rfl | rfl |
    rfl | rfl | rfl | rfl | rfl | rfl
  · exact h.shows_withQualifiers _
  · exact h.shows_withQualifiers _
  · exact h.shows_withQualifiers _
  · exact h.shows_withQualifiers _
  · exact h.shows_withQualifiers _
  · exact h.shows_withQualifiers _
  · exact shows_removeReference t
  · exact shows_addLvalueReference t
  · exact shows_addRvalueReference t
  · exact shows_removeExtent t
  · exact shows_removeAllExtents t
  · exact shows_removePointer t
  · exact h.shows_addPointer
  · exact h.shows_removeCvref
  · exact h.shows_decay
  · exact .refl t
  · exact shows_makeSigned hname
  · exact shows_makeUnsigned hname
  · exact shows_underlyingType hname

end Descriptor

end TypeTraits
