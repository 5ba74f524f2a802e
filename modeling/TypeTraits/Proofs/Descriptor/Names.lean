import TypeTraits.Proofs.Descriptor.Spelling
import TypeTraits.Proofs.Universe.Readable

/-!
# `TypeTraits.Proofs.Descriptor.Names`: the names in a type

The names of classes, unions and enumerations are the only texts that a type holds. Pointers,
references, arrays and qualifiers have none, so what is formed from types has their names
(`Descriptor.closed_forall_names`), and a transformation brings in none
(`Descriptor.hereditary_forall_names`).

Names are also the only part of a printed type that is not fixed. Where no name has a line break,
neither has the text (`Descriptor.isOneLine_spelling`).
-/

set_option autoImplicit false

namespace TypeTraits

namespace Descriptor

/-- The names of the classes, unions and enumerations in the type. -/
def names (t : Descriptor) : List String := t.levels.filterMap name?

variable {t u : Descriptor}

section
variable (t : Descriptor) (q : Qualifiers)

/-- A member pointer has the name of its class, and the names of what it points to. -/
@[simp] theorem names_memberPointer (c : ClassType) :
    (memberPointer c t q).names = c.name :: t.names := rfl

/-- A function has the names of its result and of its parameters. -/
@[simp] theorem names_function (ps : List Descriptor) (v : Bool) :
    (function t ps v).names = t.names ++ ps.flatMap names := by
  rw [names, levels, levelsEach_eq_flatMap, List.filterMap_cons_none rfl, List.filterMap_append,
    List.filterMap_flatMap]
  rfl

/-- Qualifiers have no names. -/
@[simp] theorem names_withQualifiers : (t.withQualifiers q).names = t.names := by
  cases t <;> rfl

/-- None are added with them. -/
@[simp] theorem names_qualified : (t.qualified q).names = t.names := names_withQualifiers t _

/-- None are lost with them. -/
@[simp] theorem names_unqualified : t.unqualified.names = t.names := names_withQualifiers t _

/-- What is referred to has the names of the reference. -/
@[simp] theorem names_removeReference : t.removeReference.names = t.names := by
  cases t <;> rfl

/-- What is pointed to has the names of the pointer. -/
@[simp] theorem names_removePointer : t.removePointer.names = t.names := by
  cases t <;> rfl

end

/-! ### Formation -/

/-- A pointer is formed without a new name. -/
theorem names_of_pointerTo (h : t.pointerTo = .ok u) : u.names = t.names := by
  obtain ⟨-, rfl⟩ := pointerTo_eq_ok_iff.mp h
  rfl

/-- So is an lvalue reference. -/
theorem names_of_lvalueRefTo (h : t.lvalueRefTo = .ok u) : u.names = t.names := by
  obtain ⟨-, rfl⟩ := lvalueRefTo_eq_ok_iff.mp h
  exact names_removeReference t

/-- So is an rvalue reference. -/
theorem names_of_rvalueRefTo (h : t.rvalueRefTo = .ok u) : u.names = t.names := by
  obtain ⟨-, rfl⟩ := rvalueRefTo_eq_ok_iff.mp h
  split <;> rfl

/-- So is an array, of whose bound no name is kept. -/
theorem names_of_arrayOf {n : Option Nat} (h : t.arrayOf n = .ok u) : u.names = t.names := by
  obtain ⟨-, -, rfl⟩ := arrayOf_eq_ok_iff.mp h
  exact names_unqualified t

/-- A parameter has the same names after its adjustment. -/
theorem names_of_adjustParameter (h : t.adjustParameter = .ok u) : u.names = t.names := by
  cases t with
  | void q => exact nomatch h
  | array s n q => exact (names_of_pointerTo h).trans (names_qualified s q)
  | function r ps v => exact names_of_pointerTo h
  | _ =>
    cases h
    exact names_unqualified _

section
variable (p : String → Prop)

/-- What is formed from types has no names but theirs. -/
theorem closed_forall_names : Closed fun t => ∀ name ∈ t.names, p name where
  qualified q h := by rwa [names_qualified]
  pointerTo h hu := by rwa [names_of_pointerTo hu]
  lvalueRefTo h hu := by rwa [names_of_lvalueRefTo hu]
  rvalueRefTo h hu := by rwa [names_of_rvalueRefTo hu]
  functionOf hr hps hu := by
    obtain ⟨-, -, qs, hqs, rfl⟩ := functionOf_eq_ok_iff.mp hu
    rw [names_function, List.forall_mem_append]
    -- Parameters are stored as adjusted, which changes no name.
    refine ⟨hr, fun name hname => ?_⟩
    obtain ⟨q, hq, hname⟩ := List.mem_flatMap.mp hname
    obtain ⟨p, hp, hpq⟩ := exists_mem_of_forall₂ hqs hq
    rw [names_of_adjustParameter hpq] at hname
    exact hps p hp name hname
  memberPointerTo hc h hu := by
    obtain ⟨c, q, rfl, -, -, rfl⟩ := memberPointerTo_eq_ok_iff.mp hu
    rw [names_memberPointer, List.forall_mem_cons]
    exact ⟨hc c.name List.mem_cons_self, h⟩

/-- So a transformation brings in no names. -/
theorem hereditary_forall_names : Hereditary fun t => ∀ name ∈ t.names, p name where
  scalar k q := nofun
  withQualifiers q h := by rwa [names_withQualifiers]
  removeReference h := by rwa [names_removeReference]
  removePointer h := by rwa [names_removePointer]
  element h := h
  pointerTo := (closed_forall_names p).pointerTo
  lvalueRefTo := (closed_forall_names p).lvalueRefTo
  rvalueRefTo := (closed_forall_names p).rvalueRefTo

end

end Descriptor

/-! ### Texts of one line -/

/-- The text has no line break. -/
def IsOneLine (s : String) : Prop := '\n' ∉ s.toList

instance (s : String) : Decidable (IsOneLine s) := inferInstanceAs (Decidable (_ ∉ _))

namespace IsOneLine

variable {s s' d : String}

/-- Two texts side by side are on one line if each of them is. -/
@[simp] theorem append_iff : IsOneLine (s ++ s') ↔ IsOneLine s ∧ IsOneLine s' := by
  simp [IsOneLine]

/-- So are many texts with one between them. -/
theorem intercalate {ss : List String} (hs : IsOneLine s) (h : ∀ s' ∈ ss, IsOneLine s') :
    IsOneLine (s.intercalate ss) := by
  induction ss with
  | nil => exact List.not_mem_nil
  | cons s₁ ss ih =>
    rw [List.forall_mem_cons] at h
    cases ss with
    | nil =>
      rw [String.intercalate_singleton]
      exact h.1
    | cons s₂ ss =>
      rw [String.intercalate_cons_cons, append_iff, append_iff]
      exact ⟨⟨h.1, hs⟩, ih h.2⟩

/-- A symbol is written without line breaks. -/
theorem of_isLexical {s : Symbol} (h : s.IsLexical) : IsOneLine s.text := by
  rcases h.isNameChar_or_mark with hname | ⟨m, rfl⟩
  · exact fun hmem => nomatch hname _ hmem
  · cases m <;> decide +kernel

/-- A number is written on one line. -/
theorem toString_nat (n : Nat) : IsOneLine (toString n) := by
  have h := of_isLexical (literal_toString_isLexical n)
  rwa [Symbol.text] at h

/-- So is the name of an arithmetic type. -/
theorem scalar_name (k : Scalar) : IsOneLine k.name := by
  cases k <;> decide +kernel

/-- So are qualifiers. -/
theorem qualifiers_text (q : Qualifiers) : IsOneLine q.text := by
  obtain ⟨c, v⟩ := q
  cases c <;> cases v <;> decide +kernel

/-- So is a specifier in front of a declarator on one line. -/
theorem specify (hs : IsOneLine s) (q : Qualifiers) (hd : IsOneLine d) :
    IsOneLine (specify s q d) := by
  have hblank : IsOneLine " " := by decide
  have hq := qualifiers_text q
  unfold TypeTraits.specify
  simp only
  split <;> split <;> simp [hs, hd, hq, hblank]

/-- So is an operator in front of one. -/
theorem operate (hs : IsOneLine s) (q : Qualifiers) (hd : IsOneLine d) :
    IsOneLine (operate s q d) := by
  have hblank : IsOneLine " " := by decide
  have hq := qualifiers_text q
  unfold TypeTraits.operate
  split
  · simp [hs, hd]
  · split <;> simp [hs, hd, hq, hblank]

/-- So is a declarator with parentheses around it, where it needs some. -/
theorem group (t : Descriptor) (hd : IsOneLine d) : IsOneLine (t.group d) := by
  have hparens : IsOneLine "(" ∧ IsOneLine ")" := by decide
  unfold Descriptor.group
  split
  · simp [hd, hparens]
  · exact hd

end IsOneLine

namespace Descriptor

/-- Each type of a list is printed on its own. -/
theorem spellEach_eq_map (ts : List Descriptor) : spellEach ts = ts.map (·.spell .none "") := by
  induction ts with
  | nil => rfl
  | cons t ts ih => rw [spellEach, ih, List.map_cons]

/-- A type is written around a declarator without line breaks, if the names in it and the
declarator have none. -/
theorem isOneLine_spell {t : Descriptor} (ht : ∀ name ∈ t.names, IsOneLine name)
    (extra : Qualifiers) {d : String} (hd : IsOneLine d) : IsOneLine (t.spell extra d) := by
  induction t generalizing extra d with
  | void q | nullPointer q => exact .specify (by decide) _ hd
  | scalar k q => exact .specify (.scalar_name k) _ hd
  | classType c q => exact .specify (ht c.name List.mem_cons_self) _ hd
  | enumType e q => exact .specify (ht e.name List.mem_cons_self) _ hd
  | pointer t q ih => exact ih ht _ (.group t (.operate (by decide) _ hd))
  | memberPointer c t q ih =>
    -- The class is written in the operator, so its name counts too.
    rw [names_memberPointer, List.forall_mem_cons] at ht
    have hop : IsOneLine (c.name ++ "::*") := IsOneLine.append_iff.mpr ⟨ht.1, by decide⟩
    exact ih ht.2 _ (.group t (.operate hop _ hd))
  | array t n q ih =>
    have hbound : IsOneLine ((n.map toString).getD "") := by
      cases n with
      | none => decide
      | some n => exact .toString_nat n
    have hbrackets : IsOneLine "[" ∧ IsOneLine "]" := by decide
    refine ih ht _ ?_
    simp [hd, hbound, hbrackets]
  | lvalueRef t ih => exact ih ht _ (.group t (IsOneLine.append_iff.mpr ⟨by decide, hd⟩))
  | rvalueRef t ih => exact ih ht _ (.group t (IsOneLine.append_iff.mpr ⟨by decide, hd⟩))
  | function r ps v ihr ihps =>
    rw [names_function, List.forall_mem_append, List.forall_mem_flatMap] at ht
    have hparams : ∀ s ∈ spellEach ps ++ (if v then ["..."] else []), IsOneLine s := by
      rw [spellEach_eq_map, List.forall_mem_append, List.forall_mem_map]
      refine ⟨fun p hp => ihps p hp (ht.2 p hp) _ (by decide), ?_⟩
      cases v <;> decide
    have hparens : IsOneLine "(" ∧ IsOneLine ")" := by decide
    refine ihr ht.1 _ ?_
    simp [hd, hparens, IsOneLine.intercalate (s := ", ") (by decide) hparams]

/-- A type is printed on one line, if no name in it has a line break. -/
theorem isOneLine_spelling {t : Descriptor} (ht : ∀ name ∈ t.names, IsOneLine name) :
    IsOneLine t.spelling :=
  isOneLine_spell ht .none (by decide)

end Descriptor

end TypeTraits
