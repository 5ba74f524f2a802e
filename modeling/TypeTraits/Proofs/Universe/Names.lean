import TypeTraits.Proofs.TypeId.Exact
import TypeTraits.Proofs.Token.Lexing
import TypeTraits.Proofs.Universe.Reached
import TypeTraits.Proofs.Universe.Spans

/-!
# `TypeTraits.Proofs.Universe.Names`: what a declared name is good for

A name is accepted when it is a single identifier to the scanner, and the scanner
passes over blanks. So the name of an entry need not be the identifier that is in
it: `" w "` is accepted, is stored with its blanks, and is a name that no text
asks for, since a text asks for `w`.

`Universe.Reached.parseType_name` says when an entry can be used by its own name:
exactly when the identifier in the name is declared with the same type. Names
without blanks are of this kind, and two of them are different identifiers.

* `Universe.Reached.isWellNamed`: names are identifiers, and no name occurs twice.
* `Universe.parseType_eq_ok_iff_of_namesIdentifier`: the type of a text that is one identifier.
-/

set_option autoImplicit false

namespace TypeTraits

open Grammar

/-- The check of names asks for the tokens, and for nothing about their places. -/
theorem isIdentifier_iff {text : String} :
    isIdentifier text = true ↔ ∃ name, NamesIdentifier text name := by
  unfold isIdentifier NamesIdentifier TokenStream.ofText
  cases TokenStream.ofText? text with
  | error span => simp
  | ok s =>
    obtain ⟨tokens, stop⟩ := s
    constructor
    · intro h
      -- The name is the only token, wherever it stands.
      split at h
      · next name span stop' heq =>
        cases heq
        exact ⟨name, span, stop, rfl⟩
      · exact nomatch h
    · rintro ⟨name, span, stop', h⟩
      cases h
      rfl

namespace Universe

/-- Every name is an identifier to the scanner, and no two entries have the same name. -/
structure IsWellNamed (u : Universe) : Prop where
  identifier : ∀ e ∈ u.entries, isIdentifier e.1 = true
  distinct : u.entries.Pairwise fun e e' => e.1 ≠ e'.1

variable {u : Universe}

/-- A name that is not declared is none of the entries' names. -/
theorem ne_of_contains_eq_false {name : String} (h : u.contains name = false) :
    ∀ e ∈ u.entries, e.1 ≠ name := by
  intro e he heq
  rw [contains, Option.isSome_eq_false_iff, Option.isNone_iff_eq_none, lookup?] at h
  have hne := List.lookup_eq_none_iff.mp h e he
  simp [heq] at hne

/-- An accepted declaration keeps names identifiers and apart. -/
theorem IsWellNamed.declare {u' : Universe} {d : Declaration} (hu : u.IsWellNamed)
    (h : u.declare d = .ok u') : u'.IsWellNamed := by
  obtain ⟨t, -, hname, hnew, rfl⟩ := declare_eq_ok_iff.mp h
  constructor
  · intro e he
    rcases List.mem_append.mp he with he | he
    · exact hu.identifier e he
    · cases List.mem_singleton.mp he
      exact hname
  · -- The new entry is behind the others, and its name was looked up before.
    refine List.pairwise_append.mpr ⟨hu.distinct, List.pairwise_singleton _ _, ?_⟩
    intro e he e' he'
    cases List.mem_singleton.mp he'
    exact ne_of_contains_eq_false hnew e he

/-- Names are identifiers and apart after any sequence of calls. -/
theorem Reached.isWellNamed (hu : u.Reached) : u.IsWellNamed :=
  hu.induction (fun hu hd => hu.declare hd)
    ⟨fun _ he => (nomatch he), List.Pairwise.nil⟩

/-- With names apart, looking a name up finds its entry. -/
theorem IsWellNamed.lookup?_eq_some_iff (hu : u.IsWellNamed) {name : String} {t : Descriptor} :
    u.lookup? name = some t ↔ (name, t) ∈ u.entries := by
  refine ⟨u.mem_entries_of_lookup?, fun he => ?_⟩
  obtain ⟨before, behind, hsplit⟩ := List.append_of_mem he
  -- The entry is the first of its name, since the one name stands nowhere else.
  refine List.lookup_eq_some_iff.mpr ⟨before, behind, hsplit, fun e he' => ?_⟩
  have hdistinct := hu.distinct
  rw [hsplit] at hdistinct
  have hne := (List.pairwise_append.mp hdistinct).2.2 e he' (name, t) List.mem_cons_self
  exact bne_iff_ne.mpr hne.symm

/-- A text that is one identifier stands for what the identifier is declared as. -/
theorem parseType_eq_ok_iff_of_namesIdentifier {text name : String} {t : Descriptor}
    (h : NamesIdentifier text name) : u.parseType text = .ok t ↔ u.lookup? name = some t := by
  obtain ⟨span, stop, htokens⟩ := h
  have hspec : IsSpecifier [.identifier name] ⟨.named name, .none, default⟩ :=
    .other .nil .named .nil
  have htype : IsType [.identifier name] (.mk _ (.flat [] []) default) :=
    .mk hspec (.flat .nil .nil)
  obtain ⟨e, he, hbare⟩ := TypeId.exists_ofText_of_isType htokens htype
  rw [parseType, he, except_bind_ok, ← u.elaborate_bare_eq_ok_iff, hbare]
  -- A name without qualifiers and declarator is resolved, and that is all.
  rw [elaborate, elaborateSpecifier, elaborateBase, resolve]
  cases u.lookup? name with
  | none => simp [Except.map]
  | some s => simp [Except.map, applyDeclarator, applySuffixes]

/-- An entry can be used by its name exactly if the identifier in the name is declared with the
same type, as it is when the name is that identifier. Two names that are identifiers as they
stand are not the same identifier. -/
theorem Reached.parseType_name (hu : u.Reached) :
    (∀ e ∈ u.entries, ∃ n, NamesIdentifier e.1 n ∧
      (u.parseType e.1 = .ok e.2 ↔ (n, e.2) ∈ u.entries) ∧
      (n = e.1 → u.parseType e.1 = .ok e.2)) ∧
    ∀ e ∈ u.entries, ∀ e' ∈ u.entries, ∀ n, NamesIdentifier e.1 n → NamesIdentifier e'.1 n →
      IsPlainName e.1 → IsPlainName e'.1 → e = e' := by
  have hnames := hu.isWellNamed
  constructor
  · intro e he
    obtain ⟨n, hn⟩ := isIdentifier_iff.mp (hnames.identifier e he)
    have hiff : u.parseType e.1 = .ok e.2 ↔ (n, e.2) ∈ u.entries :=
      (parseType_eq_ok_iff_of_namesIdentifier hn).trans hnames.lookup?_eq_some_iff
    refine ⟨n, hn, hiff, fun h => hiff.mpr ?_⟩
    rw [h]
    exact he
  · intro e he e' he' n hn hn' hplain hplain'
    -- A plain name is its own identifier.
    have hname : e.1 = e'.1 := (hplain.unique hn).trans (hplain'.unique hn').symm
    have hlookup := hnames.lookup?_eq_some_iff.mpr he
    rw [hname, hnames.lookup?_eq_some_iff.mpr he'] at hlookup
    exact Prod.ext hname (Option.some.inj hlookup).symm

/-- After the calls for `" w "` and `v` there are two entries. The second one can be used by its
name. The identifier in the name of the first one is not declared, so that one cannot. -/
theorem Reached.parseType_name_of_calls :
    let u := [.ofClass " w ", .ofClass "v"].foldl attempt empty
    u.entries = [(" w ", .ofClass " w "), ("v", .ofClass "v")] ∧
      u.parseType "v" = .ok (.ofClass "v") ∧ u.parseType " w " ≠ .ok (.ofClass " w ") := by
  intro u
  have hentries : u.entries = [(" w ", .ofClass " w "), ("v", .ofClass "v")] := by
    decide +kernel
  have hu : u.Reached := .calls [.ofClass " w ", .ofClass "v"]
  obtain ⟨h, -⟩ := Reached.parseType_name hu
  rw [hentries] at h
  refine ⟨hentries, ?_, ?_⟩
  · obtain ⟨n, hn, -, hplain⟩ := h ("v", .ofClass "v") (by decide)
    have hv : NamesIdentifier "v" "v" := ⟨⟨0, 1⟩, 1, by decide +kernel⟩
    exact hplain (hn.unique hv)
  · obtain ⟨n, hn, hiff, -⟩ := h (" w ", .ofClass " w ") (by decide)
    have hw : NamesIdentifier " w " "w" := ⟨⟨1, 2⟩, 3, by decide +kernel⟩
    obtain rfl := hn.unique hw
    intro hparse
    exact absurd (hiff.mp hparse) (by decide)

/-- Two entries may have the same identifier in their names, and the text of one of the names
then stands for the other entry. -/
theorem Reached.exists_parseType_name_ne :
    ∃ u : Universe, u.Reached ∧ ∃ e ∈ u.entries, ∃ e' ∈ u.entries,
      (∃ n, NamesIdentifier e.1 n ∧ NamesIdentifier e'.1 n) ∧
      u.parseType e'.1 = .ok e.2 ∧ u.parseType e'.1 ≠ .ok e'.2 := by
  -- The blank is part of the second name, but not of its identifier.
  let u := [.ofClass "w", .ofClass " w"].foldl attempt empty
  have hparse : u.parseType " w" = .ok (.ofClass "w") := by decide +kernel
  refine ⟨u, .calls _, ("w", .ofClass "w"), by decide +kernel, (" w", .ofClass " w"),
    by decide +kernel, ⟨"w", ⟨⟨0, 1⟩, 1, ?_⟩, ⟨1, 2⟩, 2, ?_⟩, hparse, ?_⟩
  · decide +kernel
  · decide +kernel
  · rw [hparse]
    decide

end Universe

end TypeTraits
