import TypeTraits.Manifest
import TypeTraits.Proofs.Universe.Invariant

/-!
# `TypeTraits.Proofs.Universe.Reached`: how universes grow

`Universe.declare_eq_ok_iff` says all that an accepted declaration does: its name is a
new identifier, it denotes a type in the universe as it is (`Declaration.Denotes`), and
one entry is added at the end.

A universe is reached (`Universe.Reached`) when it comes from the empty one by calls
that declare names, refused calls included, or from a manifest. Either way it comes
from the empty one by accepted declarations, which is the induction principle
`Universe.Reached.induction`. Reached universes are canonical
(`Universe.Reached.isCanonical`).
-/

set_option autoImplicit false

namespace TypeTraits

/-! ### One declaration -/

/-- The name that is declared. -/
def Declaration.name : Declaration → String
  | .ofClass name | .ofUnion name | .ofEnum name _ _ | .alias name _ => name

/-- The type that a declaration's name will stand for, when it is made in a universe. -/
inductive Declaration.Denotes (u : Universe) : Declaration → Descriptor → Prop where
  | ofClass (name : String) : Denotes u (.ofClass name) (.classType ⟨name, false⟩ .none)
  | ofUnion (name : String) : Denotes u (.ofUnion name) (.classType ⟨name, true⟩ .none)
  | ofEnum (name : String) (isScoped : Bool) (k : Scalar) (h : k.isIntegral = true) :
    Denotes u (.ofEnum name isScoped k) (.enumType ⟨name, isScoped, k⟩ .none)
  | ofText (name text : String) {t : Descriptor} (h : u.parseType text = .ok t) :
    Denotes u (.alias name text) t

namespace Universe

variable {u u' : Universe}

/-- An entry is put at the end, if its name is an identifier that is not yet declared. -/
theorem insert_eq_ok_iff {name : String} {t : Descriptor} :
    u.insert name t = .ok u' ↔
      isIdentifier name = true ∧ u.contains name = false ∧ u' = ⟨u.entries ++ [(name, t)]⟩ := by
  unfold insert
  cases isIdentifier name <;> cases u.contains name <;> simp [eq_comm]

/-- An accepted declaration has a new identifier for its name, denotes a type, and adds one
entry at the end. -/
theorem declare_eq_ok_iff {d : Declaration} :
    u.declare d = .ok u' ↔ ∃ t, d.Denotes u t ∧ isIdentifier d.name = true ∧
      u.contains d.name = false ∧ u' = ⟨u.entries ++ [(d.name, t)]⟩ := by
  constructor
  · intro h
    -- Enumerations and aliases can fail before their name is looked at.
    match d with
    | .ofClass name => exact ⟨_, .ofClass name, insert_eq_ok_iff.mp h⟩
    | .ofUnion name => exact ⟨_, .ofUnion name, insert_eq_ok_iff.mp h⟩
    | .ofEnum name isScoped k =>
      rw [declare] at h
      cases hk : k.isIntegral with
      | false =>
        rw [hk] at h
        exact nomatch h
      | true =>
        rw [hk] at h
        exact ⟨_, .ofEnum name isScoped k hk, insert_eq_ok_iff.mp h⟩
    | .alias name text =>
      rw [declare] at h
      split at h
      · exact nomatch h
      · next t ht => exact ⟨t, .ofText name text ht, insert_eq_ok_iff.mp h⟩
  · rintro ⟨t, ht, h⟩
    have hi := insert_eq_ok_iff.mpr h
    cases ht with
    | ofClass name | ofUnion name => exact hi
    | ofEnum name isScoped k hk => rwa [declare, hk]
    | ofText name text htext => rwa [declare, htext]

/-! ### Many declarations -/

/-- The universes that calls from the empty universe on, or a manifest, lead to. -/
inductive Reached : Universe → Prop where
  /-- After calls in a row. A refused call leaves the universe as it was. -/
  | calls (ds : List Declaration) : Reached (ds.foldl attempt empty)
  /-- From the lists of a manifest, whatever text they are read from. -/
  | manifest {u : Universe} (m : Manifest) (h : m.universe? = .ok u) : Reached u

section
variable {motive : Universe → Prop}
  (step : ∀ {u u' : Universe} {d : Declaration}, motive u → u.declare d = .ok u' → motive u')
include step

/-- What accepted declarations keep, calls keep. -/
theorem foldl_attempt_induction (ds : List Declaration) (hu : motive u) :
    motive (ds.foldl attempt u) := by
  induction ds generalizing u with
  | nil => exact hu
  | cons d ds ih =>
    refine ih ?_
    -- A refused declaration leaves the universe as it was.
    unfold attempt
    split
    · next u' h => exact step hu h
    · exact hu

/-- What accepted declarations keep, a run of them keeps that has no refused one. -/
theorem declareAll_induction {ds : List Declaration} (hu : motive u)
    (h : u.declareAll ds = .ok u') : motive u' := by
  induction ds generalizing u with
  | nil =>
    cases h
    exact hu
  | cons d ds ih =>
    rw [declareAll, List.foldlM_cons] at h
    obtain ⟨u₁, hd, h⟩ := except_bind_eq_ok.mp h
    exact ih (step hu hd) h

/-- The same of the enumerations of a manifest, whose scalars are read before they are
declared. -/
theorem declareEnums_induction {es : List EnumEntry} (hu : motive u)
    (h : es.foldlM declareEnum u = .ok u') : motive u' := by
  induction es generalizing u with
  | nil =>
    cases h
    exact hu
  | cons e es ih =>
    rw [List.foldlM_cons] at h
    obtain ⟨u₁, he, h⟩ := except_bind_eq_ok.mp h
    obtain ⟨d, -, hd⟩ := except_bind_eq_ok.mp he
    exact ih (step hu hd) h

/-- What holds of the empty universe and is kept by accepted declarations holds of every
universe that is reached. -/
theorem Reached.induction (hu : u.Reached) (empty : motive empty) : motive u := by
  cases hu with
  | calls ds => exact foldl_attempt_induction step ds empty
  | manifest m h =>
    -- Classes, unions, enumerations, aliases: four runs of declarations.
    obtain ⟨u₁, h₁, h⟩ := except_bind_eq_ok.mp h
    obtain ⟨u₂, h₂, h⟩ := except_bind_eq_ok.mp h
    obtain ⟨u₃, h₃, h₄⟩ := except_bind_eq_ok.mp h
    have hu₁ := declareAll_induction step empty h₁
    have hu₂ := declareAll_induction step hu₁ h₂
    have hu₃ := declareEnums_induction step hu₂ h₃
    exact declareAll_induction step hu₃ h₄

end

/-- A declaration in a canonical universe denotes a canonical type. -/
theorem IsCanonical.of_denotes {d : Declaration} {t : Descriptor} (hu : u.IsCanonical)
    (h : d.Denotes u t) : t.IsCanonical := by
  cases h with
  | ofClass name | ofUnion name => exact Descriptor.isCanonical_classType _ _
  | ofEnum name isScoped k hk => exact Descriptor.isCanonical_enumType _ _
  | ofText name text h => exact hu.parseType h

/-- So a declaration keeps a universe canonical. -/
theorem IsCanonical.declare {d : Declaration} (hu : u.IsCanonical) (h : u.declare d = .ok u') :
    u'.IsCanonical := by
  obtain ⟨t, ht, -, -, rfl⟩ := declare_eq_ok_iff.mp h
  intro e he
  rcases List.mem_append.mp he with he | he
  · exact hu e he
  · cases List.mem_singleton.mp he
    exact hu.of_denotes ht

/-- Every universe that is reached is canonical. -/
theorem Reached.isCanonical (hu : u.Reached) : u.IsCanonical :=
  hu.induction (fun hu hd => hu.declare hd) isCanonical_empty

end Universe

end TypeTraits
