import TypeTraits.Proofs.Universe.Names

/-!
# `TypeTraits.Proofs.Manifest`: which manifests make a universe

A manifest is four lists of records, and `Manifest.universe?` goes through them one after another.
Put end to end they are one list (`Manifest.listing`), through which it goes once
(`universe?_eq_foldlM`). A record is looked at when those in front of it are declared. It has to
stand for a type there (`ManifestRecord.Denotes`), and its name has to be an identifier that is new.

What a list of records makes of a universe, whatever the names are, is the relation
`Universe.GrowsBy`. With it, the texts and the names can be looked at apart: a universe is made
exactly if the records stack up in this sense, and all names are identifiers and no two are the
same (`Universe.foldlM_declareRecord_eq_ok_iff`).

* `Manifest.declarations_stack_up`: the manifests that make a universe, which universe it is, and
  what is reported of any other manifest.
-/

set_option autoImplicit false

namespace TypeTraits

/-! ### One record -/

/-- A text gives the integral type of an enumeration if it stands for one, unqualified, where
nothing is declared. -/
theorem integralOfText?_eq_some_iff {text : String} {k : Scalar} :
    integralOfText? text = some k ↔
      Universe.empty.parseType text = .ok (.scalar k .none) ∧ k.isIntegral = true := by
  unfold integralOfText?
  split
  -- The text must be read as an arithmetic type, and that must be integral and unqualified.
  · next k' q htext =>
    rw [htext]
    have hq : q.isEmpty = true ↔ q = .none := by
      obtain ⟨c, v⟩ := q
      cases c <;> cases v <;> decide
    simp only [Option.ite_none_right_eq_some, Bool.and_eq_true, Option.some.injEq, hq,
      Except.ok.injEq, Descriptor.scalar.injEq]
    constructor
    · rintro ⟨⟨hk, rfl⟩, rfl⟩
      exact ⟨⟨rfl, rfl⟩, hk⟩
    · rintro ⟨⟨rfl, rfl⟩, hk⟩
      exact ⟨⟨hk, rfl⟩, rfl⟩
  · next hother =>
    simp only [reduceCtorEq, false_iff, not_and]
    exact fun htext => absurd htext (hother k .none)

namespace EnumEntry

variable {e : EnumEntry} {k : Scalar}

/-- The enumeration is stored as the scalar: as `int` if no text says otherwise, and else as the
unqualified integral type that the text stands for where nothing is declared. -/
inductive IsStoredAs (e : EnumEntry) : Scalar → Prop where
  | unsaid (h : e.underlying = none) : IsStoredAs e .int
  | said {text : String} {k : Scalar} (h : e.underlying = some text)
    (htext : Universe.empty.parseType text = .ok (.scalar k .none)) (hk : k.isIntegral = true) :
    IsStoredAs e k

/-- An enumeration is stored as an integral type. -/
theorem IsStoredAs.isIntegral (h : e.IsStoredAs k) : k.isIntegral = true := by
  cases h with
  | unsaid _ => rfl
  | said _ _ hk => exact hk

/-- It is stored as one type only. -/
theorem IsStoredAs.unique {k' : Scalar} (h : e.IsStoredAs k) (h' : e.IsStoredAs k') : k = k' := by
  cases h with
  | unsaid h =>
    cases h' with
    | unsaid _ => rfl
    | said h' _ _ => exact nomatch h.symm.trans h'
  | said h htext _ =>
    cases h' with
    | unsaid h' => exact nomatch h.symm.trans h'
    | said h' htext' _ =>
      cases h.symm.trans h'
      cases htext.symm.trans htext'
      rfl

/-- Only a text that is given can be wrong. -/
theorem exists_isStoredAs_iff : (∃ k, e.IsStoredAs k) ↔ ∀ text, e.underlying = some text →
    ∃ k, Universe.empty.parseType text = .ok (.scalar k .none) ∧ k.isIntegral = true := by
  constructor
  · rintro ⟨k, hk⟩ text htext
    cases hk with
    | unsaid h => exact nomatch h.symm.trans htext
    | said h ht hk =>
      cases h.symm.trans htext
      exact ⟨k, ht, hk⟩
  · intro h
    cases hu : e.underlying with
    | none => exact ⟨.int, .unsaid hu⟩
    | some text =>
      obtain ⟨k, htext, hk⟩ := h text hu
      exact ⟨k, .said hu htext hk⟩

/-- A record whose text is good declares an enumeration that is stored so. -/
theorem declaration_of_isStoredAs (h : e.IsStoredAs k) :
    e.declaration = .ok (.ofEnum e.name e.isScoped k) := by
  cases h with
  | unsaid h => rw [declaration, h]
  | said h htext hk =>
    have hsome := integralOfText?_eq_some_iff.mpr ⟨htext, hk⟩
    rw [declaration, h]
    simp only [hsome]

/-- Without such a scalar, the text is to blame. -/
theorem declaration_of_forall_not_isStoredAs (h : ∀ k, ¬ e.IsStoredAs k) :
    ∃ text, e.underlying = some text ∧
      e.declaration = .error (.invalidUnderlying e.name text) := by
  cases hu : e.underlying with
  | none => exact absurd (.unsaid hu) (h .int)
  | some text =>
    have hnone : integralOfText? text = none := by
      rw [Option.eq_none_iff_forall_ne_some]
      intro k hk
      obtain ⟨htext, hintegral⟩ := integralOfText?_eq_some_iff.mp hk
      exact h k (.said hu htext hintegral)
    refine ⟨text, rfl, ?_⟩
    rw [declaration, hu]
    simp only [hnone]

/-- The enumeration's entry in a universe, where it is stored as a scalar. -/
def entry (e : EnumEntry) (k : Scalar) : String × Descriptor :=
  (e.name, .enumType ⟨e.name, e.isScoped, k⟩ .none)

end EnumEntry

/-- A record of one of the four lists. -/
inductive ManifestRecord where
  | ofClass (name : String)
  | ofUnion (name : String)
  | ofEnum (e : EnumEntry)
  | ofAlias (a : AliasEntry)

namespace ManifestRecord

/-- The name that the record is about. -/
def name : ManifestRecord → String
  | ofClass name | ofUnion name => name
  | ofEnum e => e.name
  | ofAlias a => a.name

/-- The type that the record's name will stand for, when it is declared in a universe. -/
inductive Denotes (u : Universe) : ManifestRecord → Descriptor → Prop where
  | ofClass (name : String) : Denotes u (.ofClass name) (.ofClass name)
  | ofUnion (name : String) : Denotes u (.ofUnion name) (.ofUnion name)
  | ofEnum {e : EnumEntry} {k : Scalar} (h : e.IsStoredAs k) :
    Denotes u (.ofEnum e) (.enumType ⟨e.name, e.isScoped, k⟩ .none)
  | ofAlias {a : AliasEntry} {t : Descriptor} (h : u.parseType a.text = .ok t) :
    Denotes u (.ofAlias a) t

section

variable {u : Universe} {t : Descriptor}

/-- A record of a class stands for the class. -/
theorem denotes_ofClass_iff {name : String} :
    Denotes u (.ofClass name) t ↔ t = .ofClass name := by
  constructor
  · rintro ⟨⟩
    rfl
  · rintro rfl
    exact .ofClass name

/-- A record of a union stands for the union. -/
theorem denotes_ofUnion_iff {name : String} :
    Denotes u (.ofUnion name) t ↔ t = .ofUnion name := by
  constructor
  · rintro ⟨⟩
    rfl
  · rintro rfl
    exact .ofUnion name

/-- A record of an enumeration stands for the one that is stored as its text says. -/
theorem denotes_ofEnum_iff {e : EnumEntry} :
    Denotes u (.ofEnum e) t ↔ ∃ k, e.IsStoredAs k ∧ (e.name, t) = e.entry k := by
  constructor
  · rintro (_ | _ | ⟨hk⟩ | _)
    exact ⟨_, hk, rfl⟩
  · rintro ⟨k, hk, ht⟩
    cases ht
    exact .ofEnum hk

/-- A record of an alias stands for what its text stands for among the names declared before. -/
theorem denotes_ofAlias_iff {a : AliasEntry} :
    Denotes u (.ofAlias a) t ↔ u.parseType a.text = .ok t := by
  constructor
  · rintro (_ | _ | _ | ⟨ht⟩)
    exact ht
  · exact .ofAlias

/-- A record stands for one type at most. -/
theorem Denotes.unique {r : ManifestRecord} {t' : Descriptor} (h : r.Denotes u t)
    (h' : r.Denotes u t') : t = t' := by
  cases h with
  | ofClass name => exact (denotes_ofClass_iff.mp h').symm
  | ofUnion name => exact (denotes_ofUnion_iff.mp h').symm
  | ofEnum hk =>
    cases h' with
    | ofEnum hk' => rw [hk.unique hk']
  | ofAlias ht => exact Except.ok.inj (ht.symm.trans (denotes_ofAlias_iff.mp h'))

end

/-- What is reported of a record that is refused in a universe. Names are looked at last. -/
inductive IsRefusedAs (u : Universe) : ManifestRecord → DeclarationError → Prop where
  | underlying {e : EnumEntry} {text : String} (h : e.underlying = some text)
    (hnot : ∀ k, ¬ e.IsStoredAs k) : IsRefusedAs u (.ofEnum e) (.invalidUnderlying e.name text)
  | text {a : AliasEntry} {reason : Diagnostic} (h : u.parseType a.text = .error reason) :
    IsRefusedAs u (.ofAlias a) (.invalidAlias a.name a.text reason)
  | name {r : ManifestRecord} {t : Descriptor} (ht : r.Denotes u t)
    (h : isIdentifier r.name = false) : IsRefusedAs u r (.invalidName r.name)
  | duplicate {r : ManifestRecord} {t : Descriptor} (ht : r.Denotes u t)
    (hname : isIdentifier r.name = true) (h : u.contains r.name = true) :
    IsRefusedAs u r (.duplicate r.name)

end ManifestRecord

namespace Universe

variable {u u' u'' : Universe} {r : ManifestRecord} {rs rs' : List ManifestRecord}

/-- The universe with the declaration that a record stands for. -/
def declareRecord (u : Universe) : ManifestRecord → Except DeclarationError Universe
  | .ofClass name => u.declare (.ofClass name)
  | .ofUnion name => u.declare (.ofUnion name)
  | .ofEnum e => u.declareEnum e
  | .ofAlias a => u.declare (.alias a.name a.text)

/-- Once it is known what a record stands for, only its name decides. -/
theorem declareRecord_of_denotes {t : Descriptor} (h : r.Denotes u t) :
    u.declareRecord r = u.insert r.name t := by
  cases h with
  | ofClass name | ofUnion name => rfl
  | @ofEnum e k h =>
    have hk : (!k.isIntegral) = false := by rw [h.isIntegral, Bool.not_true]
    show (e.declaration >>= u.declare) = _
    rw [EnumEntry.declaration_of_isStoredAs h, except_bind_ok, declare, hk]
    rfl
  | @ofAlias a t h =>
    show u.declare (.alias a.name a.text) = _
    rw [declare, h]
    rfl

/-- A record stands for a type, or its text is to blame. -/
theorem exists_denotes_or_refused (u : Universe) (r : ManifestRecord) :
    (∃ t, r.Denotes u t) ∨ ∃ e, r.IsRefusedAs u e := by
  -- Enumerations may have a type that is not known, and aliases a text that is not read.
  cases r with
  | ofClass name => exact .inl ⟨_, .ofClass name⟩
  | ofUnion name => exact .inl ⟨_, .ofUnion name⟩
  | ofEnum e =>
    by_cases h : ∃ k, e.IsStoredAs k
    · obtain ⟨k, hk⟩ := h
      exact .inl ⟨_, .ofEnum hk⟩
    · rw [not_exists] at h
      obtain ⟨text, htext, -⟩ := EnumEntry.declaration_of_forall_not_isStoredAs h
      exact .inr ⟨_, .underlying htext h⟩
  | ofAlias a =>
    cases h : u.parseType a.text with
    | ok t => exact .inl ⟨t, .ofAlias h⟩
    | error reason => exact .inr ⟨_, .text h⟩

/-- A name is refused if it is no identifier, and otherwise if it is declared. -/
theorem insert_eq_error_iff {name : String} {t : Descriptor} {e : DeclarationError} :
    u.insert name t = .error e ↔ isIdentifier name = false ∧ e = .invalidName name ∨
      isIdentifier name = true ∧ u.contains name = true ∧ e = .duplicate name := by
  unfold insert
  cases isIdentifier name <;> cases u.contains name <;> simp [eq_comm]

/-- A reason to refuse a record is reported. -/
theorem declareRecord_of_isRefusedAs {e : DeclarationError} (h : r.IsRefusedAs u e) :
    u.declareRecord r = .error e := by
  cases h with
  | @underlying e text htext hnot =>
    -- The text that is blamed is the one that is given.
    obtain ⟨text', htext', he⟩ := EnumEntry.declaration_of_forall_not_isStoredAs hnot
    cases htext.symm.trans htext'
    show (e.declaration >>= u.declare) = _
    rw [he, except_bind_error]
  | @text a reason h =>
    show u.declare (.alias a.name a.text) = _
    rw [declare, h]
  | name ht h =>
    rw [declareRecord_of_denotes ht]
    exact insert_eq_error_iff.mpr (.inl ⟨h, rfl⟩)
  | duplicate ht hname h =>
    rw [declareRecord_of_denotes ht]
    exact insert_eq_error_iff.mpr (.inr ⟨hname, h, rfl⟩)

/-- A record is declared if it stands for a type and its name is a new identifier. -/
theorem declareRecord_eq_ok_iff :
    u.declareRecord r = .ok u' ↔ ∃ t, r.Denotes u t ∧ isIdentifier r.name = true ∧
      u.contains r.name = false ∧ u' = ⟨u.entries ++ [(r.name, t)]⟩ := by
  constructor
  · intro h
    rcases exists_denotes_or_refused u r with ⟨t, ht⟩ | ⟨e, he⟩
    · rw [declareRecord_of_denotes ht, insert_eq_ok_iff] at h
      exact ⟨t, ht, h⟩
    · rw [declareRecord_of_isRefusedAs he] at h
      exact nomatch h
  · rintro ⟨t, ht, h⟩
    rw [declareRecord_of_denotes ht, insert_eq_ok_iff]
    exact h

/-- A record that is refused is refused for one reason, and this is the one that is reported. -/
theorem declareRecord_eq_error_iff {e : DeclarationError} :
    u.declareRecord r = .error e ↔ r.IsRefusedAs u e := by
  refine ⟨fun h => ?_, declareRecord_of_isRefusedAs⟩
  rcases exists_denotes_or_refused u r with ⟨t, ht⟩ | ⟨e', he'⟩
  -- A record that denotes a type is refused for its name only.
  · rw [declareRecord_of_denotes ht, insert_eq_error_iff] at h
    rcases h with ⟨hname, rfl⟩ | ⟨hname, hdup, rfl⟩
    · exact .name ht hname
    · exact .duplicate ht hname hdup
  · cases (declareRecord_of_isRefusedAs he').symm.trans h
    exact he'

/-! ### A list of records -/

/-- The second universe has the entries of the first one, and behind them one for each record: its
name, and the type that it stands for with what is in front of it. Nothing is asked of names. -/
inductive GrowsBy : Universe → List ManifestRecord → Universe → Prop where
  | nil (u : Universe) : GrowsBy u [] u
  | cons {u u' : Universe} {r : ManifestRecord} {rs : List ManifestRecord} {t : Descriptor}
    (hr : r.Denotes u t) (hrs : GrowsBy ⟨u.entries ++ [(r.name, t)]⟩ rs u') :
    GrowsBy u (r :: rs) u'

/-- No records add nothing. -/
theorem growsBy_nil_iff : u.GrowsBy [] u' ↔ u' = u := by
  constructor
  · rintro ⟨⟩
    rfl
  · rintro rfl
    exact .nil u'

/-- The first record adds its entry, and the others are added to that. -/
theorem growsBy_cons_iff : u.GrowsBy (r :: rs) u' ↔
    ∃ t, r.Denotes u t ∧ GrowsBy ⟨u.entries ++ [(r.name, t)]⟩ rs u' := by
  constructor
  · rintro (_ | ⟨hr, hrs⟩)
    exact ⟨_, hr, hrs⟩
  · rintro ⟨t, hr, hrs⟩
    exact .cons hr hrs

/-- Records in two lists are added one list after the other. -/
theorem growsBy_append_iff :
    u.GrowsBy (rs ++ rs') u' ↔ ∃ v, u.GrowsBy rs v ∧ v.GrowsBy rs' u' := by
  induction rs generalizing u with
  | nil => simp [growsBy_nil_iff]
  | cons r rs ih =>
    simp only [List.cons_append, growsBy_cons_iff, ih]
    constructor
    · rintro ⟨t, hr, v, hrs, hrs'⟩
      exact ⟨v, ⟨t, hr, hrs⟩, hrs'⟩
    · rintro ⟨v, ⟨t, hr, hrs⟩, hrs'⟩
      exact ⟨t, hr, v, hrs, hrs'⟩

/-- Records make one universe at most. -/
theorem GrowsBy.unique (h : u.GrowsBy rs u') (h' : u.GrowsBy rs u'') : u' = u'' := by
  induction h with
  | nil u => exact (growsBy_nil_iff.mp h').symm
  | cons hr hrs ih =>
    obtain ⟨t, hr', hrs'⟩ := growsBy_cons_iff.mp h'
    rw [hr.unique hr'] at ih
    exact ih hrs'

/-- The names are those of the records, behind those that are there. -/
theorem GrowsBy.names (h : u.GrowsBy rs u') :
    u'.entries.map (·.1) = u.entries.map (·.1) ++ rs.map (·.name) := by
  induction h with
  | nil u => simp
  | cons hr _ ih => simpa using ih

/-- A name is new to a universe with one more entry if it was new before and is not that of the
entry. -/
theorem contains_append_singleton {name name' : String} {t : Descriptor} :
    contains ⟨u.entries ++ [(name, t)]⟩ name' = false ↔
      u.contains name' = false ∧ name ≠ name' := by
  simp only [contains, lookup?, List.lookup_append, Option.isSome_or, Bool.or_eq_false_iff]
  refine and_congr_right' ?_
  rw [Option.isSome_eq_false_iff, Option.isNone_iff_eq_none, List.lookup_eq_none_iff,
    List.forall_mem_singleton, bne_iff_ne, ne_comm]

/-- The records are declared one after another exactly if each one stands for a type, and the names
are identifiers, apart and new. -/
theorem foldlM_declareRecord_eq_ok_iff :
    rs.foldlM declareRecord u = .ok u' ↔
      u.GrowsBy rs u' ∧ (∀ r ∈ rs, isIdentifier r.name = true) ∧ (rs.map (·.name)).Nodup ∧
        ∀ r ∈ rs, u.contains r.name = false := by
  induction rs generalizing u with
  | nil => simp [growsBy_nil_iff, eq_comm (a := u)]
  | cons r rs ih =>
    rw [List.foldlM_cons, except_bind_eq_ok, growsBy_cons_iff]
    simp only [declareRecord_eq_ok_iff, ih, List.forall_mem_cons, List.map_cons, List.nodup_cons,
      List.mem_map, not_exists, not_and]
    -- The records behind `r` find its name declared. That they are new then means that they are
    -- new before, and that none has the name of `r`.
    constructor
    · rintro ⟨_, ⟨t, ht, hname, hnew, rfl⟩, hrs, hnames, hdistinct, hcontains⟩
      simp only [contains_append_singleton] at hcontains
      exact ⟨⟨t, ht, hrs⟩, ⟨hname, hnames⟩, ⟨fun x hx h => (hcontains x hx).2 h.symm, hdistinct⟩,
        hnew, fun x hx => (hcontains x hx).1⟩
    · rintro ⟨⟨t, ht, hrs⟩, ⟨hname, hnames⟩, ⟨hnotMem, hdistinct⟩, hnew, hcontains⟩
      refine ⟨_, ⟨t, ht, hname, hnew, rfl⟩, hrs, hnames, hdistinct, fun x hx => ?_⟩
      exact contains_append_singleton.mpr ⟨hcontains x hx, fun h => hnotMem x hx h.symm⟩

/-- In the empty universe all names are new. -/
theorem foldlM_declareRecord_empty_eq_ok_iff :
    rs.foldlM declareRecord empty = .ok u ↔
      empty.GrowsBy rs u ∧ (∀ r ∈ rs, isIdentifier r.name = true) ∧ (rs.map (·.name)).Nodup := by
  have hnew : ∀ r ∈ rs, empty.contains r.name = false := fun _ _ => rfl
  rw [foldlM_declareRecord_eq_ok_iff, and_iff_left hnew]

/-- Records that stand for one type each, wherever they are declared. -/
theorem growsBy_map_iff {α : Type} {f : α → ManifestRecord} {g : α → Descriptor}
    (h : ∀ u a t, (f a).Denotes u t ↔ t = g a) {as : List α} :
    u.GrowsBy (as.map f) u' ↔ u' = ⟨u.entries ++ as.map fun a => ((f a).name, g a)⟩ := by
  induction as generalizing u with
  | nil => simp [growsBy_nil_iff]
  | cons a as ih =>
    simp only [List.map_cons, growsBy_cons_iff, h, ih, exists_eq_left, List.append_assoc,
      List.singleton_append]

/-- Enumerations stack up if each is stored as some type, whatever is declared before. -/
theorem growsBy_enums_iff {es : List EnumEntry} :
    u.GrowsBy (es.map .ofEnum) u' ↔ ∃ kinds, List.Forall₂ EnumEntry.IsStoredAs es kinds ∧
      u' = ⟨u.entries ++ List.zipWith EnumEntry.entry es kinds⟩ := by
  induction es generalizing u with
  | nil => simp [growsBy_nil_iff]
  | cons e es ih =>
    simp only [List.map_cons, growsBy_cons_iff, ManifestRecord.denotes_ofEnum_iff, ih,
      List.forall₂_cons_left_iff]
    constructor
    · rintro ⟨t, ⟨k, hk, ht⟩, kinds, hkinds, rfl⟩
      exact ⟨k :: kinds, ⟨k, kinds, hk, hkinds, rfl⟩, by simp [← ht, ManifestRecord.name]⟩
    · rintro ⟨_, ⟨k, kinds, hk, hkinds, rfl⟩, rfl⟩
      exact ⟨_, ⟨k, hk, rfl⟩, kinds, hkinds, by simp [EnumEntry.entry, ManifestRecord.name]⟩

/-- Aliases can be stacked up exactly if each one has a type with those in front of it. -/
theorem exists_growsBy_aliases_iff {as : List AliasEntry} :
    (∃ u', u.GrowsBy (as.map .ofAlias) u') ↔ ∀ before a behind, as = before ++ a :: behind →
      ∃ v, u.GrowsBy (before.map .ofAlias) v ∧ ∃ t, v.parseType a.text = .ok t := by
  induction as using List.reverseRecOn with
  | nil => simp [growsBy_nil_iff]
  | append_singleton as a ih =>
    -- The last alias is declared in the universe behind all the others.
    rw [forall_split_concat, ← ih]
    simp only [List.map_append, List.map_cons, List.map_nil, growsBy_append_iff, growsBy_cons_iff,
      growsBy_nil_iff, ManifestRecord.denotes_ofAlias_iff]
    constructor
    · rintro ⟨_, v, hv, t, ht, rfl⟩
      exact ⟨⟨v, hv⟩, v, hv, t, ht⟩
    · rintro ⟨-, v, hv, t, ht⟩
      exact ⟨_, v, hv, t, ht, rfl⟩

end Universe

namespace Manifest

open Universe (empty declareRecord)

variable {m : Manifest}

/-! ### The four lists -/

/-- The records that are declared in front of the aliases. -/
def leaves (m : Manifest) : List ManifestRecord :=
  m.classes.map .ofClass ++ m.unions.map .ofUnion ++ m.enums.map .ofEnum

/-- The records of the manifest, in the order in which they are declared. -/
def listing (m : Manifest) : List ManifestRecord := m.leaves ++ m.aliases.map .ofAlias

/-- The names in the four lists. -/
def names (m : Manifest) : List String :=
  m.classes ++ m.unions ++ m.enums.map (·.name) ++ m.aliases.map (·.name)

/-- The names of the records are those of the four lists. -/
theorem map_name_listing (m : Manifest) : m.listing.map (·.name) = m.names := by
  simp [listing, leaves, names, ManifestRecord.name, Function.comp_def]

/-- Four loops are one loop over the records. -/
theorem universe?_eq_foldlM (m : Manifest) :
    m.universe? = m.listing.foldlM declareRecord empty := by
  simp only [listing, leaves, List.foldlM_append, List.foldlM_map, bind_assoc]
  simp only [universe?, Universe.declareAll, List.foldlM_map]
  rfl

/-- The entries of the classes, the unions and the enumerations, stored as the given scalars. -/
def leafEntries (m : Manifest) (kinds : List Scalar) : List (String × Descriptor) :=
  m.classes.map (fun name => (name, .ofClass name)) ++
    m.unions.map (fun name => (name, .ofUnion name)) ++ List.zipWith EnumEntry.entry m.enums kinds

/-- Classes, unions and enumerations stack up if each enumeration is stored as some type. -/
theorem growsBy_leaves_iff {u : Universe} :
    empty.GrowsBy m.leaves u ↔ ∃ kinds, List.Forall₂ EnumEntry.IsStoredAs m.enums kinds ∧
      u = ⟨m.leafEntries kinds⟩ := by
  simp only [leaves, Universe.growsBy_append_iff, exists_eq_left, Universe.growsBy_enums_iff,
    Universe.growsBy_map_iff fun _ _ _ => ManifestRecord.denotes_ofClass_iff,
    Universe.growsBy_map_iff fun _ _ _ => ManifestRecord.denotes_ofUnion_iff]
  rfl

/-! ### Acceptance -/

/-- The declarations of the manifest stack up. -/
structure IsAcceptable (m : Manifest) : Prop where
  identifiers : ∀ name ∈ m.names, isIdentifier name = true
  distinct : m.names.Nodup
  /-- An underlying type that is given is integral, unqualified, and uses no declared name. -/
  underlying : ∀ e ∈ m.enums, ∀ text, e.underlying = some text →
    ∃ k, empty.parseType text = .ok (.scalar k .none) ∧ k.isIntegral = true
  /-- An alias has a type in the universe of all classes, unions and enumerations and of the
  aliases in front of it. -/
  readable : ∀ before a behind, m.aliases = before ++ a :: behind →
    ∃ u, empty.GrowsBy { m with aliases := before }.listing u ∧ ∃ t, u.parseType a.text = .ok t

/-- The error is that of the first record that is refused. -/
def FailsFirstWith (m : Manifest) (e : DeclarationError) : Prop :=
  ∃ before r behind, m.listing = before ++ r :: behind ∧
    ∃ u, empty.GrowsBy before u ∧ (∀ r' ∈ before, isIdentifier r'.name = true) ∧
      (before.map (·.name)).Nodup ∧ r.IsRefusedAs u e

/-- There is a universe of all but the aliases exactly if every enumeration is stored as some type.
-/
theorem exists_growsBy_leaves_iff :
    (∃ u, empty.GrowsBy m.leaves u) ↔ ∀ e ∈ m.enums, ∃ k, e.IsStoredAs k := by
  simp only [growsBy_leaves_iff]
  constructor
  · rintro ⟨_, kinds, hkinds, -⟩ e he
    obtain ⟨k, -, hk⟩ := exists_mem_of_forall₂ hkinds.flip he
    exact ⟨k, hk⟩
  · intro h
    choose! kind hkind using h
    exact ⟨_, m.enums.map kind, List.forall₂_map_right_iff.mpr (List.forall₂_same.mpr hkind), rfl⟩

/-- There is one of all records exactly if, beyond that, each alias has a type with those in front
of it. -/
theorem exists_growsBy_listing_iff :
    (∃ u, empty.GrowsBy m.listing u) ↔
      (∀ e ∈ m.enums, ∃ k, e.IsStoredAs k) ∧
      ∀ before a behind, m.aliases = before ++ a :: behind →
        ∃ u, empty.GrowsBy { m with aliases := before }.listing u ∧
          ∃ t, u.parseType a.text = .ok t := by
  rw [← exists_growsBy_leaves_iff]
  constructor
  · rintro ⟨u, hu⟩
    obtain ⟨v, hv, hv'⟩ := Universe.growsBy_append_iff.mp hu
    refine ⟨⟨v, hv⟩, fun before a behind hsplit => ?_⟩
    obtain ⟨w, hw, hread⟩ := Universe.exists_growsBy_aliases_iff.mp ⟨u, hv'⟩ before a behind hsplit
    exact ⟨w, Universe.growsBy_append_iff.mpr ⟨v, hv, hw⟩, hread⟩
  · rintro ⟨⟨v, hv⟩, hread⟩
    -- All beginnings of the list of aliases are stacked on the same leaves.
    have haliases : ∃ u, v.GrowsBy (m.aliases.map .ofAlias) u := by
      refine Universe.exists_growsBy_aliases_iff.mpr fun before a behind hsplit => ?_
      obtain ⟨u, hu, ht⟩ := hread before a behind hsplit
      obtain ⟨v', hv', hu⟩ := Universe.growsBy_append_iff.mp hu
      rw [hv'.unique hv] at hu
      exact ⟨u, hu, ht⟩
    obtain ⟨u, hu⟩ := haliases
    exact ⟨u, Universe.growsBy_append_iff.mpr ⟨v, hv, hu⟩⟩

/-- The universe of a manifest is made by its records, with names that are identifiers and distinct.
-/
theorem universe?_eq_ok_iff {u : Universe} :
    m.universe? = .ok u ↔ empty.GrowsBy m.listing u ∧
      (∀ name ∈ m.names, isIdentifier name = true) ∧ m.names.Nodup := by
  rw [universe?_eq_foldlM, Universe.foldlM_declareRecord_empty_eq_ok_iff, ← map_name_listing,
    List.forall_mem_map]

/-- The failure of a manifest is that of the first record that is refused. -/
theorem universe?_eq_error_iff {e : DeclarationError} :
    m.universe? = .error e ↔ m.FailsFirstWith e := by
  rw [universe?_eq_foldlM, foldlM_eq_error_iff]
  simp only [FailsFirstWith, Universe.foldlM_declareRecord_empty_eq_ok_iff,
    Universe.declareRecord_eq_error_iff, and_assoc]

/-- A manifest makes a universe exactly if it is acceptable. -/
theorem exists_universe?_eq_ok_iff : (∃ u, m.universe? = .ok u) ↔ m.IsAcceptable := by
  simp only [universe?_eq_ok_iff, exists_and_right, exists_growsBy_listing_iff,
    EnumEntry.exists_isStoredAs_iff]
  constructor
  · rintro ⟨⟨hunderlying, hread⟩, hnames, hdistinct⟩
    exact ⟨hnames, hdistinct, hunderlying, hread⟩
  · rintro ⟨hnames, hdistinct, hunderlying, hread⟩
    exact ⟨⟨hunderlying, hread⟩, hnames, hdistinct⟩

/-- A manifest makes a universe exactly if its declarations stack up. The entries are then the
classes, the unions and the enumerations, and behind them the aliases, each list in its order. Of
any other manifest, the first record that is refused is reported. Whatever text the manifest is read
from, and in whatever order its tables stand there, it comes to the same. -/
theorem declarations_stack_up (m : Manifest) :
    ((∃ u, m.universe? = .ok u) ↔ m.IsAcceptable) ∧
    (∀ u, m.universe? = .ok u → u.entries.map (·.1) = m.names ∧
      ∃ kinds, List.Forall₂ EnumEntry.IsStoredAs m.enums kinds ∧
        Universe.GrowsBy ⟨m.leafEntries kinds⟩ (m.aliases.map .ofAlias) u) ∧
    (∀ e, m.universe? = .error e ↔ m.FailsFirstWith e) ∧
    ∀ (read : String → Option Manifest) (text : String), read text = some m →
      Universe.ofManifestWith read text = m.universe?.mapError .refused := by
  refine ⟨exists_universe?_eq_ok_iff, fun u hu => ?_, fun e => universe?_eq_error_iff,
    fun read text h => ?_⟩
  · obtain ⟨hgrows, -⟩ := universe?_eq_ok_iff.mp hu
    constructor
    · rw [hgrows.names, map_name_listing]
      rfl
    · obtain ⟨v, hleaves, haliases⟩ := Universe.growsBy_append_iff.mp hgrows
      -- The aliases come behind everything else.
      obtain ⟨kinds, hkinds, rfl⟩ := growsBy_leaves_iff.mp hleaves
      exact ⟨kinds, hkinds, haliases⟩
  · rw [Universe.ofManifestWith, h]

/-- The alias `Q` is good behind the alias that it uses, and not in front of it. -/
theorem declarations_stack_up_of_two_aliases :
    let m : Manifest := ⟨["C"], [], [⟨"E", false, some "short"⟩], [⟨"P", "C*"⟩, ⟨"Q", "P*"⟩]⟩
    m.IsAcceptable ∧ { m with aliases := m.aliases.reverse }.FailsFirstWith
      (.invalidAlias "Q" "P*" ⟨.unknownName "P", ⟨0, 1⟩⟩) := by
  intro m
  obtain ⟨haccept, -⟩ := declarations_stack_up m
  obtain ⟨-, -, hfail, -⟩ := declarations_stack_up { m with aliases := m.aliases.reverse }
  constructor
  · refine haccept.mp (except_isOk_iff.mp ?_)
    decide +kernel
  · refine (hfail _).mp ?_
    decide +kernel

end Manifest

end TypeTraits
