import TypeTraits.Proofs.Descriptor.Names
import TypeTraits.Proofs.Query.Canonical
import TypeTraits.Proofs.Universe.Closed

/-!
# `TypeTraits.Proofs.Query.Names`: the names in values

A name is declared with its blanks, line breaks among them, but a text asks for plain names only.
So every type that a text can get at has plain names (`Universe.Reached.hasPlainNames`), what a
query text comes to has (`Universe.Reached.hasPlainNames_of_evaluateText`), and its value is
written on one line (`Universe.Reached.isOneLine_text`).
-/

set_option autoImplicit false

namespace TypeTraits

/-- The names in the type are identifiers, with nothing around them. -/
def Descriptor.HasPlainNames (t : Descriptor) : Prop := ∀ name ∈ t.names, IsPlainName name

namespace Universe

/-- Every type that a text can ask for by its name has plain names. -/
def HasPlainNames (u : Universe) : Prop :=
  ∀ name t, IsPlainName name → u.lookup? name = some t → t.HasPlainNames

variable {u u' : Universe}

namespace HasPlainNames

/-- A new class or enumeration has the name in the base, a declared one is looked up by it. -/
theorem elaborateBase (hu : u.HasPlainNames) {b : Base}
    (hb : ∀ name, b.name? = some name → IsPlainName name) {span : Span} {t : Descriptor}
    (h : u.elaborateBase span b = .ok t) : t.HasPlainNames := by
  cases b with
  | void | nullPointer | scalar k =>
    cases h
    exact nofun
  | named name => exact hu name t (hb name rfl) (u.resolve_eq_ok_iff.mp h)
  | ofClass name | ofUnion name =>
    -- A name behind a key may be declared, or it is introduced.
    rcases u.classOrUnion_eq_ok_iff.mp (formedAt_eq_ok_iff.mp h) with ⟨hlookup, -⟩ | ⟨-, rfl⟩
    · exact hu name t (hb name rfl) hlookup
    · exact List.forall_mem_singleton.mpr (hb name rfl)
  | ofEnum name isScoped underlying =>
    rcases u.enumeration_eq_ok_iff.mp (formedAt_eq_ok_iff.mp h) with ⟨hlookup, -⟩ | ⟨-, -, rfl⟩
    · exact hu name t (hb name rfl) hlookup
    · exact List.forall_mem_singleton.mpr (hb name rfl)

/-- A written type with plain names stands for a type with plain names. -/
theorem elaborate (hu : u.HasPlainNames) {e : TypeId} (he : ∀ l ∈ e.leaves, l.IsPlain)
    {t : Descriptor} (h : u.elaborate e = .ok t) : t.HasPlainNames := by
  refine (Descriptor.closed_forall_names IsPlainName).elaborate e (fun l hl => ?_) h
  have hplain := he l hl
  cases l with
  | base b => exact fun _ _ hs => hu.elaborateBase hplain hs
  | owner name => exact fun s hs => hu name s hplain hs
  | bound n =>
    intro s r hs hr
    rwa [Descriptor.names_of_arrayOf hr]

/-- A declaration keeps the names plain that a text can get at, even if its own is not. -/
theorem declare {d : Declaration} (hu : u.HasPlainNames) (h : u.declare d = .ok u') :
    u'.HasPlainNames := by
  obtain ⟨t, ht, -, -, rfl⟩ := declare_eq_ok_iff.mp h
  intro name s hplain hs
  rcases lookup?_of_append hs with hs | ⟨rfl, rfl⟩
  · exact hu name s hplain hs
  · cases ht with
    | ofClass name | ofUnion name | ofEnum name _ _ _ =>
      exact List.forall_mem_singleton.mpr hplain
    | ofText name text h =>
      obtain ⟨e, hparse, he⟩ := except_bind_eq_ok.mp h
      exact hu.elaborate (TypeId.isPlain_of_mem_leaves hparse) he

end HasPlainNames

namespace Reached

/-- The names that a text can get at are plain, however the universe was reached. -/
theorem hasPlainNames (hu : u.Reached) : u.HasPlainNames :=
  hu.induction (fun hu hd => hu.declare hd) nofun

/-- A query text that comes to a type comes to one with plain names. -/
theorem hasPlainNames_of_evaluateText (hu : u.Reached) {text : String} {t : Descriptor}
    (h : (Scope.ofUniverse u).evaluateText text = .ok (.type t)) : t.HasPlainNames := by
  obtain ⟨q, hq, ht⟩ := except_bind_eq_ok.mp h
  obtain ⟨s, hs, hon⟩ := (Node.readFrom_iff_isOn (n := .query q)).mp hq
  have kept : ∀ f ∈ Transformation.all, ∀ t : Descriptor, t.HasPlainNames →
      (f.apply t).HasPlainNames :=
    fun f hf _ ht => (Descriptor.hereditary_forall_names IsPlainName).apply hf ht
  refine Scope.forall_of_evaluate (List.forall_mem_nil _) kept q ?_ ht
  -- The types in the query stand on tokens of the text, so their names are plain.
  intro e he t ht
  obtain ⟨before, us, behind, htokens, hon⟩ := hon.contained he
  have hplain : ∀ name, .identifier name ∈ symbols us → IsPlainName name := by
    intro name hname
    refine TokenStream.isPlainName_of_mem hs ?_
    rw [htokens, symbols_append, symbols_append]
    exact List.mem_append_left _ (List.mem_append_right _ hname)
  refine hu.hasPlainNames.elaborate (fun l hl => ?_) ht
  rw [← TypeId.leaves_mapSpans] at hl
  exact (Placed.IsType.erase hon).isPlain_of_mem_leaves hplain l hl

/-- The value of a query text is written on one line. -/
theorem isOneLine_text (hu : u.Reached) {text : String} {v : Value}
    (h : (Scope.ofUniverse u).evaluateText text = .ok v) : IsOneLine v.text := by
  cases v with
  | bool b => cases b <;> decide
  | size n => exact .toString_nat n
  | type t =>
    have hplain := hu.hasPlainNames_of_evaluateText h
    exact t.isOneLine_spelling fun name hname => .of_isLexical (hplain name hname).isLexical

end Reached

end Universe

end TypeTraits
