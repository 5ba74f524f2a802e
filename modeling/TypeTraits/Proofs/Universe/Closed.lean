import TypeTraits.Proofs.Universe.Reached
import TypeTraits.Proofs.Universe.RoundTrip

/-!
# `TypeTraits.Proofs.Universe.Closed`: universes that declare all that they mention

A specifier such as `class w` may bring in a class that nothing declares, and a type with
such a class is printed as a name that does not resolve. Where these specifiers only use
declared names, in a text and in the aliases of the universe it is read in
(`Universe.SelfContained`), nothing of the kind can happen, whatever the aliases stand for: every
class, union and enumeration in the type of the text is a declared one, and the text that
the type is printed as stands for the type again.

What carries this is a property of types, to be readable in the universe
(`Descriptor.IsReadable`). Formation keeps it, declarations behind do not end it, and every
entry has it whose name a text can ask for (`Universe.IsReadable`).

* `TypeId.isPlain_of_mem_leaves`: the names that a text can ask for.
* `Universe.IsReadable.parseType`: what a text stands for is readable.
* `Universe.SelfContained.readsBack`: texts are stable in self-contained universes.
-/

set_option autoImplicit false

namespace TypeTraits

open Grammar

/-! ### Names in texts -/

/-- The identifier that is a symbol of its own is a plain name. -/
theorem isPlainName_of_isLexical {name : String} (h : (Symbol.identifier name).IsLexical) :
    IsPlainName name :=
  namesIdentifier_iff_lexes.mpr (.of_symbol h)

/-- The names in the leaf are plain, and its bound is a size. -/
def TypeId.Leaf.IsPlain : TypeId.Leaf → Prop
  | base b => ∀ name, b.name? = some name → IsPlainName name
  | owner name => IsPlainName name
  | bound n => ∀ m, n = some m → m < sizeLimit

/-- A type has no names but plain ones, if its symbols have none. -/
theorem Grammar.IsType.isPlain_of_mem_leaves {ss : List Symbol} {e : TypeId} (h : IsType ss e)
    (hplain : ∀ name, .identifier name ∈ ss → IsPlainName name) : ∀ l ∈ e.leaves, l.IsPlain := by
  intro l hl
  have hfound := h.leaves_foundIn l hl
  cases l with
  | base b => exact fun name hname => hplain name (hfound name hname)
  | owner name => exact hplain name hfound
  | bound n => exact hfound

/-- The identifiers among the tokens of a text are plain names. -/
theorem TokenStream.isPlainName_of_mem {text : String} {s : TokenStream} (hs : ofText text = .ok s)
    {name : String} (hname : .identifier name ∈ symbols s.tokens) : IsPlainName name :=
  isPlainName_of_isLexical ((ofText_eq_ok_iff.mp ⟨s, hs, rfl⟩).isLexical_of_mem hname)

/-- A text holds no names but plain ones. -/
theorem TypeId.isPlain_of_mem_leaves {text : String} {e : TypeId} (h : ofText text = .ok e) :
    ∀ l ∈ e.leaves, l.IsPlain := by
  obtain ⟨s, hs, hread⟩ := except_bind_eq_ok.mp h
  have htype : IsType (symbols s.tokens) e.bare :=
    (readAll_bare_eq_ok_iff s _).mp (except_map_eq_ok.mpr ⟨e, hread, rfl⟩)
  intro l hl
  rw [← leaves_mapSpans] at hl
  exact htype.isPlain_of_mem_leaves (fun _ => TokenStream.isPlainName_of_mem hs) l hl

/-- The name of a base that stands behind `class`, `struct`, `union` or `enum`. -/
def Base.keyedName? : Base → Option String
  | ofClass name | ofUnion name | ofEnum name _ _ => some name
  | _ => none

/-- The names behind `class`, `struct`, `union` and `enum` in a type. -/
def TypeId.keyedNames (e : TypeId) : List String :=
  e.leaves.filterMap fun
    | .base b => b.keyedName?
    | _ => none

namespace Universe

variable {u u' : Universe}

/-- The names behind `class`, `struct`, `union` and `enum` in the text are declared. -/
def DeclaresKeyed (u : Universe) (text : String) : Prop :=
  ∀ e, TypeId.ofText text = .ok e → ∀ name ∈ e.keyedNames, u.contains name = true

instance (u : Universe) (text : String) : Decidable (u.DeclaresKeyed text) :=
  match h : TypeId.ofText text with
  | .ok e => decidable_of_iff (∀ name ∈ e.keyedNames, u.contains name = true) <| by
    rw [DeclaresKeyed, h]
    exact ⟨fun hall e' he => by cases he; exact hall, fun hall => hall e rfl⟩
  | .error d => .isTrue fun e he => by rw [h] at he; exact nomatch he

/-- What a base with a declared name stands for is what the name is declared as, whether the
name stands alone or behind a key. -/
theorem lookup?_of_elaborateBase {b : Base} {name : String} {span : Span} {t : Descriptor}
    (hname : b.name? = some name) (hkeyed : b.keyedName? = some name → u.contains name = true)
    (h : u.elaborateBase span b = .ok t) : u.lookup? name = some t := by
  cases b with
  | void | nullPointer | scalar k => exact nomatch hname
  | named name =>
    cases hname
    exact u.resolve_eq_ok_iff.mp h
  | ofClass name | ofUnion name =>
    cases hname
    -- The name is declared, so the key introduces nothing.
    rcases u.classOrUnion_eq_ok_iff.mp (formedAt_eq_ok_iff.mp h) with ⟨hlookup, -⟩ | ⟨hnone, -⟩
    · exact hlookup
    · exact absurd hnone (Option.isSome_iff_ne_none.mp (hkeyed rfl))
  | ofEnum name isScoped underlying =>
    cases hname
    rcases u.enumeration_eq_ok_iff.mp (formedAt_eq_ok_iff.mp h) with ⟨hlookup, -⟩ | ⟨hnone, -⟩
    · exact hlookup
    · exact absurd hnone (Option.isSome_iff_ne_none.mp (hkeyed rfl))

/-! ### Self-contained universes -/

/-- Every type that a text can ask for by its name can be read back. -/
def IsReadable (u : Universe) : Prop :=
  ∀ name t, IsPlainName name → u.lookup? name = some t → t.IsReadable u

/-- What a text stands for can be read back, if the names behind its keys are declared. -/
theorem IsReadable.parseType (hu : u.IsReadable) {text : String} {t : Descriptor}
    (htext : u.DeclaresKeyed text) (h : u.parseType text = .ok t) : t.IsReadable u := by
  obtain ⟨e, hparse, he⟩ := except_bind_eq_ok.mp h
  refine (Descriptor.closed_isReadable u).elaborate e (fun l hl => ?_) he
  have hplain := TypeId.isPlain_of_mem_leaves hparse l hl
  cases l with
  | base b =>
    intro span s hs
    cases hname : b.name? with
    | some name =>
      refine hu name s (hplain name hname) (lookup?_of_elaborateBase hname (fun hkeyed => ?_) hs)
      exact htext e hparse name (List.mem_filterMap.mpr ⟨_, hl, hkeyed⟩)
    | none =>
      -- A base without a name stands for a type without names.
      cases b <;> cases hname <;> cases hs <;> simp
  | owner name => exact fun s hs => hu name s hplain hs
  | bound n => exact fun s r hs hr => hs.arrayOf hplain hr

/-- Declared names keep their types when a new one comes behind them. -/
theorem lookup?_append {name name' : String} {s t : Descriptor} (h : u.lookup? name = some s) :
    lookup? ⟨u.entries ++ [(name', t)]⟩ name = some s := by
  rw [lookup?, List.lookup_append, Option.or_eq_some_iff]
  exact .inl h

/-- A name is looked up among the entries as they were, or it is the new one. -/
theorem lookup?_of_append {name name' : String} {s t : Descriptor}
    (h : lookup? ⟨u.entries ++ [(name', t)]⟩ name = some s) :
    u.lookup? name = some s ∨ name = name' ∧ s = t := by
  rw [lookup?, List.lookup_append, Option.or_eq_some_iff] at h
  refine h.imp_right fun ⟨_, h⟩ => ?_
  rw [List.lookup_cons] at h
  split at h
  · next heq => exact ⟨eq_of_beq heq, (Option.some.inj h).symm⟩
  · exact nomatch h

/-- A name that was not declared is looked up behind all the others. -/
theorem lookup?_append_self {name : String} {t : Descriptor} (h : u.contains name = false) :
    lookup? ⟨u.entries ++ [(name, t)]⟩ name = some t := by
  rw [contains, Option.isSome_eq_false_iff, Option.isNone_iff_eq_none, lookup?] at h
  rw [lookup?, List.lookup_append, h]
  simp

/-- The names behind the keys of the declaration's text, if it has one, are declared. -/
def DeclaresKeyedIn (u : Universe) : Declaration → Prop
  | .alias _ text => u.DeclaresKeyed text
  | _ => True

instance (u : Universe) : (d : Declaration) → Decidable (u.DeclaresKeyedIn d)
  | .alias _ text => inferInstanceAs (Decidable (u.DeclaresKeyed text))
  | .ofClass _ | .ofUnion _ | .ofEnum _ _ _ => inferInstanceAs (Decidable True)

/-- The universe comes from accepted declarations whose texts put no undeclared name behind
`class`, `struct`, `union` or `enum`. -/
inductive SelfContained : Universe → Prop
  | empty : SelfContained empty
  | declare {u u' : Universe} {d : Declaration} (hu : SelfContained u)
    (hkeyed : u.DeclaresKeyedIn d) (h : u.declare d = .ok u') : SelfContained u'

/-- A refused declaration leaves the universe as it was. -/
theorem SelfContained.attempt {d : Declaration} (hu : u.SelfContained)
    (hkeyed : u.DeclaresKeyedIn d) : (u.attempt d).SelfContained := by
  unfold Universe.attempt
  split
  · next u' h => exact hu.declare hkeyed h
  · exact hu

/-- In a self-contained universe every type is canonical. -/
theorem SelfContained.isCanonical (hu : u.SelfContained) : u.IsCanonical := by
  induction hu with
  | empty => exact isCanonical_empty
  | declare _ _ h ih => exact ih.declare h

/-- A declaration puts a readable type behind readable ones. -/
theorem IsReadable.declare {d : Declaration} (hu : u.IsReadable) (hkeyed : u.DeclaresKeyedIn d)
    (h : u.declare d = .ok u') : u'.IsReadable := by
  obtain ⟨t, ht, -, hnew, rfl⟩ := declare_eq_ok_iff.mp h
  intro name s hplain hs
  rcases lookup?_of_append hs with hs | ⟨rfl, rfl⟩
  · exact (hu name s hplain hs).mono fun _ _ => lookup?_append
  · -- The new entry: its name is looked up behind all the others.
    have hself := lookup?_append_self (t := s) hnew
    cases ht with
    | ofClass name | ofUnion name | ofEnum name isScoped k _ =>
      refine (Descriptor.isReadable_iff_level_and_tail _ _).mpr ⟨?_, nofun⟩
      exact Descriptor.isReadableLevel_of_name _ _ rfl hplain hself
    | ofText name text h =>
      exact (hu.parseType hkeyed h).mono fun _ _ => lookup?_append

/-- And every type can be read back. -/
theorem SelfContained.isReadable (hu : u.SelfContained) : u.IsReadable := by
  induction hu with
  | empty => exact fun _ _ _ h => nomatch h
  | declare _ hkeyed h ih => exact ih.declare hkeyed h

/-- In a self-contained universe, the type of a text with no undeclared name behind a key has
only classes, unions and enumerations that are declared by their own names, and it is what it
is printed as stands for. -/
theorem SelfContained.readsBack (hu : u.SelfContained) {text : String} {t : Descriptor}
    (htext : u.DeclaresKeyed text) (h : u.parseType text = .ok t) :
    (∀ s ∈ t.levels, ∀ name, s.name? = some name → u.lookup? name = some s.unqualified) ∧
      u.parseType t.spelling = .ok t := by
  have hread := hu.isReadable.parseType htext h
  refine ⟨fun s hs name hname => ((hread s hs).name name hname).2, ?_⟩
  exact parseType_spelling_of_isReadable (hu.isCanonical.parseType h) hread

open Descriptor in
/-- Aliases of a qualified class, of a function that uses this alias, and of a pointer to a
member of the class by way of it; then a text that puts an alias behind `struct`. -/
theorem SelfContained.readsBack_of_aliases :
    let u₁ := (Universe.empty.attempt (.ofClass "w")).attempt (.ofEnum "color" true .unsignedChar)
    let u₂ := (u₁.attempt (.alias "cw" "const w")).attempt (.alias "fn" "color(cw&, ...)")
    let u := u₂.attempt (.alias "mem" "fn cw::* volatile")
    let color := enumType ⟨"color", true, .unsignedChar⟩ .none
    let cw := classType ⟨"w", false⟩ .const
    let mem := memberPointer ⟨"w", false⟩ (function color [lvalueRef cw] true) .volatile
    let t := pointer (function mem [pointer cw .none, color] false) .none
    u.size = 5 ∧ u.parseType "mem (*)(struct cw*, enum class color)" = .ok t ∧
      t.spelling = "color(w::* volatile(*)(const w*, color))(const w&, ...)" ∧
      u.parseType t.spelling = .ok t := by
  intro u₁ u₂ u color cw mem t
  have hu₁ : u₁.SelfContained := .attempt (.attempt .empty trivial) trivial
  have hu₂ : u₂.SelfContained := (hu₁.attempt (by decide +kernel)).attempt (by decide +kernel)
  have hu : u.SelfContained := hu₂.attempt (by decide +kernel)
  have h : u.parseType "mem (*)(struct cw*, enum class color)" = .ok t := by decide +kernel
  refine ⟨by decide +kernel, h, by decide +kernel, ?_⟩
  exact (hu.readsBack (by decide +kernel) h).2

end Universe

end TypeTraits
