import TypeTraits.Proofs.Query.Related
import TypeTraits.Proofs.Universe.Growth
import TypeTraits.Proofs.Universe.Names

/-!
# `TypeTraits.Proofs.Query.Growth`: answers in a universe with further declarations

An operation looks at the values of its arguments and at nothing else of the universe, and
no failure of an argument is ever turned into a value. So a call has the same value where
its arguments have the same values, and it may only gain one where they gain some
(`Scope.call_refines`). By induction over the query a larger universe keeps every answer
(`Scope.evaluate_refines`), although it may well answer what had no answer before.

`Universe.declareAll_keeps_answers` puts this together for texts: further declarations change
neither the type nor the value of a text, as long as the text puts no undeclared name behind
`class`, `struct`, `union` or `enum`; and an alias keeps the type that it was declared with.
-/

set_option autoImplicit false

namespace TypeTraits

/-! ### The types in a query -/

mutual

/-- The types in a query, at any depth. -/
def Query.types : Query → List TypeId
  | .bool _ _ | .size _ _ => []
  | .type t => [t]
  | .call _ _ args _ => Query.typesEach args

/-- The types in queries. -/
def Query.typesEach : List Query → List TypeId
  | [] => []
  | q :: qs => q.types ++ Query.typesEach qs

end

/-- The names behind `class`, `struct`, `union` and `enum` anywhere in the query that the text
holds are declared. -/
def Universe.DeclaresKeyedInQuery (u : Universe) (text : String) : Prop :=
  ∀ q, Query.ofText text = .ok q → ∀ e ∈ q.types, ∀ name ∈ e.keyedNames, u.contains name = true

instance (u : Universe) (text : String) : Decidable (u.DeclaresKeyedInQuery text) :=
  match h : Query.ofText text with
  | .ok q =>
    decidable_of_iff (∀ e ∈ q.types, ∀ name ∈ e.keyedNames, u.contains name = true) <| by
      rw [Universe.DeclaresKeyedInQuery, h]
      exact ⟨fun hall q' hq => by cases hq; exact hall, fun hall => hall q rfl⟩
  | .error d => .isTrue fun q hq => by rw [h] at hq; exact nomatch hq

/-! ### Arguments -/

/-- Where the first argument has a value, the second one has the same. -/
def Argument.Refines (a a' : Argument) : Prop := TypeTraits.Refines (a.value ()) (a'.value ())

/-- Operations keep that a value stays what it is. -/
def OutcomeRelation.refines : OutcomeRelation where
  Holds x y := Refines x y
  ok a := .refl (.ok a)
  bind h hfg := h.bind hfg

/-- Outcomes that are kept are a relation between outcomes. -/
theorem Argument.Refines.related {a a' : Argument} (h : a.Refines a') : a.Related .refines a' :=
  ⟨h, fun _ => .error _ _⟩

/-! ### Queries -/

namespace Scope

variable {u u' : Universe} {c : Catalog}

/-- The universe has no part in what a name calls. -/
theorem call_refines {op : String} {opSpan span : Span} {args args' : List Argument}
    (h : List.Forall₂ Argument.Refines args args') :
    Refines (call ⟨u, c⟩ op opSpan args span) (call ⟨u', c⟩ op opSpan args' span) := by
  have hop : operation? ⟨u', c⟩ = operation? ⟨u, c⟩ := rfl
  rw [call, call, hop]
  cases operation? ⟨u, c⟩ (Operation.baseName op) with
  | none => exact .error _ _
  | some o =>
    cases hx : o.result? args with
    | none =>
      simp only [hx]
      exact .error _ _
    | some x =>
      -- An operation looks at its arguments through their values only.
      obtain ⟨x', hx', hrefines⟩ := Operation.result?_related (h.imp fun _ _ ha => ha.related) hx
      have hrefines : Refines x x' := hrefines
      simpa only [hx, hx'] using hrefines

mutual

/-- A query keeps its value in a larger universe, if the names behind the keys in it are
declared. -/
theorem evaluate_refines (hu : u.ExtendedBy u') : ∀ (q : Query),
    (∀ e ∈ q.types, ∀ name ∈ e.keyedNames, u.contains name = true) →
    Refines (evaluate ⟨u, c⟩ q) (evaluate ⟨u', c⟩ q)
  | .bool b _, _ => by
    rw [evaluate, evaluate]
    exact .refl _
  | .size n _, _ => by
    rw [evaluate, evaluate]
    exact .refl _
  | .type e, hq => by
    -- Nowhere else does a query look into the universe.
    rw [Query.types, List.forall_mem_singleton] at hq
    rw [evaluate, evaluate]
    exact (hu.elaborate hq).map _
  | .call op opSpan args span, hq => by
    rw [evaluate, evaluate]
    exact call_refines (suspend_refines hu args hq)

/-- So do arguments that are not yet evaluated. -/
theorem suspend_refines (hu : u.ExtendedBy u') : ∀ (qs : List Query),
    (∀ e ∈ Query.typesEach qs, ∀ name ∈ e.keyedNames, u.contains name = true) →
    List.Forall₂ Argument.Refines (suspend ⟨u, c⟩ qs) (suspend ⟨u', c⟩ qs)
  | [], _ => by
    rw [suspend, suspend]
    exact .nil
  | q :: qs, hqs => by
    rw [Query.typesEach, List.forall_mem_append] at hqs
    rw [suspend, suspend]
    exact .cons (evaluate_refines hu q hqs.1) (suspend_refines hu qs hqs.2)

end

end Scope

/-! ### Texts -/

namespace Universe

variable {u u' : Universe}

/-- An alias is declared with the type of its text. -/
theorem exists_parseType_of_declare_alias {name text : String}
    (h : u.declare (.alias name text) = .ok u') :
    ∃ t, u.parseType text = .ok t ∧ u'.lookup? name = some t := by
  obtain ⟨t, ht, -, hnew, rfl⟩ := declare_eq_ok_iff.mp h
  cases ht with
  | ofText name text ht => exact ⟨t, ht, lookup?_append_self hnew⟩

/-- Further declarations change no answer. A text keeps its type and its value, if it puts no
undeclared name behind `class`, `struct`, `union` or `enum`. Whatever its own text puts there,
an alias keeps the type that this text had when the alias was declared, and so does every text
that is the name of the alias. -/
theorem declareAll_keeps_answers {ds : List Declaration} (h : u.declareAll ds = .ok u') :
    (∀ text t, u.DeclaresKeyed text → u.parseType text = .ok t → u'.parseType text = .ok t) ∧
    (∀ text v, u.DeclaresKeyedInQuery text → (Scope.ofUniverse u).evaluateText text = .ok v →
      (Scope.ofUniverse u').evaluateText text = .ok v) ∧
    ∀ (u₀ : Universe) (name text₀ : String), u₀.declare (.alias name text₀) = .ok u →
      ∃ t, u₀.parseType text₀ = .ok t ∧ u'.lookup? name = some t ∧
        ∀ text, NamesIdentifier text name → u'.parseType text = .ok t := by
  have hu := ExtendedBy.of_declareAll h
  refine ⟨fun text t htext => hu.parseType htext t, fun text v htext hv => ?_, ?_⟩
  · obtain ⟨q, hq, hv⟩ := except_bind_eq_ok.mp hv
    exact except_bind_eq_ok.mpr ⟨q, hq, Scope.evaluate_refines hu q (htext q hq) v hv⟩
  · intro u₀ name text halias
    obtain ⟨t, ht, hlookup⟩ := exists_parseType_of_declare_alias halias
    -- An alias is looked up with the type of its text, and is never declared again.
    have hkept := hu name t hlookup
    exact ⟨t, ht, hkept, fun _ hname => (parseType_eq_ok_iff_of_namesIdentifier hname).mpr hkept⟩

/-- A class, an alias of it with `const`, and then a union with an alias that uses all of them.
The branch that is not chosen names the union before it is declared. -/
theorem declareAll_keeps_answers_of_alias :
    let u₀ := (empty.attempt (.ofClass "w")).attempt (.ofEnum "color" true .int)
    let u := u₀.attempt (.alias "cw" "const w")
    let ds := [.ofUnion "v", .alias "fn" "cw*(v, color)"]
    let u' : Universe := (u.attempt (.ofUnion "v")).attempt (.alias "fn" "cw*(v, color)")
    let cw := Descriptor.classType ⟨"w", false⟩ .const
    let color := Descriptor.enumType ⟨"color", true, .int⟩ .none
    u.declareAll ds = .ok u' ∧ u'.size = 5 ∧
      u'.parseType "enum class color (struct cw&)" = .ok (.function color [.lvalueRef cw] false) ∧
      (Scope.ofUniverse u').evaluateText "conditional<is_const<cw>, class w cw::*, v&>" =
        .ok (.type (.memberPointer ⟨"w", false⟩ (.ofClass "w") .none)) ∧
      u'.parseType "cw" = .ok cw := by
  intro u₀ u ds u' cw color
  have h : u.declareAll ds = .ok u' := by decide +kernel
  obtain ⟨htype, hvalue, halias⟩ := declareAll_keeps_answers h
  have hcw : NamesIdentifier "cw" "cw" := ⟨⟨0, 2⟩, 2, by decide +kernel⟩
  refine ⟨h, by decide +kernel, ?_, ?_, ?_⟩
  · exact htype _ _ (by decide +kernel) (by decide +kernel)
  · exact hvalue _ _ (by decide +kernel) (by decide +kernel)
  · obtain ⟨t, ht, -, hname⟩ := halias u₀ "cw" "const w" (by decide +kernel)
    have hconst : u₀.parseType "const w" = .ok cw := by decide +kernel
    obtain rfl : t = cw := Except.ok.inj (ht.symm.trans hconst)
    exact hname "cw" hcw

end Universe

end TypeTraits
