import TypeTraits.Proofs.Universe.Invariant

/-!
# `TypeTraits.Proofs.Universe.Collapse`: references to references

There is no reference to a reference. Where one is asked for, the two collapse into one,
which is an rvalue reference only if both are. The rule is written down as formation
(`Descriptor.lvalueRefTo`, `Descriptor.rvalueRefTo`), it is behind the transformations that add
references, and elaboration meets it at each `&` and `&&` of a declarator.

`ReferenceKind.references_collapse` says what a sequence of references comes to in all three
places: one reference to what is behind the first one, whatever the order
(`ReferenceKind.collapsed`). There are no references to `void`, so each of them is refused
there, and nothing is added.
-/

set_option autoImplicit false

namespace TypeTraits

/-- The two kinds of references. -/
inductive ReferenceKind where
  | lvalue
  | rvalue
deriving DecidableEq, Repr

namespace ReferenceKind

/-- The reference to a type, as it is formed. -/
def form : ReferenceKind → Descriptor → Except IllFormed Descriptor
  | lvalue => Descriptor.lvalueRefTo
  | rvalue => Descriptor.rvalueRefTo

/-- The transformation that adds the reference. -/
def add : ReferenceKind → Descriptor → Descriptor
  | lvalue => Descriptor.addLvalueReference
  | rvalue => Descriptor.addRvalueReference

/-- The operator that stands for the reference in a declarator. -/
def operator : ReferenceKind → PointerKind
  | lvalue => .lvalueRef
  | rvalue => .rvalueRef

/-- The one reference that references to a type collapse to. -/
def collapsed (ks : List ReferenceKind) (t : Descriptor) : Descriptor :=
  if t.isLvalueReference = true ∨ lvalue ∈ ks then .lvalueRef t.removeReference
  else .rvalueRef t.removeReference

section
variable (k : ReferenceKind) (ks : List ReferenceKind) {t : Descriptor}

/-- A type that references have collapsed to is not `void`. -/
theorem isVoid_collapsed (t : Descriptor) : (collapsed ks t).isVoid = false := by
  unfold collapsed
  split <;> rfl

/-- References to a collapsed one collapse with it. -/
theorem collapsed_collapsed (js : List ReferenceKind) (t : Descriptor) :
    collapsed ks (collapsed js t) = collapsed (js ++ ks) t := by
  by_cases hl : t.isLvalueReference = true ∨ lvalue ∈ js
  · have hl' : t.isLvalueReference = true ∨ lvalue ∈ js ++ ks :=
      hl.imp_right (List.mem_append_left ks)
    simp only [collapsed, if_pos hl, if_pos hl']
    rfl
  · have hr : collapsed js t = .rvalueRef t.removeReference := if_neg hl
    have hiff : (false = true ∨ lvalue ∈ ks) ↔ t.isLvalueReference = true ∨ lvalue ∈ js ++ ks := by
      simp only [not_or] at hl
      simp [hl.1, hl.2]
    rw [hr]
    exact if_congr hiff rfl rfl

/-! ### Formation -/

/-- A reference to a type that is not `void` is formed, and it collapses with the type. -/
theorem form_eq_ok (hv : t.isVoid = false) : k.form t = .ok (collapsed [k] t) := by
  cases k with
  | lvalue =>
    refine Descriptor.lvalueRefTo_eq_ok_iff.mpr ⟨hv, ?_⟩
    exact if_pos (.inr List.mem_cons_self)
  | rvalue =>
    refine Descriptor.rvalueRefTo_eq_ok_iff.mpr ⟨hv, ?_⟩
    cases t <;> rfl

/-- A reference to `void` is refused, whichever it is. -/
theorem form_eq_error (hv : t.isVoid = true) : k.form t = .error (.referenceTo t) := by
  obtain ⟨q, rfl⟩ := Descriptor.isVoid_iff.mp hv
  cases k <;> rfl

/-- Each reference is formed to what the ones in front of it have collapsed to. -/
theorem foldlM_form (hks : ks ≠ []) (hv : t.isVoid = false) :
    ks.foldlM (fun t k => k.form t) t = .ok (collapsed ks t) := by
  induction ks generalizing t with
  | nil => exact absurd rfl hks
  | cons k ks ih =>
    rw [List.foldlM_cons, form_eq_ok k hv, except_bind_ok]
    cases ks with
    | nil => rfl
    | cons j ks =>
      rw [ih (List.cons_ne_nil j ks) (isVoid_collapsed [k] t), collapsed_collapsed,
        List.singleton_append]

/-! ### Transformations and declarators -/

/-- To add a reference is to form one, or to leave the type as it is. -/
theorem add_eq_orIdentity (t : Descriptor) : k.add t = Attempt.orIdentity (k.form t) t := by
  cases k <;> rfl

/-- What is formed step by step is added step by step. -/
theorem foldl_add_of_foldlM_form {u : Descriptor} (h : ks.foldlM (fun t k => k.form t) t = .ok u) :
    ks.foldl (fun t k => k.add t) t = u := by
  induction ks generalizing t with
  | nil => exact Except.ok.inj h
  | cons k ks ih =>
    obtain ⟨s, (hs : k.form t = .ok s), hu⟩ := except_bind_eq_ok.mp h
    rw [List.foldl_cons, add_eq_orIdentity, hs]
    exact ih hu

/-- References are added to `void` in vain, any number of them. -/
theorem foldl_add_of_isVoid (hv : t.isVoid = true) : ks.foldl (fun t k => k.add t) t = t := by
  induction ks with
  | nil => rfl
  | cons k ks ih =>
    rw [List.foldl_cons, add_eq_orIdentity, form_eq_error k hv]
    exact ih

/-- An operator that stands for a reference forms it, and is blamed if there is none. -/
theorem applyOp_eq_formedAt (u : Universe) {op : PointerOp} (h : op.kind = k.operator)
    (t : Descriptor) : u.applyOp t op = formedAt op.span (k.form t) := by
  unfold Universe.applyOp
  rw [h]
  cases k <;> rfl

/-- What is formed step by step is what operators make that stand for the steps. -/
theorem foldlM_applyOp_of_foldlM_form (u : Universe) {ops : List PointerOp}
    (hops : ops.map (·.kind) = ks.map operator) {r : Descriptor}
    (h : ks.foldlM (fun t k => k.form t) t = .ok r) : ops.foldlM u.applyOp t = .ok r := by
  induction ks generalizing ops t with
  | nil =>
    rw [List.map_eq_nil_iff.mp hops]
    exact congrArg Except.ok (Except.ok.inj h)
  | cons k ks ih =>
    obtain ⟨op, ops, rfl, hop, hops⟩ := List.map_eq_cons_iff.mp hops
    obtain ⟨s, hs, hr⟩ := except_bind_eq_ok.mp h
    rw [List.foldlM_cons, applyOp_eq_formedAt k u hop, formedAt_eq_ok_iff.mpr hs, except_bind_ok]
    exact ih hops hr

/-- References to a type that is not `void` are all formed, and come to one reference to what is
behind the first one: an lvalue reference if one of them is, or the type itself. The
transformations add what is formed, and a declarator of the same references comes to the same
on every specifier of the type. To `void`, with any qualifiers, no reference is formed, and
the transformations leave it as it is. -/
theorem references_collapse (ks : List ReferenceKind) (t : Descriptor) :
    (t.isVoid = false →
      (∀ k : ReferenceKind, k.form t = .ok (k.add t)) ∧
      (ks ≠ [] →
        ks.foldlM (fun t k => k.form t) t = .ok (collapsed ks t) ∧
        ks.foldl (fun t k => k.add t) t = collapsed ks t ∧
        ∀ (u : Universe) (s : Specifier) (ops : List PointerOp) (span : Span),
          u.elaborateSpecifier s = .ok t → ops.map (·.kind) = ks.map operator →
          u.elaborate (.mk s (.flat ops []) span) = .ok (collapsed ks t))) ∧
    (t.isVoid = true →
      (∀ k : ReferenceKind, k.form t = .error (.referenceTo t)) ∧
      ks.foldl (fun t k => k.add t) t = t) := by
  constructor
  · intro hv
    refine ⟨fun k => ?_, fun hks => ?_⟩
    · rw [add_eq_orIdentity, form_eq_ok k hv]
      rfl
    -- What is formed says what is added and what operators make, step by step.
    · have hform := foldlM_form ks hks hv
      refine ⟨hform, foldl_add_of_foldlM_form ks hform, fun u s ops span hs hops => ?_⟩
      simp only [Universe.elaborate, Universe.applyDeclarator, Universe.applySuffixes]
      rw [hs, except_bind_ok, foldlM_applyOp_of_foldlM_form ks u hops hform, except_bind_ok]
  · intro hv
    exact ⟨fun k => form_eq_error k hv, foldl_add_of_isVoid ks hv⟩

end

/-- `table && & &&`, where `table` is declared as an rvalue reference to an array, is an lvalue
reference to the array, in whichever way it is built. -/
theorem references_collapse_of_alias :
    let rows := Descriptor.array .int none .const
    let u : Universe := ⟨[("table", .rvalueRef rows)]⟩
    let s : Specifier := ⟨.named "table", .none, ⟨0, 5⟩⟩
    let ops : List PointerOp :=
      [⟨.rvalueRef, ⟨6, 8⟩⟩, ⟨.lvalueRef, ⟨9, 10⟩⟩, ⟨.rvalueRef, ⟨11, 13⟩⟩]
    let ks := [rvalue, lvalue, rvalue]
    u.elaborateSpecifier s = .ok (.rvalueRef rows) ∧
      ks.foldlM (fun t k => k.form t) (.rvalueRef rows) = .ok (.lvalueRef rows) ∧
      ks.foldl (fun t k => k.add t) (.rvalueRef rows) = .lvalueRef rows ∧
      u.elaborate (.mk s (.flat ops []) ⟨0, 13⟩) = .ok (.lvalueRef rows) ∧
      ks.foldl (fun t k => k.add t) (.void .cv) = .void .cv := by
  intro rows u s ops ks
  have hs : u.elaborateSpecifier s = .ok (.rvalueRef rows) := rfl
  obtain ⟨hrows, -⟩ := references_collapse ks (.rvalueRef rows)
  obtain ⟨-, hcollapse⟩ := hrows rfl
  obtain ⟨hform, hadd, helaborate⟩ := hcollapse (List.cons_ne_nil _ _)
  obtain ⟨-, hvoid⟩ := references_collapse ks (.void .cv)
  exact ⟨hs, hform, hadd, helaborate u s ops ⟨0, 13⟩ hs rfl, (hvoid rfl).2⟩

end ReferenceKind

end TypeTraits
