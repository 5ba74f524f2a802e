import TypeTraits.Proofs.TypeId.Grammar

/-!
# `TypeTraits.Proofs.TypeId.Leaves`: what a written type takes from elsewhere

The type that a tree stands for depends on what is around the tree only through its
leaves: the bases of its specifiers, the classes of its member pointers and the bounds
of its arrays, those in parameters included. Leaves have no places, so they stay as
they are when spans change.

* `TypeId.leaves`: the leaves of a tree.
* `Grammar.IsType.leaves_foundIn`: names in leaves are symbols, and bounds are sizes.
-/

set_option autoImplicit false

namespace TypeTraits

/-- What a written type takes from elsewhere. -/
inductive TypeId.Leaf where
  | base (b : Base)
  /-- The name of the class of a member pointer. -/
  | owner (name : String)
  /-- What the brackets of an array hold. -/
  | bound (n : Option Nat)
deriving DecidableEq, Repr

/-- The leaves of operators. -/
def PointerOp.leavesEach (ops : List PointerOp) : List TypeId.Leaf :=
  ops.filterMap fun op => match op.kind with
    | .member owner _ => some (.owner owner)
    | _ => none

mutual

/-- The leaves of a type. -/
def TypeId.leaves : TypeId → List TypeId.Leaf
  | .mk s d _ => .base s.base :: d.leaves

/-- The leaves of a declarator. -/
def Declarator.leaves : Declarator → List TypeId.Leaf
  | .flat ops suffixes => PointerOp.leavesEach ops ++ Suffix.leavesEach suffixes
  | .nested ops inner suffixes =>
    PointerOp.leavesEach ops ++ (inner.leaves ++ Suffix.leavesEach suffixes)

/-- The leaves of a suffix. -/
def Suffix.leaves : Suffix → List TypeId.Leaf
  | .array n _ => [.bound n]
  | .function params _ _ => TypeId.leavesEach params

/-- The leaves of suffixes. -/
def Suffix.leavesEach : List Suffix → List TypeId.Leaf
  | [] => []
  | s :: ss => s.leaves ++ Suffix.leavesEach ss

/-- The leaves of types. -/
def TypeId.leavesEach : List TypeId → List TypeId.Leaf
  | [] => []
  | t :: ts => t.leaves ++ TypeId.leavesEach ts

end

/-- The leaves of operators are those of each one, in this order. -/
theorem PointerOp.leavesEach_cons (op : PointerOp) (ops : List PointerOp) :
    leavesEach (op :: ops) = leavesEach [op] ++ leavesEach ops :=
  List.filterMap_append (l := [op])

/-! ### Leaves and places -/

/-- An operator keeps its leaf with another span. -/
theorem PointerOp.leavesEach_map_mapSpan (f : Span → Span) (ops : List PointerOp) :
    leavesEach (ops.map (·.mapSpan f)) = leavesEach ops := by
  rw [leavesEach, List.filterMap_map]
  rfl

mutual

/-- Other spans, same leaves. -/
theorem TypeId.leaves_mapSpans (f : Span → Span) : ∀ t : TypeId, (t.mapSpans f).leaves = t.leaves
  | .mk s d _ => by
    rw [TypeId.mapSpans, TypeId.leaves, TypeId.leaves, Declarator.leaves_mapSpans f d]
    rfl

/-- So does a declarator. -/
theorem Declarator.leaves_mapSpans (f : Span → Span) :
    ∀ d : Declarator, (d.mapSpans f).leaves = d.leaves
  | .flat ops suffixes => by
    rw [Declarator.mapSpans, Declarator.leaves, Declarator.leaves, PointerOp.leavesEach_map_mapSpan,
      Suffix.leavesEach_mapSpansEach f suffixes]
  | .nested ops inner suffixes => by
    rw [Declarator.mapSpans, Declarator.leaves, Declarator.leaves, PointerOp.leavesEach_map_mapSpan,
      Declarator.leaves_mapSpans f inner, Suffix.leavesEach_mapSpansEach f suffixes]

/-- So does a suffix. -/
theorem Suffix.leaves_mapSpans (f : Span → Span) : ∀ s : Suffix, (s.mapSpans f).leaves = s.leaves
  | .array _ _ => rfl
  | .function params _ _ => TypeId.leavesEach_mapSpansEach f params

/-- So do all suffixes of a declarator. -/
theorem Suffix.leavesEach_mapSpansEach (f : Span → Span) :
    ∀ ss : List Suffix, Suffix.leavesEach (Suffix.mapSpansEach f ss) = Suffix.leavesEach ss
  | [] => rfl
  | s :: ss => by
    rw [Suffix.mapSpansEach, Suffix.leavesEach, Suffix.leavesEach, Suffix.leaves_mapSpans f s,
      Suffix.leavesEach_mapSpansEach f ss]

/-- So do all types of a list. -/
theorem TypeId.leavesEach_mapSpansEach (f : Span → Span) :
    ∀ ts : List TypeId, TypeId.leavesEach (TypeId.mapSpansEach f ts) = TypeId.leavesEach ts
  | [] => rfl
  | t :: ts => by
    rw [TypeId.mapSpansEach, TypeId.leavesEach, TypeId.leavesEach, TypeId.leaves_mapSpans f t,
      TypeId.leavesEach_mapSpansEach f ts]

end

/-! ### Leaves and symbols -/

/-- The name in a base. -/
def Base.name? : Base → Option String
  | named name | ofClass name | ofUnion name | ofEnum name _ _ => some name
  | _ => none

/-- The names in the leaf are among the symbols, and its bound is a size. -/
def TypeId.Leaf.FoundIn (ss : List Symbol) : TypeId.Leaf → Prop
  | base b => ∀ name, b.name? = some name → .identifier name ∈ ss
  | owner name => .identifier name ∈ ss
  | bound n => ∀ m, n = some m → m < sizeLimit

namespace TypeId.Leaf.FoundIn

variable {ss ss' : List Symbol} {l : TypeId.Leaf}

/-- More symbols do no harm. -/
theorem mono (h : l.FoundIn ss) (hss : ∀ s ∈ ss, s ∈ ss') : l.FoundIn ss' := by
  cases l with
  | base b => exact fun name hname => hss _ (h name hname)
  | owner name => exact hss _ h
  | bound n => exact h

/-- What is found in the symbols in front is found in all of them. -/
theorem append_left (h : l.FoundIn ss) : l.FoundIn (ss ++ ss') :=
  h.mono fun _ => List.mem_append_left _

/-- So is what is found in those behind. -/
theorem append_right (h : l.FoundIn ss) : l.FoundIn (ss' ++ ss) :=
  h.mono fun _ => List.mem_append_right _

/-- And so is what is found behind a first symbol. -/
theorem cons {s : Symbol} (h : l.FoundIn ss) : l.FoundIn (s :: ss) :=
  h.mono fun _ => List.mem_cons_of_mem _

end TypeId.Leaf.FoundIn

namespace Grammar

/-- The name in a base is one of its symbols. -/
theorem IsBase.foundIn {ss : List Symbol} {b : Base} (h : IsBase ss b) :
    (TypeId.Leaf.base b).FoundIn ss := by
  cases h <;> intro name hname <;> cases hname <;> simp

/-- A base is found where its specifier is. -/
theorem IsSpecifier.base_foundIn {ss : List Symbol} {s : Specifier} (h : IsSpecifier ss s) :
    (TypeId.Leaf.base s.base).FoundIn ss := by
  cases h with
  | arithmetic _ _ => exact fun _ hname => nomatch hname
  | other _ hb _ => exact hb.foundIn.append_right.append_left

/-- The class in a member pointer is among the symbols of the operators. -/
theorem IsOps.leaves_foundIn {ss : List Symbol} {ops : List PointerOp} (h : IsOps ss ops) :
    ∀ l ∈ PointerOp.leavesEach ops, l.FoundIn ss := by
  induction h with
  | nil => exact fun _ hl => nomatch hl
  | cons hop _ ih =>
    rw [PointerOp.leavesEach_cons, List.forall_mem_append]
    refine ⟨fun l hl => ?_, fun l hl => (ih l hl).append_right⟩
    cases hop with
    | member _ =>
      cases List.mem_singleton.mp hl
      exact List.mem_append_left _ List.mem_cons_self
    | _ => exact nomatch hl

/-- A bound is the size that a literal says. -/
theorem IsBound.foundIn {ss : List Symbol} {n : Option Nat} (h : IsBound ss n) :
    (TypeId.Leaf.bound n).FoundIn ss := by
  cases h with
  | unknown => exact fun _ hm => nomatch hm
  | known hlt =>
    intro m hm
    cases hm
    exact hlt

mutual

/-- The names in the leaves of a derived type are symbols, and its bounds are sizes. -/
theorem IsType.leaves_foundIn : ∀ {ss : List Symbol} {t : TypeId}, IsType ss t →
    ∀ l ∈ t.leaves, l.FoundIn ss
  | _, _, .mk hs hd => by
    rw [TypeId.leaves, List.forall_mem_cons]
    exact ⟨hs.base_foundIn.append_left, fun l hl => (hd.leaves_foundIn l hl).append_right⟩

/-- So it is with the leaves of a declarator. -/
theorem IsDeclarator.leaves_foundIn : ∀ {ss : List Symbol} {d : Declarator}, IsDeclarator ss d →
    ∀ l ∈ d.leaves, l.FoundIn ss
  | _, _, .flat hops hsuf => by
    rw [Declarator.leaves, List.forall_mem_append]
    exact ⟨fun l hl => (hops.leaves_foundIn l hl).append_left,
      fun l hl => (hsuf.leaves_foundIn l hl).append_right⟩
  | _, _, .nested hops hin _ hsuf => by
    rw [Declarator.leaves, List.forall_mem_append, List.forall_mem_append]
    exact ⟨fun l hl => (hops.leaves_foundIn l hl).append_left,
      fun l hl => (hin.leaves_foundIn l hl).append_left.cons.append_right,
      fun l hl => (hsuf.leaves_foundIn l hl).cons.append_right.cons.append_right⟩

/-- So it is with those of its suffixes. -/
theorem IsSuffixes.leaves_foundIn : ∀ {ss : List Symbol} {suffixes : List Suffix},
    IsSuffixes ss suffixes → ∀ l ∈ Suffix.leavesEach suffixes, l.FoundIn ss
  | _, _, .nil => fun _ hl => nomatch hl
  | _, _, .array hb hsuf => by
    rw [Suffix.leavesEach, Suffix.leaves, List.forall_mem_append, List.forall_mem_singleton]
    exact ⟨hb.foundIn.cons.append_left, fun l hl => (hsuf.leaves_foundIn l hl).cons.append_right⟩
  | _, _, .function hp hsuf => by
    rw [Suffix.leavesEach, Suffix.leaves, List.forall_mem_append]
    exact ⟨fun l hl => (hp.leaves_foundIn l hl).cons.append_left,
      fun l hl => (hsuf.leaves_foundIn l hl).cons.append_right⟩

/-- So it is with those of parameters in parentheses. -/
theorem IsParams.leaves_foundIn : ∀ {ss : List Symbol} {params : List TypeId} {v : Bool},
    IsParams ss params v → ∀ l ∈ TypeId.leavesEach params, l.FoundIn ss
  | _, _, _, .nothing | _, _, _, .void | _, _, _, .ellipsis => fun _ hl => nomatch hl
  | _, _, _, .list hts _ => hts.leaves_foundIn
  | _, _, _, .variadic hts => fun l hl => (hts.leaves_foundIn l hl).append_left

/-- And so it is with those of a list of types. -/
theorem IsTypes.leaves_foundIn : ∀ {ss : List Symbol} {ts : List TypeId}, IsTypes ss ts →
    ∀ l ∈ TypeId.leavesEach ts, l.FoundIn ss
  | _, _, .last ht => by
    rw [TypeId.leavesEach, TypeId.leavesEach, List.append_nil]
    exact ht.leaves_foundIn
  | _, _, .cons ht hts => by
    rw [TypeId.leavesEach, List.forall_mem_append]
    exact ⟨fun l hl => (ht.leaves_foundIn l hl).append_left,
      fun l hl => (hts.leaves_foundIn l hl).cons.append_right⟩

end

end Grammar

end TypeTraits
