import TypeTraits.Proofs.Support.Except
import TypeTraits.Proofs.TypeId.Complete
import TypeTraits.Universe.Elaboration

/-!
# `TypeTraits.Proofs.Universe.Layers`: declarators that grow from the inside out

A type is printed by growing a declarator around nothing: a pointer puts an
operator in front of what is there, an array or a function puts a suffix behind
it, and parentheses go around it where a suffix would bind first. The same three
steps on syntax trees are `Declarator.push`, `Declarator.behind` and a nested
declarator. Each is derived by the grammar from the symbols that it adds, and
each is applied to a type before the declarator that it grew around.

* `isDeclarator_push`, `applyDeclarator_push`: an operator in front.
* `isDeclarator_behind`, `applyDeclarator_behind`: a suffix behind.
* `isDeclarator_group`, `applyDeclarator_group`: parentheses around.
-/

set_option autoImplicit false

namespace TypeTraits

open Grammar

namespace Declarator

/-- The declarator with one more operator in front. -/
def push (op : PointerOp) : Declarator → Declarator
  | flat ops suffixes => flat (op :: ops) suffixes
  | nested ops inner suffixes => nested (op :: ops) inner suffixes

/-- The declarator with one more suffix behind. -/
def behind (s : Suffix) : Declarator → Declarator
  | flat ops suffixes => flat ops (suffixes ++ [s])
  | nested ops inner suffixes => nested ops inner (suffixes ++ [s])

/-- An operator in front is the first of the operators. -/
theorem ops_push (op : PointerOp) (d : Declarator) : (d.push op).ops = op :: d.ops := by
  cases d <;> rfl

/-- A suffix behind a declarator is no operator. -/
theorem ops_behind (s : Suffix) (d : Declarator) : (d.behind s).ops = d.ops := by
  cases d <;> rfl

end Declarator

/-! ### Derivations -/

/-- An operator in front of a declarator is one of its operators. -/
theorem isDeclarator_push {os ss : List Symbol} {k : PointerKind} {d : Declarator}
    (hop : IsOp os k) (hd : IsDeclarator ss d) :
    IsDeclarator (os ++ ss) (d.push ⟨k, default⟩) := by
  cases hd with
  | flat hops hsuf =>
    rw [← List.append_assoc]
    exact .flat (.cons hop hops) hsuf
  | nested hops hin hne hsuf =>
    rw [← List.append_assoc]
    exact .nested (.cons hop hops) hin hne hsuf

/-- Suffixes behind suffixes, by recursion on the derivation of those in front. -/
theorem isSuffixes_append : ∀ {ss ss' : List Symbol} {suffixes suffixes' : List Suffix},
    IsSuffixes ss suffixes → IsSuffixes ss' suffixes' →
    IsSuffixes (ss ++ ss') (suffixes ++ suffixes')
  | _, _, _, _, .nil, h' => h'
  | _, _, _, _, .array hb h, h' => by
    rw [List.append_assoc]
    exact .array hb (isSuffixes_append h h')
  | _, _, _, _, .function hp h, h' => by
    rw [List.append_assoc]
    exact .function hp (isSuffixes_append h h')

/-- A suffix behind a declarator is one of its suffixes. -/
theorem isDeclarator_behind {ss ss' : List Symbol} {s : Suffix} {d : Declarator}
    (hd : IsDeclarator ss d) (hs : IsSuffixes ss' [s]) : IsDeclarator (ss ++ ss') (d.behind s) := by
  cases hd with
  | flat hops hsuf =>
    rw [List.append_assoc]
    exact .flat hops (isSuffixes_append hsuf hs)
  | nested hops hin hne hsuf =>
    rw [List.append_assoc, List.cons_append, List.append_assoc, List.cons_append]
    exact .nested hops hin hne (isSuffixes_append hsuf hs)

/-- Parentheses can go around a declarator that has an operator of its own. -/
theorem isDeclarator_group {ss : List Symbol} {d : Declarator} (hd : IsDeclarator ss d)
    (hne : d.ops ≠ []) :
    IsDeclarator (.mark .leftParen :: (ss ++ [.mark .rightParen])) (.nested [] d []) :=
  .nested .nil hd hne .nil

/-- A declarator without operators of its own begins with a parenthesis or a bracket. -/
theorem Grammar.IsDeclarator.beginsSuffix {s : Symbol} {ss : List Symbol} {d : Declarator}
    (h : IsDeclarator (s :: ss) d) (hd : d.ops = []) : s.beginsSuffix = true := by
  -- The symbols are generalized, so that the derivation can be taken apart.
  generalize hss : s :: ss = ss' at h
  cases h with
  | flat hops hsuf =>
    obtain rfl := hd
    cases hops with
    | nil =>
      cases hss
      exact hsuf.head
  | nested hops _ _ _ =>
    obtain rfl := hd
    cases hops with
    | nil =>
      cases hss
      rfl

/-! ### Elaboration -/

namespace Universe

variable (u : Universe)

/-- The first operator is applied before everything else. -/
theorem applyDeclarator_push (op : PointerOp) (d : Declarator) (t : Descriptor) :
    u.applyDeclarator (d.push op) t = u.applyOp t op >>= u.applyDeclarator d := by
  cases d with
  | flat ops suffixes =>
    rw [Declarator.push, applyDeclarator, List.foldlM_cons]
    cases u.applyOp t op with
    | error e => rfl
    | ok t' => rw [except_bind_ok, except_bind_ok, applyDeclarator]
  | nested ops inner suffixes =>
    rw [Declarator.push, applyDeclarator, List.foldlM_cons]
    cases u.applyOp t op with
    | error e => rfl
    | ok t' => rw [except_bind_ok, except_bind_ok, applyDeclarator]

/-- Suffixes are applied from the last one to the first one. -/
theorem applySuffixes_append (ss ss' : List Suffix) (t : Descriptor) :
    u.applySuffixes (ss ++ ss') t = u.applySuffixes ss' t >>= u.applySuffixes ss := by
  induction ss with
  | nil =>
    rw [List.nil_append]
    cases h : u.applySuffixes ss' t with
    | error e => rfl
    | ok t' => rw [except_bind_ok, applySuffixes]
  | cons s ss ih =>
    rw [List.cons_append, applySuffixes, ih]
    cases u.applySuffixes ss' t with
    | error e => rfl
    | ok t' => rw [except_bind_ok, except_bind_ok, applySuffixes]

/-- Operators would be applied before a suffix behind them, so there must be none. -/
theorem applyDeclarator_behind {d : Declarator} (hd : d.ops = []) (s : Suffix) (t : Descriptor) :
    u.applyDeclarator (d.behind s) t = u.applySuffix s t >>= u.applyDeclarator d := by
  have hone : u.applySuffixes [s] t = u.applySuffix s t := by
    rw [applySuffixes, applySuffixes, except_bind_ok]
  cases d with
  | flat ops suffixes =>
    -- There are no operators, which would be applied in front of the suffix.
    obtain rfl := hd
    rw [Declarator.behind, applyDeclarator, List.foldlM_nil, except_pure, except_bind_ok,
      applySuffixes_append, hone]
    cases u.applySuffix s t with
    | error e => rfl
    | ok t' => rw [except_bind_ok, except_bind_ok, applyDeclarator]; rfl
  | nested ops inner suffixes =>
    obtain rfl := hd
    rw [Declarator.behind, applyDeclarator, List.foldlM_nil, except_pure, except_bind_ok,
      applySuffixes_append, hone]
    cases u.applySuffix s t with
    | error e => rfl
    | ok t' => rw [except_bind_ok, except_bind_ok, applyDeclarator]; rfl

/-- Parentheses around a declarator mean nothing. -/
theorem applyDeclarator_group (d : Declarator) (t : Descriptor) :
    u.applyDeclarator (.nested [] d []) t = u.applyDeclarator d t := by
  rw [applyDeclarator, List.foldlM_nil, except_pure, except_bind_ok, applySuffixes, except_bind_ok]

end Universe

end TypeTraits
