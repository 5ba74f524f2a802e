import Mathlib.Data.List.Induction
import Mathlib.Data.List.Nodup

/-!
# `TypeTraits.Proofs.Support.List`: the elements of a list and what is in front of them

Declarations and definitions may use what is in front of them and nothing else. What is asked of a
list is then asked of every way to split it at an element, `xs = before ++ x :: behind`. The lemmas
say what one more element at either end adds to it.
-/

set_option autoImplicit false

namespace TypeTraits

variable {α : Type} {P : List α → α → Prop} {xs : List α}

/-- An element has a property in the light of those in front, for each element of a list: the first
one with nothing in front, and the others with the first one in front as well. -/
theorem forall_split_cons {x : α} :
    (∀ before y behind, x :: xs = before ++ y :: behind → P before y) ↔
      P [] x ∧ ∀ before y behind, xs = before ++ y :: behind → P (x :: before) y := by
  constructor
  · intro h
    exact ⟨h [] x xs rfl, fun before y behind hxs => h (x :: before) y behind (by rw [hxs]; rfl)⟩
  · rintro ⟨hx, hxs⟩ before y behind h
    -- `y` is the first element, or it is behind it.
    cases before with
    | nil =>
      cases h
      exact hx
    | cons z before =>
      cases h
      exact hxs before y behind rfl

/-- The same for some element. -/
theorem exists_split_cons {x : α} :
    (∃ before y behind, x :: xs = before ++ y :: behind ∧ P before y) ↔
      P [] x ∨ ∃ before y behind, xs = before ++ y :: behind ∧ P (x :: before) y := by
  constructor
  · rintro ⟨before, y, behind, h, hy⟩
    cases before with
    | nil =>
      cases h
      exact .inl hy
    | cons z before =>
      cases h
      exact .inr ⟨before, y, behind, rfl, hy⟩
  · rintro (hx | ⟨before, y, behind, rfl, hy⟩)
    · exact ⟨[], x, xs, rfl, hx⟩
    · exact ⟨x :: before, y, behind, rfl, hy⟩

/-- For each element of a list and one more: the last one has all others in front. -/
theorem forall_split_concat {x : α} :
    (∀ before y behind, xs ++ [x] = before ++ y :: behind → P before y) ↔
      (∀ before y behind, xs = before ++ y :: behind → P before y) ∧ P xs x := by
  constructor
  · intro h
    exact ⟨fun before y behind hxs => h before y (behind ++ [x]) (by simp [hxs]), h xs x [] rfl⟩
  · rintro ⟨hxs, hx⟩ before y behind h
    -- The split is at `x`, or in front of it.
    rcases List.eq_nil_or_concat behind with rfl | ⟨behind, z, rfl⟩
    · obtain ⟨rfl, rfl⟩ := List.append_singleton_inj.mp h
      exact hx
    · rw [List.concat_eq_append, ← List.cons_append, ← List.append_assoc] at h
      obtain ⟨rfl, rfl⟩ := List.append_singleton_inj.mp h
      exact hxs before y behind rfl

/-- Where names are apart, each entry is the first of its name. -/
theorem find?_name_eq_some (name : α → String) {table : List α} (h : (table.map name).Nodup) {a : α}
    (ha : a ∈ table) : table.find? (name · == name a) = some a := by
  obtain ⟨b, hb⟩ : ∃ b, table.find? (name · == name a) = some b := by
    rw [← Option.isSome_iff_exists, List.find?_isSome]
    exact ⟨a, ha, beq_self_eq_true _⟩
  have hname : name b = name a := by simpa using List.find?_some hb
  rw [hb, List.inj_on_of_nodup_map h (List.mem_of_find?_eq_some hb) ha hname]

end TypeTraits
