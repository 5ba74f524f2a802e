import Mathlib.Data.List.Forall2
import TypeTraits.Proofs.Support.List

/-!
# `TypeTraits.Proofs.Support.Except`: computations that may fail, taken apart

Most functions of the library end in `Except`. A successful run of two of them in
sequence is a successful run of each (`except_bind_eq_ok`), and a list of
successful runs gives one result an element (`mapM_eq_ok_iff`). These equations
are how the proofs open a `do` block.

`Refines x y` compares two computations: `y` comes to what `x` comes to, and where `x`
fails `y` may do anything. Sequences of compared parts are compared (`Refines.bind`).

`OnError P x` speaks about the other outcome: where `x` fails, its error has the property
`P`. A sequence fails where one of its parts does (`OnError.bind`).
-/

set_option autoImplicit false

namespace TypeTraits

universe u v w

variable {ε : Type u} {α β : Type v}

/-- A sequence succeeds with what its second part makes of the first part's value. -/
theorem except_bind_eq_ok {x : Except ε α} {f : α → Except ε β} {b : β} :
    (x >>= f) = .ok b ↔ ∃ a, x = .ok a ∧ f a = .ok b := by
  cases x with
  | error e => exact ⟨fun h => (nomatch h), fun ⟨_, h, _⟩ => (nomatch h)⟩
  | ok a => exact ⟨fun h => ⟨a, rfl, h⟩, fun ⟨_, h, hf⟩ => by cases h; exact hf⟩

/-- What follows a success goes on with its value. -/
@[simp] theorem except_bind_ok (a : α) (f : α → Except ε β) : (Except.ok a >>= f) = f a := rfl

/-- What follows a failure is not done. -/
@[simp] theorem except_bind_error (e : ε) (f : α → Except ε β) :
    (Except.error e >>= f) = .error e := rfl

/-- Nothing to do is a success. -/
@[simp] theorem except_pure (a : α) : (pure a : Except ε α) = .ok a := rfl

/-- A sequence fails where its first part does, or behind it where its second part does. -/
theorem except_bind_eq_error {x : Except ε α} {f : α → Except ε β} {e : ε} :
    (x >>= f) = .error e ↔ x = .error e ∨ ∃ a, x = .ok a ∧ f a = .error e := by
  cases x with
  | error e' => simp
  | ok a => simp

/-- Behind a first part, only what is made of its value matters. -/
theorem except_bind_congr {x : Except ε α} {f g : α → Except ε β}
    (h : ∀ a, x = .ok a → f a = g a) : (x >>= f) = (x >>= g) := by
  cases x with
  | error e => rfl
  | ok a => exact h a rfl

/-- A success has a value. -/
theorem except_isOk_iff {x : Except ε α} : x.isOk = true ↔ ∃ a, x = .ok a := by
  cases x <;> simp [Except.isOk, Except.toBool]

/-- A mapped computation succeeds with the image of what it succeeds with. -/
theorem except_map_eq_ok {x : Except ε α} {f : α → β} {b : β} :
    x.map f = .ok b ↔ ∃ a, x = .ok a ∧ f a = b := by
  cases x with
  | error e => exact ⟨fun h => (nomatch h), fun ⟨_, h, _⟩ => (nomatch h)⟩
  | ok a => exact ⟨fun h => ⟨a, rfl, Except.ok.inj h⟩, fun ⟨_, h, hf⟩ => by cases h; rw [← hf]; rfl⟩

/-- And it fails where the computation does. -/
theorem except_map_eq_error {x : Except ε α} {f : α → β} {e : ε} :
    x.map f = .error e ↔ x = .error e := by
  cases x with
  | error e' => simp [Except.map]
  | ok a => simp [Except.map]

/-- So does what is left when failures are forgotten. -/
theorem except_toOption_eq_some {x : Except ε α} {a : α} : x.toOption = some a ↔ x = .ok a := by
  cases x <;> simp [Except.toOption]

/-- A run over a list succeeds exactly when the run of each element does, with the list
of the results. -/
theorem mapM_eq_ok_iff {γ : Type w} {f : γ → Except ε α} {xs : List γ} {ys : List α} :
    xs.mapM f = .ok ys ↔ List.Forall₂ (fun x y => f x = .ok y) xs ys := by
  induction xs generalizing ys with
  | nil =>
    rw [List.mapM_nil, except_pure]
    constructor
    · intro h
      cases h
      exact .nil
    · intro h
      cases h
      rfl
  | cons x xs ih =>
    rw [List.mapM_cons, except_bind_eq_ok]
    simp only [except_bind_eq_ok, except_pure, Except.ok.injEq, ih]
    constructor
    · rintro ⟨y, hy, zs, hzs, rfl⟩
      exact .cons hy hzs
    · intro h
      cases h with
      | cons hy hzs => exact ⟨_, hy, _, hzs, rfl⟩

/-- Where the run of an element fails just for some kind of elements, the run over a list fails
for the first of this kind. -/
theorem mapM_eq_of_fails {γ : Type w} {f : γ → Except ε α} {fails : γ → Bool} {failure : γ → ε}
    {value : γ → α} {xs : List γ}
    (h : ∀ x ∈ xs, f x = if fails x then .error (failure x) else .ok (value x)) :
    xs.mapM f = match xs.find? fails with
      | some x => .error (failure x)
      | none => .ok (xs.map value) := by
  induction xs with
  | nil => rfl
  | cons x xs ih =>
    rw [List.forall_mem_cons] at h
    have hx := h.1
    rw [List.mapM_cons, List.find?_cons]
    cases hf : fails x with
    | true =>
      rw [hf, if_pos rfl] at hx
      rw [hx, except_bind_error]
    | false =>
      rw [hf, if_neg Bool.false_ne_true] at hx
      rw [hx, except_bind_ok, ih h.2]
      -- What is behind `x` decides, and `x` adds its value where nothing fails.
      cases xs.find? fails with
      | none => rfl
      | some y => rfl

/-- A run over a list fails where the run of an element does and all runs in front of it
succeed. -/
theorem mapM_eq_error_iff {γ : Type} {f : γ → Except ε α} {xs : List γ} {e : ε} :
    xs.mapM f = .error e ↔ ∃ before x behind, xs = before ++ x :: behind ∧
      (∀ y ∈ before, ∃ a, f y = .ok a) ∧ f x = .error e := by
  induction xs with
  | nil => simp
  | cons x xs ih =>
    rw [List.mapM_cons, exists_split_cons, except_bind_eq_error]
    simp only [List.not_mem_nil, false_implies, implies_true, true_and, List.forall_mem_cons]
    -- The first element fails, or it has a result and one behind it fails.
    refine or_congr_right ?_
    constructor
    · rintro ⟨a, ha, h⟩
      rcases except_bind_eq_error.mp h with h | ⟨as, -, h⟩
      · obtain ⟨before, y, behind, rfl, hbefore, hy⟩ := ih.mp h
        exact ⟨before, y, behind, rfl, ⟨⟨a, ha⟩, hbefore⟩, hy⟩
      · exact nomatch h
    · rintro ⟨before, y, behind, rfl, ⟨⟨a, ha⟩, hbefore⟩, hy⟩
      have hbehind := ih.mpr ⟨before, y, behind, rfl, hbefore, hy⟩
      exact ⟨a, ha, except_bind_eq_error.mpr (.inl hbehind)⟩

/-- A fold fails where a step does that the steps in front of it lead to. -/
theorem foldlM_eq_error_iff {γ : Type} {f : α → γ → Except ε α} {xs : List γ} {a : α} {e : ε} :
    xs.foldlM f a = .error e ↔ ∃ before x behind, xs = before ++ x :: behind ∧
      ∃ b, before.foldlM f a = .ok b ∧ f b x = .error e := by
  induction xs generalizing a with
  | nil => simp
  | cons x xs ih =>
    rw [List.foldlM_cons, exists_split_cons, except_bind_eq_error]
    simp only [List.foldlM_nil, List.foldlM_cons, except_pure, Except.ok.injEq, exists_eq_left', ih,
      except_bind_eq_ok]
    -- The first step fails, or it leads to a value from which a later one fails.
    refine or_congr_right ?_
    constructor
    · rintro ⟨b, hb, before, y, behind, rfl, c, hc, hy⟩
      exact ⟨before, y, behind, rfl, c, ⟨b, hb, hc⟩, hy⟩
    · rintro ⟨before, y, behind, rfl, c, ⟨b, hb, hc⟩, hy⟩
      exact ⟨b, hb, before, y, behind, rfl, c, hc, hy⟩

/-- Each member of the second list has its partner in the first. -/
theorem exists_mem_of_forall₂ {α : Type u} {β : Type v} {R : α → β → Prop} {xs : List α}
    {ys : List β} (h : List.Forall₂ R xs ys) {y : β} (hy : y ∈ ys) : ∃ x ∈ xs, R x y := by
  induction h with
  | nil => exact nomatch hy
  | cons hR _ ih =>
    rcases List.mem_cons.mp hy with rfl | hy
    · exact ⟨_, List.mem_cons_self, hR⟩
    · obtain ⟨x, hx, hR⟩ := ih hy
      exact ⟨x, List.mem_cons_of_mem _ hx, hR⟩

/-! ### Computations that succeed at least as often -/

/-- Where the first computation succeeds, the second one does, with the same value. -/
def Refines (x y : Except ε α) : Prop := ∀ a, x = .ok a → y = .ok a

namespace Refines

variable {x y : Except ε α}

/-- A computation succeeds as often as it does. -/
theorem refl (x : Except ε α) : Refines x x := fun _ h => h

/-- Anything may stand in for a failure. -/
theorem error (e : ε) (y : Except ε α) : Refines (.error e) y := nofun

/-- It is so for one computation after another. -/
theorem bind {f g : α → Except ε β} (h : Refines x y) (hfg : ∀ a, Refines (f a) (g a)) :
    Refines (x >>= f) (y >>= g) := by
  intro b hb
  obtain ⟨a, ha, hf⟩ := except_bind_eq_ok.mp hb
  exact except_bind_eq_ok.mpr ⟨a, h a ha, hfg a b hf⟩

/-- It is so for what is made of the value. -/
theorem map (h : Refines x y) (f : α → β) : Refines (x.map f) (y.map f) := by
  intro b hb
  obtain ⟨a, ha, hf⟩ := except_map_eq_ok.mp hb
  exact except_map_eq_ok.mpr ⟨a, h a ha, hf⟩

end Refines

/-! ### What an error is like -/

/-- Where the computation fails, its error has the property. -/
def OnError (P : ε → Prop) (x : Except ε α) : Prop := ∀ e, x = .error e → P e

namespace OnError

variable {P Q : ε → Prop} {x : Except ε α}

/-- A success has no error. -/
theorem ok (a : α) : OnError P (.ok a) := nofun

/-- The error of a failure is the one that it is made of. -/
theorem error {e : ε} (h : P e) : OnError P (.error e : Except ε α) := by
  rintro _ ⟨⟩
  exact h

/-- What is true of an error implies what follows from it. -/
theorem mono (h : OnError P x) (hPQ : ∀ e, P e → Q e) : OnError Q x := fun e he => hPQ e (h e he)

/-- The second part is only run with what the first one comes to. -/
theorem bind {f : α → Except ε β} (h : OnError P x) (hf : ∀ a, x = .ok a → OnError P (f a)) :
    OnError P (x >>= f) := by
  cases x with
  | error e => exact .error (h e rfl)
  | ok a => exact hf a rfl

/-- What is made of the value does not change the error. -/
theorem map (h : OnError P x) (f : α → β) : OnError P (x.map f) := by
  cases x with
  | error e => exact .error (h e rfl)
  | ok a => exact .ok (f a)

/-- A fold fails where one of its steps does. -/
theorem foldlM {γ : Type w} {f : α → γ → Except ε α} {xs : List γ}
    (h : ∀ x ∈ xs, ∀ a, OnError P (f a x)) (a : α) : OnError P (xs.foldlM f a) := by
  induction xs generalizing a with
  | nil => exact .ok a
  | cons x xs ih =>
    rw [List.forall_mem_cons] at h
    rw [List.foldlM_cons]
    exact (h.1 a).bind fun b _ => ih h.2 b

end OnError

end TypeTraits
