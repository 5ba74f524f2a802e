import Mathlib.Data.List.Perm.Basic
import TypeTraits.Descriptor.Category
import TypeTraits.Proofs.Support.Except
import TypeTraits.Selector

/-!
# `TypeTraits.Proofs.Selector`: selection counts the candidates that work

A selector runs all its candidates, and what it selects depends on the list of those that work
(`Selector.viable`) alone, except that the failure for want of candidates names all of them. The
list is cut where the candidates are (`viable_append`), is permuted when they are (`viable_perm`),
and has the names of the candidates that work (`map_name_viable`). So a selection can be told from
how many there are.

* `Selector.selects_the_only_viable`: the three results, each with the condition for it; no
  candidate is passed over; and neither the order of the candidates nor one that does not work has
  a part in what is selected.
-/

set_option autoImplicit false

namespace TypeTraits

variable {σ α : Type}

/-- What is left of an attempt is its value. -/
theorem Attempt.resolve_eq_some_iff {a : Attempt α} {v : α} : a.resolve = some v ↔ a = .ok v :=
  except_toOption_eq_some

/-- Whether the candidate has a value for the subject. -/
def Candidate.worksFor (c : Candidate σ α) (subject : σ) : Bool :=
  Attempt.isViable (c.attempt subject)

/-- A candidate works if its attempt has a value. -/
theorem Candidate.worksFor_iff {c : Candidate σ α} {subject : σ} :
    c.worksFor subject = true ↔ ∃ v, c.attempt subject = .ok v := by
  simp only [worksFor, Attempt.isViable, Option.isSome_iff_exists, Attempt.resolve_eq_some_iff]

namespace Selector

variable {cs cs' before behind : Selector σ α} {c : Candidate σ α} {subject : σ}

/-! ### The candidates that work -/

/-- Candidates side by side work side by side. -/
theorem viable_append (cs cs' : Selector σ α) (subject : σ) :
    viable (cs ++ cs') subject = cs.viable subject ++ cs'.viable subject :=
  List.filterMap_append

/-- A candidate that works comes first, with its value. -/
theorem viable_cons_of_works {v : α} (h : c.attempt subject = .ok v) (cs : Selector σ α) :
    viable (c :: cs) subject = ⟨c.name, v⟩ :: cs.viable subject := by
  rw [viable, List.filterMap_cons, Attempt.resolve_eq_some_iff.mpr h]
  rfl

/-- A candidate that does not work leaves no trace. -/
theorem viable_cons_of_fails (h : c.worksFor subject = false) (cs : Selector σ α) :
    viable (c :: cs) subject = cs.viable subject := by
  rw [Candidate.worksFor, Attempt.isViable, Option.isSome_eq_false_iff,
    Option.isNone_iff_eq_none] at h
  rw [viable, List.filterMap_cons, h]
  rfl

/-- Candidates in another order work in that order. -/
theorem viable_perm (h : cs.Perm cs') (subject : σ) :
    (cs.viable subject).Perm (cs'.viable subject) :=
  h.filterMap _

/-- The names of the candidates that work, in their order. -/
theorem map_name_viable (cs : Selector σ α) (subject : σ) :
    (cs.viable subject).map (·.name) = (cs.filter (·.worksFor subject)).map (·.name) := by
  induction cs with
  | nil => rfl
  | cons c cs ih =>
    cases h : c.worksFor subject with
    | true =>
      obtain ⟨v, hv⟩ := Candidate.worksFor_iff.mp h
      rw [viable_cons_of_works hv, List.filter_cons, if_pos h, List.map_cons, List.map_cons, ih]
    | false =>
      rw [viable_cons_of_fails h, ih, List.filter_cons, h, if_neg Bool.false_ne_true]

/-- There are as many values as candidates that work. -/
theorem length_viable (cs : Selector σ α) (subject : σ) :
    (cs.viable subject).length = cs.countP (·.worksFor subject) := by
  have hnames := congrArg List.length (map_name_viable cs subject)
  rwa [List.length_map, List.length_map, ← List.countP_eq_length_filter] at hnames

/-- None works if each of them fails. -/
theorem viable_eq_nil_iff :
    cs.viable subject = [] ↔ ∀ c ∈ cs, c.worksFor subject = false := by
  rw [← List.length_eq_zero_iff, length_viable, List.countP_eq_zero]
  simp only [Bool.not_eq_true]

/-- One candidate works alone exactly if those in front of it and behind it do not work. -/
theorem viable_eq_singleton_iff {r : Selection α} :
    cs.viable subject = [r] ↔ ∃ before c behind, cs = before ++ c :: behind ∧
      c.name = r.name ∧ c.attempt subject = .ok r.value ∧
      ∀ d ∈ before ++ behind, d.worksFor subject = false := by
  constructor
  · intro h
    induction cs with
    | nil => exact nomatch h
    | cons c cs ih =>
      cases hc : c.worksFor subject with
      | true =>
        -- The first candidate is the one, so there is none behind it.
        obtain ⟨v, hv⟩ := Candidate.worksFor_iff.mp hc
        rw [viable_cons_of_works hv] at h
        obtain ⟨rfl, hnil⟩ := List.cons.inj h
        exact ⟨[], c, cs, rfl, rfl, hv, viable_eq_nil_iff.mp hnil⟩
      | false =>
        rw [viable_cons_of_fails hc] at h
        obtain ⟨before, d, behind, rfl, hname, hvalue, hothers⟩ := ih h
        exact ⟨c :: before, d, behind, rfl, hname, hvalue, List.forall_mem_cons.mpr ⟨hc, hothers⟩⟩
  · rintro ⟨before, c, behind, rfl, hname, hvalue, hothers⟩
    rw [List.forall_mem_append] at hothers
    rw [viable_append, viable_cons_of_works hvalue, viable_eq_nil_iff.mpr hothers.1,
      viable_eq_nil_iff.mpr hothers.2, hname]
    rfl

/-! ### Selections -/

/-- A selection has three results, by how many candidates work. -/
theorem select_cases (cs : Selector σ α) (subject : σ) :
    (cs.viable subject = [] ∧
      cs.select subject = .error (.noViableCandidate (cs.map (·.name)))) ∨
    (∃ r, cs.viable subject = [r] ∧ cs.select subject = .ok r) ∨
    (2 ≤ (cs.viable subject).length ∧
      cs.select subject = .error (.ambiguous ((cs.viable subject).map (·.name)))) := by
  unfold select
  match cs.viable subject with
  | [] => exact .inl ⟨rfl, rfl⟩
  | [r] => exact .inr (.inl ⟨r, rfl, rfl⟩)
  | r :: r' :: rs => exact .inr (.inr ⟨by simp, rfl⟩)

/-- A selection is made exactly if one candidate works alone. -/
theorem select_eq_ok_iff {r : Selection α} :
    cs.select subject = .ok r ↔ cs.viable subject = [r] := by
  rcases cs.select_cases subject with ⟨hv, hs⟩ | ⟨r', hv, hs⟩ | ⟨hv, hs⟩
  · simp [hv, hs]
  · simp [hv, hs]
  · rw [hs]
    refine ⟨nofun, fun h => ?_⟩
    simp [h] at hv

/-- There is none for want of candidates exactly if no one works. -/
theorem select_eq_noViableCandidate_iff {names : List String} :
    cs.select subject = .error (.noViableCandidate names) ↔
      cs.viable subject = [] ∧ names = cs.map (·.name) := by
  rcases cs.select_cases subject with ⟨hv, hs⟩ | ⟨r, hv, hs⟩ | ⟨hv, hs⟩
  · simp [hv, hs, eq_comm]
  · simp [hv, hs]
  · rw [hs]
    refine ⟨nofun, fun h => ?_⟩
    simp [h.1] at hv

/-- There is none for their number exactly if several work. -/
theorem select_eq_ambiguous_iff {names : List String} :
    cs.select subject = .error (.ambiguous names) ↔
      2 ≤ (cs.viable subject).length ∧ names = (cs.viable subject).map (·.name) := by
  rcases cs.select_cases subject with ⟨hv, hs⟩ | ⟨r, hv, hs⟩ | ⟨hv, hs⟩
  · simp [hv, hs]
  · simp [hv, hs]
  · simp [hv, hs, eq_comm]

/-- A result tells how many candidates work. -/
theorem length_viable_eq_of_select (cs : Selector σ α) (subject : σ) :
    (cs.viable subject).length = match cs.select subject with
      | .ok _ => 1
      | .error (.noViableCandidate _) => 0
      | .error (.ambiguous names) => names.length := by
  rcases cs.select_cases subject with ⟨hv, hs⟩ | ⟨r, hv, hs⟩ | ⟨hv, hs⟩
  · simp [hv, hs]
  · simp [hv, hs]
  · simp [hs]

/-- No candidate is passed over. Where one is replaced by another of which the opposite is true,
the result is another one. -/
theorem select_ne_of_worksFor_ne {c c' : Candidate σ α}
    (h : c.worksFor subject ≠ c'.worksFor subject) (before behind : Selector σ α) :
    select (before ++ c :: behind) subject ≠ select (before ++ c' :: behind) subject := by
  intro heq
  have hlength : (viable (before ++ c :: behind) subject).length =
      (viable (before ++ c' :: behind) subject).length := by
    rw [length_viable_eq_of_select, heq, ← length_viable_eq_of_select]
  rw [length_viable, length_viable, List.countP_append, List.countP_append, List.countP_cons,
    List.countP_cons] at hlength
  cases hc : c.worksFor subject <;> cases hc' : c'.worksFor subject <;> simp_all

/-- The same selection, or the same failure with its names in some order. -/
inductive SameUpToOrder : Except SelectionError (Selection α) →
    Except SelectionError (Selection α) → Prop
  | selected (r : Selection α) : SameUpToOrder (.ok r) (.ok r)
  | noViableCandidate {names names' : List String} (h : names.Perm names') :
    SameUpToOrder (.error (.noViableCandidate names)) (.error (.noViableCandidate names'))
  | ambiguous {names names' : List String} (h : names.Perm names') :
    SameUpToOrder (.error (.ambiguous names)) (.error (.ambiguous names'))

/-- The order of the candidates is seen in the names of a failure only. -/
theorem select_perm (h : cs.Perm cs') (subject : σ) :
    SameUpToOrder (cs.select subject) (cs'.select subject) := by
  have hviable := viable_perm h subject
  -- The outcome depends on how many candidates work, which is the same in any order.
  rcases cs.select_cases subject with ⟨hv, hs⟩ | ⟨r, hv, hs⟩ | ⟨hv, hs⟩
  · have hv' : cs'.viable subject = [] := by rwa [hv, List.nil_perm] at hviable
    rw [hs, select_eq_noViableCandidate_iff.mpr ⟨hv', rfl⟩]
    exact .noViableCandidate (h.map _)
  · rw [hv, List.singleton_perm] at hviable
    have hv' : cs'.viable subject = [r] := hviable.symm
    rw [hs, select_eq_ok_iff.mpr hv']
    exact .selected r
  · rw [hviable.length_eq] at hv
    rw [hs, select_eq_ambiguous_iff.mpr ⟨hv, rfl⟩]
    exact .ambiguous (hviable.map _)

/-- Among those that work, a candidate that fails is not seen. -/
theorem viable_insert_of_fails (h : c.worksFor subject = false) (before behind : Selector σ α) :
    viable (before ++ c :: behind) subject = viable (before ++ behind) subject := by
  rw [viable_append, viable_cons_of_fails h, viable_append]

/-- A selector runs every candidate on the subject. If one works alone, its name and value are
selected. If none works, the failure names all candidates, and if several work, it names those, in
the order of the list. No candidate is passed over, whatever the others do. The order of the
candidates is only seen in the names of a failure, and a candidate that does not work may be put
anywhere or taken away without a change to a selection or an ambiguity. -/
theorem selects_the_only_viable (cs : Selector σ α) (subject : σ) :
    (∀ r, cs.select subject = .ok r ↔ ∃ before c behind, cs = before ++ c :: behind ∧
      c.name = r.name ∧ c.attempt subject = .ok r.value ∧
      ∀ d ∈ before ++ behind, d.worksFor subject = false) ∧
    (∀ names, cs.select subject = .error (.noViableCandidate names) ↔
      (∀ c ∈ cs, c.worksFor subject = false) ∧ names = cs.map (·.name)) ∧
    (∀ names, cs.select subject = .error (.ambiguous names) ↔
      2 ≤ cs.countP (·.worksFor subject) ∧
        names = (cs.filter (·.worksFor subject)).map (·.name)) ∧
    (∀ before c behind, cs = before ++ c :: behind →
      ∀ c' : Candidate σ α, c'.worksFor subject ≠ c.worksFor subject →
        select (before ++ c' :: behind) subject ≠ cs.select subject) ∧
    (∀ cs' : Selector σ α, cs.Perm cs' → SameUpToOrder (cs.select subject) (cs'.select subject)) ∧
    (∀ before behind, cs = before ++ behind →
      ∀ c : Candidate σ α, c.worksFor subject = false →
        (∀ r, select (before ++ c :: behind) subject = .ok r ↔ cs.select subject = .ok r) ∧
        ∀ names, select (before ++ c :: behind) subject = .error (.ambiguous names) ↔
          cs.select subject = .error (.ambiguous names)) := by
  refine ⟨fun r => ?_, fun names => ?_, fun names => ?_, ?_, fun cs' h => select_perm h subject, ?_⟩
  · rw [select_eq_ok_iff, viable_eq_singleton_iff]
  · rw [select_eq_noViableCandidate_iff, viable_eq_nil_iff]
  · rw [select_eq_ambiguous_iff, length_viable, map_name_viable]
  · rintro before c behind rfl c' h
    exact select_ne_of_worksFor_ne h before behind
  · rintro before behind rfl c h
    have hviable := viable_insert_of_fails h before behind
    refine ⟨fun r => ?_, fun names => ?_⟩
    · rw [select_eq_ok_iff, select_eq_ok_iff, hviable]
    · rw [select_eq_ambiguous_iff, select_eq_ambiguous_iff, hviable]

/-- Three candidates, two of them of one name, compete for an `int` and one of them works. The
order does not matter to it. With a fourth candidate that always works the result is another one,
and the names of the two are in the order of the list. None of the three works for `void`. -/
theorem selects_the_only_viable_of_gates :
    let integral : Candidate Descriptor String := ⟨"number", fun t => enableIf t.isIntegral "i"⟩
    let floating : Candidate Descriptor String :=
      ⟨"number", fun t => enableIf t.isFloatingPoint "f"⟩
    let array : Candidate Descriptor String := ⟨"array", fun t => enableIf t.isArray "a"⟩
    let anything : Candidate Descriptor String := ⟨"anything", fun _ => .ok "any"⟩
    let cs : Selector Descriptor String := [floating, array, integral]
    let cs' : Selector Descriptor String := [integral, floating, array]
    cs.select .int = .ok ⟨"number", "i"⟩ ∧ cs'.select .int = .ok ⟨"number", "i"⟩ ∧
      select [floating, integral] .int = .ok ⟨"number", "i"⟩ ∧
      select [floating, anything, integral] .int = .error (.ambiguous ["anything", "number"]) ∧
      select [floating, anything, integral] .int ≠ cs.select .int ∧
      cs.select (.void .none) = .error (.noViableCandidate ["number", "array", "number"]) := by
  intro integral floating array anything cs cs'
  obtain ⟨hone, -, -, hrun, hperm, -⟩ := selects_the_only_viable cs .int
  obtain ⟨-, -, hseveral, -⟩ := selects_the_only_viable [floating, anything, integral] .int
  obtain ⟨-, -, -, -, -, hinsert⟩ := selects_the_only_viable [floating, integral] .int
  obtain ⟨-, hnone, -⟩ := selects_the_only_viable cs (.void .none)
  have hselect : cs.select .int = .ok ⟨"number", "i"⟩ :=
    (hone _).mpr ⟨[floating, array], integral, [], rfl, rfl, rfl, by decide⟩
  have hrotated : ([floating, array] ++ [integral]).Perm ([integral] ++ [floating, array]) :=
    List.perm_append_comm
  have hsame := hperm cs' hrotated
  refine ⟨hselect, ?_, ?_, (hseveral _).mpr ⟨by decide, by decide⟩,
    hrun [floating] array [integral] rfl anything (by decide), (hnone _).mpr ⟨by decide, rfl⟩⟩
  -- One selected candidate has no other order.
  · rw [hselect] at hsame
    cases h : cs'.select .int <;> rw [h] at hsame <;> cases hsame
    rfl
  · exact ((hinsert [floating] [integral] rfl array (by decide)).1 _).mp hselect

end Selector

end TypeTraits
