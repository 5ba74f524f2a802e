import TypeTraits.Proofs.Support.Except
import TypeTraits.Query.Evaluation

/-!
# `TypeTraits.Proofs.Query.Unreached`: arguments that no operation looks at

`Operation.Skips` says which arguments of an operation are not reached: those of a call
with a wrong number of arguments, the operands behind the one that decides or fails, the
branch that is not chosen, the payload of a closed gate, and what stands behind the first
argument that fails. Whatever stands there, the operation has the same result
(`Operation.result?_eq_of_agree`).

Two queries agree (`Scope.Agree`) when they differ in such places only, at any depth and
in any number of them. `Scope.evaluate_eq_of_agree`: they have the same value, or fail with
the same diagnostic at the same span.
-/

set_option autoImplicit false

namespace TypeTraits

/-! ### Which arguments are reached -/

/-- Whether an operation of the arity takes so many arguments. -/
def Arity.admits : Arity → Nat → Bool
  | exactly n, k => k == n
  | oneOrTwo, k => k == 1 || k == 2
  | atLeastOne, k => k != 0

namespace Argument

/-- The argument is no type. -/
def FailsAsType (a : Argument) : Prop := ∃ d, a.type = .error d

/-- The argument is no condition, or it is one of the given truth. -/
def Settles (decisive : Bool) (a : Argument) : Prop :=
  (∃ d, a.condition = .error d) ∨ ∃ v, a.condition = .ok v ∧ truth v = decisive

variable {a : Argument}

/-- An argument that is a type does not fail as one. -/
theorem not_failsAsType {t : Descriptor} (h : a.type = .ok t) : ¬ a.FailsAsType := by
  rintro ⟨d, hd⟩
  rw [h] at hd
  exact nomatch hd

/-- An argument with a truth settles a connective if it is the deciding one. -/
theorem settles_iff {v : Value} (h : a.condition = .ok v) {decisive : Bool} :
    a.Settles decisive ↔ truth v = decisive := by
  simp [Settles, h]

end Argument

namespace Operation

/-- The operation does not take so many arguments. -/
def Refuses (o : Operation) (count : Nat) : Prop :=
  ∃ arity, o.arity? = some arity ∧ arity.admits count = false

/-- The operation, called with the arguments, does not look at the one of the index. A
condition that fails settles on no branch of a conditional, so neither of them is reached. -/
inductive Skips : Operation → List Argument → Nat → Prop
  | wrongCount {o : Operation} {args : List Argument} {i : Nat} :
    o.Refuses args.length → Skips o args i
  | conjunct {args : List Argument} {a : Argument} {i j : Nat} :
    args[j]? = some a → j < i → a.Settles false → Skips conjunction args i
  | disjunct {args : List Argument} {a : Argument} {i j : Nat} :
    args[j]? = some a → j < i → a.Settles true → Skips disjunction args i
  | firstBranch {c a b : Argument} : c.Settles false → Skips conditional [c, a, b] 1
  | secondBranch {c a b : Argument} : c.Settles true → Skips conditional [c, a, b] 2
  | payload {c a : Argument} : c.Settles false → Skips enableIf [c, a] 1
  | behindSame {a b : Argument} : a.FailsAsType → Skips isSame [a, b] 1
  | behindCandidate {args : List Argument} {a : Argument} {i j : Nat} :
    args[j]? = some a → j < i → a.FailsAsType → Skips isAnyOf args i
  | dimension {a b : Argument} : a.FailsAsType → Skips extent [a, b] 1

/-! ### Results -/

/-- There is no result exactly where the arity does not admit the arguments. -/
theorem result?_eq_none_iff {o : Operation} {args : List Argument} :
    o.result? args = none ↔ o.Refuses args.length := by
  unfold Refuses
  -- The limits are at most three, so lists of up to four arguments show all forms.
  match args with
  | [] => cases o <;> simp [result?, arity?, Arity.admits]
  | [_] => cases o <;> simp [result?, arity?, Arity.admits]
  | [_, _] => cases o <;> simp [result?, arity?, Arity.admits]
  | [_, _, _] => cases o <;> simp [result?, arity?, Arity.admits]
  | _ :: _ :: _ :: _ :: _ => cases o <;> simp [result?, arity?, Arity.admits]

end Operation

/-! ### Runs that stop early -/

/-- The lists have the same elements up to the first at which a run through them stops. -/
inductive AgreeUpTo {α : Type} (stops : α → Prop) : List α → List α → Prop
  | nil : AgreeUpTo stops [] []
  | stop {x : α} {xs ys : List α} :
    stops x → xs.length = ys.length → AgreeUpTo stops (x :: xs) (x :: ys)
  | cons {x : α} {xs ys : List α} : AgreeUpTo stops xs ys → AgreeUpTo stops (x :: xs) (x :: ys)

/-- Lists of one length agree up to a stop if they do in all places with no stop in front. -/
theorem AgreeUpTo.of_getElem? {α : Type} {stops : α → Prop} {xs ys : List α}
    (hlen : xs.length = ys.length)
    (h : ∀ i : Nat, (∀ j < i, ∀ x : α, xs[j]? = some x → ¬ stops x) → xs[i]? = ys[i]?) :
    AgreeUpTo stops xs ys := by
  induction xs generalizing ys with
  | nil =>
    rw [List.length_eq_zero_iff.mp hlen.symm]
    exact .nil
  | cons x xs ih =>
    obtain _ | ⟨y, ys⟩ := ys
    · exact nomatch hlen
    have hhead : (x :: xs)[0]? = (y :: ys)[0]? := h 0 fun j hj => absurd hj (Nat.not_lt_zero j)
    obtain rfl : x = y := Option.some.inj hhead
    by_cases hx : stops x
    · exact .stop hx (Nat.succ.inj hlen)
    · -- One more element was passed, so the others agree as far as `h` says.
      refine .cons (ih (Nat.succ.inj hlen) fun i hi => h (i + 1) fun j hj z hz => ?_)
      cases j with
      | zero =>
        cases hz
        exact hx
      | succ j => exact hi j (Nat.lt_of_succ_lt_succ hj) z hz

/-- A connective runs its operands up to the first that settles it. -/
theorem Decision.decideFrom_eq_of_agreeUpTo {decisive : Bool} {args args' : List Argument}
    (h : AgreeUpTo (·.Settles decisive) args args') (index : Nat) (sofar : Decision Value) :
    decideFrom decisive index sofar (args.map fun a (_ : Unit) => a.condition) =
      decideFrom decisive index sofar (args'.map fun a (_ : Unit) => a.condition) := by
  induction h generalizing index sofar with
  | nil => rfl
  | stop hs _ =>
    rw [List.map_cons, List.map_cons, decideFrom, decideFrom]
    -- An operand that settles the matter ends both runs in the same way.
    rcases hs with ⟨d, hd⟩ | ⟨v, hv, htruth⟩
    · rw [hd]
      rfl
    · rw [hv, except_bind_ok, except_bind_ok, htruth, BEq.rfl, if_pos rfl, if_pos rfl]
  | cons _ ih =>
    rw [List.map_cons, List.map_cons, decideFrom, decideFrom]
    simp only [ih]

/-- A run through types ends at the first argument that is none. -/
theorem mapM_type_eq_of_agreeUpTo {args args' : List Argument}
    (h : AgreeUpTo Argument.FailsAsType args args') :
    args.mapM Argument.type = args'.mapM Argument.type := by
  induction h with
  | nil => rfl
  | stop hs _ =>
    obtain ⟨d, hd⟩ := hs
    rw [List.mapM_cons, List.mapM_cons, hd]
    rfl
  | cons _ ih => rw [List.mapM_cons, List.mapM_cons, ih]

namespace Operation

variable {o : Operation} {args args' : List Argument}

/-- A conditional looks at its condition, and then at one branch. -/
theorem conditional_eq_of_agree {c a b a' b' : Argument}
    (ha : ¬ conditional.Skips [c, a, b] 1 → a = a')
    (hb : ¬ conditional.Skips [c, a, b] 2 → b = b') :
    conditional.result? [c, a, b] = conditional.result? [c, a', b'] := by
  have hcount : ¬ conditional.Refuses [c, a, b].length := by
    simp [Refuses, arity?, Arity.admits]
  refine congrArg some (except_bind_congr fun v hc => ?_)
  -- The condition decides which branch is evaluated. The other one may differ.
  cases hv : truth v with
  | true =>
    obtain rfl : a = a' := by
      refine ha fun hskips => ?_
      cases hskips with
      | wrongCount hw => exact hcount hw
      | firstBranch hs => simp [Argument.settles_iff hc, hv] at hs
    rfl
  | false =>
    obtain rfl : b = b' := by
      refine hb fun hskips => ?_
      cases hskips with
      | wrongCount hw => exact hcount hw
      | secondBranch hs => simp [Argument.settles_iff hc, hv] at hs
    rfl

/-- A gate looks at its payload if it is open. -/
theorem enableIf_eq_of_agree {c a a' : Argument} (ha : ¬ enableIf.Skips [c, a] 1 → a = a') :
    enableIf.result? [c, a] = enableIf.result? [c, a'] := by
  refine congrArg some (except_bind_congr fun v hc => ?_)
  cases hv : truth v with
  | true =>
    obtain rfl : a = a' := by
      refine ha fun hskips => ?_
      cases hskips with
      | wrongCount hw => simp [Refuses, arity?, Arity.admits] at hw
      | payload hs => simp [Argument.settles_iff hc, hv] at hs
    rfl
  | false => rfl

/-- A comparison looks at its second side if the first one is a type. -/
theorem isSame_eq_of_agree {a b b' : Argument} (hb : ¬ isSame.Skips [a, b] 1 → b = b') :
    isSame.result? [a, b] = isSame.result? [a, b'] := by
  refine congrArg some (except_bind_congr fun t ha => ?_)
  obtain rfl : b = b' := by
    refine hb fun hskips => ?_
    cases hskips with
    | wrongCount hw => simp [Refuses, arity?, Arity.admits] at hw
    | behindSame hs => exact Argument.not_failsAsType ha hs
  rfl

/-- An extent looks at its index if there is a type to take it of. -/
theorem extent_eq_of_agree {a b b' : Argument} (hb : ¬ extent.Skips [a, b] 1 → b = b') :
    extent.result? [a, b] = extent.result? [a, b'] := by
  refine congrArg some (except_bind_congr fun t ha => ?_)
  obtain rfl : b = b' := by
    refine hb fun hskips => ?_
    cases hskips with
    | wrongCount hw => simp [Refuses, arity?, Arity.admits] at hw
    | dimension hs => exact Argument.not_failsAsType ha hs
  rfl

/-- A conjunction looks at its operands up to the first false one or failure. -/
theorem conjunction_eq_of_agree (hlen : args.length = args'.length)
    (h : ∀ i : Nat, ¬ conjunction.Skips args i → args[i]? = args'[i]?) :
    conjunction.result? args = conjunction.result? args' := by
  have hagree : AgreeUpTo (·.Settles false) args args' := by
    refine .of_getElem? hlen fun i hi => h i fun hskips => ?_
    cases hskips with
    | wrongCount hw => simp [Refuses, arity?] at hw
    | conjunct ha hj hs => exact hi _ hj _ ha hs
  exact congrArg (fun d => some (decided <$> d)) (Decision.decideFrom_eq_of_agreeUpTo hagree 0 _)

/-- A disjunction looks at its operands up to the first true one or failure. -/
theorem disjunction_eq_of_agree (hlen : args.length = args'.length)
    (h : ∀ i : Nat, ¬ disjunction.Skips args i → args[i]? = args'[i]?) :
    disjunction.result? args = disjunction.result? args' := by
  have hagree : AgreeUpTo (·.Settles true) args args' := by
    refine .of_getElem? hlen fun i hi => h i fun hskips => ?_
    cases hskips with
    | wrongCount hw => simp [Refuses, arity?] at hw
    | disjunct ha hj hs => exact hi _ hj _ ha hs
  exact congrArg (fun d => some (decided <$> d)) (Decision.decideFrom_eq_of_agreeUpTo hagree 0 _)

/-- A search looks at its subject and candidates up to the first that is no type. -/
theorem isAnyOf_eq_of_agree (hlen : args.length = args'.length)
    (hcount : ¬ isAnyOf.Refuses args.length)
    (h : ∀ i : Nat, ¬ isAnyOf.Skips args i → args[i]? = args'[i]?) :
    isAnyOf.result? args = isAnyOf.result? args' := by
  have hagree : AgreeUpTo Argument.FailsAsType args args' := by
    refine .of_getElem? hlen fun i hi => h i fun hskips => ?_
    cases hskips with
    | wrongCount hw => exact hcount hw
    | behindCandidate ha hj hs => exact hi _ hj _ ha hs
  -- The subject is the first argument, the candidates are the others.
  cases hagree with
  | nil => rfl
  | stop hs _ =>
    obtain ⟨d, hd⟩ := hs
    rw [result?, result?, hd]
    rfl
  | cons hcandidates => rw [result?, result?, mapM_type_eq_of_agreeUpTo hcandidates]

/-- What stands in places that are skipped makes no difference to the result. -/
theorem result?_eq_of_agree (hlen : args.length = args'.length)
    (h : ∀ i : Nat, ¬ o.Skips args i → args[i]? = args'[i]?) :
    o.result? args = o.result? args' := by
  by_cases hcount : o.Refuses args.length
  · rw [result?_eq_none_iff.mpr hcount, result?_eq_none_iff.mpr (hlen ▸ hcount)]
  -- Where only the number of arguments is looked at, all arguments are the same.
  have hall : (∀ i, o.Skips args i → o.Refuses args.length) → args = args' :=
    fun hskips => List.ext_getElem? fun i => h i fun hi => hcount (hskips i hi)
  cases o with
  | negation | rank | predicate _ | transformation _ =>
    rw [hall fun i hi => by cases hi; assumption]
  | conjunction => exact conjunction_eq_of_agree hlen h
  | disjunction => exact disjunction_eq_of_agree hlen h
  | isAnyOf => exact isAnyOf_eq_of_agree hlen hcount h
  | conditional =>
    have hthree : args.length = 3 := by simpa [Refuses, arity?, Arity.admits] using hcount
    obtain ⟨c, a, b, rfl⟩ := List.length_eq_three.mp hthree
    obtain ⟨c', a', b', rfl⟩ := List.length_eq_three.mp (hlen.symm.trans hthree)
    obtain rfl : c = c' := Option.some.inj (h 0 (by rintro ⟨⟩; exact hcount ‹_›))
    exact conditional_eq_of_agree (fun ha => Option.some.inj (h 1 ha))
      fun hb => Option.some.inj (h 2 hb)
  | isSame =>
    have htwo : args.length = 2 := by simpa [Refuses, arity?, Arity.admits] using hcount
    obtain ⟨a, b, rfl⟩ := List.length_eq_two.mp htwo
    obtain ⟨a', b', rfl⟩ := List.length_eq_two.mp (hlen.symm.trans htwo)
    obtain rfl : a = a' := Option.some.inj (h 0 (by rintro ⟨⟩; exact hcount ‹_›))
    exact isSame_eq_of_agree fun hb => Option.some.inj (h 1 hb)
  | enableIf =>
    match args, args', hlen with
    | [], [], _ => rfl
    | [_], [_], _ => rw [hall fun i hi => by cases hi; assumption]
    | [c, a], [c', a'], _ =>
      obtain rfl : c = c' := Option.some.inj (h 0 (by rintro ⟨⟩; exact hcount ‹_›))
      exact enableIf_eq_of_agree fun ha => Option.some.inj (h 1 ha)
    | _ :: _ :: _ :: _, _, _ => exact absurd (by simp [Refuses, arity?, Arity.admits]) hcount
  | extent =>
    match args, args', hlen with
    | [], [], _ => rfl
    | [_], [_], _ => rw [hall fun i hi => by cases hi; assumption]
    | [a, b], [a', b'], _ =>
      obtain rfl : a = a' := Option.some.inj (h 0 (by rintro ⟨⟩; exact hcount ‹_›))
      exact extent_eq_of_agree fun hb => Option.some.inj (h 1 hb)
    | _ :: _ :: _ :: _, _, _ => exact absurd (by simp [Refuses, arity?, Arity.admits]) hcount

end Operation

/-! ### Queries -/

namespace Scope

variable {s : Scope}

/-- The call of a name with the arguments does not look at the one of the index. -/
def Skips (s : Scope) (op : String) (args : List Query) (i : Nat) : Prop :=
  match s.operation? (Operation.baseName op) with
  | none => True
  | some o => o.Skips (s.suspend args) i

/-- The queries differ only in arguments that calls of the first one do not look at. -/
inductive Agree (s : Scope) : Query → Query → Prop
  | same (q : Query) : Agree s q q
  | call {op : String} {opSpan span : Span} {args args' : List Query} :
    args.length = args'.length →
    (∀ (i : Nat) (q q' : Query), args[i]? = some q → args'[i]? = some q' →
      ¬ s.Skips op args i → Agree s q q') →
    Agree s (.call op opSpan args span) (.call op opSpan args' span)

/-- Queries that agree stand at the same place. -/
theorem Agree.span_eq {q q' : Query} (h : s.Agree q q') : q.span = q'.span := by
  cases h <;> rfl

/-- Parts of a query that are not reached cannot influence the answer: whatever replaces them,
in any number of places, the value is the same, or the failure and its span are. -/
theorem evaluate_eq_of_agree {q q' : Query} (h : s.Agree q q') :
    s.evaluate q = s.evaluate q' := by
  induction h with
  | same q => rfl
  | @call op opSpan span args args' hlen hargs ih =>
    rw [evaluate, evaluate, call, call]
    cases ho : s.operation? (Operation.baseName op) with
    | none => rfl
    | some o =>
      have hlen' : (s.suspend args).length = (s.suspend args').length := by
        simp [suspend_eq_map, hlen]
      have hresult : o.result? (s.suspend args) = o.result? (s.suspend args') := by
        refine o.result?_eq_of_agree hlen' fun i hi => ?_
        rw [suspend_eq_map, suspend_eq_map, List.getElem?_map, List.getElem?_map]
        cases hq : args[i]? with
        | none =>
          rw [List.getElem?_eq_none (hlen ▸ List.getElem?_eq_none_iff.mp hq)]
        | some q =>
          obtain ⟨hi', -⟩ := List.getElem?_eq_some_iff.mp hq
          have hq' := List.getElem?_eq_getElem (hlen ▸ hi')
          have hreached : ¬ s.Skips op args i := by rwa [Skips, ho]
          -- The argument in a place that is reached keeps its span and, by induction, its value.
          rw [hq', Option.map_some, Option.map_some, ih i _ _ hq hq' hreached,
            (hargs i _ _ hq hq' hreached).span_eq]
      simp only [hresult, hlen']

/-- A size that is not zero decides a disjunction and is true as a condition. So neither the
operand behind it nor the second branch matters, here where one names no operation and the other
becomes a size. -/
theorem evaluate_eq_of_replaced_operand_and_branch :
    let s := Scope.ofUniverse .empty
    let int (n : Nat) : Query :=
      .type (.mk ⟨.scalar .int, .none, ⟨n, n + 3⟩⟩ (.flat [] []) ⟨n, n + 3⟩)
    let condition (q : Query) : Query :=
      .call "disjunction" ⟨12, 23⟩ [.size 2 ⟨24, 25⟩, q] ⟨12, 31⟩
    let q : Query := .call "conditional" ⟨0, 11⟩
      [condition (.call "f" ⟨27, 28⟩ [] ⟨27, 30⟩), int 33, int 38] ⟨0, 42⟩
    let q' : Query := .call "conditional" ⟨0, 11⟩
      [condition (.bool false ⟨27, 32⟩), int 33, .size 7 ⟨40, 41⟩] ⟨0, 42⟩
    s.Agree q q' ∧ s.evaluate q = .ok (.type .int) ∧ s.evaluate q = s.evaluate q' := by
  intro s int condition q q'
  have hcondition : s.Agree (condition (.call "f" ⟨27, 28⟩ [] ⟨27, 30⟩))
      (condition (.bool false ⟨27, 32⟩)) := by
    refine .call rfl fun i r r' hr hr' hreached => ?_
    match i with
    | 0 =>
      cases hr
      cases hr'
      exact .same _
    -- `2` is true, so nothing behind it in the disjunction is reached.
    | 1 => exact absurd (.disjunct (j := 0) rfl Nat.one_pos (.inr ⟨.size 2, rfl, rfl⟩)) hreached
    | i + 2 => exact nomatch hr
  have hagree : s.Agree q q' := by
    refine .call rfl fun i r r' hr hr' hreached => ?_
    match i with
    | 0 =>
      cases hr
      cases hr'
      exact hcondition
    | 1 =>
      cases hr
      cases hr'
      exact .same _
    -- Nor is the branch for a false condition.
    | 2 => exact absurd (.secondBranch (.inr ⟨.size 2, rfl, rfl⟩)) hreached
    | i + 3 => exact nomatch hr
  exact ⟨hagree, by decide +kernel, evaluate_eq_of_agree hagree⟩

end Scope

end TypeTraits
