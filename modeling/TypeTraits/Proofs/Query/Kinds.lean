import TypeTraits.Proofs.Query.Operations
import TypeTraits.Proofs.Query.Unreached

/-!
# `TypeTraits.Proofs.Query.Kinds`: the kind of a value is known before evaluation

The kind of a query's value, a boolean, a size or a type, can be read off the query: from the
literal, or from the name that is called (`Scope.kinds`). Only the two connectives leave a choice,
as they come to the value of an operand, but an operand is a condition and therefore no type.

The places of a call's arguments have roles (`Role.ofName`): a type, a condition or the index of a
dimension. A value of another kind in a place that the call looks at is refused with the problem of
the role, at the span of the argument. Which places the call looks at is said by `Scope.Skips`;
no place behind an argument that failed is among them.

`Scope.evaluate_kindSound` puts the two together. Both go operation by operation, with one lemma
each for all operations: `Operation.kind_mem_kinds` and `Operation.result?_of_misfit`.
-/

set_option autoImplicit false

namespace TypeTraits

/-! ### Kinds and roles -/

/-- The kinds of values. -/
inductive Kind where
  | bool
  | size
  | type
deriving DecidableEq, Repr

/-- The kind of the value. -/
def Value.kind : Value → Kind
  | bool _ => .bool
  | size _ => .size
  | type _ => .type

/-- What an argument is needed for. -/
inductive Role where
  | type
  | condition
  | index
deriving DecidableEq, Repr

/-- What is wrong with the value in the role, if it does not fit. -/
def Role.problem? : Role → Value → Option Problem
  | type, .type _ => none
  | type, v => some (.expectedType v)
  | condition, .type t => some (.expectedCondition t)
  | condition, _ => none
  | index, .size _ => none
  | index, v => some (.expectedSize v)

/-- The role of an argument, counted from 0, in a call of the name. -/
def Role.ofName (name : String) (i : Nat) : Role :=
  if name ∈ ["conjunction", "disjunction", "negation"] then condition
  else if name ∈ ["conditional", "enable_if"] ∧ i = 0 then condition
  else if name = "extent" ∧ i = 1 then index
  else type

/-- The kinds of values that a call of the name can have. -/
def Scope.kindsOfName (s : Scope) (name : String) : List Kind :=
  if name ∈ ["conjunction", "disjunction"] then [.bool, .size]
  else if name ∈ ["negation", "is_same", "is_any_of"] then [.bool]
  else if name ∈ ["rank", "extent"] then [.size]
  else if name ∈ ["conditional", "enable_if"] then [.type]
  else if name ∈ s.catalog.predicates.map (·.name) then [.bool]
  else if name ∈ Transformation.all.map (·.name) then [.type]
  else []

/-- The kinds of values that the query can have, which is one unless it is a connective. -/
def Scope.kinds (s : Scope) : Query → List Kind
  | .bool _ _ => [.bool]
  | .size _ _ => [.size]
  | .type _ => [.type]
  | .call op _ _ _ => s.kindsOfName (Operation.baseName op)

namespace Operation

/-- The kinds of values that the operation can come to. -/
def kinds : Operation → List Kind
  | conjunction | disjunction => [.bool, .size]
  | negation | isSame | isAnyOf | predicate _ => [.bool]
  | rank | extent => [.size]
  | conditional | enableIf | transformation _ => [.type]

/-- The role of an argument of the operation. -/
def role : Operation → Nat → Role
  | conjunction, _ | disjunction, _ | negation, _ => .condition
  | conditional, 0 | enableIf, 0 => .condition
  | extent, 1 => .index
  | _, _ => .type

end Operation

namespace Scope

variable {s : Scope} {name : String}

/-- A name that is not the language's own is a predicate's or else a transformation's. -/
theorem kindsOfName_eq_of_notMem (h : name ∉ Operation.reservedNames) :
    s.kindsOfName name =
      if name ∈ s.catalog.predicates.map (·.name) then [.bool]
      else if name ∈ Transformation.all.map (·.name) then [.type]
      else [] := by
  simp only [Operation.reservedNames, List.mem_cons, List.not_mem_nil, or_false, not_or] at h
  simp [kindsOfName, h]

/-- Its argument is a type. -/
theorem ofName_eq_of_notMem (h : name ∉ Operation.reservedNames) (i : Nat) :
    Role.ofName name i = .type := by
  simp only [Operation.reservedNames, List.mem_cons, List.not_mem_nil, or_false, not_or] at h
  simp [Role.ofName, h]

/-- Kinds and roles by name are those of the operation that the name stands for. -/
theorem kinds_and_role_of_operation? {o : Operation} (h : s.operation? name = some o) :
    s.kindsOfName name = o.kinds ∧ ∀ i, Role.ofName name i = o.role i := by
  by_cases hreserved : name ∈ Operation.reservedNames
  · simp only [Operation.reservedNames, List.mem_cons, List.not_mem_nil, or_false] at hreserved
    rcases hreserved with rfl | rfl | rfl | rfl | rfl | rfl | rfl | rfl | rfl
    all_goals
      cases h
      refine ⟨rfl, fun i => ?_⟩
      -- The first two places can be special, and no others are.
      match i with
      | 0 | 1 | i + 2 => rfl
  · rw [operation?_eq_of_notMem hreserved] at h
    rw [kindsOfName_eq_of_notMem hreserved]
    simp only [ofName_eq_of_notMem hreserved]
    split at h
    · next p hp =>
      cases h
      have hname : name ∈ s.catalog.predicates.map (·.name) :=
        List.mem_map.mpr ⟨p, List.mem_of_find?_eq_some hp, by simpa using List.find?_some hp⟩
      rw [if_pos hname]
      exact ⟨rfl, fun _ => rfl⟩
    · next hnone =>
      obtain ⟨f, hf, rfl⟩ := Option.map_eq_some_iff.mp h
      have hpredicate : name ∉ s.catalog.predicates.map (·.name) := by
        simpa [Catalog.get?] using hnone
      have hname : name ∈ Transformation.all.map (·.name) :=
        List.mem_map.mpr ⟨f, List.mem_of_find?_eq_some hf, by simpa using List.find?_some hf⟩
      rw [if_neg hpredicate, if_pos hname]
      exact ⟨rfl, fun _ => rfl⟩

end Scope

/-! ### The kind of a result -/

namespace Operation

/-- A value that is made of the type of an argument has the kind that it is made with. -/
theorem kind_of_type {a : Argument} {f : Descriptor → Value} {v : Value}
    (h : (do return f (← a.type) : Except Diagnostic Value) = .ok v) : ∃ t, v = f t := by
  obtain ⟨t, -, ht⟩ := except_bind_eq_ok.mp h
  exact ⟨t, (Except.ok.inj ht).symm⟩

/-- An operation comes to values of its kinds only. -/
theorem kind_mem_kinds {o : Operation} {args : List Argument} {v : Value}
    (h : o.result? args = some (.ok v)) : v.kind ∈ o.kinds := by
  unfold result? at h
  split at h
  case h_14 => exact nomatch h
  case h_1 | h_2 =>
    -- The value of a connective is one of a condition, or the boolean of none.
    cases v with
    | type t => exact absurd (Option.some.inj h) decided_ne_type
    | bool b => exact List.mem_cons_self
    | size n => exact List.mem_cons_of_mem _ List.mem_cons_self
  all_goals obtain ⟨w, -, h⟩ := except_bind_eq_ok.mp (Option.some.inj h)
  case h_4 =>
    split at h
    · obtain ⟨t, rfl⟩ := kind_of_type h
      exact List.mem_cons_self
    · obtain ⟨t, rfl⟩ := kind_of_type h
      exact List.mem_cons_self
  case h_5 =>
    split at h
    · cases h
      exact List.mem_cons_self
    · exact nomatch h
  case h_6 =>
    split at h
    · obtain ⟨t, rfl⟩ := kind_of_type h
      exact List.mem_cons_self
    · exact nomatch h
  case h_7 | h_8 | h_11 =>
    obtain ⟨w', -, h⟩ := except_bind_eq_ok.mp h
    cases h
    exact List.mem_cons_self
  -- The others have one argument and make their value of it.
  all_goals
    cases h
    exact List.mem_cons_self

end Operation

/-! ### Values that do not fit -/

namespace Argument

variable {a : Argument} {v : Value} {p : Problem}

/-- A value that is no type is refused at its argument where a type is wanted. -/
theorem type_eq_error (hv : a.value () = .ok v) (hp : Role.type.problem? v = some p) :
    a.type = .error ⟨p, a.span⟩ := by
  unfold type
  rw [hv]
  cases v with
  | type t => exact nomatch hp
  | bool b | size n =>
    cases hp
    rfl

/-- A value that is no condition is refused at its argument where one is wanted. -/
theorem condition_eq_error (hv : a.value () = .ok v) (hp : Role.condition.problem? v = some p) :
    a.condition = .error ⟨p, a.span⟩ := by
  unfold condition
  rw [hv]
  cases v with
  | type t =>
    cases hp
    rfl
  | bool b | size n => exact nomatch hp

/-- A value that is no size is refused at its argument where one is wanted. -/
theorem size_eq_error (hv : a.value () = .ok v) (hp : Role.index.problem? v = some p) :
    a.size = .error ⟨p, a.span⟩ := by
  unfold size
  rw [hv]
  cases v with
  | size n => exact nomatch hp
  | bool b | type t =>
    cases hp
    rfl

/-- An argument that does not fail as a type has one. -/
theorem exists_type (h : ¬ a.FailsAsType) : ∃ t, a.type = .ok t := by
  cases ht : a.type with
  | ok t => exact ⟨t, rfl⟩
  | error d => exact absurd ⟨d, ht⟩ h

/-- An argument that does not settle a connective has a value of the other truth. -/
theorem exists_condition {decisive : Bool} (h : ¬ a.Settles decisive) :
    ∃ v, a.condition = .ok v ∧ truth v = !decisive := by
  cases hv : a.condition with
  | ok v => exact ⟨v, rfl, Bool.eq_not.mpr fun ht => h (.inr ⟨v, hv, ht⟩)⟩
  | error d => exact absurd (.inl ⟨d, hv⟩) h

end Argument

/-- A connective fails with the first operand that fails, if none in front decides. -/
theorem Decision.decideFrom_eq_error {decisive : Bool} {args : List Argument} {i : Nat}
    {a : Argument} {d : Diagnostic} (ha : args[i]? = some a) (hd : a.condition = .error d)
    (hfront : ∀ j < i, ∀ b, args[j]? = some b → ¬ b.Settles decisive) (index : Nat)
    (sofar : Decision Value) :
    decideFrom decisive index sofar (args.map fun a (_ : Unit) => a.condition) = .error d := by
  induction args generalizing i index sofar with
  | nil => exact nomatch ha
  | cons b args ih =>
    rw [List.map_cons, decideFrom]
    cases i with
    | zero =>
      cases ha
      rw [hd]
      rfl
    | succ i =>
      -- An operand in front has a value that is not decisive, so it is passed.
      obtain ⟨v, hv, htruth⟩ := Argument.exists_condition (hfront 0 (Nat.succ_pos i) b rfl)
      have hpass : (truth v == decisive) = false := by simp [htruth]
      rw [hv, except_bind_ok, hpass, if_neg Bool.false_ne_true]
      exact ih ha (fun j hj c hc => hfront (j + 1) (Nat.succ_lt_succ hj) c hc) _ _

/-- A run through types fails with the first argument that is none. -/
theorem mapM_type_eq_error {args : List Argument} {i : Nat} {a : Argument} {d : Diagnostic}
    (ha : args[i]? = some a) (hd : a.type = .error d)
    (hfront : ∀ j < i, ∀ b, args[j]? = some b → ¬ b.FailsAsType) :
    args.mapM Argument.type = .error d := by
  obtain ⟨hlt, rfl⟩ := List.getElem?_eq_some_iff.mp ha
  refine mapM_eq_error_iff.mpr ⟨args.take i, args[i], args.drop (i + 1), ?_, ?_, hd⟩
  · rw [List.getElem_cons_drop hlt, List.take_append_drop]
  · intro b hb
    obtain ⟨j, hj, rfl⟩ := List.mem_take_iff_getElem.mp hb
    exact Argument.exists_type (hfront j (by omega) _ (List.getElem?_eq_getElem (by omega)))

namespace Operation

variable {o : Operation} {args : List Argument} {i : Nat} {a : Argument} {v : Value} {p : Problem}

/-- Where there are at most two arguments, one behind the first is the second and the last. -/
theorem eq_singleton_of_not_refuses {rest : List Argument} (hcount : ¬ o.Refuses (rest.length + 1))
    (harity : o.arity? = some (.exactly 2) ∨ o.arity? = some .oneOrTwo)
    (ha : rest[i]? = some a) : i = 0 ∧ rest = [a] := by
  -- One argument more would be too many for the operation.
  have hlen : rest.length ≤ 1 := by
    refine Nat.le_of_not_lt fun hlt => hcount ?_
    rcases harity with h | h
    · exact ⟨_, h, beq_eq_false_iff_ne.mpr (by omega)⟩
    · refine ⟨_, h, Bool.or_eq_false_iff.mpr ⟨?_, ?_⟩⟩
      · exact beq_eq_false_iff_ne.mpr (by omega)
      · exact beq_eq_false_iff_ne.mpr (by omega)
  match rest, i with
  | [_], 0 =>
    cases ha
    exact ⟨rfl, rfl⟩
  | [_], _ + 1 => exact nomatch ha
  | _ :: _ :: _, _ => simp at hlen

/-- The first argument is always looked at. -/
theorem result?_of_first_misfit {rest : List Argument} (hv : a.value () = .ok v)
    (hp : (o.role 0).problem? v = some p) (hcount : ¬ o.Refuses (a :: rest).length) :
    o.result? (a :: rest) = some (.error ⟨p, a.span⟩) := by
  have hsome : o.result? (a :: rest) ≠ none := fun h => hcount (result?_eq_none_iff.mp h)
  generalize hargs : a :: rest = args at hsome ⊢
  unfold result? at hsome ⊢
  -- One goal for each clause of `result?`. The last clause is that of wrong counts.
  split at hsome
  case h_14 => exact absurd rfl hsome
  all_goals cases hargs
  -- The connectives.
  case h_1 | h_2 =>
    have hfails := Argument.condition_eq_error hv hp
    exact congrArg (fun d => some (decided <$> d))
      (Decision.decideFrom_eq_error rfl hfails (fun j hj => absurd hj (Nat.not_lt_zero j)) 0 _)
  -- The operations that want a condition first. The others want a type.
  case h_3 | h_4 | h_5 | h_6 =>
    rw [Argument.condition_eq_error hv hp]
    rfl
  all_goals
    rw [Argument.type_eq_error hv hp]
    rfl

/-- A value that does not fit, in a place that the operation looks at, is what it fails with. -/
theorem result?_of_misfit (ha : args[i]? = some a) (hv : a.value () = .ok v)
    (hp : (o.role i).problem? v = some p) (hreached : ¬ o.Skips args i) :
    o.result? args = some (.error ⟨p, a.span⟩) := by
  have hcount : ¬ o.Refuses args.length := fun h => hreached (.wrongCount h)
  obtain _ | ⟨b, rest⟩ := args
  · simp at ha
  obtain _ | i := i
  · cases ha
    exact result?_of_first_misfit hv hp hcount
  -- Now there is an argument in front, and the place is reached because of its value.
  cases o with
  | negation | rank | predicate _ | transformation _ =>
    have hone : rest = [] := by simpa [Refuses, arity?, Arity.admits] using hcount
    simp [hone] at ha
  | conjunction =>
    have hrun := Decision.decideFrom_eq_error ha (Argument.condition_eq_error hv hp)
      (fun j hj b hb hs => hreached (.conjunct hb hj hs)) 0 (.vacuous true)
    exact congrArg (fun d => some (decided <$> d)) hrun
  | disjunction =>
    have hrun := Decision.decideFrom_eq_error ha (Argument.condition_eq_error hv hp)
      (fun j hj b hb hs => hreached (.disjunct hb hj hs)) 0 (.vacuous false)
    exact congrArg (fun d => some (decided <$> d)) hrun
  | isAnyOf =>
    have hfails := Argument.type_eq_error hv hp
    have hfront : ∀ j < i + 1, ∀ c, (b :: rest)[j]? = some c → ¬ c.FailsAsType :=
      fun j hj c hc hs => hreached (.behindCandidate hc hj hs)
    obtain ⟨t, ht⟩ := Argument.exists_type (hfront 0 (Nat.succ_pos i) b rfl)
    have hrun : rest.mapM Argument.type = .error ⟨p, a.span⟩ :=
      mapM_type_eq_error ha hfails fun j hj c hc => hfront (j + 1) (Nat.succ_lt_succ hj) c hc
    rw [result?, ht, except_bind_ok, hrun]
    rfl
  | conditional =>
    have htwo : rest.length = 2 := by simpa [Refuses, arity?, Arity.admits] using hcount
    obtain ⟨c, c', rfl⟩ := List.length_eq_two.mp htwo
    obtain _ | _ | i := i
    · cases ha
      obtain ⟨w, hw, htruth⟩ : ∃ w, b.condition = .ok w ∧ truth w = true :=
        Argument.exists_condition fun hs => hreached (.firstBranch hs)
      rw [result?, hw, except_bind_ok, if_pos htruth, Argument.type_eq_error hv hp]
      rfl
    · cases ha
      obtain ⟨w, hw, htruth⟩ : ∃ w, b.condition = .ok w ∧ truth w = false :=
        Argument.exists_condition fun hs => hreached (.secondBranch hs)
      rw [result?, hw, except_bind_ok, if_neg (Bool.eq_false_iff.mp htruth),
        Argument.type_eq_error hv hp]
      rfl
    · simp at ha
  | isSame =>
    obtain ⟨rfl, rfl⟩ := eq_singleton_of_not_refuses hcount (.inl rfl) ha
    obtain ⟨t, ht⟩ := Argument.exists_type fun hs => hreached (.behindSame hs)
    rw [result?, ht, except_bind_ok, Argument.type_eq_error hv hp]
    rfl
  | enableIf =>
    obtain ⟨rfl, rfl⟩ := eq_singleton_of_not_refuses hcount (.inr rfl) ha
    obtain ⟨w, hw, htruth⟩ : ∃ w, b.condition = .ok w ∧ truth w = true :=
      Argument.exists_condition fun hs => hreached (.payload hs)
    rw [result?, hw, except_bind_ok, if_pos htruth, Argument.type_eq_error hv hp]
    rfl
  | extent =>
    obtain ⟨rfl, rfl⟩ := eq_singleton_of_not_refuses hcount (.inr rfl) ha
    obtain ⟨t, ht⟩ := Argument.exists_type fun hs => hreached (.dimension hs)
    rw [result?, ht, except_bind_ok, Argument.size_eq_error hv hp]
    rfl

end Operation

/-! ### Queries -/

namespace Scope

variable {s : Scope}

/-- A call that has a value has that of its operation. -/
theorem kind_mem_kindsOfName {op : String} {opSpan span : Span} {args : List Argument} {v : Value}
    (h : s.call op opSpan args span = .ok v) :
    v.kind ∈ s.kindsOfName (Operation.baseName op) := by
  obtain ⟨o, ho, hresult⟩ := exists_result?_of_call h
  rw [(kinds_and_role_of_operation? ho).1]
  exact Operation.kind_mem_kinds hresult

/-- The kind of a value is one that its query can have. -/
theorem kind_mem_kinds {q : Query} {v : Value} (h : s.evaluate q = .ok v) :
    v.kind ∈ s.kinds q := by
  cases q with
  | bool b span | size n span =>
    cases h
    exact List.mem_singleton_self _
  | type t =>
    obtain ⟨d, -, rfl⟩ := except_map_eq_ok.mp h
    exact List.mem_singleton_self _
  | call op opSpan args span => exact kind_mem_kindsOfName h

/-- An argument that the call looks at and that does not fit is what the call fails with. -/
theorem evaluate_of_misfit {op : String} {opSpan span : Span} {args : List Query} {i : Nat}
    {q : Query} {v : Value} {p : Problem} (hq : args[i]? = some q) (hv : s.evaluate q = .ok v)
    (hp : (Role.ofName (Operation.baseName op) i).problem? v = some p)
    (hreached : ¬ s.Skips op args i) :
    s.evaluate (.call op opSpan args span) = .error ⟨p, q.span⟩ := by
  unfold Skips at hreached
  split at hreached
  · exact absurd trivial hreached
  · next o ho =>
    rw [(kinds_and_role_of_operation? ho).2] at hp
    have harg : (s.suspend args)[i]? = some ⟨q.span, fun _ => s.evaluate q⟩ := by
      rw [suspend_eq_map, List.getElem?_map, hq]
      rfl
    exact call_eq_of_result? ho (Operation.result?_of_misfit harg hv hp hreached)

/-- Queries are kind-sound. A value has a kind that its query can have. An argument of another
kind, in a place that its call looks at, makes the call fail with the problem of the place at the
span of the argument. And no connective comes to a type. -/
theorem evaluate_kindSound (s : Scope) :
    (∀ (q : Query) (v : Value), s.evaluate q = .ok v → v.kind ∈ s.kinds q) ∧
    (∀ (op : String) (opSpan span : Span) (args : List Query) (i : Nat) (q : Query) (v : Value)
      (p : Problem), args[i]? = some q → s.evaluate q = .ok v →
      (Role.ofName (Operation.baseName op) i).problem? v = some p → ¬ s.Skips op args i →
      s.evaluate (.call op opSpan args span) = .error ⟨p, q.span⟩) ∧
    ∀ (op : String) (opSpan span : Span) (args : List Query) (t : Descriptor),
      Operation.baseName op ∈ ["conjunction", "disjunction"] →
      s.evaluate (.call op opSpan args span) ≠ .ok (.type t) := by
  refine ⟨fun q v h => kind_mem_kinds h, fun op opSpan span args i q v p hq hv hp hreached =>
    evaluate_of_misfit hq hv hp hreached, fun op opSpan span args t hop h => ?_⟩
  have hkind := kind_mem_kinds h
  rw [kinds, kindsOfName, if_pos hop] at hkind
  simp [Value.kind] at hkind

/-- The rank of a type is a size. As an index it is fine, and the type itself is not. -/
theorem evaluate_kindSound_of_extent :
    let s := Scope.ofUniverse .empty
    let int (n : Nat) : Query :=
      .type (.mk ⟨.scalar .int, .none, ⟨n, n + 3⟩⟩ (.flat [] []) ⟨n, n + 3⟩)
    let q : Query := .call "rank_v" ⟨0, 6⟩ [int 7] ⟨0, 11⟩
    let q' : Query := .call "extent_v" ⟨0, 8⟩ [int 9, int 14] ⟨0, 18⟩
    (s.evaluate q = .ok (.size 0) ∧ .size ∈ s.kinds q) ∧
    (¬ s.Skips "extent_v" [int 9, int 14] 1 ∧
      s.evaluate q' = .error ⟨.expectedSize (.type .int), ⟨14, 17⟩⟩) ∧
    s.evaluate (.call "conjunction" ⟨0, 11⟩ [q] ⟨0, 24⟩) ≠ .ok (.type .int) := by
  intro s int q q'
  have hvalue : s.evaluate q = .ok (.size 0) := by decide +kernel
  have hint : s.evaluate (int 14) = .ok (.type .int) := by decide +kernel
  have hreached : ¬ s.Skips "extent_v" [int 9, int 14] 1 := by
    intro hskips
    have hskips : Operation.extent.Skips (s.suspend [int 9, int 14]) 1 := hskips
    cases hskips with
    | wrongCount hw => simp [Operation.Refuses, Operation.arity?, Arity.admits, suspend] at hw
    | dimension hs => exact Argument.not_failsAsType (t := .int) (by decide +kernel) hs
  obtain ⟨hkinds, hmisfit, hconnective⟩ := evaluate_kindSound s
  exact ⟨⟨hvalue, hkinds q _ hvalue⟩,
    ⟨hreached, hmisfit _ _ _ _ 1 (int 14) _ _ rfl hint (by decide +kernel) hreached⟩,
    hconnective _ _ _ _ _ (by decide +kernel)⟩

end Scope

end TypeTraits
