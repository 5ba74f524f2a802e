import TypeTraits.Proofs.Query.Canonical

/-!
# `TypeTraits.Proofs.Query.DeMorgan`: negations and connectives change places

The negation of a conjunction is the disjunction of the negations, and the other way round, for
queries that stop early and may fail. A loop over negated operands that stops at the other truth
runs the same operands as the loop over the operands themselves, and comes to the opposite
decision (`Decision.decideFrom_opposite`). An operand that fails, or is no condition, fails in both
places with the same diagnostic: a negation looks at it as a connective does.

Behind the connective the negation looks at the value that decided, which is a condition again.
So the two sides agree in every outcome (`Scope.evaluate_deMorgan`).
-/

set_option autoImplicit false

namespace TypeTraits

/-! ### Connectives -/

namespace Decision

variable {α β : Type}

/-- The decision of the opposite truth, with another value of the operand. -/
def opposite (f : α → β) : Decision α → Decision β
  | operand i v => operand i (f v)
  | vacuous b => vacuous !b

/-- Operands of the opposite truth lead to the opposite decision. -/
theorem decideFrom_opposite {m : Type → Type} [Monad m] [LawfulMonad m] [Truth α] [Truth β]
    {f : α → β} (hf : ∀ v, truth (f v) = !truth v) {decisive : Bool} {index : Nat}
    {sofar : Decision α} (operands : List (Unit → m α)) :
    decideFrom (!decisive) index (sofar.opposite f) (operands.map fun run _ => f <$> run ()) =
      opposite f <$> decideFrom decisive index sofar operands := by
  induction operands generalizing index sofar with
  | nil => simp [decideFrom]
  | cons run rest ih =>
    rw [List.map_cons, decideFrom, decideFrom, bind_map_left, map_bind]
    refine bind_congr fun v => ?_
    -- An operand decides on one side exactly if it does on the other.
    have hdecides : (truth (f v) == !decisive) = (truth v == decisive) := by
      rw [hf]
      cases truth v <;> cases decisive <;> rfl
    rw [hdecides]
    split
    · exact (map_pure (opposite f) (operand index v)).symm
    · show decideFrom (!decisive) (index + 1) ((operand index v).opposite f) _ = _
      exact ih

end Decision

/-! ### Operations -/

/-- The argument is evaluated as the negation of the other one. -/
def Argument.Negates (a' a : Argument) : Prop :=
  a'.value () = do return .bool (negation (← a.condition))

namespace Argument

variable {a a' : Argument}

/-- A value that is never a type is a condition. -/
theorem condition_eq_value (h : ∀ t, a.value () ≠ .ok (.type t)) : a.condition = a.value () := by
  unfold condition
  cases hv : a.value () with
  | error d => rfl
  | ok v =>
    cases v with
    | type t => exact absurd hv (h t)
    | bool b | size n => rfl

/-- The negation of an argument is a condition, and fails where the argument is none. -/
theorem Negates.condition_eq (h : a'.Negates a) :
    a'.condition = (fun v => Value.bool (negation v)) <$> a.condition := by
  have hvalue : a'.value () = (fun v => Value.bool (negation v)) <$> a.condition := by
    rw [h]
    cases a.condition <;> rfl
  rw [condition_eq_value, hvalue]
  intro t ht
  rw [hvalue] at ht
  cases hc : a.condition with
  | error d => simp [hc] at ht
  | ok v => simp [hc] at ht

end Argument

namespace Operation

/-- The value of the opposite decision is the negation of the value. -/
theorem decided_opposite (d : Decision Value) :
    decided (d.opposite fun v => .bool (TypeTraits.negation v)) =
      .bool (TypeTraits.negation (decided d)) := by
  cases d <;> rfl

/-- The loop over negated arguments that stops at the other truth comes to the negation of what
the loop over the arguments comes to. -/
theorem decided_decideFrom_negates {args args' : List Argument}
    (h : List.Forall₂ (fun a a' => a'.Negates a) args args') (decisive : Bool) :
    decided <$> Decision.decideFrom (!decisive) 0 (.vacuous decisive)
        (args'.map fun a (_ : Unit) => a.condition) =
      (fun v => Value.bool (TypeTraits.negation v)) <$> decided <$>
        Decision.decideFrom decisive 0 (.vacuous !decisive)
          (args.map fun a (_ : Unit) => a.condition) := by
  -- The operands on one side are the negated operands on the other side.
  have hoperands : (args'.map fun a (_ : Unit) => a.condition) =
      (args.map fun a (_ : Unit) => a.condition).map
        fun run _ => (fun v => Value.bool (TypeTraits.negation v)) <$> run () := by
    induction h with
    | nil => rfl
    | cons ha _ ih => rw [List.map_cons, List.map_cons, List.map_cons, ih, ha.condition_eq]
  have hstart : (.vacuous decisive : Decision Value) =
      (.vacuous !decisive : Decision Value).opposite fun v => .bool (TypeTraits.negation v) := by
    rw [Decision.opposite, Bool.not_not]
  rw [hoperands, hstart, Decision.decideFrom_opposite fun _ => rfl]
  simp only [Functor.map_map, decided_opposite]

/-- Negated behind a connective, arguments come to the negation of what they come to. -/
theorem negation_result? {a : Argument} {decisive b : Bool} {args : List Argument}
    (h : a.value () = decided <$> Decision.decideFrom decisive 0 (.vacuous b)
      (args.map fun a (_ : Unit) => a.condition)) :
    negation.result? [a] = some ((fun v => Value.bool (TypeTraits.negation v)) <$> a.value ()) := by
  have hcondition : a.condition = a.value () := by
    refine Argument.condition_eq_value fun t ht => ?_
    rw [h] at ht
    exact decided_ne_type ht
  rw [result?, hcondition]
  cases a.value () <;> rfl

end Operation

/-! ### Queries -/

/-- The query calls the name, with an ending or without, on the arguments. -/
def Query.IsCallOf (name : String) (args : List Query) (q : Query) : Prop :=
  ∃ op opSpan span, Operation.baseName op = name ∧ q = .call op opSpan args span

namespace Scope

variable {s : Scope} {args negated : List Query}

/-- A call has the result of the operation that its name stands for. -/
theorem evaluate_of_isCallOf {name : String} {q : Query} (hq : q.IsCallOf name args) {o : Operation}
    (ho : s.operation? name = some o) {x : Except Diagnostic Value}
    (hx : o.result? (s.suspend args) = some x) : s.evaluate q = x := by
  obtain ⟨op, opSpan, span, rfl, rfl⟩ := hq
  exact call_eq_of_result? ho hx

/-- Negations of queries are negations of the suspended queries. -/
theorem negates_suspend
    (h : List.Forall₂ (fun q n => Query.IsCallOf "negation" [q] n) args negated) :
    List.Forall₂ (fun a a' => a'.Negates a) (s.suspend args) (s.suspend negated) := by
  induction h with
  | nil => exact .nil
  | cons hn _ ih =>
    rw [suspend, suspend]
    exact .cons (evaluate_of_isCallOf hn rfl rfl) ih

/-- A connective with a negation in front is the other connective with a negation in front of each
operand. -/
theorem evaluate_negation_eq {name name' : String} {o o' : Operation} (decisive : Bool)
    (h : List.Forall₂ (fun q n => Query.IsCallOf "negation" [q] n) args negated)
    (ho : s.operation? name = some o) (ho' : s.operation? name' = some o')
    (hresult : ∀ as, o.result? as = some (Operation.decided <$>
      Decision.decideFrom decisive 0 (.vacuous !decisive) (as.map fun a (_ : Unit) => a.condition)))
    (hresult' : ∀ as, o'.result? as = some (Operation.decided <$>
      Decision.decideFrom (!decisive) 0 (.vacuous decisive)
        (as.map fun a (_ : Unit) => a.condition)))
    {c left right : Query} (hc : c.IsCallOf name args) (hleft : left.IsCallOf "negation" [c])
    (hright : right.IsCallOf name' negated) :
    s.evaluate left = s.evaluate right ∧ ∀ v, s.evaluate left = .ok v → ∃ b, v = .bool b := by
  have hvalue := evaluate_of_isCallOf hc ho (hresult _)
  have hnegation : s.evaluate left = (fun v => Value.bool (negation v)) <$> s.evaluate c :=
    evaluate_of_isCallOf hleft rfl (Operation.negation_result? hvalue)
  refine ⟨?_, fun v hv => ?_⟩
  · rw [hnegation, hvalue, evaluate_of_isCallOf hright ho' (hresult' _),
      Operation.decided_decideFrom_negates (negates_suspend h)]
  · rw [hnegation] at hv
    obtain ⟨w, -, rfl⟩ := except_map_eq_ok.mp hv
    exact ⟨_, rfl⟩

/-- De Morgan's laws: the negation of a connective on some queries comes to what the other
connective comes to on their negations, to the same boolean or to the same diagnostic at the same
span. The names may have endings, and the places are arbitrary. -/
theorem evaluate_deMorgan
    (h : List.Forall₂ (fun q n => Query.IsCallOf "negation" [q] n) args negated) :
    (∀ c left right : Query, c.IsCallOf "conjunction" args → left.IsCallOf "negation" [c] →
      right.IsCallOf "disjunction" negated →
      s.evaluate left = s.evaluate right ∧ ∀ v, s.evaluate left = .ok v → ∃ b, v = .bool b) ∧
    ∀ c left right : Query, c.IsCallOf "disjunction" args → left.IsCallOf "negation" [c] →
      right.IsCallOf "conjunction" negated →
      s.evaluate left = s.evaluate right ∧ ∀ v, s.evaluate left = .ok v → ∃ b, v = .bool b := by
  constructor
  · intro c left right hc hleft hright
    exact evaluate_negation_eq false h rfl rfl (fun _ => rfl) (fun _ => rfl) hc hleft hright
  · intro c left right hc hleft hright
    exact evaluate_negation_eq true h rfl rfl (fun _ => rfl) (fun _ => rfl) hc hleft hright

/-- A size and a type. In the conjunction the size is true and the type is refused; the disjunction
does not come to it. -/
theorem evaluate_deMorgan_of_size_and_type :
    let s := Scope.ofUniverse .empty
    let int : Query := .type (.mk ⟨.scalar .int, .none, ⟨24, 27⟩⟩ (.flat [] []) ⟨24, 27⟩)
    let args : List Query := [.size 2 ⟨21, 22⟩, int]
    let not (q : Query) : Query := .call "negation_v" ⟨0, 10⟩ [q] ⟨0, 29⟩
    let and (qs : List Query) : Query := .call "conjunction" ⟨9, 20⟩ qs ⟨9, 28⟩
    let or (qs : List Query) : Query := .call "disjunction" ⟨9, 20⟩ qs ⟨9, 28⟩
    List.Forall₂ (fun q n => Query.IsCallOf "negation" [q] n) args (args.map not) ∧
    s.evaluate (not (and args)) = .error ⟨.expectedCondition .int, ⟨24, 27⟩⟩ ∧
    s.evaluate (not (and args)) = s.evaluate (or (args.map not)) ∧
    s.evaluate (not (or args)) = .ok (.bool false) ∧
    s.evaluate (not (or args)) = s.evaluate (and (args.map not)) := by
  intro s int args not and or
  have hnot : ∀ q, (not q).IsCallOf "negation" [q] :=
    fun q => ⟨"negation_v", ⟨0, 10⟩, ⟨0, 29⟩, by decide +kernel, rfl⟩
  have hand : ∀ qs, (and qs).IsCallOf "conjunction" qs :=
    fun qs => ⟨"conjunction", ⟨9, 20⟩, ⟨9, 28⟩, by decide +kernel, rfl⟩
  have hor : ∀ qs, (or qs).IsCallOf "disjunction" qs :=
    fun qs => ⟨"disjunction", ⟨9, 20⟩, ⟨9, 28⟩, by decide +kernel, rfl⟩
  have hargs : List.Forall₂ (fun q n => Query.IsCallOf "negation" [q] n) args (args.map not) :=
    .cons (hnot _) (.cons (hnot _) .nil)
  have h := evaluate_deMorgan (s := s) hargs
  exact ⟨hargs, by decide +kernel, (h.1 _ _ _ (hand _) (hnot _) (hor _)).1, by decide +kernel,
    (h.2 _ _ _ (hor _) (hnot _) (hand _)).1⟩

end Scope

end TypeTraits
