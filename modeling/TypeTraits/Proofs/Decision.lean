import Mathlib.Order.Nat
import TypeTraits.Decision

/-!
# `TypeTraits.Proofs.Decision`: connectives run no operand behind the deciding one

To say which operands a connective runs, the operands here have an outcome that is known
beforehand and announce themselves when they are run (`Decision.announced`). An
announcement may be any effect in any lawful monad, for instance an entry in a log. So what
a run of the connective does says which operands were run, how often and in which order.

An outcome settles a connective when it is a failure or has the decisive truth.
`Decision.StopsEarly` describes the run: the operands up to the first that settles are run,
each once and in order, and its outcome is the result. Where none settles all are run and
the last one has the result. `Decision.connectives_stop_early` is the main theorem. Both
connectives stop early, a result is as true as the conjunction or the disjunction of all
operands when none of them fails, and on operands that cannot fail a connective does the
same with and without failure in the monad.

The first operand that settles and the last one of all are alike in one respect: the loop
ends there with this operand's outcome (`decideFrom_announced_append_cons`). Both cases
of the main theorem are this lemma.
-/

set_option autoImplicit false

namespace TypeTraits.Decision

variable {m : Type → Type} [Monad m] {ε α : Type}

/-- Operands of known outcomes: the one at an index makes its announcement, then it has
its outcome. -/
def announced (announce : Nat → m PUnit) (outcomes : List (Except ε α)) :
    List (Unit → ExceptT ε m α) :=
  outcomes.mapIdx fun i o _ => ExceptT.mk (do announce i; pure o)

variable [Truth α]

/-- The outcome leaves nothing to decide: a failure, or a value of the decisive truth. -/
def Settles (decisive : Bool) : Except ε α → Prop
  | .error _ => True
  | .ok v => truth v = decisive

/-- The run of a connective over announced operands ends at the first that settles. -/
structure StopsEarly (decisive : Bool) (announce : Nat → m PUnit) (outcomes : List (Except ε α))
    (run : m (Except ε (Decision α))) : Prop where
  /-- The operands up to the first that settles are run, and its outcome is the result. -/
  settled {i : Nat} {o : Except ε α} :
    IsLeast {j | ∃ o ∈ outcomes[j]?, Settles decisive o} i → outcomes[i]? = some o →
      run = do forM (List.range (i + 1)) announce; pure (operand i <$> o)
  /-- Where none settles all are run, and the result is the outcome of the last. -/
  unsettled {o : Except ε α} :
    (∀ o ∈ outcomes, ¬ Settles decisive o) → outcomes.getLast? = some o →
      run = do
        forM (List.range outcomes.length) announce
        pure (operand (outcomes.length - 1) <$> o)
  /-- Without operands nothing is run. -/
  empty : outcomes = [] → run = pure (.ok (vacuous !decisive))

/-! ### The loop -/

variable [LawfulMonad m] {decisive : Bool}

/-- One operand: its announcement, and then its failure, the decision or the operands
behind it. -/
theorem decideFrom_announced_cons {announce : Nat → m PUnit} {index : Nat} {sofar : Decision α}
    {o : Except ε α} {outcomes : List (Except ε α)} :
    (decideFrom decisive index sofar (announced announce (o :: outcomes))).run = (do
      announce 0
      match o with
      | .error e => pure (.error e)
      | .ok v =>
        if truth v == decisive then pure (.ok (operand index v))
        else (decideFrom decisive (index + 1) (operand index v)
          (announced (fun i => announce (i + 1)) outcomes)).run) := by
  rw [announced, List.mapIdx_cons, decideFrom, ExceptT.run_bind, ExceptT.run_mk, bind_assoc]
  refine bind_congr fun _ => ?_
  rw [pure_bind]
  cases o with
  | error e => rfl
  | ok v => exact apply_ite ExceptT.run _ _ _

/-- The loop passes operands that do not settle. It ends with the outcome of one that
settles, or behind which there is none. -/
theorem decideFrom_announced_append_cons {front behind : List (Except ε α)} {o : Except ε α}
    (hfront : ∀ p ∈ front, ¬ Settles decisive p) (ho : Settles decisive o ∨ behind = [])
    {announce : Nat → m PUnit} {index : Nat} {sofar : Decision α} :
    (decideFrom decisive index sofar (announced announce (front ++ o :: behind))).run = (do
      forM (List.range (front.length + 1)) announce
      pure (operand (index + front.length) <$> o)) := by
  -- The operands behind the first announce themselves at indices one higher, so the
  -- announcement varies with the list.
  induction front generalizing announce index sofar with
  | nil =>
    have hrange : forM (List.range 1) announce = (do announce 0; pure ⟨⟩) := rfl
    rw [List.nil_append, decideFrom_announced_cons, List.length_nil, hrange, bind_assoc]
    refine bind_congr fun _ => ?_
    rw [pure_bind]
    cases o with
    | error e => rfl
    | ok v =>
      obtain hv | rfl := ho
      · have hv : truth v = decisive := hv
        simp [hv]
      · -- Whether the last operand decides or not, it is the result.
        simp [announced, decideFrom]
  | cons p front ih =>
    rw [List.forall_mem_cons] at hfront
    rw [List.cons_append, decideFrom_announced_cons, List.length_cons, List.range_succ_eq_map,
      List.forM_cons, List.forM_map, bind_assoc]
    refine bind_congr fun _ => ?_
    cases p with
    | error e => exact absurd trivial hfront.1
    | ok v =>
      have hpass : (truth v == decisive) = false := by simpa [Settles] using hfront.1
      simp only [hpass, Bool.false_eq_true, if_false]
      rw [ih hfront.2, Nat.add_right_comm, Nat.add_assoc]

/-- The loop ends at an index where no operand in front settles and where the operand
settles or is the last. -/
theorem decideFrom_announced_eq {outcomes : List (Except ε α)} {i : Nat} {o : Except ε α}
    (ho : outcomes[i]? = some o)
    (hfront : ∀ j < i, ∀ p ∈ outcomes[j]?, ¬ Settles decisive p)
    (hend : Settles decisive o ∨ outcomes.length = i + 1) {announce : Nat → m PUnit}
    {sofar : Decision α} :
    (decideFrom decisive 0 sofar (announced announce outcomes)).run =
      (do forM (List.range (i + 1)) announce; pure (operand i <$> o)) := by
  obtain ⟨hlt, rfl⟩ := List.getElem?_eq_some_iff.mp ho
  -- The operands are split where the run ends.
  have hsplit : outcomes.take i ++ outcomes[i] :: outcomes.drop (i + 1) = outcomes := by
    rw [List.getElem_cons_drop hlt, List.take_append_drop]
  have hlen : (outcomes.take i).length = i := List.length_take_of_le hlt.le
  have htake : ∀ p ∈ outcomes.take i, ¬ Settles decisive p := by
    intro p hp
    obtain ⟨j, hj, rfl⟩ := List.mem_take_iff_getElem.mp hp
    exact hfront j (by omega) _ (List.getElem?_eq_getElem (by omega))
  have hrest : Settles decisive outcomes[i] ∨ outcomes.drop (i + 1) = [] :=
    hend.imp_right fun h => List.drop_eq_nil_of_le h.le
  have hrun : (decideFrom decisive 0 sofar (announced announce
      (outcomes.take i ++ outcomes[i] :: outcomes.drop (i + 1)))).run = _ :=
    decideFrom_announced_append_cons htake hrest
  rwa [hsplit, hlen, Nat.zero_add] at hrun

/-- The loop that both connectives share ends at the first operand that settles. -/
theorem stopsEarly_decideFrom {announce : Nat → m PUnit} {outcomes : List (Except ε α)} :
    StopsEarly decisive announce outcomes
      (decideFrom decisive 0 (vacuous !decisive) (announced announce outcomes)).run where
  settled {i o} hi ho := by
    obtain ⟨p, hp, hsettles⟩ := hi.1
    obtain rfl : o = p := Option.some.inj (ho.symm.trans hp)
    refine decideFrom_announced_eq ho (fun j hj p hp hs => ?_) (.inl hsettles)
    exact absurd (hi.2 ⟨p, hp, hs⟩) (Nat.not_le_of_lt hj)
  unsettled {o} hnone hlast := by
    have hpos : outcomes.length ≠ 0 := by
      rintro h
      rw [List.length_eq_zero_iff.mp h] at hlast
      exact nomatch hlast
    have hlen : outcomes.length - 1 + 1 = outcomes.length := by omega
    rw [List.getLast?_eq_getElem?] at hlast
    have hrun : (decideFrom decisive 0 (vacuous !decisive)
        (announced announce outcomes)).run = _ :=
      decideFrom_announced_eq hlast (fun j _ p hp => hnone p (List.mem_of_getElem? hp))
        (.inr hlen.symm)
    rwa [hlen] at hrun
  empty h := by
    subst h
    rfl

/-! ### Truth, and operands that cannot fail -/

/-- Where no operand fails, a result has the decisive truth if and only if an operand has. -/
theorem StopsEarly.exists_truth_iff {announce : Nat → m PUnit} {values : List α}
    {run : m (Except ε (Decision α))} (h : StopsEarly decisive announce (values.map .ok) run) :
    ∃ n d, run = (do forM (List.range n) announce; pure (.ok d)) ∧
      (truth d = decisive ↔ ∃ v ∈ values, truth v = decisive) := by
  by_cases hex : ∃ v ∈ values, truth v = decisive
  · have hsome : ∃ j : Nat, ∃ o ∈ (values.map .ok : List (Except ε α))[j]?, Settles decisive o := by
      obtain ⟨v, hv, ht⟩ := hex
      obtain ⟨j, hj⟩ := List.mem_iff_getElem?.mp hv
      exact ⟨j, .ok v, by simp [hj], ht⟩
    -- The first operand with the decisive value ends the run with it.
    classical
    have hleast := Nat.isLeast_find hsome
    obtain ⟨o, ho, hs⟩ := hleast.1
    obtain ⟨v, -, rfl⟩ : ∃ v ∈ values, Except.ok v = o :=
      List.mem_map.mp (List.mem_of_getElem? ho)
    exact ⟨_, operand _ v, h.settled hleast ho, iff_of_true hs hex⟩
  · have hnone : ∀ o ∈ (values.map .ok : List (Except ε α)), ¬ Settles decisive o := by
      rintro o ho hs
      obtain ⟨w, hw, rfl⟩ := List.mem_map.mp ho
      exact hex ⟨w, hw, hs⟩
    -- Without such an operand the last one ends it, if there is any.
    cases hlast : values.getLast? with
    | none =>
      obtain rfl : values = [] := List.getLast?_eq_none_iff.mp hlast
      refine ⟨0, vacuous !decisive, ?_, iff_of_false (by simp [truth]) hex⟩
      rw [h.empty rfl, List.range_zero, List.forM_nil, pure_bind]
    | some v =>
      have hlast' : (values.map .ok : List (Except ε α)).getLast? = some (.ok v) := by
        rw [List.getLast?_map, hlast, Option.map_some]
      have hne : truth v ≠ decisive := fun ht => hex ⟨v, List.mem_of_getLast? hlast, ht⟩
      exact ⟨_, operand _ v, h.unsettled hnone hlast', iff_of_false hne hex⟩

/-- A connective does the same whether its monad admits failure or not. -/
theorem decideFrom_lift {operands : List (Unit → m α)} {index : Nat} {sofar : Decision α} :
    (decideFrom decisive index sofar
        (operands.map fun run _ => (ExceptT.lift (run ()) : ExceptT ε m α))).run =
      .ok <$> decideFrom decisive index sofar operands := by
  induction operands generalizing index sofar with
  | nil => simp [decideFrom]
  | cons run operands ih =>
    rw [List.map_cons, decideFrom, decideFrom, ExceptT.run_bind, ExceptT.run_lift, bind_map_left,
      map_bind]
    -- Both look at the truth of the same value, and stop or go on together.
    refine bind_congr fun v => ?_
    dsimp only
    split
    · exact (map_pure Except.ok (operand index v)).symm
    · exact ih

/-- The connectives run their operands from the left until one fails or decides, and no
operand behind it: a conjunction until one is false, a disjunction until one is true. A
result is as true as all operands together when none of them fails, and operands that
cannot fail are combined in the same way. -/
theorem connectives_stop_early (announce : Nat → m PUnit) (outcomes : List (Except ε α))
    (operands : List (Unit → m α)) :
    StopsEarly false announce outcomes (conjunction (announced announce outcomes)).run ∧
    StopsEarly true announce outcomes (disjunction (announced announce outcomes)).run ∧
    (∀ values : List α, outcomes = values.map .ok →
      (∃ n d, (conjunction (announced announce outcomes)).run =
          (do forM (List.range n) announce; pure (.ok d)) ∧ truth d = values.all truth) ∧
      ∃ n d, (disjunction (announced announce outcomes)).run =
          (do forM (List.range n) announce; pure (.ok d)) ∧ truth d = values.any truth) ∧
    (conjunction (operands.map fun run _ => (ExceptT.lift (run ()) : ExceptT ε m α))).run =
      .ok <$> conjunction operands ∧
    (disjunction (operands.map fun run _ => (ExceptT.lift (run ()) : ExceptT ε m α))).run =
      .ok <$> disjunction operands := by
  have hconj : StopsEarly false announce outcomes
      (conjunction (announced announce outcomes)).run := stopsEarly_decideFrom
  have hdisj : StopsEarly true announce outcomes
      (disjunction (announced announce outcomes)).run := stopsEarly_decideFrom
  refine ⟨hconj, hdisj, ?_, decideFrom_lift, decideFrom_lift⟩
  rintro values rfl
  obtain ⟨n, d, hrun, hd⟩ := hconj.exists_truth_iff
  obtain ⟨k, e, hrun', he⟩ := hdisj.exists_truth_iff
  refine ⟨⟨n, d, hrun, ?_⟩, k, e, hrun', ?_⟩
  -- A conjunction is decided by `false`, so both sides are negated.
  · rw [← Bool.not_inj_iff, Bool.eq_iff_iff]
    simpa using hd
  · rw [Bool.eq_iff_iff, he, List.any_eq_true]

/-- Operands that note their index in a log. The second is false, so a conjunction does not
come to the failure behind it; a disjunction runs the first alone. -/
theorem connectives_stop_early_of_log :
    LawfulMonad (StateM (List Nat)) ∧
    (conjunction (announced (m := StateM (List Nat)) (fun i => modify (· ++ [i]))
      [.ok true, .ok false, .error "ill-formed"])).run.run [] =
        (.ok (operand 1 false), [0, 1]) ∧
    (disjunction (announced (m := StateM (List Nat)) (fun i => modify (· ++ [i]))
      [.ok true, .ok false, .error "ill-formed"])).run.run [] =
        (.ok (operand 0 true), [0]) := by
  have h := connectives_stop_early (m := StateM (List Nat)) (fun i => modify (· ++ [i]))
    [.ok true, .ok false, .error "ill-formed"] []
  have hone : IsLeast {j | ∃ o ∈ ([.ok true, .ok false, .error "ill-formed"] :
      List (Except String Bool))[j]?, Settles false o} 1 := by
    refine ⟨⟨_, rfl, rfl⟩, ?_⟩
    rintro (_ | j) ⟨o, ho, hs⟩
    · cases ho
      exact nomatch hs
    · omega
  have hzero : IsLeast {j | ∃ o ∈ ([.ok true, .ok false, .error "ill-formed"] :
      List (Except String Bool))[j]?, Settles true o} 0 :=
    ⟨⟨_, rfl, rfl⟩, fun _ _ => Nat.zero_le _⟩
  refine ⟨inferInstance, ?_, ?_⟩
  · rw [h.1.settled hone rfl]
    rfl
  · rw [h.2.1.settled hzero rfl]
    rfl

end TypeTraits.Decision
