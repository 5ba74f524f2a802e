import Mathlib.Algebra.GroupWithZero.Nat
import TypeTraits.Decision

/-!
# `TypeTraits.Proofs.Decision.Nested`: connectives of connectives

A connective of connectives of the same kind and one connective of all their operands in a
row run the same operands in the same order, and fail alike: in any lawful monad the two are
the same computation up to the form of the result. `Decision.LosesNothing` says so. Where no
group of operands is empty, both results come from one run, which finds an operand
(`Located`): the nested one shows its group and its place in there, the flat one counts the
operands of the groups in front as well. Empty groups leave a vacuous decision in the nested
result that the flat one does not have, but the truth is the same.

The two loops have different states, so no equation between them goes through the induction.
What does is that the result of a loop over operands does not depend on the state it began in
(`exists_run`), and that its truth depends on nothing but the truth of this state
(`truth_decideFrom`). The main theorem is `nested_connectives_lose_nothing`.
-/

set_option autoImplicit false

namespace TypeTraits.Decision

variable {α : Type}

/-- An operand of operands in groups of the given sizes, and its value. -/
structure Located (sizes : List Nat) (α : Type) where
  group : Fin sizes.length
  index : Fin sizes[group]
  value : α

namespace Located

variable {sizes : List Nat}

/-- The decision by the operand in its group, and by this group, where the first group has the
given number. -/
def nestedFrom (first : Nat) (p : Located sizes α) : Decision (Decision α) :=
  operand (first + p.group) (operand p.index p.value)

/-- The decision by the operand among all of them in a row, the first of which has the given
number. -/
def flatFrom (first : Nat) (p : Located sizes α) : Decision α :=
  operand (first + ((sizes.take p.group).sum + p.index)) p.value

/-- The decision of connectives. -/
def nested (p : Located sizes α) : Decision (Decision α) :=
  operand p.group (operand p.index p.value)

/-- The decision of one connective. -/
def flat (p : Located sizes α) : Decision α :=
  operand ((sizes.take p.group).sum + p.index) p.value

/-- An operand of the first group. -/
def here {n : Nat} (p : Fin n × α) : Located (n :: sizes) α :=
  ⟨⟨0, Nat.zero_lt_succ _⟩, p.1, p.2⟩

/-- An operand behind the first group. -/
def behind {n : Nat} (p : Located sizes α) : Located (n :: sizes) α :=
  ⟨p.group.succ, p.index, p.value⟩

variable {n i : Nat}

/-- Groups are numbered from 0 in the operand of a result. -/
theorem nestedFrom_zero : (nestedFrom 0 : Located sizes α → _) = nested := by
  funext p
  simp [nestedFrom, nested]

/-- So are the operands of all groups in a row. -/
theorem flatFrom_zero : (flatFrom 0 : Located sizes α → _) = flat := by
  funext p
  simp [flatFrom, flat]

/-- An operand of the first group has the number of the group and its own. -/
theorem nestedFrom_here (p : Fin n × α) :
    (here p : Located (n :: sizes) α).nestedFrom i = operand i (operand p.1 p.2) := rfl

/-- In a row, it has its own number only. -/
theorem flatFrom_here (p : Fin n × α) :
    (here p : Located (n :: sizes) α).flatFrom i = operand (i + p.1) p.2 := by
  simp [flatFrom, here]

/-- An operand of another group is in a group with a higher number. -/
theorem nestedFrom_behind (p : Located sizes α) :
    (behind (n := n) p).nestedFrom i = p.nestedFrom (i + 1) := by
  have hgroup : i + (p.group + 1) = i + 1 + p.group := by omega
  simp [nestedFrom, behind, hgroup]

/-- In a row, it comes behind the operands of the first group. -/
theorem flatFrom_behind (p : Located sizes α) :
    (behind (n := n) p).flatFrom i = p.flatFrom (i + n) := by
  have hindex : i + (n + (sizes.take p.group).sum + p.index) =
      i + n + ((sizes.take p.group).sum + p.index) := by omega
  simp [flatFrom, behind, hindex]

end Located

variable {m : Type → Type} [Monad m] {ε : Type} [Truth α]

/-- The connective of connectives over groups of the given sizes does what the flat one does. In a
monad with failure `<$>` keeps a failure as it is, so the two fail together, with the same error
and after the same operands. -/
structure LosesNothing (sizes : List Nat) (nested : m (Decision (Decision α)))
    (flat : m (Decision α)) : Prop where
  /-- Where no group is empty, one run finds the operand that both results show. -/
  located : sizes ≠ [] → 0 ∉ sizes →
    ∃ run : m (Located sizes α), nested = Located.nested <$> run ∧ flat = Located.flat <$> run
  /-- With empty groups, at least the truth of the results is the same. -/
  truth_eq : truth <$> nested = truth <$> flat

variable [LawfulMonad m] {decisive : Bool}

/-! ### One group -/

variable (decisive) in
/-- The loop over operands comes to one of them, wherever it begins. -/
theorem exists_run {operands : List (Unit → m α)} (hne : operands ≠ []) :
    ∃ run : m (Fin operands.length × α), ∀ index sofar,
      decideFrom decisive index sofar operands =
        (fun p => operand (index + p.1) p.2) <$> run := by
  induction operands with
  | nil => exact absurd rfl hne
  | cons op rest ih =>
    by_cases hrest : rest = []
    -- The last operand ends the run, whatever its value.
    · subst hrest
      refine ⟨(fun v => (0, v)) <$> op (), fun index sofar => ?_⟩
      simp [decideFrom]
    · obtain ⟨run, hrun⟩ := ih hrest
      refine ⟨do
        let v ← op ()
        if truth v == decisive then pure (0, v) else (fun p => (p.1.succ, p.2)) <$> run,
        fun index sofar => ?_⟩
      rw [decideFrom, map_bind]
      refine bind_congr fun v => ?_
      split
      · simp
      · rw [hrun, ← comp_map]
        -- The operands behind are counted from one on.
        refine congrArg (· <$> run) (funext fun p => ?_)
        simp only [Function.comp_apply, Fin.val_succ]
        congr 1
        omega

/-- The truth of the loop's result depends on no position. -/
theorem truth_decideFrom {operands : List (Unit → m α)} {i j : Nat} {s t : Decision α}
    (h : truth s = truth t) :
    truth <$> decideFrom decisive i s operands = truth <$> decideFrom decisive j t operands := by
  induction operands generalizing i j s t with
  | nil => simp [decideFrom, h]
  | cons op rest ih =>
    rw [decideFrom, decideFrom, map_bind, map_bind]
    refine bind_congr fun v => ?_
    split
    · simp [truth]
    · exact ih rfl

/-- Operands behind others are run where these do not decide. -/
theorem decideFrom_append {xs ys : List (Unit → m α)} {index : Nat} {sofar : Decision α}
    (h : truth sofar = !decisive) :
    decideFrom decisive index sofar (xs ++ ys) = (do
      let d ← decideFrom decisive index sofar xs
      if truth d == decisive then pure d
      else decideFrom decisive (index + xs.length) d ys) := by
  induction xs generalizing index sofar with
  | nil => simp [decideFrom, h]
  | cons op rest ih =>
    rw [List.cons_append, decideFrom, decideFrom, bind_assoc]
    refine bind_congr fun v => ?_
    have htruth : truth (operand index v) = truth v := rfl
    by_cases hv : truth v = decisive
    · simp [hv, htruth]
    · have hlength : index + 1 + rest.length = index + (op :: rest).length := by
        rw [List.length_cons]
        omega
      simp only [beq_iff_eq, hv, if_false]
      -- An operand that is passed has the other truth, which the induction wants.
      rw [ih (htruth.trans (Bool.eq_not.mpr hv)), hlength]
      simp only [beq_iff_eq]

/-! ### Groups -/

variable (decisive) in
/-- One run finds the operand at which both loops end, where there are groups and none of them is
empty. -/
theorem exists_located {groups : List (List (Unit → m α))} (hne : groups ≠ [])
    (hall : ∀ ops ∈ groups, ops ≠ []) (vacant : Decision α) :
    ∃ run : m (Located (groups.map List.length) α), ∀ i k outer sofar,
      truth sofar = (!decisive) →
      decideFrom decisive i outer (groups.map fun ops _ => decideFrom decisive 0 vacant ops) =
          Located.nestedFrom i <$> run ∧
        decideFrom decisive k sofar groups.flatten = Located.flatFrom k <$> run := by
  induction groups with
  | nil => exact absurd rfl hne
  | cons ops rest ih =>
    rw [List.forall_mem_cons] at hall
    obtain ⟨run, hrun⟩ := exists_run decisive hall.1
    have htruth : ∀ i (p : Fin ops.length × α), truth (operand (i + p.1) p.2) = truth p.2 :=
      fun _ _ => rfl
    by_cases hrest : rest = []
    · subst hrest
      refine ⟨Located.here <$> run, fun i k outer sofar _ => ⟨?_, ?_⟩⟩
      · simp [decideFrom, hrun, Located.nestedFrom_here]
      · simp [hrun, Located.flatFrom_here]
    · obtain ⟨more, hmore⟩ := ih hrest hall.2
      -- The first group ends the run, or its value is passed and the next group begins.
      refine ⟨do
        let p ← run
        if truth p.2 == decisive then pure (.here p) else Located.behind <$> more,
        fun i k outer sofar hs => ⟨?_, ?_⟩⟩
      · rw [List.map_cons, decideFrom, hrun, bind_map_left, map_bind]
        refine bind_congr fun p => ?_
        rw [htruth]
        split
        · simp [Located.nestedFrom_here]
        -- The next group is one further in the outer list, and counts its own operands from zero.
        · rw [(hmore (i + 1) 0 _ (vacuous !decisive) rfl).1]
          simp [Located.nestedFrom_behind]
      · rw [List.flatten_cons, decideFrom_append hs, hrun, bind_map_left, map_bind]
        refine bind_congr fun p => ?_
        rw [htruth]
        by_cases hp : truth p.2 = decisive
        · simp [hp, Located.flatFrom_here]
        -- In the flat list the count goes on behind the first group.
        · have hpass : truth (operand (k + p.1) p.2) = !decisive := Bool.eq_not.mpr hp
          simp [hp, (hmore 0 (k + ops.length) (vacuous true) _ hpass).2, Located.flatFrom_behind]

/-- Groups may be empty as far as the truth of the results is concerned. -/
theorem truth_decideFrom_groups {groups : List (List (Unit → m α))} {i k : Nat}
    {outer : Decision (Decision α)} {sofar : Decision α} (houter : truth outer = !decisive)
    (hsofar : truth sofar = !decisive) :
    truth <$> decideFrom decisive i outer
        (groups.map fun ops _ => decideFrom decisive 0 (vacuous !decisive) ops) =
      truth <$> decideFrom decisive k sofar groups.flatten := by
  induction groups generalizing i k outer sofar with
  | nil => simp [decideFrom, houter, hsofar]
  | cons ops rest ih =>
    -- Both loops run the first group, and what they do then depends on its truth alone.
    let verdict (b : Bool) : m Bool :=
      if b == decisive then pure b
      else truth <$> decideFrom decisive 0 (vacuous !decisive) rest.flatten
    have hnested : ∀ d : Decision α,
        truth <$> (if truth d == decisive then pure (operand i d)
          else decideFrom decisive (i + 1) (operand i d)
            (rest.map fun ops _ => decideFrom decisive 0 (vacuous !decisive) ops) :
            m (Decision (Decision α))) = verdict (truth d) := by
      intro d
      have htruth : truth (operand i d) = truth d := rfl
      by_cases hd : truth d = decisive
      · simp [verdict, hd, htruth]
      · simp only [verdict, beq_iff_eq, hd, if_false]
        exact ih (htruth.trans (Bool.eq_not.mpr hd)) rfl
    have hflat : ∀ d : Decision α,
        truth <$> (if truth d == decisive then pure d
          else decideFrom decisive (k + ops.length) d rest.flatten) = verdict (truth d) := by
      intro d
      by_cases hd : truth d = decisive
      · simp [verdict, hd]
      · simp only [verdict, beq_iff_eq, hd, if_false]
        exact truth_decideFrom (Bool.eq_not.mpr hd)
    rw [List.map_cons, decideFrom, List.flatten_cons, decideFrom_append hsofar, map_bind, map_bind]
    calc decideFrom decisive 0 (vacuous !decisive) ops >>= _
        = truth <$> decideFrom decisive 0 (vacuous !decisive) ops >>= verdict := by
          rw [bind_map_left]
          exact bind_congr hnested
      _ = truth <$> decideFrom decisive k sofar ops >>= verdict := by
          rw [truth_decideFrom (hsofar.symm)]
      _ = decideFrom decisive k sofar ops >>= _ := by
          rw [bind_map_left]
          exact (bind_congr hflat).symm

/-- The loop of loops does what the loop over all operands does. -/
theorem losesNothing_decideFrom (groups : List (List (Unit → m α))) :
    LosesNothing (groups.map List.length)
      (decideFrom decisive 0 (vacuous !decisive)
        (groups.map fun ops _ => decideFrom decisive 0 (vacuous !decisive) ops))
      (decideFrom decisive 0 (vacuous !decisive) groups.flatten) where
  located hne hall := by
    have hgroups : groups ≠ [] := fun h => hne (by rw [h]; rfl)
    have hops : ∀ ops ∈ groups, ops ≠ [] := by
      rintro ops hops rfl
      exact hall (List.mem_map.mpr ⟨[], hops, rfl⟩)
    obtain ⟨run, hrun⟩ := exists_located decisive hgroups hops (vacuous !decisive)
    have h := hrun 0 0 (vacuous !decisive) (vacuous !decisive) rfl
    rw [Located.nestedFrom_zero, Located.flatFrom_zero] at h
    exact ⟨run, h⟩
  truth_eq := truth_decideFrom_groups rfl rfl

/-- Connectives of connectives do what one connective of all operands does, whether the operands
may fail or not. Where no group is empty, the nested result shows the operand that the flat one
shows, in its group. Both run the same operands in the same order, fail together with the same
error, and are equally true. -/
theorem nested_connectives_lose_nothing (groups : List (List (Unit → m α)))
    (failing : List (List (Unit → ExceptT ε m α))) :
    LosesNothing (groups.map List.length)
      (conjunction (groups.map fun ops _ => conjunction ops)) (conjunction groups.flatten) ∧
    LosesNothing (groups.map List.length)
      (disjunction (groups.map fun ops _ => disjunction ops)) (disjunction groups.flatten) ∧
    LosesNothing (failing.map List.length)
      (conjunction (failing.map fun ops _ => conjunction ops)) (conjunction failing.flatten) ∧
    LosesNothing (failing.map List.length)
      (disjunction (failing.map fun ops _ => disjunction ops)) (disjunction failing.flatten) :=
  ⟨losesNothing_decideFrom groups, losesNothing_decideFrom groups, losesNothing_decideFrom failing,
    losesNothing_decideFrom failing⟩

/-- Operands that note their number in a log. The second of the second group is false, so neither
conjunction comes to the failure behind it; it is number 3 of all. -/
theorem nested_connectives_lose_nothing_of_log :
    let op (i : Nat) (o : Except String Bool) (_ : Unit) :
        ExceptT String (StateM (List Nat)) Bool :=
      ExceptT.mk (do modify (· ++ [i]); pure o)
    let groups := [[op 0 (.ok true), op 1 (.ok true)], [op 2 (.ok true), op 3 (.ok false)],
      [op 4 (.error "ill-formed")]]
    let nested := conjunction (groups.map fun ops _ => conjunction ops)
    let flat := conjunction groups.flatten
    LawfulMonad (StateM (List Nat)) ∧ LosesNothing [2, 2, 1] nested flat ∧
      nested.run.run [] = (.ok (operand 1 (operand 1 false)), [0, 1, 2, 3]) ∧
      flat.run.run [] = (.ok (operand 3 false), [0, 1, 2, 3]) := by
  intro op groups nested flat
  have h := nested_connectives_lose_nothing (m := StateM (List Nat)) (α := Bool) [] groups
  exact ⟨inferInstance, h.2.2.1, rfl, rfl⟩

end TypeTraits.Decision
