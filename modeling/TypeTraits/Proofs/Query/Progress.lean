import TypeTraits.Proofs.TypeId.Progress
import TypeTraits.Query.Basic

/-!
# `TypeTraits.Proofs.Query.Progress`: reading comes to an end

The readers of queries with a note of each place to which they come back, as in
`TypeTraits.Proofs.TypeId.Trace`, and the clock of `TypeTraits.Proofs.TypeId.Progress` for them.

`readers_advance` is the main theorem: whatever the tokens of a text are, the readers of types and
of queries come to an end, and every loop and every function that they come back to finds the
cursor further on.
-/

set_option autoImplicit false

namespace TypeTraits

open Traced

/-! ### Traced readers of queries -/

/-- `TypeId.read` with its places. -/
def TypeId.trace (stop : Nat) (ts : List Token) : Traced (TypeId × List Token) :=
  traceTypeId stop (readingFuel ts.length) ts

mutual

/-- `readQuery` with its places. -/
def traceQuery (stop : Nat) : Nat → List Token → Traced (Query × List Token)
  | 0, _ => lift (.error .exhausted)
  | fuel + 1, ts => enter .query ts do
    match ts with
    | ⟨.keyword .true, span⟩ :: rest => return (.bool true span, rest)
    | ⟨.keyword .false, span⟩ :: rest => return (.bool false span, rest)
    | ⟨.literal digits, span⟩ :: rest =>
      match size? digits with
      | some n => return (.size n span, rest)
      | none => lift (.error (.diagnosed ⟨.invalidToken, span⟩))
    | ⟨.identifier op, opSpan⟩ :: ⟨.mark .less, _⟩ :: ts₁ => enter .call ts do
      let (args, rest) ← traceArguments stop fuel ts₁
      return (.call op opSpan args (cover ts rest), rest)
    | ts =>
      let (t, rest) ← TypeId.trace stop ts
      return (.type t, rest)

/-- `readArguments` with its places. -/
def traceArguments (stop : Nat) : Nat → List Token → Traced (List Query × List Token)
  | 0, _ => lift (.error .exhausted)
  | fuel + 1, ts =>
    match ts with
    | ⟨.mark .greater, _⟩ :: rest => return ([], rest)
    | ts => traceArgumentList stop fuel ts

/-- `readArgumentList` with its places. -/
def traceArgumentList (stop : Nat) : Nat → List Token → Traced (List Query × List Token)
  | 0, _ => lift (.error .exhausted)
  | fuel + 1, ts => do
    visit .argument ts
    let (arg, ts₁) ← traceQuery stop fuel ts
    match ts₁ with
    | ⟨.mark .comma, _⟩ :: ts₂ =>
      let (args, rest) ← traceArgumentList stop fuel ts₂
      return (arg :: args, rest)
    | ⟨.mark .greater, _⟩ :: rest => return ([arg], rest)
    | ts₁ => lift (.error (unexpected stop .argumentEnd ts₁))

end

/-- `Query.read` with its places. -/
def Query.trace (stop : Nat) (ts : List Token) : Traced (Query × List Token) :=
  traceQuery stop (readingFuel ts.length) ts

variable {stop : Nat}

/-- With its places, the reader of types comes to the same. -/
theorem TypeId.trace_outcome (ts : List Token) :
    (TypeId.trace stop ts).outcome = TypeId.read stop ts :=
  traceTypeId_outcome _ ts

mutual

/-- So does the reader of queries, whatever fuel it is given. -/
theorem traceQuery_outcome : ∀ (fuel : Nat) (ts : List Token),
    (traceQuery stop fuel ts).outcome = readQuery stop fuel ts
  | 0, _ => rfl
  | fuel + 1, ts => by
    have hargs := traceArguments_outcome fuel
    unfold traceQuery readQuery
    rw [outcome_enter]
    split
    · rfl
    · rfl
    · split <;> simp_all
    · simp [hargs]
    · have hmap : ∀ x : Except Halt (TypeId × List Token),
          (x >>= fun r => .ok (.type r.1, r.2)) = x.map fun (t, rest) => (Query.type t, rest) := by
        rintro (_ | _) <;> rfl
      simp [TypeId.trace_outcome, hmap]

/-- So does the reader of arguments. -/
theorem traceArguments_outcome : ∀ (fuel : Nat) (ts : List Token),
    (traceArguments stop fuel ts).outcome = readArguments stop fuel ts
  | 0, _ => rfl
  | fuel + 1, ts => by
    have hlist := traceArgumentList_outcome fuel
    unfold traceArguments readArguments
    split <;> simp [hlist]

/-- So does the loop over them. -/
theorem traceArgumentList_outcome : ∀ (fuel : Nat) (ts : List Token),
    (traceArgumentList stop fuel ts).outcome = readArgumentList stop fuel ts
  | 0, _ => rfl
  | fuel + 1, ts => by
    have hquery := traceQuery_outcome fuel
    have hlist := traceArgumentList_outcome fuel
    unfold traceArgumentList readArgumentList
    simp only [outcome_bind, outcome_visit, except_bind_ok, hquery]
    refine except_bind_congr fun (arg, ts₁) _ => ?_
    dsimp only
    split <;> simp [hlist]

end

/-- With its places, the reader of a whole query comes to the same. -/
theorem Query.trace_outcome (ts : List Token) :
    (Query.trace stop ts).outcome = Query.read stop ts :=
  traceQuery_outcome _ ts

/-! ### Queries only go on -/

/-- The reader of types runs below its entry, and has the fuel that it needs. -/
theorem TypeId.trace_descends (ts : List Token) :
    Descends (clock .type ts.length + 1) (TypeId.trace stop ts)
      fun r => clock .suffix r.2.length :=
  traceTypeId_descends (by unfold readingFuel; omega)

mutual

/-- The entry of a query is the highest place but one. An operation goes on behind its opening mark,
and a type in a lower place. -/
theorem traceQuery_descends : ∀ {fuel : Nat} {ts : List Token}, 4 * ts.length + 1 ≤ fuel →
    Descends (clock .query ts.length + 1) (traceQuery stop fuel ts)
      fun r => clock .suffix r.2.length
  | 0, _, hfuel => absurd hfuel (Nat.not_succ_le_zero _)
  | fuel + 1, ts, hfuel => by
    have literal : ∀ (t : Token) (rest : List Token) (q : Query),
        Descends (clock .query (t :: rest).length) (pure (q, rest) : Traced (Query × List Token))
          fun r => clock .suffix r.2.length :=
      fun _ _ _ => .pure (clock_lt_of_lt (Nat.lt_succ_self _)).le
    unfold traceQuery
    refine .enter rfl (Nat.lt_succ_self _) ?_
    dsimp only
    split
    · exact literal _ _ _
    · exact literal _ _ _
    · split
      · exact literal _ _ _
      · exact .lift (.error nofun) nofun
    · next op p p' ts₁ =>
      -- The name and the opening mark are behind before the first argument.
      have hlt : ts₁.length <
          (⟨.identifier op, p⟩ :: ⟨.mark .less, p'⟩ :: ts₁ : List Token).length :=
        Nat.lt_add_of_pos_right Nat.two_pos
      simp only [List.length_cons] at hfuel
      refine .enter rfl (clock_lt_of_height (by decide)) ?_
      refine .bind ((traceArguments_descends (by omega)).raise (clock_lt_of_lt hlt))
        fun ⟨args, rest⟩ _ _ => ?_
      exact .pure clock_lt.le
    · refine .bind ((TypeId.trace_descends ts).raise (clock_lt_of_height (by decide)))
        fun _ _ _ => ?_
      exact .pure le_rfl

/-- Arguments end with a mark, so they may take as much as one token is worth. -/
theorem traceArguments_descends : ∀ {fuel : Nat} {ts : List Token}, 4 * ts.length + 3 ≤ fuel →
    Descends (clock .argument ts.length + 1) (traceArguments stop fuel ts)
      fun r => 13 * (r.2.length + 1)
  | 0, _, hfuel => absurd hfuel (Nat.not_succ_le_zero _)
  | fuel + 1, ts, hfuel => by
    unfold traceArguments
    split
    · exact .pure (le_clock.trans (Nat.le_succ _))
    · exact traceArgumentList_descends (by omega)

/-- Each argument is a query, in a lower place than the loop that comes back to it. -/
theorem traceArgumentList_descends : ∀ {fuel : Nat} {ts : List Token}, 4 * ts.length + 2 ≤ fuel →
    Descends (clock .argument ts.length + 1) (traceArgumentList stop fuel ts)
      fun r => 13 * (r.2.length + 1)
  | 0, _, hfuel => absurd hfuel (Nat.not_succ_le_zero _)
  | fuel + 1, ts, hfuel => by
    unfold traceArgumentList
    refine .visit_bind (Nat.lt_succ_self _) ?_
    refine .bind ((traceQuery_descends (by omega)).raise (clock_lt_of_height (by decide)))
      fun ⟨arg, ts₁⟩ _ hclock => ?_
    have hle : ts₁.length ≤ ts.length := le_of_clock_le hclock
    dsimp only
    split
    -- Behind the comma there is a token less for the other arguments.
    · rw [List.length_cons] at hle
      refine .bind ((traceArgumentList_descends (by omega)).raise
        (clock_lt_of_lt (Nat.lt_succ_self _))) fun ⟨args, rest⟩ _ _ => ?_
      exact .pure le_rfl
    · exact .pure le_clock
    · exact .lift fueled_unexpected nofun

end

/-- The reader of queries runs below its entry, and has the fuel that it needs. -/
theorem Query.trace_descends (ts : List Token) :
    Descends (clock .query ts.length + 1) (Query.trace stop ts)
      fun r => clock .suffix r.2.length :=
  traceQuery_descends (by unfold readingFuel; omega)

/-! ### All tokens of a text -/

/-- Reading a text as a type always goes on. What is passed is below the first place of all. -/
theorem TypeId.trace_advances (ts : List Token) : (TypeId.trace stop ts).Advances ts.length :=
  ((TypeId.trace_descends ts).raise clock_lt).advances

/-- So does reading it as a query. -/
theorem Query.trace_advances (ts : List Token) : (Query.trace stop ts).Advances ts.length :=
  ((Query.trace_descends ts).raise clock_lt).advances

/-- The readers of a text that has tokens always go on and come to an end, and a text is accepted
exactly if none of its tokens is left then. -/
theorem readers_advance {text : String} {s : TokenStream} (h : TokenStream.ofText text = .ok s) :
    let n := s.tokens.length
    let type := TypeId.trace s.stop s.tokens
    let query := Query.trace s.stop s.tokens
    (type.outcome = TypeId.read s.stop s.tokens ∧ type.Advances n ∧
      ∀ t, TypeId.ofText text = .ok t ↔ type.outcome = .ok (t, [])) ∧
    (query.outcome = Query.read s.stop s.tokens ∧ query.Advances n ∧
      ∀ q, Query.ofText text = .ok q ↔ query.outcome = .ok (q, [])) := by
  intro n type query
  refine ⟨⟨TypeId.trace_outcome _, TypeId.trace_advances _, fun t => ?_⟩,
    ⟨Query.trace_outcome _, Query.trace_advances _, fun q => ?_⟩⟩
  · rw [TypeId.ofText, h, except_bind_ok, TokenStream.readAll_eq_ok_iff, TypeId.trace_outcome]
  · rw [Query.ofText, h, except_bind_ok, TokenStream.readAll_eq_ok_iff, Query.trace_outcome]

/-- In this query both loops of the specifier and of the suffixes decide twice, and five functions
are open at once: two for queries and one each for the operation, the type and its declarator. -/
theorem readers_advance_of_rank :
    let tokens : List Token := [⟨.identifier "rank", ⟨0, 4⟩⟩, ⟨.mark .less, ⟨4, 5⟩⟩,
      ⟨.scalar .int, ⟨5, 8⟩⟩, ⟨.mark .leftBracket, ⟨8, 9⟩⟩, ⟨.literal "2", ⟨9, 10⟩⟩,
      ⟨.mark .rightBracket, ⟨10, 11⟩⟩, ⟨.mark .greater, ⟨11, 12⟩⟩]
    let query := Query.trace 12 tokens
    TokenStream.ofText "rank<int[2]>" = .ok ⟨tokens, 12⟩ ∧ query.Advances 7 ∧
      query.visits.map (fun v => (v.site, v.cursor 7)) =
        [(.query, 0), (.call, 0), (.argument, 2), (.query, 2), (.type, 2), (.specifier, 2),
          (.specifierWord, 2), (.specifierWord, 3), (.declarator, 3), (.pointerOp, 3),
          (.suffix, 3), (.suffix, 6)] ∧
      query.iterations = 6 ∧ query.depth = 5 := by
  intro tokens query
  have htokens : TokenStream.ofText "rank<int[2]>" = .ok ⟨tokens, 12⟩ := by decide +kernel
  obtain ⟨-, -, hquery, -⟩ := readers_advance htokens
  exact ⟨htokens, hquery, by decide +kernel, by decide +kernel, by decide +kernel⟩

end TypeTraits
