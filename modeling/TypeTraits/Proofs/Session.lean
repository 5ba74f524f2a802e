import TypeTraits.CommandLine
import TypeTraits.Proofs.Query.Names

/-!
# `TypeTraits.Proofs.Session`: a batch and a dialogue give the same answers

A batch stops at the first query that has no value, and a dialogue skips it. Otherwise they do the
same: each answered query adds one line with its value, in order, and the value is the one that the
query has alone (`Session.batch_agrees_with_dialogue`).

A line of a dialogue is a query as it is given when it is a query line (`Session.IsQueryLine`), and
there is one line for each answer since no value is written with a line break
(`Universe.Reached.isOneLine_text`).

* `Session.run_eval`: a batch as the lines of the queries up to the first without a value.
* `Session.run_repl`: a dialogue as the lines of the queries that have a value.
-/

set_option autoImplicit false

namespace TypeTraits.Session

/-! ### Queries on lines -/

/-- A text on one line that is taken for a query as it is: it neither begins nor ends with white
space, is not blank, and does not begin as a command does. -/
structure IsQueryLine (q : String) : Prop where
  oneLine : IsOneLine q
  trimmed : Text.trim q = q
  ne_blank : q ≠ ""
  ne_command : q.toList.head? ≠ some ':'

instance (q : String) : Decidable (IsQueryLine q) :=
  decidable_of_iff (IsOneLine q ∧ Text.trim q = q ∧ q ≠ "" ∧ q.toList.head? ≠ some ':')
    ⟨fun ⟨h₁, h₂, h₃, h₄⟩ => ⟨h₁, h₂, h₃, h₄⟩, fun ⟨h₁, h₂, h₃, h₄⟩ => ⟨h₁, h₂, h₃, h₄⟩⟩

/-- Such a line asks for the value of its query. -/
theorem IsQueryLine.ofText {q : String} (h : IsQueryLine q) : Line.ofText q = .query q := by
  -- Every command begins with a colon.
  have hcommand : ∀ command : String, command.toList.head? = some ':' → (q == command) = false := by
    rintro command hc
    refine beq_eq_false_iff_ne.mpr ?_
    rintro rfl
    exact h.ne_command hc
  have hclassify : classifyCommand.toList.isPrefixOf q.toList = false := by
    refine Bool.eq_false_iff.mpr fun hstart => h.ne_command ?_
    obtain ⟨rest, hrest⟩ := List.isPrefixOf_iff_prefix.mp hstart
    rw [← hrest]
    rfl
  have hblank : (q == "") = false := beq_eq_false_iff_ne.mpr h.ne_blank
  simp only [Line.ofText, h.trimmed, hblank, hclassify, hcommand ":quit" rfl, hcommand ":q" rfl,
    hcommand ":help" rfl, hcommand ":h" rfl, hcommand ":universe" rfl, Bool.or_self,
    Bool.false_eq_true, if_false]

/-! ### Answers -/

/-- Whether the query has a value. -/
def hasValue (s : Scope) (q : String) : Bool := (s.evaluateText q).isOk

/-- The queries that have a value, each with its value. -/
def answered (s : Scope) (qs : List String) : List (String × Value) :=
  qs.filterMap fun q => (s.evaluateText q).toOption.map (q, ·)

/-- A text of lines. -/
def ofLines (ls : List String) : String := String.join (ls.map (· ++ "\n"))

section
variable {s : Scope} {q : String} {qs : List String} {v : Value}

/-- A query has a value if it is evaluated without a failure. -/
theorem hasValue_iff : hasValue s q = true ↔ ∃ v, s.evaluateText q = .ok v := except_isOk_iff

/-- A query that fails has none. -/
theorem not_hasValue {e : Diagnostic} (h : s.evaluateText q = .error e) :
    ¬ hasValue s q = true := by
  rw [hasValue, h]
  exact Bool.false_ne_true

/-- A query with a value is answered first. -/
theorem answered_cons_ok (h : s.evaluateText q = .ok v) :
    answered s (q :: qs) = (q, v) :: answered s qs :=
  List.filterMap_cons_some (by rw [h]; rfl)

/-- A query without one is passed over. -/
theorem answered_cons_error {e : Diagnostic} (h : s.evaluateText q = .error e) :
    answered s (q :: qs) = answered s qs :=
  List.filterMap_cons_none (by rw [h]; rfl)

/-- A pair is answered if the query is asked and has the value by itself. -/
theorem mem_answered_iff : (q, v) ∈ answered s qs ↔ q ∈ qs ∧ s.evaluateText q = .ok v := by
  rw [answered, List.mem_filterMap]
  constructor
  · rintro ⟨q', hq', h⟩
    obtain ⟨v', hv', heq⟩ := Option.map_eq_some_iff.mp h
    cases heq
    exact ⟨hq', except_toOption_eq_some.mp hv'⟩
  · rintro ⟨hq, hv⟩
    exact ⟨q, hq, by rw [hv]; rfl⟩

/-- The answered queries are those with a value, in order and as often as they are asked. -/
theorem map_fst_answered (s : Scope) (qs : List String) :
    (answered s qs).map Prod.fst = qs.filter (hasValue s) := by
  induction qs with
  | nil => rfl
  | cons q qs ih =>
    cases h : s.evaluateText q with
    | ok v =>
      rw [answered_cons_ok h, List.map_cons, ih, List.filter_cons_of_pos (hasValue_iff.mpr ⟨v, h⟩)]
    | error e => rw [answered_cons_error h, ih, List.filter_cons_of_neg (not_hasValue h)]

/-- A batch writes the lines of the queries in front of the first that has no value, and goes well
if there is none. -/
theorem answers_eq (s : Scope) (labelled : Bool) (qs : List String) :
    answers s labelled qs =
      let front := qs.takeWhile (hasValue s)
      ⟨ofLines ((answered s front).map fun (q, v) =>
        if labelled then q ++ " = " ++ v.text else v.text), decide (front = qs)⟩ := by
  induction qs with
  | nil => rfl
  | cons q qs ih =>
    rw [answers]
    cases h : s.evaluateText q with
    | ok v =>
      have hvalue := hasValue_iff.mpr ⟨v, h⟩
      simp only [ih, List.takeWhile_cons_of_pos hvalue, answered_cons_ok h, ofLines, List.map_cons,
        String.join_cons, valueLine, List.cons.injEq, true_and]
      cases labelled <;> rfl
    | error e =>
      -- Nothing is asked behind the first query without a value.
      rw [List.takeWhile_cons_of_neg (not_hasValue h)]
      rfl

/-- A dialogue of queries writes the lines of those that have a value. -/
theorem dialogue_eq (s : Scope) {qs : List String} (hqs : ∀ q ∈ qs, IsQueryLine q) :
    dialogue s qs = ofLines ((answered s qs).map fun (_, v) => v.text) := by
  induction qs with
  | nil => rfl
  | cons q qs ih =>
    rw [List.forall_mem_cons] at hqs
    -- The query is asked as it was typed, and an error does not end the dialogue.
    rw [dialogue, hqs.1.ofText]
    simp only [answer, ih hqs.2]
    cases h : s.evaluateText q with
    | ok v =>
      rw [answered_cons_ok h, ofLines, ofLines, List.map_cons, List.map_cons, String.join_cons]
    | error e => rw [answered_cons_error h, String.empty_append]

/-! ### Commands -/

/-- The command for a batch succeeds if all queries have a value. A query stands in front of its
value unless there is no other. -/
theorem run_eval (s : Scope) (lines : List String) (hne : qs ≠ []) :
    (Command.eval qs).run s lines =
      let front := qs.takeWhile (hasValue s)
      ⟨ofLines ((answered s front).map fun (q, v) =>
        if qs.length = 1 then v.text else q ++ " = " ++ v.text), if front = qs then 0 else 1⟩ := by
  have hpos := List.length_pos_of_ne_nil hne
  have hlabel : decide (qs.length > 1) = !decide (qs.length = 1) := by
    rw [← decide_not, decide_eq_decide]
    omega
  simp only [Command.run, batch, answers_eq, hlabel, Bool.not_eq_true', decide_eq_false_iff_not,
    ite_not, decide_eq_true_eq]

/-- The command for a dialogue succeeds whatever is asked. -/
theorem run_repl (s : Scope) (hqs : ∀ q ∈ qs, IsQueryLine q) :
    Command.repl.run s qs =
      ⟨banner ++ ofLines ((answered s qs).map fun (_, v) => v.text) ++ farewell, 0⟩ := by
  rw [Command.run, interactive, dialogue_eq s hqs]

/-- A query that is asked alone in a batch has its value written on a line. -/
theorem run_eval_singleton (lines : List String) (h : s.evaluateText q = .ok v) :
    (Command.eval [q]).run s lines = ⟨ofLines [v.text], 0⟩ := by
  have hfront : [q].takeWhile (hasValue s) = [q] :=
    List.takeWhile_cons_of_pos (hasValue_iff.mpr ⟨v, h⟩)
  simp only [run_eval s lines (List.cons_ne_nil q []), hfront, answered_cons_ok h, if_true]
  rfl

/-- So it has in a dialogue. -/
theorem run_repl_singleton (hq : IsQueryLine q) (h : s.evaluateText q = .ok v) :
    Command.repl.run s [q] = ⟨banner ++ ofLines [v.text] ++ farewell, 0⟩ := by
  rw [run_repl s (List.forall_mem_singleton.mpr hq), answered_cons_ok h]
  rfl

/-- A query line and a value on one line make one line together. -/
theorem isOneLine_label (hq : IsQueryLine q) (hv : IsOneLine v.text) :
    IsOneLine (q ++ " = " ++ v.text) := by
  have hequals : IsOneLine " = " := by decide
  simp [hq.oneLine, hequals, hv]

end

/-! ### Batches and dialogues -/

/-- For queries that are query lines, a batch writes one line for each query in front of the first
that has no value, and succeeds if that is all of them. A dialogue in which they are typed writes
one line for each query that has a value, and succeeds. Either way the lines come in order and hold
the values that the queries have alone. A batch reads no lines, so it does not matter to it which
ones are typed. -/
theorem batch_agrees_with_dialogue {u : Universe} (hu : u.Reached) {queries : List String}
    (hne : queries ≠ []) (hqueries : ∀ q ∈ queries, IsQueryLine q) :
    let s := Scope.ofUniverse u
    let front := queries.takeWhile (hasValue s)
    let batch := (answered s front).map fun (q, v) =>
      if queries.length = 1 then v.text else q ++ " = " ++ v.text
    let dialogue := (answered s queries).map fun (_, v) => v.text
    (∀ lines, (Command.eval queries).run s lines =
        ⟨ofLines batch, if front = queries then 0 else 1⟩) ∧
      Command.repl.run s queries = ⟨banner ++ ofLines dialogue ++ farewell, 0⟩ ∧
      (answered s front).map Prod.fst = front ∧
      (answered s queries).map Prod.fst = queries.filter (hasValue s) ∧
      (∀ l ∈ batch ++ dialogue, IsOneLine l) ∧
      ∀ q v, (q, v) ∈ answered s queries →
        (∀ lines, (Command.eval [q]).run s lines = ⟨ofLines [v.text], 0⟩) ∧
          Command.repl.run s [q] = ⟨banner ++ ofLines [v.text] ++ farewell, 0⟩ := by
  intro s front batch dialogue
  have hvalue : ∀ qs q v, (q, v) ∈ answered s qs → IsOneLine v.text := fun _ _ _ h =>
    hu.isOneLine_text (mem_answered_iff.mp h).2
  refine ⟨fun lines => run_eval s lines hne, run_repl s hqueries, ?_, map_fst_answered s queries,
    List.forall_mem_append.mpr ⟨?_, ?_⟩, fun q v h => ?_⟩
  · -- In front of the first query without a value, all of them have one.
    rw [map_fst_answered, List.filter_eq_self]
    exact fun q hq => List.mem_takeWhile_imp hq
  · -- The query on a line of a batch is one of the given ones.
    rw [List.forall_mem_map]
    rintro ⟨q, v⟩ h
    have hq := hqueries q ((List.takeWhile_sublist _).subset (mem_answered_iff.mp h).1)
    dsimp only
    split
    · exact hvalue _ q v h
    · exact isOneLine_label hq (hvalue _ q v h)
  · exact List.forall_mem_map.mpr fun (q, v) h => hvalue _ q v h
  · obtain ⟨hq, hv⟩ := mem_answered_iff.mp h
    exact ⟨fun lines => run_eval_singleton lines hv, run_repl_singleton (hqueries q hq) hv⟩

/-- Of six queries, the third one needs a type that is not declared, the fourth one a condition, and
the fifth one holds a backspace, which is no token. -/
theorem batch_agrees_with_dialogue_of_failures :
    let ds := [Declaration.ofClass "w", Declaration.alias "row" "w const[4]"]
    let s := Scope.ofUniverse (ds.foldl Universe.attempt Universe.empty)
    let queries := ["add_pointer<row>", "rank<row[2]>", "is_class<v>", "negation<int>",
      "is_void<int\x08>", "extent<row, 0>"]
    (Command.eval queries).run s [] =
        ⟨"add_pointer<row> = const w(*)[4]\nrank<row[2]> = 2\n", 1⟩ ∧
      Command.repl.run s queries = ⟨banner ++ "const w(*)[4]\n2\n4\n" ++ farewell, 0⟩ := by
  intro ds s queries
  have hqueries : ∀ q ∈ queries, IsQueryLine q := by decide +kernel
  obtain ⟨hbatch, hdialogue, -⟩ :=
    batch_agrees_with_dialogue (.calls ds) (List.cons_ne_nil _ _) hqueries
  rw [hbatch, hdialogue]
  decide +kernel

end TypeTraits.Session
