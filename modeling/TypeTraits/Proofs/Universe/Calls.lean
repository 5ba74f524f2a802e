import TypeTraits.Proofs.Universe.Growth
import TypeTraits.Proofs.Universe.Names

/-!
# `TypeTraits.Proofs.Universe.Calls`: calls that fail

`Universe.declare` is a function: it gives the next universe or an error. Whoever declares names one
after another holds a single universe instead, and each call changes it in place, or fails. Such
a caller is a `Builder`. Its failures keep the universe that they find, so an entry put in too early
would stay. `Builder.run_declare` says that none is.

Calls are made in a row, and the next one is made whatever the last one came to
(`Builder.declareEach`). `Universe.refused_calls_leave_no_trace` is the main theorem. It compares
such a row with the row of its accepted calls alone (`Universe.accepted`).
-/

set_option autoImplicit false

namespace TypeTraits

/-- A computation that declares names in the universe it holds. When it fails, it holds on to the
universe of that moment. -/
abbrev Builder (α : Type) := ExceptT DeclarationError (StateM Universe) α

namespace Builder

/-- Puts an entry at the end, once its name is checked. -/
def insert (name : String) (t : Descriptor) : Builder Unit := do
  if !isIdentifier name then throw (.invalidName name)
  if (← get).contains name then throw (.duplicate name)
  modify fun u => ⟨u.entries ++ [(name, t)]⟩

/-- Makes one declaration. An alias is read in the universe as it is. -/
def declare : Declaration → Builder Unit
  | .ofClass name => insert name (.classType ⟨name, false⟩ .none)
  | .ofUnion name => insert name (.classType ⟨name, true⟩ .none)
  | .ofEnum name isScoped underlying => do
    if !underlying.isIntegral then throw (.invalidUnderlying name underlying.name)
    insert name (.enumType ⟨name, isScoped, underlying⟩ .none)
  | .alias name text => do
    match (← get).parseType text with
    | .error reason => throw (.invalidAlias name text reason)
    | .ok t => insert name t

/-- Makes declarations in a row, and notes what each one comes to. -/
def declareEach (ds : List Declaration) : StateM Universe (List (Except DeclarationError Unit)) :=
  ds.mapM fun d => (declare d).run

section
variable (u : Universe)

/-- The universe is read as it is. -/
theorem run_get_bind {α : Type} (f : Universe → Builder α) :
    (get >>= f).run.run u = (f u).run.run u := rfl

/-- What a function of the universe comes to, and the universe after it. -/
def ending : Except DeclarationError Universe → Except DeclarationError Unit × Universe
  | .ok u' => (.ok (), u')
  | .error e => (.error e, u)

/-- An entry is put at the end, or the call ends with the error and the universe as it was. -/
theorem run_insert (name : String) (t : Descriptor) :
    (insert name t).run.run u = ending u (u.insert name t) := by
  unfold insert Universe.insert
  -- The name is no identifier; it is declared; it is put in.
  split
  · rfl
  · rw [run_get_bind]
    split
    · rfl
    · rfl

/-- A failed declaration keeps the universe as it was, and an accepted one leads to the next. -/
theorem run_declare (d : Declaration) : (declare d).run.run u = ending u (u.declare d) := by
  cases d with
  | ofClass name | ofUnion name => exact run_insert u _ _
  | ofEnum name isScoped underlying =>
    rw [declare, Universe.declare]
    split
    · rfl
    · exact run_insert u _ _
  | «alias» name text =>
    rw [declare, run_get_bind, Universe.declare]
    cases u.parseType text with
    | error reason => rfl
    | ok t => exact run_insert u _ _

/-- The first of several declarations is made in the universe as it is, and the others in the
universe after it. -/
theorem run_declareEach_cons (d : Declaration) (ds : List Declaration) :
    (declareEach (d :: ds)).run u =
      let (r, u') := (declare d).run.run u
      let (rs, u'') := (declareEach ds).run u'
      (r :: rs, u'') := by
  rw [declareEach, List.mapM_cons]
  rfl

end

end Builder

namespace Universe

/-- What a call in the universe comes to. -/
def outcome (u : Universe) (d : Declaration) : Except DeclarationError Unit :=
  ((Builder.declare d).run.run u).1

/-- What calls in a row come to. -/
def outcomes (u : Universe) (ds : List Declaration) : List (Except DeclarationError Unit) :=
  ((Builder.declareEach ds).run u).1

/-- The universe after calls in a row. -/
def after (u : Universe) (ds : List Declaration) : Universe := ((Builder.declareEach ds).run u).2

/-- The calls of a row that do not fail. -/
def accepted (u : Universe) (ds : List Declaration) : List Declaration :=
  ((ds.zip (u.outcomes ds)).filter (·.2.isOk)).map (·.1)

variable {u : Universe} {d : Declaration} {ds : List Declaration}

/-- Without calls nothing happens. -/
@[simp] theorem after_nil (u : Universe) : u.after [] = u := rfl

/-- The first call is made, and then the others in the universe that it leaves. -/
theorem after_cons : u.after (d :: ds) = (u.attempt d).after ds := by
  rw [after, Builder.run_declareEach_cons, Builder.run_declare, attempt]
  cases u.declare d with
  | ok u' => rfl
  | error e => rfl

/-- The first call has its outcome in the universe as it is. -/
theorem outcomes_cons :
    u.outcomes (d :: ds) = u.outcome d :: (u.attempt d).outcomes ds := by
  rw [outcomes, outcome, Builder.run_declareEach_cons, Builder.run_declare, attempt]
  cases u.declare d with
  | ok u' => rfl
  | error e => rfl

/-- A call comes to an error exactly if the declaration fails. -/
theorem outcome_eq (u : Universe) (d : Declaration) :
    u.outcome d = (u.declare d).map fun _ => () := by
  rw [outcome, Builder.run_declare]
  cases u.declare d with
  | ok u' => rfl
  | error e => rfl

/-- A failed call is left out. -/
theorem accepted_cons_error {e : DeclarationError} (h : u.declare d = .error e) :
    u.accepted (d :: ds) = u.accepted ds := by
  simp [accepted, outcomes_cons, outcome_eq, attempt, h, Except.map, Except.isOk, Except.toBool]

/-- A call that is accepted is made, and the others follow in the universe after it. -/
theorem accepted_cons_ok {u' : Universe} (h : u.declare d = .ok u') :
    u.accepted (d :: ds) = d :: u'.accepted ds := by
  simp [accepted, outcomes_cons, outcome_eq, attempt, h, Except.map, Except.isOk, Except.toBool]

/-- Calls in a row make the attempts one after another. -/
theorem after_eq_foldl (u : Universe) (ds : List Declaration) :
    u.after ds = ds.foldl attempt u := by
  induction ds generalizing u with
  | nil => rfl
  | cons d ds ih => rw [after_cons, ih, List.foldl_cons]

/-- Calls behind calls are made in the universe that those leave. -/
theorem after_append (u : Universe) (ds more : List Declaration) :
    u.after (ds ++ more) = (u.after ds).after more := by
  simp [after_eq_foldl]

/-- Without the calls that fail, the others lead to the same universe. -/
theorem after_accepted (u : Universe) (ds : List Declaration) :
    u.after (u.accepted ds) = u.after ds := by
  induction ds generalizing u with
  | nil => rfl
  | cons d ds ih =>
    cases h : u.declare d with
    | error e =>
      have hu : u.attempt d = u := by rw [attempt, h]
      rw [accepted_cons_error h, ih, after_cons, hu]
    | ok u' =>
      have hu : u.attempt d = u' := by rw [attempt, h]
      rw [accepted_cons_ok h, after_cons, after_cons, hu, ih]

/-- And they come to the same as among the others. -/
theorem outcomes_accepted (u : Universe) (ds : List Declaration) :
    u.outcomes (u.accepted ds) = (u.outcomes ds).filter (·.isOk) := by
  induction ds generalizing u with
  | nil => rfl
  | cons d ds ih =>
    cases h : u.declare d with
    | error e =>
      -- The universe stays as it is, so the others have the same outcomes without the call.
      have hu : u.attempt d = u := by rw [attempt, h]
      have hfails : (u.outcome d).isOk = false := by
        rw [outcome_eq, h]
        rfl
      rw [accepted_cons_error h, ih, outcomes_cons, hu, List.filter_cons_of_neg (by simp [hfails])]
    | ok u' =>
      have hu : u.attempt d = u' := by rw [attempt, h]
      have hsucceeds : (u.outcome d).isOk = true := by
        rw [outcome_eq, h]
        rfl
      rw [accepted_cons_ok h, outcomes_cons, outcomes_cons, hu, ih,
        List.filter_cons_of_pos hsucceeds]

/-- A call fails and leaves the entries as they are, or it is accepted and puts one entry at the
end. -/
theorem entries_after_call (u : Universe) (d : Declaration) :
    (∃ e, u.outcome d = .error e ∧ (u.after [d]).entries = u.entries) ∨
      u.outcome d = .ok () ∧ ∃ t, (u.after [d]).entries = u.entries ++ [(d.name, t)] := by
  rw [after_cons, after_nil, outcome_eq, attempt]
  cases h : u.declare d with
  | error e => exact .inl ⟨e, rfl, rfl⟩
  | ok u' =>
    obtain ⟨t, -, -, -, rfl⟩ := declare_eq_ok_iff.mp h
    exact .inr ⟨rfl, t, rfl⟩

/-- Whatever is declared stays so through further calls. -/
theorem ExtendedBy.of_after (u : Universe) (ds : List Declaration) : u.ExtendedBy (u.after ds) := by
  rw [after_eq_foldl]
  exact foldl_attempt_induction (motive := u.ExtendedBy) (fun hu hd => hu.trans (.of_declare hd))
    ds (.refl u)

/-- Calls on the empty universe, one after another. Each call that fails leaves the entries as
they are, and each other one puts an entry at the end. No name is declared twice. The row without
the calls that fail leads to the same universe, and its calls come to what they come to in
the row with them. A declared name stands for the same type after any further calls. -/
theorem refused_calls_leave_no_trace (ds : List Declaration) :
    (∀ before d behind, ds = before ++ d :: behind →
      let u := empty.after before
      let u' := empty.after (before ++ [d])
      (∃ e, u.outcome d = .error e ∧ u'.entries = u.entries) ∨
        u.outcome d = .ok () ∧ ∃ t, u'.entries = u.entries ++ [(d.name, t)]) ∧
    ((empty.after ds).entries.map (·.1)).Nodup ∧
    empty.after (empty.accepted ds) = empty.after ds ∧
    empty.outcomes (empty.accepted ds) = (empty.outcomes ds).filter (·.isOk) ∧
    ∀ more name t, (empty.after ds).lookup? name = some t →
      (empty.after (ds ++ more)).lookup? name = some t := by
  refine ⟨?_, ?_, after_accepted _ ds, outcomes_accepted _ ds, ?_⟩
  · intro before d behind _
    -- The calls in front lead to `u`, where this one is made.
    simp only [after_append]
    exact entries_after_call _ d
  · rw [after_eq_foldl]
    exact List.pairwise_map.mpr (Reached.isWellNamed (.calls ds)).distinct
  · intro more name t h
    rw [after_append]
    exact ExtendedBy.of_after _ more name t h

/-- A union under the name of a class, an alias for a name that is declared only later, and an
enumeration of a type that is not integral are refused. The calls around them come to what they
come to alone. -/
theorem refused_calls_leave_no_trace_of_mixed_calls :
    let kept : List Declaration := [.ofClass "w", .alias "p" "const w*", .ofUnion "v"]
    let calls := [.ofClass "w", .ofUnion "w", .alias "later" "v&", .alias "p" "const w*",
      .ofEnum "e" true .double, .ofUnion "v"]
    empty.outcomes calls = [.ok (), .error (.duplicate "w"),
        .error (.invalidAlias "later" "v&" ⟨.unknownName "v", ⟨0, 1⟩⟩), .ok (),
        .error (.invalidUnderlying "e" "double"), .ok ()] ∧
      empty.accepted calls = kept ∧
      empty.after kept = empty.after calls ∧
      empty.outcomes kept = [.ok (), .ok (), .ok ()] ∧
      (empty.after (calls ++ [.alias "p" "v"])).lookup? "p" =
        some (.pointer (.classType ⟨"w", false⟩ .const) .none) := by
  intro kept calls
  have houtcomes : empty.outcomes calls = [.ok (), .error (.duplicate "w"),
      .error (.invalidAlias "later" "v&" ⟨.unknownName "v", ⟨0, 1⟩⟩), .ok (),
      .error (.invalidUnderlying "e" "double"), .ok ()] := by decide +kernel
  have hkept : empty.accepted calls = kept := by
    rw [accepted, houtcomes]
    rfl
  obtain ⟨-, -, hafter, hsame, hstays⟩ := refused_calls_leave_no_trace calls
  rw [hkept] at hafter hsame
  rw [houtcomes] at hsame
  exact ⟨houtcomes, hkept, hafter, hsame, hstays _ _ _ (by decide +kernel)⟩

end Universe

end TypeTraits
