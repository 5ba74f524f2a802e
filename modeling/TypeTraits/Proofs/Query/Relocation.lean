import TypeTraits.Proofs.Query.Related
import TypeTraits.Proofs.Query.Unreached
import TypeTraits.Proofs.TypeId.Relocation

/-!
# `TypeTraits.Proofs.Query.Relocation`: answers do not depend on places

The readers of queries are carried along by a relocation as those of types are
(`Relocation.carries_readQuery`), and the reader of all tokens of a text with them
(`TokenStream.readAll_relocate`).

Evaluation takes spans for diagnostics and for nothing else. That an outcome is the same but for
the span of its failure (`Moves`) is a relation that operations keep, so arguments at other places
(`Argument.IsMoved`) make a call come to the same value or to the same failure at another place.
Hence `Scope.evaluate_mapSpans`: evaluation and a change of spans, in either order.
-/

set_option autoImplicit false

namespace TypeTraits

namespace Relocation

variable {stop stop' : Nat}

mutual

/-- A query with its spans relocated. -/
theorem carries_readQuery (r : Relocation stop stop') : ∀ (fuel : Nat) (ts : List Token),
    r.CarriesReading (Query.mapSpans r.span) (readQuery stop fuel ts)
      (readQuery stop' fuel (r.tokens ts))
  | 0, _ => rfl
  | fuel + 1, ts => by
    have type : r.CarriesReading (Query.mapSpans r.span)
        ((TypeId.read stop ts).map fun (t, rest) => (Query.type t, rest))
        ((TypeId.read stop' (r.tokens ts)).map fun (t, rest) => (Query.type t, rest)) := by
      unfold TypeId.read
      rw [show (r.tokens ts).length = ts.length from List.length_map _]
      exact (r.carries_readTypeId _ ts).map fun _ => rfl
    -- The first two tokens decide, and their spans have no part in it.
    obtain _ | ⟨⟨s, p⟩, ts⟩ := ts
    · exact type
    · cases s with
      | keyword k =>
        cases k with
        | true | false => rfl
        | _ => exact type
      | literal digits =>
        simp only [tokens, token, List.map_cons, readQuery]
        split <;> rfl
      | identifier op =>
        obtain _ | ⟨⟨s', p'⟩, ts⟩ := ts
        · exact type
        · cases s' with
          | mark m =>
            cases m with
            | less =>
              refine (r.carries_readArguments fuel ts).bind fun ⟨args, rest⟩ => ?_
              simp only [Prod.map_apply, r.span_cover]
              rfl
            | _ => exact type
          | _ => exact type
      | _ => exact type

/-- Arguments are read alike at other places. -/
theorem carries_readArguments (r : Relocation stop stop') : ∀ (fuel : Nat) (ts : List Token),
    r.CarriesReading (Query.mapSpansEach r.span) (readArguments stop fuel ts)
      (readArguments stop' fuel (r.tokens ts))
  | 0, _ => rfl
  | fuel + 1, ts => by
    have list := r.carries_readArgumentList fuel ts
    obtain _ | ⟨⟨s, p⟩, ts⟩ := ts
    · exact list
    · cases s with
      | mark m =>
        cases m with
        | greater => rfl
        | _ => exact list
      | _ => exact list

/-- So is a list of them. -/
theorem carries_readArgumentList (r : Relocation stop stop') : ∀ (fuel : Nat) (ts : List Token),
    r.CarriesReading (Query.mapSpansEach r.span) (readArgumentList stop fuel ts)
      (readArgumentList stop' fuel (r.tokens ts))
  | 0, _ => rfl
  | fuel + 1, ts => by
    unfold readArgumentList
    refine (r.carries_readQuery fuel ts).bind fun ⟨arg, ts₁⟩ => ?_
    have unexpected := fun us => r.carries_unexpected
      (Prod.map (Query.mapSpansEach r.span) r.tokens) .argumentEnd us
    obtain _ | ⟨⟨s, p⟩, ts₁⟩ := ts₁
    · exact unexpected []
    · cases s with
      | mark m =>
        cases m with
        | comma => exact (r.carries_readArgumentList fuel ts₁).bind fun _ => rfl
        | greater => rfl
        | _ => exact unexpected (_ :: ts₁)
      | _ => exact unexpected (_ :: ts₁)

end

/-- What is made of all tokens, with the spans relocated. -/
theorem readAll_tokens {α : Type} {f : α → α} {s : TokenStream} (r : Relocation s.stop stop')
    {read : Nat → List Token → Except Halt (α × List Token)}
    (h : r.CarriesReading f (read s.stop s.tokens) (read stop' (r.tokens s.tokens))) :
    TokenStream.readAll ⟨r.tokens s.tokens, stop'⟩ read =
      ((s.readAll read).map f).mapError (Diagnostic.mapSpan r.span) := by
  unfold TokenStream.readAll
  simp only [h.eq]
  cases read s.stop s.tokens with
  | error halt =>
    cases halt with
    | diagnosed d => rfl
    | exhausted =>
      -- Without fuel, the end of the text is blamed, wherever it is now.
      show Except.error (Diagnostic.mk _ ⟨stop', stop'⟩) =
        .error ⟨_, ⟨r.start s.stop, r.finish s.stop⟩⟩
      rw [r.start_stop, r.finish_stop]
      rfl
  | ok result =>
    obtain ⟨a, rest⟩ := result
    cases rest with
    | nil => rfl
    | cons t rest => rfl

/-- A whole text is read as a query alike at other places, and fails at the corresponding place. -/
theorem readAll_query {s : TokenStream} (r : Relocation s.stop stop') :
    TokenStream.readAll ⟨r.tokens s.tokens, stop'⟩ Query.read =
      ((s.readAll Query.read).map (Query.mapSpans r.span)).mapError
        (Diagnostic.mapSpan r.span) := by
  refine r.readAll_tokens ?_
  unfold Query.read
  rw [show (r.tokens s.tokens).length = s.tokens.length from List.length_map _]
  exact r.carries_readQuery _ s.tokens

end Relocation

/-! ### Failures at other places -/

/-- The second outcome is the first one, but for the span of a failure. -/
def Moves {α : Type} (f : Span → Span) (x y : Except Diagnostic α) : Prop :=
  y = x.mapError (Diagnostic.mapSpan f)

namespace Moves

variable {α β : Type} {f : Span → Span} {x y : Except Diagnostic α}

/-- A value stays the same. -/
theorem ok (a : α) : Moves f (.ok a) (.ok a) := rfl

/-- A failure is the same problem at the other place. -/
theorem error (p : Problem) (s : Span) :
    Moves f (.error ⟨p, s⟩ : Except Diagnostic α) (.error ⟨p, f s⟩) := rfl

/-- What one does with the value goes on at the other place as well. -/
theorem bind {g g' : α → Except Diagnostic β} (h : Moves f x y) (hg : ∀ a, Moves f (g a) (g' a)) :
    Moves f (x >>= g) (y >>= g') := by
  subst h
  cases x with
  | ok a => exact hg a
  | error d => rfl

/-- It is the same for what is done with the value alone. -/
theorem map (h : Moves f x y) (g : α → β) : Moves f (x.map g) (y.map g) := by
  subst h
  cases x <;> rfl

end Moves

/-- Operations keep that only spans of failures change. -/
def OutcomeRelation.moves (f : Span → Span) : OutcomeRelation where
  Holds := Moves f
  ok := .ok
  bind := .bind

/-- The second argument is the first one, but for its span and the span of its failure. -/
structure Argument.IsMoved (f : Span → Span) (a a' : Argument) : Prop where
  span_eq : a'.span = f a.span
  value_moves : Moves f (a.value ()) (a'.value ())

/-- Arguments that have moved are related. -/
theorem Argument.IsMoved.related {f : Span → Span} {a a' : Argument} (h : a.IsMoved f a') :
    a.Related (.moves f) a' := by
  refine ⟨h.value_moves, fun p => ?_⟩
  rw [h.span_eq]
  exact .error p a.span

/-! ### Queries -/

/-- The span of a query moves with it. -/
theorem Query.span_mapSpans (f : Span → Span) (q : Query) : (q.mapSpans f).span = f q.span := by
  cases q with
  | type t =>
    cases t
    rfl
  | _ => rfl

namespace Scope

variable (s : Scope) (f : Span → Span)

/-- An operation on moved arguments comes to the same, or fails at the place that corresponds. -/
theorem call_moves {op : String} {opSpan span : Span} {args args' : List Argument}
    (h : List.Forall₂ (Argument.IsMoved f) args args') :
    Moves f (s.call op opSpan args span) (s.call op (f opSpan) args' (f span)) := by
  rw [call, call]
  cases s.operation? (Operation.baseName op) with
  | none => exact .error _ _
  | some o =>
    cases hx : o.result? args with
    | none =>
      -- Whether the operation takes the arguments is a matter of their number.
      have hy : o.result? args' = none := by
        rw [Operation.result?_eq_none_iff] at hx ⊢
        rwa [← h.length_eq]
      simp only [hx, hy, ← h.length_eq]
      exact .error _ _
    | some x =>
      obtain ⟨y, hy, hmoves⟩ := Operation.result?_related (h.imp fun _ _ ha => ha.related) hx
      have hmoves : Moves f x y := hmoves
      simpa only [hx, hy] using hmoves

mutual

/-- Evaluation and a change of spans, in either order. -/
theorem evaluate_mapSpans : ∀ q : Query, Moves f (s.evaluate q) (s.evaluate (q.mapSpans f))
  | .bool b _ => by
    rw [Query.mapSpans, evaluate, evaluate]
    exact .ok _
  | .size n _ => by
    rw [Query.mapSpans, evaluate, evaluate]
    exact .ok _
  | .type t => by
    rw [Query.mapSpans, evaluate, evaluate]
    exact Moves.map (s.types.elaborate_mapSpans f t) _
  | .call op opSpan args span => by
    rw [Query.mapSpans, evaluate, evaluate]
    exact s.call_moves f (suspend_mapSpansEach args)

/-- Arguments that are put off move with their queries. -/
theorem suspend_mapSpansEach : ∀ qs : List Query,
    List.Forall₂ (Argument.IsMoved f) (s.suspend qs) (s.suspend (Query.mapSpansEach f qs))
  | [] => by
    rw [Query.mapSpansEach, suspend]
    exact .nil
  | q :: qs => by
    rw [Query.mapSpansEach, suspend, suspend]
    exact .cons ⟨q.span_mapSpans f, evaluate_mapSpans q⟩ (suspend_mapSpansEach qs)

end

end Scope

end TypeTraits
