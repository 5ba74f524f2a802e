import TypeTraits.Proofs.Support.Except
import TypeTraits.Proofs.TypeId.Grammar
import TypeTraits.Proofs.TypeId.Words

/-!
# `TypeTraits.Proofs.TypeId.Reads`: the pieces that readers are made of

`Reads ss ts rest` says that the tokens `ts` are the symbols `ss` and behind
them the tokens `rest`. Both directions between the grammar and the reading
functions are stated with it, and a rule that puts lists of symbols behind one
another is `Reads.append_iff`.

The reading functions without a choice of their own are settled here, each by an
equation or an equivalence.

* `expect_eq_ok_iff`, `readIdentifier_eq_ok_iff`: one token.
* `readQualifiers_keyword`, `readQualifiers_eq_self`: a run of qualifiers.
* `opensDeclarator_iff`: the one look past a parenthesis.
* `readEnum_eq_readEnumName`: the key of an enumeration, in front of the rest of it.
* `spelledScalar_eq_ok_iff`: the words of an arithmetic type, once they are together.
-/

set_option autoImplicit false

namespace TypeTraits

open Grammar

/-- The tokens begin with the symbols, and `rest` is what is behind those. -/
def Reads : List Symbol → List Token → List Token → Prop
  | [], ts, rest => ts = rest
  | s :: ss, ts, rest => ∃ span ts', ts = ⟨s, span⟩ :: ts' ∧ Reads ss ts' rest

namespace Reads

/-- No symbols are read from tokens that all stay. -/
theorem nil (ts : List Token) : Reads [] ts ts := rfl

/-- A symbol is read from the token in front. -/
theorem cons {s : Symbol} {span : Span} {ss : List Symbol} {ts rest : List Token}
    (h : Reads ss ts rest) : Reads (s :: ss) (⟨s, span⟩ :: ts) rest :=
  ⟨span, ts, rfl, h⟩

/-- Symbols behind symbols: there are tokens in the middle where the first end and the
second begin. -/
theorem append_iff {ss ss' : List Symbol} {ts rest : List Token} :
    Reads (ss ++ ss') ts rest ↔ ∃ mid, Reads ss ts mid ∧ Reads ss' mid rest := by
  induction ss generalizing ts with
  | nil => simp [Reads]
  | cons s ss ih =>
    constructor
    · rintro ⟨span, ts', rfl, h⟩
      obtain ⟨mid, h₁, h₂⟩ := ih.mp h
      exact ⟨mid, h₁.cons, h₂⟩
    · rintro ⟨mid, ⟨span, ts', rfl, h₁⟩, h₂⟩
      exact (ih.mpr ⟨mid, h₁, h₂⟩).cons

/-- Symbols are read behind others, from the tokens in the middle. -/
theorem append {ss ss' : List Symbol} {ts mid rest : List Token}
    (h : Reads ss ts mid) (h' : Reads ss' mid rest) : Reads (ss ++ ss') ts rest :=
  append_iff.mpr ⟨mid, h, h'⟩

/-- Tokens behind one another: the symbols of the first, and the others. -/
theorem of_append (us rest : List Token) : Reads (symbols us) (us ++ rest) rest := by
  induction us with
  | nil => exact nil rest
  | cons t us ih => exact ih.cons

/-- The tokens with the symbols are in front of the rest. -/
theorem exists_append {ss : List Symbol} {ts rest : List Token} (h : Reads ss ts rest) :
    ∃ us, ts = us ++ rest ∧ symbols us = ss := by
  induction ss generalizing ts with
  | nil => exact ⟨[], h, rfl⟩
  | cons s ss ih =>
    obtain ⟨span, ts', rfl, h'⟩ := h
    obtain ⟨us, rfl, rfl⟩ := ih h'
    exact ⟨⟨s, span⟩ :: us, rfl, rfl⟩

end Reads

/-! ### One token -/

/-- `expect` takes the one symbol that it is given. -/
theorem expect_eq_ok_iff {stop : Nat} {s : Symbol} {ts rest : List Token} :
    expect stop s ts = .ok rest ↔ Reads [s] ts rest := by
  cases ts with
  | nil => simp [expect, Reads]
  | cons t ts =>
    obtain ⟨s', span⟩ := t
    by_cases h : s' = s
    · simp [expect, Reads, h]
    · simp [expect, Reads, h]

/-- `readIdentifier` takes an identifier, whichever it is. -/
theorem readIdentifier_eq_ok_iff {stop : Nat} {name : String} {ts rest : List Token} :
    readIdentifier stop ts = .ok (name, rest) ↔ Reads [.identifier name] ts rest := by
  unfold readIdentifier
  split
  · simp [Reads]
  · next h =>
    constructor
    · intro h'
      exact nomatch h'
    · rintro ⟨span, ts', rfl, -⟩
      exact absurd rfl (h name span ts')

/-! ### Qualifiers -/

/-- A qualifier is taken away and joins those behind it. -/
theorem readQualifiers_keyword {k : Keyword} {q : Qualifiers} (h : k.qualifier? = some q)
    (span : Span) (ts : List Token) :
    readQualifiers (⟨.keyword k, span⟩ :: ts) =
      (q.union (readQualifiers ts).1, (readQualifiers ts).2) := by
  -- The two keywords that are qualifiers have an equation each.
  cases k with
  | const => cases h; rw [readQualifiers, Qualifiers.union_comm]
  | volatile => cases h; rw [readQualifiers, Qualifiers.union_comm]
  | _ => exact nomatch h

/-- Where no qualifier stands in front, nothing is taken away. -/
theorem readQualifiers_eq_self {ts : List Token}
    (h : ∀ k span ts', ts = ⟨.keyword k, span⟩ :: ts' → k.qualifier? = none) :
    readQualifiers ts = (.none, ts) := by
  unfold readQualifiers
  split
  · exact nomatch h _ _ _ rfl
  · exact nomatch h _ _ _ rfl
  · rfl

/-! ### Pointer operators -/

/-- A pointer operator stands first. -/
def BeginsOp (ts : List Token) : Prop :=
  (∃ m span ts', ts = ⟨.mark m, span⟩ :: ts' ∧ (m = .star ∨ m = .amp ∨ m = .ampAmp)) ∨
  ∃ name span span' ts', ts = ⟨.identifier name, span⟩ :: ⟨.mark .colonColon, span'⟩ :: ts'

/-- The look past a parenthesis is a look for a pointer operator. -/
theorem opensDeclarator_iff {ts : List Token} :
    opensDeclarator ts ↔ ∃ span ts', ts = ⟨.mark .leftParen, span⟩ :: ts' ∧ BeginsOp ts' := by
  constructor
  · intro h
    unfold opensDeclarator at h
    -- The look has two forms: a mark, and a name with `::` behind it.
    split at h
    · next span m span' ts' =>
      exact ⟨span, _, rfl, .inl ⟨m, span', ts', rfl, by simpa [or_assoc] using h⟩⟩
    · next span name span' span'' ts' =>
      exact ⟨span, _, rfl, .inr ⟨name, span', span'', ts', rfl⟩⟩
    · exact nomatch h
  · rintro ⟨span, _, rfl, ⟨m, span', ts', rfl, hm⟩ | ⟨name, span', span'', ts', rfl⟩⟩
    · simpa [opensDeclarator, or_assoc] using hm
    · rfl

/-- Without an operator in front there are none to read. -/
theorem readPointerOps_eq_nil {stop fuel : Nat} {ts : List Token} (h : ¬ BeginsOp ts) :
    readPointerOps stop (fuel + 1) ts = .ok ([], ts) := by
  unfold readPointerOps
  simp only
  -- The four forms of an operator contradict `h`; the last arm is the end of the run.
  split
  · exact absurd (.inl ⟨_, _, _, rfl, .inl rfl⟩) h
  · exact absurd (.inl ⟨_, _, _, rfl, .inr (.inl rfl)⟩) h
  · exact absurd (.inl ⟨_, _, _, rfl, .inr (.inr rfl)⟩) h
  · exact absurd (.inr ⟨_, _, _, _, rfl⟩) h
  · rfl

/-- With an operator in front there is one to read. -/
theorem readPointerOps_ne_nil {stop fuel : Nat} {ops : List PointerOp} {ts rest : List Token}
    (hb : BeginsOp ts) (h : readPointerOps stop fuel ts = .ok (ops, rest)) : ops ≠ [] := by
  rintro rfl
  cases fuel with
  | zero => exact nomatch h
  | succ fuel =>
    unfold readPointerOps at h
    -- Each form puts its own operator in front of those that are read behind it.
    rcases hb with ⟨m, span, ts', rfl, rfl | rfl | rfl⟩ | ⟨name, span, span', ts', rfl⟩
    · obtain ⟨⟨_, _⟩, -, h⟩ := except_bind_eq_ok.mp h
      exact nomatch h
    · obtain ⟨⟨_, _⟩, -, h⟩ := except_bind_eq_ok.mp h
      exact nomatch h
    · obtain ⟨⟨_, _⟩, -, h⟩ := except_bind_eq_ok.mp h
      exact nomatch h
    · obtain ⟨ts₁, -, h⟩ := except_bind_eq_ok.mp h
      obtain ⟨⟨more, ts₂⟩, -, h⟩ := except_bind_eq_ok.mp h
      exact nomatch h

/-! ### Enumerations -/

/-- What is left to read of an enumeration when its key is: a name and perhaps the scalar
that it is stored as. -/
def readEnumName (stop : Nat) (isScoped : Bool) (ts : List Token) :
    Except Halt (Base × List Token) := do
  let (name, ts) ← readIdentifier stop ts
  match ts with
  | ⟨.mark .colon, _⟩ :: rest =>
    let (k, rest) ← readUnderlying stop rest
    return (.ofEnum name isScoped (some k), rest)
  | ts => return (.ofEnum name isScoped none, ts)

/-- The key of an enumeration decides about its scope and nothing else. -/
theorem readEnum_eq_readEnumName (stop : Nat) (ts : List Token) :
    ∃ ss isScoped ts₁, IsEnumKey ss isScoped ∧ Reads ss ts ts₁ ∧
      readEnum stop ts = readEnumName stop isScoped ts₁ := by
  unfold readEnum
  simp only
  split
  · exact ⟨_, _, _, .scopedClass, .cons (.nil _), rfl⟩
  · exact ⟨_, _, _, .scopedStruct, .cons (.nil _), rfl⟩
  · exact ⟨_, _, _, .unscoped, .nil _, rfl⟩

/-! ### Words of arithmetic types -/

/-- Allowed words are accepted exactly when they spell a type. -/
theorem spelledScalar_eq_ok_iff {words : List ScalarWord} {span : Span} {k : Scalar}
    (hallowed : ScalarWord.IsAllowed words) :
    spelledScalar words span = .ok k ↔ k.isSpelledBy words := by
  rw [← Scalar.ofWords?_eq_some_iff hallowed]
  unfold spelledScalar
  cases h : Scalar.ofWords? words with
  | none => simp
  | some k' => simp

end TypeTraits
