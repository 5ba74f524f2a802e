import TypeTraits.Proofs.TypeId.Reads

/-!
# `TypeTraits.Proofs.TypeId.Follow`: what rules begin with and what may stand behind

A reading function takes as much as it can, so it finds a derivation only if
what stands behind the derived symbols cannot go on with them. `Follows` says
what may stand there: behind a type it is `)`, `,`, `>` or nothing
(`Symbol.endsType`), behind operators the beginning of a suffix as well
(`Symbol.endsOps`), and behind a specifier any beginning of a declarator
(`Symbol.endsSpecifier`).

This module is about the grammar alone. For each rule it says what a derivation
can begin with, and hence what the tokens of a rule leave for the rule in front
of it. What goes on with a rule is never among what may stand behind it, which is
why no choice of the readers is wrong.

* `IsDeclarator.follows`: what a specifier finds behind itself.
* `IsType.not_beginsOp`, `IsSuffixes.not_opensDeclarator`: a parameter list is not taken for a
  declarator in parentheses.
* `IsTypes.ne_void_close`: `void` in front of `)` is not the beginning of a longer list.
-/

set_option autoImplicit false

namespace TypeTraits

open Grammar

/-! ### What may stand behind -/

namespace Symbol

/-- What an array bound or a parameter list begins with. -/
def beginsSuffix : Symbol → Bool
  | mark m => m == .leftParen || m == .leftBracket
  | _ => false

/-- What a pointer operator begins with. -/
def beginsOp : Symbol → Bool
  | mark m => m == .star || m == .amp || m == .ampAmp
  | identifier _ => true
  | _ => false

/-- What a type begins with. -/
def beginsType : Symbol → Bool
  | scalar _ | identifier _ => true
  | keyword k => k.qualifier?.isSome || k.startsBase
  | _ => false

/-- What may stand behind a type. -/
def endsType : Symbol → Bool
  | mark m => m == .rightParen || m == .comma || m == .greater
  | _ => false

/-- What may stand behind pointer operators. -/
def endsOps (s : Symbol) : Bool := s.beginsSuffix || s.endsType

/-- What may stand behind a specifier. -/
def endsSpecifier (s : Symbol) : Bool := s.beginsOp || s.endsOps

/-- What may stand behind a base. -/
def endsBase : Symbol → Bool
  | keyword k => k.qualifier?.isSome
  | s => s.endsSpecifier

end Symbol

/-- The first token, if there is one, is of the kind. -/
def Follows (p : Symbol → Bool) : List Token → Prop
  | [] => True
  | t :: _ => p t.symbol = true

namespace Follows

/-- What is of one kind is of every wider one. -/
theorem mono {p q : Symbol → Bool} {ts : List Token} (hpq : ∀ s, p s = true → q s = true)
    (h : Follows p ts) : Follows q ts := by
  cases ts with
  | nil => trivial
  | cons t ts => exact hpq _ h

/-- What may stand behind a type may stand behind operators. -/
theorem endsOps {ts : List Token} (h : Follows Symbol.endsType ts) : Follows Symbol.endsOps ts :=
  h.mono fun s hs => by simp [Symbol.endsOps, hs]

/-- What may stand behind operators may stand behind a specifier. -/
theorem endsSpecifier {ts : List Token} (h : Follows Symbol.endsOps ts) :
    Follows Symbol.endsSpecifier ts :=
  h.mono fun s hs => by simp [Symbol.endsSpecifier, hs]

/-- And what may stand behind a specifier may stand behind its base. -/
theorem endsBase {ts : List Token} (h : Follows Symbol.endsSpecifier ts) :
    Follows Symbol.endsBase ts := by
  refine h.mono fun s hs => ?_
  -- Keywords are the one kind of symbol that the two treat differently.
  cases s with
  | keyword k => exact nomatch hs
  | scalar w => exact nomatch hs
  | _ => exact hs

/-- What may stand behind operators is not another one. -/
theorem not_beginsOp {ts : List Token} (h : Follows Symbol.endsOps ts) : ¬ BeginsOp ts := by
  rintro (⟨m, span, ts', rfl, rfl | rfl | rfl⟩ | ⟨name, span, span', ts', rfl⟩)
  · exact nomatch h
  · exact nomatch h
  · exact nomatch h
  · exact nomatch h

/-- Tokens begin like the symbols in front or, if those are none, like the tokens behind. -/
theorem of_reads {p : Symbol → Bool} {ss : List Symbol} {ts rest : List Token}
    (hr : Reads ss ts rest) (hss : ∀ s ss', ss = s :: ss' → p s = true) (hrest : Follows p rest) :
    Follows p ts := by
  cases ss with
  | nil => rwa [show ts = rest from hr]
  | cons s ss =>
    obtain ⟨span, ts', rfl, -⟩ := hr
    exact hss s ss rfl

end Follows

/-- Qualifiers behind a base are still to be read when the base ends. -/
theorem Grammar.IsQualifiers.follows_endsBase {ss : List Symbol} {q : Qualifiers}
    {ts rest : List Token} (hq : IsQualifiers ss q) (hr : Reads ss ts rest)
    (hrest : Follows Symbol.endsSpecifier rest) : Follows Symbol.endsBase ts := by
  cases hq with
  | nil =>
    rw [show ts = rest from hr]
    exact hrest.endsBase
  | cons hk _ =>
    obtain ⟨span, ts', rfl, -⟩ := hr
    simp [Follows, Symbol.endsBase, hk]

/-! ### What rules begin with

A rule that may derive nothing is said to begin with a kind of symbol when every
list of symbols that it derives is empty or does. -/

/-- An operator is at least one symbol, and the first of them tells. -/
theorem Grammar.IsOp.head {ss : List Symbol} {k : PointerKind} (h : IsOp ss k) :
    ∃ s ss', ss = s :: ss' ∧ s.beginsOp = true := by
  cases h <;> exact ⟨_, _, rfl, rfl⟩

/-- So no operator is derived from nothing. -/
theorem Grammar.IsOp.ne_nil {ss : List Symbol} {k : PointerKind} (h : IsOp ss k) : ss ≠ [] := by
  obtain ⟨s, ss', rfl, -⟩ := h.head
  exact List.cons_ne_nil s ss'

/-- The four forms of an operator are the four that `BeginsOp` names. -/
theorem Grammar.IsOp.beginsOp {ss : List Symbol} {k : PointerKind} {ts rest : List Token}
    (h : IsOp ss k) (hr : Reads ss ts rest) : BeginsOp ts := by
  cases h with
  | pointer _ =>
    obtain ⟨span, ts', rfl, -⟩ := hr
    exact .inl ⟨_, _, _, rfl, .inl rfl⟩
  | lvalueRef =>
    obtain ⟨span, ts', rfl, -⟩ := hr
    exact .inl ⟨_, _, _, rfl, .inr (.inl rfl)⟩
  | rvalueRef =>
    obtain ⟨span, ts', rfl, -⟩ := hr
    exact .inl ⟨_, _, _, rfl, .inr (.inr rfl)⟩
  | member _ =>
    obtain ⟨span, ts', rfl, span', ts'', rfl, -⟩ := hr
    exact .inr ⟨_, _, _, _, rfl⟩

/-- The first symbol of operators is that of the first one. -/
theorem Grammar.IsOps.head {s : Symbol} {ss : List Symbol} {ops : List PointerOp}
    (h : IsOps (s :: ss) ops) : s.beginsOp = true := by
  -- The rules' own lists are concatenations, so the given one is named first.
  generalize hss : s :: ss = ss' at h
  cases h with
  | nil => exact nomatch hss
  | cons hop _ =>
    obtain ⟨s', ss', rfl, hs⟩ := hop.head
    cases hss
    exact hs

/-- The first symbol of suffixes is a parenthesis or a bracket. -/
theorem Grammar.IsSuffixes.head {s : Symbol} {ss : List Symbol} {suffixes : List Suffix}
    (h : IsSuffixes (s :: ss) suffixes) : s.beginsSuffix = true := by
  cases h <;> rfl

/-- A declarator begins with nothing that may stand behind a type. -/
theorem Grammar.IsDeclarator.head {s : Symbol} {ss : List Symbol} {d : Declarator}
    (h : IsDeclarator (s :: ss) d) : s.beginsOp = true ∨ s.beginsSuffix = true := by
  generalize hss : s :: ss = ss' at h
  cases h with
  | @flat ss₁ _ _ _ hops hsuf =>
    cases ss₁ with
    | nil =>
      -- Without operators, the suffixes are first.
      subst hss
      exact .inr hsuf.head
    | cons s' ss₁ =>
      cases hss
      exact .inl hops.head
  | @nested ss₁ _ _ _ _ _ hops _ _ _ =>
    cases ss₁ with
    | nil =>
      cases hss
      exact .inr rfl
    | cons s' ss₁ =>
      cases hss
      exact .inl hops.head

/-- What a specifier finds behind itself where operators stand. -/
theorem Grammar.IsOps.follows {ss : List Symbol} {ops : List PointerOp} {ts rest : List Token}
    (h : IsOps ss ops) (hr : Reads ss ts rest) (hrest : Follows Symbol.endsOps rest) :
    Follows Symbol.endsSpecifier ts := by
  refine .of_reads hr (fun s ss' heq => ?_) hrest.endsSpecifier
  subst heq
  simp [Symbol.endsSpecifier, h.head]

/-- What operators find behind themselves where suffixes stand. -/
theorem Grammar.IsSuffixes.follows {ss : List Symbol} {suffixes : List Suffix}
    {ts rest : List Token} (h : IsSuffixes ss suffixes) (hr : Reads ss ts rest)
    (hrest : Follows Symbol.endsType rest) : Follows Symbol.endsOps ts := by
  refine .of_reads hr (fun s ss' heq => ?_) hrest.endsOps
  subst heq
  simp [Symbol.endsOps, h.head]

/-- What a specifier finds behind itself where a declarator stands. -/
theorem Grammar.IsDeclarator.follows {ss : List Symbol} {d : Declarator} {ts rest : List Token}
    (h : IsDeclarator ss d) (hr : Reads ss ts rest) (hrest : Follows Symbol.endsType rest) :
    Follows Symbol.endsSpecifier ts := by
  refine .of_reads hr (fun s ss' heq => ?_) hrest.endsOps.endsSpecifier
  subst heq
  rcases h.head with hs | hs
  · simp [Symbol.endsSpecifier, hs]
  · simp [Symbol.endsSpecifier, Symbol.endsOps, hs]

/-- A declarator with operators of its own begins with one. -/
theorem Grammar.IsDeclarator.beginsOp {ss : List Symbol} {d : Declarator} {ts rest : List Token}
    (h : IsDeclarator ss d) (hne : d.ops ≠ []) (hr : Reads ss ts rest) : BeginsOp ts := by
  -- Both forms put their operators first.
  have key : ∀ {ss : List Symbol} {ops : List PointerOp} {rest : List Token},
      ops ≠ [] → IsOps ss ops → Reads ss ts rest → BeginsOp ts := by
    intro ss ops rest hne hops hr
    cases hops with
    | nil => exact absurd rfl hne
    | cons hop _ =>
      obtain ⟨mid, hr', -⟩ := Reads.append_iff.mp hr
      exact hop.beginsOp hr'
  cases h with
  | flat hops _ =>
    obtain ⟨mid, hr', -⟩ := Reads.append_iff.mp hr
    exact key hne hops hr'
  | nested hops _ _ _ =>
    obtain ⟨mid, hr', -⟩ := Reads.append_iff.mp hr
    exact key hne hops hr'

/-- A specifier is never empty. -/
theorem Grammar.IsSpecifier.head {ss : List Symbol} {s : Specifier} (h : IsSpecifier ss s) :
    ∃ x ss', ss = x :: ss' ∧ x.beginsType = true := by
  cases h with
  | arithmetic hw hk =>
    cases hw with
    | nil => exact absurd rfl (Scalar.ne_nil_of_isSpelledBy hk)
    | word _ => exact ⟨_, _, rfl, rfl⟩
    | qualifier hk' _ => exact ⟨_, _, rfl, by simp [Symbol.beginsType, hk']⟩
  | other hq hb _ =>
    cases hq with
    | nil => cases hb <;> exact ⟨_, _, rfl, rfl⟩
    | cons hk _ => exact ⟨_, _, rfl, by simp [Symbol.beginsType, hk]⟩

/-- The first symbol of a type is that of its specifier. -/
theorem Grammar.IsType.head {ss : List Symbol} {t : TypeId} (h : IsType ss t) :
    ∃ x ss', ss = x :: ss' ∧ x.beginsType = true := by
  cases h with
  | mk hs _ =>
    obtain ⟨x, ss', rfl, hx⟩ := hs.head
    exact ⟨x, _, rfl, hx⟩

/-- So is that of a list of types, which has at least one. -/
theorem Grammar.IsTypes.head {ss : List Symbol} {ts : List TypeId} (h : IsTypes ss ts) :
    ∃ x ss', ss = x :: ss' ∧ x.beginsType = true := by
  cases h with
  | last ht => exact ht.head
  | cons ht _ =>
    obtain ⟨x, ss', rfl, hx⟩ := ht.head
    exact ⟨x, _, rfl, hx⟩

/-- A specifier may begin with a name. That is then its base, so what stands behind is what
may stand behind a base. -/
theorem Grammar.IsSpecifier.follows_name {ss : List Symbol} {s : Specifier} {name : String}
    {span : Span} {ts rest : List Token} (h : IsSpecifier ss s)
    (hr : Reads ss (⟨.identifier name, span⟩ :: ts) rest)
    (hrest : Follows Symbol.endsSpecifier rest) : Follows Symbol.endsBase ts := by
  cases h with
  | arithmetic hw hk =>
    cases hw with
    | nil => exact absurd rfl (Scalar.ne_nil_of_isSpelledBy hk)
    | word _ =>
      obtain ⟨_, _, heq, -⟩ := hr
      exact nomatch heq
    | qualifier _ _ =>
      obtain ⟨_, _, heq, -⟩ := hr
      exact nomatch heq
  | other hq hb hq' =>
    obtain ⟨mid, hr, hbehind⟩ := Reads.append_iff.mp hr
    -- No qualifiers are in front of the name, and no other base begins with one.
    cases hq with
    | nil =>
      cases hb with
      | named =>
        obtain ⟨_, _, heq, rfl⟩ := hr
        cases heq
        exact hq'.follows_endsBase hbehind hrest
      | _ =>
        obtain ⟨_, _, heq, -⟩ := hr
        exact nomatch heq
    | cons _ _ =>
      obtain ⟨_, _, heq, -⟩ := hr
      exact nomatch heq

/-- So does a type. -/
theorem Grammar.IsType.follows_name {ss : List Symbol} {t : TypeId} {name : String}
    {span : Span} {ts rest : List Token} (h : IsType ss t)
    (hr : Reads ss (⟨.identifier name, span⟩ :: ts) rest) (hrest : Follows Symbol.endsType rest) :
    Follows Symbol.endsBase ts := by
  cases h with
  | mk hs hd =>
    obtain ⟨mid, hr, hr'⟩ := Reads.append_iff.mp hr
    exact hs.follows_name hr (hd.follows hr' hrest)

/-- A type begins with no operator: where a name stands first, no `::` is behind it. -/
theorem Grammar.IsType.not_beginsOp {ss : List Symbol} {t : TypeId} {ts rest : List Token}
    (h : IsType ss t) (hr : Reads ss ts rest) (hrest : Follows Symbol.endsType rest) :
    ¬ BeginsOp ts := by
  rintro (⟨m, span, ts', rfl, -⟩ | ⟨name, span, span', ts', rfl⟩)
  · obtain ⟨x, ss', rfl, hx⟩ := h.head
    obtain ⟨_, _, heq, -⟩ := hr
    cases heq
    exact nomatch hx
  · exact nomatch h.follows_name hr hrest

/-- A list of types begins with a type, and so with no operator either. -/
theorem Grammar.IsTypes.not_beginsOp {ss : List Symbol} {types : List TypeId}
    {ts rest : List Token} (h : IsTypes ss types) (hr : Reads ss ts rest)
    (hrest : Follows Symbol.endsType rest) : ¬ BeginsOp ts := by
  cases h with
  | last ht => exact ht.not_beginsOp hr hrest
  | cons ht _ =>
    obtain ⟨mid, hr, span, ts', rfl, -⟩ := Reads.append_iff.mp hr
    exact ht.not_beginsOp hr rfl

/-- A parenthesis at the beginning of suffixes opens parameters. -/
theorem Grammar.IsSuffixes.not_opensDeclarator {ss : List Symbol} {suffixes : List Suffix}
    {ts rest : List Token} (h : IsSuffixes ss suffixes) (hr : Reads ss ts rest)
    (hrest : Follows Symbol.endsType rest) : ¬ opensDeclarator ts := by
  rw [opensDeclarator_iff]
  rintro ⟨span, ts', rfl, hb⟩
  cases h with
  | nil =>
    cases hr
    exact nomatch hrest
  | array _ _ =>
    obtain ⟨_, _, heq, -⟩ := hr
    exact nomatch heq
  | function hp _ =>
    obtain ⟨_, _, heq, hr⟩ := hr
    cases heq
    obtain ⟨mid, hr, span, ts'', rfl, -⟩ := Reads.append_iff.mp hr
    -- None of the forms of a parameter list begins with an operator.
    revert hb
    cases hp with
    | nothing =>
      cases hr
      exact Follows.not_beginsOp (rfl : Symbol.endsOps (.mark .rightParen) = true)
    | void =>
      obtain ⟨_, _, rfl, -⟩ := hr
      rintro (⟨_, _, _, heq, -⟩ | ⟨_, _, _, _, heq⟩) <;> exact nomatch heq
    | ellipsis =>
      obtain ⟨_, _, rfl, -⟩ := hr
      rintro (⟨_, _, _, heq, hm⟩ | ⟨_, _, _, _, heq⟩)
      · cases heq
        simp at hm
      · exact nomatch heq
    | list hts _ => exact hts.not_beginsOp hr rfl
    | variadic hts =>
      obtain ⟨mid, hr, span, ts', rfl, -⟩ := Reads.append_iff.mp hr
      exact hts.not_beginsOp hr rfl

/-- Behind the base `void` there are only qualifiers. -/
theorem Grammar.IsSpecifier.of_void {ss : List Symbol} {s : Specifier}
    (h : IsSpecifier (.keyword .void :: ss) s) : ∃ q, IsQualifiers ss q := by
  generalize hss : Symbol.keyword .void :: ss = ss' at h
  -- `void` is no qualifier, so it can only be the base.
  cases h with
  | arithmetic hw _ =>
    cases hw with
    | qualifier hk _ =>
      cases hss
      exact nomatch hk
    | _ => exact nomatch hss
  | @other _ _ behind _ _ r hq hb hq' =>
    cases hq with
    | cons hk _ =>
      cases hss
      exact nomatch hk
    | nil =>
      cases hb with
      | void =>
        cases hss
        exact ⟨r, hq'⟩
      | _ => simp at hss

/-- Only qualifiers and a declarator go on from `void`. -/
theorem Grammar.IsType.ne_void_close {ss ss' : List Symbol} {t : TypeId} (h : IsType ss t) :
    ss ≠ .keyword .void :: .mark .rightParen :: ss' := by
  intro heq
  cases h with
  | mk hs hd =>
    obtain ⟨x, ss₁, rfl, -⟩ := hs.head
    obtain ⟨rfl, htail⟩ := List.cons.inj heq
    obtain ⟨q, hq⟩ := hs.of_void
    cases hq with
    | cons _ _ => exact nomatch htail
    | nil =>
      cases htail
      exact absurd hd.head (by decide)

/-- `void` in front of `)` is not the beginning of a list of types. -/
theorem Grammar.IsTypes.ne_void_close {ss ss' : List Symbol} {types : List TypeId}
    (h : IsTypes ss types) : ss ≠ .keyword .void :: .mark .rightParen :: ss' := by
  intro heq
  cases h with
  | last ht => exact ht.ne_void_close heq
  | @cons ss₁ _ _ _ ht _ =>
    obtain ⟨x, ss₂, rfl, -⟩ := ht.head
    obtain _ | ⟨y, ss₂⟩ := ss₂
    · exact nomatch heq
    · cases heq
      exact ht.ne_void_close rfl

end TypeTraits
