import TypeTraits.Proofs.TypeId.Follow
import TypeTraits.Proofs.TypeId.Sound
import TypeTraits.Proofs.TypeId.Trace

/-!
# `TypeTraits.Proofs.TypeId.Progress`: readers only go on

A reader passes the same place again only when it has taken a token since. Different places may be
passed with the same token ahead, but only in a fixed order (`Site.height`). So there is a clock
that falls from each visit to the next (`clock`): it counts the tokens ahead first and the places
that are still possible with them second.

`Descends` says this about a traced reader, together with the bounds between which its clock runs,
so that readers can be put one behind another (`Descends.bind`). It also says that the reader has
the fuel that it needs. Each reading function has one lemma of this kind.

* `traceTypeId_descends`: types, by mutual induction.
* `Descends.advances`: what the clock means for the cursor.
-/

set_option autoImplicit false

namespace TypeTraits

open Traced

/-! ### A clock that runs down -/

/-- Where the cursor stays, places are passed from the highest to the lowest. -/
def Site.height : Site → Nat
  -- With the same tokens ahead, the higher places come first.
  | argument => 12
  | query => 11
  | call => 10
  | parameter => 9
  | type => 8
  | specifier => 7
  | underlyingWord => 6
  | specifierWord => 5
  | declarator => 4
  | qualifier => 3
  | pointerOp => 2
  | suffix => 1
  | parameterList => 0

/-- What the clock shows at a place with so many tokens ahead. A token is worth as much as all
places together. -/
def clock (site : Site) (left : Nat) : Nat := 13 * left + site.height

/-- What the clock shows at a visit. -/
def Visit.clock (v : Visit) : Nat := TypeTraits.clock v.site v.left

section
variable {site site' : Site} {m n : Nat}

/-- There are thirteen places. -/
theorem Site.height_lt (site : Site) : site.height < 13 := by
  cases site <;> decide

/-- The clock shows at least thirteen for each token ahead. -/
theorem le_clock : 13 * n ≤ clock site n := Nat.le_add_right _ _

/-- And it shows less than it would with one more token. -/
theorem clock_lt : clock site n < 13 * (n + 1) := Nat.add_lt_add_left site.height_lt _

/-- With fewer tokens ahead, the clock is lower at any place. -/
theorem clock_lt_of_lt (h : m < n) : clock site m < clock site' n :=
  clock_lt.trans_le ((Nat.mul_le_mul_left 13 h).trans le_clock)

/-- With the same tokens ahead, it is lower at a lower place. -/
theorem clock_lt_of_height (h : site.height < site'.height) : clock site n < clock site' n :=
  Nat.add_lt_add_left h _

/-- A clock that is not higher has no more tokens ahead. -/
theorem le_of_clock_le (h : clock site m ≤ clock site' n) : m ≤ n := by
  by_contra hlt
  exact absurd h (clock_lt_of_lt (not_le.mp hlt)).not_ge

end

/-- The reader is not out of fuel. -/
abbrev Fueled {α : Type} (x : Except Halt α) : Prop := OnError (· ≠ .exhausted) x

/-- What is passed has a falling clock below `hi`, no more functions are open than were entered, and
there is fuel for it all. What the reader succeeds with leaves the clock at `next` or above. -/
structure Descends {α : Type} (hi : Nat) (x : Traced α) (next : α → Nat) : Prop where
  falling : x.visits.Pairwise fun v w => w.clock < v.clock
  below : ∀ v ∈ x.visits, v.clock < hi
  nested : x.depth ≤ x.entries
  fueled : Fueled x.outcome
  above : ∀ a, x.outcome = .ok a → next a ≤ hi ∧ ∀ v ∈ x.visits, next a ≤ v.clock

namespace Descends

variable {α β : Type} {hi hi' : Nat} {x : Traced α} {f : α → Traced β} {m next : α → Nat}

/-- What passes no place lets the clock go down as far as the caller says. -/
theorem lift {x : Except Halt α} (hx : Fueled x) (h : ∀ a, x = .ok a → next a ≤ hi) :
    Descends hi (lift x) next where
  falling := .nil
  below := nofun
  nested := le_rfl
  fueled := hx
  above a ha := ⟨h a ha, nofun⟩

/-- So does a result. -/
theorem pure {a : α} (h : next a ≤ hi) : Descends hi (pure a) next :=
  .lift (.ok a) fun _ hb => by cases hb; exact h

/-- A loop that decides whether to go on has let the clock go down to this place. -/
theorem visit {site : Site} {ts : List Token} (h : clock site ts.length < hi) :
    Descends hi (visit site ts) fun _ => clock site ts.length where
  falling := List.pairwise_singleton _ _
  below := List.forall_mem_singleton.mpr h
  nested := Nat.zero_le _
  fueled := .ok ()
  above _ _ := ⟨h.le, List.forall_mem_singleton.mpr le_rfl⟩

/-- What a function does comes behind its entry. -/
theorem enter {site : Site} {ts : List Token} (hsite : site.isEntry = true)
    (h : clock site ts.length < hi) (hx : Descends (clock site ts.length) x next) :
    Descends hi (enter site ts x) next where
  falling := List.pairwise_cons.mpr ⟨hx.below, hx.falling⟩
  below := List.forall_mem_cons.mpr ⟨h, fun v hv => (hx.below v hv).trans h⟩
  nested := by
    have hentries : (Traced.enter site ts x).entries = x.entries + 1 :=
      List.countP_cons_of_pos hsite
    rw [hentries]
    exact Nat.succ_le_succ hx.nested
  fueled := hx.fueled
  above a ha := by
    obtain ⟨hle, habove⟩ := hx.above a ha
    exact ⟨hle.trans h.le, List.forall_mem_cons.mpr ⟨hle, habove⟩⟩

/-- The second part begins where the first one leaves the clock. -/
theorem bind {next : β → Nat} (hx : Descends hi x m)
    (hf : ∀ a, x.outcome = .ok a → m a ≤ hi → Descends (m a) (f a) next) :
    Descends hi (x >>= f) next := by
  show Descends hi (andThen x f) next
  unfold andThen
  cases hout : x.outcome with
  | error h =>
    exact ⟨hx.falling, hx.below, hx.nested, .error (hx.fueled h hout), nofun⟩
  | ok a =>
    obtain ⟨hle, habove⟩ := hx.above a hout
    have hy := hf a hout hle
    -- All that is passed in the second part is below `m a`, and so below the first part.
    refine ⟨List.pairwise_append.mpr ⟨hx.falling, hy.falling, ?_⟩,
      List.forall_mem_append.mpr ⟨hx.below, ?_⟩, ?_, hy.fueled, fun b hb => ?_⟩
    · exact fun v hv w hw => (hy.below w hw).trans_le (habove v hv)
    · exact fun w hw => (hy.below w hw).trans_le hle
    · show max x.depth (f a).depth ≤ List.countP _ (x.visits ++ (f a).visits)
      rw [List.countP_append]
      exact max_le (hx.nested.trans (Nat.le_add_right _ _)) (hy.nested.trans (Nat.le_add_left _ _))
    · obtain ⟨hle', habove'⟩ := hy.above b hb
      refine ⟨hle'.trans hle, List.forall_mem_append.mpr ⟨?_, habove'⟩⟩
      exact fun v hv => hle'.trans (habove v hv)

/-- A loop decides in front. -/
theorem visit_bind {site : Site} {ts : List Token} {f : Unit → Traced β} {next : β → Nat}
    (h : clock site ts.length < hi) (hf : Descends (clock site ts.length) (f ()) next) :
    Descends hi (Traced.visit site ts >>= f) next :=
  (visit h).bind fun _ _ _ => hf

/-- Nothing is passed in front. -/
theorem lift_bind {x : Except Halt α} {next : β → Nat} (hx : Fueled x)
    (hf : ∀ a, x = .ok a → Descends hi (f a) next) : Descends hi (Traced.lift x >>= f) next :=
  bind (m := fun _ => hi) (lift hx fun _ _ => le_rfl) fun a ha _ => hf a ha

/-- The clock may be higher before. -/
theorem raise (hx : Descends hi x next) (hhi : hi ≤ hi') : Descends hi' x next where
  falling := hx.falling
  below v hv := (hx.below v hv).trans_le hhi
  nested := hx.nested
  fueled := hx.fueled
  above a ha := (hx.above a ha).imp_left fun hle => hle.trans hhi

end Descends

/-! ### What a falling clock means for the cursor -/

/-- Where the cursor is at a visit, in a list of `n` tokens. -/
def Visit.cursor (n : Nat) (v : Visit) : Nat := n - v.left

/-- The reader of `n` tokens comes to an end. The cursor stays in the list, with the mark of the end
behind it, and does not go back. Each time that a loop goes on or that a function is entered again,
the cursor is further on than the time before. So all that loops and nested functions can do is
linear in `n`. -/
structure Traced.Advances {α : Type} (n : Nat) (x : Traced α) : Prop where
  halts : x.outcome ≠ .error .exhausted
  inside : ∀ v ∈ x.visits, v.cursor n + v.left = n
  onward : x.visits.Pairwise fun v w =>
    v.cursor n ≤ w.cursor n ∧ (v.site = w.site → v.cursor n < w.cursor n)
  linear : x.iterations + x.depth ≤ 13 * (n + 1)

/-- Numbers that fall below a bound are not more than the bound. -/
theorem length_le_of_falling {ks : List Nat} {bound : Nat} (hks : ks.Pairwise fun k l => l < k)
    (hbound : ∀ k ∈ ks, k < bound) : ks.length ≤ bound := by
  induction ks generalizing bound with
  | nil => exact Nat.zero_le _
  | cons k ks ih =>
    rw [List.pairwise_cons] at hks
    exact (ih hks.2 hks.1).trans_lt (hbound k List.mem_cons_self)

/-- A reader whose clock goes down has its cursor go on: at any one place the clock is lower only
with fewer tokens ahead, and each step takes one from the clock at least. -/
theorem Descends.advances {α : Type} {n : Nat} {x : Traced α} {next : α → Nat}
    (h : Descends (13 * (n + 1)) x next) : x.Advances n := by
  have hleft : ∀ v ∈ x.visits, v.left ≤ n := by
    intro v hv
    have hlt : 13 * v.left < 13 * (n + 1) := le_clock.trans_lt (h.below v hv)
    omega
  refine ⟨fun hout => h.fueled _ hout rfl, fun v hv => Nat.sub_add_cancel (hleft v hv), ?_, ?_⟩
  · refine List.Pairwise.imp_of_mem (fun {v w} hv hw hlt => ?_) h.falling
    have hle := le_of_clock_le hlt.le
    refine ⟨Nat.sub_le_sub_left hle n, fun hsite => ?_⟩
    -- At the same place, the clock is lower only with fewer tokens ahead.
    have hne : w.left ≠ v.left := by
      intro heq
      rw [Visit.clock, Visit.clock, hsite, heq] at hlt
      exact hlt.false
    exact Nat.sub_lt_sub_left ((hle.lt_of_ne hne).trans_le (hleft v hv)) (hle.lt_of_ne hne)
  · -- Each visit is an entry or an iteration, and no two of them show the same on the clock.
    have hsum : x.visits.length = x.entries + x.iterations := by
      rw [List.length_eq_countP_add_countP fun v => v.site.isEntry]
      simp [entries, iterations]
    have hlen : (x.visits.map Visit.clock).length ≤ 13 * (n + 1) :=
      length_le_of_falling (List.pairwise_map.mpr h.falling) (List.forall_mem_map.mpr h.below)
    have hnested := h.nested
    rw [List.length_map] at hlen
    omega

/-! ### Readers that pass no place -/

section
variable {stop : Nat} {ts rest : List Token}

/-- Symbols that are read are that many tokens less. -/
theorem Reads.length_eq {ss : List Symbol} (h : Reads ss ts rest) :
    ts.length = ss.length + rest.length := by
  obtain ⟨us, rfl, rfl⟩ := h.exists_append
  rw [List.length_append, symbols, List.length_map]

/-- What is said about a token in the wrong place is not that the fuel is used up. -/
theorem fueled_unexpected {α : Type} {e : Expectation} :
    Fueled (.error (unexpected stop e ts) : Except Halt α) := by
  cases ts <;> exact .error nofun

/-- To expect a symbol takes no fuel. -/
theorem fueled_expect {s : Symbol} : Fueled (expect stop s ts) := by
  unfold expect
  split
  · exact fueled_unexpected
  · split
    · exact .ok _
    · exact fueled_unexpected

/-- Nor does it to read an identifier. -/
theorem fueled_readIdentifier : Fueled (readIdentifier stop ts) := by
  unfold readIdentifier
  split
  · exact .ok _
  · exact fueled_unexpected

/-- Nor to refuse another base. -/
theorem fueled_refuseBase {start : Nat} : Fueled (refuseBase start ts) := by
  unfold refuseBase
  split
  · split
    · exact .error nofun
    · split
      · exact .error nofun
      · exact .ok _
    · exact .ok _
  · exact .ok _

/-- Nor to find out what words spell. -/
theorem fueled_spelledScalar {words : List ScalarWord} {span : Span} :
    Fueled (spelledScalar words span) := by
  unfold spelledScalar
  split
  · exact .ok _
  · exact .error nofun

/-- Nor to read a bound. -/
theorem fueled_readBound : Fueled (readBound stop ts) := by
  unfold readBound
  split
  · split
    · exact fueled_expect.map _
    · exact .error nofun
  · exact fueled_expect.map _

end

/-! ### Specifiers -/

variable {stop : Nat}

/-- Each qualifier takes a token, before the loop decides again. -/
theorem traceQualifiers_descends (site : Site) (ts : List Token) :
    Descends (clock site ts.length + 1) (traceQualifiers site ts)
      fun r => clock site r.2.length + 1 := by
  have step : ∀ {t : Token} {rest : List Token} {q : Qualifiers},
      Descends (clock site rest.length + 1) (traceQualifiers site rest)
        (fun r => clock site r.2.length + 1) →
      Descends (clock site (t :: rest).length + 1) (do
        visit site (t :: rest)
        let r ← traceQualifiers site rest
        return (r.1.union q, r.2)) fun r => clock site r.2.length + 1 := by
    intro t rest q ih
    refine .visit_bind (Nat.lt_succ_self _) ?_
    exact (ih.raise (clock_lt_of_lt (Nat.lt_succ_self _))).bind fun r _ _ => .pure le_rfl
  -- The loop goes on behind each qualifier.
  induction ts with
  | nil => exact .pure le_rfl
  | cons t rest ih =>
    unfold traceQualifiers
    split
    · next heq =>
      cases heq
      exact step ih
    · next heq =>
      cases heq
      exact step ih
    · exact .pure le_rfl

/-- So does each word of a specifier. -/
theorem traceWords_descends (site : Site) (mixed : Bool) (start : Nat) (quals : Qualifiers)
    (words : List ScalarWord) (ts : List Token) :
    Descends (clock site ts.length + 1) (traceWords site mixed start quals words ts)
      fun r => clock site r.2.length + 1 := by
  induction ts generalizing quals words with
  | nil => exact .pure le_rfl
  | cons t rest ih =>
    have hrest : clock site rest.length < clock site (t :: rest).length :=
      clock_lt_of_lt (Nat.lt_succ_self _)
    unfold traceWords
    split
    · refine .visit_bind (Nat.lt_succ_self _) ?_
      split
      · exact (ih _ _).raise hrest
      · -- One word too many: nothing behind it is looked at.
        exact .lift (.error nofun) nofun
    · split
      · split
        · exact .visit_bind (Nat.lt_succ_self _) ((ih _ _).raise hrest)
        · exact .pure le_rfl
      · exact .pure le_rfl
    · exact .pure le_rfl

/-- So does each word of the type that an enumeration is stored as, and its loop is the only one
there. -/
theorem traceUnderlying_descends (ts : List Token) :
    Descends (clock .underlyingWord ts.length + 1) (traceUnderlying stop ts)
      fun r => clock .underlyingWord r.2.length := by
  unfold traceUnderlying
  refine .bind (traceWords_descends _ _ _ _ _ _) fun ⟨⟨_, words⟩, rest⟩ _ _ => ?_
  refine .visit_bind (Nat.lt_succ_self _) ?_
  split
  · exact .lift fueled_unexpected nofun
  · refine .lift (fueled_spelledScalar.map _) fun r hr => ?_
    obtain ⟨k, -, rfl⟩ := except_map_eq_ok.mp hr
    exact le_rfl

/-- The words behind the name of an enumeration are done with before those of its specifier. -/
theorem traceEnumName_descends (isScoped : Bool) (ts : List Token) :
    Descends (13 * (ts.length + 1)) (traceEnumName stop isScoped ts)
      fun r => clock .specifierWord r.2.length + 1 := by
  unfold traceEnumName
  refine .lift_bind fueled_readIdentifier fun ⟨name, ts₁⟩ hname => ?_
  have hlen : ts.length = ts₁.length + 1 := by
    rw [(readIdentifier_eq_ok_iff.mp hname).length_eq, List.length_singleton, Nat.add_comm]
  dsimp only
  split
  · next ts₂ =>
    -- The `:` is passed too, so there is a token less for the words.
    rw [List.length_cons] at hlen
    have hwords : clock .underlyingWord ts₂.length < 13 * (ts.length + 1) :=
      clock_lt.trans_le (Nat.mul_le_mul_left 13 (by omega))
    refine ((traceUnderlying_descends ts₂).raise hwords).bind fun r _ _ => .pure ?_
    exact clock_lt_of_height (by decide)
  · rw [hlen]
    exact .pure (clock_lt.trans_le (Nat.mul_le_mul_left 13 (Nat.le_succ _)))

/-- An enumeration takes its keyword. -/
theorem traceEnum_descends (ts : List Token) :
    Descends (13 * (ts.length + 1)) (traceEnum stop ts)
      fun r => clock .specifierWord r.2.length + 1 := by
  unfold traceEnum
  split
  · exact (traceEnumName_descends true _).raise (Nat.mul_le_mul_left 13 (Nat.le_succ _))
  · exact (traceEnumName_descends true _).raise (Nat.mul_le_mul_left 13 (Nat.le_succ _))
  · exact traceEnumName_descends false _

/-- A base is read without fuel. -/
theorem fueled_readBase {ts : List Token} : Fueled (readBase stop ts) := by
  unfold readBase
  split
  · exact .ok _
  · exact .ok _
  · refine fueled_expect.bind fun _ _ => ?_
    exact fueled_expect.bind fun _ _ => fueled_expect.bind fun _ _ => .ok _
  · exact fueled_readIdentifier.bind fun _ _ => .ok _
  · exact fueled_readIdentifier.bind fun _ _ => .ok _
  · exact fueled_readIdentifier.bind fun _ _ => .ok _
  · next rest =>
    -- The traced reader comes to the same, and its fuel is enough.
    rw [← traceEnum_outcome]
    exact (traceEnum_descends rest).fueled
  · exact fueled_unexpected
  · exact .ok _
  · exact fueled_unexpected

/-- A base takes a token at least. -/
theorem traceBase_descends (ts : List Token) :
    Descends (clock .specifierWord ts.length) (traceBase stop ts)
      fun r => clock .specifierWord r.2.length + 1 := by
  unfold traceBase
  split
  · exact (traceEnum_descends _).raise le_clock
  · refine .lift fueled_readBase fun (b, rest) hr => clock_lt_of_lt ?_
    obtain ⟨ss, hss, hbase⟩ := readBase_sound hr
    have hpos : 0 < ss.length := by cases hbase <;> exact Nat.succ_pos _
    rw [hss.length_eq]
    exact Nat.lt_add_of_pos_left hpos

/-- A specifier is entered, and the loop over its words runs in front of its base and behind it. -/
theorem traceSpecifier_descends (ts : List Token) :
    Descends (clock .specifier ts.length + 1) (traceSpecifier stop ts)
      fun r => clock .specifierWord r.2.length := by
  unfold traceSpecifier
  refine .enter rfl (Nat.lt_succ_self _) ?_
  refine ((traceQualifiers_descends _ _).raise (clock_lt_of_height (by decide))).bind
    fun ⟨before, ts₁⟩ _ _ => ?_
  dsimp only
  -- Words are read by the loop itself, and any other base between two rounds of it.
  split
  · refine .bind (traceWords_descends _ _ _ _ _ _) fun ⟨⟨quals, words⟩, rest⟩ _ _ => ?_
    refine .visit_bind (Nat.lt_succ_self _) (.lift_bind fueled_refuseBase fun _ _ => ?_)
    exact .lift_bind fueled_spelledScalar fun _ _ => .pure le_rfl
  · refine .visit_bind (Nat.lt_succ_self _) ?_
    refine .bind (traceBase_descends _) fun ⟨base, ts₂⟩ _ _ => ?_
    refine .bind (traceQualifiers_descends _ _) fun ⟨behind, rest⟩ _ _ => ?_
    refine .visit_bind (Nat.lt_succ_self _) (.lift_bind fueled_refuseBase fun _ _ => ?_)
    exact .pure le_rfl

/-- A specifier takes a token at least. -/
theorem readSpecifier_length_lt {s : Specifier} {ts rest : List Token}
    (h : readSpecifier stop ts = .ok (s, rest)) : rest.length < ts.length := by
  obtain ⟨us, b, q, rfl, hspec, -⟩ := readSpecifier_sound h
  obtain ⟨x, ss, hus, -⟩ := hspec.head
  obtain ⟨p, us', rfl, -⟩ := exists_cons_of_symbols hus
  rw [List.length_append]
  exact Nat.lt_add_of_pos_left (Nat.succ_pos _)

/-! ### Declarators -/

/-- Each qualifier behind an asterisk takes a token. -/
theorem tracePointerQualifiers_descends (ts : List Token) :
    Descends (clock .qualifier ts.length + 1) (tracePointerQualifiers ts)
      fun r => clock .qualifier r.2.length := by
  unfold tracePointerQualifiers
  refine .bind (traceQualifiers_descends _ _) fun r _ _ => ?_
  exact .visit_bind (Nat.lt_succ_self _) (.pure le_rfl)

/-- Every pointer operator takes a token at least. -/
theorem tracePointerOps_descends {fuel : Nat} {ts : List Token} (hfuel : ts.length < fuel) :
    Descends (clock .pointerOp ts.length + 1) (tracePointerOps stop fuel ts)
      fun r => clock .pointerOp r.2.length := by
  induction fuel generalizing ts with
  | zero => exact absurd hfuel (Nat.not_lt_zero _)
  | succ fuel ih =>
    -- The other operators, behind the tokens of one.
    have more : ∀ {hi : Nat} {ts₁ : List Token} (kind : PointerKind), ts₁.length < ts.length →
        clock .pointerOp ts₁.length < hi →
        Descends hi (do
          let r ← tracePointerOps stop fuel ts₁
          return ((⟨kind, cover ts ts₁⟩ : PointerOp) :: r.1, r.2))
          fun r => clock .pointerOp r.2.length := by
      intro hi ts₁ kind hlt hhi
      exact ((ih (by omega)).raise hhi).bind fun r _ _ => .pure le_rfl
    -- The same behind its qualifiers.
    have qualified : ∀ {ts₁ : List Token} (kind : Qualifiers → PointerKind),
        ts₁.length < ts.length →
        Descends (clock .pointerOp ts.length) (do
          let q ← tracePointerQualifiers ts₁
          let r ← tracePointerOps stop fuel q.2
          return ((⟨kind q.1, cover ts q.2⟩ : PointerOp) :: r.1, r.2))
          fun r => clock .pointerOp r.2.length := by
      intro ts₁ kind hlt
      have hquals : clock .qualifier ts₁.length < clock .declarator ts₁.length :=
        clock_lt_of_height (by decide)
      refine .raise (.bind ((tracePointerQualifiers_descends ts₁).raise hquals)
        fun ⟨q, ts₂⟩ _ hle => ?_) (clock_lt_of_lt hlt).le
      exact more (kind q) ((le_of_clock_le hle).trans_lt hlt) (clock_lt_of_height (by decide))
    unfold tracePointerOps
    refine .visit_bind (Nat.lt_succ_self _) ?_
    dsimp only
    split
    · exact qualified _ (Nat.lt_succ_self _)
    · exact more _ (Nat.lt_succ_self _) (clock_lt_of_lt (Nat.lt_succ_self _))
    · exact more _ (Nat.lt_succ_self _) (clock_lt_of_lt (Nat.lt_succ_self _))
    · refine .lift_bind fueled_expect fun ts₁ hstar => qualified _ ?_
      have hlen := (expect_eq_ok_iff.mp hstar).length_eq
      simp only [List.length_cons]
      omega
    · exact .pure le_rfl

/-- The end of a list in parentheses takes a token. -/
theorem lift_expect_descends {α : Type} {hi : Nat} {s : Symbol} {ts : List Token} (a : α)
    (h : 13 * ts.length ≤ hi) :
    Descends hi (lift ((expect stop s ts).map (a, ·))) fun r => 13 * (r.2.length + 1) := by
  refine .lift (fueled_expect.map _) fun r hr => ?_
  obtain ⟨rest, hrest, rfl⟩ := except_map_eq_ok.mp hr
  have hlen : ts.length = 1 + rest.length := (expect_eq_ok_iff.mp hrest).length_eq
  rwa [hlen, Nat.add_comm] at h

mutual

/-- A type is entered, then its specifier, and then its declarator behind the tokens of that. -/
theorem traceTypeId_descends : ∀ {fuel : Nat} {ts : List Token}, 4 * ts.length + 1 ≤ fuel →
    Descends (clock .type ts.length + 1) (traceTypeId stop fuel ts)
      fun r => clock .suffix r.2.length
  | 0, _, hfuel => absurd hfuel (Nat.not_succ_le_zero _)
  | fuel + 1, ts, hfuel => by
    unfold traceTypeId
    refine .enter rfl (Nat.lt_succ_self _) ?_
    refine .bind ((traceSpecifier_descends ts).raise (clock_lt_of_height (by decide)))
      fun ⟨s, ts₁⟩ hs _ => ?_
    -- The specifier takes a token, which pays for the fuel of the declarator.
    rw [traceSpecifier_outcome] at hs
    have hlt := readSpecifier_length_lt hs
    refine .bind ((traceDeclarator_descends (by omega)).raise (clock_lt_of_height (by decide)))
      fun ⟨d, rest⟩ _ _ => ?_
    exact .pure le_rfl

/-- A declarator goes on with its operators, with what is in parentheses, and then with its
suffixes. -/
theorem traceDeclarator_descends : ∀ {fuel : Nat} {ts : List Token}, 4 * ts.length + 2 ≤ fuel →
    Descends (clock .declarator ts.length + 1) (traceDeclarator stop fuel ts)
      fun r => clock .suffix r.2.length
  | 0, _, hfuel => absurd hfuel (Nat.not_succ_le_zero _)
  | fuel + 1, ts, hfuel => by
    -- The suffixes come last, behind another place or behind a token.
    have suffixes : ∀ {hi : Nat} {ts₁ : List Token} (d : List Suffix → Declarator),
        ts₁.length ≤ ts.length → clock .suffix ts₁.length < hi →
        Descends hi (do
          let r ← traceSuffixes stop fuel ts₁
          return (d r.1, r.2)) fun r => clock .suffix r.2.length := by
      intro hi ts₁ d hle hhi
      exact ((traceSuffixes_descends (by omega)).raise hhi).bind fun r _ _ => .pure le_rfl
    unfold traceDeclarator
    refine .enter rfl (Nat.lt_succ_self _) ?_
    refine .bind ((tracePointerOps_descends (by omega)).raise (clock_lt_of_height (by decide)))
      fun ⟨ops, ts₁⟩ _ hclock => ?_
    have hle : ts₁.length ≤ ts.length := le_of_clock_le hclock
    dsimp only
    split
    · next ho =>
      obtain ⟨p, ts₂, rfl, -⟩ := opensDeclarator_iff.mp ho
      rw [List.length_cons] at hle
      refine .bind ((traceDeclarator_descends (by rw [List.tail_cons]; omega)).raise
        (clock_lt_of_lt (Nat.lt_succ_self _))) fun ⟨inner, ts₃⟩ _ hclock₃ => ?_
      refine .lift_bind fueled_expect fun ts₄ hclose => ?_
      have hlen : ts₃.length = 1 + ts₄.length := (expect_eq_ok_iff.mp hclose).length_eq
      -- The parentheses are two tokens that the suffixes have behind them.
      have hle₃ : ts₃.length ≤ ts₂.length + 1 := le_of_clock_le hclock₃
      exact suffixes (.nested ops inner) (by omega) (clock_lt_of_lt (by dsimp only; omega))
    · exact suffixes (.flat ops) hle (clock_lt_of_height (by decide))

/-- Each suffix takes its brackets or parentheses before the next one is looked for. -/
theorem traceSuffixes_descends : ∀ {fuel : Nat} {ts : List Token}, 4 * ts.length + 1 ≤ fuel →
    Descends (clock .suffix ts.length + 1) (traceSuffixes stop fuel ts)
      fun r => clock .suffix r.2.length
  | 0, _, hfuel => absurd hfuel (Nat.not_succ_le_zero _)
  | fuel + 1, ts, hfuel => by
    -- The other suffixes, behind the tokens of one.
    have more : ∀ {hi : Nat} {ts₁ : List Token} (suffix : Suffix), ts₁.length < ts.length →
        clock .suffix ts₁.length < hi →
        Descends hi (do
          let r ← traceSuffixes stop fuel ts₁
          return (suffix :: r.1, r.2)) fun r => clock .suffix r.2.length := by
      intro hi ts₁ suffix hlt hhi
      exact ((traceSuffixes_descends (by omega)).raise hhi).bind fun r _ _ => .pure le_rfl
    unfold traceSuffixes
    refine .visit_bind (Nat.lt_succ_self _) ?_
    dsimp only
    split
    · next p ts₁ =>
      refine .lift_bind fueled_readBound fun ⟨bound, ts₂⟩ hbound => ?_
      obtain ⟨us, p', rfl, -⟩ := readBound_sound hbound
      have hlt : ts₂.length <
          (⟨.mark .leftBracket, p⟩ :: (us ++ ⟨.mark .rightBracket, p'⟩ :: ts₂)).length := by
        simp only [List.length_cons, List.length_append]
        omega
      exact more _ hlt (clock_lt_of_lt hlt)
    · next p ts₁ =>
      rw [List.length_cons] at hfuel
      refine .bind (.enter rfl (clock_lt_of_height (by decide))
        ((traceParams_descends (by omega)).raise (clock_lt_of_lt (Nat.lt_succ_self _))))
        fun ⟨⟨params, v⟩, ts₂⟩ _ hle => ?_
      -- The mark that closes the list is behind, so the other suffixes have fewer tokens.
      have hlt : ts₂.length < (⟨.mark .leftParen, p⟩ :: ts₁ : List Token).length := by
        simp only [clock, Site.height] at hle
        omega
      exact more _ hlt clock_lt
    · exact .pure le_rfl

/-- The list is behind its opening mark, so it may take as much as one token is worth. -/
theorem traceParams_descends : ∀ {fuel : Nat} {ts : List Token}, 4 * ts.length + 3 ≤ fuel →
    Descends (clock .parameter ts.length + 1) (traceParams stop fuel ts)
      fun r => 13 * (r.2.length + 1)
  | 0, _, hfuel => absurd hfuel (Nat.not_succ_le_zero _)
  | fuel + 1, ts, hfuel => by
    have hts : 13 * ts.length ≤ clock .parameter ts.length + 1 := le_clock.trans (Nat.le_succ _)
    unfold traceParams
    split
    · exact .pure (le_trans (Nat.mul_le_mul_left 13 (Nat.le_succ _)) hts)
    · exact lift_expect_descends _ (le_trans (Nat.mul_le_mul_left 13 (Nat.le_succ _)) hts)
    · exact .pure hts
    · exact traceParamList_descends (by omega)

/-- Each parameter is a type, and the loop goes on behind the comma. -/
theorem traceParamList_descends : ∀ {fuel : Nat} {ts : List Token}, 4 * ts.length + 2 ≤ fuel →
    Descends (clock .parameter ts.length + 1) (traceParamList stop fuel ts)
      fun r => 13 * (r.2.length + 1)
  | 0, _, hfuel => absurd hfuel (Nat.not_succ_le_zero _)
  | fuel + 1, ts, hfuel => by
    unfold traceParamList
    refine .visit_bind (Nat.lt_succ_self _) ?_
    refine .bind ((traceTypeId_descends (by omega)).raise (clock_lt_of_height (by decide)))
      fun ⟨param, ts₁⟩ _ hclock => ?_
    have hle : ts₁.length ≤ ts.length := le_of_clock_le hclock
    dsimp only
    -- The list goes on with an ellipsis or with another parameter, or it ends.
    split
    · next ts₂ =>
      refine lift_expect_descends _ (le_trans (Nat.mul_le_mul_left 13 ?_) le_clock)
      simp only [List.length_cons]
      omega
    · rw [List.length_cons] at hle
      refine .bind ((traceParamList_descends (by omega)).raise
        (clock_lt_of_lt (Nat.lt_succ_self _))) fun ⟨⟨params, v⟩, rest⟩ _ _ => ?_
      exact .pure le_rfl
    · exact lift_expect_descends _ le_clock

end

end TypeTraits
