import TypeTraits.TypeId.Words

/-!
# `TypeTraits.Proofs.TypeId.Words`: two accounts of the words of arithmetic types

`Scalar.spellings` lists the collections of words that spell a type. `Scalar.ofWords?` has no list:
it asks questions about the words, one after the other. `Scalar.ofWords?_eq_some_iff` says that the
two agree on every collection in which no word stands more often than is allowed.

That each listed collection is found is a check of the list. For the other direction there are too
many collections to check all of them. But the questions leave only words of one family
(`exists_family_of_ofWords?`), and of the words of one family few collections can be made
(`ScalarWord.selections`).
-/

set_option autoImplicit false

namespace TypeTraits

namespace ScalarWord

/-- Whether no word stands more often than is allowed. -/
def IsAllowed (words : List ScalarWord) : Prop := ∀ w, words.count w ≤ w.allowance

/-- No words are too many. -/
theorem isAllowed_nil : IsAllowed [] := fun _ => Nat.zero_le _

/-- The words that go together. -/
def families : List (List ScalarWord) :=
  [[.bool], [.wchar], [.char8], [.char16], [.char32], [.float], [.long, .double],
    [.signed, .unsigned, .char], [.signed, .unsigned, .short, .long, .int]]

/-- The allowed collections of the given words, each in one order. -/
def selections : List ScalarWord → List (List ScalarWord)
  | [] => [[]]
  | w :: ws =>
    (List.range (w.allowance + 1)).flatMap fun n =>
      (selections ws).map (List.replicate n w ++ ·)

/-- Allowed words of a family are one of its selections, up to order. -/
theorem IsAllowed.exists_selection {family words : List ScalarWord} (hallowed : IsAllowed words)
    (hfamily : ∀ w ∈ words, w ∈ family) : ∃ s ∈ selections family, s.Perm words := by
  induction family generalizing words with
  | nil =>
    have hnil : words = [] := List.eq_nil_iff_forall_not_mem.mpr fun w hw => nomatch hfamily w hw
    exact ⟨[], List.mem_cons_self, hnil ▸ .nil⟩
  | cons v family ih =>
    -- The words other than `v` are a selection of the rest of the family.
    let others := words.filter (· != v)
    have hothers : IsAllowed others := fun w =>
      Nat.le_trans (List.filter_sublist.count_le w) (hallowed w)
    obtain ⟨s, hs, hperm⟩ := ih hothers fun w hw => by
      obtain ⟨hw, hne⟩ := List.mem_filter.mp hw
      exact (List.mem_cons.mp (hfamily w hw)).resolve_left (bne_iff_ne.mp hne)
    have hn : words.count v < v.allowance + 1 := Nat.lt_succ_of_le (hallowed v)
    refine ⟨List.replicate (words.count v) v ++ s, ?_, ?_⟩
    · exact List.mem_flatMap.mpr ⟨_, List.mem_range.mpr hn, List.mem_map_of_mem hs⟩
    · rw [← List.filter_beq v]
      exact (hperm.append_left _).trans (List.filter_append_perm (· == v) words)

end ScalarWord

namespace Scalar

open ScalarWord

variable {k : Scalar} {words : List ScalarWord}

/-! ### Words that are found are of one family -/

/-- Where one word stands alone and the words that never do are not there, there is no other. -/
theorem eq_of_standalone {v : ScalarWord}
    (hfilter : standalone.filter (·.1 ∈ words) = [(v, k)])
    (hnone : .signed ∉ words ∧ .unsigned ∉ words ∧ .short ∉ words ∧ .long ∉ words ∧
      .int ∉ words ∧ .char ∉ words ∧ .double ∉ words) : ∀ w ∈ words, w = v := by
  have halone : ∀ p ∈ standalone, p.1 ∈ words → p.1 = v := by
    intro p hp hw
    have hmem : p ∈ standalone.filter (·.1 ∈ words) := List.mem_filter.mpr ⟨hp, decide_eq_true hw⟩
    rw [hfilter, List.mem_singleton] at hmem
    rw [hmem]
  intro w hw
  cases w <;> simp_all [standalone]

/-- With `double` goes `long`. -/
theorem mem_of_ofDoubleWords? (halone : ∀ p ∈ standalone, p.1 ∉ words)
    (h : ofDoubleWords? words = some k) : ∀ w ∈ words, w ∈ [.long, .double] := by
  unfold ofDoubleWords? at h
  split at h
  · exact nomatch h
  · intro w hw
    cases w <;> simp_all [standalone]

/-- With `char` goes a sign. -/
theorem mem_of_ofCharWords? (halone : ∀ p ∈ standalone, p.1 ∉ words) (hdouble : .double ∉ words)
    (h : ofCharWords? words = some k) : ∀ w ∈ words, w ∈ [.signed, .unsigned, .char] := by
  unfold ofCharWords? at h
  split at h
  · exact nomatch h
  · intro w hw
    cases w <;> simp_all [standalone]

/-- What is left are the words of integers. -/
theorem mem_of_integer (halone : ∀ p ∈ standalone, p.1 ∉ words) (hdouble : .double ∉ words)
    (hchar : .char ∉ words) : ∀ w ∈ words, w ∈ [.signed, .unsigned, .short, .long, .int] := by
  intro w hw
  cases w <;> simp_all [standalone]

/-- Words that are found to spell a type are of one family. -/
theorem exists_family_of_ofWords? (h : ofWords? words = some k) :
    ∃ family ∈ families, ∀ w ∈ words, w ∈ family := by
  -- In the order of the questions: a standalone word, `double`, `char`, and integers.
  unfold ofWords? at h
  split at h
  · exact nomatch h
  · split at h
    · next v k' more hfilter =>
      split at h
      · exact nomatch h
      · next hnone =>
        simp only [ne_eq, not_or, Decidable.not_not] at hnone
        obtain ⟨rfl, hnone⟩ := hnone
        have hfamily : ∀ p ∈ standalone, [p.1] ∈ families := by decide
        have hv : (v, k') ∈ standalone :=
          (List.mem_filter.mp (hfilter ▸ List.mem_cons_self)).1
        refine ⟨[v], hfamily _ hv, fun w hw => ?_⟩
        exact List.mem_singleton.mpr (eq_of_standalone hfilter hnone w hw)
    · next hfilter =>
      have halone : ∀ p ∈ standalone, p.1 ∉ words := by simpa using hfilter
      split at h
      · exact ⟨_, by decide, mem_of_ofDoubleWords? halone h⟩
      · next hdouble =>
        split at h
        · exact ⟨_, by decide, mem_of_ofCharWords? halone hdouble h⟩
        · next hchar => exact ⟨_, by decide, mem_of_integer halone hdouble hchar⟩

/-! ### Found and listed -/

/-- Words spell a type if one of its spellings has just these words, in some order. -/
theorem isSpelledBy_iff : k.isSpelledBy words = true ↔ ∃ s ∈ k.spellings, s.Perm words := by
  simp only [isSpelledBy, List.any_eq_true, List.isPerm_iff]

/-- Each listed collection is found. -/
theorem ofWords?_of_mem_spellings (h : words ∈ k.spellings) : ofWords? words = some k := by
  revert words
  cases k <;> decide

/-- What is found in a selection of a family is listed. -/
theorem isSpelledBy_of_mem_selections {family : List ScalarWord} (hfamily : family ∈ families)
    (hs : words ∈ selections family) (h : ofWords? words = some k) : k.isSpelledBy words := by
  have key : ∀ family ∈ families, ∀ s ∈ selections family, ∀ k ∈ ofWords? s, k.isSpelledBy s := by
    decide +kernel
  exact key family hfamily words hs k h

/-- The questions find the type whose list holds the words, and only that. -/
theorem ofWords?_eq_some_iff (hallowed : IsAllowed words) :
    ofWords? words = some k ↔ k.isSpelledBy words := by
  constructor
  · intro h
    obtain ⟨family, hfamily, hmem⟩ := exists_family_of_ofWords? h
    obtain ⟨s, hs, hperm⟩ := hallowed.exists_selection hmem
    rw [← ofWords?_eq_of_perm hperm] at h
    rw [← isSpelledBy_eq_of_perm k hperm]
    exact isSpelledBy_of_mem_selections hfamily hs h
  · intro h
    -- The order of the words does not matter: take the one from the list.
    obtain ⟨s, hs, hperm⟩ := isSpelledBy_iff.mp h
    rw [← ofWords?_eq_of_perm hperm]
    exact ofWords?_of_mem_spellings hs

/-- No spelling of a type has a word more often than one specifier may. -/
theorem isAllowed_of_isSpelledBy (h : k.isSpelledBy words) : IsAllowed words := by
  have key : ∀ k ∈ Scalar.all, ∀ s ∈ k.spellings, ∀ w ∈ ScalarWord.all,
      s.count w ≤ w.allowance := by
    decide
  intro w
  obtain ⟨s, hs, hperm⟩ := isSpelledBy_iff.mp h
  rw [← hperm.count_eq]
  exact key k k.mem_all s hs w w.mem_all

/-- A type is spelled by one word at least. -/
theorem ne_nil_of_isSpelledBy (h : k.isSpelledBy words) : words ≠ [] := by
  rintro rfl
  revert h
  cases k <;> decide

end Scalar

end TypeTraits
