import TypeTraits.Proofs.TypeId.Complete
import TypeTraits.Proofs.TypeId.Sound

/-!
# `TypeTraits.Proofs.TypeId.Exact`: the reader and the grammar agree

Soundness and completeness together: a text is read as a type exactly when the
grammar derives that type from all of its symbols. As the reader gives one
answer, the grammar gives no list of symbols two types.

* `IsType.unique`: the grammar is unambiguous.
* `TypeId.readAll_eq_ok_iff`: the reader of types on any list of tokens, with places, and
  `TypeId.readAll_bare_eq_ok_iff` without them.
* `TypeId.exists_ofText_of_isType`: what a text with derived symbols is read as.
* `TypeId.ofText_eq_ok_iff_isType`: the reader of types on the text.
-/

set_option autoImplicit false

namespace TypeTraits

open Grammar

/-- The tokens with the symbols and no places. -/
def tokensOf (ss : List Symbol) : List Token := ss.map fun s => ⟨s, default⟩

/-- Symbols that are given places are still these symbols. -/
theorem symbols_tokensOf (ss : List Symbol) : symbols (tokensOf ss) = ss := by
  rw [symbols, tokensOf, List.map_map]
  exact List.map_id ss

namespace TypeId

/-- What is read is derived, whatever is left. -/
theorem read_sound {stop : Nat} {t : TypeId} {ts rest : List Token}
    (h : read stop ts = .ok (t, rest)) : ∃ us, ts = us ++ rest ∧ Placed.IsType us t :=
  readTypeId_sound _ h

/-- What is derived is read: the reader brings fuel enough for its tokens. -/
theorem read_complete (stop : Nat) {t : TypeId} {us rest : List Token} (h : Placed.IsType us t)
    (hrest : Follows Symbol.endsType rest) : read stop (us ++ rest) = .ok (t, rest) := by
  refine readTypeId_complete stop h _ _ hrest ?_
  rw [List.length_append]
  unfold readingFuel
  omega

/-- All tokens are read as the type exactly if it is derived from them with its places. -/
theorem readAll_eq_ok_iff {s : TokenStream} {t : TypeId} :
    s.readAll read = .ok t ↔ Placed.IsType s.tokens t := by
  rw [TokenStream.readAll_eq_ok_iff]
  constructor
  · intro h
    obtain ⟨us, hus, ht⟩ := read_sound h
    rwa [hus, List.append_nil]
  · intro h
    have hread : read s.stop (s.tokens ++ []) = .ok (t, []) := read_complete s.stop h trivial
    rwa [List.append_nil] at hread

/-- All tokens are read as the type, places aside, exactly if the grammar derives it from
their symbols. -/
theorem readAll_bare_eq_ok_iff (s : TokenStream) (t : TypeId) :
    (s.readAll read).map bare = .ok t ↔ IsType (symbols s.tokens) t := by
  rw [except_map_eq_ok]
  constructor
  · rintro ⟨t', h, rfl⟩
    exact (readAll_eq_ok_iff.mp h).erase
  · intro h
    obtain ⟨t', ht', rfl⟩ := h.place rfl
    exact ⟨t', readAll_eq_ok_iff.mpr ht', rfl⟩

/-- A text whose symbols the grammar derives a type from is read as this type. -/
theorem exists_ofText_of_isType {text : String} {s : TokenStream} {t : TypeId}
    (h : TokenStream.ofText text = .ok s) (ht : IsType (symbols s.tokens) t) :
    ∃ e, ofText text = .ok e ∧ e.bare = t := by
  have hread := (readAll_bare_eq_ok_iff s t).mpr ht
  rw [ofText, h, except_bind_ok]
  exact except_map_eq_ok.mp hread

end TypeId

/-- The grammar is unambiguous, since the one answer of the reader is every type that it
derives. -/
theorem Grammar.IsType.unique {ss : List Symbol} {t t' : TypeId} (h : IsType ss t)
    (h' : IsType ss t') : t = t' := by
  rw [← symbols_tokensOf ss] at h h'
  have e := (TypeId.readAll_bare_eq_ok_iff ⟨tokensOf ss, 0⟩ t).mpr h
  have e' := (TypeId.readAll_bare_eq_ok_iff ⟨tokensOf ss, 0⟩ t').mpr h'
  rw [e] at e'
  exact Except.ok.inj e'

/-- A text of tokens is read as a type, places aside, exactly if the grammar derives the type
from the symbols of all its tokens; and no two types are derived from them. -/
theorem TypeId.ofText_eq_ok_iff_isType {text : String} {s : TokenStream}
    (h : TokenStream.ofText text = .ok s) :
    (∀ t, (TypeId.ofText text).map bare = .ok t ↔ IsType (symbols s.tokens) t) ∧
      ∀ t t', IsType (symbols s.tokens) t → IsType (symbols s.tokens) t' → t = t' := by
  constructor
  · intro t
    rw [← readAll_bare_eq_ok_iff, ofText, h, except_bind_ok]
  · intro t t' ht ht'
    exact ht.unique ht'

/-- In `int(&)(void)` the first parenthesis opens a declarator and the second one parameters,
of which `void` is none. -/
theorem TypeId.ofText_of_reference_to_function :
    TokenStream.ofText "int(&)(void)" =
      .ok ⟨[⟨.scalar .int, ⟨0, 3⟩⟩, ⟨.mark .leftParen, ⟨3, 4⟩⟩, ⟨.mark .amp, ⟨4, 5⟩⟩,
        ⟨.mark .rightParen, ⟨5, 6⟩⟩, ⟨.mark .leftParen, ⟨6, 7⟩⟩, ⟨.keyword .void, ⟨7, 11⟩⟩,
        ⟨.mark .rightParen, ⟨11, 12⟩⟩], 12⟩ ∧
    (TypeId.ofText "int(&)(void)").map bare =
      .ok (.mk ⟨.scalar .int, .none, default⟩
        (.nested [] (.flat [⟨.lvalueRef, default⟩] []) [.function [] false default]) default) := by
  have htokens : TokenStream.ofText "int(&)(void)" =
      .ok ⟨[⟨.scalar .int, ⟨0, 3⟩⟩, ⟨.mark .leftParen, ⟨3, 4⟩⟩, ⟨.mark .amp, ⟨4, 5⟩⟩,
        ⟨.mark .rightParen, ⟨5, 6⟩⟩, ⟨.mark .leftParen, ⟨6, 7⟩⟩, ⟨.keyword .void, ⟨7, 11⟩⟩,
        ⟨.mark .rightParen, ⟨11, 12⟩⟩], 12⟩ := by
    decide +kernel
  obtain ⟨hread, -⟩ := TypeId.ofText_eq_ok_iff_isType htokens
  refine ⟨htokens, (hread _).mpr ?_⟩
  have hspec : IsSpecifier [.scalar .int] ⟨.scalar .int, .none, default⟩ :=
    .arithmetic (.word .nil) (by decide)
  have hinner : IsDeclarator [.mark .amp] (.flat [⟨.lvalueRef, default⟩] []) :=
    .flat (.cons .lvalueRef .nil) .nil
  exact .mk hspec (.nested .nil hinner (List.cons_ne_nil _ _) (.function .void .nil))

end TypeTraits
