import TypeTraits.Proofs.Descriptor.Spelling
import TypeTraits.Proofs.Formed
import TypeTraits.Proofs.TypeId.Exact
import TypeTraits.Proofs.Universe.Layers
import TypeTraits.Proofs.Universe.Readable
import TypeTraits.Proofs.Universe.Spans

/-!
# `TypeTraits.Proofs.Universe.RoundTrip`: printed types are parsed as themselves

Every type that operations build is what its own text stands for, in every
universe that declares the names in it as the type has them.

The induction is on the type, for every declarator text that it can be printed
around (`Descriptor.Printable`). A pointer to an array puts parentheses around
what it has grown, so an array is never printed around an operator; a reference
is never printed around another reference, so `&` never meets `&`. Both are one
condition on the declarator: it has no operators of its own.

* `Descriptor.IsReadable.isPrintable`: the induction.
* `Universe.parseType_spelling`: printing and then parsing is the identity on formed types.
-/

set_option autoImplicit false

namespace TypeTraits

open Grammar

namespace Descriptor

/-- Whatever the type is printed around, the text is read as a type that the universe gives
the meaning of the declarator applied to the type. -/
def IsPrintable (u : Universe) (t : Descriptor) : Prop :=
  ∀ (extra : Qualifiers) (d : String) (ss : List Symbol) (decl : Declarator),
    Lexes d.toList ss → IsDeclarator ss decl →
    (t.bindsSuffix = true ∨ t.isReference = true → decl.ops = []) →
    ∃ ss' e, Lexes (t.spell extra d).toList ss' ∧ IsType ss' e ∧
      u.elaborate e = u.applyDeclarator decl (t.qualified extra)

section
variable {u : Universe}

/-! ### Specifiers -/

/-- A type that is printed as a name in front of the declarator. -/
theorem isPrintable_of_specify (b : Base) (ws : List Symbol) {t : Descriptor} {name : String}
    (hspell : ∀ extra d, t.spell extra d = specify name (t.qualifiers.union extra) d)
    (hname : name.toList = spaced ws) (hws : ∀ w ∈ ws, w.IsWord) (hne : ws ≠ [])
    (hspec : ∀ q : Qualifiers, IsSpecifier (q.symbols ++ ws) ⟨b, q, default⟩)
    (hbase : u.elaborateBase default b = .ok t.unqualified) : t.IsPrintable u := by
  intro extra d ss decl hd hdecl _
  refine ⟨_, _, ?_, .mk (hspec (t.qualifiers.union extra)) hdecl, ?_⟩
  · rw [hspell]
    exact lexes_specify hname hws hne hd
  · -- The name stands for the type without qualifiers; those in front come on top.
    have hq : t.unqualified.qualified (t.qualifiers.union extra) = t.qualified extra := by
      rw [qualified, qualifiers_unqualified, Qualifiers.none_union, unqualified,
        withQualifiers_withQualifiers, qualified]
    rw [Universe.elaborate, Universe.elaborateSpecifier, hbase, ← hq]
    rfl

/-- A type that is printed as a keyword. -/
theorem isPrintable_keyword {t : Descriptor} {k : Keyword} {b : Base}
    (hspell : ∀ extra d, t.spell extra d = specify k.text (t.qualifiers.union extra) d)
    (hb : IsBase [.keyword k] b) (hbase : u.elaborateBase default b = .ok t.unqualified) :
    t.IsPrintable u := by
  refine isPrintable_of_specify b [.keyword k] hspell rfl ?_ (List.cons_ne_nil _ _) (fun q => ?_)
    hbase
  · intro w hw
    rw [List.mem_singleton.mp hw]
    exact k.isWord
  · have h := IsSpecifier.other q.isQualifiers_symbols hb .nil
    rwa [List.append_nil, Qualifiers.union_none] at h

/-- A type that is printed as a declared name. -/
theorem isPrintable_named {t : Descriptor} {name : String} (hplain : IsPlainName name)
    (hspell : ∀ extra d, t.spell extra d = specify name (t.qualifiers.union extra) d)
    (hlookup : u.lookup? name = some t.unqualified) : t.IsPrintable u := by
  refine isPrintable_of_specify (.named name) [.identifier name] hspell rfl ?_
    (List.cons_ne_nil _ _) (fun q => ?_) ?_
  · intro w hw
    rw [List.mem_singleton.mp hw]
    exact ⟨hplain.isLexical, fun _ => rfl⟩
  -- All qualifiers are in front of the name.
  · have hb : IsBase [.identifier name] (.named name) := .named
    have h := IsSpecifier.other q.isQualifiers_symbols hb .nil
    rwa [List.append_nil, Qualifiers.union_none] at h
  · rw [Universe.elaborateBase, Universe.resolve, hlookup]

/-- An arithmetic type is printed in the words of one of its spellings. -/
theorem isPrintable_scalar (k : Scalar) (q : Qualifiers) : (scalar k q).IsPrintable u := by
  -- The name of an arithmetic type is one of its spellings, word by word.
  obtain ⟨ws, hws, hname⟩ := k.exists_name_eq_spaced
  have hspelled : k.isSpelledBy ws := Scalar.isSpelledBy_iff.mpr ⟨ws, hws, List.Perm.refl ws⟩
  refine isPrintable_of_specify (.scalar k) (ws.map .scalar) (fun _ _ => rfl) hname ?_ ?_
    (fun q => ?_) rfl
  · intro w hw
    obtain ⟨v, -, rfl⟩ := List.mem_map.mp hw
    exact v.isWord
  · intro h
    exact Scalar.ne_nil_of_isSpelledBy hspelled (List.map_eq_nil_iff.mp h)
  · have h := (isWords_map_scalar ws).of_qualifiers q.isQualifiers_symbols
    rw [Qualifiers.union_none] at h
    exact .arithmetic h hspelled

/-! ### Operators -/

/-- One more operator in front of the declarator, in parentheses where a suffix follows. -/
theorem IsPrintable.behind_op {t : Descriptor} (ht : t.IsPrintable u) (href : t.isReference = false)
    {d : String} {os ss : List Symbol} {k : PointerKind} {decl : Declarator}
    (hd : Lexes d.toList (os ++ ss)) (hop : IsOp os k) (hdecl : IsDeclarator ss decl) :
    ∃ ss' e, Lexes (t.spell .none (t.group d)).toList ss' ∧ IsType ss' e ∧
      u.elaborate e = u.applyOp t ⟨k, default⟩ >>= u.applyDeclarator decl := by
  have hpush := isDeclarator_push hop hdecl
  rw [← u.applyDeclarator_push]
  unfold group
  cases hb : t.bindsSuffix with
  | true =>
    -- Suffixes will follow, so the parentheses are there, and the operator that
    -- was put in front is what allows them.
    have hne : (decl.push ⟨k, default⟩).ops ≠ [] := by
      rw [Declarator.ops_push]
      exact List.cons_ne_nil _ _
    have hlex : Lexes ("(" ++ d ++ ")").toList
        (.mark .leftParen :: (os ++ ss ++ [.mark .rightParen])) := by
      have hbracketed := hd.bracketed (m := .leftParen) rfl
      rw [String.toList_append, String.toList_append, List.append_assoc]
      exact hbracketed
    obtain ⟨ss', e, hlex', htype, he⟩ :=
      ht .none _ _ _ hlex (isDeclarator_group hpush hne) fun _ => rfl
    refine ⟨ss', e, hlex', htype, ?_⟩
    rw [he, qualified_none, u.applyDeclarator_group]
  | false =>
    obtain ⟨ss', e, hlex', htype, he⟩ := ht .none _ _ _ hd hpush (by simp [hb, href])
    refine ⟨ss', e, hlex', htype, ?_⟩
    rw [he, qualified_none]

/-- A pointer adds `*` and its qualifiers. -/
theorem isPrintable_pointer {t : Descriptor} {q : Qualifiers} (ht : t.IsPrintable u)
    (href : t.isReference = false) : (pointer t q).IsPrintable u := by
  intro extra d ss decl hd hdecl _
  have hlex : Lexes (operate "*" (q.union extra) d).toList
      (.mark .star :: (q.union extra).symbols ++ ss) := lexes_operate (fun _ _ => lexes_star) hd
  obtain ⟨ss', e, hlex', htype, he⟩ :=
    ht.behind_op href hlex (.pointer (q.union extra).isQualifiers_symbols) hdecl
  refine ⟨ss', e, hlex', htype, he.trans ?_⟩
  -- The pointer is formed without qualifiers, and gets those behind `*`.
  have hop : u.applyOp t ⟨.pointer (q.union extra), default⟩ = .ok (pointer t (q.union extra)) := by
    show formedAt _ _ = _
    rw [pointerTo_eq_ok_iff.mpr ⟨href, rfl⟩]
    exact congrArg (fun q => Except.ok (pointer t q)) (Qualifiers.none_union _)
  rw [hop]
  rfl

/-- A pointer to a member adds the name of the class, `::*` and its qualifiers. -/
theorem isPrintable_memberPointer {c : ClassType} {t : Descriptor} {q : Qualifiers}
    (ht : t.IsPrintable u) (hvoid : t.isVoid = false) (href : t.isReference = false)
    (hplain : IsPlainName c.name) (hlookup : u.lookup? c.name = some (classType c .none)) :
    (memberPointer c t q).IsPrintable u := by
  intro extra d ss decl hd hdecl _
  have hlex : Lexes (operate (c.name ++ "::*") (q.union extra) d).toList
      (.identifier c.name :: .mark .colonColon :: .mark .star :: (q.union extra).symbols ++ ss) :=
    lexes_operate (fun _ _ => lexes_memberStar hplain.isLexical) hd
  obtain ⟨ss', e, hlex', htype, he⟩ :=
    ht.behind_op href hlex (.member (q.union extra).isQualifiers_symbols) hdecl
  refine ⟨ss', e, hlex', htype, he.trans ?_⟩
  -- The class is looked up as it was declared.
  have hop : u.applyOp t ⟨.member c.name (q.union extra), default⟩ =
      .ok (memberPointer c t (q.union extra)) := by
    show (u.resolve c.name default >>= fun c => formedAt _ _) = _
    rw [Universe.resolve, hlookup]
    show formedAt _ _ = _
    rw [memberPointerTo_eq_ok_iff.mpr ⟨c, .none, rfl, hvoid, href, rfl⟩]
    exact congrArg (fun q => Except.ok (memberPointer c t q)) (Qualifiers.none_union _)
  rw [hop]
  rfl

/-- What stands behind `&` is not another `&`. -/
theorem stops_amp {d : String} {ss : List Symbol} {decl : Declarator} (hd : Lexes d.toList ss)
    (hdecl : IsDeclarator ss decl) (hops : decl.ops = []) : (Symbol.mark .amp).Stops d.toList := by
  intro c hc
  obtain ⟨cs, hcs⟩ : ∃ cs, d.toList = c :: cs := List.head?_eq_some_iff.mp hc
  rw [hcs] at hd
  rcases hd.head with hb | ⟨s, ss', rfl, hs⟩
  · cases hj : (Symbol.mark .amp).joins c with
    | false => rfl
    | true =>
      have hamp : c = '&' := by simpa [Symbol.joins] using hj
      rw [hamp] at hb
      exact absurd hb Bool.false_ne_true
  · -- Without operators a declarator begins with a suffix or a nested declarator.
    have hsuf := hdecl.beginsSuffix hops
    obtain ⟨m, rfl, hm⟩ : ∃ m, s = .mark m ∧ (m = .leftParen ∨ m = .leftBracket) := by
      cases s with
      | mark m => exact ⟨m, rfl, by simpa [Symbol.beginsSuffix] using hsuf⟩
      | _ => exact absurd hsuf Bool.false_ne_true
    rcases hm with rfl | rfl
    · obtain rfl : '(' = c := Option.some.inj hs
      rfl
    · obtain rfl : '[' = c := Option.some.inj hs
      rfl

/-- A reference adds `&`, which has no other operator behind it. -/
theorem isPrintable_lvalueRef {t : Descriptor} (ht : t.IsPrintable u) (hvoid : t.isVoid = false)
    (href : t.isReference = false) : (lvalueRef t).IsPrintable u := by
  intro extra d ss decl hd hdecl hops
  have hlex : Lexes ("&" ++ d).toList ([.mark .amp] ++ ss) := by
    rw [String.toList_append]
    -- Nothing behind `&` makes it another operator.
    exact .symbol (Symbol.mark_isLexical .amp) (stops_amp hd hdecl (hops (.inr rfl))) hd
  obtain ⟨ss', e, hlex', htype, he⟩ := ht.behind_op href hlex .lvalueRef hdecl
  refine ⟨ss', e, hlex', htype, he.trans ?_⟩
  have hop : u.applyOp t ⟨.lvalueRef, default⟩ = .ok (lvalueRef t) := by
    show formedAt _ _ = _
    rw [lvalueRefTo_eq_ok_iff.mpr ⟨hvoid, rfl⟩, removeReference_eq_self href]
    rfl
  rw [hop]
  rfl

/-- A reference adds `&&`, which goes on with nothing. -/
theorem isPrintable_rvalueRef {t : Descriptor} (ht : t.IsPrintable u) (hvoid : t.isVoid = false)
    (href : t.isReference = false) : (rvalueRef t).IsPrintable u := by
  intro extra d ss decl hd hdecl _
  have hlex : Lexes ("&&" ++ d).toList ([.mark .ampAmp] ++ ss) := by
    rw [String.toList_append]
    exact .mark .ampAmp (fun _ => rfl) hd
  obtain ⟨ss', e, hlex', htype, he⟩ := ht.behind_op href hlex .rvalueRef hdecl
  refine ⟨ss', e, hlex', htype, he.trans ?_⟩
  -- What is behind `&&` is no reference, so nothing collapses.
  have hop : u.applyOp t ⟨.rvalueRef, default⟩ = .ok (rvalueRef t) := by
    show formedAt _ _ = _
    rw [rvalueRefTo_eq_ok_iff.mpr ⟨hvoid, rfl⟩, href]
    rfl
  rw [hop]
  rfl

/-! ### Suffixes -/

/-- An array puts its bound behind the declarator and hands its qualifiers on to its
elements. -/
theorem isPrintable_array {t : Descriptor} {n : Option Nat} {q : Qualifiers}
    (ht : t.IsPrintable u) (hl : (array t n q).CanonicalLevel)
    (hn : ∀ m, n = some m → m < sizeLimit) : (array t n q).IsPrintable u := by
  intro extra d ss decl hd hdecl hops
  have hnil : decl.ops = [] := hops (.inl rfl)
  have hlex : Lexes (d ++ "[" ++ (n.map toString).getD "" ++ "]").toList
      (ss ++ .mark .leftBracket :: (boundSymbols n ++ [.mark .rightBracket])) := by
    have hbehind := hd.bracketed_behind (m := .leftBracket) rfl (lexes_boundSymbols n)
    simp only [String.toList_append, List.append_assoc]
    exact hbehind
  have hsuf : IsSuffixes (.mark .leftBracket :: (boundSymbols n ++ [.mark .rightBracket]))
      [.array n default] := .array (isBound_boundSymbols hn) .nil
  -- The brackets stand behind all others, so they are applied first.
  have hnone : (decl.behind (.array n default)).ops = [] := by rw [Declarator.ops_behind, hnil]
  obtain ⟨ss', e, hlex', htype, he⟩ :=
    ht (q.union extra) _ _ _ hlex (isDeclarator_behind hdecl hsuf) fun _ => hnone
  refine ⟨ss', e, hlex', htype, ?_⟩
  rw [he, u.applyDeclarator_behind hnil, Universe.applySuffix, arrayOf_qualified hl]
  rfl

/-- A type printed around nothing is read as itself. -/
theorem IsPrintable.whole {t : Descriptor} (ht : t.IsPrintable u) :
    ∃ ss e, Lexes (t.spell .none "").toList ss ∧ IsType ss e ∧ u.elaborate e = .ok t := by
  obtain ⟨ss, e, hlex, htype, he⟩ :=
    ht .none "" [] (.flat [] []) .nil (.flat .nil .nil) fun _ => rfl
  refine ⟨ss, e, hlex, htype, ?_⟩
  rw [he, qualified_none]
  rfl

/-- Parameters, one or more, and what may follow them. -/
theorem exists_isTypes_of_isPrintable (v : Bool) (ps : List Descriptor) :
    ∀ p : Descriptor, p.IsPrintable u → (∀ p' ∈ ps, p'.IsPrintable u) →
    ∃ ss es, IsTypes ss es ∧ u.elaborateEach es = .ok (p :: ps) ∧
      Lexes (", ".intercalate (spellEach (p :: ps) ++ if v then ["..."] else [])).toList
        (ss ++ if v then [.mark .comma, .mark .ellipsis] else []) := by
  induction ps with
  | nil =>
    intro p hp _
    obtain ⟨ss, e, hlex, htype, he⟩ := hp.whole
    refine ⟨ss, [e], .last htype, ?_, ?_⟩
    · rw [Universe.elaborateEach, he]
      rfl
    -- The ellipsis has a comma in front of it.
    · cases v with
      | false =>
        rw [if_neg Bool.false_ne_true, if_neg Bool.false_ne_true, List.append_nil, List.append_nil]
        rw [spellEach, spellEach, String.intercalate_singleton]
        exact hlex
      | true =>
        have hellipsis : Lexes "...".toList [.mark .ellipsis] :=
          .of_symbol (Symbol.mark_isLexical .ellipsis)
        rw [if_pos rfl, if_pos rfl, spellEach, spellEach, List.singleton_append,
          String.intercalate_cons_cons, String.intercalate_singleton, String.toList_append,
          String.toList_append, List.append_assoc]
        exact hlex.comma (.blank rfl hellipsis)
  | cons p' ps ih =>
    intro p hp hps
    obtain ⟨ss, e, hlex, htype, he⟩ := hp.whole
    obtain ⟨ss', es, htypes, hes, hlex'⟩ := ih p' (hps p' List.mem_cons_self)
      fun p'' hp'' => hps p'' (List.mem_cons_of_mem p' hp'')
    refine ⟨ss ++ .mark .comma :: ss', e :: es, .cons htype htypes, ?_, ?_⟩
    · rw [Universe.elaborateEach, he, hes]
      rfl
    · rw [spellEach, List.cons_append, String.intercalate_cons_of_ne_nil (by simp [spellEach]),
        String.toList_append, String.toList_append, List.append_assoc, List.append_assoc]
      exact hlex.comma (.blank rfl hlex')

/-- A lone `void` is the type `void`. -/
theorem eq_of_isTypes_void {es : List TypeId} (h : IsTypes [.keyword .void] es) :
    es = [.mk ⟨.void, .none, default⟩ (.flat [] []) default] := by
  -- The grammar derives one type from `void`.
  have hvoid : IsType [.keyword .void] (.mk ⟨.void, .none, default⟩ (.flat [] []) default) :=
    .mk (.other .nil .void .nil) (.flat .nil .nil)
  generalize hss : [Symbol.keyword .void] = ss at h
  cases h with
  | last ht =>
    subst hss
    rw [ht.unique hvoid]
  | cons ht _ =>
    obtain ⟨x, ss', rfl, -⟩ := ht.head
    simp at hss

/-- The parameters of a function, with a lone `void` ruled out: no parameter is `void`. -/
theorem exists_isParams_of_isPrintable {ps : List Descriptor} (v : Bool)
    (hps : ∀ p ∈ ps, p.IsPrintable u) (hvoid : ∀ p ∈ ps, p.isVoid = false) :
    ∃ ss es, IsParams ss es v ∧ u.elaborateEach es = .ok ps ∧
      Lexes (", ".intercalate (spellEach ps ++ if v then ["..."] else [])).toList ss := by
  cases ps with
  | nil =>
    cases v with
    | false => exact ⟨[], [], .nothing, rfl, .nil⟩
    | true => exact ⟨_, [], .ellipsis, rfl, .of_symbol (Symbol.mark_isLexical .ellipsis)⟩
  | cons p ps =>
    obtain ⟨ss, es, htypes, hes, hlex⟩ := exists_isTypes_of_isPrintable v ps p
      (hps p List.mem_cons_self) fun p' hp' => hps p' (List.mem_cons_of_mem p hp')
    cases v with
    | true => exact ⟨_, es, .variadic htypes, hes, hlex⟩
    | false =>
      simp only [Bool.false_eq_true, if_false, List.append_nil] at hlex ⊢
      refine ⟨ss, es, .list htypes ?_, hes, hlex⟩
      -- A lone `void` would be a parameter of the type `void`.
      rintro rfl
      rw [eq_of_isTypes_void htypes] at hes
      have hp : p = .void .none := (List.cons.inj (Except.ok.inj hes)).1.symm
      have hnot := hvoid p List.mem_cons_self
      rw [hp] at hnot
      exact nomatch hnot

/-- A function puts its parameters behind the declarator. It has no qualifiers of its own to
print. -/
theorem isPrintable_function {r : Descriptor} {ps : List Descriptor} {v : Bool}
    (hr : r.IsPrintable u) (hps : ∀ p ∈ ps, p.IsPrintable u)
    (hl : (function r ps v).CanonicalLevel) : (function r ps v).IsPrintable u := by
  intro extra d ss decl hd hdecl hops
  have hnil : decl.ops = [] := hops (.inl rfl)
  obtain ⟨pss, es, hparams, hes, hplex⟩ :=
    exists_isParams_of_isPrintable v hps fun p hp => (hl.2.2 p hp).2.1
  have hlex := hd.bracketed_behind (m := .leftParen) rfl hplex
  have hsuf : IsSuffixes (.mark .leftParen :: (pss ++ [.mark .rightParen]))
      [.function es v default] := .function hparams .nil
  have htext : ∀ s : String, (d ++ "(" ++ s ++ ")").toList =
      d.toList ++ (Mark.leftParen.text.toList ++ (s.toList ++ Mark.rightParen.text.toList)) := by
    intro s
    simp only [String.toList_append, List.append_assoc]
    rfl
  rw [← htext] at hlex
  have hnone : (decl.behind (.function es v default)).ops = [] := by
    rw [Declarator.ops_behind, hnil]
  obtain ⟨ss', e, hlex', htype, he⟩ :=
    hr .none _ _ _ hlex (isDeclarator_behind hdecl hsuf) fun _ => hnone
  refine ⟨ss', e, hlex', htype, ?_⟩
  -- The parameters are stored already, so the function is formed as it is.
  rw [he, u.applyDeclarator_behind hnil, Universe.applySuffix, hes, except_bind_ok, qualified_none,
    functionOf_eq_ok_self hl]
  rfl

end

/-- Every canonical type that can be read back is printed so that it is. -/
theorem IsReadable.isPrintable {u : Universe} {t : Descriptor} (h : t.IsReadable u)
    (hc : t.IsCanonical) : t.IsPrintable u := by
  -- Each type is printed around the levels behind it, so the induction is on the type.
  induction t with
  | void q => exact isPrintable_keyword (k := .void) (fun _ _ => rfl) .void rfl
  | nullPointer q => exact isPrintable_keyword (k := .nullptrT) (fun _ _ => rfl) .nullptrT rfl
  | scalar k q => exact isPrintable_scalar k q
  | classType c q =>
    obtain ⟨hplain, hlookup⟩ := (h _ (mem_levels_self _)).name c.name rfl
    exact isPrintable_named hplain (fun _ _ => rfl) hlookup
  | enumType e q =>
    obtain ⟨hplain, hlookup⟩ := (h _ (mem_levels_self _)).name e.name rfl
    exact isPrintable_named hplain (fun _ _ => rfl) hlookup
  | pointer t q ih =>
    obtain ⟨href, hc⟩ := (isCanonical_pointer t q).mp hc
    exact isPrintable_pointer (ih (isReadable_pointer.mp h) hc) href
  | memberPointer c t q ih =>
    obtain ⟨⟨hvoid, href⟩, hc⟩ := (isCanonical_memberPointer t q c).mp hc
    obtain ⟨hclass, ht⟩ := (isReadable_memberPointer c).mp h
    obtain ⟨hplain, hlookup⟩ := (hclass _ (mem_levels_self _)).name c.name rfl
    exact isPrintable_memberPointer (ih ht hc) hvoid href hplain hlookup
  | array t n q ih =>
    obtain ⟨hl, hc⟩ := (isCanonical_array t q n).mp hc
    obtain ⟨hn, ht⟩ := isReadable_array.mp h
    exact isPrintable_array (ih ht hc) hl hn
  | lvalueRef t ih =>
    obtain ⟨⟨hvoid, href⟩, hc⟩ := (isCanonical_lvalueRef t).mp hc
    exact isPrintable_lvalueRef (ih (isReadable_lvalueRef.mp h) hc) hvoid href
  | rvalueRef t ih =>
    obtain ⟨⟨hvoid, href⟩, hc⟩ := (isCanonical_rvalueRef t).mp hc
    exact isPrintable_rvalueRef (ih (isReadable_rvalueRef.mp h) hc) hvoid href
  | function r ps v ihr ihps =>
    obtain ⟨hl, hcr, hcps⟩ := (isCanonical_function r ps v).mp hc
    obtain ⟨hr, hps⟩ := isReadable_function.mp h
    exact isPrintable_function (ihr hr hcr) (fun p hp => ihps p hp (hps p hp) (hcps p hp)) hl

end Descriptor

/-- A canonical type that can be read back is what its text stands for. -/
theorem Universe.parseType_spelling_of_isReadable {u : Universe} {t : Descriptor}
    (hc : t.IsCanonical) (hread : t.IsReadable u) : u.parseType t.spelling = .ok t := by
  -- The text is cut into symbols, these are derived, and what they derive is read:
  -- up to its places, as what stands for the type.
  obtain ⟨ss, e, hlex, htype, he⟩ := (hread.isPrintable hc).whole
  obtain ⟨s, hs, hsymbols⟩ := TokenStream.ofText_eq_ok_iff.mpr hlex
  rw [← hsymbols] at htype
  obtain ⟨e', hparse, rfl⟩ := TypeId.exists_ofText_of_isType hs htype
  have hparsed : TypeId.ofText t.spelling = .ok e' := hparse
  rw [Universe.parseType, hparsed, except_bind_ok]
  exact (u.elaborate_bare_eq_ok_iff e' t).mp he

open Descriptor in
/-- Printing and then parsing is the identity: a formed type with bounds that are sizes is what
its text stands for, wherever each name in it is plain and declared as the type has it. -/
theorem Universe.parseType_spelling {u : Universe} {t : Descriptor} (ht : t.Formed)
    (hbounds : ∀ s ∈ t.levels, ∀ e n q, s = .array e (some n) q → n < sizeLimit)
    (hnames : ∀ s ∈ t.levels, ∀ name, s.name? = some name →
      IsPlainName name ∧ u.lookup? name = some s.unqualified) :
    u.parseType t.spelling = .ok t := by
  have hread : t.IsReadable u := fun s hs => ⟨hbounds s hs, hnames s hs⟩
  exact parseType_spelling_of_isReadable ht.isCanonical hread

open Descriptor in
/-- A reference to an array of pointers to member functions, in a universe with the class and
the enumeration that occur in it. -/
theorem Universe.parseType_spelling_of_reference :
    let u : Universe := ⟨[("w", ofClass "w"), ("color", enumType ⟨"color", false, .int⟩ .none)]⟩
    let f := function int [enumType ⟨"color", false, .int⟩ .none] true
    let t := lvalueRef (array (memberPointer ⟨"w", false⟩ f .none) (some 3) .const)
    t.spelling = "int(w::* const(&)[3])(color, ...)" ∧ u.parseType t.spelling = .ok t := by
  intro u f t
  refine ⟨by decide +kernel, u.parseType_spelling (IsCanonical.formed (by decide)) ?_ ?_⟩
  · intro s hs e n q heq
    have hn : e = memberPointer ⟨"w", false⟩ f .none ∧ n = 3 ∧ q = .const := by
      simpa [t, f, int, levels, levelsEach, heq] using hs
    rw [hn.2.1]
    decide
  · have hw : IsPlainName "w" := ⟨⟨0, 1⟩, 1, by decide +kernel⟩
    have hcolor : IsPlainName "color" := ⟨⟨0, 5⟩, 5, by decide +kernel⟩
    intro s hs name hname
    simp only [t, f, int, levels, levelsEach, List.mem_cons, List.mem_append, List.not_mem_nil,
      or_false, List.append_nil] at hs
    rcases hs with rfl | rfl | rfl | rfl | rfl | rfl | rfl <;> cases hname
    · exact ⟨hw, by decide⟩
    · exact ⟨hcolor, by decide⟩

end TypeTraits
