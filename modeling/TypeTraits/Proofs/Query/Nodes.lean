import TypeTraits.Proofs.Query.Reading

/-!
# `TypeTraits.Proofs.Query.Nodes`: spans are faithful to the text

The nodes of a tree that was read from a text are its queries and its types, arguments and
parameters at any depth among them. Each stands on tokens in a row (`Node.IsOn`), which are
tokens of the text, and its parts stand on parts of these, one behind another.

Hence `Node.ReadFrom.of_contains`: the span of a node lies in the text, the spans of what is
below it lie in its own one behind another, and the part of the text that it covers is read
as the node itself, with places that are counted from the beginning of this part.

* `Node.Contains`: the nodes below a node, and the node.
* `Node.IsOn.children`, `Node.IsOn.parts`: what is below a node stands on parts of its tokens.
-/

set_option autoImplicit false

namespace TypeTraits

/-! ### Nodes -/

/-- The parameters of a suffix. -/
def Suffix.params : Suffix → List TypeId
  | array _ _ => []
  | function params _ _ => params

/-- The parameters in a declarator, as they stand in the text. -/
def Declarator.params : Declarator → List TypeId
  | flat _ suffixes => suffixes.flatMap Suffix.params
  | nested _ inner suffixes => inner.params ++ suffixes.flatMap Suffix.params

/-- The spans of the operators and suffixes in a declarator, as they stand in the text. -/
def Declarator.spans : Declarator → List Span
  | flat ops suffixes => ops.map (·.span) ++ suffixes.map (·.span)
  | nested ops inner suffixes => ops.map (·.span) ++ (inner.spans ++ suffixes.map (·.span))

/-- A query or a type as written. -/
inductive Node where
  | query (q : Query)
  | type (t : TypeId)

namespace Node

/-- Where the node was read. -/
def span : Node → Span
  | query q => q.span
  | type t => t.span

/-- The node in a text that begins `n` bytes later. -/
def shiftLeft (n : Nat) : Node → Node
  | query q => query (q.mapSpans (Span.shiftLeft n))
  | type t => type (t.mapSpans (Span.shiftLeft n))

/-- The queries and types right below a node: the arguments of an operation, the type that a
query is, the parameters in a type. -/
def children : Node → List Node
  | query (.bool _ _) | query (.size _ _) => []
  | query (.type t) => [type t]
  | query (.call _ _ args _) => args.map query
  | type t => t.declarator.params.map type

/-- The spans right below a node: those of the name and the arguments of an operation, of the
type that a query is, of the specifier, the operators and the suffixes of a type. -/
def parts : Node → List Span
  | query (.bool _ _) | query (.size _ _) => []
  | query (.type t) => [t.span]
  | query (.call _ opSpan args _) => opSpan :: args.map (·.span)
  | type t => t.specifier.span :: t.declarator.spans

/-- The second node is the first one or is below it, at any depth. -/
inductive Contains : Node → Node → Prop
  | self (n : Node) : Contains n n
  | under {n m k : Node} : m ∈ n.children → Contains m k → Contains n k

/-- The text, and all of it, is read as the node. -/
def ReadFrom (text : String) : Node → Prop
  | query q => Query.ofText text = .ok q
  | type t => TypeId.ofText text = .ok t

/-- The node is derived from the tokens. -/
def IsOn (us : List Token) : Node → Prop
  | query q => Placed.IsQuery us q
  | type t => Placed.IsType us t

end Node

/-! ### What is below a node -/

namespace Placed

/-- The element's tokens give it its span. -/
abbrev HasHull (us : List Token) (s : Span) : Prop := us ≠ [] ∧ s = hull us

/-- A type covers its tokens. -/
theorem IsType.hasHull {us : List Token} {t : TypeId} (h : IsType us t) : HasHull us t.span := by
  obtain ⟨x, vs, rfl, -⟩ := h.exists_cons
  exact ⟨List.cons_ne_nil x vs, h.span_eq⟩

/-- So does a query. -/
theorem IsQuery.hasHull {us : List Token} {q : Query} (h : IsQuery us q) : HasHull us q.span := by
  obtain ⟨x, vs, rfl, -⟩ := h.exists_cons
  exact ⟨List.cons_ne_nil x vs, h.span_eq⟩

/-- Pointer operators cover the tokens one after another. -/
theorem IsOps.laid {us : List Token} {ops : List PointerOp} (h : IsOps us ops) :
    Laid HasHull us (ops.map (·.span)) := by
  induction h with
  | nil => exact .nil
  | @cons us us' k ops hop _ ih =>
    have hne : us ≠ [] := fun h => hop.ne_nil (by rw [h]; rfl)
    exact (Laid.single ⟨hne, rfl⟩).append ih

/-- A suffix stands on its brackets and what is between them. -/
theorem laid_bracketed {t t' : Token} {us us' : List Token} {ss : List Span}
    (h : Laid HasHull us' ss) :
    Laid HasHull (t :: us ++ t' :: us') (⟨t.span.start, t'.span.stop⟩ :: ss) := by
  rw [List.append_cons]
  exact (Laid.single ⟨by simp, (hull_bracketed t t' us).symm⟩).append h

/-- So do suffixes. -/
theorem IsSuffixes.laid {us : List Token} {suffixes : List Suffix} (h : IsSuffixes us suffixes) :
    Laid HasHull us (suffixes.map (·.span)) := by
  cases h with
  | nil => exact .nil
  | array _ hsuf | function _ hsuf => exact laid_bracketed hsuf.laid

/-- So do the operators and suffixes of a declarator, inner ones included. -/
theorem IsDeclarator.laid {us : List Token} {d : Declarator} (h : IsDeclarator us d) :
    Laid HasHull us d.spans := by
  cases h with
  | flat hops hsuf => exact hops.laid.append hsuf.laid
  | nested hops hin _ hsuf =>
    refine hops.laid.append (Laid.append_left ?_ [_])
    exact hin.laid.append (hsuf.laid.append_left [_])

/-- Types in a list stand one after another. -/
theorem IsTypes.laid {us : List Token} {ts : List TypeId} (h : IsTypes us ts) :
    Laid IsType us ts := by
  cases h with
  | last ht => exact .single ht
  | cons ht hts => exact (Laid.single ht).append (hts.laid.append_left [_])

/-- Parameters do. -/
theorem IsParams.laid {us : List Token} {params : List TypeId} {v : Bool}
    (h : IsParams us params v) : Laid IsType us params := by
  cases h with
  | nothing | void | ellipsis => exact .nil
  | list hts _ => exact hts.laid
  | variadic hts => exact hts.laid.append_right _

/-- The parameters of suffixes stand in the suffixes, one after another. -/
theorem IsSuffixes.laid_params {us : List Token} {suffixes : List Suffix}
    (h : IsSuffixes us suffixes) : Laid IsType us (suffixes.flatMap Suffix.params) := by
  cases h with
  | nil => exact .nil
  | array _ hsuf => exact (hsuf.laid_params.append_left [_]).append_left _
  | function hp hsuf =>
    rw [List.flatMap_cons]
    exact (hp.laid.append_left [_]).append (hsuf.laid_params.append_left [_])

/-- The parameters of a declarator do. -/
theorem IsDeclarator.laid_params {us : List Token} {d : Declarator} (h : IsDeclarator us d) :
    Laid IsType us d.params := by
  cases h with
  | flat _ hsuf => exact hsuf.laid_params.append_left _
  | nested _ hin _ hsuf =>
    refine Laid.append_left (Laid.append_left ?_ [_]) _
    exact hin.laid_params.append (hsuf.laid_params.append_left [_])

/-- Queries in a list stand one after another. -/
theorem IsQueries.laid {us : List Token} {qs : List Query} (h : IsQueries us qs) :
    Laid IsQuery us qs := by
  cases h with
  | last hq => exact .single hq
  | cons hq hqs => exact (Laid.single hq).append (hqs.laid.append_left [_])

/-- Arguments do. -/
theorem IsArguments.laid {us : List Token} {args : List Query} (h : IsArguments us args) :
    Laid IsQuery us args := by
  cases h with
  | nothing => exact .nil
  | list hargs => exact hargs.laid

end Placed

namespace Node.IsOn

variable {n : Node} {us : List Token}

open Placed

/-- A node covers the tokens that it stands on. -/
theorem hasHull (h : n.IsOn us) : HasHull us n.span := by
  cases n with
  | query q => exact IsQuery.hasHull h
  | type t => exact IsType.hasHull h

/-- The nodes right below a node stand on parts of its tokens. -/
theorem children (h : n.IsOn us) : Laid (fun us m => m.IsOn us) us n.children := by
  cases n with
  | query q =>
    cases h with
    | true | false | size _ => exact .nil
    | type ht => exact .single ht
    | call hargs =>
      have hlaid : Laid (fun us m => m.IsOn us) _ (_ : List Node) :=
        hargs.laid.map (f := query) fun _ _ hq => hq
      exact (hlaid.append_left [_, _]).append_right [_]
  | type t =>
    cases h with
    | mk _ hd => exact (hd.laid_params.append_left _).map fun _ _ ht => ht

/-- So do all its parts. -/
theorem parts (h : n.IsOn us) : Laid HasHull us n.parts := by
  cases n with
  | query q =>
    cases h with
    | true | false | size _ => exact .nil
    | type ht => exact .single ht.hasHull
    | @call _ op p _ _ _ hargs =>
      -- The name of a call is a part of its own, in front of the arguments.
      have hname : HasHull [⟨.identifier op, p⟩] p := ⟨List.cons_ne_nil _ [], rfl⟩
      have hlaid := hargs.laid.map (f := Query.span) fun _ _ hq => hq.hasHull
      exact (Laid.single hname).append ((hlaid.append_left [_]).append_right [_])
  | type t =>
    cases h with
    | mk hs hd =>
      refine (Laid.single ⟨?_, rfl⟩).append hd.laid
      -- A specifier is not empty, so its tokens have a span.
      obtain ⟨x, ss, hss, -⟩ := hs.head
      rintro rfl
      exact nomatch hss

/-- A node further below stands on tokens in a row. -/
theorem contained {m : Node} (h : n.IsOn us) (hm : n.Contains m) :
    ∃ before vs behind, us = before ++ vs ++ behind ∧ m.IsOn vs := by
  induction hm generalizing us with
  | self => exact ⟨[], us, [], by simp, h⟩
  | under hchild _ ih =>
    obtain ⟨before, vs, behind, rfl, hon⟩ := h.children.exists_of_mem hchild
    obtain ⟨before', vs', behind', rfl, hon'⟩ := ih hon
    exact ⟨before ++ before', vs', behind' ++ behind, by simp only [List.append_assoc], hon'⟩

end Node.IsOn

/-! ### Nodes and texts -/

namespace Node

/-- A text is read as a node exactly if its tokens derive the node. -/
theorem readFrom_iff_isOn {text : String} {n : Node} :
    n.ReadFrom text ↔ ∃ s, TokenStream.ofText text = .ok s ∧ n.IsOn s.tokens := by
  cases n with
  | query q =>
    simp only [ReadFrom, IsOn, Query.ofText, except_bind_eq_ok, Query.readAll_eq_ok_iff]
  | type t =>
    simp only [ReadFrom, IsOn, TypeId.ofText, except_bind_eq_ok, TypeId.readAll_eq_ok_iff]

/-- A node stands on its tokens when both are moved to the left. -/
theorem IsOn.shiftLeft {n : Node} {us : List Token} (h : n.IsOn us) (k : Nat) :
    (n.shiftLeft k).IsOn (us.map (Token.shiftLeft k)) := by
  cases n with
  | query q => exact Placed.IsQuery.shiftLeft k h
  | type t => exact Placed.IsType.shiftLeft k h

/-- A node of a tree that was read from a text has a span in the text; the spans of what is
below it are in its own one behind another; and what its span covers is read as the node,
with places counted from there. -/
theorem ReadFrom.of_contains {text : String} {root n : Node} (h : root.ReadFrom text)
    (hn : root.Contains n) :
    n.span.start ≤ n.span.stop ∧ n.span.stop ≤ text.utf8ByteSize ∧
      Span.InOrder n.span.start n.span.stop (n.children.map Node.span) ∧
      Span.InOrder n.span.start n.span.stop n.parts ∧
      (n.shiftLeft n.span.start).ReadFrom (n.span.slice text) := by
  obtain ⟨s, hs, hroot⟩ := readFrom_iff_isOn.mp h
  obtain ⟨before, us, behind, htokens, hon⟩ := hroot.contained hn
  obtain ⟨hne, hspan⟩ := hon.hasHull
  -- The tokens of the text are in order, and so are those of the node.
  have horder := (TokenStream.ofText_eq_ok_iff_lexesAt.mp hs).1.inOrder
  rw [htokens, List.map_append, List.map_append, List.append_assoc, Nat.zero_add,
    ← utf8ByteSize_eq_byteLength] at horder
  obtain ⟨m, -, horder⟩ := Span.inOrder_append.mp horder
  obtain ⟨m', hus, hbehind⟩ := Span.inOrder_append.mp horder
  obtain ⟨-, hle, hstop, hin⟩ := hus.hull hne
  rw [hspan]
  refine ⟨hle, hstop.trans hbehind.le, ?_, hon.parts.inOrder hin, ?_⟩
  · exact (hon.children.map fun _ _ hm => hm.hasHull).inOrder hin
  · obtain ⟨stop, hslice⟩ := TokenStream.ofText_slice hs htokens hne
    exact readFrom_iff_isOn.mpr ⟨_, hslice, hon.shiftLeft _⟩

/-- The parameter in `rank< int(const char)>` covers `const char`, which is read as the
parameter ten places further to the left. -/
theorem ReadFrom.of_contains_parameter :
    let text := "rank< int(const char)>"
    let char : TypeId := .mk ⟨.scalar .char, .const, ⟨10, 20⟩⟩ (.flat [] []) ⟨10, 20⟩
    let fn : TypeId :=
      .mk ⟨.scalar .int, .none, ⟨6, 9⟩⟩ (.flat [] [.function [char] false ⟨9, 21⟩]) ⟨6, 21⟩
    let root := query (.call "rank" ⟨0, 4⟩ [.type fn] ⟨0, 22⟩)
    root.ReadFrom text ∧ root.Contains (type char) ∧ char.span.slice text = "const char" ∧
      TypeId.ofText "const char" =
        .ok (.mk ⟨.scalar .char, .const, ⟨0, 10⟩⟩ (.flat [] []) ⟨0, 10⟩) := by
  intro text char fn root
  have htokens : TokenStream.ofText text =
      .ok ⟨[⟨.identifier "rank", ⟨0, 4⟩⟩, ⟨.mark .less, ⟨4, 5⟩⟩, ⟨.scalar .int, ⟨6, 9⟩⟩,
        ⟨.mark .leftParen, ⟨9, 10⟩⟩, ⟨.keyword .const, ⟨10, 15⟩⟩, ⟨.scalar .char, ⟨16, 20⟩⟩,
        ⟨.mark .rightParen, ⟨20, 21⟩⟩, ⟨.mark .greater, ⟨21, 22⟩⟩], 22⟩ := by
    decide +kernel
  have hroot : root.ReadFrom text := by
    show Query.ofText text = _
    rw [Query.ofText, htokens]
    rfl
  have hchar : root.Contains (type char) :=
    .under (m := query (.type fn)) List.mem_cons_self
      (.under (m := type fn) List.mem_cons_self (.under List.mem_cons_self (.self _)))
  have hslice : char.span.slice text = "const char" := by decide +kernel
  obtain ⟨-, -, -, -, hread⟩ := ReadFrom.of_contains hroot hchar
  refine ⟨hroot, hchar, hslice, ?_⟩
  rw [← hslice]
  exact hread

end Node

end TypeTraits
