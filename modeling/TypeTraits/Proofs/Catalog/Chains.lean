import Mathlib.Order.Bounds.Basic
import TypeTraits.Proofs.Catalog.Sorting

/-!
# `TypeTraits.Proofs.Catalog.Chains`: layers and chains of uses

The layer of a predicate is found from the layers of the predicates that it uses. Going down from
a predicate to one that it uses, and on from there, makes a chain. No step of a chain can skip
less than one layer, and there is always a step that skips no more, so the layer is the length of
the longest chain.

`Catalog.IsStratified` is what the proofs need of a catalog: its layers are those that the uses call
for. Every catalog of a list of definitions is stratified (`isStratified_withLayers`). The groups of
`Catalog.layers` are then without gaps, for the chain below a predicate meets every layer below it.

* `layers_are_longest_chains`: layers, groups and names of the catalog of a list of definitions.
-/

set_option autoImplicit false

namespace TypeTraits

/-- The definition that the predicate is made of. -/
def Predicate.definition (p : Predicate) : Definition := ⟨p.name, p.category, p.uses, p.holds⟩

namespace Catalog

variable {ds ds' : List Definition} {layer layer' : String → Nat} {c c' : Catalog}
  {p q : Predicate}

/-! ### Stratified catalogs -/

/-- Both predicates are in the catalog, and the first one uses the second. -/
structure Uses (c : Catalog) (p q : Predicate) : Prop where
  user : p ∈ c.predicates
  used : q ∈ c.predicates
  name : q.name ∈ p.uses

/-- Names are apart, what is used is there, and each predicate is in the lowest layer above all
predicates that it uses. -/
structure IsStratified (c : Catalog) : Prop where
  distinct : (c.predicates.map (·.name)).Nodup
  closed : ∀ p ∈ c.predicates, ∀ u ∈ p.uses, ∃ q ∈ c.predicates, q.name = u
  layer_le_iff : ∀ p ∈ c.predicates, ∀ k, p.layer ≤ k ↔ ∀ q, c.Uses p q → q.layer < k

/-- A predicate remembers the definition that it comes from. -/
theorem definition_atLayer (d : Definition) (k : Nat) : (d.atLayer k).definition = d := rfl

/-- Layers are added to the definitions, and nothing else is changed. -/
theorem map_definition_withLayers (layer : String → Nat) (ds : List Definition) :
    (withLayers layer ds).map (·.definition) = ds := by
  simp [withLayers, Function.comp_def, definition_atLayer]

/-- The predicates of a layered list, in the layers of a layering, are a stratified catalog. -/
theorem isStratified_withLayers (h : IsLayered ds) (hlayer : IsLayering ds layer) :
    IsStratified ⟨withLayers layer ds⟩ := by
  -- What a definition uses is defined as well, so it is a predicate of the catalog.
  have hclosed : ∀ d ∈ ds, ∀ u ∈ d.uses, ∃ d' ∈ ds, d'.name = u := by
    intro d hd u hu
    exact List.mem_map.mp (h.uses_subset hd u hu)
  constructor
  · rw [withLayers, List.map_map]
    exact h.distinct
  · intro p hp u hu
    obtain ⟨d, hd, rfl⟩ := List.mem_map.mp hp
    obtain ⟨d', hd', rfl⟩ := hclosed d hd u hu
    exact ⟨_, List.mem_map_of_mem hd', rfl⟩
  · intro p hp k
    obtain ⟨d, hd, rfl⟩ := List.mem_map.mp hp
    -- A layer is the least number above those of the uses.
    have hle : layer d.name ≤ k ↔ ∀ u ∈ d.uses, layer u < k := by
      rw [hlayer d hd, oneAbove_le_iff, List.forall_mem_map]
    refine hle.trans ?_
    constructor
    · rintro hk q ⟨-, hq, hname⟩
      obtain ⟨d', -, rfl⟩ := List.mem_map.mp hq
      exact hk d'.name hname
    · intro hk u hu
      obtain ⟨d', hd', rfl⟩ := hclosed d hd u hu
      exact hk _ ⟨hp, List.mem_map_of_mem hd', hu⟩

namespace IsStratified

/-- A use leads down. -/
theorem layer_lt (hc : c.IsStratified) (h : c.Uses p q) : q.layer < p.layer :=
  (hc.layer_le_iff p h.user p.layer).mp le_rfl q h

/-- From any layer but the lowest, some use leads down by one. -/
theorem exists_uses (hc : c.IsStratified) (hp : p ∈ c.predicates) {k : Nat}
    (hk : p.layer = k + 1) : ∃ q, c.Uses p q ∧ q.layer = k := by
  by_contra hnone
  have hle : p.layer ≤ k := by
    refine (hc.layer_le_iff p hp k).mpr fun q hq => ?_
    have hlt := hc.layer_lt hq
    have hne : q.layer ≠ k := fun heq => hnone ⟨q, hq, heq⟩
    omega
  omega

/-- What uses nothing is in the lowest layer. -/
theorem layer_eq_zero (hc : c.IsStratified) (hp : p ∈ c.predicates) (h : p.uses = []) :
    p.layer = 0 := by
  refine Nat.le_zero.mp ((hc.layer_le_iff p hp 0).mpr fun q hq => ?_)
  have hname := hq.name
  rw [h] at hname
  exact nomatch hname

/-- A predicate that uses others is one above the highest of them. -/
theorem isGreatest_oneAbove (hc : c.IsStratified) (hp : p ∈ c.predicates) (h : p.uses ≠ []) :
    IsGreatest {k | ∃ q, c.Uses p q ∧ k = q.layer + 1} p.layer := by
  constructor
  · obtain ⟨u, hu⟩ := List.exists_mem_of_ne_nil _ h
    obtain ⟨q, hq, rfl⟩ := hc.closed p hp u hu
    -- Some predicate is used, so the layer is not the lowest.
    have hlt := hc.layer_lt ⟨hp, hq, hu⟩
    obtain ⟨k, hk⟩ := Nat.exists_eq_add_one.mpr (Nat.zero_lt_of_lt hlt)
    obtain ⟨q', hq', rfl⟩ := hc.exists_uses hp hk
    exact ⟨q', hq', hk⟩
  · rintro k ⟨q, hq, rfl⟩
    exact hc.layer_lt hq

/-! ### Chains -/

/-- A chain of uses goes down by a layer at least with each step. -/
theorem length_le_layer (hc : c.IsStratified) {below : List Predicate}
    (h : (p :: below).IsChain c.Uses) : below.length ≤ p.layer := by
  induction below generalizing p with
  | nil => exact Nat.zero_le _
  | cons q below ih =>
    obtain ⟨hq, hbelow⟩ := List.isChain_cons_cons.mp h
    exact (ih hbelow).trans_lt (hc.layer_lt hq)

/-- From each predicate, a chain goes down through every layer. -/
theorem exists_chain (hc : c.IsStratified) (hp : p ∈ c.predicates) :
    ∃ below, (p :: below).IsChain c.Uses ∧ below.length = p.layer := by
  induction hk : p.layer generalizing p with
  | zero => exact ⟨[], .singleton p, rfl⟩
  | succ k ih =>
    obtain ⟨q, hq, hqk⟩ := hc.exists_uses hp hk
    obtain ⟨below, hbelow, rfl⟩ := ih hq.used hqk
    exact ⟨q :: below, .cons_cons hq hbelow, rfl⟩

/-- The layer is the length of the longest chain of uses that leads down. -/
theorem isGreatest_chain (hc : c.IsStratified) (hp : p ∈ c.predicates) :
    IsGreatest {k | ∃ below, (p :: below).IsChain c.Uses ∧ k = below.length} p.layer := by
  constructor
  · obtain ⟨below, hbelow, hlength⟩ := hc.exists_chain hp
    exact ⟨below, hbelow, hlength.symm⟩
  · rintro k ⟨below, hbelow, rfl⟩
    exact hc.length_le_layer hbelow

/-- Below a predicate, no layer is empty. -/
theorem exists_layer_eq (hc : c.IsStratified) (hp : p ∈ c.predicates) {k : Nat}
    (hk : k ≤ p.layer) : ∃ q ∈ c.predicates, q.layer = k := by
  induction hn : p.layer generalizing p with
  | zero => exact ⟨p, hp, by omega⟩
  | succ n ih =>
    rcases Nat.lt_or_eq_of_le hk with hlt | rfl
    · obtain ⟨q, hq, hqn⟩ := hc.exists_uses hp hn
      exact ih hq.used (by omega) hqn
    · exact ⟨p, hp, rfl⟩

end IsStratified

/-! ### Groups -/

/-- The depth is the number above all layers that occur. -/
theorem depth_le_iff {k : Nat} : c.depth ≤ k ↔ ∀ p ∈ c.predicates, p.layer < k := by
  rw [depth, foldl_max_le_iff, and_iff_right (Nat.zero_le k)]
  rfl

/-- No layer is as high as the depth. -/
theorem layer_lt_depth (hp : p ∈ c.predicates) : p.layer < c.depth := depth_le_iff.mp le_rfl p hp

/-- The predicates up to a layer, one layer after another. -/
theorem flatten_groups_perm (ps : List Predicate) (k : Nat) :
    ((List.range k).map fun n => ps.filter (·.layer == n)).flatten.Perm
      (ps.filter (·.layer < k)) := by
  induction k with
  | zero => simp
  | succ k ih =>
    rw [List.range_succ, List.map_append, List.flatten_append, List.map_singleton,
      List.flatten_singleton]
    -- Up to layer `k` there are those below it and those in it.
    have hbelow : ps.filter (·.layer < k) = (ps.filter (·.layer < k + 1)).filter (·.layer < k) := by
      rw [List.filter_filter]
      exact List.filter_congr fun p _ => by grind
    have hin : ps.filter (·.layer == k) = (ps.filter (·.layer < k + 1)).filter (!·.layer < k) := by
      rw [List.filter_filter]
      exact List.filter_congr fun p _ => by grind
    refine (ih.append_right _).trans ?_
    rw [hbelow, hin]
    exact List.filter_append_perm _ _

/-- All groups taken together are the predicates. -/
theorem flatten_layers_perm (c : Catalog) : c.layers.flatten.Perm c.predicates := by
  have hall : c.predicates.filter (·.layer < c.depth) = c.predicates :=
    List.filter_eq_self.mpr fun p hp => decide_eq_true (layer_lt_depth hp)
  have hperm := flatten_groups_perm c.predicates c.depth
  rwa [hall] at hperm

/-- The group of a layer, and nothing above the highest. -/
theorem getD_layers (c : Catalog) (k : Nat) :
    c.layers[k]?.getD [] = c.predicates.filter (·.layer == k) := by
  rw [layers, List.getElem?_map]
  by_cases hk : k < c.depth
  · rw [List.getElem?_range hk]
    rfl
  · rw [List.getElem?_eq_none (by simpa using hk)]
    refine (List.filter_eq_nil_iff.mpr fun p hp => ?_).symm
    have hlt := layer_lt_depth hp
    rw [beq_iff_eq]
    omega

/-- No group is empty, since a predicate above a layer leads down to one in it. -/
theorem IsStratified.nil_notMem_layers (hc : c.IsStratified) : [] ∉ c.layers := by
  intro hnil
  obtain ⟨k, hk, hempty⟩ := List.mem_map.mp hnil
  -- Not all predicates are below layer `k`, and those in it or above it reach down to it.
  have hnot : ¬ c.depth ≤ k := Nat.not_le.mpr (List.mem_range.mp hk)
  rw [depth_le_iff] at hnot
  push Not at hnot
  obtain ⟨p, hp, hle⟩ := hnot
  obtain ⟨q, hq, rfl⟩ := hc.exists_layer_eq hp hle
  exact List.filter_eq_nil_iff.mp hempty q hq (beq_self_eq_true _)

/-- Puts predicates one after another at the end of their groups. -/
def groupEach (depth : Nat) (ps : List Predicate) : List (List Predicate) :=
  ps.foldl (fun groups p => groups.modify p.layer (· ++ [p])) (List.replicate depth [])

/-- In each group, the predicates of the layer come to stand in the order of the list. -/
theorem groupEach_eq (depth : Nat) (ps : List Predicate) :
    groupEach depth ps = (List.range depth).map fun k => ps.filter (·.layer == k) := by
  induction ps using List.reverseRecOn with
  | nil => simp [groupEach]
  | append_singleton ps p ih =>
    rw [groupEach] at ih ⊢
    rw [List.foldl_append, ih, List.foldl_cons, List.foldl_nil]
    refine List.ext_getElem (by simp) fun k _ _ => ?_
    rw [List.getElem_modify]
    by_cases hk : p.layer = k <;> simp [hk]

/-! ### Names and orders -/

/-- A name is that of the predicate that is found by it. -/
theorem IsStratified.get?_eq_some_iff (hc : c.IsStratified) {n : String} :
    c.get? n = some p ↔ p ∈ c.predicates ∧ p.name = n := by
  constructor
  · intro h
    exact ⟨List.mem_of_find?_eq_some h, by simpa using List.find?_some h⟩
  · rintro ⟨hp, rfl⟩
    exact find?_name_eq_some (·.name) hc.distinct hp

/-- An accepted list of definitions makes predicates in layers that are a layering. -/
theorem exists_isLayering_of_ofDefinitions (h : ofDefinitions ds = .ok c) :
    IsLayered ds ∧ ∃ layer, IsLayering ds layer ∧ c = ⟨withLayers layer ds⟩ := by
  obtain ⟨hds, rfl⟩ := ofDefinitions_eq_ok_iff.mp h
  obtain ⟨layer, hlayer, hassign⟩ := exists_isLayering hds
  exact ⟨hds, layer, hlayer, congrArg Catalog.mk hassign⟩

/-- What is made of a list of definitions is stratified. -/
theorem isStratified_of_ofDefinitions (h : ofDefinitions ds = .ok c) : c.IsStratified := by
  obtain ⟨hds, layer, hlayer, rfl⟩ := exists_isLayering_of_ofDefinitions h
  exact isStratified_withLayers hds hlayer

/-- It has the definitions of the list, in their order. -/
theorem map_definition_of_ofDefinitions (h : ofDefinitions ds = .ok c) :
    c.predicates.map (·.definition) = ds := by
  obtain ⟨-, layer, -, rfl⟩ := exists_isLayering_of_ofDefinitions h
  exact map_definition_withLayers layer ds

/-- The order of the definitions does not matter to the layers. -/
theorem withLayers_perm (h : IsLayered ds) (hlayer : IsLayering ds layer)
    (hlayer' : IsLayering ds' layer') (hperm : ds'.Perm ds) :
    (withLayers layer' ds').Perm (withLayers layer ds) := by
  have hsame : IsLayering ds layer' := fun d hd => hlayer' d (hperm.mem_iff.mpr hd)
  rw [← hsame.withLayers_eq h hlayer]
  exact hperm.map _

/-- Two lists of the same predicates have the same predicate for a name. -/
theorem IsStratified.get?_eq_of_perm (hc : c.IsStratified) (hc' : c'.IsStratified)
    (hperm : c'.predicates.Perm c.predicates) (n : String) : c'.get? n = c.get? n := by
  refine Option.ext fun p => ?_
  rw [hc'.get?_eq_some_iff, hc.get?_eq_some_iff, hperm.mem_iff]

/-! ### The catalog of a list of definitions -/

/-- Of the catalog of a list of definitions, which is the same along any topological order. A
predicate that uses none is in layer 0, and any other is one above the highest of those that it
uses; so its layer is the length of the longest chain of uses that leads down from it. The groups
are not empty, hold all predicates once, and are filled in the order of the list. A name finds
its predicate and nothing else. The same definitions in another order, if they are accepted, make
the same predicates, in the same layers. -/
theorem layers_are_longest_chains (h : ofDefinitions ds = .ok c) :
    (c.predicates.map (·.definition) = ds ∧ ∀ sort : Sorter, sort.FailsOnlyOnCycles →
      sort.SortsTopologically → ofSorted sort ds = .ok c) ∧
    (∀ p ∈ c.predicates, (p.uses = [] → p.layer = 0) ∧
      (p.uses ≠ [] → IsGreatest {k | ∃ q, c.Uses p q ∧ k = q.layer + 1} p.layer) ∧
      IsGreatest {k | ∃ below, (p :: below).IsChain c.Uses ∧ k = below.length} p.layer) ∧
    ([] ∉ c.layers ∧ c.layers.flatten.Perm c.predicates ∧
      (c.predicates.map (·.name)).Nodup ∧ c.layers = groupEach c.depth c.predicates ∧
      ∀ k, c.layers[k]?.getD [] = c.predicates.filter (·.layer == k)) ∧
    (∀ n p, c.get? n = some p ↔ p ∈ c.predicates ∧ p.name = n) ∧
    ∀ ds' c', ds'.Perm ds → ofDefinitions ds' = .ok c' → ∀ n, c'.get? n = c.get? n := by
  -- Everything is read off the one function that gives the layers.
  obtain ⟨hds, layer, hlayer, rfl⟩ := exists_isLayering_of_ofDefinitions h
  have hc := isStratified_withLayers hds hlayer
  refine ⟨⟨map_definition_withLayers layer ds, fun sort hfails hsorts => ?_⟩, fun p hp => ?_, ?_,
    fun n p => hc.get?_eq_some_iff, ?_⟩
  · rw [ofSorted_eq hfails hsorts, h]
    rfl
  · exact ⟨hc.layer_eq_zero hp, hc.isGreatest_oneAbove hp, hc.isGreatest_chain hp⟩
  · exact ⟨hc.nil_notMem_layers, flatten_layers_perm _, hc.distinct, (groupEach_eq _ _).symm,
      getD_layers _⟩
  · intro ds' c' hperm h' n
    obtain ⟨hds', layer', hlayer', rfl⟩ := exists_isLayering_of_ofDefinitions h'
    have hc' := isStratified_withLayers hds' hlayer'
    exact hc.get?_eq_of_perm hc' (withLayers_perm hds hlayer hlayer' hperm) n

/-- Two ways up from `top` to `both`, one of them longer, in two orders. -/
theorem layers_are_longest_chains_of_detour :
    let define (name : String) (uses : List String) : Definition :=
      ⟨name, .property, uses, Descriptor.isConst⟩
    let place (name : String) (uses : List String) (layer : Nat) : Predicate :=
      ⟨name, .property, uses, layer, Descriptor.isConst⟩
    let ds := [define "top" [], define "left" ["top"], define "far" ["left"],
      define "both" ["top", "far", "left"], define "apart" []]
    let ds' := [define "apart" [], define "top" [], define "left" ["top"], define "far" ["left"],
      define "both" ["top", "far", "left"]]
    ∃ c c', ofDefinitions ds = .ok c ∧ ofDefinitions ds' = .ok c' ∧
      ofSorted Sorter.bySources ds = .ok c ∧
      c.get? "both" = some (place "both" ["top", "far", "left"] 3) ∧
      c'.get? "both" = some (place "both" ["top", "far", "left"] 3) ∧
      (∀ below, (place "both" ["top", "far", "left"] 3 :: below).IsChain c.Uses →
        below.length ≤ 3) ∧
      c.layers[0]?.getD [] = [place "top" [] 0, place "apart" [] 0] := by
  intro define place ds ds'
  have hds : ofDefinitions ds = .ok ⟨assignLayers [] ds⟩ := rfl
  have hds' : ofDefinitions ds' = .ok ⟨assignLayers [] ds'⟩ := rfl
  obtain ⟨⟨-, hsorted⟩, hlayer, ⟨-, -, -, -, hgroup⟩, hget, hsame⟩ :=
    layers_are_longest_chains hds
  have hboth : (⟨assignLayers [] ds⟩ : Catalog).get? "both" =
      some (place "both" ["top", "far", "left"] 3) := rfl
  have hperm : ds'.Perm ds := (List.perm_append_singleton (define "apart" []) ds'.tail).symm
  obtain ⟨-, -, hchain⟩ := hlayer _ ((hget _ _).mp hboth).1
  refine ⟨_, _, hds, hds', ?_, hboth, ?_, ?_, ?_⟩
  · exact hsorted _ Sorter.bySources_failsOnlyOnCycles Sorter.bySources_sortsTopologically
  · rw [hsame _ _ hperm hds' "both", hboth]
  · exact fun below hbelow => hchain.2 ⟨below, hbelow, rfl⟩
  · rw [hgroup 0]
    rfl

end Catalog

end TypeTraits
