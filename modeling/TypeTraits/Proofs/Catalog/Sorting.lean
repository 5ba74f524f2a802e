import Mathlib.Data.Fintype.Card
import Mathlib.Data.Fintype.EquivFin
import Mathlib.Data.Fintype.Sets
import Mathlib.Logic.Relation
import Mathlib.Order.WellFounded
import TypeTraits.Proofs.Catalog.Layers
import TypeTraits.Proofs.Support.Except

/-!
# `TypeTraits.Proofs.Catalog.Sorting`: layers along a sorted graph

`Catalog.ofDefinitions` assigns layers in the order of the list. They can be computed in any order
that respects the dependencies, and `Catalog.ofSorted` goes along the one that a sorter chooses. Any
sorter will do that fails on graphs with a cycle only (`Sorter.FailsOnlyOnCycles`), and, where the
layers matter, respects the edges (`Sorter.SortsTopologically`). `Sorter.bySources` is one that does
both.

The failure of a sorter is an error of its own kind, beside those that are found in the list. It is
never seen: an edge of a layered list goes from a name to one further behind, and so does a path.

* `accepted_iff_isLayered`: what is accepted, and what is reported otherwise, whatever the sorter.
* `ofSorted_eq`: both ways lead to the same catalog.
-/

set_option autoImplicit false

namespace TypeTraits

namespace Sorter

/-- No node is there twice, and edges are between nodes. -/
structure IsGraph (nodes : List String) (edges : List (String × String)) : Prop where
  distinct : nodes.Nodup
  inside : ∀ e ∈ edges, e.1 ∈ nodes ∧ e.2 ∈ nodes

/-- Along the edges, some node leads back to itself. -/
def IsCyclic (edges : List (String × String)) : Prop :=
  ∃ n, Relation.TransGen (fun u v => (u, v) ∈ edges) n n

/-- The order has every node once, behind all nodes with an edge to it. -/
structure IsTopological (nodes : List String) (edges : List (String × String))
    (order : List String) : Prop where
  perm : order.Perm nodes
  forward : ∀ before n behind, order = before ++ n :: behind → ∀ u, (u, n) ∈ edges → u ∈ before

/-- The sorter sorts every graph without a cycle. -/
def FailsOnlyOnCycles (sort : Sorter) : Prop :=
  ∀ nodes edges n, IsGraph nodes edges → sort nodes edges = .error n → IsCyclic edges

/-- What the sorter returns respects the edges. -/
def SortsTopologically (sort : Sorter) : Prop :=
  ∀ nodes edges order, IsGraph nodes edges → sort nodes edges = .ok order →
    IsTopological nodes edges order

/-! ### A sorter -/

section
variable {edges : List (String × String)}

/-- Among finitely many nodes with an edge to each from one of them, there is a cycle. -/
theorem isCyclic_of_forall_exists {left : List String} {n : String} (hn : n ∈ left)
    (h : ∀ n ∈ left, ∃ u ∈ left, (u, n) ∈ edges) : IsCyclic edges := by
  by_contra hacyclic
  let R : {n // n ∈ left} → {n // n ∈ left} → Prop :=
    fun u n => Relation.TransGen (fun u v => (u, v) ∈ edges) u n
  have : IsTrans _ R := ⟨fun _ _ _ => Relation.TransGen.trans⟩
  have : Std.Irrefl R := ⟨fun n hn => hacyclic ⟨n, hn⟩⟩
  have : Finite {n // n ∈ left} := @Finite.of_fintype _ (List.Subtype.fintype left)
  -- A node that none of the others leads to has an edge from one of them all the same.
  have hwf := Finite.wellFounded_of_trans_of_irrefl R
  obtain ⟨least, -, hleast⟩ := hwf.has_min Set.univ ⟨⟨n, hn⟩, trivial⟩
  obtain ⟨u, hu, hedge⟩ := h least least.2
  exact hleast ⟨u, hu⟩ trivial (.single hedge)

/-- Where no source is left among the nodes, there is a cycle. -/
theorem isCyclic_of_removeSources {k : Nat} {left : List String} {n : String}
    (h : removeSources edges k left = .error n) : IsCyclic edges := by
  induction k generalizing left with
  | zero => exact nomatch h
  | succ k ih =>
    rw [removeSources] at h
    split at h
    · exact ih (except_map_eq_error.mp h)
    · rename_i hnone
      -- None of the names that are left is a source, so each has another one in front of it.
      have hevery : ∀ v ∈ left, ∃ u ∈ left, (u, v) ∈ edges := by
        intro v hv
        simpa using List.find?_eq_none.mp hnone v (List.mem_reverse.mpr hv)
      cases left with
      | nil => exact nomatch h
      | cons m left => exact isCyclic_of_forall_exists List.mem_cons_self hevery

/-- Removing sources fails on no graph but a cyclic one. -/
theorem bySources_failsOnlyOnCycles : FailsOnlyOnCycles bySources :=
  fun _ _ _ _ h => isCyclic_of_removeSources h

/-- What comes out are the nodes, each behind those with an edge to it. -/
theorem removeSources_eq_ok {k : Nat} {left order : List String} (hk : left.length ≤ k)
    (h : removeSources edges k left = .ok order) :
    order.Perm left ∧ ∀ before n behind, order = before ++ n :: behind →
      ∀ u ∈ left, (u, n) ∈ edges → u ∈ before := by
  induction k generalizing left order with
  | zero =>
    cases h
    rw [List.eq_nil_of_length_eq_zero (Nat.le_zero.mp hk)]
    exact ⟨.nil, fun before n behind _ u hu => (nomatch hu)⟩
  | succ k ih =>
    rw [removeSources] at h
    split at h
    · rename_i m hm
      have hmem : m ∈ left := List.mem_reverse.mp (List.mem_of_find?_eq_some hm)
      -- `m` goes first, since no edge leads to it from what is left.
      have hsource : ∀ u ∈ left, (u, m) ∉ edges := by simpa using List.find?_some hm
      obtain ⟨rest, hrest, rfl⟩ := except_map_eq_ok.mp h
      have hlength : (left.erase m).length ≤ k := by
        rw [List.length_erase_of_mem hmem]
        omega
      obtain ⟨hperm, hforward⟩ := ih hlength hrest
      refine ⟨(hperm.cons m).trans (List.perm_cons_erase hmem).symm, ?_⟩
      rw [forall_split_cons]
      refine ⟨fun u hu hedge => absurd hedge (hsource u hu), ?_⟩
      intro before n behind hsplit u hu hedge
      by_cases hum : u = m
      · rw [hum]
        exact List.mem_cons_self
      · exact List.mem_cons_of_mem _
          (hforward before n behind hsplit u ((List.mem_erase_of_ne hum).mpr hu) hedge)
    · cases left with
      | nil =>
        cases h
        exact ⟨.nil, fun before n behind _ u hu => (nomatch hu)⟩
      | cons m left => exact nomatch h

/-- Removing sources puts each node behind those with an edge to it. -/
theorem bySources_sortsTopologically : SortsTopologically bySources := by
  intro nodes edges order hgraph h
  obtain ⟨hperm, hforward⟩ := removeSources_eq_ok le_rfl h
  exact ⟨hperm, fun before n behind hsplit u he =>
    hforward before n behind hsplit u (hgraph.inside (u, n) he).1 he⟩

end

end Sorter

namespace Catalog

variable {ds : List Definition} {d : Definition} {sort : Sorter} {order : List String}

/-! ### The graph of a layered list -/

/-- An edge leads to a definition from a name that it uses. -/
theorem mem_dependencies {u n : String} :
    (u, n) ∈ dependencies ds ↔ ∃ d ∈ ds, u ∈ d.uses ∧ d.name = n := by
  simp [dependencies]

/-- The definitions of a layered list are the nodes of a graph, and its edges are between them. -/
theorem IsLayered.isGraph (h : IsLayered ds) : Sorter.IsGraph (names ds) (dependencies ds) := by
  refine ⟨h.distinct, fun ⟨u, n⟩ he => ?_⟩
  obtain ⟨d, hd, hu, rfl⟩ := mem_dependencies.mp he
  exact ⟨h.uses_subset hd u hu, List.mem_map_of_mem hd⟩

/-- An edge leads onward. -/
theorem IsLayered.idxOf_lt (h : IsLayered ds) {u n : String} (he : (u, n) ∈ dependencies ds) :
    (names ds).idxOf u < (names ds).idxOf n := by
  obtain ⟨d, hd, hu, rfl⟩ := mem_dependencies.mp he
  obtain ⟨before, behind, rfl⟩ := List.append_of_mem hd
  have hfront : u ∈ names before := h.uses before d behind rfl u hu
  have hnew : d.name ∉ names before := nodup_names_iff.mp h.distinct before d behind rfl
  rw [names_append, List.idxOf_append_of_mem hfront, List.idxOf_append_of_notMem hnew, names_cons,
    List.idxOf_cons_self]
  exact Nat.lt_add_right 0 (List.idxOf_lt_length_iff.mpr hfront)

/-- So does a path, and none comes back. -/
theorem IsLayered.not_isCyclic (h : IsLayered ds) : ¬ Sorter.IsCyclic (dependencies ds) := by
  rintro ⟨n, hpath⟩
  have hlt : ∀ v, Relation.TransGen (fun u v => (u, v) ∈ dependencies ds) n v →
      (names ds).idxOf n < (names ds).idxOf v := by
    intro v hv
    induction hv with
    | single he => exact h.idxOf_lt he
    | tail _ he ih => exact ih.trans (h.idxOf_lt he)
  exact lt_irrefl _ (hlt n hpath)

/-! ### Layers along an order -/

/-- In a layered list, the definition of a name is found by the name. -/
theorem usesOf_name (h : IsLayered ds) (hd : d ∈ ds) : usesOf ds d.name = d.uses := by
  have hdistinct : (ds.map (·.name)).Nodup := h.distinct
  rw [usesOf, find?_name_eq_some (·.name) hdistinct hd]
  rfl

/-- The last name of an order is set from the layers of the others. -/
theorem layersAlong_concat (ds : List Definition) (order : List String) (n : String) :
    layersAlong ds (order ++ [n]) = Function.update (layersAlong ds order) n
      (oneAbove ((usesOf ds n).map (layersAlong ds order))) := by
  rw [layersAlong, List.foldl_append]
  exact funext fun m => (Function.update_apply ..).symm

/-- If the order respects what the names use, each layer is set once, from layers that stay as they
are. -/
theorem layersAlong_eq (hdistinct : order.Nodup)
    (hforward : ∀ before n behind, order = before ++ n :: behind → ∀ u ∈ usesOf ds n, u ∈ before) :
    ∀ n ∈ order, layersAlong ds order n = oneAbove ((usesOf ds n).map (layersAlong ds order)) := by
  induction order using List.reverseRecOn with
  | nil => exact fun n hn => (nomatch hn)
  | append_singleton order m ih =>
    obtain ⟨hfront, hm⟩ := forall_split_concat.mp hforward
    rw [List.nodup_append_comm, List.singleton_append, List.nodup_cons] at hdistinct
    -- A new name does not change the layers of the names in front.
    have hkept : ∀ n ∈ order, layersAlong ds (order ++ [m]) n = layersAlong ds order n := by
      intro n hn
      rw [layersAlong_concat, Function.update_of_ne (ne_of_mem_of_not_mem hn hdistinct.1)]
    intro n hn
    rcases List.mem_append.mp hn with hn | hn
    · have huses : ∀ u ∈ usesOf ds n, u ∈ order := by
        obtain ⟨before, behind, rfl⟩ := List.append_of_mem hn
        exact fun u hu => List.mem_append_left _ (hfront before n behind rfl u hu)
      rw [List.map_congr_left fun u hu => hkept u (huses u hu), hkept n hn,
        ih hdistinct.2 hfront n hn]
    · cases List.mem_singleton.mp hn
      rw [List.map_congr_left fun u hu => hkept u (hm u hu), layersAlong_concat,
        Function.update_self]

/-- Along a topological order, a layering is computed. -/
theorem IsLayered.isLayering_layersAlong (h : IsLayered ds)
    (horder : Sorter.IsTopological (names ds) (dependencies ds) order) :
    IsLayering ds (layersAlong ds order) := by
  have hforward : ∀ before n behind, order = before ++ n :: behind →
      ∀ u ∈ usesOf ds n, u ∈ before := by
    intro before n behind hsplit u hu
    have hn : n ∈ names ds := horder.perm.subset (by simp [hsplit])
    obtain ⟨d, hd, rfl⟩ := List.mem_map.mp hn
    rw [usesOf_name h hd] at hu
    exact horder.forward before _ behind hsplit u (mem_dependencies.mpr ⟨d, hd, hu, rfl⟩)
  intro d hd
  have hmem : d.name ∈ order := horder.perm.symm.subset (List.mem_map_of_mem hd)
  have hlayer := layersAlong_eq (horder.perm.nodup_iff.mpr h.distinct) hforward d.name hmem
  rwa [usesOf_name h hd] at hlayer

/-! ### The catalog -/

/-- A layered list is sorted. -/
theorem IsLayered.exists_sorted (h : IsLayered ds) (hsort : sort.FailsOnlyOnCycles) :
    ∃ order, sort (names ds) (dependencies ds) = .ok order := by
  cases hsorted : sort (names ds) (dependencies ds) with
  | ok order => exact ⟨order, rfl⟩
  | error n => exact absurd (hsort _ _ n h.isGraph hsorted) h.not_isCyclic

/-- A list is accepted if it is layered and its graph is sorted. The predicates then have the layers
along the order. -/
theorem ofSorted_eq_ok_iff {c : Catalog} :
    ofSorted sort ds = .ok c ↔ IsLayered ds ∧
      ∃ order, sort (names ds) (dependencies ds) = .ok order ∧
        c = ⟨withLayers (layersAlong ds order) ds⟩ := by
  rw [ofSorted]
  cases hds : ofDefinitions ds with
  | error e =>
    have hnot : ¬ IsLayered ds := by
      intro h
      rw [ofDefinitions_eq_ok_iff.mpr ⟨h, rfl⟩] at hds
      exact nomatch hds
    simp [hnot]
  | ok c =>
    have h : IsLayered ds := (ofDefinitions_eq_ok_iff.mp hds).1
    cases sort (names ds) (dependencies ds) with
    | error n => simp
    | ok order => simp [h, eq_comm]

/-- Whatever is wrong is found in the list. -/
theorem ofSorted_eq_error_iff {e : BuildError} (hsort : sort.FailsOnlyOnCycles) :
    ofSorted sort ds = .error e ↔ ∃ e', ofDefinitions ds = .error e' ∧ e = .layering e' := by
  rw [ofSorted]
  cases hds : ofDefinitions ds with
  | error e' => simp [eq_comm]
  | ok c =>
    obtain ⟨order, horder⟩ := (ofDefinitions_eq_ok_iff.mp hds).1.exists_sorted hsort
    simp [horder]

/-- A sorter of its own leads to the same catalog, or to the same fault in the list. -/
theorem ofSorted_eq (hfails : sort.FailsOnlyOnCycles) (hsorts : sort.SortsTopologically)
    (ds : List Definition) : ofSorted sort ds = (ofDefinitions ds).mapError .layering := by
  rw [ofSorted]
  cases hds : ofDefinitions ds with
  | error e => rfl
  | ok c =>
    obtain ⟨h, rfl⟩ := ofDefinitions_eq_ok_iff.mp hds
    obtain ⟨order, horder⟩ := h.exists_sorted hfails
    obtain ⟨layer, hlayer, hassign⟩ := exists_isLayering h
    have halong := h.isLayering_layersAlong (hsorts _ _ order h.isGraph horder)
    simp only [horder, halong.withLayers_eq h hlayer, hassign, Except.mapError]

/-- A list of definitions makes a catalog exactly if it is layered, and of any other list its first
fault is reported. It is the same when the layers are computed along a sorted graph. No list is
refused for a cycle, provided that the sorter fails on cycles only. -/
theorem accepted_iff_isLayered (hsort : sort.FailsOnlyOnCycles) (ds : List Definition) :
    ((∃ c, ofDefinitions ds = .ok c) ↔ IsLayered ds) ∧
    (∀ e, ofDefinitions ds = .error e ↔ FirstFault ds e) ∧
    ((∃ c, ofSorted sort ds = .ok c) ↔ IsLayered ds) ∧
    (∀ e, ofSorted sort ds = .error (.layering e) ↔ FirstFault ds e) ∧
    ∀ n, ofSorted sort ds ≠ .error (.cycle n) := by
  refine ⟨?_, fun e => ofDefinitions_eq_error_iff, ?_, fun e => ?_, fun n => ?_⟩
  · simp [ofDefinitions_eq_ok_iff]
  · constructor
    · rintro ⟨c, hc⟩
      exact (ofSorted_eq_ok_iff.mp hc).1
    · intro h
      obtain ⟨order, horder⟩ := h.exists_sorted hsort
      exact ⟨_, ofSorted_eq_ok_iff.mpr ⟨h, order, horder, rfl⟩⟩
  · rw [ofSorted_eq_error_iff hsort, ← ofDefinitions_eq_error_iff]
    simp
  · rw [ne_eq, ofSorted_eq_error_iff hsort]
    simp

/-- A definition that uses two others, which share a third, is sorted. In the lists that are
refused, a later name is used in front of an unknown one, an unknown one in front of a later one,
and a name is repeated behind two misuses. -/
theorem accepted_iff_isLayered_of_diamond :
    let define (name : String) (uses : List String) : Definition :=
      ⟨name, .property, uses, Descriptor.isConst⟩
    let sorted := ofSorted Sorter.bySources
    (∃ c, sorted [define "top" [], define "left" ["top"], define "right" ["top"],
        define "both" ["left", "right", "left"], define "apart" []] = .ok c) ∧
      sorted [define "a" [], define "b" ["a", "c", "x"], define "c" ["c"]] =
        .error (.layering (.notLower "b" "c")) ∧
      sorted [define "a" [], define "b" ["a", "x", "c"], define "c" ["c"]] =
        .error (.layering (.undefined "b" "x")) ∧
      sorted [define "a" ["x"], define "b" ["b"], define "a" []] =
        .error (.layering (.duplicate "a")) := by
  intro define sorted
  have hsort := Sorter.bySources_failsOnlyOnCycles
  refine ⟨?_, ?_, ?_, ?_⟩
  · refine (accepted_iff_isLayered hsort _).2.2.1.mpr ?_
    exact (isLayered_iff []).mpr ⟨by decide +kernel, by decide +kernel⟩
  all_goals
    refine ((accepted_iff_isLayered hsort _).2.2.2.1 _).mpr ?_
    exact ofDefinitions_eq_error_iff.mp rfl

end Catalog

end TypeTraits
