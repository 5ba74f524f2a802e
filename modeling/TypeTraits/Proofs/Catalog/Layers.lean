import Mathlib.Logic.Function.Basic
import Mathlib.Order.Basic
import Mathlib.Order.Nat
import TypeTraits.Catalog.Sorting
import TypeTraits.Proofs.Catalog.Faults

/-!
# `TypeTraits.Proofs.Catalog.Layers`: the layer of a predicate

A layer is assigned to each predicate in the order of the list, from the predicates in front of it.
What comes out does not depend on this order. A function from names to numbers is a layering
(`Catalog.IsLayering`) if each definition lies just above the highest of those that it uses. A
layered list has such a function, and no two that differ on its names.

* `exists_isLayering`: the layers that are assigned are a layering.
* `IsLayering.unique`: there is no other.
-/

set_option autoImplicit false

namespace TypeTraits.Catalog

variable {ds : List Definition} {d : Definition} {layer layer' : String → Nat}

/-! ### Layered lists, one definition after another -/

/-- One more definition has a new name and uses names that are there. -/
theorem isLayered_concat :
    IsLayered (ds ++ [d]) ↔ IsLayered ds ∧ d.name ∉ names ds ∧ ∀ u ∈ d.uses, u ∈ names ds := by
  rw [isLayered_def, isLayered_def, nodup_names_concat, forall_split_concat]
  tauto

/-- Names that are used are defined in the list. -/
theorem IsLayered.uses_subset (h : IsLayered ds) (hd : d ∈ ds) : ∀ u ∈ d.uses, u ∈ names ds := by
  intro u hu
  obtain ⟨before, behind, rfl⟩ := List.append_of_mem hd
  rw [names_append]
  exact List.mem_append_left _ (h.uses before d behind rfl u hu)

/-! ### Layers -/

/-- The layer of each definition is one above the layers of what it uses. -/
def IsLayering (ds : List Definition) (layer : String → Nat) : Prop :=
  ∀ d ∈ ds, layer d.name = oneAbove (d.uses.map layer)

/-- A running maximum stays below a bound exactly if all its steps do. -/
theorem foldl_max_le_iff {α : Type} {f : α → Nat} {xs : List α} {m k : Nat} :
    xs.foldl (fun n x => max n (f x)) m ≤ k ↔ m ≤ k ∧ ∀ x ∈ xs, f x ≤ k := by
  induction xs generalizing m with
  | nil => simp
  | cons x xs ih => rw [List.foldl_cons, ih, Nat.max_le, List.forall_mem_cons, and_assoc]

/-- One above the layers is at most as high as any number above them all. -/
theorem oneAbove_le_iff {layers : List Nat} {k : Nat} :
    oneAbove layers ≤ k ↔ ∀ n ∈ layers, n < k := by
  rw [oneAbove, foldl_max_le_iff, and_iff_right (Nat.zero_le k)]
  rfl

/-- So is the layer above the predicates of some names. -/
theorem layerAbove_le_iff {predicates : List Predicate} {ns : List String} {k : Nat} :
    layerAbove predicates ns ≤ k ↔ ∀ p ∈ predicates, p.name ∈ ns → p.layer < k := by
  rw [layerAbove, foldl_max_le_iff, and_iff_right (Nat.zero_le k)]
  simp only [List.mem_filter, List.contains_eq_mem, decide_eq_true_eq, and_imp, Nat.add_one_le_iff]

/-- Layers are added to one more definition behind the others. -/
theorem withLayers_concat (layer : String → Nat) (ds : List Definition) (d : Definition) :
    withLayers layer (ds ++ [d]) = withLayers layer ds ++ [d.atLayer (layer d.name)] :=
  List.map_append

/-- If all of the names are there, the layer above them is the one above their layers. -/
theorem layerAbove_withLayers {ns : List String} (h : ∀ n ∈ ns, n ∈ names ds) :
    layerAbove (withLayers layer ds) ns = oneAbove (ns.map layer) := by
  refine eq_of_forall_ge_iff fun k => ?_
  rw [layerAbove_le_iff, oneAbove_le_iff, withLayers, List.forall_mem_map, List.forall_mem_map]
  constructor
  · intro hk n hn
    obtain ⟨d, hd, rfl⟩ := List.mem_map.mp (h n hn)
    exact hk d hd hn
  · intro hk d _ hn
    exact hk d.name hn

/-- One more definition must lie just above what it uses. -/
theorem isLayering_concat :
    IsLayering (ds ++ [d]) layer ↔
      IsLayering ds layer ∧ layer d.name = oneAbove (d.uses.map layer) := by
  simp [IsLayering, or_imp, forall_and]

/-- Other names have no influence. -/
theorem IsLayering.congr (h : IsLayered ds) (hlayer : IsLayering ds layer)
    (heq : ∀ n ∈ names ds, layer' n = layer n) : IsLayering ds layer' := by
  intro d hd
  have huses : d.uses.map layer' = d.uses.map layer :=
    List.map_congr_left fun u hu => heq u (h.uses_subset hd u hu)
  rw [heq d.name (List.mem_map_of_mem hd), hlayer d hd, huses]

/-- The layers of a layered list are determined by what the definitions use. -/
theorem IsLayering.unique (h : IsLayered ds) (hlayer : IsLayering ds layer)
    (hlayer' : IsLayering ds layer') : ∀ n ∈ names ds, layer n = layer' n := by
  -- From the last definition on, since its uses are in front of it, where the layers agree.
  induction ds using List.reverseRecOn with
  | nil => exact fun n hn => (nomatch hn)
  | append_singleton ds d ih =>
    obtain ⟨h, -, huses⟩ := isLayered_concat.mp h
    obtain ⟨hlayer, hd⟩ := isLayering_concat.mp hlayer
    obtain ⟨hlayer', hd'⟩ := isLayering_concat.mp hlayer'
    have hsame := ih h hlayer hlayer'
    have hd : layer d.name = layer' d.name := by
      rw [hd, hd', List.map_congr_left fun u hu => hsame u (huses u hu)]
    intro n hn
    rw [names_append, List.mem_append] at hn
    rcases hn with hn | hn
    · exact hsame n hn
    · cases List.mem_singleton.mp hn
      exact hd

/-- All layerings of a list make the same predicates of it. -/
theorem IsLayering.withLayers_eq (h : IsLayered ds) (hlayer : IsLayering ds layer)
    (hlayer' : IsLayering ds layer') : withLayers layer ds = withLayers layer' ds := by
  refine List.map_congr_left fun d hd => ?_
  rw [hlayer.unique h hlayer' d.name (List.mem_map_of_mem hd)]

/-- The last definition gets the layer above the predicates made of the others. -/
theorem assignLayers_concat (before : List Predicate) (ds : List Definition) (d : Definition) :
    assignLayers before (ds ++ [d]) =
      assignLayers before ds ++ [d.atLayer (layerAbove (assignLayers before ds) d.uses)] := by
  induction ds generalizing before with
  | nil => rfl
  | cons d' ds ih => exact ih _

/-- The layers assigned in the order of the list are a layering. -/
theorem exists_isLayering (h : IsLayered ds) :
    ∃ layer, IsLayering ds layer ∧ assignLayers [] ds = withLayers layer ds := by
  induction ds using List.reverseRecOn with
  | nil => exact ⟨fun _ => 0, nofun, rfl⟩
  | append_singleton ds d ih =>
    obtain ⟨h, hd, huses⟩ := isLayered_concat.mp h
    obtain ⟨layer, hlayer, hassign⟩ := ih h
    have habove : layerAbove (assignLayers [] ds) d.uses = oneAbove (d.uses.map layer) := by
      rw [hassign, layerAbove_withLayers huses]
    -- The layer of `d` is put in beside the others, which do not use it.
    let layer' := Function.update layer d.name (oneAbove (d.uses.map layer))
    have hsame : ∀ n ∈ names ds, layer' n = layer n := by
      intro n hn
      exact Function.update_of_ne (ne_of_mem_of_not_mem hn hd) _ _
    have hnew : layer' d.name = oneAbove (d.uses.map layer) := Function.update_self _ _ _
    have hfront : withLayers layer' ds = withLayers layer ds := by
      refine List.map_congr_left fun d' hd' => ?_
      rw [hsame d'.name (List.mem_map_of_mem hd')]
    refine ⟨layer', isLayering_concat.mpr ⟨hlayer.congr h hsame, ?_⟩, ?_⟩
    · rw [hnew, List.map_congr_left fun u hu => hsame u (huses u hu)]
    · rw [assignLayers_concat, habove, hassign, withLayers_concat, hfront, hnew]

end TypeTraits.Catalog
