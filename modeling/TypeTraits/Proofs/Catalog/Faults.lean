import TypeTraits.Catalog.Basic
import TypeTraits.Proofs.Support.List

/-!
# `TypeTraits.Proofs.Catalog.Faults`: what is wrong with a list of definitions

`Catalog.ofDefinitions` goes over the definitions twice. The first time it looks for a name that
comes back, and the second time for a use of a name that is not defined yet. Both walks are
`firstFault`: they stop at the first definition with a fault, and whether it has one depends on
the names in front.

`Catalog.IsLayered` says what a list has to be like, with no walk in it, and
`Catalog.FirstFault` says which fault is reported of any other list.

* `ofDefinitions_eq_ok_iff`: the lists that are accepted, and what becomes of them.
* `ofDefinitions_eq_error_iff`: the lists that are not, and why.
-/

set_option autoImplicit false

namespace TypeTraits.Catalog

/-- No definitions have no names. -/
@[simp] theorem names_nil : names [] = [] := rfl

/-- The first definition has the first name. -/
@[simp] theorem names_cons (d : Definition) (ds : List Definition) :
    names (d :: ds) = d.name :: names ds := rfl

/-- Lists of definitions side by side have their names side by side. -/
@[simp] theorem names_append (ds ds' : List Definition) :
    names (ds ++ ds') = names ds ++ names ds' := List.map_append

/-- No two definitions share a name, and each uses only the names of definitions in front of
it. -/
structure IsLayered (ds : List Definition) : Prop where
  distinct : (names ds).Nodup
  uses : ∀ before d behind, ds = before ++ d :: behind → ∀ u ∈ d.uses, u ∈ names before

/-- The two conditions on a layered list, as a conjunction to rewrite with. -/
theorem isLayered_def {ds : List Definition} : IsLayered ds ↔ (names ds).Nodup ∧
    ∀ before d behind, ds = before ++ d :: behind → ∀ u ∈ d.uses, u ∈ names before :=
  ⟨fun h => ⟨h.distinct, h.uses⟩, fun h => ⟨h.1, h.2⟩⟩

/-- The definition is the first that uses a name which no definition in front of it has, and the
use is the first of this kind. All names are distinct. -/
structure IsFirstMisuse (ds before : List Definition) (d : Definition) (behind : List Definition)
    (u : String) : Prop where
  distinct : (names ds).Nodup
  split : ds = before ++ d :: behind
  front : IsLayered before
  use : ∃ good more, d.uses = good ++ u :: more ∧ ∀ v ∈ good, v ∈ names before
  misused : u ∉ names before

/-- What is to be reported of a list that is not layered. -/
inductive FirstFault (ds : List Definition) : LayeringError → Prop where
  /-- Whatever else is wrong, the first definition that has the name of an earlier one. -/
  | duplicate {before behind : List Definition} {d : Definition}
      (split : ds = before ++ d :: behind) (distinct : (names before).Nodup)
      (repeated : d.name ∈ names before) : FirstFault ds (.duplicate d.name)
  /-- The first misuse, of a name that no definition has. -/
  | undefined {before behind : List Definition} {d : Definition} {u : String}
      (misuse : IsFirstMisuse ds before d behind u) (absent : u ∉ names ds) :
      FirstFault ds (.undefined d.name u)
  /-- The first misuse, of a name that the definition itself or a later one has. -/
  | notLower {before behind : List Definition} {d : Definition} {u : String}
      (misuse : IsFirstMisuse ds before d behind u) (late : u ∈ names (d :: behind)) :
      FirstFault ds (.notLower d.name u)

/-! ### The walk -/

section
variable {α ε : Type} {name : α → String} {fault : List String → α → Option ε}
  {front : List String} {xs : List α} {e : ε}

/-- The first fault of an element, going over the list. `front` are the names in front, the
nearest first. -/
def firstFault (name : α → String) (fault : List String → α → Option ε) :
    List String → List α → Option ε
  | _, [] => none
  | front, x :: xs => (fault front x).or (firstFault name fault (name x :: front) xs)

/-- The walk comes to the end exactly if nothing is wrong with any element behind those in front of
it. -/
theorem firstFault_eq_none_iff :
    firstFault name fault front xs = none ↔ ∀ before x behind, xs = before ++ x :: behind →
      fault ((before.map name).reverse ++ front) x = none := by
  induction xs generalizing front with
  | nil => simp [firstFault]
  | cons x xs ih =>
    rw [firstFault, Option.or_eq_none_iff, ih, forall_split_cons]
    simp

/-- The walk stops at the first element with which something is wrong, and says what it is. -/
theorem firstFault_eq_some_iff :
    firstFault name fault front xs = some e ↔ ∃ before x behind, xs = before ++ x :: behind ∧
      firstFault name fault front before = none ∧
      fault ((before.map name).reverse ++ front) x = some e := by
  induction xs generalizing front with
  | nil => simp [firstFault]
  | cons x xs ih =>
    -- Either the first element is to blame, or it is not and one behind it is.
    rw [firstFault, Option.or_eq_some_iff, ih, exists_split_cons]
    constructor
    · rintro (hx | ⟨hx, before, y, behind, hsplit, hnone, hy⟩)
      · exact .inl ⟨rfl, hx⟩
      · exact .inr ⟨before, y, behind, hsplit, by simp [firstFault, hx, hnone], by simpa using hy⟩
    · rintro (⟨-, hx⟩ | ⟨before, y, behind, hsplit, hnone, hy⟩)
      · exact .inl hx
      · rw [firstFault, Option.or_eq_none_iff] at hnone
        exact .inr ⟨hnone.1, before, y, behind, hsplit, hnone.2, by simpa using hy⟩

end

/-! ### Names that come back -/

variable {ds : List Definition}

/-- One more name is distinct from the others if it is not among them. -/
theorem nodup_names_concat {d : Definition} :
    (names (ds ++ [d])).Nodup ↔ (names ds).Nodup ∧ d.name ∉ names ds := by
  rw [names_append, List.nodup_append_comm]
  simp [and_comm]

/-- Names are distinct if no definition has the name of one in front of it. -/
theorem nodup_names_iff :
    (names ds).Nodup ↔ ∀ before d behind, ds = before ++ d :: behind → d.name ∉ names before := by
  induction ds using List.reverseRecOn with
  | nil => simp
  | append_singleton ds d ih => rw [nodup_names_concat, forall_split_concat, ih]

/-- The name, if it is one of those in front. -/
def repeated (front : List String) (d : Definition) : Option String :=
  if front.contains d.name then some d.name else none

/-- A name is new if it is not among those in front. -/
theorem repeated_eq_none_iff {front : List String} {d : Definition} :
    repeated front d = none ↔ d.name ∉ front := by
  simp [repeated]

/-- A name that is not new is reported as it is. -/
theorem repeated_eq_some_iff {front : List String} {d : Definition} {n : String} :
    repeated front d = some n ↔ d.name ∈ front ∧ d.name = n := by
  simp [repeated]

/-- The search for a name that comes back is a walk. -/
theorem firstRepeated_eq_firstFault (front : List String) (ds : List Definition) :
    firstRepeated front (names ds) = firstFault (·.name) repeated front ds := by
  induction ds generalizing front with
  | nil => rfl
  | cons d ds ih =>
    rw [names_cons, firstRepeated, firstFault, ← ih, repeated]
    split
    · rfl
    · rfl

/-- No name comes back exactly if all names are distinct. -/
theorem firstRepeated_eq_none_iff : firstRepeated [] (names ds) = none ↔ (names ds).Nodup := by
  rw [firstRepeated_eq_firstFault, firstFault_eq_none_iff, nodup_names_iff]
  simp [repeated_eq_none_iff, names]

/-- The name that is found is the first that a definition in front has. -/
theorem firstRepeated_eq_some_iff {n : String} :
    firstRepeated [] (names ds) = some n ↔ ∃ before d behind, ds = before ++ d :: behind ∧
      (names before).Nodup ∧ d.name ∈ names before ∧ d.name = n := by
  rw [firstRepeated_eq_firstFault, firstFault_eq_some_iff]
  simp only [← firstRepeated_eq_firstFault, firstRepeated_eq_none_iff, repeated_eq_some_iff]
  simp [names]

/-! ### Names used too early -/

/-- The first use of the definition that is of no name in front. -/
def misused (defined front : List String) (d : Definition) : Option LayeringError :=
  (d.uses.find? (!front.contains ·)).map fun u =>
    if defined.contains u then .notLower d.name u else .undefined d.name u

/-- A definition misuses no name if all that it uses are in front of it. -/
theorem misused_eq_none_iff {defined front : List String} {d : Definition} :
    misused defined front d = none ↔ ∀ u ∈ d.uses, u ∈ front := by
  simp [misused]

/-- Of the names that a definition misuses, the first is found. It depends on all names whether it
is a later one or an unknown one. -/
theorem misused_eq_some_iff {defined front : List String} {d : Definition} {e : LayeringError} :
    misused defined front d = some e ↔ ∃ good u more, d.uses = good ++ u :: more ∧
      (∀ v ∈ good, v ∈ front) ∧ u ∉ front ∧
      e = if u ∈ defined then .notLower d.name u else .undefined d.name u := by
  simp only [misused, Option.map_eq_some_iff, List.find?_eq_some_iff_append]
  constructor
  · rintro ⟨u, ⟨hu, good, more, huses, hgood⟩, rfl⟩
    exact ⟨good, u, more, huses, by simpa using hgood, by simpa using hu, by simp⟩
  · rintro ⟨good, u, more, huses, hgood, hu, rfl⟩
    exact ⟨u, ⟨by simpa using hu, good, more, huses, by simpa using hgood⟩, by simp⟩

/-- The search for a misuse is a walk. -/
theorem firstMisuse_eq_firstFault (defined front : List String) (ds : List Definition) :
    firstMisuse defined front ds = firstFault (·.name) (misused defined) front ds := by
  induction ds generalizing front with
  | nil => rfl
  | cons d ds ih =>
    rw [firstMisuse, firstFault, ← ih, misused]
    cases d.uses.find? (!front.contains ·) with
    | none => rfl
    | some u => rfl

/-- No misuse is found exactly if all names are used behind their definitions. -/
theorem firstMisuse_eq_none_iff {defined : List String} {ds : List Definition} :
    firstMisuse defined [] ds = none ↔
      ∀ before d behind, ds = before ++ d :: behind → ∀ u ∈ d.uses, u ∈ names before := by
  rw [firstMisuse_eq_firstFault, firstFault_eq_none_iff]
  simp [misused_eq_none_iff, names]

/-- No definition in front has the name. If any has it, then `d` or one behind it. -/
theorem IsFirstMisuse.mem_names_iff {before behind : List Definition} {d : Definition} {u : String}
    (h : IsFirstMisuse ds before d behind u) : u ∈ names ds ↔ u ∈ names (d :: behind) := by
  rw [h.split, names_append, List.mem_append, or_iff_right h.misused]

/-- A list is layered exactly if nothing is found to be wrong. -/
theorem isLayered_iff (defined : List String) {ds : List Definition} :
    IsLayered ds ↔ firstRepeated [] (names ds) = none ∧ firstMisuse defined [] ds = none := by
  rw [firstRepeated_eq_none_iff, firstMisuse_eq_none_iff, isLayered_def]

/-- Where names are distinct, a misuse is found exactly if it is the first. -/
theorem firstMisuse_eq_some_iff {e : LayeringError} (h : (names ds).Nodup) :
    firstMisuse (names ds) [] ds = some e ↔ ∃ before d behind u,
      IsFirstMisuse ds before d behind u ∧
      e = if u ∈ names ds then .notLower d.name u else .undefined d.name u := by
  rw [firstMisuse_eq_firstFault, firstFault_eq_some_iff]
  simp only [← firstMisuse_eq_firstFault, misused_eq_some_iff]
  constructor
  · rintro ⟨before, d, behind, hsplit, hfront, good, u, more, huses, hgood, hu, rfl⟩
    -- What is in front has no misuse and no name twice, so it is layered.
    have hbefore : (names before).Nodup := by
      rw [hsplit, names_append] at h
      exact h.of_append_left
    have hlayered : IsLayered before :=
      (isLayered_iff _).mpr ⟨firstRepeated_eq_none_iff.mpr hbefore, hfront⟩
    exact ⟨before, d, behind, u, ⟨h, hsplit, hlayered,
      ⟨good, more, huses, by simpa [names] using hgood⟩, by simpa [names] using hu⟩, rfl⟩
  · rintro ⟨before, d, behind, u, hmisuse, rfl⟩
    obtain ⟨good, more, huses, hgood⟩ := hmisuse.use
    exact ⟨before, d, behind, hmisuse.split, ((isLayered_iff _).mp hmisuse.front).2, good, u, more,
      huses, by simpa [names] using hgood, by simpa [names] using hmisuse.misused, rfl⟩

/-! ### What is reported -/

/-- What the two walks find decides, and the first walk comes first. -/
theorem ofDefinitions_eq (ds : List Definition) :
    ofDefinitions ds =
      match firstRepeated [] (names ds), firstMisuse (names ds) [] ds with
      | some n, _ => .error (.duplicate n)
      | none, some e => .error e
      | none, none => .ok ⟨assignLayers [] ds⟩ := rfl

/-- A list is accepted exactly if it is layered. -/
theorem ofDefinitions_eq_ok_iff {c : Catalog} :
    ofDefinitions ds = .ok c ↔ IsLayered ds ∧ c = ⟨assignLayers [] ds⟩ := by
  rw [isLayered_iff (names ds), ofDefinitions_eq]
  cases firstRepeated [] (names ds) with
  | some n => simp
  | none =>
    cases firstMisuse (names ds) [] ds with
    | some e => simp
    | none => simp [eq_comm]

/-- Of any other list, the first fault is reported. -/
theorem ofDefinitions_eq_error_iff {e : LayeringError} :
    ofDefinitions ds = .error e ↔ FirstFault ds e := by
  rw [ofDefinitions_eq]
  constructor
  -- Names are compared first, and uses only if all names are different.
  · intro h
    cases hrepeated : firstRepeated [] (names ds) with
    | some n =>
      rw [hrepeated] at h
      obtain ⟨before, d, behind, hsplit, hdistinct, hd, rfl⟩ :=
        firstRepeated_eq_some_iff.mp hrepeated
      cases h
      exact .duplicate hsplit hdistinct hd
    | none =>
      have hdistinct := firstRepeated_eq_none_iff.mp hrepeated
      cases hmisuse : firstMisuse (names ds) [] ds with
      | none =>
        rw [hrepeated, hmisuse] at h
        cases h
      | some e' =>
        rw [hrepeated, hmisuse] at h
        cases h
        obtain ⟨before, d, behind, u, hfirst, rfl⟩ := (firstMisuse_eq_some_iff hdistinct).mp hmisuse
        by_cases hu : u ∈ names ds
        · rw [if_pos hu]
          exact .notLower hfirst (hfirst.mem_names_iff.mp hu)
        · rw [if_neg hu]
          exact .undefined hfirst hu
  · intro h
    -- Each kind of fault says which of the two searches finds it.
    cases h with
    | duplicate hsplit hdistinct hd =>
      rw [firstRepeated_eq_some_iff.mpr ⟨_, _, _, hsplit, hdistinct, hd, rfl⟩]
    | undefined hfirst hu =>
      have hmisuse := (firstMisuse_eq_some_iff hfirst.distinct).mpr ⟨_, _, _, _, hfirst, rfl⟩
      rw [firstRepeated_eq_none_iff.mpr hfirst.distinct, hmisuse, if_neg hu]
    | notLower hfirst hu =>
      have hmisuse := (firstMisuse_eq_some_iff hfirst.distinct).mpr ⟨_, _, _, _, hfirst, rfl⟩
      rw [firstRepeated_eq_none_iff.mpr hfirst.distinct, hmisuse,
        if_pos (hfirst.mem_names_iff.mpr hu)]

end TypeTraits.Catalog
