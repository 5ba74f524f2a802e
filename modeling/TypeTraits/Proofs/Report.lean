import TypeTraits.Proofs.Catalog.Chains
import TypeTraits.Proofs.Transformation
import TypeTraits.Report

/-!
# `TypeTraits.Proofs.Report`: what a report says about a type

A report lists the predicates of its catalog and the dimensions of the type. For reading, it leaves
out what can be told from the type itself: the dimensions, where the type is no array, and the
transformations that change nothing. The report finds these by their texts and never looks at the
types, which is enough since on canonical types what changes shows
(`Descriptor.IsCanonical.spelling_apply_eq_iff`).

* `Report.shows_what_changes`: predicates, dimensions and lines of the report on a canonical type.
-/

set_option autoImplicit false

namespace TypeTraits

namespace Report

variable {c : Catalog} {ds : List Definition} {t : Descriptor} {f g : Transformation}

/-! ### Lines -/

/-- Blanks fill the width in front of the text. -/
theorem toList_alignRight (width : Nat) (text : String) :
    (alignRight width text).toList = List.replicate (width - text.length) ' ' ++ text.toList := by
  have hblanks (n : Nat) : ("".pushn ' ' n).toList = List.replicate n ' ' := by
    induction n with
    | zero => rfl
    | succ n ih =>
      rw [List.replicate_succ', ← ih]
      exact String.toList_push ' '
  rw [alignRight, String.toList_append, hblanks]

/-- Texts without blanks can be told from what is aligned. -/
theorem eq_of_alignRight_eq {width : Nat} {s s' : String} (hs : ' ' ∉ s.toList)
    (hs' : ' ' ∉ s'.toList) (h : alignRight width s = alignRight width s') : s = s' := by
  have hself {s : String} (hs : ' ' ∉ s.toList) :
      (alignRight width s).toList.filter (· != ' ') = s.toList := by
    have hfilter : s.toList.filter (· != ' ') = s.toList :=
      List.filter_eq_self.mpr fun c hc => bne_iff_ne.mpr fun heq => hs (heq ▸ hc)
    simp [toList_alignRight, hfilter]
  rw [← String.toList_inj, ← hself hs, ← hself hs', h]

/-- The line for a transformation. -/
def lineFor (f : Transformation) (result : String) : String :=
  alignRight 22 f.name ++ ": " ++ result

/-- Every name of a transformation leaves room for a blank in its column. -/
theorem length_name_lt (hf : f ∈ Transformation.all) : f.name.length < 22 := by
  have hall : ∀ f ∈ Transformation.all, f.name.length < 22 := by decide +kernel
  exact hall f hf

/-- All names of transformations are shorter than the place for them. -/
theorem head?_lineFor (hf : f ∈ Transformation.all) (result : String) :
    (lineFor f result).toList.head? = some ' ' := by
  obtain ⟨n, hn⟩ := Nat.exists_eq_add_one.mpr (Nat.sub_pos_of_lt (length_name_lt hf))
  simp only [lineFor, String.toList_append, toList_alignRight, hn, List.replicate_succ]
  rfl

/-- A line tells which transformation it is for. -/
theorem eq_of_lineFor_eq (hf : f ∈ Transformation.all) (hg : g ∈ Transformation.all)
    {result result' : String} (h : lineFor f result = lineFor g result') : f = g := by
  have hblank : ∀ f ∈ Transformation.all, ' ' ∉ f.name.toList := by simp [Transformation.all]
  have hnodup : (Transformation.all.map (·.name)).Nodup := by decide +kernel
  -- All names are filled up to the same length, so all lines are cut at the same place.
  have hlength {f : Transformation} (hf : f ∈ Transformation.all) :
      (alignRight 22 f.name).toList.length = 22 := by
    have hlt := length_name_lt hf
    rw [toList_alignRight, List.length_append, List.length_replicate, String.length_toList]
    omega
  have hlist := congrArg String.toList h
  simp only [lineFor, String.append_assoc, String.toList_append] at hlist
  have hhead := List.append_inj_left hlist ((hlength hf).trans (hlength hg).symm)
  have hname := eq_of_alignRight_eq (hblank f hf) (hblank g hg) (String.toList_injective hhead)
  exact List.inj_on_of_nodup_map hnodup hf hg hname

/-- The predicates of a report are those that hold, in the order of the catalog. -/
theorem holding_ofType (c : Catalog) (t : Descriptor) :
    (ofType c t).holding = (c.predicates.filter (·.holds t)).map (·.name) := by
  simp [holding, ofType, Catalog.classify, List.filter_map, Function.comp_def]

/-- The lines of the report on a canonical type: its text, the predicates that hold, the dimensions
of an array, and the transformations that change it. -/
theorem lines_ofType (h : t.IsCanonical)
    (hname : ∀ name, t.name? = some name → IsPlainName name) :
    (ofType c t).lines =
      ["type: " ++ t.spelling,
        "holds: " ++ ", ".intercalate ((c.predicates.filter (·.holds t)).map (·.name))] ++
      (if t.isArray then ["rank: " ++ (ofType c t).dimensions] else []) ++
      (Transformation.all.filter fun f => f.apply t ≠ t).map fun f =>
        lineFor f (f.apply t).spelling := by
  have hrank : (if (ofType c t).rank = 0 then [] else ["rank: " ++ (ofType c t).dimensions]) =
      if t.isArray then ["rank: " ++ (ofType c t).dimensions] else [] := by
    have hzero : (ofType c t).rank = 0 ↔ t.isArray = false := t.rank_eq_zero_iff
    cases ha : t.isArray <;> simp [hzero, ha]
  -- A result that is printed as the type itself is this type, so no change is hidden.
  have hchanges : (ofType c t).transformations.filter (·.result != (ofType c t).type) =
      (Transformation.all.filter fun f => f.apply t ≠ t).map fun f =>
        ⟨f.name, (f.apply t).spelling⟩ := by
    rw [ofType, List.filter_map]
    refine congrArg _ (List.filter_congr fun f hf => ?_)
    rw [Bool.eq_iff_iff, decide_eq_true_iff]
    exact bne_iff_ne.trans (h.spelling_apply_eq_iff hf hname).not
  rw [lines, holding_ofType, hrank, hchanges, List.map_map]
  rfl

/-- The lines of a report: the type, its predicates, its dimensions if it is an array, and one for
each transformation that changes it. -/
theorem mem_lines_iff (h : t.IsCanonical)
    (hname : ∀ name, t.name? = some name → IsPlainName name) {line : String} :
    line ∈ (ofType c t).lines ↔
      line = "type: " ++ t.spelling ∨
      line = "holds: " ++ ", ".intercalate ((c.predicates.filter (·.holds t)).map (·.name)) ∨
      (t.isArray = true ∧ line = "rank: " ++ (ofType c t).dimensions) ∨
      ∃ f ∈ Transformation.all, f.apply t ≠ t ∧ line = lineFor f (f.apply t).spelling := by
  rw [lines_ofType h hname]
  simp only [List.mem_append, List.mem_cons, List.not_mem_nil, or_false, or_assoc, List.mem_map,
    List.mem_filter, decide_eq_true_eq, and_assoc, eq_comm (a := line)]
  -- Only the line of dimensions may be missing.
  refine or_congr_right (or_congr_right (or_congr_left ?_))
  cases t.isArray <;> simp [eq_comm]

/-- What a text begins with, it begins with also when more follows. -/
theorem head?_append {s : String} {a : Char} (h : s.toList.head? = some a) (s' : String) :
    (s ++ s').toList.head? = some a := by
  rw [String.toList_append, List.head?_append, h]
  rfl

/-- Lines of different kinds begin with different characters. -/
theorem ne_of_head? {s s' : String} {a b : Char} (h : s.toList.head? = some a)
    (h' : s'.toList.head? = some b) (hab : a ≠ b) : s ≠ s' := by
  rintro rfl
  exact hab (Option.some.inj (h.symm.trans h'))

/-- A transformation has a line exactly if it changes the type. -/
theorem exists_lineFor_mem_iff (h : t.IsCanonical)
    (hname : ∀ name, t.name? = some name → IsPlainName name) (hf : f ∈ Transformation.all) :
    (∃ result, lineFor f result ∈ (ofType c t).lines) ↔ f.apply t ≠ t := by
  simp only [mem_lines_iff h hname]
  have hhead (result : String) : (lineFor f result).toList.head? = some ' ' :=
    head?_lineFor hf result
  constructor
  -- The other lines begin with a letter, and those of transformations with a blank.
  · rintro ⟨result, hline | hline | ⟨-, hline⟩ | ⟨g, hg, hne, hline⟩⟩
    · exact absurd hline (ne_of_head? (hhead _) (head?_append (a := 't') rfl _) (by decide))
    · exact absurd hline (ne_of_head? (hhead _) (head?_append (a := 'h') rfl _) (by decide))
    · exact absurd hline (ne_of_head? (hhead _) (head?_append (a := 'r') rfl _) (by decide))
    · rw [eq_of_lineFor_eq hf hg hline]
      exact hne
  · intro hne
    exact ⟨_, .inr (.inr (.inr ⟨f, hf, hne, rfl⟩))⟩

/-- There is a line for the dimensions exactly if there are some. -/
theorem exists_rank_mem_iff (h : t.IsCanonical)
    (hname : ∀ name, t.name? = some name → IsPlainName name) :
    (∃ dimensions, "rank: " ++ dimensions ∈ (ofType c t).lines) ↔ t.isArray = true := by
  simp only [mem_lines_iff h hname]
  have hhead (dimensions : String) : ("rank: " ++ dimensions).toList.head? = some 'r' :=
    head?_append rfl dimensions
  constructor
  -- Only the line of dimensions begins with this letter.
  · rintro ⟨dimensions, hline | hline | ⟨ha, -⟩ | ⟨g, hg, -, hline⟩⟩
    · exact absurd hline (ne_of_head? (hhead _) (head?_append (a := 't') rfl _) (by decide))
    · exact absurd hline (ne_of_head? (hhead _) (head?_append (a := 'h') rfl _) (by decide))
    · exact ha
    · exact absurd hline (ne_of_head? (hhead _) (head?_lineFor hg _) (by decide))
  · intro ha
    exact ⟨_, .inr (.inr (.inl ⟨ha, rfl⟩))⟩

/-! ### Predicates and dimensions -/

/-- The predicates of a catalog are its definitions, in their order, and no name stands twice. -/
theorem predicates_ofType (hc : Catalog.ofDefinitions ds = .ok c) :
    ((ofType c t).predicates.map fun e => (e.name, e.category, e.value)) =
        ds.map (fun d => (d.name, d.category, d.holds t)) ∧
      ((ofType c t).predicates.map (·.name)).Nodup := by
  constructor
  · rw [← Catalog.map_definition_of_ofDefinitions hc, ofType, Catalog.classify]
    simp only [List.map_map]
    rfl
  · have hdistinct := (Catalog.isStratified_of_ofDefinitions hc).distinct
    simpa only [ofType, Catalog.classify, List.map_map, Function.comp_def] using hdistinct

/-- An array has as many extents as dimensions, and each in its place. -/
theorem extents_ofType (c : Catalog) (t : Descriptor) :
    (ofType c t).extents.length = t.rank ∧
      ∀ i, i < t.rank → (ofType c t).extents[i]? = some (t.extent i) := by
  simp +contextual [ofType]

/-- The report on a canonical type. Each predicate of the catalog is listed once, in the catalog's
order and with its answer, and each dimension with its extent. The lines for reading are those for
the type, for the predicates that hold, for the dimensions of an array, and for each transformation
that changes the type; and a transformation that does not change it has no line. -/
theorem shows_what_changes (hc : Catalog.ofDefinitions ds = .ok c) (h : t.IsCanonical)
    (hnames : ∀ s ∈ t.levels, ∀ name, s.name? = some name → IsPlainName name) :
    let r := ofType c t
    (r.predicates = c.predicates.map (fun p => ⟨p.name, p.category, p.layer, p.holds t⟩) ∧
      r.predicates.map (fun e => (e.name, e.category, e.value)) =
        ds.map (fun d => (d.name, d.category, d.holds t)) ∧
      (r.predicates.map (·.name)).Nodup) ∧
    (r.rank = t.rank ∧ r.extents.length = t.rank ∧
      ∀ i, i < t.rank → r.extents[i]? = some (t.extent i)) ∧
    (r.text = String.join (r.lines.map (· ++ "\n")) ∧
      r.lines =
        ["type: " ++ t.spelling,
          "holds: " ++ ", ".intercalate ((c.predicates.filter (·.holds t)).map (·.name))] ++
        (if t.isArray then ["rank: " ++ r.dimensions] else []) ++
        (Transformation.all.filter fun f => f.apply t ≠ t).map fun f =>
          lineFor f (f.apply t).spelling) ∧
    (∀ f ∈ Transformation.all, (∃ result, lineFor f result ∈ r.lines) ↔ f.apply t ≠ t) ∧
    ((∃ dimensions, "rank: " ++ dimensions ∈ r.lines) ↔ t.isArray = true) := by
  have hname := hnames t t.mem_levels_self
  refine ⟨⟨?_, predicates_ofType hc⟩, ⟨rfl, extents_ofType c t⟩, ⟨rfl, lines_ofType h hname⟩,
    fun f hf => exists_lineFor_mem_iff h hname hf, exists_rank_mem_iff h hname⟩
  exact List.map_map

/-- An array of constant pointers to members of a class. The members are of an enumeration that has
the name of the class. -/
theorem shows_what_changes_of_shared_name :
    let c : Catalog := ⟨[⟨"is_const", .property, [], 0, Descriptor.isConst⟩]⟩
    let e := Descriptor.enumType ⟨"w", true, .short⟩ .none
    let t := Descriptor.array (.memberPointer ⟨"w", false⟩ e .none) (some 3) .const
    let r := ofType c t
    r.type = "w w::* const[3]" ∧ r.predicates.map (·.value) = [true] ∧ r.extents[0]? = some 3 ∧
      (∃ dimensions, "rank: " ++ dimensions ∈ r.lines) ∧
      (∃ result, lineFor ⟨"remove_const", .removeConst⟩ result ∈ r.lines) ∧
      ¬ ∃ result, lineFor ⟨"make_signed", .makeSigned⟩ result ∈ r.lines := by
  intro c e t r
  have hc : Catalog.ofDefinitions [⟨"is_const", .property, [], Descriptor.isConst⟩] = .ok c := rfl
  have ht : t.IsCanonical := by decide +kernel
  have hplain : IsPlainName "w" := ⟨⟨0, 1⟩, 1, by decide +kernel⟩
  have hnames : ∀ s ∈ t.levels, ∀ name, s.name? = some name → IsPlainName name := by
    intro s hs name hname
    simp only [t, e, Descriptor.levels, List.mem_cons, List.not_mem_nil, or_false] at hs
    rcases hs with rfl | rfl | rfl | rfl <;> cases hname
    · exact hplain
    · exact hplain
  obtain ⟨⟨hpredicates, -⟩, ⟨-, -, hextents⟩, -, hlines, hrank⟩ := shows_what_changes hc ht hnames
  refine ⟨by decide +kernel, ?_, hextents 0 (by decide), hrank.mpr rfl,
    (hlines _ (by simp [Transformation.all])).mpr ?_,
    fun h => (hlines _ (by simp [Transformation.all])).mp h rfl⟩
  · rw [hpredicates]
    rfl
  · decide

end Report

end TypeTraits
