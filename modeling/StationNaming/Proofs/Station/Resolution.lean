import Mathlib.Data.List.Nodup
import StationNaming.Proofs.Xml.Relabel
import StationNaming.Station
/-!
# What a renaming finds

Before a document is changed, every renaming is resolved: to the IED that carries the old name, and
to the sites that refer to it.

**What is exact.** A renaming resolves exactly if an IED carries its old name, and among IEDs with
distinct names there is one only. The references found are one for each site that holds the name, so
their number is how often the name is referred to.
-/

namespace StationNaming.Station

open Xml (Element Label)

/-! ## IEDs by name -/

/-- The child of the root with an index is an IED that carries a name. -/
def IedAt (s : Station) (i : Nat) (name : String) : Prop :=
  ∃ e, s.root.children[i]? = some e ∧ isIed e = true ∧ e.attribute? "name" = some name

theorem mem_named_iff {s : Station} {name : String} {i : Nat} :
    (∃ e, (e, i) ∈ s.root.children.zipIdx.filter fun x =>
      isIed x.1 && x.1.attribute? "name" == some name) ↔ s.IedAt i name := by
  simp only [List.mem_filter, List.mk_mem_zipIdx_iff_getElem?, Bool.and_eq_true, beq_iff_eq, IedAt]

/-- The IED that is found carries the name. -/
theorem iedAt_of_indexOf? {s : Station} {name : String} {i : Nat} (h : s.indexOf? name = some i) :
    s.IedAt i name := by
  obtain ⟨⟨e, j⟩, hlast, rfl⟩ := Option.map_eq_some_iff.mp h
  exact mem_named_iff.mp ⟨e, List.mem_of_getLast? hlast⟩

/-- An IED is found if one carries the name. -/
theorem exists_indexOf?_of_iedAt {s : Station} {name : String} {i : Nat} (h : s.IedAt i name) :
    ∃ j, s.indexOf? name = some j := by
  obtain ⟨e, he⟩ := mem_named_iff.mpr h
  have hlast := List.getLast?_eq_some_getLast (List.ne_nil_of_mem he)
  exact ⟨_, by rw [indexOf?, hlast, Option.map_some]⟩

/-- The name of the record of an IED that carries a name. -/
theorem name_recordOf {e : Element} {name : String} (h : e.attribute? "name" = some name) :
    (recordOf e).name = name := by
  rw [recordOf, h, Option.getD_some]

/-- **Among IEDs with distinct names, one carries a name.** -/
theorem IedAt.unique {s : Station} (distinct : (s.records.map (·.name)).Nodup) {name : String}
    {i j : Nat} (hi : s.IedAt i name) (hj : s.IedAt j name) : i = j := by
  have hpair : s.root.children.Pairwise fun a b =>
      isIed a = true → isIed b = true → (recordOf a).name ≠ (recordOf b).name := by
    rw [records, List.map_map, List.Nodup, List.pairwise_map, List.pairwise_filter] at distinct
    exact distinct
  -- Two IEDs of one name would be a pair of children in order whose records have one name.
  have hlt : ∀ {a b : Nat}, s.IedAt a name → s.IedAt b name → ¬ a < b := by
    rintro a b ⟨e, he, hied, hname⟩ ⟨e', he', hied', hname'⟩ hab
    obtain ⟨ha, rfl⟩ := List.getElem?_eq_some_iff.mp he
    obtain ⟨hb, rfl⟩ := List.getElem?_eq_some_iff.mp he'
    refine List.pairwise_iff_getElem.mp hpair a b ha hb hab hied hied' ?_
    rw [name_recordOf hname, name_recordOf hname']
  exact Nat.le_antisymm (Nat.not_lt.mp (hlt hj hi)) (Nat.not_lt.mp (hlt hi hj))

theorem indexOf?_of_iedAt {s : Station} (distinct : (s.records.map (·.name)).Nodup) {name : String}
    {i : Nat} (h : s.IedAt i name) : s.indexOf? name = some i := by
  obtain ⟨j, hj⟩ := exists_indexOf?_of_iedAt h
  rw [hj, IedAt.unique distinct (iedAt_of_indexOf? hj) h]

/-! ## Resolving -/

/-- What a renaming resolves to, if an IED carries its old name. -/
def resolution (s : Station) (op : Renaming) : Resolved :=
  ⟨op.new, (s.indexOf? op.old).getD 0, s.references op.old⟩

theorem resolve_of_iedAt {s : Station} {op : Renaming} {i : Nat} (h : s.IedAt i op.old) :
    s.resolve op = .ok (s.resolution op) := by
  obtain ⟨j, hj⟩ := exists_indexOf?_of_iedAt h
  rw [resolve, resolution, hj]
  rfl

/-- **Renamings of IEDs that are there all resolve.** -/
theorem mapM_resolve {s : Station} {ops : List Renaming}
    (h : ∀ op ∈ ops, ∃ i, s.IedAt i op.old) : ops.mapM s.resolve = .ok (ops.map s.resolution) := by
  induction ops with
  | nil => rfl
  | cons op ops ih =>
    obtain ⟨i, hi⟩ := h op List.mem_cons_self
    rw [List.mapM_cons, resolve_of_iedAt hi, ih fun op' hop' => h op' (List.mem_cons_of_mem _ hop')]
    rfl

/-! ## References -/

/-- **The names that an element refers to**, that of its attribute before that of its text. -/
def referredNames (e : Element) : List String :=
  if e.localName = "IED" then []
  else (e.attribute? referenceKey).toList ++
    if e.localName = "IEDName" then [Unicode.trimString e.text] else []

/-- An element has a site for each time that it refers to a name. -/
theorem length_sitesOf (name : String) (e : Element) :
    (sitesOf name e).length = (referredNames e).count name := by
  unfold sitesOf referredNames isIed
  by_cases hied : e.localName = "IED"
  · rw [if_pos (by rw [hied]; rfl), if_pos hied]
    rfl
  rw [if_neg (by simpa using hied), if_neg hied, List.length_append, List.count_append]
  congr 1
  · cases e.attribute? referenceKey with
    | none => rfl
    | some n => by_cases hn : n = name <;> simp [hn]
  · by_cases htext : e.localName = "IEDName"
    · by_cases hn : Unicode.trimString e.text = name <;> simp [htext, hn]
    · simp [htext]

/-- **The number of references to a name** is how often it is referred to. -/
theorem length_references (s : Station) (name : String) :
    (s.references name).length =
      (s.root.walk.flatMap fun x => referredNames x.2).count name := by
  rw [references]
  generalize s.root.walk = found
  induction found with
  | nil => rfl
  | cons x xs ih =>
    rw [List.flatMap_cons, List.flatMap_cons, List.length_append, List.count_append, ih,
      List.length_map, length_sitesOf]

/-- The references at one path are those of the element that stands there. -/
theorem filter_references {s : Station} {path : Element.Path} {e : Element}
    (h : (path, e) ∈ s.root.walk) (name : String) :
    (s.references name).filter (·.path = path) = (sitesOf name e).map (Reference.mk path e) := by
  have hnodup := Element.nodup_walk s.root
  rw [references]
  generalize s.root.walk = found at h hnodup
  have hpart : ∀ x : Element.Path × Element,
      ((sitesOf name x.2).map fun site => Reference.mk x.1 x.2 site).filter (·.path = path) =
        if x.1 = path then (sitesOf name x.2).map (Reference.mk x.1 x.2) else [] := by
    intro x
    rw [List.filter_map]
    by_cases hx : x.1 = path <;> simp [hx, Function.comp_def]
  induction found with
  | nil => exact absurd h List.not_mem_nil
  | cons x xs ih =>
    rw [List.map_cons, List.nodup_cons] at hnodup
    rw [List.flatMap_cons, List.filter_append, hpart]
    -- Paths are distinct, so either the head is the element or nothing of the head is kept.
    rcases List.mem_cons.mp h with rfl | hmem
    · have hrest : (xs.flatMap fun y => (sitesOf name y.2).map fun site =>
          Reference.mk y.1 y.2 site).filter (·.path = path) = [] := by
        rw [List.filter_eq_nil_iff]
        intro ref href hpath
        obtain ⟨y, hy, href⟩ := List.mem_flatMap.mp href
        obtain ⟨site, -, rfl⟩ := List.mem_map.mp href
        exact hnodup.1 (List.mem_map.mpr ⟨y, hy, by simpa using hpath⟩)
      rw [if_pos rfl, hrest, List.append_nil]
    · have hne : x.1 ≠ path := by
        rintro rfl
        exact hnodup.1 (List.mem_map.mpr ⟨(x.1, e), hmem, rfl⟩)
      rw [if_neg hne, List.nil_append, ih hmem hnodup.2]

end StationNaming.Station
