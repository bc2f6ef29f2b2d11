import StationNaming.Proofs.Xml.Rewritten
/-!
# Documents that are written well

A written document can fail to be read in two ways: something that stands as a name is none, or two
attributes of a tag have been spelled alike. The second cannot be while the default namespace is
apart from all attributes.

**What is exact.** `wellWritten_iff_of_apart` covers every tree that a file can hold, under every
registry that can be relied on: as long as the default namespace is apart, the names decide alone.
-/

namespace StationNaming.Xml

/-! ## The default namespace -/

/-- **The default namespace of a written document is apart**: none is declared, or every element is
in a namespace and no attribute is in that one. -/
def DefaultApart (registry : PrefixRegistry) (root : Element) : Prop :=
  writtenDefault registry root = "" ∨ ∀ x ∈ root.walk,
    x.2.name.space ≠ "" ∧ ∀ a ∈ x.2.attributes, a.1.space ≠ writtenDefault registry root

theorem defaultApart_iff {registry : PrefixRegistry} {root : Element} :
    DefaultApart registry root ↔ ∀ x ∈ root.walk,
      (x.2.name.space = "" → writtenDefault registry root = "") ∧ ∀ a ∈ x.2.attributes,
        (a.1.space = writtenDefault registry root → writtenDefault registry root = "") := by
  by_cases hempty : writtenDefault registry root = ""
  · exact iff_of_true (.inl hempty) fun x _ => ⟨fun _ => hempty, fun a _ _ => hempty⟩
  · simp only [DefaultApart, hempty, false_or, imp_false, ne_eq]

/-! ## Tags -/

/-- The declarations that stand in a tag can be read as names. -/
theorem isQName_declaredName {b : Binding} (h : b.pfx ≠ "" → IsName b.pfx.toList) :
    IsQName (declaredName b).toList := by
  have hxmlns : IsName "xmlns".toList := (isName_iff _).mp (by decide)
  rw [declaredName]
  split_ifs with hpfx
  · exact .inl hxmlns
  · exact .inr ⟨"xmlns".toList, b.pfx.toList, by simp, hxmlns, h hpfx⟩

theorem nodup_declarations {ds : List Binding} (h : (ds.map (·.pfx)).Nodup) :
    ((declarations ds).map (·.1)).Nodup := by
  have hpfx : ∀ b c : Binding, declaredName b = declaredName c → b.pfx = c.pfx := by
    intro b c heq
    have hbound := boundPrefix?_declaredName b
    rw [heq, boundPrefix?_declaredName] at hbound
    exact (Option.some.inj hbound).symm
  rw [declarations, List.map_map]
  rw [List.Nodup, List.pairwise_map] at h ⊢
  exact h.imp fun hne heq => hne (hpfx _ _ heq)

theorem TagWritable.isQName {ws ds : List Binding} {n : Name} {as : List Attribute}
    (h : TagWritable ws ds n as) :
    IsQName (spell ws n).toList ∧ ∀ a ∈ as, IsQName (spell ws a.1).toList :=
  ⟨h.name, fun a ha => (List.forall_mem_append.mp h.names).2 (_, a.2)
    (List.mem_map.mpr ⟨a, ha, rfl⟩)⟩

/-- **Attributes with different names are spelled apart**, if none is in the default namespace. -/
theorem nodup_spelled_of_apart {ws : List Binding} (hws : Declarable ws) {as : List Attribute}
    (has : ∀ a ∈ as, Spells ws a.1) (hnodup : (as.map (·.1)).Nodup)
    (hapart : ∀ a ∈ as, a.1.space = Scope.default ws → a.1.space = "") :
    ((spelled ws as).map (·.1)).Nodup := by
  rw [spelled, List.map_map, List.Nodup, List.pairwise_map]
  rw [List.Nodup, List.pairwise_map] at hnodup
  refine hnodup.imp_of_mem fun {a b} ha hb hne heq => hne ?_
  refine eq_of_spell_eq hws (has a ha) (has b hb) ?_ heq
  rintro k (rfl | rfl)
  · exact hapart a ha
  · exact hapart b hb

/-- **No name of an attribute is the name of a declaration**: a declaration makes a binding, and an
attribute that is not spelled `xmlns` makes none. -/
theorem declaredName_ne_spell {ws : List Binding} (hws : Declarable ws) {n : Name}
    (hn : Spells ws n)
    (hplain : spell ws n ≠ "xmlns") (b : Binding) : declaredName b ≠ spell ws n := by
  intro heq
  have hbound := boundPrefix?_declaredName b
  rw [heq, boundPrefix?_spell hws hn, if_neg hplain] at hbound
  cases hbound

/-- **A start tag can be read** if its names can, no two of its attributes are one, and none is in
the default namespace. -/
theorem tagWritable_of_apart {ws : List Binding} (hws : Declarable ws) {ds : List Binding}
    (hpfxs : (ds.map (·.pfx)).Nodup) (hprefixes : ∀ b ∈ ds, b.pfx ≠ "" → IsName b.pfx.toList)
    {n : Name}
    (hname : IsQName (spell ws n).toList) {as : List Attribute} (has : ∀ a ∈ as, Spells ws a.1)
    (hnodup : (as.map (·.1)).Nodup)
    (hapart : ∀ a ∈ as, a.1.space = Scope.default ws → a.1.space = "")
    (hplain : ∀ a ∈ as, spell ws a.1 ≠ "xmlns") (hnames : ∀ a ∈ as, IsQName (spell ws a.1).toList) :
    TagWritable ws ds n as where
  name := hname
  names := by
    rw [List.forall_mem_append]
    constructor
    · intro a ha
      obtain ⟨b, hb, rfl⟩ := List.mem_map.mp ha
      exact isQName_declaredName (hprefixes b hb)
    · intro a ha
      obtain ⟨b, hb, rfl⟩ := List.mem_map.mp ha
      exact hnames b hb
  distinct := by
    rw [List.map_append, List.nodup_append]
    refine ⟨nodup_declarations hpfxs, nodup_spelled_of_apart hws has hnodup hapart, ?_⟩
    intro x hx y hy
    obtain ⟨d, hd, rfl⟩ := List.mem_map.mp hx
    obtain ⟨b, -, rfl⟩ := List.mem_map.mp hd
    obtain ⟨c, hc, rfl⟩ := List.mem_map.mp hy
    obtain ⟨a, ha, rfl⟩ := List.mem_map.mp hc
    exact declaredName_ne_spell hws (has a ha) (hplain a ha) b
  bindable := fun a ha hxmlns => absurd hxmlns (hplain a ha)

/-! ## Trees -/

section Apart

variable {registry : PrefixRegistry} (hregistry : registry.Sound) {root : Element}
    (hroot : root.Sound)
  (hapart : DefaultApart registry root)

include hregistry hroot hapart

/-- No attribute becomes a declaration, since one outside every namespace is not called `xmlns`. -/
theorem spell_ne_xmlns_of_apart {x : Element.Path × Element} (hx : x ∈ root.walk) {a : Attribute}
    (ha : a ∈ x.2.attributes) : spell (writtenScope registry root) a.1 ≠ "xmlns" := by
  intro hxmlns
  have hdeclarable := declarable_writtenScope hregistry hroot
  have hspells := (spellable_root hregistry hroot x hx).2 a ha
  obtain ⟨hpfx, hlocal⟩ := (spell_eq_xmlns_iff _ _).mp hxmlns
  have hspace : a.1.space = "" := by
    rcases (prefixOf_eq_empty_iff hdeclarable hspells).mp hpfx with hspace | hspace
    · exact hspace
    · exact hspace.trans ((defaultApart_iff.mp hapart x hx).2 a ha hspace)
  exact ((hroot x hx).attributes a ha).2.1 (by rw [← hspace, ← hlocal])

omit hapart in
/-- A prefix is a name if the names that are written under it can be read. -/
theorem isName_pfx_of_names (hnames : ∀ x ∈ root.walk,
    IsQName (spell (writtenScope registry root) x.2.name).toList ∧
      ∀ a ∈ x.2.attributes, IsQName (spell (writtenScope registry root) a.1).toList) :
    ∀ b ∈ declaredPrefixes registry root, b.pfx ≠ "" → IsName b.pfx.toList := by
  intro b hb hne
  have hb := mem_declaredPrefixes.mp hb
  have hdeclarable := declarable_writtenScope hregistry hroot
  have hspace : b.uri ∈ root.allSpaces :=
    (UsedPrefixes.mem_of_mem_foldl_meet hb).resolve_left List.not_mem_nil
  have hname : ∃ n : Name, n.space = b.uri ∧
    IsQName (spell (writtenScope registry root) n).toList := by
    obtain ⟨x, hx, hown⟩ := List.mem_flatMap.mp hspace
    rcases List.mem_cons.mp hown with huri | hmem
    · exact ⟨x.2.name, huri.symm, (hnames x hx).1⟩
    · obtain ⟨a, ha, huri⟩ := List.mem_map.mp hmem
      exact ⟨a.1, huri, (hnames x hx).2 a ha⟩
  obtain ⟨n, huri, hqname⟩ := hname
  have hpfx := prefixOf_of_mem hdeclarable (List.mem_append_left _ hb) huri
  have htoken : IsToken b.pfx.toList := by
    have hsound := (hdeclarable.sound b (List.mem_append_left _ hb)).1
    exact hsound.spelled.resolve_left hne
  have hspelled : (spell (writtenScope registry root) n).toList = b.pfx.toList ++
    ':' :: n.localName.toList := by
    rw [spell, hpfx, qualify, if_neg hne]
    simp
  rw [hspelled, ← isQName_iff, isQName_append (colon_notMem_of_isToken htoken),
    Bool.and_eq_true] at hqname
  exact (isName_iff _).mp hqname.1

/-- Every tag of a document whose default namespace is apart can be read if its names can. -/
theorem tagWritable_root_of_apart {x : Element.Path × Element} (hx : x ∈ root.walk)
    {ds : List Binding}
    (hpfxs : (ds.map (·.pfx)).Nodup) (hprefixes : ∀ b ∈ ds, b.pfx ≠ "" → IsName b.pfx.toList)
    (hnames : IsQName (spell (writtenScope registry root) x.2.name).toList ∧
      ∀ a ∈ x.2.attributes, IsQName (spell (writtenScope registry root) a.1).toList) :
    TagWritable (writtenScope registry root) ds x.2.name x.2.attributes :=
  tagWritable_of_apart (declarable_writtenScope hregistry hroot) hpfxs hprefixes hnames.1
    (spellable_root hregistry hroot x hx).2 (hroot x hx).distinct
    (fun _ ha hspace => hspace.trans ((defaultApart_iff.mp hapart x hx).2 _ ha hspace))
    (fun _ ha => spell_ne_xmlns_of_apart hregistry hroot hapart hx ha) hnames.2

/-- **A document whose default namespace is apart is well written** if all its names can be read. -/
theorem wellWritten_iff_of_apart : WellWritten registry root ↔ ∀ x ∈ root.walk,
    IsQName (spell (writtenScope registry root) x.2.name).toList ∧
      ∀ a ∈ x.2.attributes, IsQName (spell (writtenScope registry root) a.1).toList := by
  constructor
  · intro hwell x hx
    obtain ⟨ds, htag⟩ := hwell.exists_tag x hx
    exact htag.isQName
  · intro hnames
    have hnil := Element.nil_mem_walk root
    have hpfxs : ((declaredPrefixes registry root).map (·.pfx)).Nodup :=
      (((List.mergeSort_perm _ _).map _).nodup_iff).mpr
        (sound_usedPrefixes hregistry root).pfx_nodup
    refine ⟨tagWritable_root_of_apart hregistry hroot hapart hnil hpfxs
      (isName_pfx_of_names hregistry hroot hnames) (hnames _ hnil), ?_⟩
    have htags : root.Writable (writtenScope registry root) := fun x hx =>
      tagWritable_root_of_apart hregistry hroot hapart hx List.nodup_nil (List.forall_mem_nil _)
        (hnames x hx)
    generalize writtenScope registry root = ws at *
    obtain ⟨n, as, t, cs, tl⟩ := root
    exact (Element.writable_mk.mp htags).2

end Apart

/-! ## Documents outside every namespace -/

/-- **A tree outside every namespace.** -/
def Element.Bare (root : Element) : Prop := ∀ u ∈ root.allSpaces, u = ""

section Bare

variable {registry : PrefixRegistry} (hregistry : registry.Sound) {root : Element}
    (hbare : root.Bare)

include hregistry hbare

/-- Nothing is declared where there is no namespace. -/
theorem usedPrefixes_of_bare : usedPrefixes registry root = [] := by
  refine List.eq_nil_iff_forall_not_mem.mpr fun b hb => ?_
  have hspace := (UsedPrefixes.mem_of_mem_foldl_meet hb).resolve_left List.not_mem_nil
  exact ((sound_usedPrefixes hregistry root).spaces b hb).1 (hbare b.uri hspace)

theorem writtenDefault_of_bare : writtenDefault registry root = "" := by
  rw [writtenDefault, writtenScope, usedPrefixes_of_bare hregistry hbare]
  rfl

/-- Names are spelled as they are. -/
theorem spell_of_bare (hroot : root.Sound) {n : Name} (hn : n.space ∈ root.allSpaces) :
    spell (writtenScope registry root) n = n.localName := by
  rw [spell, prefixOf_of_space_eq (declarable_writtenScope hregistry hroot) (hbare _ hn),
    qualify, if_pos rfl]

/-- **A document outside every namespace is well written** exactly if its names are names. -/
theorem wellWritten_iff_of_bare (hroot : root.Sound) : WellWritten registry root ↔ ∀ x ∈ root.walk,
    IsQName x.2.name.localName.toList ∧ ∀ a ∈ x.2.attributes, IsQName a.1.localName.toList := by
  rw [wellWritten_iff_of_apart hregistry hroot (.inl (writtenDefault_of_bare hregistry hbare))]
  refine forall₂_congr fun x hx => ?_
  obtain ⟨hname, hattributes⟩ := Element.mem_allSpaces hx
  rw [spell_of_bare hregistry hbare hroot hname]
  refine and_congr_right fun _ => forall₂_congr fun a ha => ?_
  rw [spell_of_bare hregistry hbare hroot (hattributes a ha)]

end Bare

end StationNaming.Xml
