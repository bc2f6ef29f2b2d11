import StationNaming.Proofs.Xml.Parsed
/-!
# What a written document depends on

A document is written under the prefixes that a registry has for the namespaces of its names.
Nothing else of the registry shows in the text, and each of these prefixes does: they are declared
on the root, and which declarations were written can be told from the text, also where the text
cannot be parsed.

**What is exact.** `write_eq_write_iff` covers every tree that a file can hold, under any two sound
registries.
-/

namespace StationNaming.Xml

/-! ## Attributes told from their glyphs -/

theorem glyphs_injective : Function.Injective glyphs :=
  List.map_injective_iff.mpr fun _ _ => Glyph.char.inj

/-- A name holds no character that ends names. -/
theorem notMem_glyphs_of_endsName {c : Char} (hc : EndsName c) {cs : List Char} (h : IsQToken cs) :
    Glyph.char c ∉ glyphs cs := by
  have htoken : ∀ {ds : List Char}, IsToken ds → c ∉ ds := by
    intro ds hds hmem
    have hname := hds.2 c hmem
    rw [hc.1] at hname
    cases hname
  intro hmem
  obtain ⟨d, hd, heq⟩ := List.mem_map.mp hmem
  obtain rfl : d = c := Glyph.char.inj heq
  rcases h with h | ⟨p, l, rfl, hp, hl⟩
  · exact htoken h hd
  · rcases List.mem_append.mp hd with hd | hd
    · exact htoken hp hd
    · exact (List.mem_cons.mp hd).elim hc.2 (htoken hl)

/-- **A written value can be told** from its glyphs, whatever follows its closing quote. -/
theorem valueGlyphs_append_inj {value value' : String} {more more' : List Glyph}
    (h : valueGlyphs value.toList ++ .char '"' :: more = valueGlyphs value'.toList ++
      .char '"' :: more') :
    value = value' ∧ more = more' := by
  have hscan := congrArg (scanValue '"') h
  rw [scanValue_valueGlyphs, scanValue_valueGlyphs, Except.ok.injEq, Prod.mk.injEq,
    List.cons.injEq] at hscan
  obtain ⟨hvalue, -, hmore⟩ := hscan
  have hread := congrArg (attributeValue {} false) hvalue
  rw [← toList_escapeValue, ← toList_escapeValue, attributeValue_escapeValue rfl,
    attributeValue_escapeValue rfl] at hread
  exact ⟨Except.ok.inj hread, hmore⟩

/-- **A written attribute can be told** from its glyphs, whatever follows it. -/
theorem attributeGlyphs_append_inj {a b : WrittenAttribute} (ha : IsQToken a.1.toList)
    (hb : IsQToken b.1.toList) {more more' : List Glyph}
    (h : attributeGlyphs a ++ more = attributeGlyphs b ++ more') : a = b ∧ more = more' := by
  simp only [attributeGlyphs, List.cons_append, List.append_assoc, List.nil_append, List.cons.injEq,
    true_and] at h
  obtain ⟨hname, hrest⟩ := append_cons_inj (notMem_glyphs_of_endsName endsName_equals ha)
    (notMem_glyphs_of_endsName endsName_equals hb) h
  obtain ⟨hvalue, hmore⟩ := valueGlyphs_append_inj (List.cons.inj hrest).2
  exact ⟨Prod.ext (String.toList_injective (glyphs_injective hname)) hvalue, hmore⟩

/-- As many written attributes can be told from their glyphs, whatever follows them. -/
theorem attributesGlyphs_append_inj {as bs : List WrittenAttribute}
    (ha : ∀ a ∈ as, IsQToken a.1.toList)
    (hb : ∀ b ∈ bs, IsQToken b.1.toList) (hlength : as.length = bs.length) {more more' : List Glyph}
    (h : attributesGlyphs as ++ more = attributesGlyphs bs ++ more') : as = bs := by
  induction as generalizing bs with
  | nil => exact (List.length_eq_zero_iff.mp hlength.symm).symm
  | cons a as ih =>
    obtain ⟨b, bs, rfl⟩ := List.exists_cons_of_length_eq_add_one hlength.symm
    rw [attributesGlyphs_cons, attributesGlyphs_cons, List.append_assoc, List.append_assoc] at h
    obtain ⟨ha, has⟩ := List.forall_mem_cons.mp ha
    obtain ⟨hb, hbs⟩ := List.forall_mem_cons.mp hb
    obtain ⟨rfl, hrest⟩ := attributeGlyphs_append_inj ha hb h
    rw [ih has hbs (Nat.succ.inj hlength) hrest]

/-- **The attributes of a written tag can be told** from its glyphs, if there are as many. -/
theorem attributes_eq_of_tag_eq {tag tag' : String} (htag : IsQToken tag.toList)
    (htag' : IsQToken tag'.toList)
    {as bs : List WrittenAttribute} (ha : ∀ a ∈ as, IsQToken a.1.toList)
    (hb : ∀ b ∈ bs, IsQToken b.1.toList)
    (hlength : as.length = bs.length) {more more' : List Glyph}
    (h : glyphs tag.toList ++ (attributesGlyphs as ++ more) =
      glyphs tag'.toList ++ (attributesGlyphs bs ++ more')) : as = bs := by
  cases as with
  | nil => exact (List.length_eq_zero_iff.mp hlength.symm).symm
  | cons a as =>
    obtain ⟨b, bs, rfl⟩ := List.exists_cons_of_length_eq_add_one hlength.symm
    have hblank : ∀ (a : WrittenAttribute) (as : List WrittenAttribute) (more : List Glyph),
        ∃ after, attributesGlyphs (a :: as) ++ more = .char ' ' :: after := fun _ _ _ => ⟨_, rfl⟩
    obtain ⟨after, hafter⟩ := hblank a as more
    obtain ⟨after', hafter'⟩ := hblank b bs more'
    rw [hafter, hafter'] at h
    -- Both names end at the blank before the first attribute.
    obtain ⟨-, hsame⟩ := append_cons_inj (notMem_glyphs_of_endsName endsName_space htag)
      (notMem_glyphs_of_endsName endsName_space htag') h
    exact attributesGlyphs_append_inj ha hb hlength (by rw [hafter, hafter', hsame])

/-! ## Prefixes told from the namespaces -/

section Meeting

variable {registry : PrefixRegistry} (hregistry : registry.Sound)

include hregistry

/-- **Which namespaces are met** does not depend on the registry. -/
theorem UsedPrefixes.map_uri_meet (used : UsedPrefixes) (uri : String) :
    (meet registry used uri).map (·.uri) =
      if uri = "" ∨ uri = xmlNamespace ∨ uri ∈ used.map (·.uri) then used.map (·.uri)
      else used.map (·.uri) ++ [uri] := by
  rcases meet_cases registry used uri with ⟨heq, hmet⟩ | ⟨pfx, heq, hne, hnew, hpfx, hfind⟩
  · rw [heq, if_pos]
    rcases hmet with hempty | ⟨b, hb, huri⟩ | hfind
    · exact .inl hempty
    · exact .inr (.inr (List.mem_map.mpr ⟨b, hb, huri⟩))
    · exact .inr (.inl (hregistry.find?_eq_xml_iff.mp hfind))
  · rw [heq, if_neg, List.map_append, List.map_singleton]
    rintro (hempty | hxml | hmem)
    · exact hne hempty
    · rw [hregistry.find?_eq_xml_iff.mpr hxml] at hfind
      rcases hfind with hfound | ⟨hnone, -⟩
      · exact hpfx (Option.some.inj hfound).symm
      · cases hnone
    · obtain ⟨b, hb, huri⟩ := List.mem_map.mp hmem
      exact hnew b hb huri

theorem UsedPrefixes.map_uri_foldl_meet (uris : List String) (used : UsedPrefixes) :
    (uris.foldl (meet registry) used).map (·.uri) = uris.foldl (fun met uri =>
      if uri = "" ∨ uri = xmlNamespace ∨ uri ∈ met then met else met ++
        [uri]) (used.map (·.uri)) := by
  rw [List.foldl_hom (List.map (·.uri)) fun used uri => (map_uri_meet hregistry used uri).symm]

end Meeting

/-- **Registries that have the same prefixes** for the namespaces of a tree give them the same in
writing. -/
theorem usedPrefixes_congr {registry registry' : PrefixRegistry} {root : Element}
    (h : ∀ u ∈ root.allSpaces, u ≠ "" → registry.find? u = registry'.find? u) :
    usedPrefixes registry root = usedPrefixes registry' root := by
  refine List.foldl_ext _ _ _ fun used uri huri => ?_
  by_cases hne : uri = ""
  · simp [UsedPrefixes.meet, hne]
  · rw [UsedPrefixes.meet, UsedPrefixes.meet, h uri huri hne]

/-- A written document starts with the tag of its root, which goes on with the declarations. -/
theorem exists_glyphs_writtenMarkup (registry : PrefixRegistry) (root : Element) :
    ∃ rest, (writtenMarkup registry root).glyphs =
      .char '<' :: (glyphs (spell (writtenScope registry root) root.name).toList ++
        (attributesGlyphs (declarations (declaredPrefixes registry root)) ++ rest)) := by
  obtain ⟨tag, as, t, cs, tl, isEmpty, more, hmarkup, hglyphs⟩ :=
    exists_glyphs_eq (writtenMarkup registry root)
  have hroot : writtenMarkup registry root = .mk (spell (writtenScope registry root) root.name)
      (declarations (declaredPrefixes registry root) ++ spelled (writtenScope registry root)
        root.attributes)
      root.text (Element.markups (spell (writtenScope registry root)) root.children) root.tail := by
    cases root
    rfl
  obtain ⟨rfl, rfl, -⟩ := Markup.mk.inj (hmarkup.symm.trans hroot)
  rw [hglyphs, startTagGlyphs, attributesGlyphs, List.flatMap_append, List.append_assoc,
    List.append_assoc, List.append_assoc]
  exact ⟨_, rfl⟩

section Two

variable {registry registry' : PrefixRegistry} (hregistry : registry.Sound)
    (hregistry' : registry'.Sound)
  {root : Element}

include hregistry hregistry'

/-- As many prefixes are declared under every sound registry. -/
theorem length_declaredPrefixes_eq (root : Element) :
    (declaredPrefixes registry root).length = (declaredPrefixes registry' root).length := by
  have huris := (UsedPrefixes.map_uri_foldl_meet hregistry root.allSpaces []).trans
    (UsedPrefixes.map_uri_foldl_meet hregistry' root.allSpaces []).symm
  have hlength := congrArg List.length huris
  rw [List.length_map, List.length_map] at hlength
  rw [declaredPrefixes, declaredPrefixes, List.length_mergeSort, List.length_mergeSort]
  exact hlength

/-- **A namespace that is declared alike has the same prefix in both registries**, or none in both,
since no registered prefix is a made-up one. -/
theorem find?_eq_of_usedPrefixes {u : String} (hu : u ∈ root.allSpaces) (hne : u ≠ "")
    (h : ∀ b, b ∈ usedPrefixes registry root ↔ b ∈ usedPrefixes registry' root) :
    registry.find? u = registry'.find? u := by
  by_cases hxml : u = xmlNamespace
  · rw [hregistry.find?_eq_xml_iff.mpr hxml, hregistry'.find?_eq_xml_iff.mpr hxml]
  · obtain ⟨b, hb, rfl⟩ := UsedPrefixes.exists_mem_foldl_meet hregistry hu hne hxml []
    have hpfx := (sound_usedPrefixes hregistry root).prefixes b hb
    have hpfx' := (sound_usedPrefixes hregistry' root).prefixes b ((h b).mp hb)
    rcases hpfx with hfind | ⟨hnone, k, -, hinvented⟩
    · rcases hpfx' with hfind' | ⟨-, k, -, hinvented⟩
      · rw [hfind, hfind']
      · exact absurd (hinvented ▸ hfind) (hregistry.find?_ne_inventedPrefix _ k)
    · rcases hpfx' with hfind' | ⟨hnone', -⟩
      · exact absurd (hinvented ▸ hfind') (hregistry'.find?_ne_inventedPrefix _ k)
      · rw [hnone, hnone']

variable (hroot : root.Sound)

include hroot

/-- **Texts that are equal declare the same prefixes.** -/
theorem declaredPrefixes_eq_of_glyphs_eq
    (h : (writtenMarkup registry root).glyphs = (writtenMarkup registry' root).glyphs) :
    declaredPrefixes registry root = declaredPrefixes registry' root := by
  have hnames : ∀ {r : PrefixRegistry}, r.Sound →
      IsQToken (spell (writtenScope r root) root.name).toList ∧
        ∀ a ∈ declarations (declaredPrefixes r root), IsQToken a.1.toList := by
    intro r hr
    have hdeclarable := declarable_writtenScope hr hroot
    refine ⟨isQToken_spell hdeclarable (spellable_root hr hroot _ (Element.nil_mem_walk root)).1,
      fun a ha => ?_⟩
    exact (spelledAttributes_declarations (fun b hb =>
      (hdeclarable.sound b (List.mem_append_left _ (mem_declaredPrefixes.mp hb))).1) a ha).1
  obtain ⟨rest, hglyphs⟩ := exists_glyphs_writtenMarkup registry root
  obtain ⟨rest', hglyphs'⟩ := exists_glyphs_writtenMarkup registry' root
  rw [hglyphs, hglyphs'] at h
  have hlength : (declarations (declaredPrefixes registry root)).length =
      (declarations (declaredPrefixes registry' root)).length := by
    rw [declarations, declarations, List.length_map, List.length_map]
    exact length_declaredPrefixes_eq hregistry hregistry' root
  have hdeclarations :=
    attributes_eq_of_tag_eq (hnames hregistry).1 (hnames hregistry').1 (hnames hregistry).2
    (hnames hregistry').2 hlength (List.cons.inj h).2
  have hbindings := congrArg bindingsOf hdeclarations
  rwa [bindingsOf_declarations, bindingsOf_declarations] at hbindings

variable (htail : root.tail = "")

include htail

/-- **What a written document depends on**: the prefixes that are registered for the namespaces of
its names. -/
theorem write_eq_write_iff :
    write registry root = write registry' root ↔
      ∀ u ∈ root.allSpaces, u ≠ "" → registry.find? u = registry'.find? u := by
  obtain ⟨s, hs, hglyphs⟩ := exists_write_eq hregistry hroot htail
  obtain ⟨s', hs', hglyphs'⟩ := exists_write_eq hregistry' hroot htail
  constructor
  · intro hwrite u hu hne
    have htext : s = s' := by
      rw [hs, hs'] at hwrite
      exact (String.append_right_inj _).mp hwrite
    have hmarkup := declaredPrefixes_eq_of_glyphs_eq hregistry hregistry' hroot
      (hglyphs.symm.trans (htext ▸ hglyphs'))
    refine find?_eq_of_usedPrefixes hregistry hregistry' hu hne fun b => ?_
    rw [← mem_declaredPrefixes, hmarkup, mem_declaredPrefixes]
  · intro hsame
    -- The markup depends on the prefixes in use only.
    have hmarkup : writtenMarkup registry root = writtenMarkup registry' root := by
      rw [writtenMarkup, writtenMarkup, writtenScope, writtenScope, declaredPrefixes,
        declaredPrefixes, usedPrefixes_congr hsame]
    rw [← hmarkup, ← hglyphs] at hglyphs'
    rw [hs, hs', String.toList_injective (glyphs_injective hglyphs')]

end Two

end StationNaming.Xml
