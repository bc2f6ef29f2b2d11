import Mathlib.Data.List.Perm.Basic
import StationNaming.Proofs.Xml.Rereading
/-!
# Parsing a saved document

A tree that a file can hold is written under a registry and parsed. Its namespaces are declared on
the root, and everything else follows from how names are spelled under these declarations.

**What is exact.** `parse?_write` covers every tree with sound labels, under every sound registry:
what is written can be parsed exactly if it is `WellWritten`, and then it is parsed as `rewritten`.
`read_write` says which prefixes are bound by it.
-/

namespace StationNaming.Xml

/-! ## Trees that a file can hold -/

/-- **A name that a file can hold.** -/
structure Name.Sound (n : Name) : Prop where
  token : IsToken n.localName.toList
  space : n.space = "" ∨ IsSpace n.space

/-- **A label that a file can hold**: no attribute stands twice, none is a declaration, and all
characters may stand in a document. -/
structure Label.Sound (l : Label) : Prop where
  name : l.name.Sound
  attributes : ∀ a ∈ l.attributes, a.1.Sound ∧ a.1 ≠ ⟨"", "xmlns"⟩ ∧ IsDocumentText a.2
  distinct : (l.attributes.map (·.1)).Nodup
  text : IsDocumentText l.text
  tail : IsDocumentText l.tail

namespace Element

/-- **A tree that a file can hold.** -/
def Sound (e : Element) : Prop := ∀ x ∈ e.walk, x.2.label.Sound

theorem sound_mk {n : Name} {as : List Attribute} {t : String} {cs : List Element} {tl : String} :
    Sound (.mk n as t cs tl) ↔ (⟨n, as, t, tl⟩ : Label).Sound ∧ ∀ c ∈ cs, Sound c :=
  @forall_mem_walk_mk (fun e => e.label.Sound) n as t cs tl

/-- The namespaces of all names are met. -/
theorem mem_allSpaces {root : Element} {x : Path × Element} (hx : x ∈ root.walk) :
    x.2.name.space ∈ root.allSpaces ∧ ∀ a ∈ x.2.attributes, a.1.space ∈ root.allSpaces := by
  have hown : ∀ u ∈ x.2.ownSpaces, u ∈ root.allSpaces :=
    fun u hu => List.mem_flatMap.mpr ⟨x, hx, hu⟩
  refine ⟨hown _ List.mem_cons_self, fun a ha => hown _ (List.mem_cons_of_mem _ ?_)⟩
  exact List.mem_map.mpr ⟨a, ha, rfl⟩

theorem Sound.isSpace {root : Element} (h : root.Sound) : ∀ u ∈ root.allSpaces, u ≠ "" →
    IsSpace u := by
  intro u hu hne
  obtain ⟨x, hx, hown⟩ := List.mem_flatMap.mp hu
  rcases List.mem_cons.mp hown with rfl | hmem
  · exact (h x hx).name.space.resolve_left hne
  · obtain ⟨a, ha, rfl⟩ := List.mem_map.mp hmem
    exact ((h x hx).attributes a ha).1.space.resolve_left hne

end Element

/-! ## Declarations on the root -/

/-- In a one-to-one scope a prefix has the namespace that it is bound to there. -/
theorem Scope.find?_eq_some_iff {scope : Scope} (h : (scope.map (·.pfx)).Nodup) {pfx uri : String} :
    scope.find? pfx = some uri ↔ (⟨pfx, uri⟩ : Binding) ∈ scope ∧ uri ≠ "" := by
  induction scope with
  | nil => simp [Scope.find?]
  | cons b scope ih =>
    obtain ⟨hnew, hnodup⟩ := List.nodup_cons.mp h
    rw [find?_cons, List.mem_cons]
    by_cases hpfx : b.pfx = pfx
    · have hnotMem : (⟨pfx, uri⟩ : Binding) ∉ scope :=
        fun hmem => hnew (List.mem_map.mpr ⟨_, hmem, hpfx.symm⟩)
      have hhead : (⟨pfx, uri⟩ : Binding) = b ↔ uri = b.uri := by
        rw [← hpfx]
        exact ⟨congrArg Binding.uri, fun huri => huri ▸ rfl⟩
      rw [if_pos hpfx, hhead, or_iff_left hnotMem, Option.ite_none_left_eq_some, Option.some_inj]
      constructor
      · rintro ⟨hne, rfl⟩
        exact ⟨rfl, hne⟩
      · rintro ⟨rfl, hne⟩
        exact ⟨hne, rfl⟩
    · have hhead : (⟨pfx, uri⟩ : Binding) ≠ b := fun heq => hpfx (heq ▸ rfl)
      rw [if_neg hpfx, ih hnodup, or_iff_right hhead]

/-- The order of bindings does not matter in a one-to-one scope. -/
theorem Scope.find?_of_perm {scope scope' : Scope} (h : (scope'.map (·.pfx)).Nodup)
    (hperm : List.Perm scope scope') (pfx : String) : scope.find? pfx = scope'.find? pfx := by
  have h' : (scope.map (·.pfx)).Nodup := ((hperm.map _).nodup_iff).mpr h
  ext uri
  rw [Scope.find?_eq_some_iff h', Scope.find?_eq_some_iff h, hperm.mem_iff]

/-- **The prefixes that are declared on the root**, in the order in which they stand. -/
def declaredPrefixes (registry : PrefixRegistry) (root : Element) : List Binding :=
  (usedPrefixes registry root).mergeSort fun a b =>
    Unicode.codeLe (Unicode.codes a.pfx) (Unicode.codes b.pfx)

theorem mem_declaredPrefixes {registry : PrefixRegistry} {root : Element} {b : Binding} :
    b ∈ declaredPrefixes registry root ↔ b ∈ usedPrefixes registry root := List.mem_mergeSort

theorem writtenBindings_usedPrefixes (registry : PrefixRegistry) (root : Element) :
    writtenBindings (usedPrefixes registry root) =
      writtenAttributes (declarations (declaredPrefixes registry root)) := by
  rw [writtenBindings, writtenAttributes, declarations, declaredPrefixes, List.map_map]
  rfl

/-- **The default namespace of a written document.** -/
def writtenDefault (registry : PrefixRegistry) (root : Element) : String :=
  Scope.default (writtenScope registry root)

section Root

variable {registry : PrefixRegistry} (hregistry : registry.Sound) {root : Element}

include hregistry

theorem find?_root (pfx : String) :
    Scope.find? ((declaredPrefixes registry root).reverse ++ Scope.initial) pfx =
      Scope.find? (writtenScope registry root) pfx := by
  refine Scope.find?_of_perm (nodup_pfx_writtenScope hregistry root) ?_ pfx
  exact ((List.reverse_perm _).trans (List.mergeSort_perm _ _)).append_right _

theorem default_root :
    Scope.default ((declaredPrefixes registry root).reverse ++ Scope.initial) =
      writtenDefault registry root := by
  rw [Scope.default, find?_root hregistry]
  rfl

variable (hroot : root.Sound)

include hroot

/-- **The prefixes of a written document** can all be declared. -/
theorem declarable_writtenScope : Declarable (writtenScope registry root) where
  sound := by
    intro b hb
    rcases List.mem_append.mp hb with hb | hb
    · exact ⟨sound_of_mem_usedPrefixes hregistry root hroot.isSpace hb,
        ((sound_usedPrefixes hregistry root).spaces b hb).1⟩
    · rw [List.mem_singleton.mp hb]
      exact ⟨(hregistry.bindings _ hregistry.xml_mem).1, by decide⟩
  pfx_nodup := nodup_pfx_writtenScope hregistry root
  uri_nodup := nodup_uri_writtenScope hregistry root

theorem knows_root :
    Knows (writtenScope registry root)
    ((declaredPrefixes registry root).reverse ++ Scope.initial) := by
  intro b hb _
  have hdeclarable := declarable_writtenScope hregistry hroot
  rw [find?_root hregistry, Scope.find?_eq_some_iff hdeclarable.pfx_nodup]
  exact ⟨hb, (hdeclarable.sound b hb).2⟩

theorem faultless_declaredPrefixes : ∀ b ∈ declaredPrefixes registry root, b.fault? = none := by
  intro b hb
  have hmem : b ∈ writtenScope registry root := List.mem_append_left _ (mem_declaredPrefixes.mp hb)
  exact ((declarable_writtenScope hregistry hroot).sound b hmem).1.faultless

/-! ## Names of the tree -/

omit hroot in
theorem spells_of_mem_allSpaces {n : Name} (hn : n.Sound) (hmem : n.space ∈ root.allSpaces) :
    Spells (writtenScope registry root) n where
  token := hn.token
  declared := by
    refine or_iff_not_imp_left.mpr fun hne => ?_
    obtain ⟨b, hb, huri, -⟩ := exists_writtenName_eq hregistry root hmem hne
    exact ⟨b, hb, huri⟩

/-- **Names are written as they are spelled.** -/
theorem writtenName_eq_spell {n : Name} (hmem : n.space ∈ root.allSpaces) :
    writtenName registry (usedPrefixes registry root) n = spell (writtenScope registry root) n := by
  have hdeclarable := declarable_writtenScope hregistry hroot
  by_cases hne : n.space = ""
  · rw [writtenName, if_pos hne, spell, prefixOf_of_space_eq hdeclarable hne, qualify, if_pos rfl]
  · obtain ⟨b, hb, huri, hname⟩ := exists_writtenName_eq hregistry root hmem hne
    rw [hname, spell, prefixOf_of_mem hdeclarable hb huri.symm]

theorem spellable_root : root.Spellable (writtenScope registry root) := by
  intro x hx
  obtain ⟨hname, hattributes⟩ := Element.mem_allSpaces hx
  have hlabel := hroot x hx
  exact ⟨spells_of_mem_allSpaces hregistry hlabel.name hname, fun a ha =>
    spells_of_mem_allSpaces hregistry (hlabel.attributes a ha).1 (hattributes a ha)⟩

end Root

/-! ## Markup of a tree -/

mutual

/-- Markup depends on how the names in the tree are written. -/
theorem markup_congr {f g : Name → String} (ds : List WrittenAttribute) : (e : Element) →
    (∀ x ∈ e.walk, f x.2.name = g x.2.name ∧ ∀ a ∈ x.2.attributes, f a.1 = g a.1) →
      e.markup f ds = e.markup g ds
  | .mk n as t cs tl, h => by
    obtain ⟨⟨hn, has⟩, hcs⟩ := (@Element.forall_mem_walk_mk
      (fun e => f e.name = g e.name ∧ ∀ a ∈ e.attributes, f a.1 = g a.1) n as t cs tl).mp h
    have hn : f n = g n := hn
    have hattributes : (as.map fun a => (f a.1, a.2)) = as.map fun a => (g a.1, a.2) :=
      List.map_congr_left fun a ha => by rw [has a ha]
    rw [Element.markup, Element.markup, hn, hattributes, markups_congr cs hcs]

theorem markups_congr {f g : Name → String} : (cs : List Element) →
    (∀ c ∈ cs, ∀ x ∈ c.walk, f x.2.name = g x.2.name ∧ ∀ a ∈ x.2.attributes, f a.1 = g a.1) →
      Element.markups f cs = Element.markups g cs
  | [], _ => rfl
  | c :: cs, h => by
    obtain ⟨hc, hcs⟩ := List.forall_mem_cons.mp h
    rw [Element.markups, Element.markups, markup_congr [] c hc, markups_congr cs hcs]

end

/-- What stands in a start tag is legible, and its names are runs of name characters. -/
def SpelledAttributes (as : List WrittenAttribute) : Prop :=
  ∀ a ∈ as, IsQToken a.1.toList ∧ IsDocumentText a.2

theorem spelledAttributes_declarations {ds : List Binding} (h : ∀ b ∈ ds, b.Sound) :
    SpelledAttributes (declarations ds) := by
  intro a ha
  obtain ⟨b, hb, rfl⟩ := List.mem_map.mp ha
  refine ⟨?_, (h b hb).legible⟩
  show IsQToken (declaredName b).toList
  have hxmlns : IsToken "xmlns".toList := ⟨by decide, List.all_eq_true.mp (by decide)⟩
  rw [declaredName]
  split_ifs with hpfx
  · exact .inl hxmlns
  · exact .inr ⟨"xmlns".toList, b.pfx.toList, by simp, hxmlns, (h b hb).spelled.resolve_left hpfx⟩

mutual

/-- **A tree that a file can hold is spelled.** -/
theorem spelled_markup {ws : List Binding} (hws : Declarable ws) {ds : List WrittenAttribute}
    (hds : SpelledAttributes ds) : (e : Element) → e.Sound → e.Spellable ws →
      (e.markup (spell ws) ds).Spelled
  | .mk n as t cs tl, hsound, hspell => by
    obtain ⟨hlabel, hcs⟩ := Element.sound_mk.mp hsound
    obtain ⟨⟨hn, has⟩, hspells⟩ := Element.spellable_mk.mp hspell
    refine ⟨isQToken_spell hws hn, ?_, hlabel.text, hlabel.tail,
      spelledAll_markups hws cs hcs hspells⟩
    intro a ha
    rcases List.mem_append.mp ha with ha | ha
    · exact hds a ha
    · obtain ⟨b, hb, rfl⟩ := List.mem_map.mp ha
      exact ⟨isQToken_spell hws (has b hb), (hlabel.attributes b hb).2.2⟩

theorem spelledAll_markups {ws : List Binding} (hws : Declarable ws) : (cs : List Element) →
    (∀ c ∈ cs, c.Sound) → (∀ c ∈ cs, c.Spellable ws) →
      Markup.SpelledAll (Element.markups (spell ws) cs)
  | [], _, _ => trivial
  | c :: cs, hsound, hspell => by
    obtain ⟨hc, hcs⟩ := List.forall_mem_cons.mp hsound
    obtain ⟨hspellc, hspells⟩ := List.forall_mem_cons.mp hspell
    exact ⟨spelled_markup hws (List.forall_mem_nil _) c hc hspellc,
      spelledAll_markups hws cs hcs hspells⟩

end

mutual

/-- Only the default namespace is set inside a written element. -/
theorem pfx_of_mem_bindings {ws : List Binding} (hws : Declarable ws) (ds : List Binding) :
    (e : Element) → e.Spellable ws → ∀ b ∈ (e.markup (spell ws) (declarations ds)).bindings,
      b ∈ ds ∨ b.pfx = ""
  | .mk n as t cs tl, hspell, b, hb => by
    obtain ⟨⟨-, has⟩, hspells⟩ := Element.spellable_mk.mp hspell
    rw [Element.markup_mk, Markup.bindings, bindingsOf_append, bindingsOf_declarations,
      bindingsOf_spelled hws has, List.append_assoc] at hb
    rcases List.mem_append.mp hb with hb | hb
    · exact .inl hb
    · rcases List.mem_append.mp hb with hb | hb
      · obtain ⟨a, -, rfl⟩ := List.mem_map.mp hb
        exact .inr rfl
      · exact .inr (pfx_of_mem_bindingsAll hws cs hspells b hb)

theorem pfx_of_mem_bindingsAll {ws : List Binding} (hws : Declarable ws) : (cs : List Element) →
    (∀ c ∈ cs, c.Spellable ws) → ∀ b ∈ Markup.bindingsAll (Element.markups (spell ws) cs), b.pfx =
      ""
  | [], _, b, hb => absurd hb List.not_mem_nil
  | c :: cs, hspell, b, hb => by
    obtain ⟨hc, hcs⟩ := List.forall_mem_cons.mp hspell
    rw [Element.markups, Markup.bindingsAll] at hb
    rcases List.mem_append.mp hb with hb | hb
    · exact (pfx_of_mem_bindings hws [] c hc b hb).resolve_left List.not_mem_nil
    · exact pfx_of_mem_bindingsAll hws cs hcs b hb

end

/-! ## The whole document -/

/-- **A document whose start tags can all be read.** -/
structure WellWritten (registry : PrefixRegistry) (root : Element) : Prop where
  tag : TagWritable (writtenScope registry root) (declaredPrefixes registry root) root.name
    root.attributes
  below : ∀ c ∈ root.children, c.Writable (writtenScope registry root)

/-- Every tag of a well-written document can be read, that of the root with the declarations. -/
theorem WellWritten.exists_tag {registry : PrefixRegistry} {root : Element}
    (h : WellWritten registry root) :
    ∀ x ∈ root.walk, ∃ ds, TagWritable (writtenScope registry root) ds x.2.name x.2.attributes := by
  obtain ⟨htag, hbelow⟩ := h
  generalize writtenScope registry root = ws at *
  obtain ⟨n, as, t, cs, tl⟩ := root
  exact (@Element.forall_mem_walk_mk (fun e => ∃ ds, TagWritable ws ds e.name e.attributes) n as
    t cs tl).mpr
    ⟨⟨_, htag⟩, fun c hc x hx => ⟨[], hbelow c hc x hx⟩⟩

/-- **In a well-written document the attributes of every tag are spelled differently.** -/
theorem WellWritten.nodup_spelled {registry : PrefixRegistry} {root : Element}
    (h : WellWritten registry root) :
    ∀ x ∈ root.walk, ((spelled (writtenScope registry root) x.2.attributes).map (·.1)).Nodup := by
  intro x hx
  obtain ⟨ds, htag⟩ := h.exists_tag x hx
  have hdistinct := htag.distinct
  rw [List.map_append] at hdistinct
  exact (List.nodup_append.mp hdistinct).2.1

/-- **The tree that a written document is parsed as.** -/
def rewritten (registry : PrefixRegistry) (root : Element) : Element :=
  root.reread (writtenScope registry root) (writtenDefault registry root)

section Document

variable {registry : PrefixRegistry} (hregistry : registry.Sound) {root : Element}
    (hroot : root.Sound)
  (htail : root.tail = "")

/-- The markup of a written document. -/
def writtenMarkup (registry : PrefixRegistry) (root : Element) : Markup :=
  root.markup (spell (writtenScope registry root)) (declarations (declaredPrefixes registry root))

include hregistry hroot

theorem element?_writtenMarkup (t : Element) :
    (writtenMarkup registry root).element? Scope.initial = some t ↔
      WellWritten registry root ∧ t = rewritten registry root := by
  have hdeclarable := declarable_writtenScope hregistry hroot
  have hspell := spellable_root hregistry hroot
  have hknows := knows_root hregistry hroot
  have hds := faultless_declaredPrefixes hregistry hroot
  have hwell : WellWritten registry root ↔ TagWritable (writtenScope registry root)
      (declaredPrefixes registry root) root.name root.attributes ∧
        ∀ c ∈ root.children, c.Writable (writtenScope registry root) :=
    ⟨fun h => ⟨h.tag, h.below⟩, fun h => ⟨h.1, h.2⟩⟩
  rw [hwell, rewritten, ← default_root hregistry, writtenMarkup]
  generalize writtenScope registry root = ws at *
  generalize declaredPrefixes registry root = ds at *
  obtain ⟨n, as, tx, cs, tl⟩ := root
  obtain ⟨⟨hn, has⟩, hcs⟩ := Element.spellable_mk.mp hspell
  exact element?_markup_mk hdeclarable hds hknows hn has tx tl
    (elements?_markups hdeclarable cs hcs) t

theorem spelled_writtenMarkup : (writtenMarkup registry root).Spelled := by
  have hdeclarable := declarable_writtenScope hregistry hroot
  refine spelled_markup hdeclarable ?_ root hroot (spellable_root hregistry hroot)
  refine spelledAttributes_declarations fun b hb => ?_
  exact (hdeclarable.sound b (List.mem_append_left _ (mem_declaredPrefixes.mp hb))).1

include htail

/-- **What is written** is the XML declaration and the markup. -/
theorem exists_write_eq : ∃ s, write registry root = writtenDeclaration ++ s ∧
    glyphs s.toList = (writtenMarkup registry root).glyphs := by
  refine ⟨_, rfl, ?_⟩
  have hnames : root.markup (writtenName registry (usedPrefixes registry root))
      (declarations (declaredPrefixes registry root)) = writtenMarkup registry root := by
    refine markup_congr _ root fun x hx => ?_
    obtain ⟨hname, hattributes⟩ := Element.mem_allSpaces hx
    exact ⟨writtenName_eq_spell hregistry hroot hname, fun a ha =>
      writtenName_eq_spell hregistry hroot (hattributes a ha)⟩
  rw [writtenBindings_usedPrefixes, glyphs_writeElement, hnames, htail]
  exact List.append_nil _

/-- **Parsing what was written** gives the tree that it says, or nothing. -/
theorem parse?_write (t : Element) : parse? (write registry root).toUTF8.toList = some t ↔
    WellWritten registry root ∧ t = rewritten registry root := by
  obtain ⟨s, hs, hglyphs⟩ := exists_write_eq hregistry hroot htail
  rw [hs, parse?_written (spelled_writtenMarkup hregistry hroot) hglyphs]
  exact element?_writtenMarkup hregistry hroot t

/-- **Reading what was written** binds the prefixes that were declared and, besides, at most the
empty one. -/
theorem read_write_of_wellWritten (h : WellWritten registry root) :
    ∃ es taken, read (write registry root).toUTF8.toList = ⟨es, none, taken⟩ ∧
      Element.ofEvents? es = some (rewritten registry root) ∧
      (∀ b ∈ usedPrefixes registry root, b ∈ bindingsIn es) ∧
      ∀ b ∈ bindingsIn es, b ∈ usedPrefixes registry root ∨ b.pfx = "" := by
  obtain ⟨s, hs, hglyphs⟩ := exists_write_eq hregistry hroot htail
  have helement := (element?_writtenMarkup hregistry hroot _).mpr ⟨h, rfl⟩
  have hread := read_written (spelled_writtenMarkup hregistry hroot) hglyphs
  rw [helement] at hread
  obtain ⟨es, taken, hes, htree, hbindings⟩ := hread
  refine ⟨es, taken, hs ▸ hes, htree, ?_, ?_⟩
  · intro b hb
    rw [hbindings]
    obtain ⟨n, as, tx, cs, tl⟩ := root
    rw [writtenMarkup, Element.markup_mk, Markup.bindings, bindingsOf_append,
      bindingsOf_declarations]
    exact List.mem_append_left _ (List.mem_append_left _ (mem_declaredPrefixes.mpr hb))
  · intro b hb
    rw [hbindings] at hb
    refine (pfx_of_mem_bindings (declarable_writtenScope hregistry hroot) _ root
      (spellable_root hregistry hroot) b hb).imp_left mem_declaredPrefixes.mp

end Document

end StationNaming.Xml
