import StationNaming.Proofs.Keyed
import StationNaming.Proofs.Xml.Parsed
/-!
# A saved document, place by place

A written tree is parsed as one of the same shape. At every place the texts have their line ends
made line feeds, the names are those that the declarations on the root say, and the attributes that
became declarations are missing.

**What is exact.** `forall₂_walk_rewritten` covers every tree whose names can be spelled. Which
default namespace an element is read under is told as a property that all defaults in force share.
-/

namespace StationNaming.Xml

/-! ## Places -/

/-- **What is parsed at a place**, under a default namespace with some property. -/
structure RereadAt (ws : List Binding) (D : String → Prop) (x y : Element.Path × Element) :
    Prop where
  path_eq : y.1 = x.1
  name_eq : ∃ dflt, D dflt ∧ y.2.name = asElement ws dflt x.2.name
  attributes_eq : y.2.attributes = readAttributes ws x.2.attributes
  text_eq : y.2.text = normalText x.2.text
  tail_eq : y.2.tail = normalText x.2.tail

theorem RereadAt.localName_eq {ws : List Binding} {D : String → Prop} {x y : Element.Path × Element}
    (h : RereadAt ws D x y) : y.2.localName = x.2.localName := by
  obtain ⟨dflt, -, hname⟩ := h.name_eq
  rw [Element.localName, hname, localName_asElement]
  rfl

/-- Every default namespace that is set in a tree has some property. -/
def SetsDefaults (ws : List Binding) (D : String → Prop) (e : Element) : Prop :=
  ∀ x ∈ e.walk, ∀ a ∈ x.2.attributes, spell ws a.1 = "xmlns" → D a.2

theorem setsDefaults_mk {ws : List Binding} {D : String → Prop} {n : Name} {as : List Attribute}
    {t : String} {cs : List Element} {tl : String} : SetsDefaults ws D (.mk n as t cs tl) ↔
      (∀ a ∈ as, spell ws a.1 = "xmlns" → D a.2) ∧ ∀ c ∈ cs, SetsDefaults ws D c :=
  @Element.forall_mem_walk_mk (fun e => ∀ a ∈ e.attributes, spell ws a.1 = "xmlns" → D a.2)
    n as t cs tl

theorem innerDefault_spec {ws : List Binding} {D : String → Prop} {as : List Attribute}
    (has : ∀ a ∈ as, spell ws a.1 = "xmlns" → D a.2) {dflt : String} (h : D dflt) :
    D (innerDefault ws dflt as) := by
  induction as generalizing dflt with
  | nil => exact h
  | cons a as ih =>
    obtain ⟨ha, has⟩ := List.forall_mem_cons.mp has
    rw [innerDefault, List.foldl_cons]
    refine ih has ?_
    split_ifs with hxmlns
    · exact ha hxmlns
    · exact h

mutual

/-- **A written tree is parsed as one of the same shape.** -/
theorem forall₂_walk_reread {ws : List Binding} {D : String → Prop} :
    (e : Element) → SetsDefaults ws D e →
    ∀ dflt, D dflt → List.Forall₂ (RereadAt ws D) e.walk
      ((e.reread ws dflt).addTail (normalText e.tail)).walk
  | .mk n as t cs tl, hset, dflt, hdflt => by
    obtain ⟨has, hcs⟩ := setsDefaults_mk.mp hset
    have hinner := innerDefault_spec has hdflt
    have htail : "" ++ normalText tl = normalText tl := String.empty_append
    refine .cons ⟨rfl, ⟨_, hinner, rfl⟩, rfl, rfl, htail⟩ ?_
    exact forall₂_walkAll_rereadAll cs hcs _ hinner 0

theorem forall₂_walkAll_rereadAll {ws : List Binding} {D : String → Prop} : (cs : List Element) →
    (∀ c ∈ cs, SetsDefaults ws D c) → ∀ dflt, D dflt → ∀ index,
      List.Forall₂ (RereadAt ws D) (Element.walkAll index cs)
        (Element.walkAll index (Element.rereadAll ws dflt cs))
  | [], _, _, _, _ => .nil
  | c :: cs, hset, dflt, hdflt, index => by
    obtain ⟨hc, hcs⟩ := List.forall_mem_cons.mp hset
    have hhead := forall₂_walk_reread c hc dflt hdflt
    have htail := forall₂_walkAll_rereadAll cs hcs dflt hdflt (index + 1)
    rw [Element.rereadAll, Element.walkAll, Element.walkAll]
    refine List.rel_append (R := RereadAt ws D) ?_ htail
    rw [List.forall₂_map_left_iff, List.forall₂_map_right_iff]
    exact hhead.imp fun x y h =>
      ⟨by rw [h.path_eq], h.name_eq, h.attributes_eq, h.text_eq, h.tail_eq⟩

end

/-- **A saved document is parsed as one of the same shape.** -/
theorem forall₂_walk_rewritten {registry : PrefixRegistry} {root : Element} (htail : root.tail = "")
    {D : String → Prop} (hset : SetsDefaults (writtenScope registry root) D root)
    (hdefault : D (writtenDefault registry root)) :
    List.Forall₂ (RereadAt (writtenScope registry root) D) root.walk
      (rewritten registry root).walk := by
  have hwalk := forall₂_walk_reread root hset _ hdefault
  have haddTail : (rewritten registry root).addTail (normalText root.tail) =
    rewritten registry root := by
    rw [htail, rewritten]
    cases root
    rfl
  rw [rewritten] at haddTail ⊢
  rwa [haddTail] at hwalk

/-- **A saved document under one default namespace**, which no attribute sets anew. -/
theorem forall₂_walk_rewritten_of_plain {registry : PrefixRegistry} {root : Element}
    (htail : root.tail = "")
    (hplain : ∀ x ∈ root.walk, ∀ a ∈ x.2.attributes, spell (writtenScope registry root) a.1 ≠
      "xmlns") :
    List.Forall₂ (RereadAt (writtenScope registry root)
      (· = writtenDefault registry root)) root.walk
      (rewritten registry root).walk :=
  forall₂_walk_rewritten htail (fun x hx a ha hxmlns => absurd hxmlns (hplain x hx a ha)) rfl

/-- A saved document, whatever its default namespaces are. -/
theorem forall₂_walk_rewritten_of_any (registry : PrefixRegistry) {root : Element}
    (htail : root.tail = "") :
    List.Forall₂ (RereadAt (writtenScope registry root) fun _ => True) root.walk
      (rewritten registry root).walk :=
  forall₂_walk_rewritten htail (fun _ _ _ _ _ => trivial) trivial

/-- Two lists agree in what is told of them if they do so place by place. -/
theorem map_eq_map_iff_of_forall₂ {α β γ : Type} {R : α → β → Prop} {f : α → γ} {g : β → γ}
    {Q : α → Prop} {xs : List α} {ys : List β} (h : List.Forall₂ R xs ys)
    (hplace : ∀ x ∈ xs, ∀ y, R x y → (g y = f x ↔ Q x)) : ys.map g = xs.map f ↔ ∀ x ∈ xs, Q x := by
  induction h with
  | nil => exact iff_of_true rfl (List.forall_mem_nil _)
  | cons hxy _ ih =>
    obtain ⟨hfirst, hrest⟩ := List.forall_mem_cons.mp hplace
    rw [List.map_cons, List.map_cons, List.cons_eq_cons, hfirst _ hxy, ih hrest,
      List.forall_mem_cons]

/-- The children of a saved document are parsed one by one. -/
theorem rereadAll_eq_map (ws : List Binding) (dflt : String) (cs : List Element) :
    Element.rereadAll ws dflt cs =
      cs.map fun c => (c.reread ws dflt).addTail (normalText c.tail) := by
  induction cs with
  | nil => rfl
  | cons c cs ih => rw [Element.rereadAll, ih, List.map_cons]

/-- **Every child of a saved document is parsed in its place.** -/
theorem exists_children_rewritten (registry : PrefixRegistry) (root : Element) : ∃ saved :
    Element → Element,
    (rewritten registry root).children = root.children.map saved ∧
      ∀ path c, RereadAt (writtenScope registry root) (fun _ => True) (path, c)
      (path, saved c) := by
  rw [rewritten]
  generalize writtenScope registry root = ws
  generalize writtenDefault registry root = dflt
  obtain ⟨n, as, t, cs, tl⟩ := root
  refine ⟨_, rereadAll_eq_map ws _ cs, ?_⟩
  rintro path ⟨n, as, t, cs, tl⟩
  exact ⟨rfl, ⟨_, trivial, rfl⟩, rfl, rfl, String.empty_append⟩

/-- **What the attributes that are read tell** is what all tell, if none became a declaration and
each is told alike. -/
theorem map_readAttributes_eq_iff {γ : Type} (g : Attribute → γ) (ws : List Binding)
    (as : List Attribute) :
    (readAttributes ws as).map g = as.map g ↔
      ∀ a ∈ as, spell ws a.1 ≠ "xmlns" ∧ g (asAttribute ws a.1, a.2) = g a := by
  rw [readAttributes, List.map_map]
  constructor
  · intro heq
    have hlength := congrArg List.length heq
    rw [List.length_map, List.length_map, List.length_filter_eq_length_iff] at hlength
    rw [List.filter_eq_self.mpr hlength] at heq
    exact fun a ha => ⟨by simpa using hlength a ha, List.map_inj_left.mp heq a ha⟩
  · intro hall
    rw [List.filter_eq_self.mpr fun a ha => by simpa using (hall a ha).1]
    exact List.map_congr_left fun a ha => (hall a ha).2

/-! ## Depth -/

theorem depth_addTail (more : String) (e : Element) : (e.addTail more).depth = e.depth := by
  cases e
  rfl

mutual

/-- **Elements are nested as deep as before** in what is read of them. -/
theorem depth_reread (ws : List Binding) :
    (e : Element) → ∀ dflt, (e.reread ws dflt).depth = e.depth
  | .mk n as t cs tl, dflt => by
    rw [Element.reread, Element.depth, Element.depth, depthAll_rereadAll ws cs]

theorem depthAll_rereadAll (ws : List Binding) : (cs : List Element) → ∀ dflt,
    Element.depthAll (Element.rereadAll ws dflt cs) = Element.depthAll cs
  | [], _ => rfl
  | c :: cs, dflt => by
    rw [Element.rereadAll, Element.depthAll, Element.depthAll, depth_addTail, depth_reread ws c,
      depthAll_rereadAll ws cs]

end

theorem depth_rewritten (registry : PrefixRegistry) (root : Element) :
    (rewritten registry root).depth = root.depth := depth_reread _ root _

/-! ## Bare names -/

section Bare

variable {ws : List Binding} (hws : Declarable ws) {n : Name} (hn : Spells ws n)

include hws hn

/-- **A name is left bare** if it is in no namespace or in the default one. -/
theorem prefixOf_eq_empty_iff : prefixOf ws n = "" ↔ n.space = "" ∨ n.space = Scope.default ws := by
  have hdefault : ∀ uri, uri ≠ "" → (Scope.default ws = uri ↔ (⟨"", uri⟩ : Binding) ∈ ws) := by
    intro uri huri
    have hfind := @Scope.find?_eq_some_iff ws hws.pfx_nodup "" uri
    rw [Scope.default]
    constructor
    · intro heq
      cases hsome : Scope.find? ws "" with
      | none => rw [hsome] at heq; exact absurd heq.symm huri
      | some u =>
        rw [hsome] at heq
        exact (hfind.mp (hsome.trans (congrArg some heq))).1
    · intro hmem
      rw [hfind.mpr ⟨hmem, huri⟩]
      rfl
  constructor
  · intro hpfx
    rcases hn.declared with hspace | ⟨b, hb, huri⟩
    · exact .inl hspace
    · have hbpfx : b.pfx = "" := (prefixOf_of_mem hws hb huri.symm).symm.trans hpfx
      refine .inr ?_
      rw [← huri]
      exact ((hdefault b.uri (hws.sound b hb).2).mpr (hbpfx ▸ hb)).symm
  · rintro (hspace | hspace)
    · exact prefixOf_of_space_eq hws hspace
    · by_cases hne : n.space = ""
      · exact prefixOf_of_space_eq hws hne
      · exact prefixOf_of_mem hws ((hdefault n.space hne).mp hspace.symm) rfl

/-- **When an element keeps its namespace**: a name in none may not come into the default one. -/
theorem space_asElement_eq_iff : (asElement ws (Scope.default ws) n).space = n.space ↔
    (n.space = "" → Scope.default ws = "") := by
  have hempty := prefixOf_eq_empty_iff hws hn
  rw [asElement]
  split_ifs with hpfx
  · rcases hempty.mp hpfx with hspace | hspace <;> simp [hspace]
  · exact iff_of_true rfl fun hspace => absurd (hempty.mpr (.inl hspace)) hpfx

/-- **When an attribute keeps its namespace**: it may not be in the default one. -/
theorem space_asAttribute_eq_iff : (asAttribute ws n).space = n.space ↔
    (n.space = Scope.default ws → Scope.default ws = "") := by
  have hempty := prefixOf_eq_empty_iff hws hn
  rw [asAttribute]
  split_ifs with hpfx
  · rcases hempty.mp hpfx with hspace | hspace
    · rw [hspace]
      exact iff_of_true rfl Eq.symm
    · rw [hspace]
      exact ⟨fun h _ => h.symm, fun h => (h rfl).symm⟩
  · exact iff_of_true rfl fun hspace => absurd (hempty.mpr (.inr hspace)) hpfx

end Bare

/-- **Names that are spelled alike are one name** if neither is left bare, or both are in no
namespace. -/
theorem eq_of_spell_eq {ws : List Binding} (hws : Declarable ws) {m n : Name} (hm : Spells ws m)
    (hn : Spells ws n) (hdefault : ∀ k : Name, k = m ∨ k = n → k.space = Scope.default ws →
      k.space = "")
    (h : spell ws m = spell ws n) : m = n := by
  have hsplit := splitQName_spell hws hm
  rw [h, splitQName_spell hws hn] at hsplit
  have hbare : ∀ k : Name, k = m ∨ k = n → Spells ws k → prefixOf ws k = "" → k.space = "" := by
    intro k hk hspells hpfx
    rcases (prefixOf_eq_empty_iff hws hspells).mp hpfx with hspace | hspace
    · exact hspace
    · exact hdefault k hk hspace
  obtain ⟨ms, ml⟩ := m
  obtain ⟨ns, nl⟩ := n
  split_ifs at hsplit with hnpfx hmpfx hmpfx
  · obtain rfl : nl = ml := (Prod.mk.inj hsplit).2
    have hns : ns = "" := hbare _ (.inr rfl) hn hnpfx
    have hms : ms = "" := hbare _ (.inl rfl) hm hmpfx
    rw [hns, hms]
  · cases (Prod.mk.inj hsplit).1
  · cases (Prod.mk.inj hsplit).1
  · obtain ⟨hpfx, hlocal⟩ := Prod.mk.inj hsplit
    have hpfx : prefixOf ws ⟨ns, nl⟩ = prefixOf ws ⟨ms, ml⟩ := Option.some.inj hpfx
    obtain rfl : nl = ml := hlocal
    -- One prefix is declared for one namespace.
    have heq := List.inj_on_of_nodup_map hws.pfx_nodup (mem_of_prefixOf_ne hws hnpfx)
      (mem_of_prefixOf_ne hws hmpfx) hpfx
    have hspace : ns = ms := congrArg Binding.uri heq
    rw [hspace]

/-! ## Attributes outside every namespace -/

/-- **An attribute that loses its namespace**: it is in the default one, which does not apply to
attributes. -/
def Captured (dflt key value : String) (e : Element) : Prop :=
  dflt ≠ "" ∧ ((⟨dflt, key⟩, value) : Attribute) ∈ e.attributes

section Attributes

variable {ws : List Binding} (hws : Declarable ws) {as : List Attribute}
    (has : ∀ a ∈ as, Spells ws a.1)

include hws

/-- What is read as a name in no namespace was left bare. -/
theorem asAttribute_eq_iff {n : Name} {key : String} :
    asAttribute ws n = ⟨"", key⟩ ↔ prefixOf ws n = "" ∧ n.localName = key := by
  rw [asAttribute]
  split_ifs with hpfx
  · simp [hpfx]
  · refine iff_of_false ?_ fun h => hpfx h.1
    rintro rfl
    exact hpfx (prefixOf_of_space_eq hws rfl)

/-- Attributes that are spelled differently are read with different names. -/
theorem nodup_readAttributes (hdistinct : ((spelled ws as).map (·.1)).Nodup) :
    ((readAttributes ws as).map (·.1)).Nodup := by
  have hspelled : ∀ {a b : Attribute}, asAttribute ws a.1 = asAttribute ws b.1 →
      spell ws a.1 = spell ws b.1 := by
    intro a b hsame
    by_cases hne : (asAttribute ws a.1).space = ""
    · have heta : asAttribute ws a.1 = ⟨"", (asAttribute ws a.1).localName⟩ := by rw [← hne]
      obtain ⟨hpfx, hlocal⟩ := (asAttribute_eq_iff hws).mp heta
      obtain ⟨hpfx', hlocal'⟩ := (asAttribute_eq_iff hws).mp (hsame.symm.trans heta)
      rw [spell, spell, hpfx, hpfx', hlocal, hlocal']
    · rw [eq_of_asAttribute_eq hsame hne]
  rw [spelled, List.map_map] at hdistinct
  have hfiltered : ((as.filter fun a => spell ws a.1 != "xmlns").map fun a => spell ws a.1).Nodup :=
    List.Nodup.sublist (List.filter_sublist.map _) hdistinct
  rw [readAttributes, List.map_map]
  rw [List.Nodup, List.pairwise_map] at hfiltered ⊢
  exact hfiltered.imp fun hne hsame => hne (hspelled hsame)

include has

theorem mem_readAttributes_iff {key value : String} (hkey : key ≠ "xmlns") :
    ((⟨"", key⟩, value) : Attribute) ∈ readAttributes ws as ↔
      ((⟨"", key⟩, value) : Attribute) ∈ as ∨
        (Scope.default ws ≠ "" ∧ ((⟨Scope.default ws, key⟩, value) : Attribute) ∈ as) := by
  constructor
  · intro hmem
    obtain ⟨a, ha, heq⟩ := List.mem_map.mp hmem
    have ha := List.mem_of_mem_filter ha
    obtain ⟨hname, rfl⟩ := Prod.mk.inj heq
    obtain ⟨hpfx, rfl⟩ := (asAttribute_eq_iff hws).mp hname
    rcases (prefixOf_eq_empty_iff hws (has a ha)).mp hpfx with hspace | hspace
    · exact .inl (hspace ▸ ha)
    · by_cases hempty : Scope.default ws = ""
      · exact .inl ((hspace.trans hempty) ▸ ha)
      · exact .inr ⟨hempty, hspace ▸ ha⟩
  · have hread : ∀ n : Name, ((n, value) : Attribute) ∈ as → n.localName = key →
        n.space = "" ∨ n.space = Scope.default ws →
          ((⟨"", key⟩, value) : Attribute) ∈ readAttributes ws as := by
      intro n hn hlocal hspace
      have hpfx := (prefixOf_eq_empty_iff hws (has _ hn)).mpr hspace
      refine List.mem_map.mpr ⟨(n, value), List.mem_filter.mpr ⟨hn, ?_⟩, ?_⟩
      · rw [bne_iff_ne]
        exact fun hxmlns => hkey (hlocal ▸ ((spell_eq_xmlns_iff ws n).mp hxmlns).2)
      · rw [(asAttribute_eq_iff hws).mpr ⟨hpfx, hlocal⟩]
    rintro (hmem | ⟨-, hmem⟩)
    · exact hread _ hmem rfl (.inl rfl)
    · exact hread _ hmem rfl (.inr rfl)

/-- An attribute that loses its namespace does not meet one of that name, since both are spelled
alike. -/
theorem not_mem_of_captured (hdistinct : ((spelled ws as).map (·.1)).Nodup)
    {key value value' : String} (hne : Scope.default ws ≠ "")
    (hcaptured : ((⟨Scope.default ws, key⟩, value) : Attribute) ∈ as) :
    ((⟨"", key⟩, value') : Attribute) ∉ as := by
  intro hmem
  have hspell : ∀ n : Name, n.localName = key → prefixOf ws n = "" → spell ws n = key := by
    intro n hlocal hpfx
    rw [spell, hpfx, qualify, if_pos rfl, hlocal]
  rw [spelled, List.map_map] at hdistinct
  have hinjective := List.inj_on_of_nodup_map hdistinct hcaptured hmem
  have hfirst := hspell ⟨Scope.default ws, key⟩ rfl
    ((prefixOf_eq_empty_iff hws (has _ hcaptured)).mpr (.inr rfl))
  have hsecond := hspell ⟨"", key⟩ rfl ((prefixOf_eq_empty_iff hws (has _ hmem)).mpr (.inl rfl))
  have hsame := hinjective (hfirst.trans hsecond.symm)
  exact hne (congrArg (fun a : Attribute => a.1.space) hsame)

end Attributes

/-- **What an attribute outside every namespace is parsed as**: what it was, or what lost its
namespace. -/
theorem attribute?_of_rereadAt {ws : List Binding} (hws : Declarable ws) {D : String → Prop}
    {x y : Element.Path × Element} (h : RereadAt ws D x y)
    (has : ∀ a ∈ x.2.attributes, Spells ws a.1)
    (hnodup : (x.2.attributes.map (·.1)).Nodup)
    (hdistinct : ((spelled ws x.2.attributes).map (·.1)).Nodup) {key value : String}
    (hkey : key ≠ "xmlns") :
    y.2.attribute? key = some value ↔
      x.2.attribute? key = some value ∨ Captured (Scope.default ws) key value x.2 := by
  rw [Element.attribute?, Element.attribute?, h.attributes_eq,
    Keyed.lookup_eq_some_iff_mem (nodup_readAttributes hws hdistinct),
      Keyed.lookup_eq_some_iff_mem hnodup]
  exact mem_readAttributes_iff hws has hkey

end StationNaming.Xml
