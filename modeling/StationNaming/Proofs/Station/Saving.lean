import StationNaming.Proofs.Station.Opened
import StationNaming.Proofs.Station.Reload
import StationNaming.Proofs.Xml.Apart
/-!
# What saving keeps

A document is opened, perhaps renamed, and saved, and the saved text is parsed. Its names may then
be in other namespaces than before, and an attribute may be gone.

**What is exact.** `spaces_of_save` and `content_of_save` say for every file that can be opened,
under every registry that can be reached, exactly when namespaces and content are kept. Prefixes are
those that opening registers: the empty prefix is registered like any other, and a name that is
written under it is left bare.
-/

namespace StationNaming.Station

open Xml (Element Event PrefixRegistry parse?)

/-! ## Opening -/

/-- **Opening a file that can be read** gives its tree, if its prefixes can be registered. -/
theorem ofBytes_of_read {intake : Xml.Intake} {registry registry' : PrefixRegistry}
    {path plain : String} {bytes : List UInt8} {root : Element} (es : List Event)
    (hevents : (Xml.read bytes).events = es)
    (hfailure : (Xml.read bytes).failure = none)
    (hregister : registerAll registry es = (registry', true))
    (htree : Element.ofEvents? es = some root) (hplain : Files.plainPath path = plain) :
    ofBytes intake registry path bytes = (registry', .ok ⟨root, plain⟩) := by
  simp only [ofBytes, Xml.Intake.announced_of_failure_eq_none hfailure, hevents,
    hregister, ofReading, hfailure, htree, hplain]

/-- A file whose prefixes cannot all be registered is refused. -/
theorem ofBytes_of_reserved {intake : Xml.Intake} {registry registry' : PrefixRegistry}
    {path : String} {bytes : List UInt8} (es : List Event)
    (hannounced : intake.announced bytes = es)
    (hregister : registerAll registry es = (registry', false)) :
    ofBytes intake registry path bytes = (registry', .error .reservedPrefix) := by
  simp only [ofBytes, hannounced, hregister]

/-! ## Namespaces -/

/-- The namespaces of all elements, each with those of its attributes, by position. -/
def spaces (root : Element) : List (Element.Path × String × List String) :=
  root.walk.map fun x => (x.1, x.2.name.space, x.2.attributes.map (·.1.space))

/-- **When saving keeps all namespaces**: no name is moved by the default namespace, and all names
can be read. -/
structure KeepsSpaces (registry : PrefixRegistry) (root : Element) : Prop where
  apart : Xml.DefaultApart registry root
  names : ∀ x ∈ root.walk,
    Xml.IsQName (Xml.writtenName registry (Xml.usedPrefixes registry root) x.2.name).toList ∧
      ∀ a ∈ x.2.attributes,
        Xml.IsQName (Xml.writtenName registry (Xml.usedPrefixes registry root) a.1).toList

/-- If all namespaces are kept, no attribute was lost. -/
theorem plain_of_spaces_eq {registry : PrefixRegistry} {root : Element} (htail : root.tail = "")
    (h : spaces (Xml.rewritten registry root) = spaces root) :
    ∀ x ∈ root.walk, ∀ a ∈ x.2.attributes, Xml.spell (Xml.writtenScope registry root) a.1 ≠
      "xmlns" := by
  have hplaces := Xml.forall₂_walk_rewritten_of_any registry htail
  have hattributes := congrArg (List.map fun told => told.2.2) h
  rw [spaces, spaces, List.map_map, List.map_map] at hattributes
  have hall := (Xml.map_eq_map_iff_of_forall₂ hplaces fun x _ y hxy => by
    rw [Function.comp_apply, Function.comp_apply, hxy.attributes_eq]
    exact Xml.map_readAttributes_eq_iff (fun a => a.1.space) _ _).mp hattributes
  exact fun x hx a ha => (hall x hx a ha).1

section

variable {registry : PrefixRegistry} (hregistry : registry.Sound) {root : Element}
    (hroot : root.Sound)

include hregistry hroot

/-- Well-written documents whose default namespace is apart keep all namespaces. -/
theorem keepsSpaces_iff : KeepsSpaces registry root ↔
    Xml.WellWritten registry root ∧ Xml.DefaultApart registry root := by
  have hnames : (∀ x ∈ root.walk,
      Xml.IsQName (Xml.writtenName registry (Xml.usedPrefixes registry root) x.2.name).toList ∧
        ∀ a ∈ x.2.attributes,
          Xml.IsQName (Xml.writtenName registry (Xml.usedPrefixes registry root) a.1).toList) ↔
      ∀ x ∈ root.walk, Xml.IsQName (Xml.spell (Xml.writtenScope registry root) x.2.name).toList ∧
        ∀ a ∈ x.2.attributes, Xml.IsQName
          (Xml.spell (Xml.writtenScope registry root) a.1).toList := by
    refine forall₂_congr fun x hx => ?_
    obtain ⟨hname, hattributes⟩ := Element.mem_allSpaces hx
    rw [Xml.writtenName_eq_spell hregistry hroot hname]
    refine and_congr_right' (forall₂_congr fun a ha => ?_)
    rw [Xml.writtenName_eq_spell hregistry hroot (hattributes a ha)]
  constructor
  · exact fun h => ⟨(Xml.wellWritten_iff_of_apart hregistry hroot h.apart).mpr (hnames.mp h.names),
      h.apart⟩
  · exact fun h => ⟨h.2, hnames.mpr ((Xml.wellWritten_iff_of_apart hregistry hroot h.2).mp h.1)⟩

/-- **What is parsed has the namespaces of the tree** if the default namespace is apart. -/
theorem spaces_rewritten_eq_iff (htail : root.tail = "") :
    spaces (Xml.rewritten registry root) = spaces root ↔ Xml.DefaultApart registry root := by
  have hdeclarable := Xml.declarable_writtenScope hregistry hroot
  have hspells := Xml.spellable_root hregistry hroot
  have hiff : (∀ x ∈ root.walk, ∀ a ∈ x.2.attributes,
      Xml.spell (Xml.writtenScope registry root) a.1 ≠ "xmlns") →
      (spaces (Xml.rewritten registry root) = spaces root ↔ Xml.DefaultApart registry root) := by
    intro hplain
    rw [Xml.defaultApart_iff, spaces, spaces]
    refine Xml.map_eq_map_iff_of_forall₂ (Xml.forall₂_walk_rewritten_of_plain htail hplain) ?_
    intro x hx y hxy
    obtain ⟨dflt, rfl, hname⟩ := hxy.name_eq
    have hattributes : (∀ a ∈ x.2.attributes, Xml.spell (Xml.writtenScope registry root) a.1 ≠
      "xmlns" ∧
        (Xml.asAttribute (Xml.writtenScope registry root) a.1).space = a.1.space) ↔
        ∀ a ∈ x.2.attributes, a.1.space = Xml.writtenDefault registry root →
          Xml.writtenDefault registry root = "" := by
      refine forall₂_congr fun a ha => ?_
      rw [and_iff_right (hplain x hx a ha)]
      exact Xml.space_asAttribute_eq_iff hdeclarable ((hspells x hx).2 a ha)
    rw [Prod.mk.injEq, Prod.mk.injEq, and_iff_right hxy.path_eq, hname, hxy.attributes_eq,
      Xml.map_readAttributes_eq_iff fun a => a.1.space, hattributes]
    exact and_congr_left' (Xml.space_asElement_eq_iff hdeclarable (hspells x hx).1)
  constructor
  · exact fun h => (hiff (plain_of_spaces_eq htail h)).mp h
  · exact fun h => (hiff fun x hx a ha => Xml.spell_ne_xmlns_of_apart hregistry hroot h hx ha).mpr h

end

/-- **When a saved document keeps every name in its namespace.** An opened document that is saved
right away is parsed with the namespaces that it had, exactly if the default namespace is apart and
all names can be read. -/
theorem spaces_of_save {intake : Xml.Intake} {registry registry' : PrefixRegistry}
    (reached : Reached registry) {path : String}
    {bytes : List UInt8} {s : Station}
    (opens : ofBytes intake registry path bytes = (registry', .ok s)) :
    (∃ t, parse? (s.toBytes registry') = some t ∧ spaces t = spaces s.root) ↔
      KeepsSpaces registry' s.root := by
  obtain ⟨hroot, htail⟩ := sound_of_ofBytes (congrArg Prod.snd opens)
  have hreached : Reached registry' := reached.of_opens opens
  have hparse := Xml.parse?_write hreached.sound hroot htail
  rw [keepsSpaces_iff hreached.sound hroot, ← spaces_rewritten_eq_iff hreached.sound hroot htail]
  constructor
  · rintro ⟨t, hsaved, hspaces⟩
    obtain ⟨hwell, rfl⟩ := (hparse t).mp hsaved
    exact ⟨hwell, hspaces⟩
  · rintro ⟨hwell, hspaces⟩
    exact ⟨_, (hparse _).mpr ⟨hwell, rfl⟩, hspaces⟩

/-- A document with a default namespace and another one that has a prefix. -/
def qualified : Station where
  root := .mk ⟨"u", "SCL"⟩ [] "" [.mk ⟨"u", "a"⟩ [(⟨"v", "k"⟩, "1"), (⟨"", "k"⟩, "2")] "" [] ""] ""
  path := "d.scd"

/-- The registry after that document was opened. -/
def qualifiedRegistry : PrefixRegistry := PrefixRegistry.initial ++ [⟨"", "u"⟩, ⟨"p", "v"⟩]

theorem spaces_of_save_qualified :
    Reached PrefixRegistry.initial ∧
      ofBytes .patient PrefixRegistry.initial "d.scd"
          "<SCL xmlns=\"u\" xmlns:p=\"v\"><a p:k=\"1\" k=\"2\"/></SCL>".toUTF8.toList =
        (qualifiedRegistry, .ok qualified) ∧
      KeepsSpaces qualifiedRegistry qualified.root ∧
      ∃ t, parse? (qualified.toBytes qualifiedRegistry) = some t ∧
        spaces t = spaces qualified.root := by
  have hopens : ofBytes .patient PrefixRegistry.initial "d.scd"
      "<SCL xmlns=\"u\" xmlns:p=\"v\"><a p:k=\"1\" k=\"2\"/></SCL>".toUTF8.toList =
        (qualifiedRegistry, .ok qualified) :=
    ofBytes_of_read [.bind ⟨"", "u"⟩, .bind ⟨"p", "v"⟩, .start ⟨"u", "SCL"⟩ [],
        .start ⟨"u", "a"⟩ [(⟨"v", "k"⟩, "1"), (⟨"", "k"⟩, "2")], .stop, .stop]
      (by decide +kernel) (by decide +kernel) (by decide +kernel) rfl (by decide +kernel)
  have hapart : (qualified.root.walk.all fun x =>
    x.2.name.space != "" && x.2.attributes.all fun a =>
      a.1.space != Xml.writtenDefault qualifiedRegistry qualified.root) = true := by decide +kernel
  have hnames : (qualified.root.walk.all fun x =>
      Xml.isQName (Xml.writtenName qualifiedRegistry
        (Xml.usedPrefixes qualifiedRegistry qualified.root)
        x.2.name).toList && x.2.attributes.all fun a =>
          Xml.isQName (Xml.writtenName qualifiedRegistry
            (Xml.usedPrefixes qualifiedRegistry qualified.root)
              a.1).toList) = true := by decide +kernel
  simp only [List.all_eq_true, Bool.and_eq_true, bne_iff_ne, Xml.isQName_iff] at hapart hnames
  have hkeeps : KeepsSpaces qualifiedRegistry qualified.root := ⟨.inr hapart, hnames⟩
  exact ⟨Reached.initial, hopens, hkeeps, (spaces_of_save Reached.initial hopens).mpr hkeeps⟩

/-- A document whose root is in no namespace and whose child has a default namespace of its own. -/
def innerDefault : Station where
  root := .mk ⟨"", "SCL"⟩ [] "" [.mk ⟨"u", "a"⟩ [] "" [] ""] ""
  path := "d.scd"

/-- The registry after that document was opened. -/
def innerDefaultRegistry : PrefixRegistry := PrefixRegistry.initial ++ [⟨"", "u"⟩]

/-- **Saving can move the root into a namespace.** -/
theorem spaces_innerDefault :
    ofBytes .patient PrefixRegistry.initial "d.scd" "<SCL><a xmlns=\"u\"/></SCL>".toUTF8.toList =
        (innerDefaultRegistry, .ok innerDefault) ∧
      spaces innerDefault.root = [([], "", []), ([0], "u", [])] ∧
      ∃ t, parse? (innerDefault.toBytes innerDefaultRegistry) = some t ∧
        spaces t = [([], "u", []), ([0], "u", [])] := by
  have hopens : ofBytes .patient PrefixRegistry.initial "d.scd"
    "<SCL><a xmlns=\"u\"/></SCL>".toUTF8.toList =
      (innerDefaultRegistry, .ok innerDefault) :=
    ofBytes_of_read [.start ⟨"", "SCL"⟩ [], .bind ⟨"", "u"⟩, .start ⟨"u", "a"⟩ [], .stop, .stop]
      (by decide +kernel) (by decide +kernel) (by decide +kernel) rfl (by decide +kernel)
  have hsaved : (parse? (innerDefault.toBytes innerDefaultRegistry)).map spaces =
      some [([], "u", []), ([0], "u", [])] := by decide +kernel
  obtain ⟨t, ht, hspaces⟩ := Option.map_eq_some_iff.mp hsaved
  exact ⟨hopens, rfl, t, ht, hspaces⟩

/-! ## Content -/

/-- What an element says apart from namespaces, with its position. -/
structure Content where
  path : Element.Path
  localName : String
  attributes : List (String × String)
  text : String
  tail : String
  deriving DecidableEq, Repr

/-- What all elements say apart from namespaces. -/
def content (root : Element) : List Content :=
  root.walk.map fun x =>
    ⟨x.1, x.2.localName, x.2.attributes.map fun a => (a.1.localName, a.2), x.2.text, x.2.tail⟩

/-- Content as a document that holds it is parsed: all line ends are line feeds. -/
def Content.normal (c : Content) : Content :=
  { c with text := Xml.normalText c.text, tail := Xml.normalText c.tail }

/-- **What is parsed has the content of the tree** if no attribute became a declaration. -/
theorem content_rewritten_eq_iff (registry : PrefixRegistry) {root : Element}
    (htail : root.tail = "") :
    content (Xml.rewritten registry root) = (content root).map Content.normal ↔
      ∀ x ∈ root.walk, ∀ a ∈ x.2.attributes, Xml.spell (Xml.writtenScope registry root) a.1 ≠
        "xmlns" := by
  have hplaces := Xml.forall₂_walk_rewritten_of_any registry htail
  rw [content, content, List.map_map]
  refine Xml.map_eq_map_iff_of_forall₂ hplaces fun x _ y hxy => ?_
  have hattributes := Xml.map_readAttributes_eq_iff (fun a => (a.1.localName, a.2))
    (Xml.writtenScope registry root) x.2.attributes
  simp only [Xml.localName_asAttribute, and_true] at hattributes
  rw [← hattributes, Function.comp_apply, hxy.path_eq, hxy.localName_eq, hxy.attributes_eq,
    hxy.text_eq, hxy.tail_eq]
  simp only [Content.normal, Content.mk.injEq, true_and, and_true]

/-- **When a saved document keeps all content.** An opened document, renamed by what a session
commits to and saved under any registry, says the same when the saved text is parsed, exactly if no
attribute is written as a declaration of the default namespace. -/
theorem content_of_save {intake : Xml.Intake} {registry : PrefixRegistry} {path : String}
    {bytes : List UInt8} {s : Station}
    (opens : (ofBytes intake registry path bytes).2 = .ok s) {start opened : Editor}
    (loads : start.load s.records = .ok opened) (edits : List Edit) {ops : List Renaming}
    (commits : (opened.edited edits).commit = .ok ops) {r : Renamed}
    (applied : s.rename ops = .ok r)
    {saving : PrefixRegistry} (reached : Reached saving) {t : Element}
    (parses : parse? (r.station.toBytes saving) = some t) :
    content t = (content r.station.root).map Content.normal ↔
      ∀ x ∈ r.station.root.walk, ∀ a ∈ x.2.attributes,
        Xml.writtenName saving (Xml.usedPrefixes saving r.station.root) a.1 ≠ "xmlns" := by
  obtain ⟨hroot, htail⟩ := sound_of_rename_commit opens loads edits commits applied
  obtain ⟨-, rfl⟩ := (Xml.parse?_write reached.sound hroot htail t).mp parses
  rw [content_rewritten_eq_iff saving htail]
  refine forall₂_congr fun x hx => forall₂_congr fun a ha => ?_
  rw [Xml.writtenName_eq_spell reached.sound hroot ((Element.mem_allSpaces hx).2 a ha)]

/-- A value and a text that have to be escaped, and one in which a line end will be made a line
feed. -/
def markedDesc : String := "\t\n\r\"<&>\u00E9"

/-- A document with characters that have to be escaped and a carriage return in a text. -/
def marked : Station where
  root := .mk ⟨"", "SCL"⟩ [] "<&>"
    [.mk ⟨"", "IED"⟩ [(⟨"", "name"⟩, "A"), (⟨"", "desc"⟩, markedDesc)] "" [] "x\ry"] ""
  path := "d.scd"

/-- That document after its IED was renamed. -/
def markedRenamed : Station where
  root := .mk ⟨"", "SCL"⟩ [] "<&>"
    [.mk ⟨"", "IED"⟩ [(⟨"", "name"⟩, "B"), (⟨"", "desc"⟩, markedDesc)] "" [] "x\ry"] ""
  path := "d.scd"

/-- The file that document is opened from. -/
def markedFile : String :=
  "<SCL>&lt;&amp;&gt;<IED name=\"A\" desc=\"&#9;&#10;&#13;&quot;&lt;&amp;&gt;\u00E9\"/>x&#13;y</SCL>"

theorem content_of_save_marked :
    (ofBytes .patient PrefixRegistry.initial "d.scd" markedFile.toUTF8.toList).2 = .ok marked ∧
      ({} : Editor).load marked.records = .ok ⟨some (Session.ofRecords marked.records)⟩ ∧
      ((⟨some (Session.ofRecords marked.records)⟩ : Editor).edited [("A", "B")]).commit =
        .ok [⟨"A", "B"⟩] ∧
      marked.rename [⟨"A", "B"⟩] = .ok ⟨markedRenamed, 1, 0⟩ ∧ Reached PrefixRegistry.initial ∧
      ∃ t, parse? (markedRenamed.toBytes PrefixRegistry.initial) = some t ∧
        content t = (content markedRenamed.root).map Content.normal ∧
        (content markedRenamed.root).map Content.normal = [⟨[], "SCL", [], "<&>", ""⟩,
          ⟨[0], "IED", [("name", "B"), ("desc", markedDesc)], "", "x\ny"⟩] := by
  have hopened : ofBytes .patient PrefixRegistry.initial "d.scd" markedFile.toUTF8.toList =
      (PrefixRegistry.initial, .ok marked) :=
    ofBytes_of_read [.start ⟨"", "SCL"⟩ [], .text ['<'], .text ['&'], .text ['>'],
        .start ⟨"", "IED"⟩ [(⟨"", "name"⟩, "A"), (⟨"", "desc"⟩, markedDesc)], .stop,
        .text ['x'], .text ['\r'], .text ['y'], .stop]
      (by decide +kernel) (by decide +kernel) rfl rfl (by decide +kernel)
  have hopens : (ofBytes .patient PrefixRegistry.initial "d.scd" markedFile.toUTF8.toList).2 =
    .ok marked :=
    congrArg Prod.snd hopened
  have hloads : ({} : Editor).load marked.records = .ok ⟨some (Session.ofRecords marked.records)⟩ :=
    rfl
  have hcommits : ((⟨some (Session.ofRecords marked.records)⟩ : Editor).edited
    [("A", "B")]).commit =
      .ok [⟨"A", "B"⟩] := rfl
  have happlied : marked.rename [⟨"A", "B"⟩] = .ok ⟨markedRenamed, 1, 0⟩ := rfl
  have hparses : (parse? (markedRenamed.toBytes PrefixRegistry.initial)).isSome = true := by
    decide +kernel
  obtain ⟨t, ht⟩ := Option.isSome_iff_exists.mp hparses
  have hplain : (markedRenamed.root.walk.all fun x => x.2.attributes.all fun a =>
      Xml.writtenName PrefixRegistry.initial
        (Xml.usedPrefixes PrefixRegistry.initial markedRenamed.root) a.1
        != "xmlns") = true := by decide +kernel
  have hcontent := (content_of_save hopens hloads [("A", "B")] hcommits happlied
    Reached.initial ht).mpr
    fun x hx a ha => bne_iff_ne.mp (List.all_eq_true.mp (List.all_eq_true.mp hplain x hx) a ha)
  exact ⟨hopens, hloads, hcommits, happlied, Reached.initial, t, ht, hcontent, by decide +kernel⟩

/-- A document with an attribute called `xmlns`, in the namespace that has no prefix. -/
def declaring : Station where
  root := .mk ⟨"u", "SCL"⟩ [] "" [.mk ⟨"u", "a"⟩ [(⟨"u", "xmlns"⟩, "v")] "" [] ""] ""
  path := "d.scd"

/-- **Saving can lose an attribute**, although the saved text is well-formed. -/
theorem content_declaring :
    ofBytes .patient PrefixRegistry.initial "d.scd"
          "<SCL xmlns:p=\"u\" xmlns=\"u\"><a p:xmlns=\"v\"/></SCL>".toUTF8.toList =
        (innerDefaultRegistry, .ok declaring) ∧
      ({} : Editor).load declaring.records = .ok ⟨some (Session.ofRecords declaring.records)⟩ ∧
      (⟨some (Session.ofRecords declaring.records)⟩ : Editor).commit = .ok [] ∧
      declaring.rename [] = .ok ⟨declaring, 0, 0⟩ ∧
      content declaring.root = [⟨[], "SCL", [], "", ""⟩, ⟨[0], "a", [("xmlns", "v")], "", ""⟩] ∧
      ∃ t, parse? (declaring.toBytes innerDefaultRegistry) = some t ∧
        content t = [⟨[], "SCL", [], "", ""⟩, ⟨[0], "a", [], "", ""⟩] := by
  have hopens : ofBytes .patient PrefixRegistry.initial "d.scd"
      "<SCL xmlns:p=\"u\" xmlns=\"u\"><a p:xmlns=\"v\"/></SCL>".toUTF8.toList =
        (innerDefaultRegistry, .ok declaring) :=
    ofBytes_of_read [.bind ⟨"p", "u"⟩, .bind ⟨"", "u"⟩, .start ⟨"u", "SCL"⟩ [],
        .start ⟨"u", "a"⟩ [(⟨"u", "xmlns"⟩, "v")], .stop, .stop]
      (by decide +kernel) (by decide +kernel) (by decide +kernel) rfl (by decide +kernel)
  have hsaved : (parse? (declaring.toBytes innerDefaultRegistry)).map content =
      some [⟨[], "SCL", [], "", ""⟩, ⟨[0], "a", [], "", ""⟩] := by decide +kernel
  obtain ⟨t, ht, hcontent⟩ := Option.map_eq_some_iff.mp hsaved
  exact ⟨hopens, rfl, rfl, rfl, rfl, t, ht, hcontent⟩

end StationNaming.Station
