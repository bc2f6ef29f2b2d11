import Mathlib.Data.List.Nodup
import StationNaming.Proofs.Keyed
import StationNaming.Proofs.Xml.Characters
import StationNaming.Xml.Writer
/-!
# Prefixes for writing

A registry gives each namespace at most one prefix and each prefix to at most one namespace, and it
stays that way whatever is registered. The prefixes that a document is written under are then
one-to-one as well, since the ones that are made up cannot be registered.

**What is exact.** `PrefixRegistry.Sound` holds at the start and after every registration of a
binding that a file can make. Under a sound registry `UsedPrefixes.sound_usedPrefixes` covers every
tree.
-/

namespace StationNaming.Xml

/-! ## Bindings -/

/-- **A binding that a file can make**, written with name characters and legible. -/
structure Binding.Sound (b : Binding) : Prop where
  faultless : b.fault? = none
  spelled : b.pfx = "" ∨ IsToken b.pfx.toList
  legible : IsDocumentText b.uri

/-- **What a faultless binding binds.** -/
theorem Binding.fault?_eq_none_iff (b : Binding) : b.fault? = none ↔
    (b.uri = "" → b.pfx = "") ∧ b.pfx ≠ "xmlns" ∧ '\x7d' ∉ b.uri.toList ∧
      (b.pfx = "xml" ↔ b.uri = xmlNamespace) ∧ b.uri ≠ xmlnsNamespace := by
  unfold Binding.fault?
  split_ifs with h1 h2 h3 h4 h5 h6 <;> simp_all
  tauto

/-! ## Registries -/

/-- A made-up prefix. -/
def inventedPrefix (n : Nat) : String := "ns" ++ toString n

theorem toList_inventedPrefix (n : Nat) :
    (inventedPrefix n).toList = 'n' :: 's' :: Nat.toDigits 10 n := by
  rw [inventedPrefix, String.toList_append, Nat.toString_eq_repr, Nat.toList_repr]
  rfl

theorem inventedPrefix_injective : Function.Injective inventedPrefix := by
  intro m n h
  have hlist := congrArg String.toList h
  rw [toList_inventedPrefix, toList_inventedPrefix] at hlist
  have hdigits : Nat.toDigits 10 m = Nat.toDigits 10 n := by simpa using hlist
  have hvalue := congrArg (fun ds => Nat.ofDigitChars 10 ds 0) hdigits
  simpa using hvalue

theorem digit_bounds {c : Char} (h : c.isDigit = true) : 48 ≤ c.toNat ∧ c.toNat ≤ 57 := by
  simp only [Char.isDigit, Bool.and_eq_true, decide_eq_true_eq] at h
  exact ⟨h.1, h.2⟩

/-- **A made-up prefix cannot be registered.** -/
theorem isReserved_inventedPrefix (n : Nat) :
    PrefixRegistry.isReserved (inventedPrefix n) = true := by
  have hdigits : ∀ c ∈ Nat.toDigits 10 n, inRanges PrefixRegistry.digitRanges c.toNat = true := by
    intro c hc
    have hbounds := digit_bounds (Nat.isDigit_of_mem_toDigits (by decide) (by decide) hc)
    refine List.any_eq_true.mpr ⟨(0x30, 0x39), List.mem_cons_self, ?_⟩
    simpa using hbounds
  have hne : (Nat.toDigits 10 n).isEmpty = false := by simp
  simp only [PrefixRegistry.isReserved, toList_inventedPrefix, hne, Bool.not_false, Bool.true_and,
    List.all_eq_true]
  exact hdigits

theorem isToken_inventedPrefix (n : Nat) : IsToken (inventedPrefix n).toList := by
  rw [toList_inventedPrefix]
  refine ⟨List.cons_ne_nil _ _, ?_⟩
  have hdigit : ∀ c ∈ Nat.toDigits 10 n, isNameChar c = true := by
    intro c hc
    have hbounds := digit_bounds (Nat.isDigit_of_mem_toDigits (by decide) (by decide) hc)
    have hascii : c.toNat < 0x80 := by omega
    have hzero : '0' ≤ c := hbounds.1
    have hnine : c ≤ '9' := hbounds.2
    simp [isNameChar, hascii, hzero, hnine]
  intro c hc
  rcases List.mem_cons.mp hc with rfl | hc
  · decide
  · rcases List.mem_cons.mp hc with rfl | hc
    · decide
    · exact hdigit c hc

theorem inventedPrefix_ne (n : Nat) {s : String} (h : PrefixRegistry.isReserved s = false) :
    inventedPrefix n ≠ s := by
  rintro rfl
  rw [isReserved_inventedPrefix] at h
  cases h

namespace PrefixRegistry

/-- **A registry that writing can rely on**: it is one-to-one, it knows the prefix `xml`, and all
its bindings could have been read from a file and registered. -/
structure Sound (registry : PrefixRegistry) : Prop where
  bindings : ∀ b ∈ registry, b.Sound ∧ isReserved b.pfx = false
  pfx_nodup : (registry.map (·.pfx)).Nodup
  uri_nodup : (registry.map (·.uri)).Nodup
  xml_mem : ⟨"xml", xmlNamespace⟩ ∈ registry

/-- In a one-to-one list of bindings the prefix that is found is the one that is there. -/
theorem find?_eq_some_iff {bs : List Binding} (h : (bs.map (·.uri)).Nodup) {uri pfx : String} :
    find? bs uri = some pfx ↔ (⟨pfx, uri⟩ : Binding) ∈ bs := by
  rw [find?, Option.map_eq_some_iff]
  constructor
  · rintro ⟨b, hb, rfl⟩
    have huri : b.uri = uri := by simpa using List.find?_some hb
    exact huri ▸ List.mem_of_find?_eq_some hb
  · intro hmem
    cases hfind : List.find? (fun b : Binding => b.uri == uri) bs with
    | none => exact absurd (List.find?_eq_none.mp hfind _ hmem) (by simp)
    | some b =>
      have huri : b.uri = uri := by simpa using List.find?_some hfind
      have heq : b = ⟨pfx, uri⟩ :=
        List.inj_on_of_nodup_map h (List.mem_of_find?_eq_some hfind) hmem huri
      exact ⟨b, rfl, by rw [heq]⟩

theorem find?_eq_none_iff {bs : List Binding} {uri : String} :
    find? bs uri = none ↔ ∀ b ∈ bs, b.uri ≠ uri := by
  simp [find?]

/-- The prefix `xml` is that of its own namespace and of no other. -/
theorem Sound.find?_eq_xml_iff {registry : PrefixRegistry} (h : registry.Sound) {uri : String} :
    registry.find? uri = some "xml" ↔ uri = xmlNamespace := by
  rw [find?_eq_some_iff h.uri_nodup]
  constructor
  · intro hmem
    have heq := List.inj_on_of_nodup_map h.pfx_nodup hmem h.xml_mem rfl
    exact (Binding.mk.inj heq).2
  · rintro rfl
    exact h.xml_mem

/-- No registered prefix is a made-up one. -/
theorem Sound.find?_ne_inventedPrefix {registry : PrefixRegistry} (h : registry.Sound)
    (uri : String) (n : Nat) :
    registry.find? uri ≠ some (inventedPrefix n) := by
  intro hfind
  have hmem := (find?_eq_some_iff h.uri_nodup).mp hfind
  exact inventedPrefix_ne n (h.bindings _ hmem).2 rfl

/-- **The registry at the start is sound.** -/
theorem sound_initial : Sound initial where
  bindings := by
    have hall : (initial.all fun b => b.fault?.isNone && isName b.pfx.toList &&
        (b.uri.toList.all fun c => decide (IsDocumentChar c)) && !isReserved b.pfx) = true := by
      decide +kernel
    intro b hb
    have hchecks := List.all_eq_true.mp hall b hb
    simp only [Bool.and_eq_true, Option.isNone_iff_eq_none, Bool.not_eq_true'] at hchecks
    obtain ⟨⟨⟨hfault, hname⟩, htext⟩, hreserved⟩ := hchecks
    exact ⟨⟨hfault, .inr ((isName_iff _).mp hname).isToken, isDocumentText_of_all htext⟩, hreserved⟩
  pfx_nodup := by decide
  uri_nodup := by decide
  xml_mem := List.mem_cons_self

/-- **Registering keeps a registry sound.** -/
theorem Sound.register? {registry registry' : PrefixRegistry} (h : registry.Sound) {b : Binding}
    (hb : b.Sound) (hregister : registry.register? b = some registry') : registry'.Sound := by
  rw [PrefixRegistry.register?] at hregister
  split_ifs at hregister with hreserved
  obtain rfl := Option.some.inj hregister
  have hfilter : ∀ a ∈ registry.filter (fun a => a.uri != b.uri && a.pfx != b.pfx),
      a ∈ registry ∧ a.uri ≠ b.uri ∧ a.pfx ≠ b.pfx := by
    intro a ha
    simpa using List.mem_filter.mp ha
  refine ⟨?_, Keyed.nodup_map_concat (h.pfx_nodup.sublist (List.filter_sublist.map _)) fun a ha =>
    (hfilter a ha).2.2, Keyed.nodup_map_concat (h.uri_nodup.sublist (List.filter_sublist.map _))
      fun a ha =>
      (hfilter a ha).2.1, ?_⟩
  · intro a ha
    rcases List.mem_append.mp ha with ha | ha
    · exact h.bindings a (hfilter a ha).1
    · rw [List.mem_singleton.mp ha]
      exact ⟨hb, Bool.eq_false_iff.mpr hreserved⟩
  · -- The prefix `xml` and its namespace can only be registered for each other.
    have hxml := ((Binding.fault?_eq_none_iff b).mp hb.faultless).2.2.2.1
    by_cases hpfx : b.pfx = "xml"
    · have heq : b = ⟨"xml", xmlNamespace⟩ := by
        rw [← hpfx, ← hxml.mp hpfx]
      exact List.mem_append_right _ (heq ▸ List.mem_singleton_self b)
    · refine List.mem_append_left _ (List.mem_filter.mpr ⟨h.xml_mem, ?_⟩)
      have huri : b.uri ≠ xmlNamespace := fun huri => hpfx (hxml.mpr huri)
      simpa using ⟨Ne.symm huri, Ne.symm hpfx⟩

end PrefixRegistry

/-! ## Prefixes in use -/

/-- **A namespace that names of a document can be in.** -/
structure IsSpace (u : String) : Prop where
  legible : IsDocumentText u
  noBrace : '\x7d' ∉ u.toList
  ne_xmlns : u ≠ xmlnsNamespace

namespace UsedPrefixes

/-- **Prefixes that were met under a registry**: registered ones, and made-up ones for namespaces
without. -/
structure Sound (registry : PrefixRegistry) (used : UsedPrefixes) : Prop where
  spaces : ∀ b ∈ used, b.uri ≠ "" ∧ b.uri ≠ xmlNamespace
  prefixes : ∀ b ∈ used, registry.find? b.uri = some b.pfx ∨
    (registry.find? b.uri = none ∧ ∃ k < used.length, b.pfx = inventedPrefix k)
  pfx_nodup : (used.map (·.pfx)).Nodup
  uri_nodup : (used.map (·.uri)).Nodup

/-- **What meeting a namespace does**: nothing, or it adds the namespace with its prefix. -/
theorem meet_cases (registry : PrefixRegistry) (used : UsedPrefixes) (uri : String) :
    (meet registry used uri = used ∧
      (uri = "" ∨ (∃ b ∈ used, b.uri = uri) ∨ registry.find? uri = some "xml")) ∨
    ∃ pfx, meet registry used uri = used ++ [⟨pfx, uri⟩] ∧ uri ≠ "" ∧ (∀ b ∈ used, b.uri ≠ uri) ∧
      pfx ≠ "xml" ∧ (registry.find? uri = some pfx ∨
        (registry.find? uri = none ∧ pfx = inventedPrefix used.length)) := by
  unfold meet
  split_ifs with hmet
  · simp only [Bool.or_eq_true, decide_eq_true_eq] at hmet
    refine .inl ⟨rfl, hmet.imp_right fun hsome => .inl ?_⟩
    by_contra hnone
    have : PrefixRegistry.find? used uri = none :=
      PrefixRegistry.find?_eq_none_iff.mpr fun b hb huri => hnone ⟨b, hb, huri⟩
    rw [this] at hsome
    cases hsome
  · simp only [Bool.or_eq_true, decide_eq_true_eq, not_or, Bool.not_eq_true,
      Option.isSome_eq_false_iff, Option.isNone_iff_eq_none] at hmet
    have hnew := PrefixRegistry.find?_eq_none_iff.mp hmet.2
    split
    · next hfind => exact .inl ⟨rfl, .inr (.inr hfind)⟩
    · next pfx hne hfind => exact .inr ⟨pfx, rfl, hmet.1, hnew, hne, .inl hfind⟩
    · next hfind =>
      exact .inr ⟨_, rfl, hmet.1, hnew, (inventedPrefix_ne _ (by decide)), .inr ⟨hfind, rfl⟩⟩

theorem sound_nil (registry : PrefixRegistry) : Sound registry [] where
  spaces := List.forall_mem_nil _
  prefixes := List.forall_mem_nil _
  pfx_nodup := List.nodup_nil
  uri_nodup := List.nodup_nil

/-- **The prefix for a namespace that was not met is not in use**: a registered prefix has one
namespace, a made-up one cannot be registered, and two made-up ones were made up at different
times. -/
theorem Sound.pfx_ne {registry : PrefixRegistry} {used : UsedPrefixes} (hregistry : registry.Sound)
    (h : used.Sound registry) {pfx uri : String} (hnew : ∀ b ∈ used, b.uri ≠ uri)
    (hpfx : registry.find? uri = some pfx ∨
      (registry.find? uri = none ∧ pfx = inventedPrefix used.length)) :
    ∀ b ∈ used, b.pfx ≠ pfx := by
  have hregistered : ∀ {u p}, registry.find? u = some p → (⟨p, u⟩ : Binding) ∈ registry :=
    fun hfind => (PrefixRegistry.find?_eq_some_iff hregistry.uri_nodup).mp hfind
  intro b hb hsame
  rcases h.prefixes b hb with hb' | ⟨-, k, hk, hb'⟩
  · rcases hpfx with hfound | ⟨-, hinvented⟩
    · have hbinding := List.inj_on_of_nodup_map hregistry.pfx_nodup (hregistered hb')
        (hregistered hfound) hsame
      exact hnew b hb (Binding.mk.inj hbinding).2
    · exact hregistry.find?_ne_inventedPrefix b.uri _
        (hb'.trans (congrArg some (hsame.trans hinvented)))
  · rcases hpfx with hfound | ⟨-, hinvented⟩
    · exact hregistry.find?_ne_inventedPrefix uri k
        (hfound.trans (congrArg some (hsame.symm.trans hb')))
    · have := inventedPrefix_injective (hb'.symm.trans (hsame.trans hinvented))
      omega

/-- **Meeting a namespace keeps the prefixes one-to-one.** -/
theorem Sound.meet {registry : PrefixRegistry} {used : UsedPrefixes} (hregistry : registry.Sound)
    (h : used.Sound registry) (uri : String) : (used.meet registry uri).Sound registry := by
  rcases meet_cases registry used uri with ⟨heq, -⟩ | ⟨pfx, heq, hne, hnew, hxml, hpfx⟩
  · rw [heq]
    exact h
  rw [heq]
  refine ⟨?_, ?_, Keyed.nodup_map_concat h.pfx_nodup (h.pfx_ne hregistry hnew hpfx),
    Keyed.nodup_map_concat h.uri_nodup hnew⟩
  · intro b hb
    rcases List.mem_append.mp hb with hb | hb
    · exact h.spaces b hb
    · rw [List.mem_singleton.mp hb]
      refine ⟨hne, ?_⟩
      intro huri
      have hfind := hregistry.find?_eq_xml_iff.mpr huri
      rcases hpfx with hfound | ⟨hnone, -⟩
      · exact hxml (Option.some.inj (hfound.symm.trans hfind))
      · rw [hfind] at hnone
        cases hnone
  · intro b hb
    rw [List.length_append, List.length_singleton]
    rcases List.mem_append.mp hb with hb | hb
    · exact (h.prefixes b hb).imp_right fun ⟨hnone, k, hk, hpfx⟩ => ⟨hnone, k, by omega, hpfx⟩
    · rw [List.mem_singleton.mp hb]
      exact hpfx.imp_right fun ⟨hnone, hpfx⟩ => ⟨hnone, used.length, by omega, hpfx⟩

section Fold

variable {registry : PrefixRegistry}

theorem Sound.foldl_meet (hregistry : registry.Sound) {used : UsedPrefixes}
    (h : used.Sound registry)
    (uris : List String) : (uris.foldl (UsedPrefixes.meet registry) used).Sound registry := by
  induction uris generalizing used with
  | nil => exact h
  | cons uri uris ih => exact ih (h.meet hregistry uri)

/-- What was met stays. -/
theorem subset_foldl_meet (used : UsedPrefixes) (uris : List String) :
    used ⊆ uris.foldl (meet registry) used := by
  induction uris generalizing used with
  | nil => exact List.Subset.refl _
  | cons uri uris ih =>
    refine List.Subset.trans ?_ (ih (meet registry used uri))
    rcases meet_cases registry used uri with ⟨heq, -⟩ | ⟨pfx, heq, -⟩
    · rw [heq]
      exact List.Subset.refl _
    · rw [heq]
      exact List.subset_append_left _ _

/-- **Every namespace is met**, but for the one that needs no prefix and the one that has one
always. -/
theorem exists_mem_foldl_meet (hregistry : registry.Sound) {uri : String} {uris : List String}
    (h : uri ∈ uris) (hne : uri ≠ "") (hxml : uri ≠ xmlNamespace) (used : UsedPrefixes) :
    ∃ b ∈ uris.foldl (meet registry) used, b.uri = uri := by
  induction uris generalizing used with
  | nil => exact absurd h List.not_mem_nil
  | cons other uris ih =>
    rcases List.mem_cons.mp h with rfl | h
    · have hmet : ∃ b ∈ meet registry used uri, b.uri = uri := by
        rcases meet_cases registry used uri with ⟨heq, hcases⟩ | ⟨pfx, heq, -⟩
        · rcases hcases with rfl | hmem | hfind
          · exact absurd rfl hne
          · rw [heq]
            exact hmem
          · exact absurd (hregistry.find?_eq_xml_iff.mp hfind) hxml
        · rw [heq]
          exact ⟨⟨pfx, uri⟩, List.mem_append_right _ (List.mem_singleton_self _), rfl⟩
      obtain ⟨b, hb, huri⟩ := hmet
      exact ⟨b, subset_foldl_meet (meet registry used uri) uris hb, huri⟩
    · exact ih h (meet registry used other)

/-- Only namespaces that occur are met. -/
theorem mem_of_mem_foldl_meet {used : UsedPrefixes} {uris : List String} {b : Binding}
    (h : b ∈ uris.foldl (meet registry) used) : b ∈ used ∨ b.uri ∈ uris := by
  induction uris generalizing used with
  | nil => exact .inl h
  | cons uri uris ih =>
    rcases ih h with hmem | hmem
    · rcases meet_cases registry used uri with ⟨heq, -⟩ | ⟨pfx, heq, -⟩
      · rw [heq] at hmem
        exact .inl hmem
      · rw [heq] at hmem
        refine (List.mem_append.mp hmem).imp_right fun hb => ?_
        rw [List.mem_singleton.mp hb]
        exact List.mem_cons_self
    · exact .inr (List.mem_cons_of_mem _ hmem)

end Fold

end UsedPrefixes

/-! ## Names as they are written -/

/-- The namespaces of all names in a tree. -/
def Element.allSpaces (root : Element) : List String := root.walk.flatMap (·.2.ownSpaces)

/-- A local name under a prefix; an empty prefix leaves it bare. -/
def qualify (pfx localName : String) : String :=
  if pfx = "" then localName else pfx ++ ":" ++ localName

/-- The bindings that the names of a written document are read under. -/
def writtenScope (registry : PrefixRegistry) (root : Element) : List Binding :=
  usedPrefixes registry root ++ [⟨"xml", xmlNamespace⟩]

section Written

variable {registry : PrefixRegistry} (hregistry : registry.Sound) (root : Element)

include hregistry

theorem sound_usedPrefixes : (usedPrefixes registry root).Sound registry :=
  (UsedPrefixes.sound_nil registry).foldl_meet hregistry _

theorem pfx_ne_xml_of_mem_usedPrefixes {b : Binding} (hb : b ∈ usedPrefixes registry root) :
    b.pfx ≠ "xml" := by
  intro hpfx
  have hused := sound_usedPrefixes hregistry root
  rcases hused.prefixes b hb with hfind | ⟨-, k, -, hinvented⟩
  · exact (hused.spaces b hb).2 (hregistry.find?_eq_xml_iff.mp (hpfx ▸ hfind))
  · exact inventedPrefix_ne k (by decide) (hinvented.symm.trans hpfx)

theorem nodup_pfx_writtenScope : ((writtenScope registry root).map (·.pfx)).Nodup :=
  Keyed.nodup_map_concat (sound_usedPrefixes hregistry root).pfx_nodup fun _ hb =>
    pfx_ne_xml_of_mem_usedPrefixes hregistry root hb

theorem nodup_uri_writtenScope : ((writtenScope registry root).map (·.uri)).Nodup := by
  have hused := sound_usedPrefixes hregistry root
  exact Keyed.nodup_map_concat hused.uri_nodup fun b hb => (hused.spaces b hb).2

/-- **A prefix that a document is written under can be declared.** -/
theorem sound_of_mem_usedPrefixes (hspaces : ∀ u ∈ root.allSpaces, u ≠ "" → IsSpace u) {b : Binding}
    (hb : b ∈ usedPrefixes registry root) : b.Sound := by
  have hused := sound_usedPrefixes hregistry root
  obtain ⟨hne, hxml⟩ := hused.spaces b hb
  have hspace : IsSpace b.uri :=
    hspaces b.uri ((UsedPrefixes.mem_of_mem_foldl_meet hb).resolve_left List.not_mem_nil) hne
  have hpfx : (b.pfx = "" ∨ IsToken b.pfx.toList) ∧ b.pfx ≠ "xmlns" := by
    rcases hused.prefixes b hb with hfind | ⟨-, k, -, hinvented⟩
    · have hmem := (PrefixRegistry.find?_eq_some_iff hregistry.uri_nodup).mp hfind
      obtain ⟨⟨hfault, hspelled, -⟩, -⟩ := hregistry.bindings _ hmem
      exact ⟨hspelled, ((Binding.fault?_eq_none_iff _).mp hfault).2.1⟩
    · rw [hinvented]
      exact ⟨.inr (isToken_inventedPrefix k), inventedPrefix_ne k (by decide)⟩
  refine ⟨(Binding.fault?_eq_none_iff b).mpr ⟨fun h => absurd h hne, hpfx.2, hspace.noBrace, ?_,
    hspace.ne_xmlns⟩, hpfx.1, hspace.legible⟩
  exact ⟨fun h => absurd h (pfx_ne_xml_of_mem_usedPrefixes hregistry root hb), fun h =>
    absurd h hxml⟩

/-- **Names in a namespace are written under its prefix.** -/
theorem exists_writtenName_eq {n : Name} (hmem : n.space ∈ root.allSpaces) (hne : n.space ≠ "") :
    ∃ b ∈ writtenScope registry root, b.uri = n.space ∧
      writtenName registry (usedPrefixes registry root) n = qualify b.pfx n.localName := by
  have hused := sound_usedPrefixes hregistry root
  by_cases hxml : n.space = xmlNamespace
  · have hunused : PrefixRegistry.find? (usedPrefixes registry root) n.space = none :=
      PrefixRegistry.find?_eq_none_iff.mpr fun b hb huri => (hused.spaces b hb).2 (huri.trans hxml)
    have hfind : registry.find? n.space = some "xml" := hregistry.find?_eq_xml_iff.mpr hxml
    refine ⟨⟨"xml", xmlNamespace⟩, List.mem_append_right _ (List.mem_singleton_self _),
      hxml.symm, ?_⟩
    simp [writtenName, hne, hunused, hfind, qualify]
  · obtain ⟨b, hb, huri⟩ := UsedPrefixes.exists_mem_foldl_meet hregistry hmem hne hxml []
    have hfind : PrefixRegistry.find? (usedPrefixes registry root) n.space = some b.pfx :=
      (PrefixRegistry.find?_eq_some_iff hused.uri_nodup).mpr (huri ▸ hb)
    refine ⟨b, List.mem_append_left _ hb, huri, ?_⟩
    simp only [writtenName, if_neg hne, hfind, Option.some_or, qualify]
    split <;> simp_all

end Written

end StationNaming.Xml
