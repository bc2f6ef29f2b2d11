import StationNaming.Proofs.Xml.Prefixes
import StationNaming.Proofs.Xml.Relabel
import StationNaming.Proofs.Xml.Written
/-!
# What a written tree is read as

The names of a tree are spelled under the prefixes of their namespaces. Read again, a name with a
prefix is the name it was, a bare name of an element is in the default namespace, a bare name of an
attribute is in none, and an attribute that is spelled `xmlns` is no attribute but sets the default
namespace.

**What is exact.** `parse?_write` covers every tree with sound labels, under every sound registry:
the written document can be read exactly if the tree is `Writable`, and then it is read as
`rewritten`.
-/

namespace StationNaming.Xml

/-! ## Spelled names -/

/-- **Declarations that names can be spelled under**: one-to-one, and each can be made in a file. -/
structure Declarable (ws : List Binding) : Prop where
  sound : ∀ b ∈ ws, b.Sound ∧ b.uri ≠ ""
  pfx_nodup : (ws.map (·.pfx)).Nodup
  uri_nodup : (ws.map (·.uri)).Nodup

/-- The prefix of a name, empty for a name in no namespace. -/
def prefixOf (ws : List Binding) (n : Name) : String := (PrefixRegistry.find? ws n.space).getD ""

/-- A name as it is spelled. -/
def spell (ws : List Binding) (n : Name) : String := qualify (prefixOf ws n) n.localName

/-- **A name that can be spelled**: its local name is a run of name characters, and its namespace,
if it is in one, is declared. -/
structure Spells (ws : List Binding) (n : Name) : Prop where
  token : IsToken n.localName.toList
  declared : n.space = "" ∨ ∃ b ∈ ws, b.uri = n.space

/-- The name that an attribute is read with. -/
def asAttribute (ws : List Binding) (n : Name) : Name :=
  if prefixOf ws n = "" then ⟨"", n.localName⟩ else n

/-- The name that an element is read with, under a default namespace. -/
def asElement (ws : List Binding) (dflt : String) (n : Name) : Name :=
  if prefixOf ws n = "" then ⟨dflt, n.localName⟩ else n

@[simp] theorem localName_asAttribute (ws : List Binding) (n : Name) :
    (asAttribute ws n).localName = n.localName := by
  rw [asAttribute]
  split_ifs <;> rfl

@[simp] theorem localName_asElement (ws : List Binding) (dflt : String) (n : Name) :
    (asElement ws dflt n).localName = n.localName := by
  rw [asElement]
  split_ifs <;> rfl

/-- The default namespace that is in force. -/
def Scope.default (scope : Scope) : String := (scope.find? "").getD ""

/-- Every prefix is bound to its namespace; the default namespace may be another one. -/
def Knows (ws : List Binding) (scope : Scope) : Prop :=
  ∀ b ∈ ws, b.pfx ≠ "" → scope.find? b.pfx = some b.uri

/-- A name is spelled `xmlns` only if it is bare. -/
theorem spell_eq_xmlns_iff (ws : List Binding) (n : Name) :
    spell ws n = "xmlns" ↔ prefixOf ws n = "" ∧ n.localName = "xmlns" := by
  rw [spell, qualify]
  split_ifs with hne
  · simp [hne]
  · refine iff_of_false (fun h => ?_) (fun h => hne h.1)
    have hcolon : ':' ∈ (prefixOf ws n ++ ":" ++ n.localName).toList := by simp
    rw [h] at hcolon
    exact absurd hcolon (by decide)

section Names

variable {ws : List Binding} (hws : Declarable ws) {n : Name} (hn : Spells ws n)

include hws

/-- A prefix that is not empty is that of the namespace. -/
theorem mem_of_prefixOf_ne (hne : prefixOf ws n ≠ "") :
    (⟨prefixOf ws n, n.space⟩ : Binding) ∈ ws := by
  cases hfind : PrefixRegistry.find? ws n.space with
  | none => exact absurd (by rw [prefixOf, hfind]; rfl) hne
  | some pfx =>
    have hpfx : prefixOf ws n = pfx := by rw [prefixOf, hfind]; rfl
    rw [hpfx]
    exact (PrefixRegistry.find?_eq_some_iff hws.uri_nodup).mp hfind

theorem prefixOf_of_mem {b : Binding} (hb : b ∈ ws) (hspace : n.space = b.uri) :
    prefixOf ws n = b.pfx := by
  rw [prefixOf, hspace, (PrefixRegistry.find?_eq_some_iff hws.uri_nodup).mpr hb]
  rfl

theorem prefixOf_of_space_eq (hspace : n.space = "") : prefixOf ws n = "" := by
  have hnone : PrefixRegistry.find? ws n.space = none :=
    PrefixRegistry.find?_eq_none_iff.mpr fun b hb huri => (hws.sound b hb).2 (huri.trans hspace)
  rw [prefixOf, hnone]
  rfl

theorem isToken_prefixOf (hne : prefixOf ws n ≠ "") : IsToken (prefixOf ws n).toList :=
  (hws.sound _ (mem_of_prefixOf_ne hws hne)).1.spelled.resolve_left hne

theorem prefixOf_ne_xmlns : prefixOf ws n ≠ "xmlns" := by
  by_cases hne : prefixOf ws n = ""
  · rw [hne]
    decide
  · have hsound := (hws.sound _ (mem_of_prefixOf_ne hws hne)).1
    exact ((Binding.fault?_eq_none_iff _).mp hsound.faultless).2.1

include hn

/-- **A spelled name is split** into its prefix, if it has one, and its local name. -/
theorem splitQName_spell : splitQName (spell ws n) =
    if prefixOf ws n = "" then (none, n.localName) else (some (prefixOf ws n), n.localName) := by
  rw [spell, qualify]
  split_ifs with hne
  · exact splitQName_of_colon_notMem (colon_notMem_of_isToken hn.token)
  · exact splitQName_append (colon_notMem_of_isToken (isToken_prefixOf hws hne)) _

theorem isQToken_spell : IsQToken (spell ws n).toList := by
  rw [spell, qualify]
  split_ifs with hne
  · exact .inl hn.token
  · refine .inr ⟨(prefixOf ws n).toList, n.localName.toList, ?_, isToken_prefixOf hws hne, hn.token⟩
    simp

/-- **The one spelled name that makes a binding** is `xmlns`. -/
theorem boundPrefix?_spell : boundPrefix? (spell ws n) = if spell ws n = "xmlns" then some ""
    else none := by
  have hsplit := splitQName_spell hws hn
  simp only [spell_eq_xmlns_iff, boundPrefix?, hsplit]
  split_ifs with hne hxmlns hxmlns
  · simp [hxmlns.2]
  · have hlocal : n.localName ≠ "xmlns" := fun h => hxmlns ⟨hne, h⟩
    split <;> simp_all
  · exact absurd hxmlns.1 hne
  · have hpfx := prefixOf_ne_xmlns hws (n := n)
    split <;> simp_all

theorem resolveAttribute_spell {scope : Scope} (hknows : Knows ws scope) :
    resolveAttribute scope (spell ws n) = some (asAttribute ws n) := by
  rw [resolveAttribute, splitQName_spell hws hn, asAttribute]
  split_ifs with hne
  · simp [spell, qualify, hne]
  · have hfind := hknows _ (mem_of_prefixOf_ne hws hne) hne
    simp [hfind]

theorem resolveElement_spell {scope : Scope} (hknows : Knows ws scope) :
    resolveElement scope (spell ws n) = some (asElement ws scope.default n) := by
  rw [resolveElement, splitQName_spell hws hn, asElement]
  split_ifs with hne
  · simp [spell, qualify, hne, Scope.default]
  · have hfind := hknows _ (mem_of_prefixOf_ne hws hne) hne
    simp [hfind]

end Names

/-- **Names that are spelled alike and are read in a namespace are one name.** -/
theorem eq_of_asAttribute_eq {ws : List Binding} {m n : Name}
    (h : asAttribute ws m = asAttribute ws n)
    (hne : (asAttribute ws m).space ≠ "") : m = n := by
  unfold asAttribute at h hne
  split_ifs at h hne with hm hn
  · exact absurd rfl hne
  · exact absurd rfl hne
  · rw [h] at hne
    exact absurd rfl hne
  · exact h

/-! ## Tags -/

/-- Attributes as they are spelled. -/
def spelled (ws : List Binding) (as : List Attribute) : List WrittenAttribute :=
  as.map fun a => (spell ws a.1, a.2)

/-- The attributes that are read: those that do not set the default namespace. -/
def readAttributes (ws : List Binding) (as : List Attribute) : List Attribute :=
  (as.filter fun a => spell ws a.1 != "xmlns").map fun a => (asAttribute ws a.1, a.2)

/-- **The default namespace inside an element**: one that an attribute sets, or the one around
it. -/
def innerDefault (ws : List Binding) (dflt : String) (as : List Attribute) : String :=
  as.foldl (fun d a => if spell ws a.1 = "xmlns" then a.2 else d) dflt

/-- The name of the attribute that declares a prefix. -/
def declaredName (b : Binding) : String := if b.pfx = "" then "xmlns" else "xmlns:" ++ b.pfx

/-- The attributes that declare prefixes. -/
def declarations (ds : List Binding) : List WrittenAttribute :=
  ds.map fun b => (declaredName b, b.uri)

theorem boundPrefix?_declaredName (b : Binding) : boundPrefix? (declaredName b) = some b.pfx := by
  rw [declaredName]
  split_ifs with hpfx
  · rw [hpfx]
    rfl
  · have hsplit : splitQName ("xmlns:" ++ b.pfx) = (some "xmlns", b.pfx) :=
      splitQName_append (p := "xmlns") (by decide) b.pfx
    simp only [boundPrefix?, hsplit]

theorem bindingsOf_declarations (ds : List Binding) : bindingsOf (declarations ds) = ds := by
  simp [bindingsOf, declarations, List.filterMap_map, boundPrefix?_declaredName]

theorem plainOf_declarations (ds : List Binding) : plainOf (declarations ds) = [] := by
  simp [plainOf, declarations, boundPrefix?_declaredName]

theorem find?_cons (b : Binding) (scope : Scope) (pfx : String) :
    Scope.find? (b :: scope) pfx =
      if b.pfx = pfx then (if b.uri = "" then none else some b.uri) else scope.find? pfx := by
  by_cases hpfx : b.pfx = pfx <;> simp [Scope.find?, hpfx]

section Tags

variable {ws : List Binding} (hws : Declarable ws)

include hws

theorem bindingsOf_spelled {as : List Attribute} (has : ∀ a ∈ as, Spells ws a.1) :
    bindingsOf (spelled ws as) =
      (as.filter fun a => spell ws a.1 == "xmlns").map fun a => ⟨"", a.2⟩ := by
  induction as with
  | nil => rfl
  | cons a as ih =>
    obtain ⟨ha, has⟩ := List.forall_mem_cons.mp has
    rw [bindingsOf, spelled] at ih
    rw [bindingsOf, spelled, List.map_cons, List.filterMap_cons, ih has, boundPrefix?_spell hws ha,
      List.filter_cons]
    by_cases hxmlns : spell ws a.1 = "xmlns" <;> simp [hxmlns]

theorem plainOf_spelled {as : List Attribute} (has : ∀ a ∈ as, Spells ws a.1) :
    plainOf (spelled ws as) = spelled ws (as.filter fun a => spell ws a.1 != "xmlns") := by
  rw [plainOf, spelled, spelled, List.filter_map]
  congr 1
  refine List.filter_congr fun a ha => ?_
  rw [Function.comp_apply, boundPrefix?_spell hws (has a ha)]
  split_ifs with hxmlns <;> simp [hxmlns]

/-- Setting the default namespace leaves all prefixes bound. -/
theorem knows_inside {scope : Scope} (hknows : Knows ws scope) {as : List Attribute}
    (has : ∀ a ∈ as, Spells ws a.1) : Knows ws ((bindingsOf (spelled ws as)).reverse ++ scope) := by
  have hdefaults : ∀ b ∈ (bindingsOf (spelled ws as)).reverse, b.pfx = "" := by
    intro b hb
    rw [List.mem_reverse, bindingsOf_spelled hws has] at hb
    obtain ⟨a, -, rfl⟩ := List.mem_map.mp hb
    rfl
  generalize (bindingsOf (spelled ws as)).reverse = bs at hdefaults
  induction bs with
  | nil => exact hknows
  | cons b bs ih =>
    obtain ⟨hb, hbs⟩ := List.forall_mem_cons.mp hdefaults
    intro d hd hne
    rw [List.cons_append, find?_cons, hb, if_neg (Ne.symm hne)]
    exact ih hbs d hd hne

/-- The default namespace that the attributes of a tag leave. -/
theorem default_inside (scope : Scope) {as : List Attribute} (has : ∀ a ∈ as, Spells ws a.1) :
    Scope.default ((bindingsOf (spelled ws as)).reverse ++ scope) =
      innerDefault ws scope.default as := by
  rw [bindingsOf_spelled hws has]
  clear has
  induction as generalizing scope with
  | nil => rfl
  | cons a as ih =>
    rw [innerDefault, List.foldl_cons, List.filter_cons]
    by_cases hxmlns : spell ws a.1 = "xmlns"
    · have hdefault : Scope.default (⟨"", a.2⟩ :: scope) = a.2 := by
        rw [Scope.default, find?_cons, if_pos rfl]
        split_ifs with hempty
        · exact hempty.symm
        · rfl
      rw [if_pos (by simpa using hxmlns), if_pos hxmlns, List.map_cons, List.reverse_cons,
        List.append_assoc, List.singleton_append, ih, hdefault, innerDefault]
    · rw [if_neg (by simpa using hxmlns), if_neg hxmlns, ih, innerDefault]

/-- **Attributes that are spelled differently are read as different ones.** -/
theorem resolveAttributes_spelled {scope : Scope} (hknows : Knows ws scope)
    {done as : List Attribute} (has : ∀ a ∈ as, Spells ws a.1)
    (hnodup : (spelled ws (done ++ as)).map (·.1) |>.Nodup) :
    resolveAttributes scope (done.map fun a => (asAttribute ws a.1, a.2)) (spelled ws as) =
      .ok ((done ++ as).map fun a => (asAttribute ws a.1, a.2)) := by
  induction as generalizing done with
  | nil => simp [spelled, resolveAttributes]
  | cons a as ih =>
    obtain ⟨ha, has⟩ := List.forall_mem_cons.mp has
    have hnew : ((asAttribute ws a.1).space != "" &&
        (done.map fun d => (asAttribute ws d.1, d.2)).any (·.1 == asAttribute ws a.1)) = false := by
      rw [Bool.and_eq_false_iff, or_iff_not_imp_left, Bool.not_eq_false, bne_iff_ne]
      intro hne
      rw [List.any_eq_false]
      intro x hx hsame
      obtain ⟨d, hd, rfl⟩ := List.mem_map.mp hx
      -- Two names that are read in one namespace are one name, so they are spelled alike.
      have heq : a.1 = d.1 := eq_of_asAttribute_eq (beq_iff_eq.mp hsame).symm hne
      rw [spelled, List.map_append, List.map_append, List.nodup_append] at hnodup
      refine hnodup.2.2 (spell ws d.1) ?_ (spell ws a.1) ?_ (by rw [heq])
      · simpa using ⟨d.1, ⟨d.2, hd⟩, rfl⟩
      · simp
    have hnodup' : ((spelled ws ((done ++ [a]) ++ as)).map (·.1)).Nodup := by
      rw [List.append_assoc]
      exact hnodup
    have hrest := ih has hnodup'
    rw [List.map_append, List.map_singleton] at hrest
    rw [spelled, List.map_cons, resolveAttributes, resolveAttribute_spell hws ha hknows]
    simp only [hnew, Bool.false_eq_true, if_false]
    rw [spelled] at hrest
    rw [hrest, List.append_assoc]
    rfl

/-- **When a start tag can be read**, with declarations in front of the attributes of its
element. -/
structure TagWritable (ws ds : List Binding) (n : Name) (as : List Attribute) : Prop where
  name : IsQName (spell ws n).toList
  names : ∀ a ∈ declarations ds ++ spelled ws as, IsQName a.1.toList
  distinct : ((declarations ds ++ spelled ws as).map (·.1)).Nodup
  bindable : ∀ a ∈ as, spell ws a.1 = "xmlns" → (⟨"", a.2⟩ : Binding).fault? = none

omit hws in
theorem faultless_bindingsOf_iff {ds : List Binding} (hds : ∀ b ∈ ds, b.fault? = none)
    (hws : Declarable ws) {as : List Attribute} (has : ∀ a ∈ as, Spells ws a.1) :
    (∀ b ∈ bindingsOf (declarations ds ++ spelled ws as), b.fault? = none) ↔
      ∀ a ∈ as, spell ws a.1 = "xmlns" → (⟨"", a.2⟩ : Binding).fault? = none := by
  rw [bindingsOf_append, bindingsOf_declarations, bindingsOf_spelled hws has,
    List.forall_mem_append]
  constructor
  · rintro ⟨-, h⟩ a ha hxmlns
    exact h ⟨"", a.2⟩ (List.mem_map.mpr ⟨a, List.mem_filter.mpr ⟨ha, by simpa using hxmlns⟩, rfl⟩)
  · refine fun h => ⟨hds, fun b hb => ?_⟩
    obtain ⟨a, ha, rfl⟩ := List.mem_map.mp hb
    obtain ⟨ha, hxmlns⟩ := List.mem_filter.mp ha
    exact h a ha (by simpa using hxmlns)

/-- **What a written start tag says**, if it can be read. -/
theorem readableTag_eq_some_iff {ds : List Binding} (hds : ∀ b ∈ ds, b.fault? = none)
    {scope : Scope}
    (hknows : Knows ws (ds.reverse ++ scope)) {n : Name} (hn : Spells ws n) {as : List Attribute}
    (has : ∀ a ∈ as, Spells ws a.1) (said : StartTag) :
    readableTag scope (spell ws n) (declarations ds ++ spelled ws as) = some said ↔
      TagWritable ws ds n as ∧ said =
        { scope := (bindingsOf (spelled ws as)).reverse ++ (ds.reverse ++ scope)
          bound := ds ++ bindingsOf (spelled ws as)
          name := asElement ws (innerDefault ws (Scope.default (ds.reverse ++ scope)) as) n
          attributes := readAttributes ws as } := by
  have hinside : (bindingsOf (declarations ds ++ spelled ws as)).reverse ++ scope =
      (bindingsOf (spelled ws as)).reverse ++ (ds.reverse ++ scope) := by
    rw [bindingsOf_append, bindingsOf_declarations, List.reverse_append, List.append_assoc]
  have hplain : plainOf (declarations ds ++ spelled ws as) =
      spelled ws (as.filter fun a => spell ws a.1 != "xmlns") := by
    rw [plainOf_append, plainOf_declarations, plainOf_spelled hws has, List.nil_append]
  have hknows' := knows_inside hws hknows has
  have helement := resolveElement_spell hws hn hknows'
  rw [default_inside hws _ has] at helement
  have hfaultless := faultless_bindingsOf_iff hds hws has
  have hattributes : ((declarations ds ++ spelled ws as).map (·.1)).Nodup →
      resolveAttributes ((bindingsOf (spelled ws as)).reverse ++ (ds.reverse ++ scope)) []
        (spelled ws (as.filter fun a => spell ws a.1 != "xmlns")) = .ok (readAttributes ws as) := by
    intro hnodup
    have hdistinct : ((spelled ws ([] ++ as.filter fun a => spell ws a.1 != "xmlns")).map
      (·.1)).Nodup := by
      rw [List.map_append] at hnodup
      exact (List.Nodup.of_append_right hnodup).sublist ((List.filter_sublist.map _).map _)
    exact resolveAttributes_spelled hws hknows' (fun a ha => has a (List.mem_of_mem_filter ha))
      hdistinct
  rw [readableTag, readTag, hinside, hplain, helement]
  constructor
  · intro h
    split_ifs at h with hnames htag
    rw [hattributes htag.1] at h
    refine ⟨⟨hnames.1, hnames.2, htag.1, hfaultless.mp htag.2⟩, ?_⟩
    rw [bindingsOf_append, bindingsOf_declarations] at h
    exact (Option.some.inj h).symm
  · rintro ⟨⟨hname, hnames, hnodup, hbindable⟩, rfl⟩
    rw [if_pos ⟨hname, hnames⟩, if_pos ⟨hnodup, hfaultless.mpr hbindable⟩, hattributes hnodup,
      bindingsOf_append, bindingsOf_declarations]
    rfl

end Tags

/-! ## Trees -/

namespace Element

mutual

/-- **The element that a written element is read as**, without its tail, under a default
namespace. -/
def reread (ws : List Binding) (dflt : String) : Element → Element
  | .mk n as t cs _ =>
    .mk (asElement ws (innerDefault ws dflt as) n) (readAttributes ws as) (normalText t)
      (rereadAll ws (innerDefault ws dflt as) cs) ""

/-- The elements that written neighbours are read as. -/
def rereadAll (ws : List Binding) (dflt : String) : List Element → List Element
  | [] => []
  | c :: cs => (reread ws dflt c).addTail (normalText c.tail) :: rereadAll ws dflt cs

end

/-- Every name in a tree can be spelled. -/
def Spellable (ws : List Binding) (e : Element) : Prop :=
  ∀ x ∈ e.walk, Spells ws x.2.name ∧ ∀ a ∈ x.2.attributes, Spells ws a.1

theorem spellable_mk {ws : List Binding} {n : Name} {as : List Attribute} {t : String}
    {cs : List Element} {tl : String} : Spellable ws (.mk n as t cs tl) ↔
      (Spells ws n ∧ ∀ a ∈ as, Spells ws a.1) ∧ ∀ c ∈ cs, Spellable ws c :=
  @forall_mem_walk_mk (fun e => Spells ws e.name ∧ ∀ a ∈ e.attributes, Spells ws a.1) n as t cs tl

/-- Every start tag in a tree can be read. -/
def Writable (ws : List Binding) (e : Element) : Prop :=
  ∀ x ∈ e.walk, TagWritable ws [] x.2.name x.2.attributes

theorem writable_mk {ws : List Binding} {n : Name} {as : List Attribute} {t : String}
    {cs : List Element} {tl : String} : Writable ws (.mk n as t cs tl) ↔
      TagWritable ws [] n as ∧ ∀ c ∈ cs, Writable ws c :=
  @forall_mem_walk_mk (fun e => TagWritable ws [] e.name e.attributes) n as t cs tl

end Element

/-- The markup of an element that declares prefixes in front of its attributes. -/
theorem Element.markup_mk (ws ds : List Binding) (n : Name) (as : List Attribute) (t : String)
    (cs : List Element) (tl : String) :
    (Element.mk n as t cs tl).markup (spell ws) (declarations ds) =
      .mk (spell ws n) (declarations ds ++ spelled ws as) t (Element.markups (spell ws) cs) tl :=
        rfl

/-- **An element with declarations in front** is read as it should be, if its tag and its children
are. -/
theorem element?_markup_mk {ws : List Binding} (hws : Declarable ws) {ds : List Binding}
    (hds : ∀ b ∈ ds, b.fault? = none) {scope : Scope} (hknows : Knows ws (ds.reverse ++ scope))
    {n : Name} (hn : Spells ws n) {as : List Attribute} (has : ∀ a ∈ as, Spells ws a.1) (t : String)
    {cs : List Element} (tl : String)
    (hchildren : ∀ inner : Scope, Knows ws inner → ∀ cs' : List Element,
      Markup.elements? inner (Element.markups (spell ws) cs) = some cs' ↔
        (∀ c ∈ cs, c.Writable ws) ∧ cs' = Element.rereadAll ws inner.default cs) (e' : Element) :
    ((Element.mk n as t cs tl).markup (spell ws) (declarations ds)).element? scope = some e' ↔
      (TagWritable ws ds n as ∧ ∀ c ∈ cs, c.Writable ws) ∧
        e' = (Element.mk n as t cs tl).reread ws (Scope.default (ds.reverse ++ scope)) := by
  have htag := readableTag_eq_some_iff hws hds hknows hn has
  have hinner := hchildren _ (knows_inside hws hknows has)
  rw [default_inside hws _ has] at hinner
  rw [Element.markup_mk, Markup.element?, Option.bind_eq_some_iff, Element.reread]
  constructor
  · rintro ⟨said, hsaid, hmap⟩
    obtain ⟨hwritable, rfl⟩ := (htag said).mp hsaid
    obtain ⟨cs', hcs', rfl⟩ := Option.map_eq_some_iff.mp hmap
    obtain ⟨hall, rfl⟩ := (hinner cs').mp hcs'
    exact ⟨⟨hwritable, hall⟩, rfl⟩
  · rintro ⟨⟨hwritable, hall⟩, rfl⟩
    exact ⟨_, (htag _).mpr ⟨hwritable, rfl⟩,
      Option.map_eq_some_iff.mpr ⟨_, (hinner _).mpr ⟨hall, rfl⟩, rfl⟩⟩

mutual

/-- **A written element is read as it should be**, if its tags can be read. -/
theorem element?_markup {ws : List Binding} (hws : Declarable ws) : (e : Element) → e.Spellable ws →
    ∀ scope : Scope, Knows ws scope → ∀ e' : Element,
      (e.markup (spell ws) []).element? scope = some e' ↔
        e.Writable ws ∧ e' = e.reread ws scope.default
  | .mk n as t cs tl, hspell, scope, hknows, e' => by
    obtain ⟨⟨hn, has⟩, hcs⟩ := Element.spellable_mk.mp hspell
    rw [Element.writable_mk]
    exact @element?_markup_mk ws hws [] (List.forall_mem_nil _) scope hknows n hn as has t cs tl
      (elements?_markups hws cs hcs) e'

/-- Written neighbours are read as they should be, if their tags can be read. -/
theorem elements?_markups {ws : List Binding} (hws : Declarable ws) : (cs : List Element) →
    (∀ c ∈ cs, c.Spellable ws) → ∀ scope : Scope, Knows ws scope → ∀ cs' : List Element,
      Markup.elements? scope (Element.markups (spell ws) cs) = some cs' ↔
        (∀ c ∈ cs, c.Writable ws) ∧ cs' = Element.rereadAll ws scope.default cs
  | [], _, scope, _, cs' => by
    simp [Element.markups, Markup.elements?, Element.rereadAll, eq_comm]
  | c :: cs, hspell, scope, hknows, cs' => by
    obtain ⟨hc, hcs⟩ := List.forall_mem_cons.mp hspell
    have hfirst := element?_markup hws c hc scope hknows
    have hrest := elements?_markups hws cs hcs scope hknows
    rw [Element.markups, Markup.elements?, Option.bind_eq_some_iff, List.forall_mem_cons,
      Element.rereadAll, Element.tail_markup]
    constructor
    · rintro ⟨c', hc', hmap⟩
      obtain ⟨hwritable, rfl⟩ := (hfirst c').mp hc'
      obtain ⟨cs', hcs', rfl⟩ := Option.map_eq_some_iff.mp hmap
      obtain ⟨hall, rfl⟩ := (hrest cs').mp hcs'
      exact ⟨⟨hwritable, hall⟩, rfl⟩
    · rintro ⟨⟨hwritable, hall⟩, rfl⟩
      exact ⟨_, (hfirst _).mpr ⟨hwritable, rfl⟩,
        Option.map_eq_some_iff.mpr ⟨_, (hrest _).mpr ⟨hall, rfl⟩, rfl⟩⟩

end

end StationNaming.Xml
