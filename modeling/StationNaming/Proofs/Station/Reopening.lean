import StationNaming.Proofs.Station.Saving
import StationNaming.Proofs.Station.Targets
/-!
# Opening a saved document again

A saved document is opened like any other file. Whether it is opened, and whether it then has the
IEDs and the references that were saved, depends on the prefixes that were registered when it was
saved.

**What is exact.** `reopen_of_save` covers every document that was opened and renamed, saved under
every registry that can be reached and opened under any. `Reopens` lists all that can go wrong: a
tag that cannot be read, a namespace without a registered prefix, attributes that lose their
namespace, and names that are referred to in texts with carriage returns in them.
-/

namespace StationNaming.Station

open Unicode (isBlank trim trimEnd trimStart)
open Xml (Captured Element PrefixRegistry lineEnds normalText parse?)

/-! ## Trimmed texts -/

theorem trimEnd_cons (c : Char) (cs : List Char) :
    trimEnd (c :: cs) = if trimEnd cs = [] ∧ isBlank c = true then [] else c :: trimEnd cs := by
  simp only [trimEnd, List.reverse_cons, List.dropWhile_append, List.reverse_eq_nil_iff,
    List.isEmpty_iff]
  by_cases hrest : List.dropWhile isBlank cs.reverse = []
  · by_cases hblank : isBlank c = true <;> simp [hrest, hblank]
  · simp [hrest]

theorem lineEnds_eq_nil_iff {cs : List Char} : lineEnds cs = [] ↔ cs = [] := by
  fun_cases lineEnds cs <;> simp

/-- Line ends and other blanks are trimmed alike at the front. -/
theorem trimStart_lineEnds (cs : List Char) :
    trimStart (lineEnds cs) = lineEnds (trimStart cs) := by
  have hreturn : isBlank '\r' = true := by decide
  have hfeed : isBlank '\n' = true := by decide
  fun_induction lineEnds cs with
  | case1 cs ih =>
    rw [trimStart] at ih ⊢
    rw [trimStart, List.dropWhile_cons_of_pos hfeed, List.dropWhile_cons_of_pos hreturn,
      List.dropWhile_cons_of_pos hfeed, ih, trimStart]
  | case2 cs _ ih =>
    rw [trimStart] at ih ⊢
    rw [trimStart, List.dropWhile_cons_of_pos hfeed, List.dropWhile_cons_of_pos hreturn,
      ih, trimStart]
  | case3 c cs _ hne ih =>
    by_cases hblank : isBlank c = true
    · rw [trimStart] at ih ⊢
      rw [trimStart, List.dropWhile_cons_of_pos hblank, List.dropWhile_cons_of_pos hblank,
        ih, trimStart]
    · rw [trimStart, trimStart, List.dropWhile_cons_of_neg hblank,
        List.dropWhile_cons_of_neg hblank, Xml.lineEnds_cons hne]
  | case4 => rfl

/-- Line ends and other blanks are trimmed alike at the end. -/
theorem trimEnd_lineEnds (cs : List Char) : trimEnd (lineEnds cs) = lineEnds (trimEnd cs) := by
  have hreturn : isBlank '\r' = true := by decide
  have hfeed : isBlank '\n' = true := by decide
  fun_induction lineEnds cs with
  | case1 cs ih =>
    simp only [trimEnd_cons, ih, lineEnds_eq_nil_iff]
    by_cases hrest : trimEnd cs = []
    · simp [hrest, hreturn, hfeed, lineEnds]
    · simp [hrest, lineEnds]
  | case2 cs hnext ih =>
    simp only [trimEnd_cons, ih, lineEnds_eq_nil_iff]
    by_cases hrest : trimEnd cs = []
    · simp [hrest, hreturn, hfeed, lineEnds]
    · -- What is left of the rest starts as the rest does, so not with a line feed.
      have hhead : (trimEnd cs).head? ≠ some '\n' := by
        cases cs with
        | nil => exact fun h => by cases h
        | cons d cs =>
          rw [trimEnd_cons] at hrest ⊢
          split_ifs at hrest ⊢ with hblank
          · exact absurd rfl hrest
          · exact fun h => hnext cs (by rw [Option.some.inj h])
      simp only [hrest, false_and, if_false, Xml.lineEnds_return hhead]
  | case3 c cs _ hne ih =>
    simp only [trimEnd_cons, ih, lineEnds_eq_nil_iff]
    split_ifs
    · rfl
    · rw [Xml.lineEnds_cons hne]
  | case4 => rfl

theorem return_notMem_lineEnds (cs : List Char) : '\r' ∉ lineEnds cs := by
  fun_induction lineEnds cs with
  | case1 cs ih => simp [ih]
  | case2 cs _ ih => simp [ih]
  | case3 c cs _ hne ih => simp [ih, Ne.symm hne]
  | case4 => simp

/-- **A text is trimmed alike before and after it was saved**, but for line ends inside it. -/
theorem trimString_normalText (s : String) :
    Unicode.trimString (normalText s) = normalText (Unicode.trimString s) := by
  rw [Unicode.trimString, normalText, normalText, Unicode.toList_trimString,
    String.toList_ofList, trim, trim, trimStart_lineEnds, trimEnd_lineEnds]

/-- A text stays as it is if there is no carriage return in it. -/
theorem normalText_eq_self_iff {s : String} : normalText s = s ↔ '\r' ∉ s.toList := by
  constructor
  · intro h
    rw [← h, normalText, String.toList_ofList]
    exact return_notMem_lineEnds s.toList
  · intro h
    have hnone : ∀ c ∈ s.toList, c ≠ '\r' := fun c hc heq => h (heq ▸ hc)
    have happend := Xml.lineEnds_append hnone []
    rw [List.append_nil, lineEnds, List.append_nil] at happend
    rw [normalText, happend, String.ofList_toList]

/-! ## Counting references -/

/-- **How many references of a kind** a document holds to a name. -/
def referenceCount (s : Station) (name : String) (site : Site) : Nat :=
  (s.references name).countP (·.site = site)

/-- An element refers to a name at a site once or not at all. -/
theorem countP_sitesOf (name : String) (e : Element) (site : Site) :
    (sitesOf name e).countP (· = site) = if site ∈ sitesOf name e then 1 else 0 := by
  rw [sitesOf]
  split_ifs <;> cases site <;> simp_all

theorem referenceCount_eq (s : Station) (name : String) (site : Site) :
    s.referenceCount name site = s.root.walk.countP fun x => site ∈ sitesOf name x.2 := by
  rw [referenceCount, references]
  induction s.root.walk with
  | nil => rfl
  | cons x xs ih =>
    have hsites : ((sitesOf name x.2).map fun site => (⟨x.1, x.2, site⟩ : Reference)).countP
      (·.site = site) =
        (sitesOf name x.2).countP (· = site) := by
      rw [List.countP_map]
      rfl
    rw [List.flatMap_cons, List.countP_append, ih, hsites, countP_sitesOf, List.countP_cons,
      Nat.add_comm]
    simp only [decide_eq_true_eq]

section Counting

variable {α β : Type} {R : α → β → Prop} {p : α → Bool} {q : β → Bool} {xs : List α} {ys : List β}

/-- What is counted at the same places is counted alike. -/
theorem countP_eq_of_forall₂ (h : List.Forall₂ R xs ys)
    (hplace : ∀ x ∈ xs, ∀ y, R x y → p x = q y) :
    ys.countP q = xs.countP p := by
  induction h with
  | nil => rfl
  | cons hxy _ ih =>
    obtain ⟨hfirst, hrest⟩ := List.forall_mem_cons.mp hplace
    rw [List.countP_cons, List.countP_cons, ih hrest, hfirst _ hxy]

/-- What is counted at more places is counted more often. -/
theorem countP_le_of_forall₂ (h : List.Forall₂ R xs ys)
    (hplace : ∀ x ∈ xs, ∀ y, R x y → p x = true → q y = true) :
    xs.countP p ≤ ys.countP q := by
  induction h with
  | nil => exact Nat.le_refl 0
  | @cons x y xs ys hxy _ ih =>
    obtain ⟨hfirst, hrest⟩ := List.forall_mem_cons.mp hplace
    have hle := ih hrest
    have himp := hfirst y hxy
    rw [List.countP_cons, List.countP_cons]
    split_ifs with hp hq
    · omega
    · exact absurd (himp hp) hq
    · omega
    · omega

theorem countP_lt_of_forall₂ (h : List.Forall₂ R xs ys)
    (hplace : ∀ x ∈ xs, ∀ y, R x y → p x = true → q y = true)
    {x : α} (hx : x ∈ xs) (hmore : ∀ y, R x y → p x = false ∧ q y = true) :
    xs.countP p < ys.countP q := by
  induction h with
  | nil => exact absurd hx List.not_mem_nil
  | @cons x' y xs ys hxy hrel ih =>
    obtain ⟨hfirst, hrest⟩ := List.forall_mem_cons.mp hplace
    have himp := hfirst y hxy
    rw [List.countP_cons, List.countP_cons]
    rcases List.mem_cons.mp hx with rfl | hx
    · have hle := countP_le_of_forall₂ hrel hrest
      obtain ⟨hp, hq⟩ := hmore y hxy
      simp only [hp, hq, Bool.false_eq_true, if_false, if_true]
      omega
    · have hlt := ih hrest hx
      split_ifs with hp hq
      · omega
      · exact absurd (himp hp) hq
      · omega
      · omega

end Counting

/-! ## References after saving -/

section Saved

variable {registry : PrefixRegistry} (hregistry : registry.Sound) {root : Element}
    (hroot : root.Sound)
  (hwell : Xml.WellWritten registry root)

include hregistry hroot hwell

/-- **An attribute after saving**: what it was, or one that lost its namespace. -/
theorem attribute?_saved {x y : Element.Path × Element} (hx : x ∈ root.walk)
    (hxy : Xml.RereadAt (Xml.writtenScope registry root) (fun _ => True) x y) {key value : String}
    (hkey : key ≠ "xmlns") : y.2.attribute? key = some value ↔
      x.2.attribute? key = some value ∨ Captured (Xml.writtenDefault registry root) key value x.2 :=
  Xml.attribute?_of_rereadAt (Xml.declarable_writtenScope hregistry hroot) hxy
    (Xml.spellable_root hregistry hroot x hx).2 (hroot x hx).distinct
      (hwell.nodup_spelled x hx) hkey

/-- What lost its namespace was not there without one. -/
theorem attribute?_of_captured {x : Element.Path × Element} (hx : x ∈ root.walk)
    {key value : String} (h : Captured (Xml.writtenDefault registry root) key value x.2) :
      x.2.attribute? key = none := by
  rw [Option.eq_none_iff_forall_ne_some]
  intro other hother
  have hnodup : (x.2.attributes.map (·.1)).Nodup := (hroot x hx).distinct
  rw [Element.attribute?, Keyed.lookup_eq_some_iff_mem hnodup] at hother
  exact Xml.not_mem_of_captured (Xml.declarable_writtenScope hregistry hroot)
    (Xml.spellable_root hregistry hroot x hx).2 (hwell.nodup_spelled x hx) h.1 h.2 hother

/-- **References in attributes** are as many as before if none of their attributes was in the
default namespace. -/
theorem attributeCount_saved_iff (htail : root.tail = "") {path out : String} :
    (∀ name, (⟨Xml.rewritten registry root, out⟩ : Station).referenceCount name .attribute =
      (⟨root, path⟩ : Station).referenceCount name .attribute) ↔
    ∀ x ∈ root.walk, x.2.localName ≠ "IED" →
      ∀ value, ¬ Captured (Xml.writtenDefault registry root) referenceKey value x.2 := by
  have hplaces := Xml.forall₂_walk_rewritten_of_any registry htail
  have hat := fun {x y} (hx : x ∈ root.walk) hxy name =>
    @attribute?_saved registry hregistry root hroot hwell x y hx hxy referenceKey name (by decide)
  simp only [referenceCount_eq, mem_sitesOf_iff, Site.Holds]
  constructor
  · intro hcounts x hx hied value hcaptured
    have hlost := attribute?_of_captured hregistry hroot hwell hx hcaptured
    have hlt := countP_lt_of_forall₂ (p := fun x : Element.Path × Element =>
        x.2.localName ≠ "IED" ∧ x.2.attribute? referenceKey = some value)
      (q := fun y : Element.Path × Element =>
        y.2.localName ≠ "IED" ∧ y.2.attribute? referenceKey = some value) hplaces ?_ hx ?_
    · exact absurd (hcounts value) (Nat.ne_of_gt hlt)
    · intro x hx y hxy hp
      simp only [decide_eq_true_eq] at hp ⊢
      exact ⟨hxy.localName_eq ▸ hp.1, (hat hx hxy value).mpr (.inl hp.2)⟩
    · intro y hxy
      simp only [decide_eq_false_iff_not, decide_eq_true_eq]
      refine ⟨fun hp => ?_, hxy.localName_eq ▸ hied, (hat hx hxy value).mpr (.inr hcaptured)⟩
      rw [hlost] at hp
      cases hp.2
  · intro hnone name
    refine countP_eq_of_forall₂ hplaces fun x hx y hxy => ?_
    rw [hxy.localName_eq, decide_eq_decide]
    refine and_congr_right fun hied => ?_
    rw [hat hx hxy name, or_iff_left (hnone x hx hied name)]

omit hregistry hroot hwell in
/-- **References in texts** are as many as before if there is no carriage return in a name. -/
theorem textCount_saved_iff (htail : root.tail = "") {path out : String} :
    (∀ name, (⟨Xml.rewritten registry root, out⟩ : Station).referenceCount name .text =
      (⟨root, path⟩ : Station).referenceCount name .text) ↔
    ∀ x ∈ root.walk, x.2.localName = "IEDName" → '\r' ∉ (Unicode.trimString x.2.text).toList := by
  have hplaces := Xml.forall₂_walk_rewritten_of_any registry htail
  simp only [referenceCount_eq, mem_sitesOf_iff, Site.Holds]
  constructor
  · intro hcounts x hx hlocal hreturn
    have hzero : (Xml.rewritten registry root).walk.countP (fun y => y.2.localName ≠ "IED" ∧
        y.2.localName = "IEDName" ∧ Unicode.trimString y.2.text =
          Unicode.trimString x.2.text) = 0 := by
      rw [List.countP_eq_zero]
      intro y hy hholds
      obtain ⟨x', -, hxy⟩ := exists_mem_of_forall₂ hplaces.flip hy
      simp only [decide_eq_true_eq] at hholds
      -- No text of the saved document has a carriage return in it.
      have hnone := return_notMem_lineEnds (Unicode.trimString x'.2.text).toList
      rw [← hholds.2.2, hxy.text_eq, trimString_normalText, normalText,
        String.toList_ofList] at hreturn
      exact hnone hreturn
    have hpos : 0 < root.walk.countP (fun y => y.2.localName ≠ "IED" ∧
        y.2.localName = "IEDName" ∧ Unicode.trimString y.2.text = Unicode.trimString x.2.text) := by
      rw [List.countP_pos_iff]
      exact ⟨x, hx, by simp [hlocal]⟩
    have heq := hcounts (Unicode.trimString x.2.text)
    omega
  · intro hnone name
    refine countP_eq_of_forall₂ hplaces fun x hx y hxy => ?_
    rw [hxy.localName_eq, hxy.text_eq, trimString_normalText, decide_eq_decide]
    refine and_congr_right fun _ => and_congr_right fun hlocal => ?_
    rw [normalText_eq_self_iff.mpr (hnone x hx hlocal)]

/-! ## Records after saving -/

/-- The attributes that the record of an IED is made of. -/
def recordKeys : List String :=
  ["name", "manufacturer", "type", "desc", "configVersion", "originalSclVersion",
    "originalSclRevision",
    "originalSclRelease"]

section Attributes

variable {x y : Element.Path × Element} (hx : x ∈ root.walk)
  (hxy : Xml.RereadAt (Xml.writtenScope registry root) (fun _ => True) x y)

include hx hxy

/-- An attribute stays as it was, or absent, if none of its name was in the default namespace. -/
theorem attribute?_saved_eq_iff {key : String} (hkey : key ≠ "xmlns") :
    y.2.attribute? key = x.2.attribute? key ↔
      ∀ value, ¬ Captured (Xml.writtenDefault registry root) key value x.2 := by
  have hat := fun value =>
    @attribute?_saved registry hregistry root hroot hwell x y hx hxy key value hkey
  constructor
  · intro heq value hcaptured
    have hfound := (hat value).mpr (.inr hcaptured)
    rw [heq, attribute?_of_captured hregistry hroot hwell hx hcaptured] at hfound
    cases hfound
  · intro hnone
    ext value
    rw [hat value, or_iff_left (hnone value)]

/-- A name, which is empty where there is none, also stays as it was if an empty one comes up. -/
theorem name_saved_eq_iff {key : String} (hkey : key ≠ "xmlns") :
    (y.2.attribute? key).getD "" = (x.2.attribute? key).getD "" ↔
      ∀ value, Captured (Xml.writtenDefault registry root) key value x.2 → value = "" := by
  have hfound := fun value hcaptured =>
    (@attribute?_saved registry hregistry root hroot hwell x y hx hxy key value hkey).mpr
      (.inr hcaptured)
  constructor
  · intro heq value hcaptured
    rw [hfound value hcaptured, attribute?_of_captured hregistry hroot hwell hx hcaptured] at heq
    exact heq
  · intro hempty
    by_cases hcaptured : ∃ value, Captured (Xml.writtenDefault registry root) key value x.2
    · obtain ⟨value, hcaptured⟩ := hcaptured
      rw [hfound value hcaptured, attribute?_of_captured hregistry hroot hwell hx hcaptured]
      exact hempty value hcaptured
    · rw [(attribute?_saved_eq_iff hregistry hroot hwell hx hxy hkey).mpr fun value h =>
        hcaptured ⟨value, h⟩]

/-- A record stays as it was if no attribute that it is made of was in the default namespace; an
empty name makes no difference. -/
theorem recordOf_saved_iff : recordOf y.2 = recordOf x.2 ↔ ∀ key ∈ recordKeys, ∀ value,
    Captured (Xml.writtenDefault registry root) key value x.2 → key = "name" ∧ value = "" := by
  have hname := @name_saved_eq_iff registry hregistry root hroot hwell x y hx hxy "name" (by decide)
  have hother : ∀ {key}, key ≠ "xmlns" → key ≠ "name" → (y.2.attribute? key = x.2.attribute? key ↔
      ∀ value, Captured (Xml.writtenDefault registry root) key value x.2 → key = "name" ∧
        value = "") := by
    intro key hkey hne
    rw [attribute?_saved_eq_iff hregistry hroot hwell hx hxy hkey]
    exact forall_congr' fun value => ⟨fun h hcaptured => absurd hcaptured h, fun h hcaptured =>
      hne (h hcaptured).1⟩
  simp only [recordOf, Ied.mk.injEq, recordKeys, List.forall_mem_cons, List.not_mem_nil,
    false_implies, implies_true, and_true, true_and, hname]
  rw [hother (by decide) (by decide), hother (by decide) (by decide),
    hother (by decide) (by decide),
    hother (by decide) (by decide), hother (by decide) (by decide), hother (by decide) (by decide),
    hother (by decide) (by decide)]

end Attributes

/-- **The IEDs are as before** if none of the attributes of their records was in the default
namespace. -/
theorem records_saved_iff {path out : String} :
    (⟨Xml.rewritten registry root, out⟩ : Station).records = (⟨root, path⟩ : Station).records ↔
      ∀ c ∈ root.children, c.localName = "IED" → ∀ key ∈ recordKeys, ∀ value,
        Captured (Xml.writtenDefault registry root) key value c → key = "name" ∧ value = "" := by
  obtain ⟨saved, hchildren, hplace⟩ := Xml.exists_children_rewritten registry root
  have hied : isIed ∘ saved = isIed := by
    funext c
    exact congrArg (· == "IED") (hplace [] c).localName_eq
  rw [records, records, hchildren, List.filter_map, hied, List.map_map, List.map_inj_left]
  constructor
  · intro hsame c hc hlocal
    obtain ⟨i, hi⟩ := List.mem_iff_getElem?.mp hc
    exact (recordOf_saved_iff hregistry hroot hwell (Element.mem_walk_of_getElem? hi)
      (hplace [i] c)).mp
      (hsame c (List.mem_filter.mpr ⟨hc, (isIed_iff c).mpr hlocal⟩))
  · intro hnone c hc
    obtain ⟨hc, hied⟩ := List.mem_filter.mp hc
    obtain ⟨i, hi⟩ := List.mem_iff_getElem?.mp hc
    exact (recordOf_saved_iff hregistry hroot hwell (Element.mem_walk_of_getElem? hi)
      (hplace [i] c)).mpr
      (hnone c hc ((isIed_iff c).mp hied))

/-! ## Prefixes after saving -/

/-- **Only made-up prefixes are kept ones**, and a namespace gets such a prefix if none is
registered for it. -/
theorem unreserved_saved_iff (htail : root.tail = "") :
    (∀ b ∈ Xml.bindingsIn (Xml.read (Xml.write registry root).toUTF8.toList).events,
      PrefixRegistry.isReserved b.pfx = false) ↔
    ∀ u ∈ root.allSpaces, u ≠ "" → (registry.find? u).isSome = true := by
  have hused := Xml.sound_usedPrefixes hregistry root
  obtain ⟨es, taken, hread, -, hdeclared, honly⟩ :=
    Xml.read_write_of_wellWritten hregistry hroot htail hwell
  rw [hread]
  constructor
  · intro hfree u hu hne
    by_cases hxml : u = Xml.xmlNamespace
    · have hfind := (PrefixRegistry.find?_eq_some_iff hregistry.uri_nodup).mpr hregistry.xml_mem
      rw [hxml, hfind]
      rfl
    · obtain ⟨b, hb, rfl⟩ := Xml.UsedPrefixes.exists_mem_foldl_meet hregistry hu hne hxml []
      rcases hused.prefixes b hb with hfind | ⟨-, k, -, hinvented⟩
      · rw [hfind]
        rfl
      · have hreserved := hfree b (hdeclared b hb)
        rw [hinvented, Xml.isReserved_inventedPrefix] at hreserved
        cases hreserved
  · intro hregistered b hb
    rcases honly b hb with hb | hempty
    · have hspace : b.uri ∈ root.allSpaces :=
        (Xml.UsedPrefixes.mem_of_mem_foldl_meet hb).resolve_left List.not_mem_nil
      rcases hused.prefixes b hb with hfind | ⟨hnone, -⟩
      · exact (hregistry.bindings _
          ((PrefixRegistry.find?_eq_some_iff hregistry.uri_nodup).mp hfind)).2
      · have hsome := hregistered b.uri hspace (hused.spaces b hb).1
        rw [hnone] at hsome
        cases hsome
    · rw [hempty]
      decide

end Saved

/-! ## Opening again -/

/-- **When a saved document is opened again as it was.** All tags can be read, and all namespaces
have a registered prefix. No attribute that matters loses its namespace: none of the record of an
IED, an empty name apart, and none that holds a reference. And no name that is held in a text has a
carriage return in it. -/
structure Reopens (saving : PrefixRegistry) (root : Element) : Prop where
  written : Xml.WellWritten saving root
  registered : ∀ u ∈ root.allSpaces, u ≠ "" → (saving.find? u).isSome = true
  records : ∀ c ∈ root.children, c.localName = "IED" → ∀ key ∈ recordKeys, ∀ value,
    Captured (Xml.writtenDefault saving root) key value c → key = "name" ∧ value = ""
  attributes : ∀ x ∈ root.walk, x.2.localName ≠ "IED" →
    ∀ value, ¬ Captured (Xml.writtenDefault saving root) referenceKey value x.2
  texts : ∀ x ∈ root.walk, x.2.localName = "IEDName" → '\r' ∉ (Unicode.trimString x.2.text).toList

/-- **When a saved document can be opened again.** An opened document, renamed by what a session
commits to and saved under any registry, is opened again under any with the same records and as many
references of each kind, exactly if `Reopens` says so. -/
theorem reopen_of_save {intake : Xml.Intake} {registry : PrefixRegistry} {path : String}
    {bytes : List UInt8} {s : Station} (opens : (ofBytes intake registry path bytes).2 = .ok s)
    {start opened : Editor}
    (loads : start.load s.records = .ok opened) (edits : List Edit) {ops : List Renaming}
    (commits : (opened.edited edits).commit = .ok ops) {r : Renamed}
    (applied : s.rename ops = .ok r)
    {saving : PrefixRegistry} (reached : Reached saving) (again : PrefixRegistry) (out : String) :
    (∃ s', (ofBytes intake again out (r.station.toBytes saving)).2 = .ok s' ∧
      s'.records = r.station.records ∧
        ∀ name site, s'.referenceCount name site = r.station.referenceCount name site) ↔
    Reopens saving r.station.root := by
  obtain ⟨hroot, htail⟩ := sound_of_rename_commit opens loads edits commits applied
  have hparse := Xml.parse?_write reached.sound hroot htail
  constructor
  · rintro ⟨⟨root, out'⟩, hopened, hrecords, hcounts⟩
    obtain ⟨hfree, hparsed, -⟩ := ofBytes_eq_ok_iff.mp hopened
    obtain ⟨hwell, rfl⟩ := (hparse root).mp hparsed
    exact {
      written := hwell
      registered := (unreserved_saved_iff reached.sound hroot hwell htail).mp hfree
      records := (records_saved_iff reached.sound hroot hwell).mp hrecords
      attributes := (attributeCount_saved_iff reached.sound hroot hwell htail).mp
        fun name => hcounts name .attribute
      texts := (textCount_saved_iff htail).mp fun name => hcounts name .text }
  · intro h
    refine ⟨⟨Xml.rewritten saving r.station.root, Files.plainPath out⟩, ?_, ?_, fun name site => ?_⟩
    · exact ofBytes_eq_ok_iff.mpr ⟨(unreserved_saved_iff reached.sound hroot h.written htail).mpr
        h.registered,
        (hparse _).mpr ⟨h.written, rfl⟩, rfl⟩
    · exact (records_saved_iff reached.sound hroot h.written).mpr h.records
    · match site with
      | .attribute =>
        exact (attributeCount_saved_iff reached.sound hroot h.written htail).mpr h.attributes name
      | .text => exact (textCount_saved_iff htail).mpr h.texts name

/-- A document in a default namespace with an IED and references of both kinds to it. -/
def referring (name : String) : Station where
  root := .mk ⟨"u", "SCL"⟩ [] "" [.mk ⟨"u", "IED"⟩ [(⟨"", "name"⟩, name)] "" [] "",
    .mk ⟨"u", "LNode"⟩ [(⟨"", "iedName"⟩, name)] "" [] "", .mk ⟨"u", "IEDName"⟩ [] name [] ""] ""
  path := "d.scd"

/-- The file that document is opened from. -/
def referringFile : String :=
  "<SCL xmlns=\"u\"><IED name=\"A\"/><LNode iedName=\"A\"/><IEDName>A</IEDName></SCL>"

theorem reopen_of_save_referring :
    (ofBytes .patient PrefixRegistry.initial "d.scd" referringFile.toUTF8.toList).2 =
      .ok (referring "A") ∧
      ({} : Editor).load (referring "A").records =
        .ok ⟨some (Session.ofRecords (referring "A").records)⟩ ∧
      ((⟨some (Session.ofRecords (referring "A").records)⟩ : Editor).edited [("A", "B")]).commit =
        .ok [⟨"A", "B"⟩] ∧
      (referring "A").rename [⟨"A", "B"⟩] = .ok ⟨referring "B", 1, 2⟩ ∧
      Reached innerDefaultRegistry ∧ Reopens innerDefaultRegistry (referring "B").root ∧
      ∃ s', (ofBytes .patient innerDefaultRegistry "out.scd"
        ((referring "B").toBytes innerDefaultRegistry)).2 = .ok s' ∧
        s'.records = (referring "B").records ∧
          ∀ name site, s'.referenceCount name site = (referring "B").referenceCount name site := by
  have hopened : ofBytes .patient PrefixRegistry.initial "d.scd" referringFile.toUTF8.toList =
      (innerDefaultRegistry, .ok (referring "A")) :=
    ofBytes_of_read [.bind ⟨"", "u"⟩, .start ⟨"u", "SCL"⟩ [],
      .start ⟨"u", "IED"⟩ [(⟨"", "name"⟩, "A")], .stop,
        .start ⟨"u", "LNode"⟩ [(⟨"", "iedName"⟩, "A")], .stop, .start ⟨"u", "IEDName"⟩ [],
          .text ['A'], .stop,
        .stop]
      (by decide +kernel) (by decide +kernel) (by decide +kernel) rfl (by decide +kernel)
  have hopens : (ofBytes .patient PrefixRegistry.initial "d.scd" referringFile.toUTF8.toList).2 =
      .ok (referring "A") := congrArg Prod.snd hopened
  have hreached : Reached innerDefaultRegistry := Reached.initial.of_opens hopened
  have hloads : ({} : Editor).load (referring "A").records =
      .ok ⟨some (Session.ofRecords (referring "A").records)⟩ := rfl
  have hcommits : ((⟨some (Session.ofRecords (referring "A").records)⟩ : Editor).edited
      [("A", "B")]).commit = .ok [⟨"A", "B"⟩] := rfl
  have happlied : (referring "A").rename [⟨"A", "B"⟩] = .ok ⟨referring "B", 1, 2⟩ := rfl
  obtain ⟨hroot, htail⟩ := sound_of_rename_commit hopens hloads [("A", "B")] hcommits happlied
  have hparses : (parse? ((referring "B").toBytes innerDefaultRegistry)).isSome = true := by
    decide +kernel
  obtain ⟨t, ht⟩ := Option.isSome_iff_exists.mp hparses
  have hspaces : ((referring "B").root.allSpaces.all fun u =>
      u == "" || (innerDefaultRegistry.find? u).isSome) = true := by decide +kernel
  have hbare : ((referring "B").root.walk.all fun x => x.2.attributes.all fun a =>
    a.1.space == "") = true := by
    decide +kernel
  have htexts : ((referring "B").root.walk.all fun x => x.2.localName != "IEDName" ||
      !(Unicode.trimString x.2.text).toList.contains '\r') = true := by decide +kernel
  simp only [List.all_eq_true, Bool.or_eq_true, beq_iff_eq, bne_iff_ne, Bool.not_eq_true',
    ← Bool.not_eq_true, List.contains_iff_mem] at hspaces hbare htexts
  have hfree : ∀ x ∈ (referring "B").root.walk, ∀ key value,
      ¬ Captured (Xml.writtenDefault innerDefaultRegistry (referring "B").root) key value x.2 :=
    fun x hx key value hcaptured => hcaptured.1 (hbare x hx _ hcaptured.2)
  have hreopens : Reopens innerDefaultRegistry (referring "B").root := {
    written := ((Xml.parse?_write hreached.sound hroot htail t).mp ht).1
    registered := fun u hu hne => (hspaces u hu).resolve_left hne
    records := by
      intro c hc _ key _ value hcaptured
      obtain ⟨i, hi⟩ := List.mem_iff_getElem?.mp hc
      exact absurd hcaptured (hfree _ (Element.mem_walk_of_getElem? hi) key value)
    attributes := fun x hx _ value => hfree x hx _ value
    texts := fun x hx hlocal => (htexts x hx).resolve_left (not_not.mpr hlocal) }
  exact ⟨hopens, hloads, hcommits, happlied, hreached, hreopens,
    (reopen_of_save hopens hloads [("A", "B")] hcommits happlied hreached innerDefaultRegistry
      "out.scd").mpr
      hreopens⟩

/-- A document in which one prefix is bound to two namespaces. -/
def rebound : Station where
  root := .mk ⟨"", "SCL"⟩ [] "" [.mk ⟨"u1", "IED"⟩ [(⟨"", "name"⟩, "A")] "" [] "",
    .mk ⟨"", "b"⟩ [] "" [] ""] ""
  path := "d.scd"

/-- That document after its IED was renamed. -/
def reboundRenamed : Station where
  root := .mk ⟨"", "SCL"⟩ [] "" [.mk ⟨"u1", "IED"⟩ [(⟨"", "name"⟩, "B")] "" [] "",
    .mk ⟨"", "b"⟩ [] "" [] ""] ""
  path := "d.scd"

/-- The registry after that document was opened. -/
def reboundRegistry : PrefixRegistry := PrefixRegistry.initial ++ [⟨"p", "u2"⟩]

/-- **A saved document can be refused.** -/
theorem ofBytes_rebound :
    ofBytes .patient PrefixRegistry.initial "d.scd"
          "<SCL xmlns:p=\"u1\"><p:IED name=\"A\"/><b xmlns:p=\"u2\"/></SCL>".toUTF8.toList =
        (reboundRegistry, .ok rebound) ∧
      ({} : Editor).load rebound.records = .ok ⟨some (Session.ofRecords rebound.records)⟩ ∧
      ((⟨some (Session.ofRecords rebound.records)⟩ : Editor).edited [("A", "B")]).commit =
        .ok [⟨"A", "B"⟩] ∧
      rebound.rename [⟨"A", "B"⟩] = .ok ⟨reboundRenamed, 1, 0⟩ ∧
      ofBytes .patient reboundRegistry "out.scd" (reboundRenamed.toBytes reboundRegistry) =
        (reboundRegistry, .error .reservedPrefix) := by
  have hopens : ofBytes .patient PrefixRegistry.initial "d.scd"
      "<SCL xmlns:p=\"u1\"><p:IED name=\"A\"/><b xmlns:p=\"u2\"/></SCL>".toUTF8.toList =
        (reboundRegistry, .ok rebound) :=
    ofBytes_of_read [.bind ⟨"p", "u1"⟩, .start ⟨"", "SCL"⟩ [],
      .start ⟨"u1", "IED"⟩ [(⟨"", "name"⟩, "A")], .stop,
        .bind ⟨"p", "u2"⟩, .start ⟨"", "b"⟩ [], .stop, .stop]
      (by decide +kernel) (by decide +kernel) (by decide +kernel) rfl (by decide +kernel)
  have hrefused : ofBytes .patient reboundRegistry "out.scd"
    (reboundRenamed.toBytes reboundRegistry) =
      (reboundRegistry, .error .reservedPrefix) :=
    ofBytes_of_reserved [.bind ⟨"ns0", "u1"⟩, .start ⟨"", "SCL"⟩ [],
      .start ⟨"u1", "IED"⟩ [(⟨"", "name"⟩, "B")],
        .stop, .start ⟨"", "b"⟩ [], .stop, .stop] (by decide +kernel) (by decide +kernel)
  exact ⟨hopens, rfl, rfl, rfl, hrefused⟩

end StationNaming.Station
