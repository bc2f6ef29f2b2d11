import StationNaming.Proofs.Station.Renamed
/-!
# What references point to

A reference holds a name, in an attribute or in a text, and points to the IED that carries it.
Committed renamings are made in IEDs and references at once.

**What is exact.** `pointsTo_of_commit` holds after every list of edits, for every document whose
IEDs all carry a name. A reference that points to an IED points to that very IED afterwards, at the
place where it stood. A reference that points to none keeps its name; since a session knows the
names of IEDs and not those in references, an IED may get that name, and only then does the
reference point to it (`pointsTo_captured`).
-/

namespace StationNaming.Station

open Xml (Element)
open Renaming (substitute)

/-! ## References by their names -/

/-- **An element holds a name at a site**: in its attribute, or as all of its text but the blanks
around it. -/
def Site.Holds (site : Site) (e : Element) (name : String) : Prop :=
  match site with
  | .attribute => e.attribute? referenceKey = some name
  | .text => e.localName = "IEDName" ∧ Unicode.trimString e.text = name

/-- **A document refers to a name** at a site of the element at a path, which is no IED. -/
def Refers (s : Station) (path : Element.Path) (site : Site) (name : String) : Prop :=
  ∃ e, (path, e) ∈ s.root.walk ∧ e.localName ≠ "IED" ∧ site.Holds e name

/-- **A reference points to an IED**, told by the index at which the IED stands: it holds the name
that the IED carries. -/
def PointsTo (s : Station) (path : Element.Path) (site : Site) (i : Nat) : Prop :=
  ∃ name, s.Refers path site name ∧ s.IedAt i name

theorem mem_sitesOf_iff {site : Site} {e : Element} {name : String} :
    site ∈ sitesOf name e ↔ e.localName ≠ "IED" ∧ site.Holds e name := by
  by_cases hied : e.localName = "IED"
  · rw [sitesOf, if_pos ((isIed_iff e).mpr hied)]
    exact ⟨fun h => absurd h List.not_mem_nil, fun h => absurd hied h.1⟩
  · rw [sitesOf, if_neg (mt (isIed_iff e).mp hied)]
    cases site <;> simp [Site.Holds, hied]

/-- The references that are found to a name are the places that refer to it. -/
theorem exists_mem_references_iff {s : Station} {path : Element.Path} {site : Site}
    {name : String} :
    (∃ e, ⟨path, e, site⟩ ∈ s.references name) ↔ s.Refers path site name := by
  simp only [references, List.mem_flatMap, List.mem_map, Prod.exists, Reference.mk.injEq]
  constructor
  · rintro ⟨e, path', e', hwalk, site', hsite, rfl, rfl, rfl⟩
    exact ⟨e', hwalk, mem_sitesOf_iff.mp hsite⟩
  · rintro ⟨e, hwalk, hholds⟩
    exact ⟨e, path, e, hwalk, site, mem_sitesOf_iff.mpr hholds, rfl, rfl, rfl⟩

/-- A site holds one name at most. -/
theorem Site.Holds.unique {site : Site} {e : Element} {name name' : String} (h : site.Holds e name)
    (h' : site.Holds e name') : name = name' := by
  match site, h, h' with
  | .attribute, h, h' => exact Option.some.inj (h.symm.trans h')
  | .text, h, h' => exact h.2.symm.trans h'.2

theorem Refers.unique {s : Station} {path : Element.Path} {site : Site} {name name' : String}
    (h : s.Refers path site name) (h' : s.Refers path site name') : name = name' := by
  obtain ⟨e, hwalk, -, hholds⟩ := h
  obtain ⟨e', hwalk', -, hholds'⟩ := h'
  obtain rfl : e = e' := (Prod.mk.inj (Element.eq_of_mem_walk hwalk hwalk' rfl)).2
  exact hholds.unique hholds'

/-! ## References in a renamed document -/

section Substituted

variable {ops : List Renaming} {s s' : Station} {path : Element.Path} {site : Site}

/-- The text of a reference holds the substitute afterwards, even if the blanks around it are
gone. -/
theorem SubstitutedAt.trim_text {e e' : Element} (h : SubstitutedAt ops (path, e) (path, e'))
    (trimmed : ∀ op ∈ ops, Unicode.trimString op.new = op.new) (once : (ops.map (·.old)).Nodup)
    (hlocal : e.localName = "IEDName") :
    Unicode.trimString e'.text = substitute ops (Unicode.trimString e.text) := by
  by_cases hold : Unicode.trimString e.text ∈ ops.map (·.old)
  · have htext : e'.text = substitute ops (Unicode.trimString e.text) := h.text_renamed hlocal hold
    obtain ⟨op, hop, hname⟩ := List.mem_map.mp hold
    rw [htext, ← hname, Renaming.substitute_of_mem once hop, trimmed op hop]
  · have htext : e'.text = e.text := h.text_kept fun hrenamed => hold hrenamed.2
    rw [htext, Renaming.substitute_of_notMem hold]

theorem SubstitutedAt.holds_iff {e e' : Element} (h : SubstitutedAt ops (path, e) (path, e'))
    (trimmed : ∀ op ∈ ops, Unicode.trimString op.new = op.new) (once : (ops.map (·.old)).Nodup)
    (hied : e.localName ≠ "IED") {name' : String} :
    site.Holds e' name' ↔ ∃ name, site.Holds e name ∧ name' = substitute ops name := by
  match site with
  | .attribute =>
    have hlookup : e'.attribute? referenceKey = (e.attribute? referenceKey).map (substitute ops) :=
      h.renamed ⟨"", referenceKey⟩ (.inr ⟨hied, rfl⟩)
    simp only [Site.Holds, hlookup, Option.map_eq_some_iff, @eq_comm _ name']
  | .text =>
    have hlocal : e'.localName = e.localName := h.localName_eq
    constructor
    · rintro ⟨hname, rfl⟩
      exact ⟨_, ⟨hlocal ▸ hname, rfl⟩, h.trim_text trimmed once (hlocal ▸ hname)⟩
    · rintro ⟨_, ⟨hname, rfl⟩, rfl⟩
      exact ⟨hlocal ▸ hname, h.trim_text trimmed once hname⟩

/-- **Where a document refers to a name** it refers to the substitute of that name afterwards. -/
theorem Substituted.refers_iff (h : Substituted ops s s')
    (trimmed : ∀ op ∈ ops, Unicode.trimString op.new = op.new) (once : (ops.map (·.old)).Nodup)
    {name' : String} :
    s'.Refers path site name' ↔ ∃ name, s.Refers path site name ∧ name' = substitute ops name := by
  constructor
  · rintro ⟨e', hwalk', hied', hholds'⟩
    obtain ⟨e, hwalk, hat⟩ := h.exists_before hwalk'
    have hied : e.localName ≠ "IED" := hat.localName_eq ▸ hied'
    obtain ⟨name, hholds, rfl⟩ := (hat.holds_iff trimmed once hied).mp hholds'
    exact ⟨name, ⟨e, hwalk, hied, hholds⟩, rfl⟩
  · rintro ⟨name, ⟨e, hwalk, hied, hholds⟩, rfl⟩
    obtain ⟨e', hwalk', hat⟩ := h.exists_after hwalk
    have hied' : e'.localName ≠ "IED" := hat.localName_eq.symm ▸ hied
    exact ⟨e', hwalk', hied', (hat.holds_iff trimmed once hied).mpr ⟨name, hholds, rfl⟩⟩

/-- **A reference that points to an IED points to it afterwards**, and to no other one, if different
IEDs keep different names. -/
theorem Substituted.pointsTo_iff (h : Substituted ops s s')
    (trimmed : ∀ op ∈ ops, Unicode.trimString op.new = op.new) (once : (ops.map (·.old)).Nodup)
    (injOn : ∀ {i j : Nat} {name name' : String}, s.IedAt i name → s.IedAt j name' →
      substitute ops name = substitute ops name' → name = name')
    (hpoints : ∃ j, s.PointsTo path site j) (i : Nat) :
    s'.PointsTo path site i ↔ s.PointsTo path site i := by
  obtain ⟨j, target, htarget, hj⟩ := hpoints
  constructor
  · rintro ⟨name', hrefers', hied'⟩
    obtain ⟨name, hrefers, rfl⟩ := (h.refers_iff trimmed once).mp hrefers'
    obtain ⟨own, hown, heq⟩ := h.iedAt_iff.mp hied'
    obtain rfl : name = target := hrefers.unique htarget
    obtain rfl : name = own := injOn hj hown heq
    exact ⟨name, hrefers, hown⟩
  · rintro ⟨name, hrefers, hied⟩
    exact ⟨substitute ops name, (h.refers_iff trimmed once).mpr ⟨name, hrefers, rfl⟩,
      h.iedAt_iff.mpr ⟨name, hied, rfl⟩⟩

/-- **A reference that points to no IED keeps its name**, and points to an IED afterwards only if
that IED was renamed to it. -/
theorem Substituted.pointsTo_iff_of_dangling (h : Substituted ops s s')
    (trimmed : ∀ op ∈ ops, Unicode.trimString op.new = op.new) (once : (ops.map (·.old)).Nodup)
    (found : ∀ op ∈ ops, ∃ i, s.IedAt i op.old) {name : String} (hrefers : s.Refers path site name)
    (hnone : ¬ ∃ i, s.PointsTo path site i) :
    s'.Refers path site name ∧
      ∀ i, s'.PointsTo path site i ↔ ∃ op ∈ ops, op.new = name ∧ s.IedAt i op.old := by
  have hfree : ∀ i, ¬ s.IedAt i name := fun i hi => hnone ⟨i, name, hrefers, hi⟩
  have hkept : substitute ops name = name := by
    refine Renaming.substitute_of_notMem fun hmem => ?_
    obtain ⟨op, hop, rfl⟩ := List.mem_map.mp hmem
    obtain ⟨i, hi⟩ := found op hop
    exact hfree i hi
  have hafter : s'.Refers path site name :=
    (h.refers_iff trimmed once).mpr ⟨name, hrefers, hkept.symm⟩
  refine ⟨hafter, fun i => ⟨?_, ?_⟩⟩
  · rintro ⟨name', hrefers', hied'⟩
    obtain rfl : name' = name := hrefers'.unique hafter
    obtain ⟨own, hown, heq⟩ := h.iedAt_iff.mp hied'
    -- The IED did not carry the name before, so it is one of those that were renamed.
    have hrenamed : own ∈ ops.map (·.old) := by
      by_contra hnot
      rw [Renaming.substitute_of_notMem hnot] at heq
      exact hfree i (heq ▸ hown)
    obtain ⟨op, hop, rfl⟩ := List.mem_map.mp hrenamed
    exact ⟨op, hop, (heq.trans (Renaming.substitute_of_mem once hop)).symm, hown⟩
  · rintro ⟨op, hop, rfl, hied⟩
    exact ⟨op.new, hafter,
      h.iedAt_iff.mpr ⟨op.old, hied, (Renaming.substitute_of_mem once hop).symm⟩⟩

end Substituted

/-! ## References under committed renamings -/

/-- **Committed renamings keep what references point to.** If every IED of a document carries a
name, the document accepts whatever a session over its records commits to. A reference that pointed
to an IED then points to the IED at the same place and to no other. A reference that pointed to none
keeps its name, and points to the IEDs that were renamed to that name, if there are any. -/
theorem pointsTo_of_commit {s : Station} (named : s.Named) {start opened : Editor}
    (loads : start.load s.records = .ok opened) (edits : List Edit) :
    ∃ ops r, (opened.edited edits).commit = .ok ops ∧ s.rename ops = .ok r ∧
      (∀ path site, (∃ i, s.PointsTo path site i) →
        ∀ i, r.station.PointsTo path site i ↔ s.PointsTo path site i) ∧
      ∀ path site name, s.Refers path site name → (¬ ∃ i, s.PointsTo path site i) →
        r.station.Refers path site name ∧
          ∀ i, r.station.PointsTo path site i ↔ ∃ op ∈ ops, op.new = name ∧ s.IedAt i op.old := by
  obtain ⟨l, hrecords, hheld⟩ := Editor.exists_holds_edited loads edits
  obtain ⟨r, hr, hsubstituted⟩ := exists_substituted hrecords named
  have trimmed : ∀ op ∈ l.session.commit, Unicode.trimString op.new = op.new :=
    fun op hop => (Ledger.admissible_new hop).trimString_eq
  refine ⟨l.session.commit, r, Editor.commit_of_holds_some hheld, hr, ?_, ?_⟩
  · intro path site hpoints
    refine hsubstituted.pointsTo_iff trimmed l.old_commit_nodup ?_ hpoints
    intro i j name name' hi hj heq
    have hmem : ∀ {k : Nat} {n : String}, s.IedAt k n → n ∈ l.identities := by
      intro k n hk
      rw [Ledger.identities, hrecords]
      exact mem_names_of_iedAt hk
    exact l.substitute_commit_injOn (hmem hi) (hmem hj) heq
  · intro path site name hrefers hnone
    exact hsubstituted.pointsTo_iff_of_dangling trimmed l.old_commit_nodup
      (found_of_named hrecords named) hrefers hnone

/-- A station with two IEDs, a connection to the first one and a connection to an IED that is not
there. -/
def yard : Station where
  root :=
    let ied (name : String) : Element := .mk ⟨"", "IED"⟩ [(⟨"", "name"⟩, name)] "" [] ""
    let connection (name : String) : Element :=
      .mk ⟨"", "ConnectedAP"⟩ [(⟨"", referenceKey⟩, name)] "" [] ""
    .mk ⟨"", "SCL"⟩ [] "" [connection "A", connection "X", ied "A", ied "B"] ""
  path := "yard.scd"

/-- An editor that has just loaded its records. -/
def openedYard : Editor := ⟨some (Session.ofRecords yard.records)⟩

theorem pointsTo_of_yard :
    yard.Named ∧ ({} : Editor).load yard.records = .ok openedYard ∧
      (openedYard.edited [("A", "X")]).commit = .ok [⟨"A", "X"⟩] ∧
      yard.PointsTo [0] .attribute 2 ∧
      ∃ r, yard.rename [⟨"A", "X"⟩] = .ok r ∧
        ∀ i, r.station.PointsTo [0] .attribute i ↔ yard.PointsTo [0] .attribute i := by
  have hnamed : yard.Named := by decide
  have loads : ({} : Editor).load yard.records = .ok openedYard := rfl
  have commits : (openedYard.edited [("A", "X")]).commit = .ok [⟨"A", "X"⟩] := rfl
  have hpoints : yard.PointsTo [0] .attribute 2 :=
    ⟨"A", exists_mem_references_iff.mp ⟨_, List.mem_cons_self⟩, _, rfl, rfl, rfl⟩
  obtain ⟨ops, r, hops, hr, hkept, -⟩ := pointsTo_of_commit hnamed loads [("A", "X")]
  obtain rfl : ops = [⟨"A", "X"⟩] := Except.ok.inj (hops.symm.trans commits)
  exact ⟨hnamed, loads, commits, hpoints, r, hr, hkept [0] .attribute ⟨2, hpoints⟩⟩

/-- The connection to the missing IED points to the first IED once that one has got its name. -/
theorem pointsTo_captured :
    yard.Named ∧ ({} : Editor).load yard.records = .ok openedYard ∧
      (openedYard.edited [("A", "X")]).commit = .ok [⟨"A", "X"⟩] ∧
      yard.Refers [1] .attribute "X" ∧ (¬ ∃ i, yard.PointsTo [1] .attribute i) ∧
      ∃ r, yard.rename [⟨"A", "X"⟩] = .ok r ∧ r.station.PointsTo [1] .attribute 2 := by
  have hrefers : yard.Refers [1] .attribute "X" :=
    exists_mem_references_iff.mp ⟨_, List.mem_cons_self⟩
  have hnone : ¬ ∃ i, yard.PointsTo [1] .attribute i := by
    rintro ⟨i, name, hname, hied⟩
    obtain rfl : name = "X" := hname.unique hrefers
    obtain ⟨j, hj⟩ := exists_indexOf?_of_iedAt hied
    cases hj
  refine ⟨by decide, rfl, rfl, hrefers, hnone, _, rfl, "X", ?_, _, rfl, rfl, rfl⟩
  exact exists_mem_references_iff.mp ⟨_, List.mem_cons_of_mem _ List.mem_cons_self⟩

end StationNaming.Station
