import StationNaming.Proofs.Station.Writing
import StationNaming.Proofs.Substitution
/-!
# The names that a label holds

A label holds names of IEDs in slots: one of its attributes, and its text. A renaming looks at what
the slots held before anything was written, so renamings written one after the other do not see each
other.

**What is exact.** `relabel_resolution_eq` gives the label at a path after one renaming, and
`foldl_writtenLabel` the label after all of them: every slot that held an old name holds the new
one.
-/

namespace StationNaming.Station

open Xml (Element Label)
open Renaming (substitute)

/-! ## Where labels hold names -/

/-- **The attribute in which a label holds the name of an IED, and the name**: an IED at the top
holds its own name, and every element that is no IED the name it refers to. -/
def nameSlot? (path : Element.Path) (l : Label) : Option (String × String) :=
  if l.name.localName = "IED" then
    if path.length = 1 then (l.attributes.lookup ⟨"", "name"⟩).map fun name => ("name", name)
    else none
  else (l.attributes.lookup ⟨"", referenceKey⟩).map fun name => (referenceKey, name)

/-- The name that a label refers to in its text, if it refers to one there. -/
def textSlot? (l : Label) : Option String :=
  if l.name.localName = "IEDName" then some (Unicode.trimString l.text) else none

/-- **A label with all names substituted.** -/
def substitutedLabel (ops : List Renaming) (path : Element.Path) (l : Label) : Label where
  name := l.name
  attributes :=
    match nameSlot? path l with
    | some (key, name) => Keyed.set ⟨"", key⟩ (substitute ops name) l.attributes
    | none => l.attributes
  text :=
    match textSlot? l with
    | some name => if name ∈ ops.map (·.old) then substitute ops name else l.text
    | none => l.text
  tail := l.tail

/-- What one renaming leaves of the attributes of an element that holds a name in a slot. -/
def writtenAttributes (slot : Option (String × String)) (attributes : List Xml.Attribute)
    (op : Renaming) : List Xml.Attribute :=
  match slot with
  | some (key, name) =>
    if op.old = name then Keyed.set ⟨"", key⟩ op.new attributes else attributes
  | none => attributes

/-- What one renaming leaves of the text of an element that refers to a name in it. -/
def writtenText (slot : Option String) (text : String) (op : Renaming) : String :=
  match slot with
  | some name => if op.old = name then op.new else text
  | none => text

/-- A label on which one renaming has written, for an element whose label was `held` when the
renaming was resolved. -/
def writtenLabel (path : Element.Path) (held : Label) (l : Label) (op : Renaming) : Label where
  name := l.name
  attributes := writtenAttributes (nameSlot? path held) l.attributes op
  text := writtenText (textSlot? held) l.text op
  tail := l.tail

/-! ## One renaming at one path -/

theorem isIed_iff (e : Element) : isIed e = true ↔ e.localName = "IED" := beq_iff_eq

theorem nameSlot?_of_ied {e : Element} (hied : e.localName = "IED") (path : Element.Path) :
    nameSlot? path e.label =
      if path.length = 1 then (e.attribute? "name").map fun name => ("name", name) else none :=
  if_pos hied

theorem nameSlot?_of_not_ied {e : Element} (hied : e.localName ≠ "IED") (path : Element.Path) :
    nameSlot? path e.label =
      (e.attribute? referenceKey).map fun name => (referenceKey, name) :=
  if_neg hied

theorem textSlot?_label (e : Element) :
    textSlot? e.label =
      if e.localName = "IEDName" then some (Unicode.trimString e.text) else none := rfl

theorem index_resolution {s : Station} (distinct : (s.records.map (·.name)).Nodup) {op : Renaming}
    {i : Nat} (h : s.IedAt i op.old) : (s.resolution op).index = i := by
  rw [resolution, indexOf?_of_iedAt distinct h]
  rfl

section OnePath

variable {s : Station} {path : Element.Path} {e : Element} {op : Renaming}

/-- A renaming gives the new name to an IED. -/
theorem ied_of_path_eq_index (distinct : (s.records.map (·.name)).Nodup)
    (h : (path, e) ∈ s.root.walk) (found : ∃ i, s.IedAt i op.old)
    (hpath : path = [(s.resolution op).index]) :
    e.localName = "IED" ∧ e.attribute? "name" = some op.old := by
  obtain ⟨i, hi⟩ := found
  rw [index_resolution distinct hi] at hpath
  subst hpath
  obtain ⟨c, hc, hied, hname⟩ := hi
  obtain rfl : c = e := Option.some.inj (hc.symm.trans (Element.getElem?_of_mem_walk h))
  exact ⟨(isIed_iff c).mp hied, hname⟩

/-- The IED at the top that holds the old name is the one that gets the new name. -/
theorem path_eq_index_of_ied (distinct : (s.records.map (·.name)).Nodup)
    (h : (path, e) ∈ s.root.walk) (found : ∃ i, s.IedAt i op.old) (hlen : path.length = 1)
    (hied : e.localName = "IED") (hname : e.attribute? "name" = some op.old) :
    path = [(s.resolution op).index] := by
  obtain ⟨i, hi⟩ := found
  obtain ⟨j, rfl⟩ := List.length_eq_one_iff.mp hlen
  have hj : s.IedAt j op.old :=
    ⟨e, Element.getElem?_of_mem_walk h, (isIed_iff e).mpr hied, hname⟩
  rw [index_resolution distinct hi, IedAt.unique distinct hj hi]

/-- What a renaming writes to an IED: its new name, if it is the one that is renamed. -/
theorem relabel_resolution_of_ied (distinct : (s.records.map (·.name)).Nodup)
    (h : (path, e) ∈ s.root.walk) (found : ∃ i, s.IedAt i op.old) (hied : e.localName = "IED")
    (l : Label) : (s.resolution op).relabel path l = writtenLabel path e.label l op := by
  have hsites : sitesOf op.old e = [] := by rw [sitesOf, if_pos ((isIed_iff e).mpr hied)]
  have htext : textSlot? e.label = none := by
    rw [textSlot?_label, hied]
    rfl
  rw [relabel_resolution h, Element.relabelAt, hsites, List.foldl_nil, writtenLabel, htext,
    nameSlot?_of_ied hied]
  -- An IED refers to nothing, so all that can be written is its own name.
  by_cases hpath : path = [(s.resolution op).index]
  · have hname := (ied_of_path_eq_index distinct h found hpath).2
    have hlen : path.length = 1 := by rw [hpath, List.length_singleton]
    rw [if_pos hpath, if_pos hlen, hname]
    simp [Label.setAttribute, writtenAttributes, writtenText]
  · rw [if_neg hpath]
    by_cases hlen : path.length = 1
    · rw [if_pos hlen]
      cases hname : e.attribute? "name" with
      | none => rfl
      | some name =>
        have hne : op.old ≠ name := by
          rintro rfl
          exact hpath (path_eq_index_of_ied distinct h found hlen hied hname)
        simp [hne, writtenAttributes, writtenText]
    · rw [if_neg hlen]
      rfl

/-- What a renaming writes to an element that is no IED: the new name at each of its sites for the
old one. -/
theorem relabel_resolution_of_not_ied (distinct : (s.records.map (·.name)).Nodup)
    (h : (path, e) ∈ s.root.walk) (found : ∃ i, s.IedAt i op.old) (hied : e.localName ≠ "IED")
    (l : Label) : (s.resolution op).relabel path l = writtenLabel path e.label l op := by
  have hpath : path ≠ [(s.resolution op).index] :=
    fun hpath => hied (ied_of_path_eq_index distinct h found hpath).1
  rw [relabel_resolution h, Element.relabelAt, if_neg hpath, sitesOf,
    if_neg (mt (isIed_iff e).mp hied), List.foldl_append, writtenLabel, textSlot?_label,
    nameSlot?_of_not_ied hied]
  -- The attribute is written before the text, and neither write touches the other slot.
  have hattribute : ∀ l : Label,
      (if e.attribute? referenceKey = some op.old then [Site.attribute] else []).foldl
          (fun l site => site.writeLabel op.new l) l =
        ⟨l.name, writtenAttributes
          ((e.attribute? referenceKey).map fun name => (referenceKey, name)) l.attributes op,
          l.text, l.tail⟩ := by
    intro l
    cases e.attribute? referenceKey with
    | none => rfl
    | some name =>
      by_cases hname : op.old = name
      · simp [hname, Site.writeLabel, Label.setAttribute, writtenAttributes]
      · simp [hname, Ne.symm hname, writtenAttributes]
  have htext : ∀ l : Label,
      (if e.localName = "IEDName" ∧ Unicode.trimString e.text = op.old then [Site.text]
          else []).foldl (fun l site => site.writeLabel op.new l) l =
        ⟨l.name, l.attributes, writtenText
          (if e.localName = "IEDName" then some (Unicode.trimString e.text) else none) l.text op,
          l.tail⟩ := by
    intro l
    by_cases hlocal : e.localName = "IEDName"
    · by_cases hname : op.old = Unicode.trimString e.text
      · simp [hlocal, hname, Site.writeLabel, Label.setText, writtenText]
      · simp [hlocal, hname, Ne.symm hname, writtenText]
    · simp [hlocal, writtenText]
  rw [hattribute, htext]

/-- **What one renaming writes at one path.** -/
theorem relabel_resolution_eq (distinct : (s.records.map (·.name)).Nodup)
    (h : (path, e) ∈ s.root.walk) (found : ∃ i, s.IedAt i op.old) (l : Label) :
    (s.resolution op).relabel path l = writtenLabel path e.label l op := by
  by_cases hied : e.localName = "IED"
  · exact relabel_resolution_of_ied distinct h found hied l
  · exact relabel_resolution_of_not_ied distinct h found hied l

end OnePath

/-! ## All renamings at one path -/

/-- A slot for a name holds the name. -/
theorem lookup_of_nameSlot? {path : Element.Path} {l : Label} {key name : String}
    (h : nameSlot? path l = some (key, name)) : l.attributes.lookup ⟨"", key⟩ = some name := by
  have hmap : ∀ {k : String},
      ((l.attributes.lookup ⟨"", k⟩).map fun name => (k, name)) = some (key, name) →
        l.attributes.lookup ⟨"", key⟩ = some name := by
    intro k hk
    obtain ⟨found, hfound, hpair⟩ := Option.map_eq_some_iff.mp hk
    obtain ⟨rfl, rfl⟩ := Prod.mk.inj hpair
    exact hfound
  unfold nameSlot? at h
  split at h
  · split at h
    · exact hmap h
    · exact absurd h (by simp)
  · exact hmap h

theorem foldl_writtenAttributes {ops : List Renaming} (once : (ops.map (·.old)).Nodup)
    (slot : Option (String × String)) (attributes : List Xml.Attribute) :
    ops.foldl (writtenAttributes slot) attributes =
      match slot with
      | some (key, name) =>
        if name ∈ ops.map (·.old) then Keyed.set ⟨"", key⟩ (substitute ops name) attributes
        else attributes
      | none => attributes := by
  cases slot with
  | none => exact List.foldl_fixed ops
  | some slot =>
    obtain ⟨key, name⟩ := slot
    exact Renaming.foldl_write_substitute (Keyed.set (⟨"", key⟩ : Xml.Name)) name once attributes

theorem foldl_writtenText {ops : List Renaming} (once : (ops.map (·.old)).Nodup)
    (slot : Option String) (text : String) :
    ops.foldl (writtenText slot) text =
      match slot with
      | some name => if name ∈ ops.map (·.old) then substitute ops name else text
      | none => text := by
  cases slot with
  | none => exact List.foldl_fixed ops
  | some name => exact Renaming.foldl_write_substitute (fun new _ => new) name once text

/-- Name, attributes, text and tail are written independently of one another. -/
theorem foldl_writtenLabel_eq (ops : List Renaming) (path : Element.Path) (held l : Label) :
    ops.foldl (writtenLabel path held) l =
      ⟨l.name, ops.foldl (writtenAttributes (nameSlot? path held)) l.attributes,
        ops.foldl (writtenText (textSlot? held)) l.text, l.tail⟩ := by
  induction ops generalizing l with
  | nil => rfl
  | cons op ops ih => exact ih _

/-- **All writes of a list of renamings** substitute the names that a label holds. -/
theorem foldl_writtenLabel {ops : List Renaming} (once : (ops.map (·.old)).Nodup)
    (path : Element.Path) (l : Label) :
    ops.foldl (writtenLabel path l) l = substitutedLabel ops path l := by
  rw [foldl_writtenLabel_eq, foldl_writtenAttributes once, foldl_writtenText once,
    substitutedLabel]
  cases hslot : nameSlot? path l with
  | none => rfl
  | some slot =>
    obtain ⟨key, name⟩ := slot
    by_cases hname : name ∈ ops.map (·.old)
    · simp only [if_pos hname]
    · -- Nothing was written, and the substitute of the name is the name itself.
      simp only [if_neg hname, Renaming.substitute_of_notMem hname,
        Keyed.set_of_lookup (lookup_of_nameSlot? hslot)]

end StationNaming.Station
