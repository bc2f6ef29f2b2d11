import StationNaming.Proofs.Station.Slots
/-!
# Renaming is one substitution

Applying a list of renamings to a document amounts to one substitution of names: in the name of
every IED at the top and in every reference, the old name gives way to the new one, whatever else is
renamed at the same time.

**What is exact.** The IEDs have distinct names, no renaming is listed twice, and all old names are
there. Then `rename_eq` gives the whole document after renaming, and `rename_simultaneous` tells it
place by place: shape, names, tails, attributes and their order stay, and only the names held by
IEDs and references are substituted. A text that refers to a renamed IED becomes the new name alone,
without the blanks around the old one.
-/

namespace StationNaming.Station

open Xml (Element Label)
open Renaming (substitute)

/-! ## The whole document -/

/-- Counting the members of a list counts each of them. -/
theorem countP_mem_cons {name : String} {olds : List String} (h : name ∉ olds)
    (names : List String) :
    names.countP (· ∈ name :: olds) = names.count name + names.countP (· ∈ olds) := by
  induction names with
  | nil => rfl
  | cons n names ih =>
    rw [List.countP_cons, List.count_cons, List.countP_cons, ih]
    by_cases hn : n = name
    · subst hn
      simp [h]
      omega
    · by_cases hold : n ∈ olds <;> simp [hn, hold]
      omega

/-- The references of all renamings are counted one renaming after the other. -/
theorem foldl_count {ops : List Renaming} (once : (ops.map (·.old)).Nodup) (names : List String)
    (start : Nat) :
    ops.foldl (fun count op => count + names.count op.old) start =
      start + names.countP (· ∈ ops.map (·.old)) := by
  induction ops generalizing start with
  | nil => simp
  | cons op ops ih =>
    rw [List.map_cons, List.nodup_cons] at once
    rw [List.foldl_cons, ih once.2, List.map_cons, countP_mem_cons once.1, Nat.add_assoc]

/-- All names that a document refers to, in document order. -/
def allReferredNames (s : Station) : List String :=
  s.root.walk.flatMap fun x => referredNames x.2

/-- **The document after a list of renamings**, with what was counted. -/
theorem rename_eq {s : Station} {ops : List Renaming}
    (distinct : (s.records.map (·.name)).Nodup) (once : (ops.map (·.old)).Nodup)
    (found : ∀ op ∈ ops, ∃ i, s.IedAt i op.old) :
    s.rename ops = .ok
      { station := { s with root := s.root.relabel (substitutedLabel ops) }
        ieds := ops.length
        references := s.allReferredNames.countP (· ∈ ops.map (·.old)) } := by
  have hroot : (ops.map s.resolution).foldl Resolved.write s.root =
      s.root.relabel (substitutedLabel ops) := by
    rw [foldl_write_eq]
    -- Each renaming looks at the labels of the document as it was, which are the ones walked here.
    refine Element.relabel_congr fun x hx => ?_
    rw [List.foldl_map, ← foldl_writtenLabel once]
    exact List.foldl_ext _ _ _ fun l op hop => relabel_resolution_eq distinct hx (found op hop) l
  have hcount : (ops.map s.resolution).foldl (fun count r => count + r.references.length) 0 =
      s.allReferredNames.countP (· ∈ ops.map (·.old)) := by
    rw [List.foldl_map]
    have hlength : ∀ op : Renaming,
        (s.resolution op).references.length = s.allReferredNames.count op.old :=
      fun op => length_references s op.old
    simp only [hlength, foldl_count once, Nat.zero_add]
  rw [rename, mapM_resolve found, ← hroot, ← hcount, ← List.length_map (f := s.resolution)]
  rfl

/-- **The order of the renamings does not matter.** -/
theorem rename_perm {s : Station} {ops ops' : List Renaming}
    (distinct : (s.records.map (·.name)).Nodup) (once : (ops.map (·.old)).Nodup)
    (found : ∀ op ∈ ops, ∃ i, s.IedAt i op.old) (hperm : ops'.Perm ops) :
    s.rename ops' = s.rename ops := by
  have holds : (ops'.map (·.old)).Perm (ops.map (·.old)) := hperm.map _
  have hlabel : substitutedLabel ops' = substitutedLabel ops := by
    funext path l
    simp only [substitutedLabel, Renaming.substitute_perm hperm once, holds.mem_iff]
  rw [rename_eq distinct once found,
    rename_eq distinct (holds.nodup_iff.mpr once) fun op hop => found op (hperm.mem_iff.mp hop)]
  simp only [hlabel, holds.mem_iff, hperm.length_eq]

/-! ## Place by place -/

/-- **The attributes that hold the name of an IED**: `name` in an IED at the top, and `iedName` in
every element that is no IED. -/
def HoldsName (path : Element.Path) (e : Element) (key : Xml.Name) : Prop :=
  (path.length = 1 ∧ e.localName = "IED" ∧ key = ⟨"", "name"⟩) ∨
    (e.localName ≠ "IED" ∧ key = ⟨"", referenceKey⟩)

/-- **An element and what a list of renamings makes of it.** It stays where it is, with its name,
its tail, its number of children and the keys of its attributes; names are substituted where it
holds them, and every other value stays. -/
structure SubstitutedAt (ops : List Renaming) (x y : Element.Path × Element) : Prop where
  path_eq : y.1 = x.1
  name_eq : y.2.name = x.2.name
  tail_eq : y.2.tail = x.2.tail
  arity_eq : y.2.children.length = x.2.children.length
  keys_eq : y.2.attributes.map (·.1) = x.2.attributes.map (·.1)
  renamed : ∀ key, HoldsName x.1 x.2 key →
    y.2.attributes.lookup key = (x.2.attributes.lookup key).map (substitute ops)
  kept : ∀ key, ¬ HoldsName x.1 x.2 key →
    y.2.attributes.lookup key = x.2.attributes.lookup key
  text_renamed : x.2.localName = "IEDName" →
    Unicode.trimString x.2.text ∈ ops.map (·.old) →
      y.2.text = substitute ops (Unicode.trimString x.2.text)
  text_kept : ¬ (x.2.localName = "IEDName" ∧ Unicode.trimString x.2.text ∈ ops.map (·.old)) →
    y.2.text = x.2.text

/-- The slot of an attribute that holds a name is what the attribute says. -/
theorem nameSlot?_of_holdsName {path : Element.Path} {e : Element} {key : Xml.Name}
    (h : HoldsName path e key) :
    nameSlot? path e.label = (e.attributes.lookup key).map fun name => (key.localName, name) := by
  rcases h with ⟨hlen, hied, rfl⟩ | ⟨hied, rfl⟩
  · rw [nameSlot?_of_ied hied, if_pos hlen]
    rfl
  · rw [nameSlot?_of_not_ied hied]
    rfl

/-- A slot for a name is an attribute that holds one. -/
theorem holdsName_of_nameSlot? {path : Element.Path} {e : Element} {key name : String}
    (h : nameSlot? path e.label = some (key, name)) : HoldsName path e ⟨"", key⟩ := by
  by_cases hied : e.localName = "IED"
  · rw [nameSlot?_of_ied hied] at h
    by_cases hlen : path.length = 1
    · rw [if_pos hlen] at h
      obtain ⟨_, -, hpair⟩ := Option.map_eq_some_iff.mp h
      exact .inl ⟨hlen, hied, congrArg (Xml.Name.mk "") (Prod.mk.inj hpair).1.symm⟩
    · rw [if_neg hlen] at h
      exact absurd h nofun
  · rw [nameSlot?_of_not_ied hied] at h
    obtain ⟨_, -, hpair⟩ := Option.map_eq_some_iff.mp h
    exact .inr ⟨hied, congrArg (Xml.Name.mk "") (Prod.mk.inj hpair).1.symm⟩

section Attributes

variable {ops : List Renaming} {path : Element.Path} {e : Element} {key : Xml.Name}

theorem keys_substitutedLabel :
    (substitutedLabel ops path e.label).attributes.map (·.1) = e.attributes.map (·.1) := by
  rw [substitutedLabel]
  cases hslot : nameSlot? path e.label with
  | none => rfl
  | some slot =>
    exact Keyed.map_fst_set_of_mem _ (Keyed.mem_keys_of_lookup (lookup_of_nameSlot? hslot))

/-- An attribute that holds a name holds its substitute afterwards. -/
theorem lookup_substitutedLabel_of_holdsName (h : HoldsName path e key) :
    (substitutedLabel ops path e.label).attributes.lookup key =
      (e.attributes.lookup key).map (substitute ops) := by
  have hnamespace : (⟨"", key.localName⟩ : Xml.Name) = key := by
    rcases h with ⟨-, -, rfl⟩ | ⟨-, rfl⟩ <;> rfl
  simp only [substitutedLabel, nameSlot?_of_holdsName h]
  cases hlookup : e.attributes.lookup key with
  | none => exact hlookup
  | some name =>
    show (Keyed.set (⟨"", key.localName⟩ : Xml.Name) _ e.attributes).lookup key = _
    rw [hnamespace, Keyed.lookup_set, if_pos rfl]
    rfl

/-- Every other attribute stays. -/
theorem lookup_substitutedLabel_of_not_holdsName (h : ¬ HoldsName path e key) :
    (substitutedLabel ops path e.label).attributes.lookup key = e.attributes.lookup key := by
  rw [substitutedLabel]
  cases hslot : nameSlot? path e.label with
  | none => rfl
  | some slot =>
    have hne : key ≠ ⟨"", slot.1⟩ := by
      rintro rfl
      exact h (holdsName_of_nameSlot? hslot)
    show (Keyed.set (⟨"", slot.1⟩ : Xml.Name) _ e.attributes).lookup key = _
    rw [Keyed.lookup_set, if_neg hne]

end Attributes

/-- The text of a label after all renamings. -/
theorem text_substitutedLabel (ops : List Renaming) (path : Element.Path) (e : Element) :
    (substitutedLabel ops path e.label).text =
      if e.localName = "IEDName" ∧ Unicode.trimString e.text ∈ ops.map (·.old) then
        substitute ops (Unicode.trimString e.text)
      else e.text := by
  rw [substitutedLabel, textSlot?_label]
  by_cases hlocal : e.localName = "IEDName"
  · simp only [hlocal, true_and]
    rfl
  · simp only [hlocal, false_and, if_false]
    rfl

theorem substitutedAt_of_relabelled {ops : List Renaming} {x y : Element.Path × Element}
    (h : Element.Relabelled (substitutedLabel ops) x y) : SubstitutedAt ops x y where
  path_eq := h.path_eq
  name_eq := congrArg Label.name h.label_eq
  tail_eq := congrArg Label.tail h.label_eq
  arity_eq := h.arity_eq
  keys_eq :=
    (congrArg (fun l : Label => l.attributes.map (·.1)) h.label_eq).trans keys_substitutedLabel
  renamed key hkey :=
    (congrArg (fun l : Label => l.attributes.lookup key) h.label_eq).trans
      (lookup_substitutedLabel_of_holdsName hkey)
  kept key hkey :=
    (congrArg (fun l : Label => l.attributes.lookup key) h.label_eq).trans
      (lookup_substitutedLabel_of_not_holdsName hkey)
  text_renamed hlocal hold :=
    (congrArg Label.text h.label_eq).trans
      ((text_substitutedLabel ops x.1 x.2).trans (if_pos ⟨hlocal, hold⟩))
  text_kept hkept :=
    (congrArg Label.text h.label_eq).trans
      ((text_substitutedLabel ops x.1 x.2).trans (if_neg hkept))

/-- **Renaming is one simultaneous substitution.** If the IEDs have distinct names, no old name is
given twice and every old name is that of an IED at the top, then renaming succeeds, changes every
element as `SubstitutedAt` says and nothing else, counts the references that held an old name, and
gives the same in every order of the renamings. -/
theorem rename_simultaneous (s : Station) (ops : List Renaming)
    (distinct : (s.records.map (·.name)).Nodup) (once : (ops.map (·.old)).Nodup)
    (found : ∀ op ∈ ops, ∃ e ∈ s.root.children,
      e.localName = "IED" ∧ e.attribute? "name" = some op.old) :
    ∃ r : Renamed, s.rename ops = .ok r ∧
      List.Forall₂ (SubstitutedAt ops) s.root.walk r.station.root.walk ∧
      r.station.path = s.path ∧ r.ieds = ops.length ∧
      r.references = s.allReferredNames.countP (· ∈ ops.map (·.old)) ∧
      ∀ ops' : List Renaming, ops'.Perm ops → s.rename ops' = .ok r := by
  have found' : ∀ op ∈ ops, ∃ i, s.IedAt i op.old := by
    intro op hop
    obtain ⟨e, he, hied, hname⟩ := found op hop
    obtain ⟨i, hi⟩ := List.getElem?_of_mem he
    exact ⟨i, e, hi, (isIed_iff e).mpr hied, hname⟩
  refine ⟨_, rename_eq distinct once found', ?_, rfl, rfl, rfl, ?_⟩
  · exact (Element.forall₂_walk_relabel (substitutedLabel ops) s.root).imp
      fun x y h => substitutedAt_of_relabelled h
  · intro ops' hperm
    rw [rename_perm distinct once found' hperm, rename_eq distinct once found']

/-- A station with two IEDs, a connection to the first one and a reader of both. -/
def feeder : Station where
  root :=
    let inside (localName : String) : Xml.Name := ⟨"http://www.iec.ch/61850/2003/SCL", localName⟩
    .mk (inside "SCL") [] "\n"
      [.mk (inside "Communication") [] ""
        [.mk (inside "ConnectedAP") [(⟨"", "iedName"⟩, "Q1"), (⟨"", "apName"⟩, "Q1")] "" [] ""] "",
      .mk (inside "IED") [(⟨"", "desc"⟩, "Q2"), (⟨"", "name"⟩, "Q1")] ""
        [.mk (inside "IEDName") [] " Q2 " [] "\n"] "",
      .mk (inside "IED") [(⟨"", "name"⟩, "Q2")] "Q1" [] "\n"] ""
  path := "feeder.scd"

/-- Swapping the names of the two IEDs is one substitution. -/
theorem rename_simultaneous_feeder :
    (feeder.records.map (·.name)).Nodup ∧
      ∃ r : Renamed, feeder.rename [⟨"Q1", "Q2"⟩, ⟨"Q2", "Q1"⟩] = .ok r ∧
        List.Forall₂ (SubstitutedAt [⟨"Q1", "Q2"⟩, ⟨"Q2", "Q1"⟩]) feeder.root.walk
          r.station.root.walk ∧
        r.ieds = 2 ∧ r.references = 2 ∧ feeder.rename [⟨"Q2", "Q1"⟩, ⟨"Q1", "Q2"⟩] = .ok r := by
  have distinct : (feeder.records.map (·.name)).Nodup := by decide
  obtain ⟨r, hr, hwalk, -, hieds, hreferences, hperm⟩ :=
    rename_simultaneous feeder [⟨"Q1", "Q2"⟩, ⟨"Q2", "Q1"⟩] distinct (by decide) (by decide)
  refine ⟨distinct, r, hr, hwalk, hieds, ?_, hperm _ (List.Perm.swap _ _ [])⟩
  rw [hreferences]
  decide

end StationNaming.Station
