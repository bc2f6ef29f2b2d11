import StationNaming.Proofs.Station.Acceptance
import StationNaming.Proofs.Station.Substitution
/-!
# Reading a renamed document

What is read off a document after its names were substituted: which IED stands where and under which
name, and what its records are. A reading afterwards is the reading before with the names
substituted.

**What is exact.** `Substituted` relates two documents place by place, and `iedAt_iff` and
`records_substituted` read the second one off the first. A list of renamings that a document
accepts, none of them twice, makes the one out of the other (`exists_substituted`).
-/

namespace StationNaming.Station

open Xml (Element Label)
open Renaming (substitute)

/-! ## Two documents, place by place -/

/-- **A document and what it is with names substituted.** -/
def Substituted (ops : List Renaming) (s s' : Station) : Prop :=
  s'.root = s.root.relabel (substitutedLabel ops)

section

variable {ops : List Renaming} {s s' : Station}

theorem Substituted.places (h : Substituted ops s s') :
    List.Forall₂ (SubstitutedAt ops) s.root.walk s'.root.walk := by
  rw [h]
  exact (Element.forall₂_walk_relabel (substitutedLabel ops) s.root).imp
    fun _ _ => substitutedAt_of_relabelled

theorem exists_mem_of_forall₂ {α β : Type} {R : α → β → Prop} {l : List α} {l' : List β}
    (h : List.Forall₂ R l l') {x : α} (hx : x ∈ l) : ∃ y ∈ l', R x y := by
  induction h with
  | nil => exact absurd hx List.not_mem_nil
  | @cons a b l l' hab _ ih =>
    rcases List.mem_cons.mp hx with rfl | hx
    · exact ⟨b, List.mem_cons_self, hab⟩
    · obtain ⟨y, hy, hxy⟩ := ih hx
      exact ⟨y, List.mem_cons_of_mem b hy, hxy⟩

theorem Substituted.depth_eq (h : Substituted ops s s') : s'.root.depth = s.root.depth := by
  rw [h, Element.depth_relabel]

/-- What stands at a path before stands there afterwards, with names substituted. -/
theorem Substituted.exists_after (h : Substituted ops s s') {path : Element.Path} {e : Element}
    (he : (path, e) ∈ s.root.walk) :
    ∃ e', (path, e') ∈ s'.root.walk ∧ SubstitutedAt ops (path, e) (path, e') := by
  obtain ⟨⟨path', e'⟩, he', hat⟩ := exists_mem_of_forall₂ h.places he
  obtain rfl : path' = path := hat.path_eq
  exact ⟨e', he', hat⟩

/-- What stands at a path afterwards stood there before. -/
theorem Substituted.exists_before (h : Substituted ops s s') {path : Element.Path} {e' : Element}
    (he' : (path, e') ∈ s'.root.walk) :
    ∃ e, (path, e) ∈ s.root.walk ∧ SubstitutedAt ops (path, e) (path, e') := by
  have hflip : List.Forall₂ (fun y x => SubstitutedAt ops x y) s'.root.walk s.root.walk :=
    List.Forall₂.flip h.places
  obtain ⟨⟨path', e⟩, he, hat⟩ := exists_mem_of_forall₂ hflip he'
  obtain rfl : path = path' := hat.path_eq
  exact ⟨e, he, hat⟩

theorem SubstitutedAt.localName_eq {x y : Element.Path × Element} (h : SubstitutedAt ops x y) :
    y.2.localName = x.2.localName :=
  congrArg Xml.Name.localName h.name_eq

/-- The name of an IED at the top is substituted. -/
theorem SubstitutedAt.ied_name {i : Nat} {e e' : Element} (h : SubstitutedAt ops ([i], e) ([i], e'))
    (hied : e.localName = "IED") :
    e'.attribute? "name" = (e.attribute? "name").map (substitute ops) :=
  h.renamed ⟨"", "name"⟩ (.inl ⟨rfl, hied, rfl⟩)

/-- **Which IED stands where** is as before, and its name is the substitute of the name before. -/
theorem Substituted.iedAt_iff (h : Substituted ops s s') {i : Nat} {name' : String} :
    s'.IedAt i name' ↔ ∃ name, s.IedAt i name ∧ name' = substitute ops name := by
  constructor
  · rintro ⟨e', he', hied', hname'⟩
    obtain ⟨e, he, hat⟩ := h.exists_before (Element.mem_walk_of_getElem? he')
    have hied : e.localName = "IED" := hat.localName_eq.symm.trans ((isIed_iff e').mp hied')
    rw [hat.ied_name hied, Option.map_eq_some_iff] at hname'
    obtain ⟨name, hname, rfl⟩ := hname'
    exact ⟨name, ⟨e, Element.getElem?_of_mem_walk he, (isIed_iff e).mpr hied, hname⟩, rfl⟩
  · rintro ⟨name, ⟨e, he, hied, hname⟩, rfl⟩
    obtain ⟨e', he', hat⟩ := h.exists_after (Element.mem_walk_of_getElem? he)
    have hied := (isIed_iff e).mp hied
    refine ⟨e', Element.getElem?_of_mem_walk he', ?_, ?_⟩
    · exact (isIed_iff e').mpr (hat.localName_eq.trans hied)
    · rw [hat.ied_name hied, hname, Option.map_some]

end

/-! ## Records -/

/-- The record of an IED with its name substituted; the description stays. -/
def substitutedRecord (ops : List Renaming) (r : Ied) : Ied :=
  { r with name := substitute ops r.name }

section

variable {ops : List Renaming}

/-- The attributes of an IED at the top: its name is substituted, and the others stay. -/
theorem attribute?_of_label {i : Nat} {c c' : Element} (hied : c.localName = "IED")
    (hlabel : c'.label = substitutedLabel ops [i] c.label) (key : String) :
    c'.attribute? key =
      if key = "name" then (c.attribute? "name").map (substitute ops) else c.attribute? key := by
  have hattributes : c'.attributes = (substitutedLabel ops [i] c.label).attributes :=
    congrArg Label.attributes hlabel
  rw [Element.attribute?, hattributes]
  by_cases hkey : key = "name"
  · subst hkey
    rw [if_pos rfl]
    exact lookup_substitutedLabel_of_holdsName (.inl ⟨rfl, hied, rfl⟩)
  · rw [if_neg hkey]
    refine lookup_substitutedLabel_of_not_holdsName ?_
    rintro (⟨-, -, hname⟩ | ⟨hnot, -⟩)
    · exact hkey (congrArg Xml.Name.localName hname)
    · exact hnot hied

theorem recordOf_of_label {i : Nat} {c c' : Element} (hied : c.localName = "IED")
    (named : ∃ name, c.attribute? "name" = some name)
    (hlabel : c'.label = substitutedLabel ops [i] c.label) :
    recordOf c' = substitutedRecord ops (recordOf c) := by
  obtain ⟨name, hname⟩ := named
  simp [recordOf, substitutedRecord, attribute?_of_label hied hlabel, hname]

/-- The records of neighbours with names substituted are their records with names substituted. -/
theorem records_relabelAll {cs : List Element}
    (named : ∀ c ∈ cs, c.localName = "IED" → ∃ name, c.attribute? "name" = some name)
    (index : Nat) :
    ((Element.relabelAll (substitutedLabel ops) index cs).filter isIed).map recordOf =
      ((cs.filter isIed).map recordOf).map (substitutedRecord ops) := by
  induction cs generalizing index with
  | nil => rfl
  | cons c cs ih =>
    have hrest := ih (fun d hd => named d (List.mem_cons_of_mem c hd)) (index + 1)
    have hlabel := Element.label_relabel (fun path => substitutedLabel ops (index :: path)) c
    have hied : isIed (c.relabel fun path => substitutedLabel ops (index :: path)) = isIed c :=
      congrArg (fun l : Label => l.name.localName == "IED") hlabel
    rw [Element.relabelAll, List.filter_cons, hied, List.filter_cons]
    -- An IED stays one and gives its record, and everything else is passed over in both.
    by_cases hc : isIed c = true
    · have hname := (isIed_iff c).mp hc
      rw [if_pos hc, if_pos hc, List.map_cons, hrest,
        recordOf_of_label hname (named c List.mem_cons_self hname) hlabel]
      rfl
    · rw [if_neg hc, if_neg hc, hrest]

/-- **The records after renaming** are the records before with the names substituted. -/
theorem records_substituted {s s' : Station} (h : Substituted ops s s') (named : s.Named) :
    s'.records = s.records.map (substitutedRecord ops) := by
  have hchildren : s'.root.children =
      Element.relabelAll (substitutedLabel ops) 0 s.root.children := by
    rw [h]
    cases s.root
    rfl
  rw [records, records, hchildren, records_relabelAll named]

end

/-! ## Committed renamings -/

/-- **A document whose IEDs all carry a name accepts what a session over its records commits to**,
and becomes what it is with names substituted. -/
theorem exists_substituted {s : Station} {l : Ledger} (hrecords : l.records = s.records)
    (named : s.Named) :
    ∃ r, s.rename l.session.commit = .ok r ∧ Substituted l.session.commit s r.station := by
  have distinct : (s.records.map (·.name)).Nodup := hrecords ▸ l.distinct
  exact ⟨_, rename_eq distinct l.old_commit_nodup (found_of_named hrecords named), rfl⟩

end StationNaming.Station
