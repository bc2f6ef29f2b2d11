import StationNaming.Proofs.Editor.Commit
import StationNaming.Proofs.Editor.History
import StationNaming.Proofs.Station.Resolution
/-!
# What a document accepts

A document accepts a list of renamings if it has an IED for every old name. Otherwise it refuses the
whole list, and the first old name that is missing is the reason.

**What is exact.** `exists_rename_iff` and `rename_of_missing` cover every list of renamings. A
session over the records of a document commits to old names that the document has, but for one: the
record of an IED without a name has the empty name, and no IED is found by it. `rename_commit_iff`
shows that this is the one way in which a document refuses what a session over its own records
commits to.
-/

namespace StationNaming.Station

open Xml (Element)

/-! ## Lists of renamings -/

theorem resolve_of_missing {s : Station} {op : Renaming} (missing : ¬ ∃ i, s.IedAt i op.old) :
    s.resolve op = .error op.old := by
  rw [resolve]
  cases hindex : s.indexOf? op.old with
  | none => rfl
  | some i => exact absurd ⟨i, iedAt_of_indexOf? hindex⟩ missing

/-- Renamings of IEDs that are there are accepted. -/
theorem exists_rename_of_found {s : Station} {ops : List Renaming}
    (found : ∀ op ∈ ops, ∃ i, s.IedAt i op.old) : ∃ r, s.rename ops = .ok r := by
  rw [rename, mapM_resolve found]
  exact ⟨_, rfl⟩

/-- **The first renaming whose IED is not there refuses the list**, with its old name. -/
theorem rename_of_missing {s : Station} {before after : List Renaming} {op : Renaming}
    (found : ∀ op' ∈ before, ∃ i, s.IedAt i op'.old) (missing : ¬ ∃ i, s.IedAt i op.old) :
    s.rename (before ++ op :: after) = .error op.old := by
  rw [rename, List.mapM_append, mapM_resolve found, List.mapM_cons, resolve_of_missing missing]
  rfl

/-- Where something is missing, something is missing first. -/
theorem exists_first_missing {s : Station} {ops : List Renaming}
    (h : ¬ ∀ op ∈ ops, ∃ i, s.IedAt i op.old) :
    ∃ before op after, ops = before ++ op :: after ∧
      (∀ op' ∈ before, ∃ i, s.IedAt i op'.old) ∧ ¬ ∃ i, s.IedAt i op.old := by
  induction ops with
  | nil => exact absurd (fun op hop => absurd hop List.not_mem_nil) h
  | cons op ops ih =>
    by_cases hop : ∃ i, s.IedAt i op.old
    · have hrest : ¬ ∀ op ∈ ops, ∃ i, s.IedAt i op.old :=
        fun hall => h (List.forall_mem_cons.mpr ⟨hop, hall⟩)
      obtain ⟨before, op', after, rfl, hbefore, hmissing⟩ := ih hrest
      exact ⟨op :: before, op', after, rfl, List.forall_mem_cons.mpr ⟨hop, hbefore⟩, hmissing⟩
    · exact ⟨[], op, ops, rfl, fun op' hop' => absurd hop' List.not_mem_nil, hop⟩

/-- **A document accepts exactly the renamings of IEDs that are there.** -/
theorem exists_rename_iff {s : Station} {ops : List Renaming} :
    (∃ r, s.rename ops = .ok r) ↔ ∀ op ∈ ops, ∃ i, s.IedAt i op.old := by
  constructor
  · rintro ⟨r, hr⟩
    by_contra hmissing
    obtain ⟨before, op, after, rfl, hbefore, hop⟩ := exists_first_missing hmissing
    rw [rename_of_missing hbefore hop] at hr
    cases hr
  · exact exists_rename_of_found

/-! ## IEDs without a name -/

/-- Every IED of a document carries a name. -/
def Named (s : Station) : Prop :=
  ∀ e ∈ s.root.children, e.localName = "IED" → ∃ name, e.attribute? "name" = some name

theorem named_iff {s : Station} :
    (∀ e ∈ s.root.children, e.localName = "IED" → (e.attribute? "name").isSome = true) ↔
      s.Named := by
  simp only [Named, Option.isSome_iff_exists]

instance (s : Station) : Decidable s.Named := decidable_of_iff _ named_iff

/-- A record is that of an IED at the top. -/
theorem exists_ied_of_mem_records {s : Station} {name : String}
    (h : name ∈ s.records.map (·.name)) :
    ∃ e ∈ s.root.children, isIed e = true ∧ (recordOf e).name = name := by
  rw [records, List.map_map] at h
  obtain ⟨e, he, hname⟩ := List.mem_map.mp h
  obtain ⟨hmem, hied⟩ := List.mem_filter.mp he
  exact ⟨e, hmem, hied, hname⟩

/-- An IED at the top has a record under its name. -/
theorem mem_names_of_iedAt {s : Station} {i : Nat} {name : String} (h : s.IedAt i name) :
    name ∈ s.records.map (·.name) := by
  obtain ⟨e, he, hied, hname⟩ := h
  rw [records, List.map_map]
  exact List.mem_map.mpr
    ⟨e, List.mem_filter.mpr ⟨List.mem_of_getElem? he, hied⟩, name_recordOf hname⟩

theorem iedAt_of_attribute {s : Station} {e : Element} {name : String} (he : e ∈ s.root.children)
    (hied : isIed e = true) (hname : e.attribute? "name" = some name) : ∃ i, s.IedAt i name := by
  obtain ⟨i, hi⟩ := List.getElem?_of_mem he
  exact ⟨i, e, hi, hied, hname⟩

/-- The name of a record is that of an IED, or it is empty for want of a name. -/
theorem exists_iedAt_or_eq_empty {s : Station} {name : String} (h : name ∈ s.records.map (·.name)) :
    (∃ i, s.IedAt i name) ∨ name = "" := by
  obtain ⟨e, he, hied, hrecord⟩ := exists_ied_of_mem_records h
  cases hname : e.attribute? "name" with
  | none =>
    rw [recordOf, hname] at hrecord
    exact .inr hrecord.symm
  | some own =>
    obtain rfl : own = name := (name_recordOf hname).symm.trans hrecord
    exact .inl (iedAt_of_attribute he hied hname)

/-- If every IED carries a name, it is found by the name in its record. -/
theorem exists_iedAt_of_named {s : Station} (named : s.Named) {name : String}
    (h : name ∈ s.records.map (·.name)) : ∃ i, s.IedAt i name := by
  obtain ⟨e, he, hied, hrecord⟩ := exists_ied_of_mem_records h
  obtain ⟨own, hname⟩ := named e he (beq_iff_eq.mp hied)
  obtain rfl : own = name := (name_recordOf hname).symm.trans hrecord
  exact iedAt_of_attribute he hied hname

/-- **An IED without a name is not found again**: its record has the empty name, which no IED
carries if the names of the records are distinct. -/
theorem empty_of_not_named {s : Station} (distinct : (s.records.map (·.name)).Nodup)
    (h : ¬ s.Named) : "" ∈ s.records.map (·.name) ∧ ¬ ∃ i, s.IedAt i "" := by
  obtain ⟨e, he, hied, hname⟩ : ∃ e ∈ s.root.children,
      isIed e = true ∧ e.attribute? "name" = none := by
    by_contra hnone
    refine h fun e he hied => ?_
    cases hname : e.attribute? "name" with
    | none => exact absurd ⟨e, he, beq_iff_eq.mpr hied, hname⟩ hnone
    | some name => exact ⟨name, rfl⟩
  have hrecord : (recordOf e).name = "" := by
    rw [recordOf, hname]
    rfl
  rw [records, List.map_map] at distinct ⊢
  have hmem : e ∈ s.root.children.filter isIed := List.mem_filter.mpr ⟨he, hied⟩
  refine ⟨List.mem_map.mpr ⟨e, hmem, hrecord⟩, ?_⟩
  rintro ⟨i, e', he', hied', hname'⟩
  have hmem' : e' ∈ s.root.children.filter isIed :=
    List.mem_filter.mpr ⟨List.mem_of_getElem? he', hied'⟩
  -- The two records would have one name, so the IEDs would be one and both carry and lack it.
  have hsame : e = e' := List.inj_on_of_nodup_map distinct hmem hmem'
    (hrecord.trans (name_recordOf hname').symm)
  rw [hsame, hname'] at hname
  cases hname

/-! ## What a session commits to -/

section Committed

variable {s : Station} {l : Ledger}

/-- Where every IED carries a name, the document has every IED that a session over its records
renames. -/
theorem found_of_named (hrecords : l.records = s.records) (named : s.Named) :
    ∀ op ∈ l.session.commit, ∃ i, s.IedAt i op.old := by
  intro op hop
  have hmem : op.old ∈ s.records.map (·.name) := hrecords ▸ Ledger.old_mem_identities hop
  exact exists_iedAt_of_named named hmem

/-- A session that commits to something renames every IED whose record has the empty name. -/
theorem exists_renaming_of_empty (hne : l.session.commit ≠ []) (hmem : "" ∈ l.identities) :
    ∃ op ∈ l.session.commit, op.old = "" := by
  have hcommits := (Ledger.commit_session_ne_nil_iff l).mp hne
  rw [← Ledger.map_identity_session] at hmem
  obtain ⟨i, hi, hidentity⟩ := List.mem_map.mp hmem
  -- The empty name may not stand, so another one has been proposed.
  have hchanged : i.current ≠ i.identity := by
    have hadmissible := ((Ledger.isCommittable_session_iff l).mp hcommits).2.2 i hi
    rw [hidentity]
    exact ((Naming.admissible_iff i.current).mp hadmissible).1.ne_empty
  rw [Ledger.commit_session_of_isCommittable hcommits]
  exact ⟨⟨i.identity, i.current⟩,
    List.mem_map.mpr ⟨i, List.mem_filter.mpr ⟨hi, decide_eq_true hchanged⟩, rfl⟩, hidentity⟩

/-- An IED without a name makes the document refuse whatever a session over its records commits
to. -/
theorem rename_commit_of_not_named (hrecords : l.records = s.records)
    (hne : l.session.commit ≠ []) (h : ¬ s.Named) : s.rename l.session.commit = .error "" := by
  have distinct : (s.records.map (·.name)).Nodup := hrecords ▸ l.distinct
  obtain ⟨hmem, hnone⟩ := empty_of_not_named distinct h
  rw [← hrecords] at hmem
  obtain ⟨op, hop, hold⟩ := exists_renaming_of_empty hne hmem
  have hmissing : ¬ ∀ op ∈ l.session.commit, ∃ i, s.IedAt i op.old :=
    fun hall => hnone (hold ▸ hall op hop)
  obtain ⟨before, first, after, hops, hbefore, hfirst⟩ := exists_first_missing hmissing
  have hfirstMem : first ∈ l.session.commit := by rw [hops]; simp
  have hname : first.old ∈ s.records.map (·.name) :=
    hrecords ▸ Ledger.old_mem_identities hfirstMem
  -- Whatever is missing has the empty name, also what is missing first.
  have hempty : first.old = "" := (exists_iedAt_or_eq_empty hname).resolve_left hfirst
  rw [hops, rename_of_missing hbefore hfirst, hempty]

end Committed

/-- **A document accepts what a session over its records commits to, unless an IED has no name.**
After any edits the session commits to some renamings, and the document accepts them exactly if
there are none or every IED carries a name; otherwise it refuses them because it has no IED with the
empty name. -/
theorem rename_commit_iff {s : Station} {start opened : Editor}
    (loads : start.load s.records = .ok opened) (edits : List Edit) :
    ∃ ops, (opened.edited edits).commit = .ok ops ∧
      ((∃ r, s.rename ops = .ok r) ↔ ops = [] ∨ s.Named) ∧
      (¬ (ops = [] ∨ s.Named) → s.rename ops = .error "") := by
  obtain ⟨l, hrecords, hheld⟩ := Editor.exists_holds_edited loads edits
  have hrefused : ¬ (l.session.commit = [] ∨ s.Named) → s.rename l.session.commit = .error "" := by
    intro h
    obtain ⟨hne, hnamed⟩ := not_or.mp h
    exact rename_commit_of_not_named hrecords hne hnamed
  refine ⟨l.session.commit, Editor.commit_of_holds_some hheld, ⟨?_, ?_⟩, hrefused⟩
  · rintro ⟨r, hr⟩
    by_contra h
    rw [hrefused h] at hr
    cases hr
  · rintro (hnil | hnamed)
    · rw [hnil]
      exact exists_rename_of_found fun op hop => absurd hop List.not_mem_nil
    · exact exists_rename_of_found (found_of_named hrecords hnamed)

/-- A station whose only IED has no name. -/
def nameless : Station where
  root := .mk ⟨"", "SCL"⟩ [] "" [.mk ⟨"", "IED"⟩ [] "" [] ""] ""
  path := "nameless.scd"

/-- An editor that has just loaded its record. -/
def openedNameless : Editor := ⟨some (Session.ofRecords nameless.records)⟩

theorem rename_commit_nameless :
    ({} : Editor).load nameless.records = .ok openedNameless ∧ ¬ nameless.Named ∧
      (openedNameless.edited [("", "A")]).commit = .ok [⟨"", "A"⟩] ∧
      ¬ ∃ r, nameless.rename [⟨"", "A"⟩] = .ok r := by
  have loads : ({} : Editor).load nameless.records = .ok openedNameless := rfl
  have commits : (openedNameless.edited [("", "A")]).commit = .ok [⟨"", "A"⟩] := rfl
  have hnamed : ¬ nameless.Named := by decide
  obtain ⟨ops, hops, haccepts, -⟩ := rename_commit_iff loads [("", "A")]
  obtain rfl : ops = [⟨"", "A"⟩] := Except.ok.inj (hops.symm.trans commits)
  refine ⟨loads, hnamed, commits, fun haccepted => ?_⟩
  exact (haccepts.mp haccepted).elim (List.cons_ne_nil _ _) hnamed

/-- The record loads and the session commits to a renaming, and the document it was read from
refuses that renaming. -/
theorem rename_commit_refused :
    ({} : Editor).load nameless.records = .ok openedNameless ∧
      (openedNameless.edited [("", "A")]).commit = .ok [⟨"", "A"⟩] ∧
      nameless.rename [⟨"", "A"⟩] = .error "" :=
  ⟨rfl, rfl, rfl⟩

end StationNaming.Station
