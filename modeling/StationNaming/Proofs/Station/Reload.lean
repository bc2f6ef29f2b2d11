import StationNaming.Proofs.Station.Renamed
/-!
# Loading a renamed document again

After a session has been committed and its renamings applied, the document and the session say the
same: every IED has the name that was proposed for it and the description it had before. A session
that starts over the renamed document has nothing left to do.

**What is exact.** `reload_of_commit` holds for every document and after every list of edits that
can be committed, whenever the document accepts the renamings. Names of the document that may not
stand do not matter, since the session cannot be committed before they are replaced.
-/

namespace StationNaming

open Naming (Admissible)

/-! ## Records that leave nothing to do -/

namespace Ledger

variable {records : List Ied} (distinct : (records.map (·.name)).Nodup)

/-- Nothing is pending in a session that was just loaded. -/
theorem pending_start : (start records distinct).session.pending = [] := by
  by_contra hne
  obtain ⟨i, hi, hchanged⟩ := ((start records distinct).pending_session_ne_nil_iff).mp hne
  obtain ⟨r, -, rfl⟩ := mem_items_session.mp hi
  exact hchanged rfl

/-- **A session over distinct names that may stand is valid.** -/
theorem allValid_start (admissible : ∀ r ∈ records, Admissible r.name) :
    (start records distinct).session.allValid = true := by
  refine (start records distinct).allValid_session_iff.mpr ⟨?_, ?_⟩
  · rw [map_current_session]
    exact (List.map_id _).symm ▸ distinct
  · intro i hi
    obtain ⟨r, hr, rfl⟩ := mem_items_session.mp hi
    exact admissible r hr

end Ledger

/-- A session whose items are the records, valid under their own names, and in which nothing is
pending. -/
structure Session.Untouched (records : List Ied) (s : Session) : Prop where
  inLoadOrder : s.items.map (·.ied) = records
  current_eq : ∀ i ∈ s.items, i.current = i.identity
  valid : ∀ i ∈ s.items, i.verdict = .valid
  allValid : s.allValid = true
  pending_eq : s.pending = []

/-- **Distinct names that may stand can be loaded, and leave nothing to do.** -/
theorem Editor.exists_load_untouched {records : List Ied}
    (distinct : (records.map (·.name)).Nodup) (admissible : ∀ r ∈ records, Admissible r.name)
    (e : Editor) : ∃ s, e.load records = .ok ⟨some s⟩ ∧ s.Untouched records := by
  have hvalid := Ledger.allValid_start distinct admissible
  have hcoherent := (Ledger.start records distinct).coherent_session
  refine ⟨(Ledger.start records distinct).session, ?_, ?_⟩
  · rw [Editor.load, Session.load_of_nodup distinct]
    rfl
  · refine ⟨hcoherent.inLoadOrder, ?_, hcoherent.allValid_iff.mp hvalid, hvalid,
      Ledger.pending_start distinct⟩
    intro i hi
    obtain ⟨r, -, rfl⟩ := Ledger.mem_items_session.mp hi
    rfl

namespace Station

open Renaming (substitute)

/-! ## The document and the session -/

section

variable {s : Station} {l : Ledger}

/-- Only a document whose IEDs all carry a name accepts what a session commits to. -/
theorem named_of_rename (hrecords : l.records = s.records)
    (committable : l.session.isCommittable = true) {r : Renamed}
    (applied : s.rename l.session.commit = .ok r) : s.Named := by
  by_contra hnot
  have hne := (Ledger.commit_session_ne_nil_iff l).mpr committable
  rw [rename_commit_of_not_named hrecords hne hnot] at applied
  cases applied

/-- **The renamed document has the names of the session**, and every description is as before. -/
theorem records_rename_commit (hrecords : l.records = s.records)
    (committable : l.session.isCommittable = true) {r : Renamed}
    (applied : s.rename l.session.commit = .ok r) :
    r.station.records = l.session.items.map fun i => { i.ied with name := i.current } := by
  have named := named_of_rename hrecords committable applied
  obtain ⟨r', hr', hsubstituted⟩ := exists_substituted hrecords named
  obtain rfl : r = r' := Except.ok.inj (applied.symm.trans hr')
  rw [records_substituted hsubstituted named, ← hrecords, Ledger.items_session, List.map_map]
  refine List.map_congr_left fun record hrecord => ?_
  -- The renamings give every item the name that is proposed for it.
  have hitem : l.item record ∈ l.session.items :=
    Ledger.mem_items_session.mpr ⟨record, hrecord, rfl⟩
  have hname : substitute l.session.commit record.name = (l.item record).current := by
    rw [Ledger.commit_session_of_isCommittable committable]
    exact Ledger.substitute_renamings hitem
  rw [substitutedRecord, hname]
  rfl

end

/-- **A renamed document agrees with the session it was renamed by.** If a session over the records
of a document can be committed after some edits, and the document accepts what the session commits
to, then the records of the document are those of the items in order, under the names that were
proposed and with the old descriptions. Any editor can load them, and the session that starts is
valid with nothing pending. -/
theorem reload_of_commit {s : Station} {start opened : Editor}
    (loads : start.load s.records = .ok opened) (edits : List Edit)
    (committable : (opened.edited edits).isCommittable = .ok true) {ops : List Renaming}
    (commits : (opened.edited edits).commit = .ok ops) {r : Renamed}
    (applied : s.rename ops = .ok r) :
    ∃ session, (opened.edited edits).session = some session ∧
      session.items.map (·.ied) = s.records ∧
      r.station.records = session.items.map (fun i => { i.ied with name := i.current }) ∧
      ∀ e : Editor, ∃ again, e.load r.station.records = .ok ⟨some again⟩ ∧
        again.Untouched r.station.records := by
  obtain ⟨l, hrecords, hheld⟩ := Editor.exists_holds_edited loads edits
  rw [Editor.isCommittable_of_holds_some hheld, Except.ok.injEq] at committable
  rw [Editor.commit_of_holds_some hheld, Except.ok.injEq] at commits
  subst commits
  have hafter := records_rename_commit hrecords committable applied
  obtain ⟨-, hdistinct, hadmissible⟩ := (Ledger.isCommittable_session_iff l).mp committable
  have distinctAfter : (r.station.records.map (·.name)).Nodup := by
    rw [hafter, List.map_map]
    exact hdistinct
  have admissibleAfter : ∀ record ∈ r.station.records, Admissible record.name := by
    rw [hafter]
    intro record hrecord
    obtain ⟨i, hi, rfl⟩ := List.mem_map.mp hrecord
    exact hadmissible i hi
  refine ⟨l.session, hheld, ?_, hafter, Editor.exists_load_untouched distinctAfter admissibleAfter⟩
  rw [l.coherent_session.inLoadOrder, hrecords]

/-- The edits that swap the names of the two IEDs of a feeder. -/
def feederSwap : List Edit := [("Q1", "Q2"), ("Q2", "Q1")]

/-- An editor that has just loaded the records of the feeder. -/
def openedFeeder : Editor := ⟨some (Session.ofRecords feeder.records)⟩

theorem reload_of_feederSwap :
    ({} : Editor).load feeder.records = .ok openedFeeder ∧
      (openedFeeder.edited feederSwap).isCommittable = .ok true ∧
      (openedFeeder.edited feederSwap).commit = .ok [⟨"Q1", "Q2"⟩, ⟨"Q2", "Q1"⟩] ∧
      ∃ r, feeder.rename [⟨"Q1", "Q2"⟩, ⟨"Q2", "Q1"⟩] = .ok r ∧
        r.station.records =
          [{ name := "Q2", desc := some "Q2" }, { name := "Q1" }] ∧
        ∃ again, ({} : Editor).load r.station.records = .ok ⟨some again⟩ ∧
          again.Untouched r.station.records := by
  have loads : ({} : Editor).load feeder.records = .ok openedFeeder := rfl
  have committable : (openedFeeder.edited feederSwap).isCommittable = .ok true := rfl
  have commits : (openedFeeder.edited feederSwap).commit =
      .ok [⟨"Q1", "Q2"⟩, ⟨"Q2", "Q1"⟩] := rfl
  obtain ⟨r, hr⟩ : ∃ r, feeder.rename [⟨"Q1", "Q2"⟩, ⟨"Q2", "Q1"⟩] = .ok r := ⟨_, rfl⟩
  obtain ⟨session, hsession, -, hrecords, hreload⟩ :=
    reload_of_commit loads feederSwap committable commits hr
  refine ⟨loads, committable, commits, r, hr, ?_, hreload {}⟩
  rw [hrecords]
  obtain rfl := Option.some.inj hsession
  rfl

end Station

end StationNaming
