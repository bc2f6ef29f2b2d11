import StationNaming.Proofs.Session.Ledger
/-!
# Runs of an editor

What an editor goes through while it is used: any operations in any order, some of which fail.
Beside the editor stands a ledger of what was asked of it, kept without judging anything.

**What is exact.** `session_run` gives the session after every run: it is the session of the ledger
of that run, and there is none where the ledger has been closed or never begun. A load that fails
and a proposal for an unknown IED leave the ledger as it was.
-/

namespace StationNaming

open Search (Query)

/-! ## Loading -/

/-- A name is reported as a duplicate exactly if there is one, among the records or before them. -/
theorem Session.firstDuplicate?_eq_none_iff (seen : List String) (records : List Ied) :
    Session.firstDuplicate? seen records = none ↔
      (records.map (·.name)).Nodup ∧ ∀ r ∈ records, r.name ∉ seen := by
  -- The names met so far grow along the records, so the statement is about any of them.
  induction records generalizing seen with
  | nil => simp [Session.firstDuplicate?]
  | cons r rs ih =>
    by_cases hr : r.name ∈ seen
    · simp [Session.firstDuplicate?, hr]
    · have hstep : Session.firstDuplicate? seen (r :: rs) =
          Session.firstDuplicate? (r.name :: seen) rs := by simp [Session.firstDuplicate?, hr]
      rw [hstep, ih, List.map_cons, List.nodup_cons]
      constructor
      · rintro ⟨hnodup, hseen⟩
        refine ⟨⟨?_, hnodup⟩, ?_⟩
        · intro hmem
          obtain ⟨r', hr', hname⟩ := List.mem_map.mp hmem
          exact hseen r' hr' (by rw [hname]; exact List.mem_cons_self)
        · intro r' hr' hmem
          rcases List.mem_cons.mp hr' with rfl | hr'
          · exact hr hmem
          · exact hseen r' hr' (List.mem_cons_of_mem _ hmem)
      · rintro ⟨⟨hhead, hnodup⟩, hseen⟩
        refine ⟨hnodup, ?_⟩
        intro r' hr' hmem
        rcases List.mem_cons.mp hmem with hname | hmem
        · exact hhead (hname ▸ List.mem_map_of_mem hr')
        · exact hseen r' (List.mem_cons_of_mem _ hr') hmem

/-- **Records with distinct names can be loaded**, and every IED then keeps its name. -/
theorem Session.load_of_nodup {records : List Ied} (h : (records.map (·.name)).Nodup) :
    Session.load records = .ok (Ledger.start records h).session := by
  have hnone : Session.firstDuplicate? [] records = none :=
    (Session.firstDuplicate?_eq_none_iff [] records).mpr ⟨h, fun _ _ => List.not_mem_nil⟩
  rw [Session.load, hnone, Ledger.ofRecords_eq]

/-- Records two of which have one name cannot be loaded. -/
theorem Session.load_of_not_nodup {records : List Ied} (h : ¬ (records.map (·.name)).Nodup) :
    ∃ name, Session.load records = .error (.duplicateName name) := by
  cases hd : Session.firstDuplicate? [] records with
  | none => exact absurd ((Session.firstDuplicate?_eq_none_iff [] records).mp hd).1 h
  | some name => exact ⟨name, by rw [Session.load, hd]⟩

namespace Editor

/-! ## Steps and runs -/

/-- **What can be asked of an editor.** -/
inductive Step where
  | load (records : List Ied)
  | propose (identity value : String)
  | close
  | item (identity : String)
  | views (query : Option Query)
  | commit
  | allValid
  | pending
  | isCommittable

/-- **The editor after a step**; a step that fails leaves it as it was, and so does every step that
only asks. -/
def after (e : Editor) : Step → Editor
  | .load records => (e.load records).toOption.getD e
  | .propose identity value => ((e.propose identity value).map (·.1)).toOption.getD e
  | .close => e.close
  | .item _ | .views _ | .commit | .allValid | .pending | .isCommittable => e

/-- **The editor after a run of steps.** -/
def run (e : Editor) (steps : List Step) : Editor := steps.foldl after e

/-- What a step writes into the ledger of a run. -/
def Step.record (past : Option Ledger) : Step → Option Ledger
  | .load records =>
    if h : (records.map (·.name)).Nodup then some (Ledger.start records h) else past
  | .propose identity value =>
    past.map fun l => if identity ∈ l.identities then l.write identity value else l
  | .close => none
  | .item _ | .views _ | .commit | .allValid | .pending | .isCommittable => past

/-- **The ledger of a run** that starts without a session. -/
def ledgerOf (steps : List Step) : Option Ledger := steps.foldl Step.record none

@[simp] theorem run_nil (e : Editor) : e.run [] = e := rfl

@[simp] theorem run_cons (e : Editor) (step : Step) (steps : List Step) :
    e.run (step :: steps) = (e.after step).run steps := rfl

theorem run_append (e : Editor) (steps steps' : List Step) :
    e.run (steps ++ steps') = (e.run steps).run steps' := List.foldl_append

/-! ## The ledger tells the session -/

/-- An editor holds the session of a ledger, or none if there is no ledger. -/
def Holds (e : Editor) (l : Option Ledger) : Prop := e.session = l.map Ledger.session

theorem propose_of_holds_some {e : Editor} {l : Ledger} (h : e.Holds (some l))
    (identity value : String) :
    e.propose identity value =
      (l.session.edit identity value).map fun edited => (⟨some edited.1⟩, edited.2) := by
  have hs : e.session = some l.session := h
  simp only [propose, require, hs]
  show (l.session.edit identity value >>= fun edited => Except.ok _) = _
  cases l.session.edit identity value <;> rfl

theorem propose_of_holds_none {e : Editor} (h : e.Holds none) (identity value : String) :
    e.propose identity value = .error .noSession := by
  have hs : e.session = none := h
  simp only [propose, require, hs]
  rfl

theorem Holds.load {e : Editor} {past : Option Ledger} (h : e.Holds past) (records : List Ied) :
    (e.after (.load records)).Holds (Step.record past (.load records)) := by
  by_cases hd : (records.map (·.name)).Nodup
  · have hload : e.load records = .ok ⟨some (Ledger.start records hd).session⟩ := by
      simp only [Editor.load, Session.load_of_nodup hd]
      rfl
    rw [after, Step.record, dif_pos hd, hload]
    rfl
  · -- The load fails, and the session before it stays.
    obtain ⟨name, hname⟩ := Session.load_of_not_nodup hd
    have hload : e.load records = .error (.duplicateName name) := by
      simp only [Editor.load, hname]
      rfl
    rw [after, Step.record, dif_neg hd, hload]
    exact h

theorem Holds.propose {e : Editor} {past : Option Ledger} (h : e.Holds past)
    (identity value : String) :
    (e.after (.propose identity value)).Holds (Step.record past (.propose identity value)) := by
  cases past with
  | none =>
    rw [after, propose_of_holds_none h]
    exact h
  | some l =>
    rw [after, propose_of_holds_some h, Step.record, Option.map_some]
    by_cases hid : identity ∈ l.identities
    · obtain ⟨r, hr, rfl⟩ := List.mem_map.mp hid
      rw [if_pos hid, Ledger.edit_session_of_mem hr]
      rfl
    · rw [if_neg hid, Ledger.edit_session_of_notMem hid]
      exact h

/-- **One step** keeps the editor and the ledger together. -/
theorem Holds.after {e : Editor} {past : Option Ledger} (h : e.Holds past) (step : Step) :
    (e.after step).Holds (step.record past) := by
  cases step with
  | load records => exact h.load records
  | propose identity value => exact h.propose identity value
  | close => rfl
  | item _ => exact h
  | views _ => exact h
  | commit => exact h
  | allValid => exact h
  | pending => exact h
  | isCommittable => exact h

theorem Holds.run {e : Editor} {past : Option Ledger} (h : e.Holds past) (steps : List Step) :
    (e.run steps).Holds (steps.foldl Step.record past) := by
  induction steps generalizing e past with
  | nil => exact h
  | cons step steps ih => exact ih (h.after step)

/-- **After every run the editor holds the session of the run's ledger.** -/
theorem session_run (steps : List Step) : (run {} steps).Holds (ledgerOf steps) := by
  have hstart : ({} : Editor).Holds none := rfl
  exact hstart.run steps

/-- A session that a run leaves is the session of a ledger. -/
theorem exists_ledger_of_run {steps : List Step} {s : Session}
    (h : (run {} steps).session = some s) : ∃ l, ledgerOf steps = some l ∧ s = l.session := by
  rw [session_run steps, Option.map_eq_some_iff] at h
  obtain ⟨l, hl, rfl⟩ := h
  exact ⟨l, hl, rfl⟩

end Editor

end StationNaming
