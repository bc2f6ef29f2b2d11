import StationNaming.Proofs.Editor.Coherence
import StationNaming.Proofs.Substitution
/-!
# What a session commits to

A session commits to renamings exactly when they make sense together: something changes, and with
all of them made at once every IED of the session has a name of its own that may stand.

**What is exact.** `commit_of_run` holds after every run. The renamings are one for each item whose
name differs, in load order, and nothing else; committing changes nothing, so it can be repeated.
-/

namespace StationNaming

open Naming (Admissible)

/-- **A complete list of renamings for a session.** -/
structure Session.CommitsTo (s : Session) (ops : List Renaming) : Prop where
  /-- One renaming for each item whose proposed name differs, in load order. -/
  ops_eq : ops =
    (s.items.filter fun i => i.current ≠ i.identity).map fun i => ⟨i.identity, i.current⟩
  /-- No item is renamed twice. -/
  once : (ops.map (·.old)).Nodup
  /-- Made at once, the renamings turn the original names into the proposed ones. -/
  substitute_eq : (s.items.map (·.identity)).map (Renaming.substitute ops) =
    s.items.map (·.current)
  /-- The names afterwards are distinct. -/
  distinct : ((s.items.map (·.identity)).map (Renaming.substitute ops)).Nodup
  /-- The names afterwards may stand. -/
  admissible : ∀ name ∈ (s.items.map (·.identity)).map (Renaming.substitute ops), Admissible name

namespace Ledger

/-- No name is taken exactly if all proposed names are distinct. -/
theorem forall_not_taken_iff (l : Ledger) :
    (∀ identity ∈ l.identities, ¬ l.Taken identity) ↔ (l.identities.map l.names).Nodup := by
  rw [List.nodup_map_iff_inj_on l.nodup_identities]
  constructor
  · intro h x hx y hy hxy
    by_contra hne
    exact h y hy ⟨x, hx, hne, hxy⟩
  · rintro h identity hid ⟨other, hother, hne, heq⟩
    exact hne (h other hother identity hid heq)

/-- **All items are valid exactly if the proposed names are distinct and may stand.** -/
theorem allValid_session_iff (l : Ledger) :
    l.session.allValid = true ↔
      (l.session.items.map (·.current)).Nodup ∧ ∀ i ∈ l.session.items, Admissible i.current := by
  have hvalid : ∀ r ∈ l.records, (l.item r).verdict = .valid ↔
      Admissible (l.names r.name) ∧ ¬ l.Taken r.name :=
    fun r hr => (ruled_item hr).valid_iff
  rw [l.coherent_session.allValid_iff, map_current_session, ← forall_not_taken_iff]
  constructor
  · intro h
    refine ⟨?_, ?_⟩
    · intro identity hid
      obtain ⟨r, hr, rfl⟩ := List.mem_map.mp hid
      exact ((hvalid r hr).mp (h _ (mem_items_session.mpr ⟨r, hr, rfl⟩))).2
    · intro i hi
      obtain ⟨r, hr, rfl⟩ := mem_items_session.mp hi
      exact ((hvalid r hr).mp (h _ hi)).1
  · rintro ⟨hfree, hadm⟩ i hi
    obtain ⟨r, hr, rfl⟩ := mem_items_session.mp hi
    exact (hvalid r hr).mpr ⟨hadm _ hi, hfree _ (mem_identities hr)⟩

/-- Something is pending exactly if some proposed name differs. -/
theorem pending_session_ne_nil_iff (l : Ledger) :
    l.session.pending ≠ [] ↔ ∃ i ∈ l.session.items, i.current ≠ i.identity := by
  rw [l.coherent_session.pending_eq, Ne, List.map_eq_nil_iff, List.filter_eq_nil_iff]
  simp

/-- **When a session can be committed.** -/
theorem isCommittable_session_iff (l : Ledger) :
    l.session.isCommittable = true ↔
      (∃ i ∈ l.session.items, i.current ≠ i.identity) ∧
        (l.session.items.map (·.current)).Nodup ∧
          ∀ i ∈ l.session.items, Admissible i.current := by
  rw [Session.isCommittable, Bool.and_eq_true, allValid_session_iff, ← pending_session_ne_nil_iff]
  simp

/-- The renamings for all items whose proposed names differ. -/
def renamings (l : Ledger) : List Renaming :=
  (l.session.items.filter fun i => i.current ≠ i.identity).map fun i => ⟨i.identity, i.current⟩

theorem commit_session_of_isCommittable {l : Ledger} (h : l.session.isCommittable = true) :
    l.session.commit = l.renamings := by
  rw [Session.commit, if_pos h, filter_pending_session, renamings]

/-- A session that cannot be committed commits to nothing. -/
theorem commit_session_of_not_isCommittable {l : Ledger} (h : ¬ l.session.isCommittable = true) :
    l.session.commit = [] := by
  rw [Session.commit, if_neg h]

theorem commit_session_ne_nil_iff (l : Ledger) :
    l.session.commit ≠ [] ↔ l.session.isCommittable = true := by
  constructor
  · intro hne
    by_contra hnot
    exact hne (commit_session_of_not_isCommittable hnot)
  · intro h
    rw [commit_session_of_isCommittable h, renamings, Ne, List.map_eq_nil_iff,
      List.filter_eq_nil_iff]
    obtain ⟨i, hi, hne⟩ := ((isCommittable_session_iff l).mp h).1
    exact fun hall => hall i hi (by simpa using hne)

theorem old_renamings_nodup (l : Ledger) : (l.renamings.map (·.old)).Nodup := by
  have hpending : l.renamings.map (·.old) = l.session.pending := by
    rw [l.coherent_session.pending_eq, renamings, List.map_map]
    rfl
  rw [hpending]
  exact l.coherent_session.pending_once

/-- **The renamings give every item of the session its proposed name.** -/
theorem substitute_renamings {l : Ledger} {i : Item} (hi : i ∈ l.session.items) :
    Renaming.substitute l.renamings i.identity = i.current := by
  by_cases hne : i.current ≠ i.identity
  · have hop : (⟨i.identity, i.current⟩ : Renaming) ∈ l.renamings :=
      List.mem_map.mpr ⟨i, List.mem_filter.mpr ⟨hi, by simpa using hne⟩, rfl⟩
    exact Renaming.substitute_of_mem l.old_renamings_nodup hop
  · have hnot : i.identity ∉ l.renamings.map (·.old) := by
      intro hmem
      obtain ⟨op, hop, hold⟩ := List.mem_map.mp hmem
      obtain ⟨j, hj, rfl⟩ := List.mem_map.mp hop
      obtain ⟨hj, hjne⟩ := List.mem_filter.mp hj
      -- Identities are distinct, so the renamed item would be this one.
      have hji : j = i := List.inj_on_of_nodup_map l.coherent_session.distinct hj hi hold
      exact hne (hji ▸ by simpa using hjne)
    rw [Renaming.substitute_of_notMem hnot]
    exact (not_not.mp hne).symm

theorem commitsTo_renamings {l : Ledger} (h : l.session.isCommittable = true) :
    l.session.CommitsTo l.renamings := by
  obtain ⟨-, hdistinct, hadm⟩ := (isCommittable_session_iff l).mp h
  have hsub : (l.session.items.map (·.identity)).map (Renaming.substitute l.renamings) =
      l.session.items.map (·.current) := by
    rw [List.map_map]
    exact List.map_congr_left fun i hi => substitute_renamings hi
  refine ⟨rfl, l.old_renamings_nodup, hsub, ?_, ?_⟩
  · rw [hsub]
    exact hdistinct
  · rw [hsub]
    intro name hname
    obtain ⟨i, hi, rfl⟩ := List.mem_map.mp hname
    exact hadm i hi

/-- Every renaming gives an item of the session its proposed name. -/
theorem exists_item_of_mem_commit {l : Ledger} {op : Renaming} (h : op ∈ l.session.commit) :
    l.session.isCommittable = true ∧ ∃ i ∈ l.session.items, ⟨i.identity, i.current⟩ = op := by
  by_cases hc : l.session.isCommittable = true
  · rw [commit_session_of_isCommittable hc] at h
    obtain ⟨i, hi, hop⟩ := List.mem_map.mp h
    exact ⟨hc, i, List.mem_of_mem_filter hi, hop⟩
  · rw [commit_session_of_not_isCommittable hc] at h
    exact absurd h List.not_mem_nil

theorem old_mem_identities {l : Ledger} {op : Renaming} (h : op ∈ l.session.commit) :
    op.old ∈ l.identities := by
  obtain ⟨-, i, hi, rfl⟩ := exists_item_of_mem_commit h
  rw [← map_identity_session]
  exact List.mem_map_of_mem hi

/-- Every new name may stand. -/
theorem admissible_new {l : Ledger} {op : Renaming} (h : op ∈ l.session.commit) :
    Admissible op.new := by
  obtain ⟨hc, i, hi, rfl⟩ := exists_item_of_mem_commit h
  exact ((isCommittable_session_iff l).mp hc).2.2 i hi

/-- Nothing is renamed twice. -/
theorem old_commit_nodup (l : Ledger) : (l.session.commit.map (·.old)).Nodup := by
  by_cases hc : l.session.isCommittable = true
  · rw [commit_session_of_isCommittable hc]
    exact l.old_renamings_nodup
  · rw [commit_session_of_not_isCommittable hc]
    exact List.nodup_nil

/-- **Different IEDs keep different names**, whether or not the session can be committed. -/
theorem substitute_commit_injOn (l : Ledger) {name name' : String} (h : name ∈ l.identities)
    (h' : name' ∈ l.identities)
    (heq : Renaming.substitute l.session.commit name = Renaming.substitute l.session.commit name') :
    name = name' := by
  by_cases hc : l.session.isCommittable = true
  · rw [commit_session_of_isCommittable hc] at heq
    have hdistinct := (commitsTo_renamings hc).distinct
    rw [map_identity_session] at hdistinct
    exact List.inj_on_of_nodup_map hdistinct h h' heq
  · rw [commit_session_of_not_isCommittable hc] at heq
    exact heq

end Ledger

namespace Editor

theorem commit_of_holds_some {e : Editor} {l : Ledger} (h : e.Holds (some l)) :
    e.commit = .ok l.session.commit := by
  have hs : e.session = some l.session := h
  simp only [Editor.commit, require, hs]
  rfl

theorem isCommittable_of_holds_some {e : Editor} {l : Ledger} (h : e.Holds (some l)) :
    e.isCommittable = .ok l.session.isCommittable := by
  have hs : e.session = some l.session := h
  simp only [Editor.isCommittable, require, hs]
  rfl

/-- **Committing is sound and complete.** After any run, the session commits to something exactly if
a proposed name differs, all proposed names are distinct, and all of them may stand; what it then
commits to is complete, and committing leaves the editor as it is. -/
theorem commit_of_run (steps : List Step) (s : Session) (h : (run {} steps).session = some s) :
    (s.commit ≠ [] ↔
      (∃ i ∈ s.items, i.current ≠ i.identity) ∧ (s.items.map (·.current)).Nodup ∧
        ∀ i ∈ s.items, Admissible i.current) ∧
    (s.commit ≠ [] → s.CommitsTo s.commit) ∧
    (run {} steps).commit = .ok s.commit ∧
    run {} (steps ++ [.commit]) = run {} steps ∧
    (run {} (steps ++ [.commit])).commit = .ok s.commit := by
  have hcommit : (run {} steps).commit = .ok s.commit := by
    simp only [Editor.commit, require, h]
    rfl
  have hsame : run {} (steps ++ [.commit]) = run {} steps := by
    rw [run_append]
    rfl
  obtain ⟨l, -, rfl⟩ := exists_ledger_of_run h
  refine ⟨?_, ?_, hcommit, hsame, hsame ▸ hcommit⟩
  · rw [Ledger.commit_session_ne_nil_iff, Ledger.isCommittable_session_iff]
  · intro hne
    have hc := (Ledger.commit_session_ne_nil_iff l).mp hne
    rw [Ledger.commit_session_of_isCommittable hc]
    exact Ledger.commitsTo_renamings hc

theorem commit_of_swap :
    (run {} swapSteps).session = some swapped ∧
    swapped.commit = [⟨"A", "B"⟩, ⟨"B", "A"⟩] ∧ swapped.CommitsTo swapped.commit :=
  ⟨by decide, by decide,
    (commit_of_run swapSteps swapped (by decide)).2.1 (by decide)⟩

end Editor

end StationNaming
