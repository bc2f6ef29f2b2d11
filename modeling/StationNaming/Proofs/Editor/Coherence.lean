import StationNaming.Proofs.Editor.Run
/-!
# Derived state

A session stores more than the names that are proposed: the verdict on every item, the marks of the
pending renames, and whether all items are valid. This module shows that what is stored is always
what the names alone determine.

**What is exact.** The invariant `Session.Coherent` holds of every session that any run leaves, runs
with failing loads and proposals included, and the result of every successful edit tells what the
session holds after it.
-/

namespace StationNaming

open Naming (Ruled)

/-! ## The invariant -/

namespace Session

/-- Whether another item of the session holds the name proposed for an item. -/
def HeldElsewhere (s : Session) (i : Item) : Prop :=
  ∃ j ∈ s.items, j.identity ≠ i.identity ∧ j.current = i.current

/-- **A session over `records` whose derived state agrees with the names proposed in it.** -/
structure Coherent (records : List Ied) (s : Session) : Prop where
  /-- The items are those of the records, in load order. -/
  inLoadOrder : s.items.map (·.ied) = records
  /-- No two items have one identity. -/
  distinct : (s.items.map (·.identity)).Nodup
  /-- The verdict on an item is the first naming rule that its proposed name breaks. -/
  ruled : ∀ i ∈ s.items, Ruled i.current (s.HeldElsewhere i) i.verdict
  /-- The session is valid if all of its items are. -/
  allValid_iff : s.allValid = true ↔ ∀ i ∈ s.items, i.verdict = .valid
  /-- The pending renames are the items whose proposed name differs, in load order. -/
  pending_eq : s.pending = (s.items.filter fun i => i.current ≠ i.identity).map (·.identity)
  /-- No rename is pending twice. -/
  pending_once : s.pending.Nodup

/-- **An edit result that tells what a session holds.** -/
structure Reports (s : Session) (identity value : String) (r : EditResult) : Prop where
  identity_eq : r.identity = identity
  value_eq : r.value = value
  /-- The item of the identity holds the value, and the verdict and the change mark are its own. -/
  item : ∃ i ∈ s.items, i.identity = identity ∧ i.current = value ∧ r.verdict = i.verdict ∧
    (r.isChanged = true ↔ i.current ≠ i.identity)
  allValid_eq : r.allValid = s.allValid

end Session

/-! ## The session of a ledger is coherent -/

namespace Ledger

theorem mem_items_session {l : Ledger} {i : Item} :
    i ∈ l.session.items ↔ ∃ r ∈ l.records, l.item r = i := by
  rw [items_session, List.mem_map]

theorem map_identity_session (l : Ledger) :
    l.session.items.map (·.identity) = l.identities := by
  rw [items_session, List.map_map]
  rfl

theorem map_current_session (l : Ledger) :
    l.session.items.map (·.current) = l.identities.map l.names := by
  rw [items_session, identities, List.map_map, List.map_map]
  rfl

/-- A name is held elsewhere in the session if the ledger says that it is taken. -/
theorem heldElsewhere_item_iff (l : Ledger) (r : Ied) :
    l.session.HeldElsewhere (l.item r) ↔ l.Taken r.name := by
  constructor
  · rintro ⟨j, hj, hne, hcurrent⟩
    obtain ⟨r', hr', rfl⟩ := mem_items_session.mp hj
    exact ⟨r'.name, mem_identities hr', hne, hcurrent⟩
  · rintro ⟨other, hother, hne, hcurrent⟩
    obtain ⟨r', hr', rfl⟩ := List.mem_map.mp hother
    exact ⟨l.item r', mem_items_session.mpr ⟨r', hr', rfl⟩, hne, hcurrent⟩

/-- **The marks of the pending renames agree with the names.** -/
theorem filter_pending_session (l : Ledger) :
    l.session.items.filter (·.pending) =
      l.session.items.filter fun i => i.current ≠ i.identity := by
  refine List.filter_congr fun i hi => ?_
  obtain ⟨r, -, rfl⟩ := mem_items_session.mp hi
  rw [pending_item, current_item, identity_item, bne, decide_not]
  rfl

theorem coherent_session (l : Ledger) : l.session.Coherent l.records where
  inLoadOrder := by
    rw [items_session, List.map_map]
    exact List.map_id _
  distinct := by
    rw [map_identity_session]
    exact l.nodup_identities
  ruled := by
    intro i hi
    obtain ⟨r, hr, rfl⟩ := mem_items_session.mp hi
    exact (ruled_item hr).congr (heldElsewhere_item_iff l r).symm
  allValid_iff := by
    rw [allValid_session, List.all_eq_true]
    simp only [Item.isValid, Verdict.isValid_iff]
  pending_eq := by
    rw [Session.pending, filter_pending_session]
  pending_once := by
    have hsub : ((l.session.items.filter (·.pending)).map (·.identity)).Sublist l.identities := by
      rw [← map_identity_session]
      exact List.filter_sublist.map _
    exact l.nodup_identities.sublist hsub

/-- A proposal for an IED of the ledger reports what the session then holds. -/
theorem reports_write {l : Ledger} {r : Ied} (hr : r ∈ l.records) (value : String) :
    (l.write r.name value).session.Reports r.name value
      ⟨r.name, value, ((l.write r.name value).item r).verdict, value != r.name,
        (l.write r.name value).session.allValid⟩ where
  identity_eq := rfl
  value_eq := rfl
  item := by
    have hcurrent : ((l.write r.name value).item r).current = value := by simp [write]
    refine ⟨(l.write r.name value).item r, mem_items_session.mpr ⟨r, hr, rfl⟩, rfl,
      hcurrent, rfl, ?_⟩
    rw [hcurrent, identity_item, bne_iff_ne]
  allValid_eq := rfl

end Ledger

/-! ## Every run -/

namespace Editor

/-- An edit succeeds exactly for the identities of the session that is held. -/
theorem exists_propose_iff (steps : List Step) (identity value : String) :
    (∃ edited, (run {} steps).propose identity value = .ok edited) ↔
      ∃ l, ledgerOf steps = some l ∧ identity ∈ l.identities := by
  have hheld := session_run steps
  cases hl : ledgerOf steps with
  | none =>
    rw [hl] at hheld
    rw [propose_of_holds_none hheld]
    exact ⟨fun ⟨_, h⟩ => absurd h nofun, fun ⟨_, h, _⟩ => absurd h nofun⟩
  | some l =>
    rw [hl] at hheld
    rw [propose_of_holds_some hheld]
    by_cases hid : identity ∈ l.identities
    · obtain ⟨r, hr, rfl⟩ := List.mem_map.mp hid
      rw [Ledger.edit_session_of_mem hr]
      exact ⟨fun _ => ⟨l, rfl, hid⟩, fun _ => ⟨_, rfl⟩⟩
    · rw [Ledger.edit_session_of_notMem hid]
      refine ⟨fun ⟨_, h⟩ => absurd h nofun, ?_⟩
      rintro ⟨l', hl', hid'⟩
      obtain rfl := Option.some.inj hl'
      exact absurd hid' hid

/-- What a successful edit reports is what is held after it. -/
theorem reports_of_propose {steps : List Step} {identity value : String} {e : Editor}
    {r : EditResult} (h : (run {} steps).propose identity value = .ok (e, r)) :
    e = run {} (steps ++ [.propose identity value]) ∧
      ∃ s, e.session = some s ∧ s.Reports identity value r := by
  have hafter : run {} (steps ++ [.propose identity value]) = e := by
    rw [run_append, run_cons, run_nil, after, h]
    rfl
  refine ⟨hafter.symm, ?_⟩
  obtain ⟨l, hl, hid⟩ := (exists_propose_iff steps identity value).mp ⟨_, h⟩
  obtain ⟨r', hr', rfl⟩ := List.mem_map.mp hid
  have hheld := session_run steps
  rw [hl] at hheld
  rw [propose_of_holds_some hheld, Ledger.edit_session_of_mem hr'] at h
  cases h
  exact ⟨_, rfl, Ledger.reports_write hr' value⟩

/-- **The derived state of every session agrees with its names.** After any run of steps a session
is held if the ledger of the run says so, it holds the names that were written last, and it is
coherent over the records that were last loaded. An edit succeeds for the identities of that
session, and then reports what is held after it. -/
theorem derivedState_of_run (steps : List Step) :
    (run {} steps).session.isSome = (ledgerOf steps).isSome ∧
    (∀ s, (run {} steps).session = some s →
      ∃ l, ledgerOf steps = some l ∧ s.Coherent l.records ∧
        ∀ i ∈ s.items, i.current = l.names i.identity) ∧
    ∀ identity value,
      ((∃ edited, (run {} steps).propose identity value = .ok edited) ↔
        ∃ l, ledgerOf steps = some l ∧ identity ∈ l.identities) ∧
      ∀ e r, (run {} steps).propose identity value = .ok (e, r) →
        e = run {} (steps ++ [.propose identity value]) ∧
          ∃ s, e.session = some s ∧ s.Reports identity value r := by
  refine ⟨?_, ?_, fun identity value =>
    ⟨exists_propose_iff steps identity value, fun _ _ h => reports_of_propose h⟩⟩
  · rw [session_run steps, Option.isSome_map]
  · intro s hs
    obtain ⟨l, hl, rfl⟩ := exists_ledger_of_run hs
    refine ⟨l, hl, l.coherent_session, ?_⟩
    intro i hi
    obtain ⟨r, -, rfl⟩ := Ledger.mem_items_session.mp hi
    rfl

/-- A run that swaps two of three names, with a load and a proposal that fail on the way. -/
def swapSteps : List Step :=
  [.load [{ name := "A" }, { name := "B" }, { name := "C" }], .propose "A" "B",
    .load [{ name := "A" }, { name := "A" }], .propose "D" "A", .views none, .propose "B" "A"]

/-- The session after the swap. -/
def swapped : Session :=
  ⟨[{ ied := { name := "A" }, current := "B", pending := true },
    { ied := { name := "B" }, current := "A", pending := true },
    { ied := { name := "C" }, current := "C" }], true⟩

/-- The session after a further proposal that collides with the swap. -/
def collided : Session :=
  ⟨[{ ied := { name := "A" }, current := "B", pending := true },
    { ied := { name := "B" }, current := "A", verdict := .duplicate, pending := true },
    { ied := { name := "C" }, current := "A", verdict := .duplicate, pending := true }], false⟩

theorem derivedState_of_swap :
    (run {} swapSteps).session = some swapped ∧
    (∃ l, ledgerOf swapSteps = some l ∧ swapped.Coherent l.records ∧
      ∀ i ∈ swapped.items, i.current = l.names i.identity) ∧
    (run {} swapSteps).propose "C" "A" =
      .ok (⟨some collided⟩, ⟨"C", "A", .duplicate, true, false⟩) ∧
    ∃ s, some collided = some s ∧ s.Reports "C" "A" ⟨"C", "A", .duplicate, true, false⟩ :=
  ⟨by decide, (derivedState_of_run swapSteps).2.1 swapped (by decide), by rfl,
    (((derivedState_of_run swapSteps).2.2 "C" "A").2 ⟨some collided⟩
      ⟨"C", "A", .duplicate, true, false⟩ (by rfl)).2⟩

end Editor

end StationNaming
