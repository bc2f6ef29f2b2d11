import Mathlib.Logic.Function.Basic
import StationNaming.Editor
import StationNaming.Proofs.Keyed
import StationNaming.Proofs.Naming
/-!
# Ledgers

A session told without its history: the records that were loaded, and the name that is proposed for
every identity now. Everything else a session keeps (verdicts, pending marks, the session-wide
validity) is worked out from these two.

**What is exact.** The session of a ledger is the one that judging all items afresh gives. Starting
a session and proposing a name take the session of a ledger to the session of a ledger
(`ofRecords_eq`, `propose_session`), so a session never holds more than its ledger says.
-/

namespace StationNaming

open Naming (Ruled)
open Search (Query)

/-- **The records of a session and the names proposed for them**; no two records have one name. -/
structure Ledger where
  records : List Ied
  distinct : (records.map (·.name)).Nodup
  names : String → String

namespace Ledger

/-! ## The session of a ledger -/

/-- The identities of the session, in load order. -/
def identities (l : Ledger) : List String := l.records.map (·.name)

/-- The ledger of a session that was just loaded: every IED keeps its name. -/
def start (records : List Ied) (distinct : (records.map (·.name)).Nodup) : Ledger :=
  ⟨records, distinct, id⟩

/-- The ledger with another name written for an identity. -/
def write (l : Ledger) (identity value : String) : Ledger :=
  { l with names := Function.update l.names identity value }

/-- An item before it is judged. -/
def proposal (l : Ledger) (r : Ied) : Item :=
  { ied := r, current := l.names r.name, pending := l.names r.name != r.name }

/-- How many IEDs a name is proposed for. -/
def holders (l : Ledger) (name : String) : Nat := (l.identities.map l.names).count name

/-- **The item of a record**, with the verdict that a fresh judgement gives. -/
def item (l : Ledger) (r : Ied) : Item :=
  { l.proposal r with verdict := judge (l.names r.name) (l.holders (l.names r.name)) }

/-- **The session of a ledger.** -/
def session (l : Ledger) : Session := Session.judged (l.records.map l.proposal)

@[simp] theorem records_write (l : Ledger) (identity value : String) :
    (l.write identity value).records = l.records := rfl

@[simp] theorem ied_item (l : Ledger) (r : Ied) : (l.item r).ied = r := rfl

@[simp] theorem identity_item (l : Ledger) (r : Ied) : (l.item r).identity = r.name := rfl

@[simp] theorem current_item (l : Ledger) (r : Ied) : (l.item r).current = l.names r.name := rfl

theorem pending_item (l : Ledger) (r : Ied) :
    (l.item r).pending = (l.names r.name != r.name) := rfl

theorem mem_identities {l : Ledger} {r : Ied} (hr : r ∈ l.records) : r.name ∈ l.identities :=
  List.mem_map_of_mem hr

theorem nodup_identities (l : Ledger) : l.identities.Nodup := l.distinct

theorem holders_eq (l : Ledger) (name : String) :
    Session.holders (l.records.map l.proposal) name = l.holders name := by
  simp only [Session.holders, holders, identities, List.map_map]
  rfl

theorem items_session (l : Ledger) : l.session.items = l.records.map l.item := by
  simp only [session, Session.judged, List.map_map]
  refine List.map_congr_left fun r _ => ?_
  simp only [Function.comp_apply, item, holders_eq]
  rfl

theorem allValid_session (l : Ledger) :
    l.session.allValid = l.session.items.all (·.isValid) := rfl

/-! ## Steps on ledgers -/

/-- An item with the verdict that a count of holders gives it. -/
def rejudge (count : String → Nat) (i : Item) : Item :=
  { i with verdict := judge i.current (count i.current) }

theorem judged_eq (items : List Item) :
    Session.judged items =
      ⟨items.map (rejudge (Session.holders items)),
        (items.map (rejudge (Session.holders items))).all (·.isValid)⟩ := rfl

/-- Judging does not look at the verdicts that stood before. -/
theorem judged_congr {items items' : List Item}
    (h : ∀ count, items.map (rejudge count) = items'.map (rejudge count)) :
    Session.judged items = Session.judged items' := by
  have hcurrent : items.map (·.current) = items'.map (·.current) := by
    have hmap := congrArg (List.map (·.current)) (h fun _ => 0)
    simpa only [List.map_map, Function.comp_def, rejudge] using hmap
  have hcount : Session.holders items = Session.holders items' :=
    funext fun name => by rw [Session.holders, hcurrent, Session.holders]
  -- With one count for both lists, the judged items are the same by hypothesis.
  rw [judged_eq, judged_eq, hcount, h (Session.holders items')]

/-- **Starting a session** gives the session in which every IED keeps its name. -/
theorem ofRecords_eq (records : List Ied) (distinct : (records.map (·.name)).Nodup) :
    Session.ofRecords records = (start records distinct).session := by
  refine judged_congr fun count => ?_
  simp only [List.map_map]
  exact List.map_congr_left fun r _ => by simp [start, proposal, rejudge]

/-- **Proposing a name** writes it into the ledger and leaves no other trace. -/
theorem propose_session (l : Ledger) (identity value : String) :
    l.session.propose identity value = (l.write identity value).session := by
  refine judged_congr fun count => ?_
  rw [items_session]
  simp only [List.map_map, records_write]
  refine List.map_congr_left fun r _ => ?_
  simp only [Function.comp_apply, identity_item]
  by_cases hr : r.name = identity
  · subst hr
    simp [rejudge, Item.propose, proposal, write, item]
  · simp [rejudge, proposal, write, item, hr]

/-- Looking up an item is looking up its record. -/
theorem find?_session (l : Ledger) (identity : String) :
    l.session.find? identity = (l.records.find? (·.name == identity)).map l.item := by
  rw [Session.find?, items_session, List.find?_map]
  rfl

theorem find?_session_of_mem {l : Ledger} {r : Ied} (hr : r ∈ l.records) :
    l.session.find? r.name = some (l.item r) := by
  rw [find?_session, Keyed.find?_key_of_mem l.distinct hr, Option.map_some]

theorem find?_session_of_notMem {l : Ledger} {identity : String} (h : identity ∉ l.identities) :
    l.session.find? identity = none := by
  rw [find?_session, Keyed.find?_key_of_notMem h, Option.map_none]

/-- **An edit of a known IED** writes the name, and its result tells what the session then holds. -/
theorem edit_session_of_mem {l : Ledger} {r : Ied} (hr : r ∈ l.records) (value : String) :
    l.session.edit r.name value =
      .ok ((l.write r.name value).session,
        ⟨r.name, value, ((l.write r.name value).item r).verdict, value != r.name,
          (l.write r.name value).session.allValid⟩) := by
  have hafter : ((l.write r.name value).session).find? r.name =
      some ((l.write r.name value).item r) :=
    find?_session_of_mem (l := l.write r.name value) hr
  simp only [Session.edit, find?_session_of_mem hr, propose_session, hafter]
  simp [Item.isChanged, write]

/-- An edit of an unknown IED fails. -/
theorem edit_session_of_notMem {l : Ledger} {identity : String} (h : identity ∉ l.identities)
    (value : String) : l.session.edit identity value = .error (.unknownName identity) := by
  simp only [Session.edit, find?_session_of_notMem h]

/-! ## Views -/

/-- The records in display order, which no proposal changes. -/
def displayed (l : Ledger) : List Ied :=
  l.records.mergeSort fun r r' =>
    Unicode.codeLe (Unicode.foldText r.sortKey) (Unicode.foldText r'.sortKey)

/-- **The views are those of the items of the records**, in an order that the records alone give. -/
theorem views_session (l : Ledger) (query : Option Query) :
    l.session.views query = l.displayed.map fun r => (l.item r).view query := by
  have horder : Session.displayOrder l.session.items = l.displayed.map l.item := by
    rw [Session.displayOrder, items_session, displayed]
    refine (List.map_mergeSort fun r _ r' _ => ?_).symm
    rfl
  rw [Session.views, horder, List.map_map]
  rfl

/-! ## Verdicts -/

/-- Whether the name proposed for an IED is also proposed for another one. -/
def Taken (l : Ledger) (identity : String) : Prop :=
  ∃ other ∈ l.identities, other ≠ identity ∧ l.names other = l.names identity

/-- **A name has one holder exactly if no other IED holds it.** -/
theorem holders_ne_one_iff {l : Ledger} {identity : String} (h : identity ∈ l.identities) :
    l.holders (l.names identity) ≠ 1 ↔ l.Taken identity := by
  -- Taking the identity itself out of the list takes one holder away.
  have hperm : l.identities.Perm (identity :: l.identities.erase identity) :=
    List.perm_cons_erase h
  have hcount : l.holders (l.names identity) =
      ((l.identities.erase identity).map l.names).count (l.names identity) + 1 := by
    rw [holders, (hperm.map l.names).count_eq, List.map_cons, List.count_cons_self]
  have htaken : l.Taken identity ↔
      l.names identity ∈ (l.identities.erase identity).map l.names := by
    simp only [Taken, List.mem_map, l.nodup_identities.mem_erase_iff]
    constructor
    · rintro ⟨other, hother, hne, heq⟩
      exact ⟨other, ⟨hne, hother⟩, heq⟩
    · rintro ⟨other, ⟨hne, hother⟩, heq⟩
      exact ⟨other, hother, hne, heq⟩
  rw [htaken, ← List.count_pos_iff, hcount]
  omega

/-- **The verdict of an item is the one the naming rules give.** -/
theorem ruled_item {l : Ledger} {r : Ied} (hr : r ∈ l.records) :
    Ruled (l.names r.name) (l.Taken r.name) (l.item r).verdict := by
  refine (Naming.ruled_judge (l.names r.name) (l.holders (l.names r.name))).congr ?_
  rw [← holders_ne_one_iff (mem_identities hr)]
  exact not_congr (by omega)

end Ledger

end StationNaming
