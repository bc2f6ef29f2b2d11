import Mathlib.Data.List.Induction
import StationNaming.Proofs.Editor.Coherence
/-!
# Edits without their history

A list of edits leaves one name behind for every identity: the one that was proposed last, or the
original name where nothing was proposed. A session that has been edited is worked out from these
names alone.

**What is exact.** `session_edited` gives the session after any list of edits. Collisions, names
that may not stand and proposals that were taken back on the way leave no trace in it: two lists
that leave the same names behind leave the same editor, marks and verdicts included.
-/

namespace StationNaming

/-- An edit: an identity, and the name that is proposed for it. -/
abbrev Edit := String × String

/-! ## The names left behind -/

/-- **The name proposed last for an identity**; one that was never edited keeps its own name. -/
def lastProposed (edits : List Edit) (identity : String) : String :=
  (edits.reverse.lookup identity).getD identity

@[simp] theorem lastProposed_nil (identity : String) : lastProposed [] identity = identity := rfl

/-- One more edit overrides what was proposed for its identity, and nothing else. -/
theorem lastProposed_append (edits : List Edit) (identity value other : String) :
    lastProposed (edits ++ [(identity, value)]) other =
      if other = identity then value else lastProposed edits other := by
  by_cases h : other = identity
  · subst h
    simp [lastProposed]
  · simp [lastProposed, List.lookup_cons, h, beq_eq_false_iff_ne.mpr h]

theorem lastProposed_append_pair (edits : List Edit) (i j v w other : String) :
    lastProposed (edits ++ [(i, v), (j, w)]) other =
      if other = j then w else if other = i then v else lastProposed edits other := by
  rw [List.append_cons, lastProposed_append, lastProposed_append]

namespace Ledger

/-- The session of a ledger depends on the names of its own identities only. -/
theorem session_congr {l l' : Ledger} (hrecords : l.records = l'.records)
    (hnames : ∀ r ∈ l.records, l.names r.name = l'.names r.name) : l.session = l'.session := by
  have hproposals : l.records.map l.proposal = l'.records.map l'.proposal := by
    rw [← hrecords]
    exact List.map_congr_left fun r hr => by simp only [proposal, hnames r hr]
  rw [session, session, hproposals]

/-- **The ledger of records and edits.** -/
def ofEdits (records : List Ied) (distinct : (records.map (·.name)).Nodup) (edits : List Edit) :
    Ledger :=
  ⟨records, distinct, lastProposed edits⟩

/-- Edits that leave the same names behind leave the same session. -/
theorem session_ofEdits_congr {records : List Ied} (distinct : (records.map (·.name)).Nodup)
    {edits edits' : List Edit}
    (h : ∀ r ∈ records, lastProposed edits r.name = lastProposed edits' r.name) :
    (ofEdits records distinct edits).session = (ofEdits records distinct edits').session :=
  session_congr rfl h

end Ledger

namespace Editor

/-! ## An editor after edits -/

/-- **The editor after a list of edits**, made one after the other. -/
def edited (e : Editor) (edits : List Edit) : Editor :=
  e.run (edits.map fun edit => .propose edit.1 edit.2)

@[simp] theorem edited_nil (e : Editor) : e.edited [] = e := rfl

theorem edited_append (e : Editor) (edits edits' : List Edit) :
    e.edited (edits ++ edits') = (e.edited edits).edited edits' := by
  rw [edited, List.map_append, run_append]
  rfl

/-- Loading succeeds only for records with distinct names, and every IED then keeps its name. -/
theorem holds_of_load {start opened : Editor} {records : List Ied}
    (loads : start.load records = .ok opened) :
    ∃ distinct : (records.map (·.name)).Nodup,
      opened.Holds (some (Ledger.ofEdits records distinct [])) := by
  by_cases distinct : (records.map (·.name)).Nodup
  · rw [Editor.load, Session.load_of_nodup distinct] at loads
    cases loads
    exact ⟨distinct, rfl⟩
  · obtain ⟨name, hname⟩ := Session.load_of_not_nodup distinct
    rw [Editor.load, hname] at loads
    cases loads

/-- **One more edit**: an editor that holds the session of some edits holds that of one edit
more. -/
theorem Holds.edit {e : Editor} {records : List Ied} {distinct : (records.map (·.name)).Nodup}
    {edits : List Edit} (h : e.Holds (some (Ledger.ofEdits records distinct edits))) (edit : Edit) :
    (e.edited [edit]).Holds (some (Ledger.ofEdits records distinct (edits ++ [edit]))) := by
  obtain ⟨identity, value⟩ := edit
  have hafter := h.propose identity value
  rw [Step.record, Option.map_some] at hafter
  refine hafter.trans (congrArg some ?_)
  split
  · -- The name is written over, which is what one edit more leaves behind.
    refine Ledger.session_congr rfl fun r _ => ?_
    show Function.update (lastProposed edits) identity value r.name = lastProposed _ r.name
    rw [lastProposed_append, Function.update_apply]
  · next hunknown =>
    refine Ledger.session_congr rfl fun r hr => ?_
    show lastProposed edits r.name = lastProposed _ r.name
    have hne : r.name ≠ identity := fun heq => hunknown (heq ▸ List.mem_map_of_mem hr)
    rw [lastProposed_append, if_neg hne]

/-- **The session after any edits** of a session that was just loaded. -/
theorem session_edited {start opened : Editor} {records : List Ied}
    (loads : start.load records = .ok opened) :
    ∃ distinct : (records.map (·.name)).Nodup, ∀ edits,
      (opened.edited edits).Holds (some (Ledger.ofEdits records distinct edits)) := by
  obtain ⟨distinct, hopened⟩ := holds_of_load loads
  refine ⟨distinct, fun edits => ?_⟩
  -- The last edit is the one that counts, so the induction takes edits off the end.
  induction edits using List.reverseRecOn with
  | nil => exact hopened
  | append_singleton edits edit ih =>
    rw [edited_append]
    exact ih.edit edit

/-- After any edits the editor holds the session of a ledger over the records that were loaded. -/
theorem exists_holds_edited {start opened : Editor} {records : List Ied}
    (loads : start.load records = .ok opened) (edits : List Edit) :
    ∃ l : Ledger, l.records = records ∧ (opened.edited edits).Holds (some l) := by
  obtain ⟨distinct, hheld⟩ := session_edited loads
  exact ⟨Ledger.ofEdits records distinct edits, rfl, hheld edits⟩

/-! ## What is forgotten -/

/-- The session that is held is all there is to an editor. -/
theorem Holds.unique {e e' : Editor} {l l' : Ledger} (h : e.Holds (some l))
    (h' : e'.Holds (some l')) (hsession : l.session = l'.session) : e = e' := by
  obtain ⟨held⟩ := e
  obtain ⟨held'⟩ := e'
  have hheld : held = held' := h.trans ((congrArg some hsession).trans h'.symm)
  rw [hheld]

section Forgotten

variable {start opened : Editor} {records : List Ied}

/-- **Edits that leave the same names behind leave the same editor.** -/
theorem edited_congr (loads : start.load records = .ok opened) {edits edits' : List Edit}
    (h : ∀ r ∈ records, lastProposed edits r.name = lastProposed edits' r.name) :
    opened.edited edits = opened.edited edits' := by
  obtain ⟨distinct, hheld⟩ := session_edited loads
  exact (hheld edits).unique (hheld edits') (Ledger.session_ofEdits_congr distinct h)

/-- Every record has its item, and the item holds the name that was proposed last. -/
theorem exists_session_edited (loads : start.load records = .ok opened) (edits : List Edit) :
    ∃ s, opened.edited edits = ⟨some s⟩ ∧
      s.items.map (fun i => (i.ied, i.current)) =
        records.map fun r => (r, lastProposed edits r.name) := by
  obtain ⟨distinct, hheld⟩ := session_edited loads
  have hself : (⟨some (Ledger.ofEdits records distinct edits).session⟩ : Editor).Holds
      (some (Ledger.ofEdits records distinct edits)) := rfl
  refine ⟨_, (hheld edits).unique hself rfl, ?_⟩
  rw [Ledger.items_session, List.map_map]
  rfl

/-- **The editor forgets how its names came about.** After any edits of a loaded session every item
holds the name that was proposed last for it, and edits that leave the same names behind leave the
same editor: items, verdicts, pending marks and validity, and with them the renamings it commits to
and its views under every query. So edits of different items commute, an edit made twice is made
once, and an item that gets its name back restores the session before it lost it. -/
theorem edited_eq_of_lastProposed (loads : start.load records = .ok opened) :
    (∀ edits : List Edit, ∃ s, opened.edited edits = ⟨some s⟩ ∧
      s.items.map (fun i => (i.ied, i.current)) =
        records.map fun r => (r, lastProposed edits r.name)) ∧
    (∀ edits edits' : List Edit,
      (∀ r ∈ records, lastProposed edits r.name = lastProposed edits' r.name) →
        opened.edited edits = opened.edited edits') ∧
    (∀ (edits : List Edit) (i j v w : String), i ≠ j →
      opened.edited (edits ++ [(i, v), (j, w)]) = opened.edited (edits ++ [(j, w), (i, v)])) ∧
    (∀ (edits : List Edit) (i v : String),
      opened.edited (edits ++ [(i, v), (i, v)]) = opened.edited (edits ++ [(i, v)])) ∧
    ∀ (edits : List Edit) (s : Session), (opened.edited edits).session = some s →
      ∀ i ∈ s.items, ∀ v : String,
        opened.edited (edits ++ [(i.identity, v), (i.identity, i.current)]) =
          opened.edited edits := by
  refine ⟨exists_session_edited loads, fun edits edits' => edited_congr loads, ?_, ?_, ?_⟩
  · intro edits i j v w hij
    refine edited_congr loads fun r _ => ?_
    rw [lastProposed_append_pair, lastProposed_append_pair]
    by_cases hi : r.name = i
    · rw [if_pos hi, if_pos hi, if_neg fun hj => hij (hi.symm.trans hj)]
    · rw [if_neg hi, if_neg hi]
  · intro edits i v
    refine edited_congr loads fun r _ => ?_
    rw [lastProposed_append_pair, lastProposed_append]
    by_cases hi : r.name = i
    · rw [if_pos hi, if_pos hi]
    · rw [if_neg hi, if_neg hi]
  · intro edits s hs i hi v
    obtain ⟨distinct, hheld⟩ := session_edited loads
    obtain rfl : s = (Ledger.ofEdits records distinct edits).session :=
      Option.some.inj (hs.symm.trans (hheld edits))
    obtain ⟨own, -, rfl⟩ := Ledger.mem_items_session.mp hi
    refine edited_congr loads fun r _ => ?_
    rw [lastProposed_append_pair]
    -- The name that is written back is the one that was proposed last before the detour.
    by_cases hr : r.name = own.name
    · rw [Ledger.identity_item, if_pos hr, hr]
      rfl
    · rw [Ledger.identity_item, if_neg hr, if_neg hr]

end Forgotten

/-- Three IEDs without a description. -/
def trio : List Ied := [{ name := "A" }, { name := "B" }, { name := "C" }]

/-- An editor that has just loaded them. -/
def openedTrio : Editor := ⟨some (Session.ofRecords trio)⟩

/-- Edits that collide, propose names that may not stand, and take all but one of them back. -/
def detour : List Edit := [("A", "B"), ("B", "1bad"), ("C", ""), ("B", "B"), ("A", "X"), ("C", "C")]

theorem edited_eq_of_detour :
    ({} : Editor).load trio = .ok openedTrio ∧
    (∀ r ∈ trio, lastProposed detour r.name = lastProposed [("A", "X")] r.name) ∧
    openedTrio.edited detour = openedTrio.edited [("A", "X")] ∧
    (openedTrio.edited detour).session = some
      ⟨[{ ied := { name := "A" }, current := "X", pending := true },
        { ied := { name := "B" }, current := "B" }, { ied := { name := "C" }, current := "C" }],
        true⟩ := by
  have loads : ({} : Editor).load trio = .ok openedTrio := rfl
  have same : ∀ r ∈ trio, lastProposed detour r.name = lastProposed [("A", "X")] r.name := by decide
  exact ⟨loads, same, (edited_eq_of_lastProposed loads).2.1 detour [("A", "X")] same, by decide⟩

end Editor

end StationNaming
