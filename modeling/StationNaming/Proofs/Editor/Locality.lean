import StationNaming.Proofs.Editor.Coherence
/-!
# What an edit leaves alone

All names of a session are judged together, and an edit judges every item again. This module shows
that little comes of that: an item that is not the edited one keeps all but its verdict, and its
verdict changes only where it shares a name with the edited item.

**What is exact.** `localEdit_of_run` holds for every session that any run leaves, whatever collides
in it. The items are compared in load order and the views in display order, so no item is moved or
lost.
-/

namespace StationNaming

open Naming (Ruled)
open Search (Query)

/-- **Two verdicts on one text differ only as to whether it is taken.** -/
theorem Naming.Ruled.eq_or_taken {value : String} {taken taken' : Prop} {v v' : Verdict}
    (h : Ruled value taken v) (h' : Ruled value taken' v') :
    v' = v ∨ (taken ∧ ¬ taken' ∧ v = .duplicate ∧ v' = .valid) ∨
      (¬ taken ∧ taken' ∧ v = .valid ∧ v' = .duplicate) := by
  have hspelled : Naming.WellSpelled value → value ≠ "" := Naming.WellSpelled.ne_empty
  -- The spelling and the length settle both verdicts alike, unless they let the text pass.
  cases h <;> cases h' <;> grind

/-! ## Edits of one item -/

/-- **What becomes of an item when the item `i` gets the name `value`.** -/
inductive Item.After (i : Item) (value : String) : Item → Item → Prop
  /-- The edited item holds the name. -/
  | edited {j j' : Item} (same : j.identity = i.identity) (ied_eq : j'.ied = j.ied)
    (current_eq : j'.current = value) : After i value j j'
  /-- Another item is as it was. -/
  | kept {j : Item} (other : j.identity ≠ i.identity) : After i value j j
  /-- Another item is the only one left with the name that was given up. -/
  | freed {j : Item} (other : j.identity ≠ i.identity) (left : value ≠ i.current)
    (held : j.current = i.current) (was : j.verdict = .duplicate) :
    After i value j { j with verdict := .valid }
  /-- Another item had the name for its own and now shares it. -/
  | joined {j : Item} (other : j.identity ≠ i.identity) (left : value ≠ i.current)
    (held : j.current = value) (was : j.verdict = .valid) :
    After i value j { j with verdict := .duplicate }

namespace Session

/-- The verdict on an item of a session goes from one to another. -/
def Turns (s s' : Session) (v v' : Verdict) (j : Item) : Prop :=
  j ∈ s.items ∧ j.verdict = v ∧ ∃ j' ∈ s'.items, j'.identity = j.identity ∧ j'.verdict = v'

/-- **An edit of one item that is felt by few others.** -/
structure LocalEdit (s : Session) (i : Item) (value : String) (s' : Session) : Prop where
  /-- Each item stays where it is, and the others keep their names and their pending marks. -/
  items : List.Forall₂ (Item.After i value) s.items s'.items
  /-- One verdict at most goes any one way among the others. -/
  once : ∀ v v', v ≠ v' → ∀ j k, j.identity ≠ i.identity → k.identity ≠ i.identity →
    s.Turns s' v v' j → s.Turns s' v v' k → j = k
  /-- The other pending renames are the same. -/
  pending : ∀ identity, identity ≠ i.identity → (identity ∈ s'.pending ↔ identity ∈ s.pending)
  /-- Under every query the items are shown in the same order, and the others are shown as they were
  but for their verdicts. -/
  views : ∀ query, List.Forall₂ (fun w w' => w'.identity = w.identity ∧
    (w.identity ≠ i.identity → w' = { w with verdict := w'.verdict })) (s.views
      query) (s'.views query)
  /-- Writing the name that is there changes nothing at all. -/
  unchanged : value = i.current → s' = s

end Session

namespace Ledger

/-- A rename is pending for every IED with another name than its own. -/
theorem mem_pending_session_iff {l : Ledger} {identity : String} :
    identity ∈ l.session.pending ↔ identity ∈ l.identities ∧ l.names identity ≠ identity := by
  rw [l.coherent_session.pending_eq, List.mem_map]
  constructor
  · rintro ⟨i, hi, rfl⟩
    obtain ⟨hmem, hne⟩ := List.mem_filter.mp hi
    obtain ⟨r, hr, rfl⟩ := mem_items_session.mp hmem
    exact ⟨mem_identities hr, of_decide_eq_true hne⟩
  · rintro ⟨hmem, hne⟩
    obtain ⟨r, hr, rfl⟩ := List.mem_map.mp hmem
    have hitem : l.item r ∈ l.session.items := mem_items_session.mpr ⟨r, hr, rfl⟩
    exact ⟨l.item r, List.mem_filter.mpr ⟨hitem, decide_eq_true hne⟩, rfl⟩

/-- Of two IEDs that one name is proposed for, neither has it for its own. -/
theorem eq_of_not_taken {l : Ledger} {identity other : String} (hfree : ¬ l.Taken identity)
    (hother : other ∈ l.identities) (heq : l.names other = l.names identity) :
      other = identity := by
  by_contra hne
  exact hfree ⟨other, hother, hne, heq⟩

/-- The name proposed for an IED is also proposed for one that is neither this one nor the edited
one. -/
def TakenBeside (l : Ledger) (edited identity : String) : Prop :=
  ∃ other ∈ l.identities, other ≠ identity ∧ other ≠ edited ∧ l.names other = l.names identity

/-- Writing the name that is there leaves the ledger as it is. -/
theorem write_names_self (l : Ledger) (identity : String) :
    l.write identity (l.names identity) = l := by
  rw [write, Function.update_eq_self]

theorem names_write_of_ne (l : Ledger) {edited identity : String} (hne : identity ≠ edited)
    (value : String) :
    (l.write edited value).names identity = l.names identity := Function.update_of_ne hne ..

/-- All that an edit can change in the item of another record is its verdict. -/
theorem item_write_of_ne (l : Ledger) {edited : String} {r : Ied} (hne : r.name ≠ edited)
    (value : String) :
    (l.write edited value).item r =
      { l.item r with verdict := ((l.write edited value).item r).verdict } := by
  simp only [item, proposal, names_write_of_ne l hne]

section Write

variable {l : Ledger} {own r : Ied} (hown : own ∈ l.records) (value : String)

include hown

/-- **Whether a name is taken after an edit**: by the edited IED, or by a third one. -/
theorem taken_write_iff {identity : String} (hne : identity ≠ own.name) :
    (l.write own.name value).Taken identity ↔
      l.names identity = value ∨ l.TakenBeside own.name identity := by
  have hwritten : (l.write own.name value).names own.name = value := Function.update_self ..
  have hidentity := names_write_of_ne l hne value
  constructor
  · rintro ⟨other, hmem, hdiffers, heq⟩
    rw [hidentity] at heq
    by_cases hedited : other = own.name
    · subst hedited
      exact .inl (heq.symm.trans hwritten)
    · exact .inr ⟨other, hmem, hdiffers, hedited,
        (names_write_of_ne l hedited value).symm.trans heq⟩
  · rintro (hvalue | ⟨other, hmem, hdiffers, hedited, heq⟩)
    · exact ⟨own.name, mem_identities hown, hne.symm, by rw [hwritten, hidentity, hvalue]⟩
    · exact ⟨other, hmem, hdiffers, by rw [names_write_of_ne l hedited, hidentity, heq]⟩

/-- Whether a name was taken before the edit. -/
theorem taken_iff {identity : String} (hne : identity ≠ own.name) :
    l.Taken identity ↔ l.names identity = l.names own.name ∨ l.TakenBeside own.name identity := by
  rw [← taken_write_iff hown _ hne, write_names_self]

variable (hr : r ∈ l.records)

include hr

/-- **What an edit makes of the item of a record.** -/
theorem after_write : Item.After (l.item own) value (l.item r)
    ((l.write own.name value).item r) := by
  by_cases hsame : r.name = own.name
  · have hcurrent : ((l.write own.name value).item r).current = value := by simp [write, hsame]
    exact .edited hsame rfl hcurrent
  have hbefore := ruled_item hr
  have hafter := ruled_item (l := l.write own.name value) (r := r) hr
  rw [names_write_of_ne l hsame] at hafter
  have htaken := taken_iff hown hsame
  have htaken' := taken_write_iff hown value hsame
  rw [item_write_of_ne l hsame]
  rcases hbefore.eq_or_taken hafter with hv | ⟨ht, hfree, hv, hv'⟩ | ⟨hfree, ht, hv, hv'⟩
  · rw [hv]
    exact .kept hsame
  · -- No third IED has the name, so before the edit it was taken by the edited one.
    obtain ⟨hvalue, hbeside⟩ := not_or.mp (mt htaken'.mpr hfree)
    have hheld := (htaken.mp ht).resolve_right hbeside
    rw [hv']
    exact .freed hsame (fun heq => hvalue (hheld.trans heq.symm)) hheld hv
  · obtain ⟨hheld, hbeside⟩ := not_or.mp (mt htaken.mpr hfree)
    have hvalue := (htaken'.mp ht).resolve_right hbeside
    rw [hv']
    exact .joined hsame (fun heq => hheld (hvalue.trans heq)) hvalue hv

/-- **An item whose verdict an edit changes** is the only one left with the name that was given up,
or was the only one so far with the new name. -/
theorem sole_of_verdict_ne (hother : r.name ≠ own.name)
    (hne : (l.item r).verdict ≠ ((l.write own.name value).item r).verdict) :
    ((l.item r).verdict = .duplicate ∧ l.names r.name = l.names own.name ∧
        ¬ (l.write own.name value).Taken r.name) ∨
      ((l.item r).verdict = .valid ∧ l.names r.name = value ∧ ¬ l.Taken r.name) := by
  have hbefore := ruled_item hr
  have hafter := ruled_item (l := l.write own.name value) (r := r) hr
  have hstep := after_write hown value hr
  generalize hitem : (l.write own.name value).item r = j' at hstep hne hafter
  cases hstep with
  | edited hsame => exact absurd hsame hother
  | kept => exact absurd rfl hne
  | freed _ _ hheld hwas => exact .inl ⟨hwas, hheld, (hafter.valid_iff.mp rfl).2⟩
  | joined _ _ hheld hwas => exact .inr ⟨hwas, hheld, (hbefore.valid_iff.mp hwas).2⟩

variable {value}

/-- **Of two items whose verdicts an edit changes alike**, both hold one name, and one of them is
the only one with it, before the edit or after it. -/
theorem name_eq_of_verdicts_eq {t : Ied} (ht : t ∈ l.records) (hr_other : r.name ≠ own.name)
    (ht_other : t.name ≠ own.name)
    (hne : (l.item r).verdict ≠ ((l.write own.name value).item r).verdict)
    (hbefore : (l.item r).verdict = (l.item t).verdict)
    (hafter : ((l.write own.name value).item r).verdict =
      ((l.write own.name value).item t).verdict) :
    t.name = r.name := by
  have hne_t : (l.item t).verdict ≠ ((l.write own.name value).item t).verdict :=
    hbefore ▸ hafter ▸ hne
  rcases sole_of_verdict_ne hown value hr hr_other hne with
    ⟨hv, hheld, hfree⟩ | ⟨hv, hheld, hfree⟩ <;>
    rcases sole_of_verdict_ne hown value ht ht_other hne_t with ⟨hw, hheld_t, -⟩ | ⟨hw, hheld_t, -⟩
  · refine eq_of_not_taken hfree (mem_identities ht) ?_
    rw [names_write_of_ne l hr_other, names_write_of_ne l ht_other, hheld, hheld_t]
  · exact absurd (hv.symm.trans (hbefore.trans hw)) (by decide)
  · exact absurd (hv.symm.trans (hbefore.trans hw)) (by decide)
  · exact eq_of_not_taken hfree (mem_identities ht) (hheld_t.trans hheld.symm)

end Write

/-- A verdict that turns is the one that the ledger gives, before the edit and after it. -/
theorem verdicts_of_turns {l l' : Ledger} (hrecords : l'.records = l.records)
    {v v' : Verdict} {r : Ied}
    (hr : r ∈ l.records) (h : l.session.Turns l'.session v v' (l.item r)) :
    v = (l.item r).verdict ∧ v' = (l'.item r).verdict := by
  obtain ⟨-, hv, j', hj', hidentity, hv'⟩ := h
  obtain ⟨r', hr', rfl⟩ := mem_items_session.mp hj'
  obtain rfl : r' = r := List.inj_on_of_nodup_map l.distinct (hrecords ▸ hr') hr hidentity
  exact ⟨hv.symm, hv'.symm⟩

/-- **An edit in the session of a ledger** is felt by few items. -/
theorem localEdit_write {l : Ledger} {own : Ied} (hown : own ∈ l.records) (value : String) :
    l.session.LocalEdit (l.item own) value (l.write own.name value).session where
  items := by
    rw [items_session, items_session, records_write, List.forall₂_map_left_iff,
      List.forall₂_map_right_iff, List.forall₂_same]
    exact fun r hr => after_write hown value hr
  once := by
    intro v v' hne j k hj hk hturnj hturnk
    obtain ⟨r, hr, rfl⟩ := mem_items_session.mp hturnj.1
    obtain ⟨t, ht, rfl⟩ := mem_items_session.mp hturnk.1
    obtain ⟨hr_before, hr_after⟩ := verdicts_of_turns (records_write l own.name value) hr hturnj
    obtain ⟨ht_before, ht_after⟩ := verdicts_of_turns (records_write l own.name value) ht hturnk
    have hname : t.name = r.name := name_eq_of_verdicts_eq hown hr ht hj hk
      (hr_before ▸ hr_after ▸ hne) (hr_before.symm.trans ht_before) (hr_after.symm.trans ht_after)
    rw [List.inj_on_of_nodup_map l.distinct ht hr hname]
  pending := by
    intro identity hne
    have hnames : (l.write own.name value).names identity = l.names identity :=
      names_write_of_ne l hne value
    rw [mem_pending_session_iff, mem_pending_session_iff, hnames]
    rfl
  views := by
    intro query
    rw [views_session, views_session, List.forall₂_map_left_iff, List.forall₂_map_right_iff]
    refine List.forall₂_same.mpr fun r _ => ⟨rfl, fun hother => ?_⟩
    have hitem := @item_write_of_ne l own.name r hother value
    rw [hitem]
    rfl
  unchanged := by
    rintro rfl
    rw [current_item, write_names_self]

end Ledger

namespace Editor

/-- **An edit has bounded side effects.** In every session that a run leaves, every item can be
given every name. All other items keep their names, their pending marks and what is shown of them
under every query. A verdict on another item changes only from duplicate to valid, where the item
held the name that was given up, or from valid to duplicate, where it holds the new name; at most
one verdict goes either way, and none does if the name was there already. -/
theorem localEdit_of_run {steps : List Step} {s : Session} (held : (run {} steps).session = some s)
    {i : Item} (hi : i ∈ s.items) (value : String) :
    ∃ s' result, (run {} steps).propose i.identity value = .ok (⟨some s'⟩, result) ∧
      s.LocalEdit i value s' := by
  obtain ⟨l, hl, rfl⟩ := exists_ledger_of_run held
  obtain ⟨own, hown, rfl⟩ := Ledger.mem_items_session.mp hi
  have hholds := session_run steps
  rw [hl] at hholds
  have hedited : ∃ result, (run {} steps).propose own.name value =
      .ok (⟨some (l.write own.name value).session⟩, result) := by
    rw [propose_of_holds_some hholds, Ledger.edit_session_of_mem hown]
    exact ⟨_, rfl⟩
  obtain ⟨result, hresult⟩ := hedited
  exact ⟨_, result, hresult, Ledger.localEdit_write hown value⟩

/-- A run after which the first item shares its name with the third one. -/
def crowdedSteps : List Step :=
  [.load [{ name := "A" }, { name := "B" }, { name := "C" }], .propose "A" "C"]

/-- The session that it leaves. -/
def crowded : Session :=
  ⟨[{ ied := { name := "A" }, current := "C", verdict := .duplicate, pending := true },
    { ied := { name := "B" }, current := "B" },
    { ied := { name := "C" }, current := "C", verdict := .duplicate }], false⟩

/-- The session after the first item has taken the name of the second one instead. -/
def crowdedElsewhere : Session :=
  ⟨[{ ied := { name := "A" }, current := "B", verdict := .duplicate, pending := true },
    { ied := { name := "B" }, current := "B", verdict := .duplicate },
    { ied := { name := "C" }, current := "C" }], false⟩

theorem localEdit_of_crowded :
    (run {} crowdedSteps).session = some crowded ∧
      (∃ i ∈ crowded.items, i.identity = "A" ∧ i.current = "C" ∧
        crowded.LocalEdit i "B" crowdedElsewhere) ∧
      (run {} crowdedSteps).propose "A" "B" =
        .ok (⟨some crowdedElsewhere⟩, ⟨"A", "B", .duplicate, true, false⟩) := by
  have held : (run {} crowdedSteps).session = some crowded := by decide
  have hedited : (run {} crowdedSteps).propose "A" "B" =
      .ok (⟨some crowdedElsewhere⟩, ⟨"A", "B", .duplicate, true, false⟩) := by rfl
  obtain ⟨s', result, hpropose, hlocal⟩ :=
    localEdit_of_run held (i := crowded.items[0]) (by decide) "B"
  obtain rfl : s' = crowdedElsewhere := by
    have hsame := Except.ok.inj (hpropose.symm.trans hedited)
    exact Option.some.inj (Editor.mk.inj (congrArg Prod.fst hsame))
  exact ⟨held, ⟨_, by decide, rfl, rfl, hlocal⟩, hedited⟩

end Editor

end StationNaming
