import StationNaming.Proofs.Editor.Coherence
import StationNaming.Proofs.Editor.Display
import StationNaming.Proofs.Input.Snapshot
import StationNaming.Proofs.Search.Query
/-!
# What no edit hides

A search looks at the descriptive lines of an IED, at the name that is proposed for it and at its
own name. All but the proposed name stay what they are.

**What is exact.** `visible_of_fixedText` takes every term of a query on its own: one may be found
in the name and another one in a line. What was found so stays found, whatever is proposed for this
IED or another one, whether it may stand or not.
-/

namespace StationNaming

open Search (Query Occurs parts)

/-! ## Longer texts -/

/-- **What occurs in a text occurs in every text around it.** -/
theorem Search.Occurs.mono {ps : List Search.Part} {text longer : List Char} (h : Occurs ps text)
    (within : text <:+: longer) : Occurs ps longer := by
  obtain ⟨stretch, hstretch, hcovers⟩ := h
  exact ⟨stretch, hstretch.trans within, hcovers⟩

/-- A query accepts a text if each of its terms is found in some part of it. -/
theorem Search.Query.test_of_occurs {q : Query} {candidate : String}
    (h : ∀ term ∈ q.terms, ∃ text : String, text.toList <:+: candidate.toList ∧
      Occurs (parts term.toList) text.toList) : q.test candidate = true := by
  rw [Query.test, List.all_eq_true]
  intro term hterm
  obtain ⟨text, hwithin, hoccurs⟩ := h term hterm
  exact Search.occursIn_iff.mpr (hoccurs.mono hwithin)

/-! ## Fixed texts -/

namespace Ied

/-- **The texts of an IED that no proposal changes**: its own name and its descriptive lines. -/
def fixedTexts (r : Ied) : List String := [r.name, r.firstLine, r.secondLine]

/-- The fixed texts stand in the text a search looks at, whatever name is proposed. -/
theorem infix_searchableText {r : Ied} {text : String} (h : text ∈ r.fixedTexts)
    (current : String) :
    text.toList <:+: (r.searchableText current).toList := by
  simp only [fixedTexts, List.mem_cons, List.not_mem_nil, or_false] at h
  rcases h with rfl | rfl | rfl
  · exact ⟨(r.firstLine ++ " " ++ r.secondLine ++ " " ++ current ++ " ").toList, [],
      by simp [searchableText]⟩
  · exact ⟨[], (" " ++ r.secondLine ++ " " ++ current ++ " " ++ r.name).toList,
      by simp [searchableText]⟩
  · exact ⟨(r.firstLine ++ " ").toList, (" " ++ current ++ " " ++ r.name).toList,
      by simp [searchableText]⟩

/-- **A query is met by the fixed texts** of an IED if each of its terms occurs in one of them. -/
def Meets (r : Ied) (q : Query) : Prop :=
  ∀ term ∈ q.terms, ∃ text ∈ r.fixedTexts, Occurs (parts term.toList) text.toList

/-- Fixed texts that meet a query meet it under every proposed name. -/
theorem Meets.test_searchableText {r : Ied} {q : Query} (h : r.Meets q) (current : String) :
    q.test (r.searchableText current) = true := by
  refine Query.test_of_occurs fun term hterm => ?_
  obtain ⟨text, htext, hoccurs⟩ := h term hterm
  exact ⟨text, infix_searchableText htext current, hoccurs⟩

end Ied

/-! ## Views -/

theorem Ledger.mem_displayed {l : Ledger} {r : Ied} : r ∈ l.displayed ↔ r ∈ l.records :=
  List.mem_mergeSort

/-- **An IED whose fixed texts meet a query is shown** in the session of every ledger that has
it. -/
theorem Ledger.visible_of_meets {l : Ledger} {r : Ied} (hr : r ∈ l.records) {q : Query}
    (meets : r.Meets q) :
    (∃ v ∈ l.session.views (some q), v.identity = r.name) ∧
      ∀ v ∈ l.session.views (some q), v.identity = r.name → v.visible = true := by
  rw [views_session]
  refine ⟨⟨_, List.mem_map_of_mem (mem_displayed.mpr hr), rfl⟩, ?_⟩
  intro v hv hidentity
  obtain ⟨r', hr', rfl⟩ := List.mem_map.mp hv
  obtain rfl : r' = r := List.inj_on_of_nodup_map l.distinct (mem_displayed.mp hr') hr hidentity
  exact meets.test_searchableText _

namespace SearchBox

/-- A search that is applied while a session is loaded gives the identities of the visible items. -/
theorem apply_of_session {box : SearchBox} {s : Session} (held : box.editor.session = some s)
    (raw : String) :
    (box.apply raw).2 = .ok
      (some (((s.views (some (.compile raw))).filter (·.visible)).map (·.identity))) := by
  simp only [apply, shown_of_session held]

end SearchBox

namespace Editor

/-- **No edit hides what is found in fixed text.** If every term of a query occurs in the name of an
IED of the session or in one of its descriptive lines, the item is visible under the query after all
steps that neither close the session nor start another one, and a search box that applies the query
then lists it. -/
theorem visible_of_fixedText {steps : List Step} {s : Session}
    (held : (run {} steps).session = some s) {i : Item}
    (hi : i ∈ s.items) {raw : String} (meets : i.ied.Meets (.compile raw)) {more : List Step}
    (within : ∀ step ∈ more, ¬ step.StartsAnew) :
    (∃ vs, (run {} (steps ++ more)).views (some (.compile raw)) = .ok vs ∧
      (∃ v ∈ vs, v.identity = i.identity) ∧
      ∀ v ∈ vs, v.identity = i.identity → v.visible = true) ∧
    ∀ box : SearchBox, box.editor = run {} (steps ++ more) →
      ∃ ids, (box.apply raw).2 = .ok (some ids) ∧ i.identity ∈ ids := by
  obtain ⟨l, hl, rfl⟩ := exists_ledger_of_run held
  obtain ⟨r, hr, rfl⟩ := Ledger.mem_items_session.mp hi
  obtain ⟨l', hl', hrecords⟩ := exists_ledger_of_not_startsAnew hl within
  have held' : (run {} (steps ++ more)).session = some l'.session := by
    rw [session_run (steps ++ more), hl', Option.map_some]
  have hvisible := Ledger.visible_of_meets (l := l') (hrecords ▸ hr) meets
  refine ⟨⟨_, views_of_session held' _, hvisible⟩, fun box hbox => ?_⟩
  refine ⟨_, SearchBox.apply_of_session (hbox ▸ held') raw, ?_⟩
  obtain ⟨⟨v, hv, hidentity⟩, hall⟩ := hvisible
  exact List.mem_map.mpr ⟨v, List.mem_filter.mpr ⟨hv, hall v hv hidentity⟩, hidentity⟩

/-- Two IEDs of different makers. -/
def twoMakers : List Ied :=
  [{ name := "Q1", manufacturer := "Abb" }, { name := "Q2", manufacturer := "Sel" }]

/-- Edits after which neither of them has a name that may stand. -/
def spoilBoth : List Step := [.propose "Q1" "", .propose "Q2" "q 1"]

/-- One term is found in the maker of the first IED, and the other one in its name. -/
theorem visible_of_fixedText_twoMakers :
    (run {} [.load twoMakers]).session = some (Session.ofRecords twoMakers) ∧
    twoMakers[0].Meets (.compile "a?b q1") ∧
    (∃ vs, (run {} ([.load twoMakers] ++ spoilBoth)).views (some (.compile "a?b q1")) = .ok vs ∧
      (∃ v ∈ vs, v.identity = "Q1") ∧ ∀ v ∈ vs, v.identity = "Q1" → v.visible = true) ∧
    ∃ ids, (SearchBox.apply { editor := run {} ([.load twoMakers] ++ spoilBoth) } "a?b q1").2 =
      .ok (some ids) ∧
      "Q1" ∈ ids := by
  have held : (run {} [.load twoMakers]).session = some (Session.ofRecords twoMakers) := by decide
  have hterms : (Query.compile "a?b q1").terms = ["a.b", "q1"] := by decide +kernel
  have meets : twoMakers[0].Meets (.compile "a?b q1") := by
    rw [Ied.Meets, hterms]
    refine List.forall_mem_cons.mpr ⟨⟨"Abb", ?_, ?_⟩, List.forall_mem_singleton.mpr ⟨"Q1", ?_, ?_⟩⟩
    · decide
    · exact Search.occursIn_iff.mp (by decide +kernel)
    · decide
    · exact Search.occursIn_iff.mp (by decide +kernel)
  have within : ∀ step ∈ spoilBoth, ¬ step.StartsAnew :=
    List.forall_mem_cons.mpr ⟨id, List.forall_mem_singleton.mpr id⟩
  have hitem : (Session.ofRecords twoMakers).items[0] ∈ (Session.ofRecords twoMakers).items := by
    decide
  obtain ⟨hviews, happly⟩ := visible_of_fixedText held hitem meets within
  exact ⟨held, meets, hviews, happly _ rfl⟩

end Editor

end StationNaming
