import StationNaming.Proofs.Input.Journal
/-!
# What a search box shows

The query in force and the identities it shows are those of one moment: the last one at which an
input was applied while a session was loaded.

**What is exact.** A history is told by the steps alone: which input waits, what the editor went
through, and under which session each input was applied. `snapshot_of_run` holds after every run and
for every step after it. Input that was typed is applied to the session that is there when it is
taken, not to the one that was there when it was typed.
-/

namespace StationNaming.SearchBox

open Search (Query)

/-! ## Applications -/

/-- **An input that was applied**, with the session that was loaded at that moment. -/
structure Application where
  raw : String
  session : Session

namespace Application

/-- The query that was put in force. -/
def query (a : Application) : Query := .compile a.raw

/-- **What it shows**: the identities of the items whose text passes the query, in display order. -/
def shows (a : Application) : List String :=
  ((Session.displayOrder a.session.items).filter fun i => a.query.test i.searchableText).map
    (·.identity)

end Application

/-! ## Histories -/

/-- **What the steps of a run tell.** -/
structure History where
  /-- How many inputs were typed. -/
  typed : Nat := 0
  /-- The typed input that waits, with its number. -/
  waiting : Option (Nat × String) := none
  editor : Editor := {}
  /-- The inputs that were applied while a session was loaded. -/
  applications : List Application := []

namespace History

/-- The input that a step is to apply. -/
def due (h : History) : Step → Option String
  | .apply raw => some raw
  | .clear => some ""
  | .flush => h.waiting.map (·.2)
  | .expire k => (h.waiting.filter (·.1 = k)).map (·.2)
  | .update _ | .cancel | .edit _ => none

/-- The input that waits after a step. -/
def waitingAfter (h : History) : Step → Option (Nat × String)
  | .update raw => some (h.typed, raw)
  | .clear | .flush | .cancel => none
  | .expire k => h.waiting.filter (·.1 ≠ k)
  | .apply _ | .edit _ => h.waiting

/-- The application that a step comes to: there is none without a session. -/
def application? (h : History) (x : Step) : Option Application :=
  (h.due x).bind fun raw => h.editor.session.map (⟨raw, ·⟩)

/-- The editor after a step. -/
def editorAfter (h : History) : Step → Editor
  | .edit step => h.editor.after step
  | .update _ | .apply _ | .clear | .flush | .cancel | .expire _ => h.editor

/-- How many inputs were typed after a step. -/
def typedAfter (h : History) : Step → Nat
  | .update _ => h.typed + 1
  | .apply _ | .clear | .flush | .cancel | .expire _ | .edit _ => h.typed

/-- Nothing waits after a step that takes what waits. -/
theorem waitingAfter_of_due {h : History} {x : Step} {raw : String} (hdue : h.due x = some raw)
    (hx : ∀ raw', x ≠ .apply raw') : h.waitingAfter x = none := by
  cases x with
  | apply raw' => exact absurd rfl (hx raw')
  | clear | flush => rfl
  | update | cancel | edit => cases hdue
  | expire k =>
    obtain ⟨typed, htyped, -⟩ := Option.map_eq_some_iff.mp hdue
    obtain ⟨hwaiting, hnumber⟩ := Option.filter_eq_some_iff.mp htyped
    rw [waitingAfter, hwaiting]
    exact Option.filter_some_neg (by simpa using hnumber)

/-- **One more step.** -/
def note (h : History) (x : Step) : History where
  typed := h.typedAfter x
  waiting := h.waitingAfter x
  editor := h.editorAfter x
  applications := h.applications ++ (h.application? x).toList

/-- The query and the identities that are shown: those of the last application. -/
def shown (h : History) : Query × List String :=
  match h.applications.getLast? with
  | some a => (a.query, a.shows)
  | none => (.matchAll, [])

theorem shown_note_of_some {h : History} {x : Step} {a : Application}
    (ha : h.application? x = some a) :
    (h.note x).shown = (a.query, a.shows) := by
  simp only [shown, note, ha, Option.toList_some, List.getLast?_concat]

theorem shown_note_of_none {h : History} {x : Step} (ha : h.application? x = none) :
    (h.note x).shown = h.shown := by
  simp only [shown, note, ha, Option.toList_none, List.append_nil]

end History

/-- **The history of a run.** -/
def history (steps : List Step) : History := steps.foldl History.note {}

theorem history_append (steps : List Step) (x : Step) :
    history (steps ++ [x]) = (history steps).note x :=
  List.foldl_append

/-- What a step asks of the editor. -/
def Step.edit? : Step → Option Editor.Step
  | .edit step => some step
  | .update _ | .apply _ | .clear | .flush | .cancel | .expire _ => none

/-- The editor goes through its own steps, and no other step touches it. -/
theorem editor_history (steps : List Step) :
    (history steps).editor = ({} : Editor).run (steps.filterMap Step.edit?) := by
  induction steps using List.reverseRecOn with
  | nil => rfl
  | append_singleton steps x ih =>
    rw [history_append, List.filterMap_append, Editor.run_append, ← ih]
    cases x <;> rfl

/-! ## The box follows the history -/

theorem shown_of_application {e : Editor} (a : Application) (h : e.session = some a.session) :
    SearchBox.shown e a.query = .ok a.shows := by
  rw [shown_of_session h, Session.views, List.filter_map, List.map_map]
  rfl

/-- **A box that a history accounts for.** -/
structure Recorded (h : History) (box : SearchBox) : Prop where
  input_eq : box.input = ⟨h.typed, h.waiting.map (·.1), h.waiting.map (·.2)⟩
  editor_eq : box.editor = h.editor
  shown_eq : (box.query, box.visible) = h.shown

/-- **How a box answers to a step.** -/
structure Answers (h : History) (box : SearchBox) (x : Step) : Prop where
  /-- Where no input is due, nothing is reported and the same is shown. -/
  idle : h.due x = none → (box.perform x).2 = .ok none ∧
    (box.perform x).1.query = box.query ∧ (box.perform x).1.visible = box.visible
  /-- An input that is due is applied to the session that is loaded. -/
  applied : ∀ raw s, h.due x = some raw → h.editor.session = some s →
    (box.perform x).2 = .ok (some (Application.shows ⟨raw, s⟩)) ∧
      (box.perform x).1.query = .compile raw ∧ (box.perform x).1.visible =
        Application.shows ⟨raw, s⟩
  /-- Without a session the step fails, and the same is shown. -/
  refused : ∀ raw, h.due x = some raw → h.editor.session = none → (box.perform x).2 =
    .error .noSession ∧
    (box.perform x).1.query = box.query ∧ (box.perform x).1.visible = box.visible
  /-- What waits afterwards, whether the step fails or not. -/
  waiting : (box.perform x).1.input.waiting = (h.waitingAfter x).map (·.2)
  /-- No input waits any more after one was due, unless it was not the one that waited. -/
  taken : ∀ raw, h.due x = some raw → (∀ raw', x ≠ .apply raw') →
    (box.perform x).1.input.isPending = false

namespace Recorded

variable {h : History} {box : SearchBox}

theorem start : Recorded {} {} := ⟨rfl, rfl, rfl⟩

/-- **What a step takes from waiting** is the input that is due. -/
theorem advance_eq (hr : Recorded h box) (x : Step) : box.advance x =
    (⟨h.typedAfter x, (h.waitingAfter x).map (·.1), (h.waitingAfter x).map (·.2)⟩, h.due x) := by
  cases x with
  | expire k =>
    rw [advance, hr.input_eq, DelayedCall.expire]
    simp only [History.typedAfter, History.waitingAfter, History.due]
    cases h.waiting with
    | none => rfl
    | some typed =>
      obtain ⟨n, raw⟩ := typed
      by_cases hn : n = k
      · subst hn
        simp [Option.filter, DelayedCall.take]
      · simp [Option.filter, hn]
  | update | apply | clear | flush | cancel | edit =>
    rw [advance, hr.input_eq]
    rfl

/-- **A box answers to every step as its history tells.** -/
theorem answers (hr : Recorded h box) (x : Step) : Answers h box x := by
  have hperform := box.perform_eq x
  rw [hr.advance_eq x] at hperform
  have hwaiting : (box.perform x).1.input.waiting = (h.waitingAfter x).map (·.2) := by
    rw [(box.perform_cases x).1, hr.advance_eq x]
  have heditor : ∀ raw, h.due x = some raw → box.editorAfter x = box.editor := by
    intro raw hdue
    cases x with
    | edit => cases hdue
    | update | apply | clear | flush | cancel | expire => rfl
  constructor
  case idle =>
    intro hdue
    rw [hperform, hdue]
    exact ⟨rfl, rfl, rfl⟩
  case applied =>
    intro raw s hdue hsession
    have hshown : SearchBox.shown box.editor (.compile raw) = .ok (Application.shows ⟨raw, s⟩) :=
      shown_of_application ⟨raw, s⟩ (hr.editor_eq ▸ hsession)
    rw [hperform, hdue, heditor raw hdue]
    simp only [applyTaken, apply, hshown, and_self]
  case refused =>
    intro raw hdue hsession
    have hshown := shown_of_no_session (hr.editor_eq ▸ hsession : box.editor.session = none)
      (.compile raw)
    rw [hperform, hdue, heditor raw hdue]
    simp only [applyTaken, apply, hshown, and_self]
  case waiting => exact hwaiting
  case taken =>
    intro raw hdue hx
    rw [DelayedCall.isPending, hwaiting, History.waitingAfter_of_due hdue hx]
    rfl

/-- **One step** keeps the box and the history together. -/
theorem note (hr : Recorded h box) (x : Step) : Recorded (h.note x) (box.perform x).1 := by
  obtain ⟨hinput, heditor, -⟩ := box.perform_cases x
  have hanswers := hr.answers x
  refine ⟨?_, ?_, ?_⟩
  · rw [hinput, hr.advance_eq x]
    rfl
  · rw [heditor]
    cases x with
    | edit step => exact congrArg (·.after step) hr.editor_eq
    | update | apply | clear | flush | cancel | expire => exact hr.editor_eq
  · cases hdue : h.due x with
    | none =>
      have hnone : h.application? x = none := by rw [History.application?, hdue, Option.bind_none]
      obtain ⟨-, hquery, hvisible⟩ := hanswers.idle hdue
      rw [History.shown_note_of_none hnone, hquery, hvisible, hr.shown_eq]
    | some raw =>
      cases hsession : h.editor.session with
      | none =>
        have hnone : h.application? x = none := by rw [History.application?, hdue, hsession]; rfl
        obtain ⟨-, hquery, hvisible⟩ := hanswers.refused raw hdue hsession
        rw [History.shown_note_of_none hnone, hquery, hvisible, hr.shown_eq]
      | some s =>
        have hsome : h.application? x = some ⟨raw, s⟩ := by
          rw [History.application?, hdue, hsession]; rfl
        obtain ⟨-, hquery, hvisible⟩ := hanswers.applied raw s hdue hsession
        rw [History.shown_note_of_some hsome, hquery, hvisible]
        rfl

end Recorded

/-- **The box follows the history in every run.** -/
theorem recorded_run (steps : List Step) : Recorded (history steps) (run steps).1 := by
  -- A run grows at its end, so the induction takes steps off there.
  induction steps using List.reverseRecOn with
  | nil => exact Recorded.start
  | append_singleton steps x ih =>
    rw [run_append, history_append]
    exact ih.note x

/-! ## Reports -/

/-- The list that a step reports. -/
def report? (box : SearchBox) (x : Step) : Option (List String) :=
  match (box.perform x).2 with
  | .ok ids => ids
  | .error _ => none

/-- **The lists that steps report**, one after the other. -/
def reports (box : SearchBox) : List Step → List (List String)
  | [] => []
  | x :: steps => (box.report? x).toList ++ reports (box.perform x).1 steps

/-- A step reports what its application shows. -/
theorem Recorded.report?_eq {h : History} {box : SearchBox} (hr : Recorded h box) (x : Step) :
    box.report? x = (h.application? x).map Application.shows := by
  have hanswers := hr.answers x
  cases hdue : h.due x with
  | none => rw [report?, (hanswers.idle hdue).1, History.application?, hdue]; rfl
  | some raw =>
    cases hsession : h.editor.session with
    | none =>
      rw [report?, (hanswers.refused raw hdue hsession).1, History.application?, hdue,
        hsession]; rfl
    | some s =>
      rw [report?, (hanswers.applied raw s hdue hsession).1, History.application?, hdue,
        hsession]; rfl

/-- The reports of steps are those of their applications. -/
theorem Recorded.reports_eq {h : History} {box : SearchBox} (hr : Recorded h box)
    (steps : List Step) :
    (steps.foldl History.note h).applications.map Application.shows =
      h.applications.map Application.shows ++ box.reports steps := by
  induction steps generalizing h box with
  | nil => exact (List.append_nil _).symm
  | cons x steps ih =>
    rw [List.foldl_cons, ih (hr.note x), reports, hr.report?_eq x, ← List.append_assoc]
    refine congrArg (· ++ _) ?_
    rw [History.note, List.map_append]
    cases h.application? x <;> rfl

/-! ## Every run -/

/-- **A search box shows one moment.** After every run the query in force and the identities that
are shown are those of the last input that was applied while a session was loaded: the items of the
session of that moment that pass, in display order. Every such application was reported once, and
nothing else. The editor went through its own steps, and every further step is answered as the
history tells. -/
theorem snapshot_of_run (steps : List Step) :
    ((run steps).1.query, (run steps).1.visible) = (history steps).shown ∧
    reports {} steps = (history steps).applications.map Application.shows ∧
    (run steps).1.editor = ({} : Editor).run (steps.filterMap Step.edit?) ∧
    ∀ x, Answers (history steps) (run steps).1 x := by
  have hrecorded := recorded_run steps
  exact ⟨hrecorded.shown_eq, (Recorded.start.reports_eq steps).symm,
    hrecorded.editor_eq.trans (editor_history steps),
    hrecorded.answers⟩

-- Input that was typed before an edit is applied to the session after it.
example : (run [.edit (.load [{ name := "A" }, { name := "B" }]), .update "x",
    .edit (.propose "A" "X"),
    .flush]).1.visible = ["A"] := by cbv

end StationNaming.SearchBox
