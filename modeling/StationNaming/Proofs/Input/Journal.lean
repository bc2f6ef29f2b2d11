import Mathlib.Data.List.Induction
import StationNaming.Proofs.Editor.Run
import StationNaming.SearchBox
/-!
# The journal of a search box

Search input is typed, applied at once or cleared; what was typed waits and is applied by a flush or
by its timer, while the editor goes on. Beside such a run stands a journal, in which all inputs have
numbers.

**What is exact.** A number waits in the journal where its input waits in the box, in a delayed call
of its own that goes through the same steps. `follows_run` holds after every run: what waits is the
input of the number that waits, and the query in force is that of the input that was applied last.
-/

namespace StationNaming

open Search (Query)

/-! ## Delayed calls of other arguments -/

namespace DelayedCall

variable {α β : Type}

/-- A delayed call in which other arguments stand for those that wait. -/
def map (f : α → β) (d : DelayedCall α) : DelayedCall β := ⟨d.started, d.timer, d.waiting.map f⟩

theorem map_congr {f g : α → β} {d : DelayedCall α} (h : ∀ a, d.waiting = some a → f a = g a) :
    d.map f = d.map g := by
  have hwaiting : d.waiting.map f = d.waiting.map g := Option.map_congr fun a ha => h a ha
  rw [map, map, hwaiting]

theorem expire_map (f : α → β) (d : DelayedCall α) (k : Nat) :
    (d.map f).expire k = ((d.expire k).1.map f, (d.expire k).2.map f) := by
  by_cases htimer : d.timer = some k
  · have htimer' : (d.map f).timer = some k := htimer
    rw [expire, if_pos htimer', expire, if_pos htimer]
    rfl
  · have htimer' : (d.map f).timer ≠ some k := htimer
    rw [expire_of_ne htimer', expire_of_ne htimer]
    rfl

/-- What an expiring timer takes is what waited. -/
theorem expire_cases (d : DelayedCall α) (k : Nat) :
    d.expire k = d.take ∨ d.expire k = (d, none) := by
  rw [expire]
  split
  · exact .inl rfl
  · exact .inr rfl

end DelayedCall

namespace SearchBox

/-! ## Steps -/

/-- **What can be asked of a search box and of its editor.** -/
inductive Step where
  | update (raw : String)
  | apply (raw : String)
  | clear
  | flush
  | cancel
  | expire (timer : Nat)
  | edit (step : Editor.Step)

/-- **The box after a step, and what the step reports.** What is asked of the editor reports nothing
here. -/
def perform (box : SearchBox) : Step → SearchBox × Outcome
  | .update raw => (box.update raw, .ok none)
  | .apply raw => box.apply raw
  | .clear => box.clear
  | .flush => box.flush
  | .cancel => (box.cancel, .ok none)
  | .expire k => box.expire k
  | .edit step => ({ box with editor := box.editor.after step }, .ok none)

/-- Whether a step applies an input. -/
def applies (box : SearchBox) (x : Step) : Bool :=
  match (box.perform x).2 with
  | .ok (some _) => true
  | _ => false

/-- The input that a step brings. Clearing counts as empty input. -/
def Step.input? : Step → Option String
  | .update raw | .apply raw => some raw
  | .clear => some ""
  | .flush | .cancel | .expire _ | .edit _ => none

/-! ## The journal -/

/-- **What became of the inputs.** They have numbers from 0, in the order in which they are
received. -/
structure Journal where
  /-- All inputs received. -/
  inputs : List String := []
  /-- The number of the input that waits, as it goes through the timers. -/
  waiting : DelayedCall Nat := {}
  /-- The numbers of the inputs that were applied, in the order in which they were. -/
  applied : List Nat := []
  deriving DecidableEq, Repr

namespace Journal

/-- The number that waits after a step, and the number of the input that the step is to apply. -/
def advance (j : Journal) : Step → DelayedCall Nat × Option Nat
  | .update _ => (j.waiting.call j.inputs.length, none)
  | .apply _ => (j.waiting, some j.inputs.length)
  | .clear => (j.waiting.cancel, some j.inputs.length)
  | .flush => j.waiting.take
  | .cancel => (j.waiting.cancel, none)
  | .expire k => j.waiting.expire k
  | .edit _ => (j.waiting, none)

/-- **Noting a step**, and whether it applied an input. -/
def note (j : Journal) (x : Step) (applies : Bool) : Journal where
  inputs := j.inputs ++ x.input?.toList
  waiting := (j.advance x).1
  applied := j.applied ++ if applies then (j.advance x).2.toList else []

/-- The text of an input by its number. -/
def text (j : Journal) (n : Nat) : String := j.inputs[n]?.getD ""

/-- The query of the input that was applied last. -/
def inForce (j : Journal) : Query :=
  match j.applied.getLast? with
  | some n => .compile (j.text n)
  | none => .matchAll

end Journal

/-- The box and the journal after one more step. -/
def proceed (c : SearchBox × Journal) (x : Step) : SearchBox × Journal :=
  ((c.1.perform x).1, c.2.note x (c.1.applies x))

/-- **A run**: the box it leaves, and its journal. -/
def run (steps : List Step) : SearchBox × Journal := steps.foldl proceed ({}, {})

@[simp] theorem run_nil : run [] = ({}, {}) := rfl

theorem run_append (steps : List Step) (x : Step) : run (steps ++ [x]) = proceed (run steps) x :=
  List.foldl_append

/-! ## What a step does -/

/-- What waits after a step, and the input that the step is to apply. -/
def advance (box : SearchBox) : Step → DelayedCall String × Option String
  | .update raw => (box.input.call raw, none)
  | .apply raw => (box.input, some raw)
  | .clear => (box.input.cancel, some "")
  | .flush => box.input.take
  | .cancel => (box.input.cancel, none)
  | .expire k => box.input.expire k
  | .edit _ => (box.input, none)

/-- The editor after a step. -/
def editorAfter (box : SearchBox) : Step → Editor
  | .edit step => box.editor.after step
  | .update _ | .apply _ | .clear | .flush | .cancel | .expire _ => box.editor

/-- **Every step comes down to taking input and applying it.** -/
theorem perform_eq (box : SearchBox) (x : Step) :
    box.perform x = applyTaken { box with editor := box.editorAfter x } (box.advance x) := by
  cases x <;> rfl

theorem shown_of_session {e : Editor} {s : Session} (h : e.session = some s) (q : Query) :
    shown e q = .ok (((s.views (some q)).filter (·.visible)).map (·.identity)) := by
  simp only [shown, Editor.views, Editor.require, h]
  rfl

theorem shown_of_no_session {e : Editor} (h : e.session = none) (q : Query) :
    shown e q = .error .noSession := by
  simp only [shown, Editor.views, Editor.require, h]
  rfl

/-- **An application succeeds exactly if a session is loaded.** It leaves what waits and the editor
alone. -/
theorem apply_cases (box : SearchBox) (raw : String) :
    (box.editor.session.isSome = true ∧ ∃ ids, shown box.editor (.compile raw) = .ok ids ∧
      box.apply raw = ({ box with query := .compile raw, visible := ids }, .ok (some ids))) ∨
    (box.editor.session = none ∧ box.apply raw = (box, .error .noSession)) := by
  cases hsession : box.editor.session with
  | some s =>
    have hshown := shown_of_session hsession (.compile raw)
    exact .inl ⟨rfl, _, hshown, by simp only [apply, hshown]⟩
  | none => exact .inr ⟨rfl, by simp only [apply, shown_of_no_session hsession]⟩

/-- **What a step does to a box**: it moves on what waits and the editor, and an input that it
applies is in force after it. Only where a session is loaded can an input be applied. -/
theorem perform_cases (box : SearchBox) (x : Step) :
    (box.perform x).1.input = (box.advance x).1 ∧ (box.perform x).1.editor = box.editorAfter x ∧
      ((∃ raw, (box.advance x).2 = some raw ∧ box.editor.session.isSome = true ∧
        box.applies x = true ∧
          (box.perform x).1.query = .compile raw) ∨
        (((box.advance x).2 = none ∨ box.editor.session = none) ∧ box.applies x = false ∧
          (box.perform x).1.query = box.query)) := by
  rw [applies, perform_eq]
  rcases hadvance : box.advance x with ⟨waiting, _ | raw⟩
  · exact ⟨rfl, rfl, .inr ⟨.inl rfl, rfl, rfl⟩⟩
  · -- Only the editor's own steps change the editor, and they apply nothing.
    have heditor : box.editorAfter x = box.editor := by
      cases x with
      | edit => cases hadvance
      | update | apply | clear | flush | cancel | expire => rfl
    rw [applyTaken, heditor]
    rcases apply_cases { box with editor := box.editor, input := waiting } raw with
      ⟨hsession, ids, -, happly⟩ | ⟨hsession, happly⟩
    · dsimp only
      rw [happly]
      exact ⟨rfl, rfl, .inl ⟨raw, rfl, hsession, rfl, rfl⟩⟩
    · dsimp only
      rw [happly]
      exact ⟨rfl, rfl, .inr ⟨.inr hsession, rfl, rfl⟩⟩

/-! ## The box follows the journal -/

/-- **A box that a journal accounts for.** -/
structure Follows (j : Journal) (box : SearchBox) : Prop where
  /-- The input of the number that waits is the one that waits in the box. -/
  input_eq : box.input = j.waiting.map j.text
  query_eq : box.query = j.inForce
  waiting_lt : ∀ n, j.waiting.waiting = some n → n < j.inputs.length
  applied_lt : ∀ n ∈ j.applied, n < j.inputs.length

theorem Journal.text_note {j : Journal} {n : Nat} (h : n < j.inputs.length) (x : Step)
    (applies : Bool) :
    (j.note x applies).text n = j.text n := by
  show ((j.inputs ++ x.input?.toList)[n]?).getD "" = _
  rw [List.getElem?_append_left h]
  rfl

/-- A number that is given to a new input is that of its text. -/
theorem Journal.text_note_length (j : Journal) {x : Step} {raw : String} (h : x.input? = some raw)
    (applies : Bool) : (j.note x applies).text j.inputs.length = raw := by
  show ((j.inputs ++ x.input?.toList)[j.inputs.length]?).getD "" = _
  rw [h, Option.toList_some, List.getElem?_concat_length]
  rfl

/-- **What a step takes from waiting** has the number that the journal takes, under any texts for
the numbers. -/
theorem advance_eq_map {j : Journal} {box : SearchBox} {text : Nat → String}
    (hinput : box.input = j.waiting.map text)
    {x : Step} (hnew : ∀ raw, x.input? = some raw → text j.inputs.length = raw) :
    box.advance x = ((j.advance x).1.map text, (j.advance x).2.map text) := by
  cases x with
  | update raw =>
    show (box.input.call raw, none) = ((j.waiting.map text).call (text j.inputs.length), none)
    rw [hinput, hnew raw rfl]
  | apply raw =>
    show (box.input, some raw) = (j.waiting.map text, some (text j.inputs.length))
    rw [hinput, hnew raw rfl]
  | clear =>
    show (box.input.cancel, some "") = ((j.waiting.map text).cancel, some (text j.inputs.length))
    rw [hinput, hnew "" rfl]
  | flush =>
    show box.input.take = (j.waiting.map text).take
    rw [hinput]
  | cancel =>
    show (box.input.cancel, none) = ((j.waiting.map text).cancel, none)
    rw [hinput]
  | expire k =>
    show box.input.expire k = _
    rw [hinput]
    exact DelayedCall.expire_map text j.waiting k
  | edit step =>
    show (box.input, none) = (j.waiting.map text, none)
    rw [hinput]

/-- What a step takes from waiting or gives a number to has been received. -/
theorem Journal.advance_lt {j : Journal} (h : ∀ n, j.waiting.waiting = some n → n < j.inputs.length)
    (x : Step) :
    (∀ n, (j.advance x).1.waiting = some n → n < (j.inputs ++ x.input?.toList).length) ∧
      ∀ n, (j.advance x).2 = some n → n < (j.inputs ++ x.input?.toList).length := by
  have hkept : ∀ n, j.waiting.waiting = some n → n < (j.inputs ++ x.input?.toList).length :=
    fun n hn =>
    Nat.lt_of_lt_of_le (h n hn) (by rw [List.length_append]; exact Nat.le_add_right _ _)
  have hnew : ∀ raw, x.input? = some raw → ∀ n, some j.inputs.length = some n →
      n < (j.inputs ++ x.input?.toList).length := by
    rintro raw hraw n hn
    rw [hraw, Option.toList_some, List.length_append, ← Option.some.inj hn]
    exact Nat.lt_succ_self _
  cases x with
  | update raw => exact ⟨hnew raw rfl, nofun⟩
  | apply raw => exact ⟨hkept, hnew raw rfl⟩
  | clear => exact ⟨nofun, hnew "" rfl⟩
  | flush => exact ⟨nofun, hkept⟩
  | cancel => exact ⟨nofun, nofun⟩
  | expire k =>
    show (∀ n, (j.waiting.expire k).1.waiting = some n → _) ∧
      ∀ n, (j.waiting.expire k).2 = some n → _
    rcases j.waiting.expire_cases k with htake | hnothing
    · rw [htake]
      exact ⟨nofun, hkept⟩
    · rw [hnothing]
      exact ⟨hkept, nofun⟩
  | edit step => exact ⟨hkept, nofun⟩

theorem Journal.applied_note_of_applies {j : Journal} {x : Step} {n : Nat}
    (hn : (j.advance x).2 = some n) :
    (j.note x true).applied = j.applied ++ [n] := by
  rw [Journal.note, hn]
  rfl

theorem Journal.applied_note_of_none {j : Journal} {x : Step} (h : (j.advance x).2 = none)
    (applies : Bool) :
    (j.note x applies).applied = j.applied := by
  rw [Journal.note, h]
  cases applies <;> exact List.append_nil _

theorem Journal.applied_note_of_not (j : Journal) (x : Step) :
    (j.note x false).applied = j.applied :=
  List.append_nil _

namespace Follows

variable {j : Journal} {box : SearchBox}

theorem start : Follows {} {} where
  input_eq := rfl
  query_eq := rfl
  waiting_lt := nofun
  applied_lt := List.forall_mem_nil _

/-- The texts of the journal after a step are those before it, and that of the new input. -/
theorem advance_eq (h : Follows j box) (x : Step) (applies : Bool) :
    box.advance x = ((j.advance x).1.map (j.note x applies).text,
      (j.advance x).2.map (j.note x applies).text) := by
  refine advance_eq_map ?_ fun raw hraw => j.text_note_length hraw applies
  rw [h.input_eq]
  exact DelayedCall.map_congr fun n hn => (Journal.text_note (h.waiting_lt n hn) x applies).symm

/-- **One step** keeps the box and the journal together. -/
theorem note (h : Follows j box) (x : Step) : Follows (j.note x (box.applies x))
    (box.perform x).1 := by
  have hadvance := h.advance_eq x (box.applies x)
  obtain ⟨hwaiting_lt, hsubject_lt⟩ := Journal.advance_lt h.waiting_lt x
  obtain ⟨hinput, -, hcases⟩ := box.perform_cases x
  have hkept : ∀ n ∈ j.applied, n < (j.inputs ++ x.input?.toList).length := fun n hn =>
    Nat.lt_of_lt_of_le (h.applied_lt n hn) (by rw [List.length_append]; exact Nat.le_add_right _ _)
  rw [hadvance] at hinput hcases
  rcases hcases with ⟨raw, hraw, -, happlies, hquery⟩ | ⟨-, happlies, hquery⟩
  · obtain ⟨n, hn, rfl⟩ := Option.map_eq_some_iff.mp hraw
    have happlied : (j.note x (box.applies x)).applied = j.applied ++ [n] := by
      rw [happlies, Journal.applied_note_of_applies hn]
    refine ⟨hinput, ?_, hwaiting_lt, ?_⟩
    · rw [hquery, Journal.inForce, happlied, List.getLast?_concat]
    · rw [happlied]
      intro m hm
      rcases List.mem_append.mp hm with hm | hm
      · exact hkept m hm
      · exact hsubject_lt m (hn.trans (congrArg some (List.mem_singleton.mp hm).symm))
  · have happlied : (j.note x (box.applies x)).applied = j.applied := by
      rw [happlies, Journal.applied_note_of_not]
    refine ⟨hinput, ?_, hwaiting_lt, by rw [happlied]; exact hkept⟩
    rw [hquery, h.query_eq, Journal.inForce, Journal.inForce, happlied]
    cases hlast : j.applied.getLast? with
    | none => rfl
    | some n =>
      dsimp only
      rw [Journal.text_note (h.applied_lt n (List.mem_of_getLast? hlast))]

end Follows

/-- **The box follows the journal in every run.** -/
theorem follows_run (steps : List Step) : Follows (run steps).2 (run steps).1 := by
  -- A run grows at its end, so the induction takes steps off there.
  induction steps using List.reverseRecOn with
  | nil => exact Follows.start
  | append_singleton steps x ih =>
    rw [run_append]
    exact ih.note x

end SearchBox

end StationNaming
