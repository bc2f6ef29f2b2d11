import StationNaming.Proofs.Command.Effects
import StationNaming.Proofs.Command.Instructions
import StationNaming.Proofs.Command.Words
/-!
# The two commands that rename

One command takes its edits from the command line and judges them when all are made. The other takes
them line by line and is told to commit at the end.

**What is exact.** Given the same edits on the same host, both leave the same files, and show the
message of success in the same cases.
-/

namespace StationNaming

/-! ## Outcomes with the same effect -/

/-- **Two outcomes with the same effect on the files**: both have written the same, or none has
written anything. -/
structure Outcome.SameEffect (files : Files) (o o' : Outcome) : Prop where
  files_eq : o.files = o'.files
  succeeded_iff : o.Succeeded ↔ o'.Succeeded
  kept : ¬ o.Succeeded → o.files = files ∨ o.ending = .failed (.file .tooDeep)

namespace Outcome

variable {host : Host} {files : Files} {o o' : Outcome}

/-- More shown before an outcome is no success, if it is no message of success. -/
theorem succeeded_after {shown : List Shown}
    (unsaved : ∀ entry ∈ shown, Display.isSaved entry = false) :
    (o.after shown).Succeeded ↔ o.Succeeded := by
  constructor
  · rintro ⟨count, path, hmem⟩
    rcases List.mem_append.mp hmem with hshown | hconsole
    · exact absurd (unsaved _ hshown) (by simp [Display.isSaved_saved])
    · exact ⟨count, path, hconsole⟩
  · rintro ⟨count, path, hconsole⟩
    exact ⟨count, path, List.mem_append_right _ hconsole⟩

namespace SameEffect

theorem of_kept (h : o.Effect host files fun _ _ _ => False)
    (h' : o'.Effect host files fun _ _ _ => False) : SameEffect files o o' where
  files_eq := h.unchanged.2.trans h'.unchanged.2.symm
  succeeded_iff := iff_of_false h.unchanged.1 h'.unchanged.1
  kept _ := .inl h.unchanged.2

theorem of_effect {asked : String → Option String → List Edit → Prop}
    (h : o.Effect host files asked) : SameEffect files o o :=
  ⟨rfl, Iff.rfl, fun hnot => (h.files_of_not_succeeded hnot).imp_right And.left⟩

theorem trans {o'' : Outcome} (h : SameEffect files o o') (h' : SameEffect files o' o'') :
    SameEffect files o o'' :=
  ⟨h.files_eq.trans h'.files_eq, h.succeeded_iff.trans h'.succeeded_iff, h.kept⟩

theorem after_left (h : SameEffect files o o') {shown : List Shown}
    (unsaved : ∀ entry ∈ shown, Display.isSaved entry = false) :
    SameEffect files (o.after shown) o' where
  files_eq := h.files_eq
  succeeded_iff := (succeeded_after unsaved).trans h.succeeded_iff
  kept hnot := h.kept fun hsucceeded => hnot ((succeeded_after unsaved).mpr hsucceeded)

theorem after_right (h : SameEffect files o o') {shown : List Shown}
    (unsaved : ∀ entry ∈ shown, Display.isSaved entry = false) :
    SameEffect files o (o'.after shown) where
  files_eq := h.files_eq
  succeeded_iff := h.succeeded_iff.trans (succeeded_after unsaved).symm
  kept := h.kept

theorem afterPrompts_right (h : SameEffect files o o') (prompts : String) :
    SameEffect files o (o'.afterPrompts prompts) :=
  ⟨h.files_eq, h.succeeded_iff, h.kept⟩

end SameEffect

end Outcome

namespace Command

variable {host : Host} {files : Files} {input : String} {f : OpenFile} {edits before : List Edit}

open Outcome (SameEffect)

/-! ## Following instructions -/

/-- A line that proposes a name is obeyed, and the lines after it are followed. -/
theorem follow_propose {line old new : String} (hread : Order.read line = .propose old new)
    (f : OpenFile) (input : String) (output : Option String) (w : Worklist) (lines : List String) :
    follow f input output w (line :: lines) =
      ((follow f input output (w.propose old new).1 lines).after (w.propose old new).2).afterPrompts
        (prompt ++ line ++ "\n") := by
  have hstays : ¬ (Order.propose old new = .commit ∧ w.session.isCommittable = true) :=
    fun h => nomatch h.1
  simp only [follow, hread, if_neg hstays, Worklist.obey]

/-- What an accepted proposal leaves. -/
theorem propose_of_edit_ok {w : Worklist} {old new : String} {session : Session}
    {found : EditResult} (h : w.session.edit old new = .ok (session, found)) :
    (w.propose old new).1 = { w with session := session } := by
  simp only [Worklist.propose, h]

/-- **Instructions that are followed line by line** make the edits that are made when they are given
together: what has the effect of following the lines after them has the effect of following them
all. -/
theorem sameEffect_follow_instructions {w : Worklist} {session : Session}
    (h : { f with session := w.session }.Edited host files input before)
    (typable : ∀ e ∈ edits, IsTypable e)
    (known : ∀ e ∈ edits, e.1 ∈ f.station.records.map (·.name))
    (accepted : proposeAll w.session (edits.map renamingOf) = .ok session) {output : Option String}
    {lines : List String} {o : Outcome}
    (hsame : SameEffect files o (follow f input output { w with session := session } lines)) :
    SameEffect files o (follow f input output w (edits.map instruction ++ lines)) := by
  induction edits generalizing w before with
  | nil =>
    cases accepted
    exact hsame
  | cons e edits ih =>
    obtain ⟨htypable, typable⟩ := List.forall_mem_cons.mp typable
    obtain ⟨hknown, known⟩ := List.forall_mem_cons.mp known
    obtain ⟨next, found, hedit, hedited⟩ := h.exists_edit hknown
    rw [List.map_cons, proposeAll_cons (renamingOf e) hedit] at accepted
    have hrest := ih (w := { w with session := next }) hedited typable known accepted hsame
    have hshown := (edited_obey h (.propose e.1 e.2)).2
    rw [List.map_cons, List.cons_append, follow_propose htypable.read_instruction,
      propose_of_edit_ok hedit]
    exact (hrest.after_right hshown).afterPrompts_right _

/-- **Settling what was proposed has the effect of committing it**, as long as no confirmation is
asked for. -/
theorem sameEffect_settle {w : Worklist}
    (h : { f with session := w.session }.Edited host files input edits)
    (output : Option String) (lines : List String) :
    SameEffect files (settle { f with session := w.session } input output true lines)
      (follow f input output w ["/commit"]) := by
  have hread : Order.read "/commit" = .commit := by decide +kernel
  by_cases committable : w.session.isCommittable = true
  · simp only [settle, follow, hread, committable, and_self, if_true, Bool.not_true,
      Bool.false_eq_true, if_false]
    exact (SameEffect.of_effect (h.commit committable output)).afterPrompts_right _
  · have hsettle := @effect_settle_of_not_committable host files input
      { f with session := w.session } h.files_eq committable output true lines
    refine SameEffect.of_kept hsettle ?_
    simp only [follow, hread, committable, Bool.false_eq_true, and_false, if_false, Worklist.obey]
    exact .kept_of_single rfl (Display.isSaved_notice _) h.files_eq

/-! ## Both commands -/

theorem sameEffect_rename_interactive (typable : ∀ e ∈ edits, IsTypable e)
    (known : ∀ f, OpenFile.ofPath host files input = .ok f →
      ∀ e ∈ edits, e.1 ∈ f.session.items.map (·.identity))
    (output : Option String) (inPlace : Bool) (lines : List String) :
    SameEffect files (rename host files input output (edits.map instruction) inPlace true lines)
      (interactive host files input output inPlace (edits.map instruction ++ ["/commit"])) := by
  have hread := Request.mapM_readRenaming (fun e he => (typable e he).named)
    (fun e he => (typable e he).unequal)
  simp only [rename, interactive, hread]
  cases htarget : Request.target output inPlace with
  | error e =>
    exact @SameEffect.of_kept host _ _ _ (.kept_of_console_nil rfl rfl)
      (.kept_of_console_nil rfl rfl)
  | ok target =>
    dsimp only
    cases hopen : OpenFile.ofPath host files input with
    | error o => exact .of_effect (OpenFile.effect_of_ofPath hopen fun _ _ _ => True)
    | ok f =>
      have hopened := OpenFile.edited_of_ofPath hopen
      have hnames : ∀ e ∈ edits, e.1 ∈ f.station.records.map (·.name) := fun e he =>
        hopened.identities_session ▸ known f hopen e he
      obtain ⟨session, accepted, hedited⟩ := hopened.exists_proposeAll hnames
      dsimp only
      rw [accepted]
      have hsettle := sameEffect_settle (w := { session := session }) hedited target lines
      have hfollow := sameEffect_follow_instructions (w := { session := f.session }) hopened typable
        hnames accepted hsettle
      exact (hfollow.after_left (isSaved_proposed session)).after_right (by simp [Worklist.list])

/-- A rename command without an instruction would save nothing. -/
theorem effect_rename_nil (host : Host) (files : Files) (input : String) (output : Option String)
    (inPlace : Bool) (lines : List String) :
    (rename host files input output [] inPlace true lines).Effect host files
      fun _ _ _ => False := by
  rw [rename]
  cases htarget : Request.target output inPlace with
  | error e => exact .kept_of_console_nil rfl rfl
  | ok target =>
    simp only [List.mapM_nil, pure, Except.pure]
    cases hopen : OpenFile.ofPath host files input with
    | error o => exact OpenFile.effect_of_ofPath hopen _
    | ok f =>
      have hopened := OpenFile.edited_of_ofPath hopen
      have uncommittable : ¬ f.session.isCommittable = true := fun committable => by
        obtain ⟨r, -, hne⟩ := (hopened.isCommittable_iff.mp committable).1
        exact hne rfl
      refine Outcome.Effect.after ?_ (isSaved_proposed f.session)
      exact effect_settle_of_not_committable hopened.files_eq uncommittable target true lines

/-- **The two commands that rename agree.** Given the same edits of known IEDs, each in a line of
its own and with a line that commits after them, the interactive command leaves the same files as
the other one without confirmation: both have saved the same, or both have failed to write the
document to its end, or all files are as they were. -/
theorem sameEffect_run (host : Host) (typable : ∀ e ∈ edits, IsTypable e)
    (known : ∀ f, OpenFile.ofPath host files input = .ok f →
      ∀ e ∈ edits, e.1 ∈ f.session.items.map (·.identity)) :
    (∀ (output : Option String) (inPlace : Bool) (words words' : List String) (text text' : String),
      Request.read files words =
        .ok (.rename input output (edits.map instruction) inPlace true) →
      Request.read files words' = .ok (.interactive input output inPlace) →
      inputLines text' = edits.map instruction ++ ["/commit"] →
        SameEffect files (run host words files text) (run host words' files text')) ∧
    ∀ (output : Option String) (inPlace : Bool) (text : String),
      SameEffect files
        (run host (renameWords input output (edits.map instruction) inPlace) files text)
        (run host (interactiveWords input output inPlace) files
          (typed (edits.map instruction ++ ["/commit"]))) := by
  have hrun : ∀ (output : Option String) (inPlace : Bool) (words words' : List String)
      (text text' : String),
      Request.read files words =
        .ok (.rename input output (edits.map instruction) inPlace true) →
      Request.read files words' = .ok (.interactive input output inPlace) →
      inputLines text' = edits.map instruction ++ ["/commit"] →
        SameEffect files (run host words files text) (run host words' files text') := by
    intro output inPlace words words' text text' hwords hwords' htext
    rw [run, run, hwords, hwords']
    simp only [grant, htext]
    exact sameEffect_rename_interactive typable known output inPlace _
  refine ⟨hrun, fun output inPlace text => ?_⟩
  have hlines : inputLines (typed (edits.map instruction ++ ["/commit"])) =
      edits.map instruction ++ ["/commit"] := by
    refine inputLines_typed fun line hline => ?_
    rcases List.mem_append.mp hline with hline | hline
    · obtain ⟨e, he, rfl⟩ := List.mem_map.mp hline
      exact (typable e he).instruction_line
    · rw [List.mem_singleton.mp hline]
      simp [EndsLine]
  have hread := read_renameWords files input output (edits.map instruction) inPlace
  have hread' := read_interactiveWords files input output inPlace
  by_cases there : files.hasPath input = true
  · rw [if_pos there] at hread hread'
    by_cases hnil : edits.map instruction = []
    · -- The command line is refused, and there is nothing to commit.
      rw [if_pos hnil] at hread
      have hrefused : SameEffect files
          (run host (renameWords input output (edits.map instruction) inPlace) files text)
          (rename host files input output [] inPlace true []) := by
        rw [run, hread]
        exact .of_kept (.kept_of_console_nil rfl rfl)
          (effect_rename_nil host files input output inPlace [])
      have hinteractive : run host (interactiveWords input output inPlace) files
          (typed (edits.map instruction ++ ["/commit"])) =
            interactive host files input output inPlace (edits.map instruction ++ ["/commit"]) := by
        simp only [run, hread', grant, hlines]
      have hsame := sameEffect_rename_interactive typable known output inPlace []
      rw [hnil] at hsame
      rw [hinteractive, hnil]
      exact (hnil ▸ hrefused).trans hsame
    · rw [if_neg hnil] at hread
      exact hrun output inPlace _ _ text _ hread hread' hlines
  · -- Without an input file both command lines are refused.
    rw [if_neg there] at hread hread'
    rw [run, run, hread, hread']
    exact @SameEffect.of_kept host _ _ _ (.kept_of_console_nil rfl rfl)
      (.kept_of_console_nil rfl rfl)

/-- A folder with a station of two IEDs. -/
def pairFolder : Files where
  files := [("a.scd", ⟨"<SCL><IED name='A'/><IED name='B'/></SCL>".toUTF8.toList, 0o600⟩)]

/-- Edits that swap two names; on the way one name collides, and one may not stand. -/
def swapByDetour : List Edit := [("A", "B"), ("B", "1 2"), ("B", "A")]

theorem sameEffect_run_swap :
    (∀ e ∈ swapByDetour, IsTypable e) ∧
    (OpenFile.ofPath .usual pairFolder "a.scd").toOption.map
      (·.session.items.map (·.identity)) = some ["A", "B"] ∧
    SameEffect pairFolder
      (run .usual ["rename", "-r", "A=B", "-r", "B=1 2", "-r", "B=A", "-y", "--inplace", "--",
        "a.scd"] pairFolder "")
      (run .usual ["interactive", "--inplace", "--", "a.scd"] pairFolder
        "A=B\nB=1 2\nB=A\n/commit\n") ∧
    (run .usual ["interactive", "--inplace", "--", "a.scd"] pairFolder
      "A=B\nB=1 2\nB=A\n/commit\n").Succeeded := by
  have typable : ∀ e ∈ swapByDetour, IsTypable e := by decide +kernel
  have hopen : (OpenFile.ofPath .usual pairFolder "a.scd").toOption.map
      (·.session.items.map (·.identity)) = some ["A", "B"] := by decide +kernel
  have known : ∀ f, OpenFile.ofPath .usual pairFolder "a.scd" = .ok f →
      ∀ e ∈ swapByDetour, e.1 ∈ f.session.items.map (·.identity) := by
    intro f hf
    rw [hf] at hopen
    have hidentities : f.session.items.map (·.identity) = ["A", "B"] := Option.some.inj hopen
    rw [hidentities]
    decide
  have hlast : (run .usual ["interactive", "--inplace", "--", "a.scd"] pairFolder
      "A=B\nB=1 2\nB=A\n/commit\n").console.getLast? = some (Display.saved 2 "a.scd") := by
    decide +kernel
  exact ⟨typable, hopen, (sameEffect_run .usual typable known).2 none true "", 2, "a.scd",
    List.mem_of_getLast? hlast⟩

end Command

end StationNaming
