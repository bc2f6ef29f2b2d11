import StationNaming.Command.Outcome
import StationNaming.Command.Request
import StationNaming.Unicode.Blank
/-!
# Renaming

The command that takes all its renamings from the command line.

**What is exact.** All proposals are made before any of them is judged for good, so names can be
swapped. The question for confirmation is asked again until the answer is yes or no; an empty
answer is no, and the end of the input aborts the run.
-/

namespace StationNaming.Command

/-! ## Confirmation -/

/-- An answer to a question; it is unclear if it is none of the words that are known. -/
inductive Reply where
  | yes
  | no
  | unclear
  deriving DecidableEq, Repr

/-- **Reading an answer**, in any case and with blanks around it. -/
def Reply.read (line : String) : Reply :=
  let word := (Unicode.trimString line).map Char.toLower
  if word = "y" ∨ word = "yes" then .yes
  else if word = "n" ∨ word = "no" ∨ word = "" then .no
  else .unclear

/-- **Asking for confirmation**: what is written, and the answer unless the input ends. -/
def confirm (question : String) : List String → String × Option Bool
  | [] => (question, none)
  | line :: lines =>
    let written := question ++ line ++ "\n"
    match Reply.read line with
    | .yes => (written, some true)
    | .no => (written, some false)
    | .unclear =>
      let (more, answer) := confirm question lines
      (written ++ "Error: invalid input\n" ++ more, answer)

/-- The question that is asked. -/
def question (count : Nat) : String := "Rename " ++ toString count ++ " IED(s)? [y/N]: "

/-! ## The command -/

/-- Making all proposals, one after another. -/
def proposeAll (session : Session) (renamings : List Renaming) : Except EditError Session :=
  renamings.foldlM (fun s r => (s.edit r.old r.new).map (·.1)) session

/-- The views of the items that are pending or not valid. -/
def affected (session : Session) : List View :=
  (session.views none).filter fun v => session.pending.contains v.identity || !v.isValid

/-- What is shown of the proposals before anything is done. -/
def proposed (session : Session) : List Shown :=
  [.line (Shown.styled "bold" "Proposed renames:"),
    .table (Display.proposals (affected session) none),
    .line ""]

/-- **Carrying out the proposals** of a session: it is committed, refused, or left at that. -/
def settle (f : OpenFile) (input : String) (output : Option String) (isConfirmed : Bool)
    (lines : List String) : Outcome :=
  let files := f.desk.files
  if !f.session.isCommittable then
    if f.session.pending.isEmpty then
      { console := [Display.notice "No IED names changed. Nothing to rename."], files := files }
    else
      { ending := .reported, files := files,
        console := ((affected f.session).filter (!·.isValid)).map Display.refused }
  else if isConfirmed then f.commit input output
  else
    match confirm (question f.session.pending.length) lines with
    | (written, none) => { ending := .aborted, prompts := written, files := files }
    | (written, some true) => (f.commit input output).afterPrompts written
    | (written, some false) =>
      { console := [Display.notice "Aborted. No IEDs were renamed."], prompts := written,
        files := files }

/-- **Renaming IEDs of a file.** -/
def rename (host : Host) (files : Files) (input : String) (output : Option String)
    (instructions : List String) (inPlace isConfirmed : Bool) (lines : List String) : Outcome :=
  match Request.target output inPlace, instructions.mapM Request.readRenaming with
  | .error e, _ | .ok _, .error e => { ending := .refused e, files := files }
  | .ok output, .ok renamings =>
    match OpenFile.ofPath host files input with
    | .error o => o
    | .ok f =>
      match proposeAll f.session renamings with
      | .error e => { ending := .reported, console := [.error e.message], files := files }
      | .ok session =>
        (settle { f with session := session } input output isConfirmed lines).after
          (proposed session)

end StationNaming.Command
