import StationNaming.Command.Display
import StationNaming.Command.UsageError
import StationNaming.Desk
/-!
# Outcomes

What a run of the program comes to: how it ends, what it shows, and the files it leaves.

**What is exact.** Files are written by saving alone, and the message of success is shown after it
and nowhere else. A fault of the input file or of a renaming is shown as an error; a file that
cannot be read or written, and an encoding that is not known or is none of text, end the run at
once.
-/

namespace StationNaming

/-- **How a run ends.** -/
inductive Ending where
  | finished
  | reported
  | aborted
  | refused (e : UsageError)
  | failed (e : DeskError)
  deriving DecidableEq, Repr

/-- The exit code of an ending. -/
def Ending.code : Ending → Nat
  | .finished => 0
  | .reported | .aborted | .failed _ => 1
  | .refused _ => 2

/-- **What a run comes to**: its ending, what is shown, the prompts with their answers, and the
files. -/
structure Outcome where
  ending : Ending := .finished
  console : List Shown := []
  prompts : String := ""
  files : Files
  deriving DecidableEq, Repr

namespace Outcome

/-- An outcome with more shown before it. -/
def after (shown : List Shown) (o : Outcome) : Outcome := { o with console := shown ++ o.console }

/-- An outcome with prompts before it. -/
def afterPrompts (prompts : String) (o : Outcome) : Outcome :=
  { o with prompts := prompts ++ o.prompts }

end Outcome

/-! ## Opening -/

/-- **A station file that is open for renaming.** -/
structure OpenFile where
  desk : Desk
  station : Station
  session : Session
  deriving Repr

namespace OpenFile

/-- Whether a failure to open a file is shown as an error. -/
def isShown : DeskError → Bool
  | .file _ | .opening (.encoding (.unknown _)) | .opening (.encoding (.notText _)) => false
  | .opening _ => true

/-- **Opening a file for renaming**, or the outcome of failing to. -/
def ofPath (host : Host) (files : Files) (input : String) : Except Outcome OpenFile :=
  match ({ host := host, files := files } : Desk).openStation input with
  | (_, .error e) =>
    .error (if isShown e then { ending := .reported, console := [.error e.message], files := files }
      else { ending := .failed e, files := files })
  | (desk, .ok station) =>
    match Session.load station.records with
    | .error e => .error { ending := .reported, console := [.error e.message], files := files }
    | .ok session => .ok ⟨desk, station, session⟩

/-- **Applying the renamings of the session** and saving the document. -/
def commit (f : OpenFile) (input : String) (output : Option String) : Outcome :=
  let renamings := f.session.commit
  match f.station.rename renamings with
  | .error name =>
    { ending := .reported, console := [.error (Station.notFound name)], files := f.desk.files }
  | .ok renamed =>
    match f.desk.saveOrKeep renamed.station input output with
    | (desk, .error e) =>
      { ending := .failed (.file e), console := [Display.renamed renamed], files := desk.files }
    | (desk, .ok path) =>
      { console := [Display.renamed renamed, Display.saved renamings.length path],
        files := desk.files }

end OpenFile

end StationNaming
