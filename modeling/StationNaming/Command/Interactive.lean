import StationNaming.Command.Outcome
import StationNaming.Command.Request
import StationNaming.Unicode.Blank
/-!
# The interactive command

The operator proposes names line by line, looks at the list under a search, and commits or quits.

**What is exact.** Blanks around a line, a name and a search text do not count. A line is an order
in the first sense that fits: a word behind a slash, a search, and then a renaming, which stands on
both sides of the first equals sign. After every order but a failed one the list and its state are
shown. A commit that is not possible says so and changes nothing.
-/

namespace StationNaming.Command

/-! ## Orders -/

/-- **What a line of input asks for.** -/
inductive Order where
  | quit
  | commit
  | search (text : String)
  | clear
  | show
  | propose (old new : String)
  | help
  deriving DecidableEq, Repr

/-- The word that starts a search. -/
def searchWord : List Char := "/search".toList

/-- **Reading a line of input.** -/
def Order.read (line : String) : Order :=
  let order := Unicode.trimString line
  if order = "/quit" then .quit
  else if order = "/commit" then .commit
  else if searchWord.isPrefixOf order.toList then
    .search (Unicode.trimString (String.ofList (order.toList.drop searchWord.length)))
  else if order = "/clear" then .clear
  else if order = "/show" ∨ order = "" then .show
  else
    match CommandLine.splitValue order with
    | (old, some new) => .propose (Unicode.trimString old) (Unicode.trimString new)
    | (_, none) => .help

/-! ## The state of the list -/

/-- **What the operator works on**: the session, and the query the list is shown under. -/
structure Worklist where
  session : Session
  query : Search.Query := .matchAll
  deriving DecidableEq, Repr

namespace Worklist

/-- The list as it is shown. -/
def list (w : Worklist) : Shown :=
  .table (Display.proposals (w.session.views (some w.query)) (some w.query))

/-- The list and the state of the session below it. -/
def overview (w : Worklist) : List Shown :=
  [w.list, Display.pending w.session.pending.length w.session.isCommittable]

/-- **Proposing a name**: the list afterwards and what is shown. -/
def propose (w : Worklist) (old new : String) : Worklist × List Shown :=
  match w.session.edit old new with
  | .error e => (w, [.error e.message])
  | .ok (session, result) =>
    let w' := { w with session := session }
    (w', (if result.isValid then [] else [.line (Shown.styled "red" result.verdict.message)]) ++
      w'.overview)

/-- Putting the list under a query. -/
def filter (w : Worklist) (query : Search.Query) : Worklist × List Shown :=
  let w' := { w with query := query }
  (w', w'.overview)

/-- **Carrying out an order** that neither quits nor commits. -/
def obey (w : Worklist) : Order → Worklist × List Shown
  | .quit => (w, [])
  | .commit =>
    (w, [Display.notice "Nothing to commit: names must be changed and all valid."])
  | .search text => w.filter (Search.Query.compile text)
  | .clear => w.filter .matchAll
  | .show => (w, w.overview)
  | .propose old new => w.propose old new
  | .help => (w, [Display.help])

end Worklist

/-! ## The command -/

/-- The prompt for a line of input. -/
def prompt : String := "rename: "

/-- **Following the lines of input** until the operator quits, a commit succeeds, or the input
ends. -/
def follow (f : OpenFile) (input : String) (output : Option String) (w : Worklist) :
    List String → Outcome
  | [] => { ending := .aborted, prompts := prompt, files := f.desk.files }
  | line :: lines =>
    let written := prompt ++ line ++ "\n"
    match Order.read line with
    | .quit =>
      { console := [Display.notice "Closed. No IEDs were renamed."], prompts := written,
        files := f.desk.files }
    | order =>
      -- A commit that is not possible is an order like any other.
      if order = .commit ∧ w.session.isCommittable then
        ({ f with session := w.session }.commit input output).afterPrompts written
      else
        let (w', shown) := w.obey order
        ((follow f input output w' lines).after shown).afterPrompts written

/-- **Renaming IEDs interactively.** -/
def interactive (host : Host) (files : Files) (input : String) (output : Option String)
    (inPlace : Bool) (lines : List String) : Outcome :=
  match Request.target output inPlace with
  | .error e => { ending := .refused e, files := files }
  | .ok output =>
    match OpenFile.ofPath host files input with
    | .error o => o
    | .ok f =>
      let w : Worklist := { session := f.session }
      (follow f input output w lines).after [Display.help, w.list]

end StationNaming.Command
