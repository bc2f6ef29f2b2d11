import StationNaming.Console
import StationNaming.SearchBox
import StationNaming.Station
/-!
# Display

What the commands show of views, of renamings and of the state of a session.

**What is exact.** Every text that comes from a file or from the operator is escaped. A table of
proposals names its filter if the query has terms; items that the query hides have no row.
-/

namespace StationNaming.Display

open Shown (styled)
open Text (escapeMarkup)

/-! ## Tables -/

/-- **The table of IEDs**, with a row for each visible view. -/
def listing (views : List View) : Table where
  columns := ["Name", "IED", "Details"]
  rows := (views.filter (·.visible)).map fun v =>
    [escapeMarkup v.identity, escapeMarkup v.firstLine, escapeMarkup v.secondLine]

/-- The status of a proposal. -/
def status (v : View) : String :=
  if !v.isValid then styled "red" v.verdict.message
  else if v.isChanged then styled "green" "changed"
  else ""

/-- The row of a proposal. -/
def proposal (v : View) : List String :=
  [escapeMarkup v.identity, styled (if v.isChanged then "green" else "white")
    (escapeMarkup v.current), escapeMarkup v.firstLine, escapeMarkup v.secondLine, status v]

/-- What a table says about the query it was filtered by. -/
def caption (query : Option Search.Query) : Option String :=
  match query with
  | none => none
  | some q => if q.matchesAll then none else some ("Filter: " ++ escapeMarkup q.raw)

/-- **The table of proposals**, with a row for each visible view. -/
def proposals (views : List View) (query : Option Search.Query) : Table where
  columns := ["Original", "New Name", "IED", "Details", "Status"]
  rows := (views.filter (·.visible)).map proposal
  caption := caption query

/-! ## Lines -/

/-- A number in the accent style. -/
def accented (n : Nat) : String := styled "cyan" (toString n)

/-- How many IEDs a file has. -/
def found (count : Nat) (path : String) : Shown :=
  .line ("Found " ++ styled "bold cyan" (toString count) ++ " IED(s) in " ++
    styled "bold cyan" (escapeMarkup path) ++ ".")

/-- How many IEDs a query shows. -/
def matching (count : Nat) (raw : String) : Shown :=
  .line (accented count ++ " match " ++ styled "italic" (escapeMarkup raw) ++ ".")

/-- Why a proposal cannot be committed. -/
def refused (v : View) : Shown :=
  .line (styled "bold red" "Error:" ++ " " ++ styled "cyan" (escapeMarkup v.identity) ++ " -> '" ++
    escapeMarkup v.current ++ "': " ++ v.verdict.message)

/-- **What was written** by applying renamings. -/
def renamed (r : Station.Renamed) : Shown :=
  .line (styled "cyan" ("Renamed " ++ toString r.ieds ++ " IED(s) and updated " ++
    toString r.references ++ " reference(s)."))

/-- **The message of success.** -/
def saved (count : Nat) (path : String) : Shown :=
  .line (styled "bold green" ("Successfully renamed " ++ toString count ++ " IED(s).") ++
    " Saved to " ++ styled "bold cyan" (escapeMarkup path) ++ ".")

/-- How many renames are pending, and whether they can be committed. -/
def pending (count : Nat) (isReady : Bool) : Shown :=
  .line ("Pending renames: " ++ accented count ++ " (" ++
    (if isReady then styled "green" "ready" else styled "yellow" "not ready") ++ ")")

/-- A notice that nothing was done. -/
def notice (wording : String) : Shown := .line (styled "yellow" wording)

/-- The commands of an interactive session. -/
def help : Shown := .line <| "\n".intercalate [
  "Commands:",
  "  OLD=NEW         propose a new name for IED OLD",
  "  /search TEXT    filter the list (quote terms to include spaces, * and ? glob)",
  "  /clear          clear the search filter",
  "  /show           show the list again",
  "  /commit         apply the pending renames and save",
  "  /quit           discard all edits and exit"]

end StationNaming.Display
