import StationNaming.Command.Interactive
import StationNaming.Command.Listing
import StationNaming.Command.Rename
/-!
# Running the program

A run takes the words of the command line, the files and the text of the input, and comes to an
outcome on its host.

**What is exact.** A line of the input ends at a line feed, at a carriage return, or at both in this
order. The last line need not end.
-/

namespace StationNaming.Command

/-! ## Lines of input -/

/-- The lines of a text; `current` is the line that is being read, last character first. -/
def splitLines (current : List Char) : List Char → List String
  | [] => if current.isEmpty then [] else [String.ofList current.reverse]
  | '\r' :: '\n' :: cs => String.ofList current.reverse :: splitLines [] cs
  | c :: cs =>
    if c = '\n' ∨ c = '\r' then String.ofList current.reverse :: splitLines [] cs
    else splitLines (c :: current) cs

/-- **The lines of the input.** -/
def inputLines (text : String) : List String := splitLines [] text.toList

example : inputLines "y\r\nn\n\nx" = ["y", "n", "", "x"] := by decide +kernel

/-! ## Running -/

/-- **Granting a request.** -/
def grant (host : Host) (files : Files) (lines : List String) : Request → Outcome
  | .help => { files := files }
  | .list input search => list host files input search
  | .rename input output instructions inPlace isConfirmed =>
    rename host files input output instructions inPlace isConfirmed lines
  | .interactive input output inPlace => interactive host files input output inPlace lines

/-- **Running the program.** -/
def run (host : Host) (words : List String) (files : Files) (text : String) : Outcome :=
  match Request.read files words with
  | .error e => { ending := .refused e, files := files }
  | .ok request => grant host files (inputLines text) request

end StationNaming.Command
