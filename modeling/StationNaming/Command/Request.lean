import StationNaming.Command.Switch
import StationNaming.Files
import StationNaming.Renaming
/-!
# Requests

A call of the program asks for one of three commands, or for help.

**What is exact.** The command line is read as a whole before anything in it is judged, and a
request for help is granted next. Then the input file must be there, then the switches that are
required, and words that are left over come last.
-/

namespace StationNaming

/-- **What the program is asked to do.** -/
inductive Request where
  | help
  | list (input search : String)
  | rename (input : String) (output : Option String) (instructions : List String)
    (inPlace isConfirmed : Bool)
  | interactive (input : String) (output : Option String) (inPlace : Bool)
  deriving DecidableEq, Repr

namespace Request

/-! ## Switches -/

/-- Asks for help. -/
def helpSwitch : Switch := { long := "--help" }

/-- The text to search for. -/
def searchSwitch : Switch := { letter := some 's', long := "--search", takesValue := true }

/-- One renaming; it may be given again. -/
def renameSwitch : Switch := { letter := some 'r', long := "--rename", takesValue := true }

/-- Saves over the input file. -/
def inPlaceSwitch : Switch := { long := "--inplace" }

/-- Answers the question for confirmation. -/
def yesSwitch : Switch := { letter := some 'y', long := "--yes" }

/-! ## Arguments -/

/-- The input file and the words after it. -/
def inputOf (fs : Files) (arguments : List String) : Except UsageError (String × List String) :=
  match arguments with
  | [] => .error (.argumentMissing "INPUT_FILE")
  | path :: rest =>
    if fs.hasPath path then .ok (path, rest) else .error (.pathMissing "INPUT_FILE" path)

/-- No words may be left. -/
def noMore (rest : List String) : Except UsageError Unit :=
  if rest.isEmpty then .ok () else .error (.unexpected rest)

/-! ## The commands -/

/-- A call of the command that lists IEDs. -/
def readList (fs : Files) (words : List String) : Except UsageError Request := do
  let line ← CommandLine.read [searchSwitch, helpSwitch] true words
  if line.has helpSwitch then return help
  let (input, rest) ← inputOf fs line.arguments
  noMore rest
  return list input ((line.values searchSwitch).getLast?.getD "")

/-- A call of the command that renames IEDs. -/
def readRename (fs : Files) (words : List String) : Except UsageError Request := do
  let line ← CommandLine.read [renameSwitch, inPlaceSwitch, yesSwitch, helpSwitch] true words
  if line.has helpSwitch then return help
  let (input, rest) ← inputOf fs line.arguments
  if !line.has renameSwitch then throw (.switchMissing renameSwitch.names)
  noMore rest.tail
  return rename input rest.head? (line.values renameSwitch) (line.has inPlaceSwitch)
    (line.has yesSwitch)

/-- A call of the interactive command. -/
def readInteractive (fs : Files) (words : List String) : Except UsageError Request := do
  let line ← CommandLine.read [inPlaceSwitch, helpSwitch] true words
  if line.has helpSwitch then return help
  let (input, rest) ← inputOf fs line.arguments
  noMore rest.tail
  return interactive input rest.head? (line.has inPlaceSwitch)

/-- **Reading a call of the program.** A name that looks like a switch is judged as one. -/
def read (fs : Files) (words : List String) : Except UsageError Request := do
  let line ← CommandLine.read [helpSwitch] false words
  if line.has helpSwitch then return help
  match line.arguments with
  | [] => throw .missingCommand
  | name :: rest =>
    match name with
    | "list" => readList fs rest
    | "rename" => readRename fs rest
    | "interactive" => readInteractive fs rest
    | _ =>
      -- Behind the end of the switches a name may still begin with a dash.
      if name.toList.head? = some '-' then
        if (← CommandLine.read [helpSwitch] false line.arguments).has helpSwitch then return help
      throw (.unknownCommand name)

/-! ## Renamings and targets -/

/-- **Reading a renaming**: the old name stands before the first equals sign and is not empty. -/
def readRenaming (instruction : String) : Except UsageError Renaming :=
  match CommandLine.splitValue instruction with
  | (old, some new) => if old = "" then .error (.notRenaming instruction) else .ok ⟨old, new⟩
  | (_, none) => .error (.notRenaming instruction)

/-- **The file to save to**; none is the input file itself. -/
def target (output : Option String) (inPlace : Bool) : Except UsageError (Option String) :=
  match output, inPlace with
  | none, false => .error .noTarget
  | some _, true => .error .twoTargets
  | output, _ => .ok output

end Request

end StationNaming
