import StationNaming.Text.Quoted
/-!
# Usage errors

What can be wrong with the way a command is called, before it looks into any file.
-/

namespace StationNaming

/-- **Why a call of a command is refused.** -/
inductive UsageError where
  | missingCommand
  | unknownCommand (name : String)
  | unknownSwitch (name : String) (suggestions : List String)
  | valueMissing (name : String)
  | valueUnwanted (name : String)
  | argumentMissing (name : String)
  | switchMissing (names : List String)
  | pathMissing (argument path : String)
  | unexpected (words : List String)
  | noTarget
  | twoTargets
  | notRenaming (instruction : String)
  deriving DecidableEq, Repr

namespace UsageError

/-- The end of a message about an unknown switch. -/
def hint : List String → String
  | [] => ""
  | [name] => " Did you mean " ++ name ++ "?"
  | names => " (Possible options: " ++ ", ".intercalate names ++ ")"

/-- **The wording of a usage error.** -/
def message : UsageError → String
  | .missingCommand => "Missing command."
  | .unknownCommand name => "No such command " ++ Text.quoted name ++ "."
  | .unknownSwitch name suggestions => "No such option: " ++ name ++ hint suggestions
  | .valueMissing name => "Option " ++ Text.quoted name ++ " requires an argument."
  | .valueUnwanted name => "Option " ++ Text.quoted name ++ " does not take a value."
  | .argumentMissing name => "Missing argument '" ++ name ++ "'."
  | .switchMissing names =>
    "Missing option " ++ " / ".intercalate (names.map ("'" ++ · ++ "'")) ++ "."
  | .pathMissing argument path =>
    "Invalid value for '" ++ argument ++ "': Path " ++ Text.quoted path ++ " does not exist."
  | .unexpected [word] => "Got unexpected extra argument (" ++ word ++ ")"
  | .unexpected words => "Got unexpected extra arguments (" ++ " ".intercalate words ++ ")"
  | .noTarget => "Either OUTPUT_FILE must be provided or --inplace must be set."
  | .twoTargets => "Cannot specify both OUTPUT_FILE and --inplace."
  | .notRenaming instruction =>
    "Invalid value for '-r' / '--rename': Expected OLD=NEW, got '" ++ instruction ++ "'."

end UsageError

end StationNaming
