import StationNaming.Command.UsageError
import StationNaming.Text.Similarity
/-!
# Switches

A command line is a list of words. Words that begin with a dash are switches, some of which take a
value; the others are arguments.

**What is exact.** Switches and arguments may stand in any order, unless reading stops at the first
argument. The word `--` ends the switches. A long switch is written in full, its value behind an
equals sign or as the next word; short switches may share one dash, and the rest of the word or the
next word is the value of the first that takes one. A value may begin with a dash.
-/

namespace StationNaming

/-- **A switch** that a command knows: its short letter if it has one, its long name, and whether it
takes a value. -/
structure Switch where
  letter : Option Char := none
  long : String
  takesValue : Bool := false
  deriving DecidableEq, Repr

/-- The names of a switch, the short one first. -/
def Switch.names (s : Switch) : List String :=
  s.letter.toList.map (fun c => String.ofList ['-', c]) ++ [s.long]

/-- A switch that was given, with its value; one without a value has an empty one. -/
structure Given where
  switch : Switch
  value : String := ""
  deriving DecidableEq, Repr

/-- **A command line that was read**: the switches in order, and the arguments in order. -/
structure CommandLine where
  given : List Given := []
  arguments : List String := []
  deriving DecidableEq, Repr

namespace CommandLine

/-! ## One word -/

/-- What a single word is. -/
inductive WordReading where
  | argument
  | stop
  | switches (given : List Given)
  | unfinished (given : List Given) (name : String) (switch : Switch)
  deriving DecidableEq, Repr

/-- The letters behind a single dash. -/
def readLetters (known : List Switch) (done : List Given) :
    List Char → Except UsageError WordReading
  | [] => .ok (.switches done)
  | c :: cs =>
    let name := String.ofList ['-', c]
    match known.find? (·.letter == some c) with
    | none => .error (.unknownSwitch name [])
    | some s =>
      if !s.takesValue then readLetters known (done ++ [⟨s, ""⟩]) cs
      else if cs.isEmpty then .ok (.unfinished done name s)
      else .ok (.switches (done ++ [⟨s, String.ofList cs⟩]))

/-- A word as a name and what stands behind its first equals sign. -/
def splitValue (word : String) : String × Option String :=
  match word.toList.span (· != '=') with
  | (_, []) => (word, none)
  | (name, _ :: value) => (String.ofList name, some (String.ofList value))

/-- **Reading a word.** -/
def readWord (known : List Switch) (word : String) : Except UsageError WordReading :=
  match word.toList with
  | ['-', '-'] => .ok .stop
  | '-' :: c :: cs =>
    let (name, value) := splitValue word
    match known.find? (·.long == name), value with
    | some s, some v =>
      if s.takesValue then .ok (.switches [⟨s, v⟩]) else .error (.valueUnwanted name)
    | some s, none =>
      if s.takesValue then .ok (.unfinished [] name s) else .ok (.switches [⟨s, ""⟩])
    | none, _ =>
      if c = '-' then .error (.unknownSwitch name (Text.suggestions (known.map (·.long)) name))
      else readLetters known [] (c :: cs)
  | _ => .ok .argument

/-! ## All words -/

/-- More switches in front. -/
def withGiven (given : List Given) (line : CommandLine) : CommandLine :=
  { line with given := given ++ line.given }

/-- One more argument in front. -/
def withArgument (word : String) (line : CommandLine) : CommandLine :=
  { line with arguments := word :: line.arguments }

/-- **Reading a command line** with the switches that are known; `mixed` says whether switches may
follow an argument. -/
def read (known : List Switch) (mixed : Bool) : List String → Except UsageError CommandLine
  | [] => .ok {}
  | word :: words =>
    match readWord known word with
    | .error e => .error e
    | .ok .stop => .ok { arguments := words }
    | .ok .argument =>
      if mixed then (read known mixed words).map (withArgument word)
      else .ok { arguments := word :: words }
    | .ok (.switches given) => (read known mixed words).map (withGiven given)
    | .ok (.unfinished given name s) =>
      match words with
      | [] => .error (.valueMissing name)
      | value :: rest => (read known mixed rest).map (withGiven (given ++ [⟨s, value⟩]))

/-- Whether a switch was given. -/
def has (line : CommandLine) (s : Switch) : Bool := line.given.any (·.switch == s)

/-- The values a switch was given, in order. -/
def values (line : CommandLine) (s : Switch) : List String :=
  (line.given.filter (·.switch == s)).map (·.value)

end CommandLine

end StationNaming
