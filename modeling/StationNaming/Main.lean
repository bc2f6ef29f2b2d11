import StationNaming.Command.Run
/-!
# The program

The command line: the files that its words name are loaded, a run is worked out, and what it shows
and leaves is written. Lines of input are read as the run asks for them.
-/

namespace StationNaming

/-- How the program is called. -/
def usage : String := "\n".intercalate [
  "Usage:",
  "  list INPUT_FILE [-s TEXT]",
  "  rename INPUT_FILE [OUTPUT_FILE] -r OLD=NEW [-r OLD=NEW ...] [--inplace] [-y]",
  "  interactive INPUT_FILE [OUTPUT_FILE] [--inplace]"]

/-- What is at a path. -/
inductive Found where
  | file (content : List UInt8)
  | directory
  | nothing

/-- Looks for what is at a path. -/
def look (path : String) : IO Found :=
  try
    return .file (← IO.FS.readBinFile path).toList
  catch e =>
    match e with
    | .inappropriateType _ 21 _ => return .directory
    | _ => return .nothing

/-- The files and directories that the words of a command line may name. -/
def loadFiles (words : List String) : IO Files := do
  let mut files : Files := {}
  for word in words do
    for path in Files.ancestors word ++ [Files.plainPath word] do
      match ← look path with
      | .file content => files := files.put path ⟨content, Files.newMode⟩
      | .directory => files := { files with directories := path :: files.directories }
      | .nothing => pure ()
  return files

/-- Writes the files that a run has changed. -/
def writeChanges (before after : Files) : IO Unit := do
  for (path, file) in after.files do
    if before.find? path != some file then
      IO.FS.writeBinFile path (ByteArray.mk file.content.toArray)

/-- What is said at the end of a run besides what it showed. -/
def closing : Ending → Option String
  | .finished | .reported => none
  | .aborted => some "Aborted!"
  | .refused e => some ("Error: " ++ e.message)
  | .failed e => some ("Error: " ++ e.message)

/-- Runs the program on the input read so far, and reads on as long as it asks for more; `shown`
and `prompted` are how much of the console and of the prompts has been written. -/
partial def converse (words : List String) (files : Files) (text : String)
    (shown prompted : Nat) : IO UInt32 := do
  let outcome := Command.run .usual words files text
  for entry in outcome.console.drop shown do
    for line in entry.plainLines do IO.println line
  let prompt := String.ofList (outcome.prompts.toList.drop prompted)
  if outcome.ending = .aborted then
    IO.print prompt
    (← IO.getStdout).flush
    let line ← (← IO.getStdin).getLine
    if !line.isEmpty then
      let ended := if line.endsWith "\n" then line else line ++ "\n"
      return ← converse words files (text ++ ended) outcome.console.length
        (outcome.prompts.length + ended.length)
  writeChanges files outcome.files
  if let some last := closing outcome.ending then IO.eprintln last
  return UInt32.ofNat outcome.ending.code

end StationNaming

open StationNaming in
def main (words : List String) : IO UInt32 := do
  let files ← loadFiles words
  match Request.read files words with
  | .ok .help =>
    IO.println usage
    return 0
  | _ => converse words files "" 0 0
