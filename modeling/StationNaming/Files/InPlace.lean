import StationNaming.Files
/-!
# Saving in place

A file is saved in place by way of a temporary file beside it: the new content is written there, the
permissions of the old file are copied to it, and it is moved over the old file.

**What is exact.** The temporary file has a name that no file has, with the ending of the old one,
and until the permissions are copied only its owner may use it. A step that fails ends the saving,
and the temporary file is removed; so it is if the writing stops before all is written. Saving to
another file has no temporary one, and what was written of it stays.
-/

namespace StationNaming.Files

/-- **Steps on files**: they may fail, and the files are then what they were made into so far. -/
abbrev Steps := EStateM FileError Files

/-! ## Names of temporary files -/

/-- A plain path up to its last slash. -/
def folder (plain : String) : String :=
  String.ofList (plain.toList.reverse.dropWhile (· != '/')).reverse

/-- The last name of a plain path. -/
def lastName (plain : String) : String :=
  String.ofList (plain.toList.reverse.takeWhile (· != '/')).reverse

/-- The ending of a name, from its last dot on; a dot at either end of the name starts none. -/
def ending (name : String) : String :=
  let behind := name.toList.reverse.takeWhile (· != '.')
  if behind.isEmpty || name.length ≤ behind.length + 1 then ""
  else String.ofList ('.' :: behind.reverse)

/-- The paths that a temporary file must not have: those of the files, and those that a path leads
along. -/
def avoided (fs : Files) (path : String) : List String :=
  fs.files.map (·.1) ++ ancestors path ++ [plainPath path]

/-- **The plain path of a temporary file** beside a path; it is longer than the ones to avoid. -/
def temporaryPath (fs : Files) (path : String) : String :=
  let width := (String.join (fs.avoided path)).length
  let plain := plainPath path
  folder plain ++ "tmp" ++ String.ofList (List.replicate width '_') ++ ending (lastName plain)

/-! ## Steps -/

/-- The permission bits of a temporary file. -/
def temporaryMode : Nat := 0o600

/-- **Creating a temporary file** beside a path, wherever a file could be made there. -/
def createBeside (path : String) : Steps String := do
  let fs ← get
  match fs.locate path with
  | .file _ | .free _ | .unmade | .directory =>
    let temporary := fs.temporaryPath path
    set (fs.put temporary ⟨[], temporaryMode⟩)
    return temporary
  | .nowhere => throw (.missing path)
  | .blocked => throw (.notDirectory path)
  | .unreadable => throw .nullCharacter

/-- Failing if what was written is only a part of what was to be written. -/
def finish (isWhole : Bool) : Steps Unit :=
  if isWhole then return () else throw .tooDeep

/-- Writing the content of the file at a plain path; it may be a part of what was to be written. -/
def fill (plain : String) (content : List UInt8) (isWhole : Bool) : Steps Unit := do
  modify (·.update plain content)
  finish isWhole

/-- **Writing over what is at a path**, or a new file there. Nothing undoes what was written, if it
is only a part of what was to be written. -/
def writeOver (path : String) (content : List UInt8) (isWhole : Bool) : Steps Unit := do
  match (← get).write path content with
  | .ok fs =>
    set fs
    finish isWhole
  | .error e => throw e

/-- Finding the file that is there at a path. -/
def seek (path : String) : Steps String := do
  match (← get).fileAt path with
  | .ok plain => return plain
  | .error e => throw e

/-- **Copying the permissions** of the file at a path to the one at a plain path. -/
def copyMode (path plain : String) : Steps Unit := do
  let source ← seek path
  modify fun fs =>
    fs.put plain ⟨((fs.find? plain).map (·.content)).getD [],
      ((fs.find? source).map (·.mode)).getD newMode⟩

/-- Removing the file at a plain path, if it is there. -/
def remove (plain : String) : Steps Unit :=
  modify fun fs => { fs with files := fs.files.filter (·.1 != plain) }

/-- **Moving the file at a plain path** over the one at a path. -/
def moveOver (plain path : String) : Steps Unit := do
  let target ← seek path
  if let some file := (← get).find? plain then
    modify (·.put target file)
    remove plain

/-- A temporary file gets a content and the permissions of the file at a path, and takes its
place. -/
def takePlace (temporary path : String) (content : List UInt8) (isWhole : Bool) : Steps Unit := do
  fill temporary content isWhole
  copyMode path temporary
  moveOver temporary path

/-- **Saving in place** what is to be the content of the file at a path, or a part of it. -/
def saveInPlace (path : String) (content : List UInt8) (isWhole : Bool) : Steps Unit := do
  let temporary ← createBeside path
  try
    takePlace temporary path content isWhole
  catch e =>
    remove temporary
    throw e

example : ending "station.scd" = ".scd" := by decide +kernel
example : ending ".scd" = "" := by decide +kernel

end StationNaming.Files
