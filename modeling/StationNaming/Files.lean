import StationNaming.Files.Path
import StationNaming.Keyed
import StationNaming.Text.Quoted
import StationNaming.Unicode.CodeOrder
/-!
# Files

The files a command works on: contents and permissions by path, under one working directory.

**What is exact.** Writing keeps the permissions of a file that is there and gives a new one the
usual ones; it never makes a directory. Each failure names the path as it was asked for. Permissions
are kept and copied but never asked: a run is one of a user whom none of them stops.
-/

namespace StationNaming

/-- **A file**: its bytes and its permission bits. -/
structure File where
  content : List UInt8
  mode : Nat
  deriving DecidableEq, Repr

/-- **The files under the working directory**, by plain path, and the directories that are there
besides those that hold one of the files. -/
structure Files where
  files : List (String × File) := []
  directories : List String := []
  deriving DecidableEq, Repr

/-- **Why a file cannot be read or written**; the last reason is that the document to be written is
nested too deep. -/
inductive FileError where
  | missing (path : String)
  | notDirectory (path : String)
  | isDirectory (path : String)
  | nullCharacter
  | tooDeep
  deriving DecidableEq, Repr

/-- The wording of a failure. -/
def FileError.message : FileError → String
  | .missing path => "[Errno 2] No such file or directory: " ++ Text.quoted path
  | .notDirectory path => "[Errno 20] Not a directory: " ++ Text.quoted path
  | .isDirectory path => "[Errno 21] Is a directory: " ++ Text.quoted path
  | .nullCharacter => "embedded null byte"
  | .tooDeep => "maximum recursion depth exceeded"

namespace Files

/-- The permission bits of a new file. -/
def newMode : Nat := 0o644

/-- The file at a plain path. -/
def find? (fs : Files) (plain : String) : Option File := fs.files.lookup plain

/-- **Putting a file** at a plain path. -/
def put (fs : Files) (plain : String) (file : File) : Files :=
  { fs with files := Keyed.set plain file fs.files }

/-- **What a file is after another one was put**: itself, or what was put in its place. -/
theorem find?_put (fs : Files) (plain other : String) (file : File) :
    (fs.put plain file).find? other = if other = plain then some file else fs.find? other :=
  Keyed.lookup_set plain other file fs.files

/-! ## Places -/

/-- **Where a path leads.** -/
inductive Place where
  | file (plain : String)
  | directory
  | free (plain : String)
  | unmade
  | blocked
  | nowhere
  | unreadable
  deriving DecidableEq, Repr

/-- Whether a plain path is a directory. -/
def isDirectory (fs : Files) (plain : String) : Bool :=
  (names plain).all (· == "..") || fs.directories.contains plain ||
    fs.files.any fun f => (plain ++ "/").toList.isPrefixOf f.1.toList

/-- The plain paths of the directories above a path, outermost first. -/
def ancestors (path : String) : List String :=
  (List.range (names path).length).map fun count =>
    let plain := anchor path ++ "/".intercalate ((names path).take count)
    if plain = "" then "." else plain

/-- **Finding the place** a path leads to. -/
def locate (fs : Files) (path : String) : Place :=
  let plain := plainPath path
  if path.toList.contains '\x00' then .unreadable
  else if path = "" then .nowhere
  else if fs.isDirectory plain then .directory
  else if (fs.find? plain).isSome then
    if endsAsDirectory path then .blocked else .file plain
  else if (ancestors path).any fun above => (fs.find? above).isSome then .blocked
  else if !((ancestors path).getLast?.any fs.isDirectory) then .nowhere
  -- A slash at the end asks for a directory, which writing would have to make first.
  else if path.toList.getLast? == some '/' then .unmade
  else if endsAsDirectory path then .nowhere
  else .free plain

/-- Whether something is at the end of a path. -/
def hasPath (fs : Files) (path : String) : Bool :=
  match fs.locate path with
  | .file _ | .directory => true
  | _ => false

/-! ## Reading and writing -/

/-- **Reading a file**; failures name the plain path. -/
def read (fs : Files) (path : String) : Except FileError (List UInt8) :=
  match fs.locate path with
  | .file plain => ((fs.find? plain).map fun f => .ok f.content).getD (.error (.missing plain))
  | .directory => .error (.isDirectory (plainPath path))
  | .blocked => .error (.notDirectory (plainPath path))
  | .unreadable => .error .nullCharacter
  | .free _ | .unmade | .nowhere => .error (.missing (plainPath path))

/-- New content for the file at a plain path, with its permissions kept. -/
def update (fs : Files) (plain : String) (content : List UInt8) : Files :=
  fs.put plain ⟨content, ((fs.find? plain).map (·.mode)).getD newMode⟩

/-- **Writing a file**, new or not. -/
def write (fs : Files) (path : String) (content : List UInt8) : Except FileError Files :=
  match fs.locate path with
  | .file plain | .free plain => .ok (fs.update plain content)
  | .directory | .unmade => .error (.isDirectory path)
  | .blocked => .error (.notDirectory path)
  | .nowhere => .error (.missing path)
  | .unreadable => .error .nullCharacter

/-- **The file that is there** at a path, by its plain path. -/
def fileAt (fs : Files) (path : String) : Except FileError String :=
  match fs.locate path with
  | .file plain => .ok plain
  | .directory => .error (.isDirectory path)
  | .blocked => .error (.notDirectory path)
  | .free _ | .unmade | .nowhere => .error (.missing path)
  | .unreadable => .error .nullCharacter

/-- The plain paths of all files in their order. -/
def sortedNames (fs : Files) : List String :=
  (fs.files.map (·.1)).mergeSort fun a b => Unicode.codeLe (Unicode.codes a) (Unicode.codes b)

end Files

end StationNaming
