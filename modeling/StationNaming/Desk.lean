import StationNaming.Files.InPlace
import StationNaming.Host
import StationNaming.Station.Opening
/-!
# The desk

A desk is what all documents share while a command runs: the host, the files and the registered
prefixes.

**What is exact.** Saving in place of the input file goes by way of a temporary file and keeps the
permissions; saving to another file writes over what was there. A document is written under the
prefixes that are registered when it is saved, not when it was opened. If it is nested deeper than
the host can write, saving fails: in place nothing has changed then, and another file holds what was
written of it.
-/

namespace StationNaming

/-- **The host, the files and the registered prefixes.** -/
structure Desk where
  host : Host
  files : Files
  registry : Xml.PrefixRegistry := Xml.PrefixRegistry.initial
  deriving DecidableEq, Repr

/-- **Why a document on a desk cannot be opened or saved.** -/
inductive DeskError where
  | file (e : FileError)
  | opening (e : OpenError)
  deriving DecidableEq, Repr

/-- The wording of a failure. -/
def DeskError.message : DeskError → String
  | .file e => e.message
  | .opening e => e.message

namespace Desk

/-- **Opening the document at a path.** -/
def openStation (d : Desk) (path : String) : Desk × Except DeskError Station :=
  match d.files.read path with
  | .error e => (d, .error (.file e))
  | .ok bytes =>
    match Station.ofBytes d.host.intake d.registry path bytes with
    | (registry, .ok s) => ({ d with registry := registry }, .ok s)
    | (registry, .error e) => ({ d with registry := registry }, .error (.opening e))

/-- What is written of a document on a desk. -/
def draft (d : Desk) (s : Station) : Xml.Draft := s.draft d.registry d.host.room

/-- The desk after steps on its files that save to a path, and that path if they succeed. -/
def saving (d : Desk) (steps : Files.Steps Unit) (path : String) : Desk × Except FileError String :=
  match steps.run d.files with
  | .ok _ files => ({ d with files := files }, .ok path)
  | .error e files => ({ d with files := files }, .error e)

/-- **Saving a document** to a path: the desk afterwards, whatever becomes of the saving, and the
path that was saved to. -/
def save (d : Desk) (s : Station) (path : String) : Desk × Except FileError String :=
  d.saving (Files.writeOver path (d.draft s).toBytes (d.draft s).isWhole) path

/-- **Saving a document** to an output file, or in place of its input file if there is none. -/
def saveOrKeep (d : Desk) (s : Station) (input : String) (output : Option String) :
    Desk × Except FileError String :=
  match output with
  | some path => d.save s path
  | none => d.saving (Files.saveInPlace input (d.draft s).toBytes (d.draft s).isWhole) input

end Desk

end StationNaming
