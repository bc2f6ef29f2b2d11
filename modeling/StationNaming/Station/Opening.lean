import StationNaming.Files.Path
import StationNaming.Station
import StationNaming.Xml.Intake
import StationNaming.Xml.Writer
/-!
# Opening and saving station documents

A file is opened by reading it as a document and registering the prefixes it declares; saving writes
the document under the prefixes that are registered then.

**What is exact.** Prefixes are registered in the order in which they are declared, as far as the
file announces them: up to its first fault, and if there is one not beyond what is looked at before
the end of the file is known. What was registered stays registered, also when opening fails. A
declaration of a prefix that is kept ends the opening before any later fault of the file is looked
at.
-/

namespace StationNaming

open Xml (Event PrefixRegistry)

/-- **Why a station document cannot be opened.** -/
inductive OpenError where
  | malformed (path : String) (refusal : Xml.Refusal)
  | reservedPrefix
  | encoding (e : Xml.EncodingFailure)
  deriving DecidableEq, Repr

namespace OpenError

/-- The wording of a failure. -/
def message : OpenError → String
  | .malformed path refusal =>
    "Could not parse SCL file '" ++ path ++ "': " ++ refusal.message
  | .reservedPrefix => "Prefix format reserved for internal use"
  | .encoding e => e.message

/-- A failure of reading, for the file at a path. -/
def ofReadFailure (path : String) : Xml.ReadFailure → OpenError
  | .refused refusal => .malformed path refusal
  | .encoding e => .encoding e

end OpenError

namespace Station

/-- **Registering the prefixes** that a document declares: the registry afterwards, and whether all
of them could be registered. -/
def registerAll (registry : PrefixRegistry) : List Event → PrefixRegistry × Bool
  | [] => (registry, true)
  | .bind b :: es =>
    match registry.register? b with
    | some registry' => registerAll registry' es
    | none => (registry, false)
  | _ :: es => registerAll registry es

/-- What a reading amounts to. -/
def ofReading (plain : String) (reading : Xml.Reading) : Except OpenError Station :=
  match reading.failure, Xml.Element.ofEvents? reading.events with
  | some failure, _ => .error (.ofReadFailure plain failure)
  | none, some root => .ok ⟨root, plain⟩
  | none, none => .error (.malformed plain ⟨.noElement, ⟨1, 0⟩⟩)

/-- **Opening a document** from the bytes of the file at a path. -/
def ofBytes (intake : Xml.Intake) (registry : PrefixRegistry) (path : String)
    (bytes : List UInt8) : PrefixRegistry × Except OpenError Station :=
  match registerAll registry (intake.announced bytes) with
  | (registry', true) => (registry', ofReading (Files.plainPath path) (Xml.read bytes))
  | (registry', false) => (registry', .error .reservedPrefix)

/-- **The bytes of a document that is saved whole.** -/
def toBytes (registry : PrefixRegistry) (s : Station) : List UInt8 :=
  (Xml.write registry s.root).toUTF8.toList

/-- **What is written of a document**, with room for so many elements nested in each other. -/
def draft (registry : PrefixRegistry) (room : Nat) (s : Station) : Xml.Draft :=
  Xml.draft registry room s.root

end Station

end StationNaming
