import StationNaming.Form
import StationNaming.Text.Quoted
/-!
# IED records

One intelligent electronic device as its station file describes it: the name that identifies it,
and seven descriptive fields that are shown and searched but never judged.

**What is exact.** An absent field leaves no trace in the lines made from it, while an empty one
keeps its separators; only the schema information is always part of the second line, even when all
of its parts are absent.
-/

namespace StationNaming

/-- **An IED of a station file.** -/
structure Ied where
  name : String
  manufacturer : Option String := none
  type : Option String := none
  desc : Option String := none
  configVersion : Option String := none
  sclVersion : Option String := none
  sclRevision : Option String := none
  sclRelease : Option String := none
  deriving DecidableEq, Repr

namespace Ied

/-! ## The lines shown for an IED -/

/-- The parts that are present, with a dash between neighbours. -/
def joinDashed (parts : List String) : String := " - ".intercalate parts

/-- Manufacturer and type. -/
def firstLine (r : Ied) : String := joinDashed [r.manufacturer, r.type].reduceOption

/-- Version, revision and release of the schema, written without a gap. -/
def schemaInformation (r : Ied) : String :=
  String.join [r.sclVersion, r.sclRevision, r.sclRelease].reduceOption

/-- Description, configuration version and schema information. -/
def secondLine (r : Ied) : String :=
  joinDashed ([r.desc, r.configVersion].reduceOption ++ [r.schemaInformation])

/-- **The text by which lists are ordered.** -/
def sortKey (r : Ied) : String := r.firstLine ++ " " ++ r.secondLine

/-- **The text a search looks at**, for an IED whose proposed name is `current`. -/
def searchableText (r : Ied) (current : String) : String :=
  r.firstLine ++ " " ++ r.secondLine ++ " " ++ current ++ " " ++ r.name

/-- The one-line form of a record; the name stands in it as it is. -/
def summary (r : Ied) : String :=
  "IEDRecord('" ++ r.name ++ "', manufacturer=" ++ Text.quotedOption r.manufacturer ++ ", type="
    ++ Text.quotedOption r.type ++ ")"

/-! ## Reading a record from a form -/

/-- **The record a form describes**: a name, and descriptive fields that may be left out. -/
def ofForm (form : Form) : Checked Ied :=
  Ied.mk <$> form.text "name" <*> form.optionalText "manufacturer" <*> form.optionalText "type"
    <*> form.optionalText "desc" <*> form.optionalText "config_version"
    <*> form.optionalText "original_scl_version" <*> form.optionalText "original_scl_revision"
    <*> form.optionalText "original_scl_release"

/-- All fields of a record in their declared order. -/
def fields (r : Ied) : List (Option String) :=
  [some r.name, r.manufacturer, r.type, r.desc, r.configVersion, r.sclVersion, r.sclRevision,
    r.sclRelease]

end Ied

end StationNaming
