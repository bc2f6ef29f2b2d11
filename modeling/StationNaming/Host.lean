import StationNaming.Xml.Intake
/-!
# The host

What a run gets from the machine it runs on, besides files and input: how files are taken in, and
how deep elements may be nested in a document that is written.
-/

namespace StationNaming

/-- **A host**: how it deals with a token that is torn at the end of a portion of a file, and the
number of elements nested in each other that it can write. -/
structure Host where
  intake : Xml.Intake
  room : Nat
  deriving DecidableEq, Repr

/-- A host as it usually is: a thousand calls may be nested, of which writing starts with a few. -/
def Host.usual : Host := { intake := .patient, room := 980 }

end StationNaming
