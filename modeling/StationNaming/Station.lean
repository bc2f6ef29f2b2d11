import StationNaming.Ied
import StationNaming.Renaming
import StationNaming.Unicode.Blank
import StationNaming.Xml.Element
/-!
# Station documents

A station document is an element tree whose root holds one element per IED. Other elements refer to
an IED by its name, in an attribute or in a text.

**What is exact.** Only children of the root are IEDs of the document, in whatever namespace. An
element called `IED` never refers to another one, at any depth. A renaming applies to the last IED
that carries the old name; an IED without a name cannot be renamed. Applying a list of renamings
resolves all of them before it writes anything, so it fails as a whole or applies as a whole.
-/

namespace StationNaming

open Xml (Element)

/-- **A station document**, with the path it was opened from. -/
structure Station where
  root : Element
  path : String
  deriving Repr

namespace Station

/-! ## IEDs -/

/-- Whether an element describes an IED. -/
def isIed (e : Element) : Bool := e.localName == "IED"

/-- The record of an element that describes an IED; a missing name is empty. -/
def recordOf (e : Element) : Ied where
  name := (e.attribute? "name").getD ""
  manufacturer := e.attribute? "manufacturer"
  type := e.attribute? "type"
  desc := e.attribute? "desc"
  configVersion := e.attribute? "configVersion"
  sclVersion := e.attribute? "originalSclVersion"
  sclRevision := e.attribute? "originalSclRevision"
  sclRelease := e.attribute? "originalSclRelease"

/-- **The records of a document**, in document order. -/
def records (s : Station) : List Ied := (s.root.children.filter isIed).map recordOf

/-- The index of the last child of the root that is an IED of this name. -/
def indexOf? (s : Station) (name : String) : Option Nat :=
  (s.root.children.zipIdx.filter fun (e, _) => isIed e && e.attribute? "name" == some name)
    |>.getLast?.map (·.2)

/-! ## References -/

/-- Where an element holds the name it refers to. -/
inductive Site where
  | attribute
  | text
  deriving DecidableEq, Repr

/-- The attribute that holds the name of an IED. -/
def referenceKey : String := "iedName"

/-- The sites at which an element refers to an IED, its attribute before its text. -/
def sitesOf (name : String) (e : Element) : List Site :=
  if isIed e then []
  else
    (if e.attribute? referenceKey = some name then [Site.attribute] else []) ++
    (if e.localName = "IEDName" ∧ Unicode.trimString e.text = name then [Site.text] else [])

/-- **A reference to an IED**: the element, the way to it, and the site in it. -/
structure Reference where
  path : Element.Path
  element : Element
  site : Site
  deriving Repr

/-- **The references to an IED**, in document order. -/
def references (s : Station) (name : String) : List Reference :=
  s.root.walk.flatMap fun (path, e) => (sitesOf name e).map fun site => ⟨path, e, site⟩

/-! ## Renaming -/

/-- Writing a name at a site of an element. -/
def Site.write (site : Site) (name : String) (e : Element) : Element :=
  match site with
  | .attribute => e.setAttribute referenceKey name
  | .text => e.setText name

/-- A renaming with everything it writes: the child of the root that gets the new name, and the
references to it. -/
structure Resolved where
  new : String
  index : Nat
  references : List Reference
  deriving Repr

/-- **Resolving a renaming**; it fails with the old name if no IED has it. -/
def resolve (s : Station) (r : Renaming) : Except String Resolved :=
  match s.indexOf? r.old with
  | none => .error r.old
  | some index => .ok ⟨r.new, index, s.references r.old⟩

/-- Writing a resolved renaming. -/
def Resolved.write (root : Element) (r : Resolved) : Element :=
  r.references.foldl (fun e ref => e.modifyAt ref.path (ref.site.write r.new))
    (root.modifyAt [r.index] (·.setAttribute "name" r.new))

/-- A document after renaming, and what was written. -/
structure Renamed where
  station : Station
  ieds : Nat
  references : Nat
  deriving Repr

/-- **Applying renamings**: all of them are resolved, then all are written. The failure is the first
old name that no IED has. -/
def rename (s : Station) (renamings : List Renaming) : Except String Renamed := do
  -- The references are found in the document as it was, so that names can be swapped.
  let resolved ← renamings.mapM s.resolve
  return {
    station := { s with root := resolved.foldl Resolved.write s.root }
    ieds := resolved.length
    references := resolved.foldl (fun count r => count + r.references.length) 0 }

/-- What the operator is told about an old name that no IED has. -/
def notFound (name : String) : String := "IED '" ++ name ++ "' not found in document."

end Station

end StationNaming
