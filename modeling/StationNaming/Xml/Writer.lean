import StationNaming.Unicode.CodeOrder
import StationNaming.Xml.Element
import StationNaming.Xml.PrefixRegistry
/-!
# Writing a document

A document is written as UTF-8 with an XML declaration, all namespaces declared on the root element.

**What is exact.** A namespace is declared if the name of an element or attribute is in it, under
its registered prefix, or under `ns` and the number of namespaces met before it. The declarations
stand in the order of the prefixes, before the other attributes. An empty prefix leaves names as
they are. An element with no text and no children is written as one tag. In text the characters `&`,
`<` and `>` are escaped, in values also the double quote and the characters that end lines or
separate words. `draft` says what is written by a writer that has room for so many nested elements:
it stops in front of the first one that is nested deeper.
-/

namespace StationNaming.Xml

/-! ## Characters -/

/-- A character of text. -/
def escapeTextChar (c : Char) : List Char :=
  if c == '&' then "&amp;".toList
  else if c == '<' then "&lt;".toList
  else if c == '>' then "&gt;".toList
  else [c]

/-- **Text as it is written.** -/
def escapeText (s : String) : String := String.ofList (s.toList.flatMap escapeTextChar)

/-- A character of an attribute value. -/
def escapeValueChar (c : Char) : List Char :=
  if c == '"' then "&quot;".toList
  else if c == '\r' then "&#13;".toList
  else if c == '\n' then "&#10;".toList
  else if c == '\t' then "&#09;".toList
  else escapeTextChar c

/-- **An attribute value as it is written.** -/
def escapeValue (s : String) : String := String.ofList (s.toList.flatMap escapeValueChar)

/-! ## Prefixes in use -/

/-- The namespaces that were met, with their prefixes, in the order of meeting. -/
abbrev UsedPrefixes := List Binding

/-- **Meeting a namespace.** The prefix `xml` needs no declaration. -/
def UsedPrefixes.meet (registry : PrefixRegistry) (used : UsedPrefixes) (uri : String) :
    UsedPrefixes :=
  if uri = "" || (PrefixRegistry.find? used uri).isSome then used
  else
    match registry.find? uri with
    | some "xml" => used
    | some pfx => used ++ [⟨pfx, uri⟩]
    | none => used ++ [⟨"ns" ++ toString used.length, uri⟩]

/-- The namespaces of an element's own names, in the order in which they are met. -/
def Element.ownSpaces (e : Element) : List String :=
  e.name.space :: e.attributes.map (·.1.space)

/-- **The namespaces of a document** with the prefixes they are written under. -/
def usedPrefixes (registry : PrefixRegistry) (root : Element) : UsedPrefixes :=
  (root.walk.flatMap (·.2.ownSpaces)).foldl (UsedPrefixes.meet registry) []

/-- A name as it is written. -/
def writtenName (registry : PrefixRegistry) (used : UsedPrefixes) (n : Name) : String :=
  if n.space = "" then n.localName
  else
    match (PrefixRegistry.find? used n.space).or (registry.find? n.space) with
    | some "" | none => n.localName
    | some pfx => pfx ++ ":" ++ n.localName

/-! ## Elements -/

/-- One attribute as it is written, with the blank in front. -/
def writtenAttribute (name value : String) : String :=
  " " ++ name ++ "=\"" ++ escapeValue value ++ "\""

/-- The beginning of a start tag, up to the bracket that ends it. -/
def writtenStart (writeName : Name → String) (declarations : String) (n : Name)
    (attributes : List Attribute) : String :=
  "<" ++ writeName n ++ declarations ++
    String.join (attributes.map fun a => writtenAttribute (writeName a.1) a.2)

/-- The declaration of a namespace. -/
def writtenBinding (b : Binding) : String :=
  writtenAttribute (if b.pfx = "" then "xmlns" else "xmlns:" ++ b.pfx) b.uri

mutual

/-- **An element as it is written**, with some declarations after its name. -/
def writeElement (writeName : Name → String) (declarations : String) : Element → String
  | .mk n as t cs tl =>
    let body := if t = "" && cs.isEmpty then " />"
      else ">" ++ escapeText t ++ writeElements writeName cs ++ "</" ++ writeName n ++ ">"
    writtenStart writeName declarations n as ++ body ++ escapeText tl

/-- Neighbouring elements as they are written. -/
def writeElements (writeName : Name → String) : List Element → String
  | [] => ""
  | c :: cs => writeElement writeName "" c ++ writeElements writeName cs

end

/-- The declarations of the namespaces in use, in the order of their prefixes. -/
def writtenBindings (used : UsedPrefixes) : String :=
  String.join ((used.mergeSort fun a b =>
    Unicode.codeLe (Unicode.codes a.pfx) (Unicode.codes b.pfx)).map writtenBinding)

/-- The XML declaration of every written document. -/
def writtenDeclaration : String := "<?xml version='1.0' encoding='utf-8'?>\n"

/-- **Writing a document.** -/
def write (registry : PrefixRegistry) (root : Element) : String :=
  let used := usedPrefixes registry root
  writtenDeclaration ++ writeElement (writtenName registry used) (writtenBindings used) root

/-! ## Drafts -/

/-- **What has been written of a text**, and whether that is all of it. -/
structure Draft where
  text : String
  isWhole : Bool := true
  deriving DecidableEq, Repr

namespace Draft

/-- A draft with more written after it, unless the writing has stopped. -/
def andThen (d more : Draft) : Draft :=
  if d.isWhole then ⟨d.text ++ more.text, more.isWhole⟩ else d

/-- The bytes of a draft. -/
def toBytes (d : Draft) : List UInt8 := d.text.toUTF8.toList

end Draft

mutual

/-- **The draft of an element**, with room for so many elements nested in each other. -/
def draftElement (writeName : Name → String) (declarations : String) (room : Nat) :
    Element → Draft
  | .mk n as t cs tl =>
    match room with
    | 0 => { text := "", isWhole := false }
    | room + 1 =>
      let body : Draft := if t = "" && cs.isEmpty then { text := " />" }
        else Draft.andThen { text := ">" ++ escapeText t }
          ((draftElements writeName room cs).andThen { text := "</" ++ writeName n ++ ">" })
      Draft.andThen { text := writtenStart writeName declarations n as }
        (body.andThen { text := escapeText tl })

/-- The draft of neighbouring elements. -/
def draftElements (writeName : Name → String) (room : Nat) : List Element → Draft
  | [] => { text := "" }
  | c :: cs => (draftElement writeName "" room c).andThen (draftElements writeName room cs)

end

/-- **The draft of a document**, with room for so many elements nested in each other. -/
def draft (registry : PrefixRegistry) (room : Nat) (root : Element) : Draft :=
  let used := usedPrefixes registry root
  Draft.andThen { text := writtenDeclaration }
    (draftElement (writtenName registry used) (writtenBindings used) room root)

end StationNaming.Xml
