import StationNaming.Xml.Doctype
import StationNaming.Xml.PrologToken
/-!
# The prolog of a document

The tokens before the root element are read one at a time by a machine that knows what may come
next. On its way it collects what the document type declares.

**What is exact.** White space may stand between any two tokens. A token that may not come next is a
fault at its first glyph. Element declarations are checked for their shape and otherwise ignored;
parameter entities are never expanded.
-/

namespace StationNaming.Xml

/-! ## What may come next -/

/-- The steps of an entity declaration after its name; those of a general and of a parameter entity
differ only at the end. -/
inductive EntityStep where
  | value
  | publicId
  | systemId
  | tail
  deriving DecidableEq, Repr

/-- **What the machine waits for.** -/
inductive Expect where
  | anything
  | doctypeOrRoot
  | root
  | doctypeName
  | doctypeHead
  | doctypePublic
  | doctypeSystem
  | doctypeSubset
  | doctypeEnd
  | subset
  | entityName
  | parameterName
  | entity (general : Bool) (step : EntityStep)
  | entityNotation
  | notationName
  | notationHead
  | notationPublic
  | notationSystem
  | notationTail
  | attlistElement
  | attributeName
  | attributeType
  | enumerationItem
  | enumerationNext
  | notationOpen
  | notationItem
  | notationNext
  | attributeDefault
  | attributeFixed
  | elementName
  | elementContent
  | groupFirst
  | mixedFirst
  | mixedItem
  | mixedNext
  | groupItem
  | groupNext
  | declarationEnd
  deriving DecidableEq, Repr

/-- **The state of the machine**: what it waits for, what was declared, and the declaration it is
in. A group of an element declaration remembers whether its items follow each other or are
alternatives. -/
structure PrologState where
  expect : Expect := .anything
  doctype : Doctype := {}
  entity : Option String := none
  element : String := ""
  attr : String := ""
  isTokens : Bool := false
  isId : Bool := false
  groups : List (Option Bool) := []
  deriving Repr

namespace PrologState

/-! ## Small steps -/

/-- The state waiting for something else. -/
def await (st : PrologState) (e : Expect) : PrologState := { st with expect := e }

/-- The fault of a token that may not come next. -/
def unexpected (token : PrologToken) (here : List Glyph) : Fault :=
  match token with
  | .parameter _ => ⟨.parameterReference, here⟩
  | .xmlDeclaration _ => ⟨.misplacedDeclaration, here⟩
  | _ => ⟨.grammar, here⟩

/-- The place of a fault in a literal that starts at `here` and is closed at `close`. -/
def literalFault (here close : List Glyph) (f : ValueFault) : Fault :=
  ⟨f.cause, (f.rest.map (· ++ close)).getD here⟩

/-- A character that may stand in a public identifier. -/
def isPublicChar (c : Char) : Bool :=
  ('a' ≤ c && c ≤ 'z') || ('A' ≤ c && c ≤ 'Z') || ('0' ≤ c && c ≤ '9') ||
    " \n\r-'()+,./:=?;!*#@$_%".toList.contains c

/-- The glyphs of a public identifier from the first character on that may not stand in it. -/
def publicIdRest (content : List Glyph) : List Glyph :=
  content.dropWhile fun
    | .char c => isPublicChar c
    | _ => false

/-- Checks a public identifier. -/
def checkPublicId (st : PrologState) (content close : List Glyph) : Except Fault PrologState :=
  match publicIdRest content with
  | [] => .ok st
  | rest => .error ⟨.publicId, rest ++ close⟩

/-- The declaration of an entity begins; one that is predefined, known or not read is not kept. -/
def nameEntity (st : PrologState) (name : String) : PrologState :=
  if (predefined? name).isSome || !st.doctype.reading || st.doctype.declares name then
    { st with entity := none }
  else { st with entity := some name }

/-- Gives the declared entity a content. -/
def setEntity (st : PrologState) (content : EntityContent) : PrologState :=
  match st.entity with
  | none => st
  | some name => { st with doctype := st.doctype.setEntity name content }

/-- The value of an entity. -/
def entityValue (st : PrologState) (here content close : List Glyph) :
    Except Fault PrologState :=
  if st.doctype.reading then
    match entityText content with
    | .error f => .error (literalFault here close f)
    | .ok text => .ok (st.setEntity (.text text))
  else .ok st

/-- The default of an attribute. -/
def attributeDefault (st : PrologState) (here content close : List Glyph) :
    Except Fault PrologState :=
  if st.doctype.reading then
    match attributeValue st.doctype st.isTokens content with
    | .error f => .error (literalFault here close f)
    | .ok value =>
      .ok { st with doctype :=
        st.doctype.addRule st.element ⟨st.attr, st.isTokens, some value⟩ true }
  else .ok st

/-- An attribute without a default. -/
def attributeWithout (st : PrologState) : PrologState :=
  if st.doctype.reading then
    { st with doctype := st.doctype.addRule st.element ⟨st.attr, st.isTokens, none⟩ st.isId }
  else st

/-- A connector between the items of the innermost group, which must agree with earlier ones. -/
def connect (st : PrologState) (isSequence : Bool) (here : List Glyph) :
    Except Fault PrologState :=
  match st.groups with
  | some earlier :: _ =>
    if earlier = isSequence then .ok (st.await .groupItem) else .error ⟨.grammar, here⟩
  | _ :: outer => .ok { st with groups := some isSequence :: outer, expect := .groupItem }
  | [] => .ok (st.await .groupItem)

/-- The innermost group ends. -/
def closeGroup (st : PrologState) : PrologState :=
  let outer := st.groups.tail
  { st with groups := outer, expect := if outer.isEmpty then .declarationEnd else .groupNext }

/-- The keywords of attribute types that are not followed by a list. -/
def tokenTypes : List String :=
  ["ID", "IDREF", "IDREFS", "ENTITY", "ENTITIES", "NMTOKEN", "NMTOKENS"]

/-! ## The parts of a document type -/

/-- A step in the head of a document type declaration; nothing if the token may not come next. -/
def stepDoctype (st : PrologState) (token : PrologToken) :
    Option (Except Fault PrologState) :=
  match st.expect, token with
  | .doctypeName, .name _ => some (.ok (st.await .doctypeHead))
  | .doctypeName, .qualified _ => some (.ok (st.await .doctypeHead))
  | .doctypeHead, .mark .openBracket => some (.ok (st.await .subset))
  | .doctypeHead, .mark .close => some (.ok (st.await .root))
  | .doctypeHead, .name "SYSTEM" => some (.ok (st.await .doctypeSystem))
  | .doctypeHead, .name "PUBLIC" => some (.ok (st.await .doctypePublic))
  | .doctypePublic, .literal content close =>
    some (checkPublicId { st with
      doctype := { st.doctype with hasOutsideParts := true }, expect := .doctypeSystem }
      content close)
  | .doctypeSystem, .literal _ _ =>
    some (.ok { st with
      doctype := { st.doctype with hasOutsideParts := true }, expect := .doctypeSubset })
  | .doctypeSubset, .mark .openBracket => some (.ok (st.await .subset))
  | .doctypeSubset, .mark .close => some (.ok (st.await .root))
  | .doctypeEnd, .mark .close => some (.ok (st.await .root))
  | .subset, .opening "ENTITY" => some (.ok (st.await .entityName))
  | .subset, .opening "ATTLIST" => some (.ok (st.await .attlistElement))
  | .subset, .opening "ELEMENT" => some (.ok (st.await .elementName))
  | .subset, .opening "NOTATION" => some (.ok (st.await .notationName))
  | .subset, .ignored => some (.ok st)
  | .subset, .parameter _ => some (.ok { st with doctype := st.doctype.skipOutside })
  | .subset, .mark .closeBracket => some (.ok (st.await .doctypeEnd))
  | .declarationEnd, .mark .close => some (.ok (st.await .subset))
  | _, _ => none

/-- A step in the declaration of an entity or a notation. -/
def stepEntity (st : PrologState) (token : PrologToken) (here : List Glyph) :
    Option (Except Fault PrologState) :=
  match st.expect, token with
  | .entityName, .mark .percent => some (.ok (st.await .parameterName))
  | .entityName, .name s => some (.ok ((st.nameEntity s).await (.entity true .value)))
  | .parameterName, .name _ =>
    some (.ok { st with entity := none, expect := .entity false .value })
  | .entity general .value, .name "SYSTEM" => some (.ok (st.await (.entity general .systemId)))
  | .entity general .value, .name "PUBLIC" => some (.ok (st.await (.entity general .publicId)))
  | .entity _ .value, .literal content close =>
    some ((st.await .declarationEnd).entityValue here content close)
  | .entity general .publicId, .literal content close =>
    some ((st.await (.entity general .systemId)).checkPublicId content close)
  | .entity general .systemId, .literal _ _ =>
    some (.ok ((st.setEntity .external).await (.entity general .tail)))
  | .entity _ .tail, .mark .close => some (.ok (st.await .subset))
  | .entity true .tail, .name "NDATA" => some (.ok (st.await .entityNotation))
  | .entityNotation, .name _ => some (.ok ((st.setEntity .unparsed).await .declarationEnd))
  | .notationName, .name _ => some (.ok (st.await .notationHead))
  | .notationHead, .name "SYSTEM" => some (.ok (st.await .notationSystem))
  | .notationHead, .name "PUBLIC" => some (.ok (st.await .notationPublic))
  | .notationPublic, .literal content close =>
    some ((st.await .notationTail).checkPublicId content close)
  | .notationSystem, .literal _ _ => some (.ok (st.await .declarationEnd))
  | .notationTail, .literal _ _ => some (.ok (st.await .declarationEnd))
  | .notationTail, .mark .close => some (.ok (st.await .subset))
  | _, _ => none

/-- A step in the declaration of attributes. -/
def stepAttlist (st : PrologState) (token : PrologToken) (here : List Glyph) :
    Option (Except Fault PrologState) :=
  match st.expect, token with
  | .attlistElement, .name s | .attlistElement, .qualified s =>
    some (.ok { st with element := s, expect := .attributeName })
  | .attributeName, .mark .close => some (.ok (st.await .subset))
  | .attributeName, .name s | .attributeName, .qualified s =>
    some (.ok { st with attr := s, isTokens := true, isId := false, expect := .attributeType })
  | .attributeType, .name s =>
    if s = "CDATA" then some (.ok { st with isTokens := false, expect := .attributeDefault })
    else if s = "NOTATION" then some (.ok (st.await .notationOpen))
    else if tokenTypes.contains s then
      some (.ok { st with isId := s = "ID", expect := .attributeDefault })
    else none
  | .attributeType, .mark .openParen => some (.ok (st.await .enumerationItem))
  | .enumerationItem, .name _ | .enumerationItem, .qualified _ | .enumerationItem, .nameToken _ =>
    some (.ok (st.await .enumerationNext))
  | .enumerationNext, .mark .closeParen => some (.ok (st.await .attributeDefault))
  | .enumerationNext, .mark .bar => some (.ok (st.await .enumerationItem))
  | .notationOpen, .mark .openParen => some (.ok (st.await .notationItem))
  | .notationItem, .name _ => some (.ok (st.await .notationNext))
  | .notationNext, .mark .closeParen => some (.ok (st.await .attributeDefault))
  | .notationNext, .mark .bar => some (.ok (st.await .notationItem))
  | .attributeDefault, .pound "IMPLIED" => some (.ok (st.attributeWithout.await .attributeName))
  | .attributeDefault, .pound "REQUIRED" => some (.ok (st.attributeWithout.await .attributeName))
  | .attributeDefault, .pound "FIXED" => some (.ok (st.await .attributeFixed))
  | .attributeDefault, .literal content close | .attributeFixed, .literal content close =>
    some ((st.await .attributeName).attributeDefault here content close)
  | _, _ => none

/-- A step in the declaration of an element. -/
def stepElement (st : PrologState) (token : PrologToken) (here : List Glyph) :
    Option (Except Fault PrologState) :=
  match st.expect, token with
  | .elementName, .name _ | .elementName, .qualified _ => some (.ok (st.await .elementContent))
  | .elementContent, .name "EMPTY" => some (.ok (st.await .declarationEnd))
  | .elementContent, .name "ANY" => some (.ok (st.await .declarationEnd))
  | .elementContent, .mark .openParen =>
    some (.ok { st with groups := [none], expect := .groupFirst })
  | .groupFirst, .pound "PCDATA" => some (.ok (st.await .mixedFirst))
  | .groupFirst, .mark .openParen | .groupItem, .mark .openParen =>
    some (.ok { st with groups := none :: st.groups, expect := .groupItem })
  | .groupFirst, .name _ | .groupFirst, .qualified _ | .groupFirst, .repeated _
  | .groupItem, .name _ | .groupItem, .qualified _ | .groupItem, .repeated _ =>
    some (.ok (st.await .groupNext))
  | .mixedFirst, .mark .closeParen | .mixedFirst, .mark .closeParenStar
  | .mixedNext, .mark .closeParenStar => some (.ok (st.await .declarationEnd))
  | .mixedFirst, .mark .bar | .mixedNext, .mark .bar => some (.ok (st.await .mixedItem))
  | .mixedItem, .name _ | .mixedItem, .qualified _ => some (.ok (st.await .mixedNext))
  | .groupNext, .mark .closeParen | .groupNext, .mark .closeParenStar
  | .groupNext, .mark .closeParenQuestion | .groupNext, .mark .closeParenPlus =>
    some (.ok st.closeGroup)
  | .groupNext, .mark .comma => some (st.connect true here)
  | .groupNext, .mark .bar => some (st.connect false here)
  | _, _ => none

/-! ## One step -/

/-- A step outside a document type declaration. -/
def stepTop (st : PrologState) (token : PrologToken) : Option (Except Fault PrologState) :=
  match st.expect, token with
  | .anything, .ignored => some (.ok (st.await .doctypeOrRoot))
  | .doctypeOrRoot, .ignored | .root, .ignored => some (.ok st)
  | .anything, .opening "DOCTYPE" | .doctypeOrRoot, .opening "DOCTYPE" =>
    some (.ok (st.await .doctypeName))
  | _, _ => none

/-- **One step of the machine** on a token that starts at `here`. -/
def step (st : PrologState) (token : PrologToken) (here : List Glyph) :
    Except Fault PrologState :=
  match token with
  | .space => .ok (if st.expect = .anything then st.await .doctypeOrRoot else st)
  | _ =>
    ((st.stepTop token <|> st.stepDoctype token <|> st.stepEntity token here <|>
      st.stepAttlist token here <|> st.stepElement token here)).getD
      (.error (unexpected token here))

/-- Whether the root element may start now. -/
def allowsRoot (st : PrologState) : Bool :=
  st.expect = .anything || st.expect = .doctypeOrRoot || st.expect = .root

end PrologState

end StationNaming.Xml
