import StationNaming.Xml.Glyph
/-!
# Faults of a document

Why a document is not well-formed, and where.

**What is exact.** A fault is found at the first place where reading cannot go on. Inside the
replacement text of an entity it is reported at the reference in the document itself.
-/

namespace StationNaming.Xml

/-- **Why a document is refused.** -/
inductive Cause where
  | grammar
  | noElement
  | invalidToken
  | unclosedToken
  | partialCharacter
  | mismatchedTag
  | duplicateAttribute
  | junkAfterRoot
  | parameterReference
  | undefinedEntity
  | unresolvedEntity (name : String)
  | recursiveEntity
  | asynchronousEntity
  | badCharacterReference
  | binaryEntity
  | externalEntityInAttribute
  | misplacedDeclaration
  | malformedDeclaration
  | unknownEncoding
  | incorrectEncoding
  | unclosedCData
  | publicId
  | unboundPrefix
  | undeclaredPrefix
  | reservedXmlPrefix
  | reservedXmlnsPrefix
  | reservedNamespace
  deriving DecidableEq, Repr

/-- The wording of a cause. -/
def Cause.message : Cause → String
  | .grammar => "syntax error"
  | .noElement => "no element found"
  | .invalidToken => "not well-formed (invalid token)"
  | .unclosedToken => "unclosed token"
  | .partialCharacter => "partial character"
  | .mismatchedTag => "mismatched tag"
  | .duplicateAttribute => "duplicate attribute"
  | .junkAfterRoot => "junk after document element"
  | .parameterReference => "illegal parameter entity reference"
  | .undefinedEntity => "undefined entity"
  | .unresolvedEntity name =>
    "undefined entity " ++ String.ofList (('&' :: name.toList ++ [';']).take 100)
  | .recursiveEntity => "recursive entity reference"
  | .asynchronousEntity => "asynchronous entity"
  | .badCharacterReference => "reference to invalid character number"
  | .binaryEntity => "reference to binary entity"
  | .externalEntityInAttribute => "reference to external entity in attribute"
  | .misplacedDeclaration => "XML or text declaration not at start of entity"
  | .malformedDeclaration => "XML declaration not well-formed"
  | .unknownEncoding => "unknown encoding"
  | .incorrectEncoding => "encoding specified in XML declaration is incorrect"
  | .unclosedCData => "unclosed CDATA section"
  | .publicId => "illegal character(s) in public id"
  | .unboundPrefix => "unbound prefix"
  | .undeclaredPrefix => "must not undeclare prefix"
  | .reservedXmlPrefix =>
    "reserved prefix (xml) must not be undeclared or bound to another namespace name"
  | .reservedXmlnsPrefix => "reserved prefix (xmlns) must not be declared or undeclared"
  | .reservedNamespace => "prefix must not be bound to one of the reserved namespace names"

/-- A fault and the rest of the document where it was found. -/
structure Fault where
  cause : Cause
  rest : List Glyph
  deriving DecidableEq, Repr

/-- **A fault with its place**, as it is reported. -/
structure Refusal where
  cause : Cause
  position : Position
  deriving DecidableEq, Repr

/-- The fault as a place in a document. -/
def Fault.locate (document : List Glyph) (f : Fault) : Refusal :=
  ⟨f.cause, Position.of document f.rest⟩

/-- The wording of a refusal. -/
def Refusal.message (r : Refusal) : String :=
  r.cause.message ++ ": line " ++ toString r.position.line ++ ", column " ++
    toString r.position.column

end StationNaming.Xml
