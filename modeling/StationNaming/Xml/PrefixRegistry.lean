import StationNaming.Xml.Namespace
/-!
# Registered prefixes

When a document is written, a namespace gets the prefix that is registered for it. Opening a
document registers the prefixes it declares, so that they survive saving.

**What is exact.** A registration removes every earlier entry with the same prefix or the same
namespace. The letters `ns` followed by digits are kept for namespaces without a registered prefix
and cannot be registered. The registry is one for all documents that are open at a time.
-/

namespace StationNaming.Xml

/-- **A registry**: namespaces with their prefixes. -/
abbrev PrefixRegistry := List Binding

namespace PrefixRegistry

/-- The prefixes that are registered from the start. -/
def initial : PrefixRegistry := [
  ⟨"xml", xmlNamespace⟩,
  ⟨"html", "http://www.w3.org/1999/xhtml"⟩,
  ⟨"rdf", "http://www.w3.org/1999/02/22-rdf-syntax-ns#"⟩,
  ⟨"wsdl", "http://schemas.xmlsoap.org/wsdl/"⟩,
  ⟨"xs", "http://www.w3.org/2001/XMLSchema"⟩,
  ⟨"xsi", "http://www.w3.org/2001/XMLSchema-instance"⟩,
  ⟨"dc", "http://purl.org/dc/elements/1.1/"⟩
]

/-- The ranges of decimal digits that a name can hold. -/
def digitRanges : List (Nat × Nat) := [
  (0x30, 0x39), (0x660, 0x669), (0x6F0, 0x6F9), (0x966, 0x96F), (0x9E6, 0x9EF), (0xA66, 0xA6F),
  (0xAE6, 0xAEF), (0xB66, 0xB6F), (0xBE7, 0xBEF), (0xC66, 0xC6F), (0xCE6, 0xCEF), (0xD66, 0xD6F),
  (0xE50, 0xE59), (0xED0, 0xED9), (0xF20, 0xF29)
]

/-- **Whether a prefix is kept** for namespaces without one. -/
def isReserved (pfx : String) : Bool :=
  match pfx.toList with
  | 'n' :: 's' :: digits => !digits.isEmpty && digits.all fun c => inRanges digitRanges c.toNat
  | _ => false

/-- The prefix of a namespace. -/
def find? (registry : PrefixRegistry) (uri : String) : Option String :=
  (List.find? (fun b : Binding => b.uri == uri) registry).map (·.pfx)

/-- **Registering a prefix** for a namespace, unless it is kept. -/
def register? (registry : PrefixRegistry) (b : Binding) : Option PrefixRegistry :=
  if isReserved b.pfx then none
  else some (registry.filter (fun a => a.uri != b.uri && a.pfx != b.pfx) ++ [b])

end PrefixRegistry

end StationNaming.Xml
