import StationNaming.Xml.ContentToken
import StationNaming.Xml.Doctype
/-!
# Namespaces

A tag binds prefixes to namespaces for itself and everything inside it, and its own name and the
names of its attributes are read under these bindings.

**What is exact.** Bindings are made in the order in which the attributes stand, and one that was
made before a fault has been made. The default namespace applies to elements and never to
attributes. The prefix `xml` belongs to one namespace and `xmlns` to none; a prefix cannot be
bound to the empty namespace.
-/

namespace StationNaming.Xml

/-! ## Names -/

/-- **A name in a namespace**; the empty namespace is none. -/
structure Name where
  space : String := ""
  localName : String
  deriving DecidableEq, Repr

/-- The name in one text, the namespace in front in braces. -/
def Name.universal (n : Name) : String :=
  if n.space = "" then n.localName else "\x7b" ++ n.space ++ "\x7d" ++ n.localName

/-- A written name as its prefix and what follows the first colon. -/
def splitQName (s : String) : Option String × String :=
  match s.toList.span (· != ':') with
  | (_, []) => (none, s)
  | (p, _ :: l) => (some (String.ofList p), String.ofList l)

/-! ## Bindings -/

/-- A prefix and the namespace it is bound to; the empty prefix is the default namespace. -/
structure Binding where
  pfx : String
  uri : String
  deriving DecidableEq, Repr

/-- The bindings in force, the innermost one first. -/
abbrev Scope := List Binding

/-- The namespace that the prefix `xml` always has. -/
def xmlNamespace : String := "http://www.w3.org/XML/1998/namespace"

/-- The namespace of declarations, to which no prefix can be bound. -/
def xmlnsNamespace : String := "http://www.w3.org/2000/xmlns/"

/-- The bindings of every document. -/
def Scope.initial : Scope := [⟨"xml", xmlNamespace⟩]

/-- The namespace a prefix is bound to. -/
def Scope.find? (scope : Scope) (pfx : String) : Option String :=
  match List.find? (fun b : Binding => b.pfx == pfx) scope with
  | some b => if b.uri = "" then none else some b.uri
  | none => none

/-- **Why a binding is refused**, if it is. -/
def Binding.fault? (b : Binding) : Option Cause :=
  if b.uri = "" && b.pfx != "" then some .undeclaredPrefix
  else if b.pfx == "xmlns" then some .reservedXmlnsPrefix
  else if b.uri.toList.contains '\x7d' then some .grammar
  else if b.pfx == "xml" && b.uri != xmlNamespace then some .reservedXmlPrefix
  else if b.pfx != "xml" && b.uri == xmlNamespace then some .reservedNamespace
  else if b.uri == xmlnsNamespace then some .reservedNamespace
  else none

/-- The prefix that an attribute binds, if it is a declaration. -/
def boundPrefix? (name : String) : Option String :=
  match splitQName name with
  | (none, "xmlns") => some ""
  | (some "xmlns", pfx) => some pfx
  | _ => none

/-! ## Reading a start tag -/

/-- The attributes of a tag so far: those that were seen, the bindings made, and the others with
their values. -/
structure TagReading where
  seen : List String := []
  scope : Scope
  bound : List Binding := []
  plain : List (String × String) := []
  deriving Repr

/-- A fault in a tag, and the bindings that were made before it. -/
structure TagFault where
  fault : Fault
  bound : List Binding
  deriving Repr

namespace TagReading

/-- Adds an attribute with its value; `here` is the start of the tag. -/
def add (here : List Glyph) (t : TagReading) (name value : String) : Except TagFault TagReading :=
  match boundPrefix? name with
  | none => .ok { t with seen := name :: t.seen, plain := t.plain ++ [(name, value)] }
  | some pfx =>
    let b : Binding := ⟨pfx, value⟩
    match b.fault? with
    | some cause => .error ⟨⟨cause, here⟩, t.bound⟩
    | none =>
      .ok { t with seen := name :: t.seen, scope := b :: t.scope, bound := t.bound ++ [b] }

/-- Adds an attribute as it is written. -/
def addRaw (d : Doctype) (element : String) (here : List Glyph) (t : TagReading)
    (a : RawAttribute) : Except TagFault TagReading :=
  if t.seen.contains a.name then .error ⟨⟨.duplicateAttribute, a.start⟩, t.bound⟩
  else
    match attributeValue d (d.isTokens element a.name) a.value with
    | .error f => .error ⟨⟨f.cause, (f.rest.map (· ++ a.rest)).getD here⟩, t.bound⟩
    | .ok value => t.add here a.name value

/-- Adds the default of a declared attribute, unless the attribute is there. -/
def addDefault (here : List Glyph) (t : TagReading) (rule : AttributeRule) :
    Except TagFault TagReading :=
  match rule.default with
  | none => .ok t
  | some value => if t.seen.contains rule.name then .ok t else t.add here rule.name value

/-- **All attributes of a tag**, the defaults after those that are written. -/
def ofTag (d : Doctype) (scope : Scope) (here : List Glyph) (element : String)
    (attributes : List RawAttribute) : Except TagFault TagReading := do
  let t ← attributes.foldlM (addRaw d element here) { scope := scope }
  (d.rulesOf element).foldlM (addDefault here) t

end TagReading

/-- An attribute's name under the bindings in force. -/
def resolveAttribute (scope : Scope) (name : String) : Option Name :=
  match splitQName name with
  | (none, _) => some ⟨"", name⟩
  | (some pfx, l) => (scope.find? pfx).map fun uri => ⟨uri, l⟩

/-- **The names of all attributes**; two prefixes of one namespace must not give one name twice. -/
def resolveAttributes (scope : Scope) (done : List (Name × String)) :
    List (String × String) → Except Cause (List (Name × String))
  | [] => .ok done
  | (name, value) :: rest =>
    match resolveAttribute scope name with
    | none => .error .unboundPrefix
    | some n =>
      if n.space != "" && done.any (·.1 == n) then .error .duplicateAttribute
      else resolveAttributes scope (done ++ [(n, value)]) rest

/-- An element's name under the bindings in force. -/
def resolveElement (scope : Scope) (name : String) : Option Name :=
  match splitQName name with
  | (none, _) => some ⟨(scope.find? "").getD "", name⟩
  | (some pfx, l) => (scope.find? pfx).map fun uri => ⟨uri, l⟩

/-- **A start tag as it is understood**: bindings, name and attributes. -/
structure StartTag where
  scope : Scope
  bound : List Binding
  name : Name
  attributes : List (Name × String)
  deriving Repr

/-- **Reading a start tag** under a document type and bindings. -/
def StartTag.read (d : Doctype) (scope : Scope) (here : List Glyph) (element : String)
    (attributes : List RawAttribute) : Except TagFault StartTag := do
  let t ← TagReading.ofTag d scope here element attributes
  match resolveAttributes t.scope [] t.plain with
  | .error cause => .error ⟨⟨cause, here⟩, t.bound⟩
  | .ok attrs =>
    match resolveElement t.scope element with
    | none => .error ⟨⟨.unboundPrefix, here⟩, t.bound⟩
    | some name => .ok ⟨t.scope, t.bound, name, attrs⟩

end StationNaming.Xml
