import StationNaming.Xml.Scan
/-!
# What a document type declares

The internal part of a document type declaration can declare entities, attribute types and
attribute defaults. External parts are never fetched.

**What is exact.** Of several declarations of one entity the first counts. Once a declaration may
stand in a part that is not read, later declarations are passed over and an unknown entity is no
longer an error of the document itself, unless the document calls itself standalone.
-/

namespace StationNaming.Xml

/-! ## Entities -/

/-- **What an entity stands for**: a text, something outside the document, or data that is not
markup at all. -/
inductive EntityContent where
  | text (cs : List Char)
  | external
  | unparsed
  deriving DecidableEq, Repr

/-- Declared entities by name. -/
abbrev Entities := List (String × EntityContent)

/-- An entity and the entities left when it is open; an open entity must not be referred to
again. -/
def takeEntity? (name : String) : Entities → Option (EntityContent × Entities)
  | [] => none
  | e :: es =>
    if e.1 = name then some (e.2, es)
    else (takeEntity? name es).map fun found => (found.1, e :: found.2)

/-- The size of what an entity stands for. -/
def EntityContent.size : EntityContent → Nat
  | .text cs => cs.length + 1
  | .external | .unparsed => 1

/-- **The size of entities**; it bounds how much text they can lead to. -/
def Entities.size : Entities → Nat
  | [] => 0
  | e :: es => e.2.size + Entities.size es

/-- An entity that is open takes its size from those that are left. -/
theorem size_of_takeEntity? {name : String} {es rest : Entities} {c : EntityContent}
    (h : takeEntity? name es = some (c, rest)) :
      c.size + Entities.size rest = Entities.size es := by
  fun_induction takeEntity? name es generalizing c rest with
  | case1 => simp at h
  | case2 e es _ =>
    simp only [Option.some.injEq, Prod.mk.injEq] at h
    simp [← h.1, ← h.2, Entities.size]
  | case3 e es _ ih =>
    obtain ⟨found, hf, he⟩ := Option.map_eq_some_iff.1 h
    simp only [Prod.mk.injEq] at he
    have := @ih found.2 found.1 hf
    simp only [← he.1, ← he.2, Entities.size] at this ⊢
    omega

theorem size_of_takeEntity?_text {name : String} {es rest : Entities} {cs : List Char}
    (h : takeEntity? name es = some (.text cs, rest)) :
    cs.length + Entities.size rest < Entities.size es := by
  have := size_of_takeEntity? h
  simp only [EntityContent.size] at this
  omega

/-! ## Attribute types and defaults -/

/-- **A declared attribute**: whether its value is a list of tokens, and its default. -/
structure AttributeRule where
  name : String
  isTokens : Bool
  default : Option String
  deriving DecidableEq, Repr

/-- **What is known from the document type.** -/
structure Doctype where
  entities : Entities := []
  rules : List (String × List AttributeRule) := []
  hasOutsideParts : Bool := false
  reading : Bool := true
  standalone : Bool := false
  deriving DecidableEq, Repr

namespace Doctype

/-- Whether every entity must have been declared by now. -/
def isComplete (d : Doctype) : Bool := !d.hasOutsideParts || d.standalone

/-- Whether an entity has been declared. -/
def declares (d : Doctype) (name : String) : Bool := d.entities.any (·.1 == name)

/-- Declares an entity or completes its declaration. -/
def setEntity (d : Doctype) (name : String) (content : EntityContent) : Doctype :=
  { d with entities := d.entities.filter (·.1 != name) ++ [(name, content)] }

/-- The declared attributes of an element. -/
def rulesOf (d : Doctype) (element : String) : List AttributeRule :=
  (d.rules.lookup element).getD []

/-- Declares an attribute of an element; `isWeighty` says that a second declaration of the same
attribute is to be passed over. -/
def addRule (d : Doctype) (element : String) (rule : AttributeRule) (isWeighty : Bool) : Doctype :=
  let rules := d.rulesOf element
  if isWeighty && rules.any (·.name == rule.name) then d
  else { d with rules := (element, rules ++ [rule]) :: d.rules.filter (·.1 != element) }

/-- Whether an attribute of an element is declared to be a list of tokens. -/
def isTokens (d : Doctype) (element name : String) : Bool :=
  (((d.rulesOf element).find? (·.name == name)).map (·.isTokens)).getD false

/-- A part of the declarations stands outside the document and is not read. -/
def skipOutside (d : Doctype) : Doctype :=
  { d with hasOutsideParts := true, reading := d.standalone }

end Doctype

/-! ## Attribute values -/

/-- A fault in a value; without a place it is a fault of the whole tag. -/
structure ValueFault where
  cause : Cause
  rest : Option (List Glyph)
  deriving DecidableEq, Repr

/-- Forgets a place inside an entity. -/
def ValueFault.outside (f : ValueFault) : ValueFault := { f with rest := none }

/-- A blank of a value, put in front of what was read; a list of tokens has no two blanks in a row
and none in front. -/
def pushBlank (isTokens : Bool) (acc : List Char) : List Char :=
  match acc with
  | [] => if isTokens then [] else [' ']
  | c :: _ => if isTokens && c == ' ' then acc else ' ' :: acc

/-- **Normalising an attribute value**: references are replaced and each white space character
becomes a blank. The characters read so far are in `acc`, last one first. -/
def normalize (d : Doctype) (isTokens : Bool) (available : Entities) (acc : List Char)
    (cs : List Glyph) : Except ValueFault (List Char) :=
  match cs with
  | [] => .ok acc
  | .char '\r' :: .char '\n' :: rest =>
    normalize d isTokens available (pushBlank isTokens acc) rest
  | .char '<' :: _ => .error ⟨.invalidToken, some cs⟩
  | .char '&' :: after =>
    match _h : scanReference after with
    | .error (.invalid rest) => .error ⟨.invalidToken, some rest⟩
    | .error _ => .error ⟨.invalidToken, some cs⟩
    | .ok (.character code, rest) =>
      match referenced? code with
      | none => .error ⟨.badCharacterReference, some cs⟩
      | some c =>
        normalize d isTokens available
          (if c == ' ' then pushBlank isTokens acc else c :: acc) rest
    | .ok (.entity name, rest) =>
      match predefined? name with
      | some c => normalize d isTokens available (c :: acc) rest
      | none =>
        match _hn : takeEntity? name available with
        | some (.unparsed, _) => .error ⟨.binaryEntity, some cs⟩
        | some (.external, _) => .error ⟨.externalEntityInAttribute, some cs⟩
        | some (.text text, available') =>
          match normalize d isTokens available' acc (entityGlyphs text) with
          | .error fault => .error fault.outside
          | .ok acc => normalize d isTokens available acc rest
        | none =>
          if d.declares name then .error ⟨.recursiveEntity, some cs⟩
          else if d.isComplete then .error ⟨.undefinedEntity, none⟩
          else normalize d isTokens available acc rest
  | .char c :: rest =>
    normalize d isTokens available (if isSpace c then pushBlank isTokens acc else c :: acc) rest
  | .bareReturn :: rest => normalize d isTokens available (pushBlank isTokens acc) rest
  | cs => .error ⟨.invalidToken, some cs⟩
  termination_by cs.length + available.size
  decreasing_by
    · simp only [List.length_cons]; omega
    · have := length_of_scanReference _h; simp only [List.length_cons]; omega
    · have := length_of_scanReference _h; simp only [List.length_cons]; omega
    · have := size_of_takeEntity?_text _hn; simp only [entityGlyphs, List.length_map]; omega
    · have := length_of_scanReference _h; simp only [List.length_cons]; omega
    · have := length_of_scanReference _h; simp only [List.length_cons]; omega
    · simp only [List.length_cons]; omega
    · simp only [List.length_cons]; omega

/-- **The value of an attribute**; a list of tokens has no blank at its end. -/
def attributeValue (d : Doctype) (isTokens : Bool) (cs : List Glyph) : Except ValueFault String :=
  match normalize d isTokens d.entities [] cs with
  | .error fault => .error fault
  | .ok acc =>
    .ok (String.ofList (if isTokens then acc.dropWhile (· == ' ') else acc).reverse)

/-! ## Entity values -/

/-- **The replacement text of a declared entity**: character references are replaced, references to
entities stay, and line ends become line feeds. -/
def entityText (cs : List Glyph) : Except ValueFault (List Char) :=
  match cs with
  | [] => .ok []
  | .char '%' :: rest =>
    match scanName rest with
    | .ok (_, .char ';' :: _) => .error ⟨.parameterReference, some cs⟩
    | .ok (_, []) => .error ⟨.invalidToken, some cs⟩
    | .ok (_, rest) => .error ⟨.invalidToken, some rest⟩
    | .error (.invalid rest) => .error ⟨.invalidToken, some rest⟩
    | .error _ => .error ⟨.invalidToken, some cs⟩
  | .char '&' :: after =>
    match _h : scanReference after with
    | .error (.invalid rest) => .error ⟨.invalidToken, some rest⟩
    | .error _ => .error ⟨.invalidToken, some cs⟩
    | .ok (.character code, rest) =>
      match referenced? code with
      | none => .error ⟨.badCharacterReference, some cs⟩
      | some c =>
        match entityText rest with
        | .error fault => .error fault
        | .ok text => .ok (c :: text)
    | .ok (.entity name, rest) =>
      match entityText rest with
      | .error fault => .error fault
      | .ok text => .ok ('&' :: name.toList ++ ';' :: text)
  | .char '\r' :: .char '\n' :: rest =>
    match entityText rest with
    | .error fault => .error fault
    | .ok text => .ok ('\n' :: text)
  | .char c :: rest =>
    match entityText rest with
    | .error fault => .error fault
    | .ok text => .ok ((if c == '\r' then '\n' else c) :: text)
  | cs => .error ⟨.invalidToken, some cs⟩
  termination_by cs.length
  decreasing_by
    · exact Nat.lt_succ_of_lt (length_of_scanReference _h)
    · exact Nat.lt_succ_of_lt (length_of_scanReference _h)
    · exact Nat.lt_succ_of_lt (Nat.lt_succ_self _)
    · exact Nat.lt_succ_self _

end StationNaming.Xml
