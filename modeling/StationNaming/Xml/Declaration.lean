import StationNaming.Xml.Fault
/-!
# The XML declaration

The declaration at the start of a document gives a version, and may name the encoding and say
whether the document stands alone.

**What is exact.** The parts come in this order, each as a name, an equals sign and a quoted value
of letters, digits, dots, dashes and underscores. The version may have any such value. A fault is
placed at the first glyph that does not fit.
-/

namespace StationNaming.Xml

/-- One part of the declaration, with the places of its name and value. -/
structure DeclarationPart where
  name : String
  nameAt : List Glyph
  value : String
  valueAt : List Glyph
  rest : List Glyph
  deriving Repr

/-- Whether a character may stand in a value. -/
def isValueChar (c : Char) : Bool :=
  ('a' ≤ c && c ≤ 'z') || ('A' ≤ c && c ≤ 'Z') || ('0' ≤ c && c ≤ '9') || c == '.' || c == '-' ||
    c == '_'

/-- The name of a part up to the equals sign or white space. -/
def spanPartName : List Glyph → List Char × List Glyph
  | .char c :: cs =>
    if c == '=' || isSpace c || 0x80 ≤ c.toNat then ([], .char c :: cs)
    else (c :: (spanPartName cs).1, (spanPartName cs).2)
  | cs => ([], cs)

/-- The value of a part and what follows its closing quote, or where it goes wrong. -/
def scanPartValue (quote : Char) : List Glyph → Except (List Glyph) (List Char × List Glyph)
  | .char c :: cs =>
    if c == quote then .ok ([], cs)
    else if isValueChar c then
      match scanPartValue quote cs with
      | .error rest => .error rest
      | .ok (value, rest) => .ok (c :: value, rest)
    else .error (.char c :: cs)
  | cs => .error cs

/-- Whether white space comes next. -/
def startsWithSpace : List Glyph → Bool
  | .char c :: _ => isSpace c
  | _ => false

/-- **The next part**, none at the end, or where it goes wrong. -/
def scanPart (cs : List Glyph) : Except (List Glyph) (Option DeclarationPart) :=
  if cs.isEmpty then .ok none
  else if !startsWithSpace cs then .error cs
  else
    let nameAt := dropSpace cs
    if nameAt.isEmpty then .ok none
    else
      let (name, rest) := spanPartName nameAt
      match dropSpace rest with
      | .char '=' :: rest' =>
        if name.isEmpty then .error rest
        else
          match dropSpace rest' with
          | .char quote :: valueAt =>
            if quote == '"' || quote == '\'' then
              match scanPartValue quote valueAt with
              | .error rest => .error rest
              | .ok (value, rest) =>
                .ok (some ⟨String.ofList name, nameAt, String.ofList value, valueAt, rest⟩)
            else .error (.char quote :: valueAt)
          | rest => .error rest
      | rest => .error rest

/-- **What a declaration says**: the encoding with its place, and whether the document stands
alone. -/
structure Declaration where
  encoding : Option (String × List Glyph) := none
  standalone : Bool := false
  deriving Repr

/-- The part about standing alone, and the end of the declaration. -/
def readStandalone (d : Declaration) (part : DeclarationPart) :
    Except (List Glyph) Declaration :=
  if part.name != "standalone" then .error part.nameAt
  else if part.value != "yes" && part.value != "no" then .error part.valueAt
  else
    match dropSpace part.rest with
    | [] => .ok { d with standalone := part.value == "yes" }
    | rest => .error rest

/-- The parts after the version. -/
def readAfterVersion (part : DeclarationPart) : Except (List Glyph) Declaration :=
  if part.name != "encoding" then readStandalone {} part
  else if !((part.value.toList.head?.map Char.isAlpha).getD false) then .error part.valueAt
  else
    let d : Declaration := { encoding := some (part.value, part.valueAt) }
    match scanPart part.rest with
    | .error rest => .error rest
    | .ok none => .ok d
    | .ok (some part) => readStandalone d part

/-- **Reading a declaration** from the glyphs between its name and its end. -/
def Declaration.read (content : List Glyph) : Except (List Glyph) Declaration :=
  match scanPart content with
  | .error rest => .error rest
  | .ok none => .error content
  | .ok (some part) =>
    if part.name != "version" then .error part.nameAt
    else
      match scanPart part.rest with
      | .error rest => .error rest
      | .ok none => .ok {}
      | .ok (some part) => readAfterVersion part

end StationNaming.Xml
