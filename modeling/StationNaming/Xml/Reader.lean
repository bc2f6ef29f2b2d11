import StationNaming.Xml.Declaration
import StationNaming.Xml.Encoding
import StationNaming.Xml.Event
import StationNaming.Xml.Prolog
/-!
# Reading a document

A file is decoded, its prolog, root element and tail are read, and the events are collected.

**What is exact.** Reading is total: every list of bytes gives the events up to the first fault, and
that fault if there is one. The XML declaration counts only at the very start of the file; what
follows it is decoded under the encoding it names.
-/

namespace StationNaming.Xml

/-- **Why a document cannot be read**: it is not well-formed, or it is not read under the encoding
that it declares. -/
inductive ReadFailure where
  | refused (r : Refusal)
  | encoding (e : EncodingFailure)
  deriving DecidableEq, Repr

/-- **What was read**: the events in order, what stopped the reading, if anything did, and how many
bytes come before the place where it stopped. -/
structure Reading where
  events : List Event := []
  failure : Option ReadFailure := none
  taken : Nat := 0
  deriving Repr

/-! ## After the root element -/

/-- **The tail of a document** holds white space, comments and instructions only. -/
def readTail (isTorn : Bool) (cs : List Glyph) : Option Fault :=
  match cs with
  | [] => if isTorn then some ⟨.unclosedToken, []⟩ else none
  | g :: gs =>
    match _h : scanProlog (g :: gs) with
    | .error flaw => some (flaw.toFault (g :: gs))
    | .ok (.space, rest) => readTail isTorn rest
    | .ok (.ignored, rest) => readTail isTorn rest
    | .ok _ => some ⟨.junkAfterRoot, g :: gs⟩
  termination_by cs.length
  decreasing_by all_goals exact length_of_scanProlog _h rfl

/-! ## Before the root element -/

/-- **The prolog of a document**: what it declares, and the rest from the root element on. -/
def readProlog (isTorn : Bool) (st : PrologState) (cs : List Glyph) :
    Except Fault (Doctype × List Glyph) :=
  match cs with
  | [] => .error ⟨if isTorn then .unclosedToken else .noElement, []⟩
  | g :: gs =>
    match _h : scanProlog (g :: gs) with
    | .error flaw => .error (flaw.toFault (g :: gs))
    | .ok (token, rest) =>
      if _ht : token.isRootStart then
        if st.allowsRoot then .ok (st.doctype, g :: gs)
        else .error (PrologState.unexpected token (g :: gs))
      else
        match st.step token (g :: gs) with
        | .error fault => .error fault
        | .ok st' => readProlog isTorn st' rest
  termination_by cs.length
  decreasing_by exact length_of_scanProlog _h (by simpa using _ht)

/-! ## The whole document -/

/-- A document after decoding: all its glyphs, those from which reading starts, what is known from
before them, whether half a 16-bit unit is left over, and their encoding and the number of bytes
before them. -/
structure Decoded where
  whole : List Glyph
  body : List Glyph
  start : PrologState := {}
  isTorn : Bool := false
  encoding : Encoding := .utf8
  offset : Nat := 0
  deriving Repr

/-- How many bytes come before a rest of a document. -/
def Decoded.sizeBefore (d : Decoded) (rest : List Glyph) : Nat :=
  (d.body.take (d.body.length - rest.length)).foldl (fun size g => size + d.encoding.glyphSize g)
    d.offset

/-- Reading a decoded document. -/
def Decoded.read (d : Decoded) : Reading :=
  let refuse (events : List Event) (f : Fault) : Reading :=
    ⟨events.reverse, some (.refused (f.locate d.whole)), d.sizeBefore f.rest⟩
  match readProlog d.isTorn d.start d.body with
  | .error f => refuse [] f
  | .ok (doctype, cs) =>
    match readContent ⟨doctype, d.isTorn⟩ doctype.entities 0 {} cs with
    | .error f => refuse f.events f.fault
    | .ok (st, rest) =>
      match readTail d.isTorn rest with
      | some f => refuse st.events f
      | none => ⟨st.events.reverse, none, d.sizeBefore []⟩

/-- The glyphs that end an XML declaration. -/
def declarationEnd : List Glyph := [.char '?', .char '>']

/-- A document whose XML declaration ends before `rest`. -/
def Decoded.declared (d : Decoded) (bytes : List UInt8) (content rest : List Glyph) :
    Except ReadFailure Decoded :=
  let taken := d.offset + (d.body.length - rest.length) * d.encoding.unitSize
  let refuse (cause : Cause) (here : List Glyph) : Except ReadFailure Decoded :=
    .error (.refused (Fault.locate d.whole ⟨cause, here ++ declarationEnd ++ rest⟩))
  match Declaration.read content with
  | .error here => refuse .malformedDeclaration here
  | .ok declaration =>
    let start : PrologState :=
      { expect := .doctypeOrRoot, doctype := { standalone := declaration.standalone } }
    match declaration.encoding with
    | none => .ok { d with body := rest, start := start, offset := taken }
    | some (name, nameAt) =>
      match declaredEncoding d.encoding name with
      | .contradicted => refuse .incorrectEncoding nameAt
      | .foreign => refuse .unknownEncoding nameAt
      | .failed e => .error (.encoding e)
      | .found e =>
        if e = d.encoding then .ok { d with body := rest, start := start, offset := taken }
        else
          let (rest', isTorn) := e.decode (bytes.drop taken)
          -- Places are counted in the new encoding from the start, where each byte is one column.
          let before := glyphs ((bytes.take taken).map fun b => Char.ofNat b.toNat)
          .ok ⟨before ++ rest', rest', start, isTorn, e, taken⟩

/-- **Decoding a file** and reading its XML declaration. -/
def Decoded.ofBytes (bytes : List UInt8) : Except ReadFailure Decoded :=
  let detected := detect bytes
  if detected.isTorn then .ok { whole := [], body := [], isTorn := true }
  else
    let (whole, isTorn) := detected.encoding.decode bytes
    let d : Decoded :=
      { whole := whole, body := if detected.markSize = 0 then whole else whole.drop 1,
        isTorn := isTorn, encoding := detected.encoding, offset := detected.markSize }
    match scanProlog d.body with
    | .ok (.xmlDeclaration content, rest) => d.declared bytes content rest
    | _ => .ok d

/-- **Reading a file.** -/
def read (bytes : List UInt8) : Reading :=
  match Decoded.ofBytes bytes with
  | .error failure => { failure := some failure }
  | .ok d => d.read

end StationNaming.Xml
