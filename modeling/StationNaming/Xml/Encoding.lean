import StationNaming.Xml.CodePages
import StationNaming.Xml.Glyph
/-!
# From bytes to glyphs

The bytes of a file are decoded under an encoding that its first bytes show, and that its XML
declaration may replace.

**What is exact.** Without a byte order mark a file is UTF-16 if one of its first two bytes is zero,
and UTF-8 otherwise. A byte sequence that spells no character, or a character that may not stand in
a document, is one malformed glyph, and nothing after it is decoded. A character whose last bytes
are missing at the end of the file is a cut glyph; half of a 16-bit unit at the end is reported
apart.
-/

namespace StationNaming.Xml

/-! ## Encodings -/

/-- **An encoding of documents.** -/
inductive Encoding where
  | utf8
  | utf16 (littleEndian : Bool)
  | ascii
  | asciiWithoutTilde
  | latin1
  | page (upperHalf : String)
  deriving DecidableEq, Repr

/-- The least number of bytes for a character. -/
def Encoding.unitSize : Encoding → Nat
  | .utf16 _ => 2
  | _ => 1

/-- The glyph of a character: some control characters and the two non-characters at the end of the
basic plane may not stand in a document. -/
def glyphOf (c : Char) : Glyph :=
  let n := c.toNat
  if (n < 0x20 && n != 9 && n != 10 && n != 13) || n == 0xFFFE || n == 0xFFFF then .malformed
  else .char c

/-! ## Decoding -/

/-- Whether a byte continues a UTF-8 sequence. -/
def isTail (b : UInt8) : Bool := 0x80 ≤ b && b ≤ 0xBF

/-- The low six bits of a byte. -/
def sixBits (b : UInt8) : Nat := b.toNat % 64

/-- **UTF-8**; the glyphs so far are in `acc`, last one first. -/
def decodeUtf8 (acc : List Glyph) : List UInt8 → List Glyph
  | [] => acc.reverse
  | a :: rest =>
    if a < 0x80 then
      match glyphOf (Char.ofNat a.toNat) with
      | .char c => decodeUtf8 (.char c :: acc) rest
      | g => (g :: acc).reverse
    else if 0xC0 ≤ a && a ≤ 0xDF then
      match rest with
      | b :: rest =>
        if 0xC2 ≤ a && isTail b then
          decodeUtf8 (.char (Char.ofNat (a.toNat % 32 * 64 + sixBits b)) :: acc) rest
        else (.malformed :: acc).reverse
      | [] => (.cut :: acc).reverse
    else if 0xE0 ≤ a && a ≤ 0xEF then
      match rest with
      | b :: c :: rest =>
        if isTail b && isTail c && (a != 0xE0 || 0xA0 ≤ b) && (a != 0xED || b ≤ 0x9F) then
          match glyphOf (Char.ofNat (a.toNat % 16 * 4096 + sixBits b * 64 + sixBits c)) with
          | .char c => decodeUtf8 (.char c :: acc) rest
          | g => (g :: acc).reverse
        else (.malformed :: acc).reverse
      | _ => (.cut :: acc).reverse
    else if 0xF0 ≤ a && a ≤ 0xF4 then
      match rest with
      | b :: c :: d :: rest =>
        if isTail b && isTail c && isTail d && (a != 0xF0 || 0x90 ≤ b) && (a != 0xF4 || b ≤ 0x8F)
        then
          decodeUtf8 (.char (Char.ofNat
            (a.toNat % 8 * 262144 + sixBits b * 4096 + sixBits c * 64 + sixBits d)) :: acc) rest
        else (.malformed :: acc).reverse
      | _ => (.cut :: acc).reverse
    else (.malformed :: acc).reverse

/-- A 16-bit unit. -/
def unit16 (littleEndian : Bool) (a b : UInt8) : Nat :=
  if littleEndian then b.toNat * 256 + a.toNat else a.toNat * 256 + b.toNat

/-- **UTF-16**, and whether half a unit is left over. -/
def decodeUtf16 (littleEndian : Bool) (acc : List Glyph) : List UInt8 → List Glyph × Bool
  | [] => (acc.reverse, false)
  | [_] => (acc.reverse, true)
  | a :: b :: rest =>
    let n := unit16 littleEndian a b
    if 0xD800 ≤ n && n < 0xDC00 then
      match rest with
      | c :: d :: rest =>
        decodeUtf16 littleEndian
          (.char (Char.ofNat (0x10000 + n % 1024 * 1024 + unit16 littleEndian c d % 1024)) :: acc)
          rest
      | _ => ((.cut :: acc).reverse, false)
    else if 0xDC00 ≤ n && n < 0xE000 then ((.malformed :: acc).reverse, false)
    else
      match glyphOf (Char.ofNat n) with
      | .char c => decodeUtf16 littleEndian (.char c :: acc) rest
      | g => ((g :: acc).reverse, false)

/-- **One byte for one character**, by a map of the bytes. -/
def decodeBytes (glyph : UInt8 → Glyph) (acc : List Glyph) : List UInt8 → List Glyph
  | [] => acc.reverse
  | a :: rest =>
    match glyph a with
    | .char c => decodeBytes glyph (.char c :: acc) rest
    | g => (g :: acc).reverse

/-- A map of the bytes that has ASCII below 0x80. -/
def aboveAscii (upper : UInt8 → Glyph) (a : UInt8) : Glyph :=
  if a < 0x80 then glyphOf (Char.ofNat a.toNat) else upper a

/-- The glyph of a byte in ASCII. -/
def asciiGlyph : UInt8 → Glyph := aboveAscii fun _ => .malformed

/-- The glyph of a byte where the first 256 characters have one byte each. -/
def latinGlyph : UInt8 → Glyph := aboveAscii fun a => .char (Char.ofNat a.toNat)

/-- The glyph of a byte in a page. -/
def pageGlyph (page : Array Char) : UInt8 → Glyph :=
  aboveAscii fun a =>
    match page[a.toNat - 128]? with
    | some c => if c == '\ufffd' then .malformed else glyphOf c
    | none => .malformed

/-- **The glyphs of a file**, and whether half of a 16-bit unit is left over at its end. -/
def Encoding.decode (e : Encoding) (bytes : List UInt8) : List Glyph × Bool :=
  match e with
  | .utf8 => (decodeUtf8 [] bytes, false)
  | .utf16 littleEndian => decodeUtf16 littleEndian [] bytes
  | .ascii => (decodeBytes asciiGlyph [] bytes, false)
  | .asciiWithoutTilde =>
    (decodeBytes (fun a => if a == 0x7E then .malformed else asciiGlyph a) [] bytes, false)
  | .latin1 => (decodeBytes latinGlyph [] bytes, false)
  | .page upperHalf => (decodeBytes (pageGlyph upperHalf.toList.toArray) [] bytes, false)

/-- How many bytes a glyph takes that spells a character. -/
def Encoding.glyphSize (e : Encoding) : Glyph → Nat
  | .char c =>
    match e with
    | .utf8 => c.utf8Size
    | .utf16 _ => if c.toNat < 0x10000 then 2 else 4
    | _ => 1
  | _ => 0

/-! ## Detection -/

/-- What the first bytes show: the encoding, the number of bytes of the byte order mark, or that
the file ends before that is clear. -/
structure Detected where
  encoding : Encoding := .utf8
  markSize : Nat := 0
  isTorn : Bool := false
  deriving DecidableEq, Repr

/-- **Detecting the encoding of a file.** -/
def detect : List UInt8 → Detected
  | [] => {}
  | [a] => { isTorn := a == 0xFE || a == 0xFF || a == 0xEF || a == 0x00 }
  | a :: b :: rest =>
    if a == 0xFE && b == 0xFF then { encoding := .utf16 false, markSize := 2 }
    else if a == 0xFF && b == 0xFE then { encoding := .utf16 true, markSize := 2 }
    else if a == 0xEF && b == 0xBB && rest.isEmpty then { isTorn := true }
    else if a == 0xEF && b == 0xBB && rest.head? == some 0xBF then { markSize := 3 }
    else if a == 0 then { encoding := .utf16 false }
    else if b == 0 then { encoding := .utf16 true }
    else {}

/-! ## Declared encodings -/

/-- **Why a file is not read under the encoding that it declares**: there is no such encoding, it is
none of text, it has several bytes for a character, or no map of single bytes can be made of it. -/
inductive EncodingFailure where
  | unknown (name : String)
  | notText (name : String)
  | multiByte
  | unmapped (name reason : String)
  | unmappedByte
  deriving DecidableEq, Repr

/-- The wording of a failure. -/
def EncodingFailure.message : EncodingFailure → String
  | .unknown name => "unknown encoding: " ++ name
  | .notText name =>
    "'" ++ String.ofList (name.toList.take 400) ++
      "' is not a text encoding; use codecs.decode() to handle arbitrary codecs"
  | .multiByte => "multi-byte encodings are not supported"
  | .unmapped name reason =>
    "decoding with '" ++ name ++ "' codec failed (UnicodeError: " ++ reason ++ ")"
  | .unmappedByte =>
    "'ascii' codec can't decode byte 0x80 in position 82: ordinal not in range(128)"

/-- What a declared encoding means for a file. -/
inductive DeclaredEncoding where
  | found (e : Encoding)
  | contradicted
  | foreign
  | failed (e : EncodingFailure)
  deriving DecidableEq, Repr

/-- The encodings that are known by themselves. -/
def standardEncoding? (name : String) : Option (Option Encoding) :=
  match name.map Char.toUpper with
  | "UTF-8" => some (some .utf8)
  | "US-ASCII" => some (some .ascii)
  | "ISO-8859-1" => some (some .latin1)
  | "UTF-16" => some none
  | "UTF-16BE" => some (some (.utf16 false))
  | "UTF-16LE" => some (some (.utf16 true))
  | _ => none

/-- What an encoding means that is known by its name only. -/
def namedEncoding (name : String) : DeclaredEncoding :=
  match encodingNamed? name with
  | none => .failed (.unknown name)
  | some "hz" => .found .asciiWithoutTilde
  | some "idna" => .failed (.unmapped name "Unsupported error handling replace")
  | some "punycode" => .failed .unmappedByte
  | some "undefined" => .failed (.unmapped name "undefined encoding")
  | some e =>
    if asciiEncodings.contains e then .found .ascii
    else if latinEncodings.contains e then .found .latin1
    else if multiByteEncodings.contains e then .failed .multiByte
    else if foreignEncodings.contains e then .foreign
    else if nonTextEncodings.contains e then .failed (.notText name)
    else ((codePages.lookup e).map fun page => .found (.page page)).getD (.failed (.unknown name))

/-- **A declared encoding** in a file that has been read as `current` so far. A declaration must
agree with the size of the units that it is written in; plain UTF-16 leaves the order of the bytes
open. -/
def declaredEncoding (current : Encoding) (name : String) : DeclaredEncoding :=
  match standardEncoding? name with
  | some none => if current.unitSize = 2 then .found current else .contradicted
  | some (some e) =>
    if e.unitSize != current.unitSize then .contradicted
    else if e.unitSize = 2 && e != current then .contradicted
    else .found e
  | none => namedEncoding name

end StationNaming.Xml
