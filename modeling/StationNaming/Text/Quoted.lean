import StationNaming.Unicode.Printable
/-!
# Quoted text

How a text is shown between quotes in a message or a record's one-line form.

**What is exact.** The quotes are single unless the text holds a single quote and no double one.
Inside, a backslash and the quote in use are escaped, tab, line feed and carriage return are `\t`,
`\n`, `\r`, and every other character that is not printable is its code point in two, four
or eight lower-case hexadecimal digits after `\x`, `\u` or `\U`.
-/

namespace StationNaming.Text

open StationNaming.Unicode (isPrintable)

/-! ## Characters -/

/-- The lowest `width` hexadecimal digits of a number. -/
def hexDigits (width n : Nat) : List Char :=
  (List.range width).reverse.map fun i => Nat.digitChar ((n >>> (4 * i)) % 16)

@[simp] theorem length_hexDigits (width n : Nat) : (hexDigits width n).length = width := by
  simp [hexDigits]

/-- **A character inside quotes** of the kind `q`. -/
def quoteChar (q c : Char) : List Char :=
  if c == q || c == '\\' then ['\\', c]
  else if c == '\t' then ['\\', 't']
  else if c == '\n' then ['\\', 'n']
  else if c == '\r' then ['\\', 'r']
  else if isPrintable c then [c]
  else if c.toNat ≤ 0xFF then '\\' :: 'x' :: hexDigits 2 c.toNat
  else if c.toNat ≤ 0xFFFF then '\\' :: 'u' :: hexDigits 4 c.toNat
  else '\\' :: 'U' :: hexDigits 8 c.toNat

/-! ## Texts -/

/-- The quote a text is shown in: single, unless only a double one saves an escape. -/
def quoteFor (s : String) : Char :=
  if s.toList.contains '\'' && !s.toList.contains '"' then '"' else '\''

/-- **A text in quotes.** -/
def quoted (s : String) : String :=
  let q := quoteFor s
  String.ofList (q :: s.toList.flatMap (quoteChar q) ++ [q])

/-- An optional text in quotes; an absent one is the word `None`. -/
def quotedOption : Option String → String
  | none => "None"
  | some s => quoted s

example : quoted "REL670" = "'REL670'" := by decide +kernel
example : quoted "it's" = "\"it's\"" := by decide +kernel

end StationNaming.Text
