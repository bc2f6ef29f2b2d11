import StationNaming.Unicode.Blank
/-!
# Tokens of search input

Search input is cut into tokens at blank characters. A token is a run of plain characters and quoted
sections; a section reaches from a quote to the next quote of either kind and may hold blanks.

**What is exact.** A quote that no later quote closes belongs to no token: it ends the token before
it and is passed over, and what follows it is cut as usual. Tokens keep their quotes here;
`unquote` drops them.
-/

namespace StationNaming.Search

open StationNaming.Unicode (isBlank)

/-- The two quote characters. -/
def isQuote (c : Char) : Bool := c == '"' || c == '\''

/-- Puts a token in front of later ones, unless it is empty. -/
def consToken (token : List Char) (later : List (List Char)) : List (List Char) :=
  if token.isEmpty then later else token :: later

/-- **Cutting text into tokens.** The first component is what is left of the token that is being
read, the second one holds the tokens after it; `quoted` says whether a quoted section is open. -/
def scanTokens (quoted : Bool) : List Char → List Char × List (List Char)
  | [] => ([], [])
  | c :: cs =>
    if isQuote c then
      if quoted then
        let (token, later) := scanTokens false cs
        (c :: token, later)
      else if cs.any isQuote then
        let (token, later) := scanTokens true cs
        (c :: token, later)
      else
        let (token, later) := scanTokens false cs
        ([], consToken token later)
    else if !quoted && isBlank c then
      let (token, later) := scanTokens false cs
      ([], consToken token later)
    else
      let (token, later) := scanTokens quoted cs
      (c :: token, later)

/-- **The tokens of a text**, in order and with their quotes. -/
def tokens (cs : List Char) : List (List Char) :=
  consToken (scanTokens false cs).1 (scanTokens false cs).2

/-- A token without its quotes. -/
def unquote (token : List Char) : List Char := token.filter (!isQuote ·)

@[simp] theorem tokens_nil : tokens [] = [] := rfl

example : tokens "x\"a b\"y 'c".toList = ["x\"a b\"y".toList, "c".toList] := by decide +kernel

end StationNaming.Search
