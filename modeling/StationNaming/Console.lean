import StationNaming.Text.Markup
/-!
# The console

What a command shows: lines of markup, and tables of markup cells with an optional caption.
-/

namespace StationNaming

/-- **A table** on the console. -/
structure Table where
  columns : List String
  rows : List (List String)
  caption : Option String := none
  deriving DecidableEq, Repr

/-- **One thing shown** on the console. -/
inductive Shown where
  | line (markup : String)
  | table (t : Table)
  deriving DecidableEq, Repr

namespace Shown

/-- Text in a style. -/
def styled (style text : String) : String := "[" ++ style ++ "]" ++ text ++ "[/" ++ style ++ "]"

/-- **The line of an error**; its wording is escaped. -/
def error (wording : String) : Shown :=
  .line (styled "bold red" "Error:" ++ " " ++ Text.escapeMarkup wording)

end Shown

/-! ## Plain text -/

/-- A cell without its styles, filled with blanks up to a width. -/
def plainCell (width : Nat) (cell : String) : String :=
  let text := Text.plainMarkup cell
  text ++ String.ofList (List.replicate (width - text.length) ' ')

/-- The widths of the columns of some rows. -/
def columnWidths (rows : List (List String)) : List Nat :=
  rows.foldl (fun widths row =>
    let own := row.map fun cell => (Text.plainMarkup cell).length
    (List.range (max widths.length own.length)).map fun i =>
      max (widths.getD i 0) (own.getD i 0)) []

/-- **The lines of a table** without styles, its caption last. -/
def Table.plainLines (t : Table) : List String :=
  let rows := t.columns :: t.rows
  let widths := columnWidths rows
  rows.map (fun row => "  ".intercalate (List.zipWith plainCell widths row)) ++
    t.caption.toList.map Text.plainMarkup

/-- **What is shown, as lines of plain text.** -/
def Shown.plainLines : Shown → List String
  | .line markup => [Text.plainMarkup markup]
  | .table t => t.plainLines

end StationNaming
