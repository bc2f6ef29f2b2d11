import StationNaming.Form
/-!
# Renamings

One instruction to give an IED a new name. A committed session hands over a list of renamings, and
a station document applies them.
-/

namespace StationNaming

/-- **A renaming** of the IED called `old` to `new`. -/
structure Renaming where
  old : String
  new : String
  deriving DecidableEq, Repr

namespace Renaming

/-- The one-line form of a renaming; both names stand in it as they are. -/
def summary (r : Renaming) : String := "RenameOp('" ++ r.old ++ "' -> '" ++ r.new ++ "')"

/-- The renaming a form describes. -/
def ofForm (form : Form) : Checked Renaming :=
  Renaming.mk <$> form.text "old_name" <*> form.text "new_name"

end Renaming

end StationNaming
