import StationNaming.Form
import StationNaming.Verdict
/-!
# Views and edit results

What a session shows of itself: one view per item for display surfaces, and the outcome of one
edit. Both are plain values that can also be built from a form.
-/

namespace StationNaming

/-! ## Edit results -/

/-- **The outcome of an edit** of one item. -/
structure EditResult where
  identity : String
  value : String
  verdict : Verdict
  isChanged : Bool
  allValid : Bool
  deriving DecidableEq, Repr

namespace EditResult

/-- Whether the proposed name may stand. -/
def isValid (r : EditResult) : Bool := r.verdict.isValid

/-- The edit result a form describes. -/
def ofForm (form : Form) : Checked EditResult :=
  EditResult.mk <$> form.text "identity" <*> form.text "value"
    <*> form.listed "reason" Verdict.ofCode? <*> form.flag "is_dirty" <*> form.flag "all_valid"

end EditResult

/-! ## Views -/

/-- **What is shown of an item.** -/
structure View where
  identity : String
  current : String
  verdict : Verdict
  isChanged : Bool
  visible : Bool := true
  firstLine : String := ""
  secondLine : String := ""
  deriving DecidableEq, Repr

namespace View

/-- Whether the proposed name may stand. -/
def isValid (v : View) : Bool := v.verdict.isValid

/-- The view a form describes. -/
def ofForm (form : Form) : Checked View :=
  View.mk <$> form.text "identity" <*> form.text "current_value"
    <*> form.listed "reason" Verdict.ofCode? <*> form.flag "is_dirty"
    <*> form.flagOr "visible" true <*> form.textOr "first_line" ""
    <*> form.textOr "second_line" ""

end View

end StationNaming
