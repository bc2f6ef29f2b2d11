/-!
# Filled-in forms

Records, renamings and edit results can be built from a form: named fields with values of any kind.
Reading a form checks every field and collects all faults, in the order of the declared fields.

**What is exact.** A text field takes a text and nothing else, an optional one also takes the null
value; fields that are not declared are ignored. A flag also takes the numbers 0 and 1 and the usual
words for yes and no in any case.
-/

namespace StationNaming

/-! ## Values and faults -/

/-- A value put into a field. -/
inductive FieldValue where
  | null
  | flag (b : Bool)
  | number (n : Int)
  | text (s : String)
  | compound
  deriving DecidableEq, Repr

/-- What can be wrong with a field. -/
inductive Fault where
  | missing
  | notText
  | notListed
  | notFlag
  | unreadableFlag
  deriving DecidableEq, Repr

/-- The code of a fault. -/
def Fault.code : Fault → String
  | .missing => "missing"
  | .notText => "string_type"
  | .notListed => "enum"
  | .notFlag => "bool_type"
  | .unreadableFlag => "bool_parsing"

/-- A fault and the field that has it. -/
structure FieldFault where
  field : String
  fault : Fault
  deriving DecidableEq, Repr

/-- The faults of a form in one line. -/
def FieldFault.summary (faults : List FieldFault) : String :=
  ",".intercalate (faults.map fun f => f.field ++ ":" ++ f.fault.code)

/-! ## Reading with all faults collected -/

/-- **The result of reading a form**: a value, or every fault that was found. -/
inductive Checked (α : Type) where
  | ok (value : α)
  | faulty (faults : List FieldFault)

namespace Checked

/-- Changes the value that was read. -/
def map {α β : Type} (f : α → β) : Checked α → Checked β
  | .ok a => .ok (f a)
  | .faulty fs => .faulty fs

/-- Reads two parts; the faults of both are kept, the first part's in front. -/
def both {α β : Type} (f : Checked (α → β)) (a : Checked α) : Checked β :=
  match f, a with
  | .ok f, .ok a => .ok (f a)
  | .ok _, .faulty fs => .faulty fs
  | .faulty fs, .ok _ => .faulty fs
  | .faulty fs, .faulty gs => .faulty (fs ++ gs)

/-- The value, or the faults as an error. -/
def toExcept {α : Type} : Checked α → Except (List FieldFault) α
  | .ok a => .ok a
  | .faulty fs => .error fs

end Checked

instance : Functor Checked := ⟨Checked.map, Checked.map ∘ Function.const _⟩

instance : Seq Checked := ⟨fun f a => Checked.both f (a ())⟩

instance : Pure Checked := ⟨Checked.ok⟩

/-! ## Fields -/

/-- **A form**: field names with their values. -/
abbrev Form := List (String × FieldValue)

namespace Form

/-- A field with a fault. -/
def fault {α : Type} (field : String) (f : Fault) : Checked α := .faulty [⟨field, f⟩]

/-- A required text. -/
def text (form : Form) (field : String) : Checked String :=
  match form.lookup field with
  | none => fault field .missing
  | some (.text s) => .ok s
  | some _ => fault field .notText

/-- A text that may be left out. -/
def textOr (form : Form) (field default : String) : Checked String :=
  match form.lookup field with
  | none => .ok default
  | some _ => form.text field

/-- A text that may be left out or null. -/
def optionalText (form : Form) (field : String) : Checked (Option String) :=
  match form.lookup field with
  | none | some .null => .ok none
  | some (.text s) => .ok (some s)
  | some _ => fault field .notText

/-- A code out of a fixed list, read by `ofCode?`. -/
def listed {α : Type} (form : Form) (field : String) (ofCode? : String → Option α) : Checked α :=
  match form.lookup field with
  | none => fault field .missing
  | some (.text s) => ((ofCode? s).map Checked.ok).getD (fault field .notListed)
  | some _ => fault field .notListed

/-- The words that stand for a flag. -/
def flagWord? (s : String) : Option Bool :=
  let word := s.map Char.toLower
  if ["1", "on", "t", "true", "y", "yes"].contains word then some true
  else if ["0", "off", "f", "false", "n", "no"].contains word then some false
  else none

/-- A required flag. -/
def flag (form : Form) (field : String) : Checked Bool :=
  match form.lookup field with
  | none => fault field .missing
  | some (.flag b) => .ok b
  | some (.number n) =>
    if n = 0 then .ok false else if n = 1 then .ok true else fault field .unreadableFlag
  | some (.text s) => ((flagWord? s).map Checked.ok).getD (fault field .unreadableFlag)
  | some .null | some .compound => fault field .notFlag

/-- A flag that may be left out. -/
def flagOr (form : Form) (field : String) (default : Bool) : Checked Bool :=
  match form.lookup field with
  | none => .ok default
  | some _ => form.flag field

end Form

end StationNaming
