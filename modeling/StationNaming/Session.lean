import StationNaming.Ied
import StationNaming.Renaming
import StationNaming.Search.Query
import StationNaming.Unicode.CaseFold
import StationNaming.Unicode.CodeOrder
import StationNaming.View
/-!
# Rename sessions

A session holds the IEDs of one station file, each with the name proposed for it. The proposed
names are judged together, since a name must be unique among all of them, so every edit judges
every item again.

**What is exact.** The verdicts, the pending marks and the session-wide validity are kept in the
session and brought up to date by each edit; an edit of an unknown identity changes nothing. Views
are ordered by the case folding of the descriptive text, compared code point by code point, and
items with equal keys stay in load order. A session that cannot be committed commits to nothing.
-/

namespace StationNaming

open Search (Query)

/-! ## Items -/

/-- **An item of a session**: an IED, the name proposed for it, the verdict on that name, and
whether the item is marked as a pending rename. -/
structure Item where
  ied : Ied
  current : String
  verdict : Verdict := .valid
  pending : Bool := false
  deriving DecidableEq, Repr

namespace Item

/-- The original name, by which the item is found. -/
def identity (i : Item) : String := i.ied.name

/-- Whether the proposed name differs from the original one. -/
def isChanged (i : Item) : Bool := i.current != i.ied.name

/-- Whether the proposed name may stand. -/
def isValid (i : Item) : Bool := i.verdict.isValid

/-- The text a search looks at. -/
def searchableText (i : Item) : String := i.ied.searchableText i.current

/-- What is shown of the item under an optional query. -/
def view (query : Option Query) (i : Item) : View where
  identity := i.identity
  current := i.current
  verdict := i.verdict
  isChanged := i.isChanged
  visible := query.all (·.test i.searchableText)
  firstLine := i.ied.firstLine
  secondLine := i.ied.secondLine

/-- The item with a new proposal, marked as pending if it now differs from its original name. -/
def propose (value : String) (i : Item) : Item :=
  { i with current := value, pending := value != i.ied.name }

end Item

/-! ## Sessions -/

/-- **A rename session**: its items in load order, and whether all of them are valid. -/
structure Session where
  items : List Item
  allValid : Bool
  deriving DecidableEq, Repr

namespace Session

/-- How many of the items hold a name. -/
def holders (items : List Item) (name : String) : Nat := (items.map (·.current)).count name

/-- **Judging all items together.** -/
def judged (items : List Item) : Session :=
  let judgedItems := items.map fun i =>
    { i with verdict := judge i.current (holders items i.current) }
  ⟨judgedItems, judgedItems.all (·.isValid)⟩

/-- The first name that an earlier record has already. -/
def firstDuplicate? (seen : List String) : List Ied → Option String
  | [] => none
  | r :: rs => if seen.contains r.name then some r.name else firstDuplicate? (r.name :: seen) rs

/-- A session in which every IED keeps its name. -/
def ofRecords (records : List Ied) : Session :=
  judged (records.map fun r => { ied := r, current := r.name })

/-- The item with an identity. -/
def find? (s : Session) (identity : String) : Option Item :=
  s.items.find? (·.identity == identity)

/-- **Proposing a name** for one item and judging all of them again. -/
def propose (s : Session) (identity value : String) : Session :=
  judged (s.items.map fun i => if i.identity = identity then i.propose value else i)

/-- The identities with a pending rename, in load order. -/
def pending (s : Session) : List String := (s.items.filter (·.pending)).map (·.identity)

/-- **Whether the session can be committed**: something is pending and every item is valid. -/
def isCommittable (s : Session) : Bool := !s.pending.isEmpty && s.allValid

/-- **The renamings to apply**, in load order; none if the session cannot be committed. -/
def commit (s : Session) : List Renaming :=
  if s.isCommittable then (s.items.filter (·.pending)).map fun i => ⟨i.identity, i.current⟩ else []

/-! ## Display order -/

/-- The folded key an item is ordered by. -/
def foldedKey (i : Item) : List Nat := Unicode.foldText i.ied.sortKey

/-- The items in display order. -/
def displayOrder (items : List Item) : List Item :=
  items.mergeSort fun i j => Unicode.codeLe (foldedKey i) (foldedKey j)

/-- **The views of a session**, in display order. -/
def views (s : Session) (query : Option Query) : List View :=
  (displayOrder s.items).map (·.view query)

end Session

end StationNaming
