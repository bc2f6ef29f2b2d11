import StationNaming.Session
/-!
# The editor

The editor holds at most one rename session. Loading starts a new session in place of the old one,
closing discards it, and every other operation needs one.

**What is exact.** Each operation gives either a result or a cause of failure; an operation that
fails leaves the editor as it was. Two records with one name cannot be loaded, and the first
repeated name is the one reported.
-/

namespace StationNaming

open Search (Query)

/-! ## Causes of failure -/

/-- **Why an operation of the editor fails.** -/
inductive EditError where
  | noSession
  | duplicateName (name : String)
  | unknownName (name : String)
  deriving DecidableEq, Repr

/-- The wording of a failure. -/
def EditError.message : EditError → String
  | .noSession => "No rename session loaded. Call `load_session` first."
  | .duplicateName name =>
    "Found duplicate IED name '" ++ name ++ "'. IED names must be unique in the source."
  | .unknownName name => "Unknown IED '" ++ name ++ "'."

/-! ## Sessions -/

namespace Session

/-- **Starting a session** over a list of records. -/
def load (records : List Ied) : Except EditError Session :=
  match firstDuplicate? [] records with
  | some name => .error (.duplicateName name)
  | none => .ok (ofRecords records)

/-- **Editing one item**: the session afterwards, and what became of the item. -/
def edit (s : Session) (identity value : String) : Except EditError (Session × EditResult) :=
  match s.find? identity with
  | none => .error (.unknownName identity)
  | some _ =>
    let s' := s.propose identity value
    match s'.find? identity with
    | none => .error (.unknownName identity)
    | some i => .ok (s', ⟨identity, value, i.verdict, i.isChanged, s'.allValid⟩)

end Session

/-! ## Operations -/

/-- **An editor**, with the session it holds. -/
structure Editor where
  session : Option Session := none
  deriving DecidableEq, Repr

namespace Editor

/-- The session, if one is loaded. -/
def require (e : Editor) : Except EditError Session :=
  match e.session with
  | some s => .ok s
  | none => .error .noSession

/-- Starting a session over a list of records, in place of the one before. -/
def load (_e : Editor) (records : List Ied) : Except EditError Editor :=
  return ⟨some (← Session.load records)⟩

/-- Discarding the session and all edits in it. -/
def close (_e : Editor) : Editor := ⟨none⟩

/-- The item with an identity. -/
def item (e : Editor) (identity : String) : Except EditError Item := do
  let s ← e.require
  match s.find? identity with
  | some i => .ok i
  | none => .error (.unknownName identity)

/-- Editing one item: the editor afterwards, and what became of the item. -/
def propose (e : Editor) (identity value : String) : Except EditError (Editor × EditResult) := do
  let (s, result) ← (← e.require).edit identity value
  return (⟨some s⟩, result)

/-- Whether every item is valid. -/
def allValid (e : Editor) : Except EditError Bool := return (← e.require).allValid

/-- The identities with a pending rename. -/
def pending (e : Editor) : Except EditError (List String) := return (← e.require).pending

/-- Whether the session can be committed. -/
def isCommittable (e : Editor) : Except EditError Bool := return (← e.require).isCommittable

/-- The renamings to apply. -/
def commit (e : Editor) : Except EditError (List Renaming) := return (← e.require).commit

/-- The views of the session. -/
def views (e : Editor) (query : Option Query) : Except EditError (List View) :=
  return (← e.require).views query

end Editor

end StationNaming
