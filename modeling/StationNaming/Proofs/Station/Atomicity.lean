import StationNaming.Proofs.Keyed
import StationNaming.Proofs.Station.Acceptance
/-!
# Renaming in place

A document may also be renamed in place: one renaming after the other is looked up, and then one
name after the other is written. A failure could then leave a document that is renamed in part.

**What is exact.** `run_renameInPlace` says that renaming in place comes to the same as `rename`,
and that a document which refuses a list of renamings is left as it was. `rename_all_or_nothing`
says when it refuses: for every tree and every list, also where several IEDs carry one name, where
an IED has none, and where an earlier renaming would bring or take the name that a later one asks
for.
-/

namespace StationNaming.Station

open Xml (Element)

/-! ## In place -/

/-- **Operations on a document in place**: they may fail, and the document is then what it was made
into so far. -/
abbrev InPlace := EStateM String Station

/-- Entering IEDs with their indices by the names they carry; a later one takes the place of an
earlier one. -/
def enter (found : List (String × Nat)) : List (Element × Nat) → List (String × Nat)
  | [] => found
  | (e, i) :: ieds =>
    match e.attribute? "name" with
    | some name => enter (Keyed.set name i found) ieds
    | none => enter found ieds

/-- The IEDs of a document by name. -/
def byName (s : Station) : List (String × Nat) :=
  enter [] (s.root.children.zipIdx.filter fun x => isIed x.1)

/-- Resolving a renaming by the IEDs found before, and by the references that the document has
now. -/
def resolveBy (ieds : List (String × Nat)) (op : Renaming) : InPlace Resolved := do
  match ieds.lookup op.old with
  | none => throw (notFound op.old)
  | some index => return ⟨op.new, index, (← get).references op.old⟩

/-- Changing the element at a path. -/
def changeAt (path : Element.Path) (f : Element → Element) : InPlace Unit :=
  modify fun s => { s with root := s.root.modifyAt path f }

/-- Writing a name at one reference after the other, and counting them. -/
def writeReferences (new : String) (updated : Nat) : List Reference → InPlace Nat
  | [] => return updated
  | ref :: refs => do
    changeAt ref.path (ref.site.write new)
    writeReferences new (updated + 1) refs

/-- Writing one resolved renaming after the other, and counting the references. -/
def writeResolved (updated : Nat) : List Resolved → InPlace Nat
  | [] => return updated
  | r :: rs => do
    changeAt [r.index] (·.setAttribute "name" r.new)
    writeResolved (← writeReferences r.new updated r.references) rs

/-- **Renaming in place**, which gives the number of IEDs and of references that were written. -/
def renameInPlace (ops : List Renaming) : InPlace (Nat × Nat) := do
  let ieds := (← get).byName
  let resolved ← ops.mapM (resolveBy ieds)
  return (resolved.length, ← writeResolved 0 resolved)

/-! ## Looking up -/

/-- Under a name stands the last IED that carries it, or what stood there before. -/
theorem lookup_enter (found : List (String × Nat)) (ieds : List (Element × Nat)) (name : String) :
    (enter found ieds).lookup name =
      ((ieds.filter fun x => x.1.attribute? "name" == some name).getLast?.map (·.2)).or
        (found.lookup name) := by
  induction ieds generalizing found with
  | nil => rfl
  | cons x ieds ih =>
    obtain ⟨e, i⟩ := x
    rw [enter, List.filter_cons]
    cases hname : e.attribute? "name" with
    | none => simpa using ih found
    | some own =>
      simp only [ih, Keyed.lookup_set]
      by_cases hown : name = own
      · subst hown
        rw [if_pos rfl, if_pos (beq_self_eq_true _), List.getLast?_cons]
        cases (ieds.filter fun x => x.1.attribute? "name" == some name).getLast? <;> rfl
      · rw [if_neg hown, if_neg (by simpa using Ne.symm hown)]

/-- **The IEDs by name hold the one that a search finds.** -/
theorem lookup_byName (s : Station) (name : String) : s.byName.lookup name = s.indexOf? name := by
  rw [byName, lookup_enter, List.lookup_nil, Option.or_none, List.filter_filter, indexOf?]
  congr 3
  funext x
  exact Bool.and_comm _ _

/-- Resolving in place fails where resolving fails, and leaves the document as it is. -/
theorem run_resolveBy (s : Station) (op : Renaming) :
    (resolveBy s.byName op).run s =
      match s.resolve op with
      | .ok r => .ok r s
      | .error name => .error (notFound name) s := by
  rw [resolveBy, lookup_byName, resolve]
  cases s.indexOf? op.old <;> rfl

/-- **Resolving all renamings leaves the document as it is**, whether or not one fails. -/
theorem run_mapM_resolveBy (s : Station) (ops : List Renaming) :
    (ops.mapM (resolveBy s.byName)).run s =
      match ops.mapM s.resolve with
      | .ok resolved => .ok resolved s
      | .error name => .error (notFound name) s := by
  induction ops with
  | nil => rfl
  | cons op ops ih =>
    rw [List.mapM_cons, List.mapM_cons, EStateM.run_bind, run_resolveBy]
    cases s.resolve op with
    | error name => rfl
    | ok r =>
      simp only [EStateM.run_bind, ih]
      cases ops.mapM s.resolve <;> rfl

/-! ## Writing -/

/-- Writing at references never fails. -/
theorem run_writeReferences (new : String) (refs : List Reference) (updated : Nat) (s : Station) :
    (writeReferences new updated refs).run s =
      .ok (updated + refs.length) { s with
        root := refs.foldl (fun e ref => e.modifyAt ref.path (ref.site.write new)) s.root } := by
  induction refs generalizing updated s with
  | nil => rfl
  | cons ref refs ih =>
    have hstep : (writeReferences new updated (ref :: refs)).run s =
        (writeReferences new (updated + 1) refs).run
          { s with root := s.root.modifyAt ref.path (ref.site.write new) } := rfl
    rw [hstep, ih, List.length_cons, Nat.add_right_comm, Nat.add_assoc]
    rfl

/-- **Writing resolved renamings never fails**, and writes what they say. -/
theorem run_writeResolved (resolved : List Resolved) (updated : Nat) (s : Station) :
    (writeResolved updated resolved).run s =
      .ok (resolved.foldl (fun count r => count + r.references.length) updated)
        { s with root := resolved.foldl Resolved.write s.root } := by
  induction resolved generalizing updated s with
  | nil => rfl
  | cons r rs ih =>
    have hname : (changeAt [r.index] (·.setAttribute "name" r.new)).run s =
        .ok () { s with root := s.root.modifyAt [r.index] (·.setAttribute "name" r.new) } := rfl
    rw [writeResolved, EStateM.run_bind, hname]
    simp only [EStateM.run_bind, run_writeReferences, ih]
    rfl

/-- **Renaming in place comes to the same**; if it fails, the document is as it was. -/
theorem run_renameInPlace (s : Station) (ops : List Renaming) :
    (renameInPlace ops).run s =
      match s.rename ops with
      | .ok renamed => .ok (renamed.ieds, renamed.references) renamed.station
      | .error name => .error (notFound name) s := by
  have hget : (get : InPlace Station).run s = .ok s s := rfl
  rw [renameInPlace, rename, EStateM.run_bind, hget]
  simp only [EStateM.run_bind, run_mapM_resolveBy]
  cases ops.mapM s.resolve with
  | error name => rfl
  | ok resolved =>
    simp only [run_writeResolved]
    rfl

/-! ## What is refused -/

/-- **The reason for refusing a list of renamings** is the first old name that no IED carries. -/
theorem rename_eq_error_iff {s : Station} {ops : List Renaming} {name : String} :
    s.rename ops = .error name ↔ ∃ before op after, ops = before ++ op :: after ∧
      (∀ op' ∈ before, ∃ i, s.IedAt i op'.old) ∧ (¬ ∃ i, s.IedAt i op.old) ∧ name = op.old := by
  constructor
  · intro h
    have hmissing : ¬ ∀ op ∈ ops, ∃ i, s.IedAt i op.old := by
      intro hfound
      obtain ⟨r, hr⟩ := exists_rename_of_found hfound
      rw [hr] at h
      cases h
    obtain ⟨before, op, after, rfl, hbefore, hop⟩ := exists_first_missing hmissing
    rw [rename_of_missing hbefore hop] at h
    exact ⟨before, op, after, rfl, hbefore, hop, (Except.error.inj h).symm⟩
  · rintro ⟨before, op, after, rfl, hbefore, hop, rfl⟩
    exact rename_of_missing hbefore hop

/-- A list of renamings is refused exactly if some old name is missing. -/
theorem exists_rename_error_iff {s : Station} {ops : List Renaming} :
    (∃ name, s.rename ops = .error name) ↔ ∃ op ∈ ops, ¬ ∃ i, s.IedAt i op.old := by
  constructor
  · rintro ⟨name, h⟩
    obtain ⟨before, op, after, rfl, -, hop, -⟩ := rename_eq_error_iff.mp h
    exact ⟨op, by simp, hop⟩
  · rintro ⟨op, hmem, hop⟩
    obtain ⟨before, first, after, hops, hbefore, hfirst⟩ :=
      exists_first_missing fun hall : ∀ op ∈ ops, ∃ i, s.IedAt i op.old => hop (hall op hmem)
    exact ⟨first.old, rename_eq_error_iff.mpr ⟨before, first, after, hops, hbefore, hfirst, rfl⟩⟩

/-- **A list of renamings is written as a whole or not at all.** For every document and every list:
the list is refused exactly if some old name is not the name of an IED at the top, and the reason is
the first such name. Renamed in place, the document is then left as it was, with a message about
that name; otherwise it becomes the renamed one. -/
theorem rename_all_or_nothing (s : Station) (ops : List Renaming) :
    ((∃ name, s.rename ops = .error name) ↔ ∃ op ∈ ops, ¬ ∃ i, s.IedAt i op.old) ∧
    (∀ name, s.rename ops = .error name ↔ ∃ before op after, ops = before ++ op :: after ∧
      (∀ op' ∈ before, ∃ i, s.IedAt i op'.old) ∧ (¬ ∃ i, s.IedAt i op.old) ∧ name = op.old) ∧
    (∀ name, s.rename ops = .error name → (renameInPlace ops).run s = .error (notFound name) s) ∧
    ∀ renamed, s.rename ops = .ok renamed →
      (renameInPlace ops).run s = .ok (renamed.ieds, renamed.references) renamed.station := by
  refine ⟨exists_rename_error_iff, fun name => rename_eq_error_iff, ?_, ?_⟩
  · intro name h
    rw [run_renameInPlace, h]
  · intro renamed h
    rw [run_renameInPlace, h]

/-- A station with two IEDs of one name, one whose name is empty, and one without a name. -/
def unevenlyNamed : Station where
  root := .mk ⟨"", "SCL"⟩ [] "" [
    .mk ⟨"", "IED"⟩ [(⟨"", "name"⟩, "A")] "" [] "",
    .mk ⟨"", "IED"⟩ [(⟨"", "name"⟩, "")] "" [] "",
    .mk ⟨"u", "IED"⟩ [(⟨"", "name"⟩, "A")] "" [.mk ⟨"", "IEDName"⟩ [] " A " [] ""] "",
    .mk ⟨"", "IED"⟩ [(⟨"", "desc"⟩, "X")] "" [] ""] ""
  path := "uneven.scd"

/-- Renamings, the first of which would bring the name that the third one asks for. -/
def bringing : List Renaming := [⟨"A", "X"⟩, ⟨"", "B"⟩, ⟨"X", "Y"⟩, ⟨"Z", "W"⟩]

/-- Renamings, the first of which would take the name that the second one asks for. -/
def taking : List Renaming := [⟨"A", "B"⟩, ⟨"A", "C"⟩]

theorem rename_all_or_nothing_unevenlyNamed :
    (renameInPlace bringing).run unevenlyNamed =
        .error "IED 'X' not found in document." unevenlyNamed ∧
      ∃ renamed, unevenlyNamed.rename taking = .ok renamed ∧
        (renameInPlace taking).run unevenlyNamed = .ok (2, 2) renamed.station := by
  have hrefused : unevenlyNamed.rename bringing = .error "X" := rfl
  obtain ⟨-, -, hkept, -⟩ := rename_all_or_nothing unevenlyNamed bringing
  obtain ⟨-, -, -, hwritten⟩ := rename_all_or_nothing unevenlyNamed taking
  exact ⟨hkept "X" hrefused, _, rfl, hwritten _ rfl⟩

end StationNaming.Station
