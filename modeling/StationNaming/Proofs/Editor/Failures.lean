import Mathlib.Data.List.Induction
import StationNaming.Proofs.Editor.Run
/-!
# How an editor fails

An operation of an editor fails for want of a session, for an identity that the session does not
have, or for a name that two records share. This module says for every operation when it does, and
that nothing has been done by then.

**What is exact.** `failures_exact` holds for every editor, reached or not. That nothing has been
done is shown of operations that change the editor in place, one part of it after the other, and may
fail in between (`act`); `run_act` says that they come to the same as the operations that give a new
editor.
-/

namespace StationNaming

open Search (Query)

/-! ## Names that two records share -/

namespace Session

/-- Records with new names are passed over in the search for a duplicate. -/
theorem firstDuplicate?_append {seen : List String} {before : List Ied} (rest : List Ied)
    (distinct : (before.map (·.name)).Nodup) (new : ∀ r ∈ before, r.name ∉ seen) :
    firstDuplicate? seen (before ++ rest) =
      firstDuplicate? ((before.map (·.name)).reverse ++ seen) rest := by
  induction before generalizing seen with
  | nil => rfl
  | cons r before ih =>
    obtain ⟨hr, hbefore⟩ := List.forall_mem_cons.mp new
    rw [List.map_cons, List.nodup_cons] at distinct
    have hnew : ∀ r' ∈ before, r'.name ∉ r.name :: seen := by
      intro r' hr' hmem
      rcases List.mem_cons.mp hmem with heq | hmem
      · exact distinct.1 (heq ▸ List.mem_map_of_mem hr')
      · exact hbefore r' hr' hmem
    have hstep : firstDuplicate? seen (r :: before ++ rest) =
        firstDuplicate? (r.name :: seen) (before ++ rest) := by simp [firstDuplicate?, hr]
    rw [hstep, ih distinct.2 hnew, List.map_cons, List.reverse_cons, List.append_assoc,
      List.singleton_append]

/-- Where names repeat, one repeats first. -/
theorem exists_first_repeated {records : List Ied} (h : ¬ (records.map (·.name)).Nodup) :
    ∃ before r after, records = before ++ r :: after ∧ (before.map (·.name)).Nodup ∧
      r.name ∈ before.map (·.name) := by
  induction records using List.reverseRecOn with
  | nil => exact absurd List.nodup_nil h
  | append_singleton records last ih =>
    by_cases hrecords : (records.map (·.name)).Nodup
    · refine ⟨records, last, [], rfl, hrecords, ?_⟩
      by_contra hlast
      refine h (Keyed.nodup_map_concat hrecords fun r hr heq => hlast ?_)
      exact heq ▸ List.mem_map_of_mem hr
    · obtain ⟨before, r, after, rfl, hbefore, hr⟩ := ih hrecords
      exact ⟨before, r, after ++ [last], by simp, hbefore, hr⟩

/-- **Records cannot be loaded exactly if a name repeats**, and the first one that does is the
reason. -/
theorem load_eq_error_iff {records : List Ied} {x : EditError} :
    load records = .error x ↔ ∃ before r after, records = before ++ r :: after ∧
      (before.map (·.name)).Nodup ∧ r.name ∈ before.map (·.name) ∧ x = .duplicateName r.name := by
  have hfirst : ∀ {before : List Ied} {r : Ied} {after : List Ied}, (before.map (·.name)).Nodup →
      r.name ∈ before.map (·.name) → load (before ++ r :: after) =
        .error (.duplicateName r.name) := by
    intro before r after hbefore hr
    have hfound : firstDuplicate? [] (before ++ r :: after) = some r.name := by
      rw [firstDuplicate?_append _ hbefore fun _ _ => List.not_mem_nil, List.append_nil,
        firstDuplicate?, if_pos (by simpa using hr)]
    rw [load, hfound]
  constructor
  · intro hload
    by_cases hdistinct : (records.map (·.name)).Nodup
    · rw [load_of_nodup hdistinct] at hload
      cases hload
    · obtain ⟨before, r, after, rfl, hbefore, hr⟩ := exists_first_repeated hdistinct
      rw [hfirst hbefore hr] at hload
      exact ⟨before, r, after, rfl, hbefore, hr, (Except.error.inj hload).symm⟩
  · rintro ⟨before, r, after, rfl, hbefore, hr, rfl⟩
    exact hfirst hbefore hr

/-- **Records cannot be loaded exactly if two of them have one name.** -/
theorem exists_load_error_iff {records : List Ied} :
    (∃ x, load records = .error x) ↔ ¬ (records.map (·.name)).Nodup := by
  constructor
  · rintro ⟨x, hload⟩ hdistinct
    rw [load_of_nodup hdistinct] at hload
    cases hload
  · intro h
    obtain ⟨name, hload⟩ := load_of_not_nodup h
    exact ⟨_, hload⟩

/-! ## Identities -/

theorem find?_eq_none_iff {s : Session} {identity : String} :
    s.find? identity = none ↔ identity ∉ s.items.map (·.identity) := by
  simp [find?]

/-- What is proposed for an item leaves it where it is. -/
theorem find?_propose (s : Session) (identity value : String) :
    ((s.propose identity value).find? identity).isSome = (s.find? identity).isSome := by
  rw [propose, find?, find?, judged, List.map_map, List.find?_map, Option.isSome_map]
  congr 2
  funext i
  simp only [Function.comp_apply]
  split_ifs <;> rfl

/-- **An edit fails exactly for an identity that the session does not have.** -/
theorem edit_eq_error_iff {s : Session} {identity value : String} {x : EditError} :
    s.edit identity value = .error x ↔
      identity ∉ s.items.map (·.identity) ∧ x = .unknownName identity := by
  have hafter := find?_propose s identity value
  rw [edit, ← find?_eq_none_iff]
  cases hfound : s.find? identity with
  | none => simp [eq_comm]
  | some i =>
    rw [hfound] at hafter
    obtain ⟨j, hj⟩ := Option.isSome_iff_exists.mp hafter
    simp [hj]

end Session

namespace Editor

/-! ## Answers -/

/-- **What an editor answers** to a step that succeeds. -/
inductive Answer where
  | done
  | edited (result : EditResult)
  | item (i : Item)
  | views (views : List View)
  | renamings (ops : List Renaming)
  | identities (names : List String)
  | truth (holds : Bool)
  deriving DecidableEq, Repr

/-- **Performing a step**: the editor after it and the answer, or why it fails. -/
def perform (e : Editor) : Step → Except EditError (Editor × Answer)
  | .load records => (e.load records).map fun e' => (e', .done)
  | .propose identity value =>
    (e.propose identity value).map fun (e', result) => (e', .edited result)
  | .close => .ok (e.close, .done)
  | .item identity => (e.item identity).map fun i => (e, .item i)
  | .views query => (e.views query).map fun vs => (e, .views vs)
  | .commit => e.commit.map fun ops => (e, .renamings ops)
  | .allValid => e.allValid.map fun b => (e, .truth b)
  | .pending => e.pending.map fun names => (e, .identities names)
  | .isCommittable => e.isCommittable.map fun b => (e, .truth b)

theorem perform_propose (s : Session) (identity value : String) :
    perform ⟨some s⟩ (.propose identity value) =
      (s.edit identity value).map fun edited => (⟨some edited.1⟩, .edited edited.2) := by
  show Except.map _ (s.edit identity value >>= fun edited => Except.ok _) = _
  cases s.edit identity value <;> rfl

theorem perform_item (s : Session) (identity : String) :
    perform ⟨some s⟩ (.item identity) =
      Except.map (fun i => (⟨some s⟩, .item i)) (match s.find? identity with
        | some i => .ok i
        | none => .error (.unknownName identity)) := rfl

/-- **The answers to a run of steps**, those that fail included. -/
def answers (e : Editor) : List Step → List (Except EditError Answer)
  | [] => []
  | step :: steps => (e.perform step).map (·.2) :: (e.after step).answers steps

/-- A step that only asks leaves the editor as it is, whatever the answer. -/
theorem getD_asked {α : Type} (e : Editor) (r : Except EditError α) (f : α → Answer) :
    ((r.map fun a => (e, f a)).map (·.1)).toOption.getD e = e := by
  cases r <;> rfl

/-- The editor after a step is the one that performing it gives, or the same one if it fails. -/
theorem after_eq (e : Editor) (step : Step) :
    e.after step = ((e.perform step).map (·.1)).toOption.getD e := by
  cases step with
  | load records =>
    rw [after, perform]
    cases e.load records <;> rfl
  | propose identity value =>
    rw [after, perform]
    cases e.propose identity value <;> rfl
  | close => rfl
  | item | views | commit | allValid | pending | isCommittable => exact (getD_asked e _ _).symm

/-! ## In place -/

/-- **Operations on an editor in place**: they may fail, and the editor is then what it was made
into so far. -/
abbrev InPlace := EStateM EditError Editor

/-- The session that is held. -/
def held : InPlace Session := do
  match (← get).session with
  | some s => return s
  | none => throw .noSession

/-- The item with an identity. -/
def seek (identity : String) : InPlace Item := do
  match (← held).find? identity with
  | some i => return i
  | none => throw (.unknownName identity)

/-- An item for each record, unless a record has the name of an earlier one. -/
def gather (items : List Item) : List Ied → InPlace (List Item)
  | [] => return items
  | r :: rs =>
    if (items.map (·.identity)).contains r.name then throw (.duplicateName r.name)
    else gather (items ++ [{ ied := r, current := r.name }]) rs

/-- Changing the item with an identity. -/
def change (identity : String) (f : Item → Item) : InPlace Unit := do
  let s ← held
  set ({ session := some { s with items := s.items.map fun i => if i.identity = identity then f i
        else i } } :
    Editor)

/-- Judging all items again. -/
def rejudge : InPlace Unit := do
  let s ← held
  set ({ session := some (Session.judged s.items) } : Editor)

/-- Writing a name, marking the item, and judging all items again. -/
def write (identity value : String) : InPlace Unit := do
  change identity fun i => { i with current := value }
  change identity fun i => { i with pending := i.isChanged }
  rejudge

/-- **Performing a step in place**, bit by bit. -/
def act : Step → InPlace Answer
  | .load records => do
    let items ← gather [] records
    set ({ session := some ⟨items, true⟩ } : Editor)
    rejudge
    return .done
  | .propose identity value => do
    let _ ← seek identity
    write identity value
    let i ← seek identity
    return .edited ⟨identity, value, i.verdict, i.isChanged, (← held).allValid⟩
  | .close => do
    set ({} : Editor)
    return .done
  | .item identity => return .item (← seek identity)
  | .views query => return .views ((← held).views query)
  | .commit => return .renamings (← held).commit
  | .allValid => return .truth (← held).allValid
  | .pending => return .identities (← held).pending
  | .isCommittable => return .truth (← held).isCommittable

/-- What performing a step amounts to when it is done in place: a step that fails has changed
nothing. -/
def settled (e : Editor) : Except EditError (Editor × Answer) →
    EStateM.Result EditError Editor Answer
  | .ok (e', a) => .ok a e'
  | .error x => .error x e

/-- **Gathering items** stops at the first name that was met before, and changes nothing. -/
theorem run_gather (e : Editor) {seen : List String} {items : List Item}
    (hseen : ∀ name, name ∈ seen ↔ name ∈ items.map (·.identity)) (records : List Ied) :
    (gather items records).run e =
      match Session.firstDuplicate? seen records with
      | some name => .error (.duplicateName name) e
      | none => .ok (items ++ records.map fun r => { ied := r, current := r.name }) e := by
  induction records generalizing seen items with
  | nil =>
    rw [gather, Session.firstDuplicate?, List.map_nil, List.append_nil]
    rfl
  | cons r rs ih =>
    rw [gather, Session.firstDuplicate?]
    by_cases hr : r.name ∈ seen
    · rw [if_pos (by simpa using (hseen r.name).mp hr), if_pos (by simpa using hr)]
      rfl
    · have hnext : ∀ name, name ∈ r.name :: seen ↔
          name ∈ (items ++ [({ ied := r, current := r.name } : Item)]).map (·.identity) := by
        intro name
        rw [List.mem_cons, hseen, List.map_append, List.mem_append, or_comm]
        exact or_congr_right List.mem_singleton.symm
      rw [if_neg (by simpa using mt (hseen r.name).mpr hr), if_neg (by simpa using hr), ih hnext,
        List.append_assoc]
      rfl

/-- Loading in place. -/
theorem run_act_load (e : Editor) (records : List Ied) :
    (act (.load records)).run e = e.settled (e.perform (.load records)) := by
  have hgather := @run_gather e [] [] (by simp) records
  rw [act, EStateM.run_bind, hgather, perform, Editor.load, Session.load]
  cases Session.firstDuplicate? [] records <;> rfl

/-- Writing a name in place is proposing it. -/
theorem run_write (s : Session) (identity value : String) :
    (write identity value).run ⟨some s⟩ = .ok () ⟨some (s.propose identity value)⟩ := by
  have hitems : (s.items.map fun i => if i.identity = identity then { i with current := value }
    else i).map
      (fun i => if i.identity = identity then { i with pending := i.isChanged } else i) =
        s.items.map fun i => if i.identity = identity then i.propose value else i := by
    rw [List.map_map]
    refine List.map_congr_left fun i _ => ?_
    by_cases hi : i.identity = identity
    · have hkept : ({ i with current := value } : Item).identity = identity := hi
      simp only [Function.comp_apply, if_pos hi, if_pos hkept]
      rfl
    · simp only [Function.comp_apply, if_neg hi]
  rw [Session.propose, ← hitems]
  rfl

theorem run_seek (s : Session) (identity : String) :
    (seek identity).run ⟨some s⟩ =
      match s.find? identity with
      | some i => .ok i ⟨some s⟩
      | none => .error (.unknownName identity) ⟨some s⟩ := by
  have hheld : held.run ⟨some s⟩ = .ok s ⟨some s⟩ := rfl
  rw [seek, EStateM.run_bind, hheld]
  simp only
  cases s.find? identity <;> rfl

/-- Proposing in place. -/
theorem run_act_propose (s : Session) (identity value : String) :
    (act (.propose identity value)).run ⟨some s⟩ =
      settled ⟨some s⟩ (perform ⟨some s⟩ (.propose identity value)) := by
  rw [act, EStateM.run_bind, run_seek, perform_propose, Session.edit]
  cases hfound : s.find? identity with
  | none => rfl
  | some i =>
    -- The item that was there is there afterwards.
    obtain ⟨j, hj⟩ : ∃ j, (s.propose identity value).find? identity = some j := by
      rw [← Option.isSome_iff_exists, Session.find?_propose, hfound]
      rfl
    simp only [EStateM.run_bind, run_write, run_seek, hj]
    rfl

/-- **Performed in place, a step comes to the same**; if it fails, the editor is as it was. -/
theorem run_act (e : Editor) (step : Step) : (act step).run e = e.settled (e.perform step) := by
  cases step with
  | load records => exact run_act_load e records
  | propose identity value =>
    obtain ⟨_ | s⟩ := e
    · rfl
    · exact run_act_propose s identity value
  | close => rfl
  | item identity =>
    obtain ⟨_ | s⟩ := e
    · rfl
    · rw [act, EStateM.run_bind, run_seek, perform_item]
      cases s.find? identity <;> rfl
  | views | commit | allValid | pending | isCommittable =>
    obtain ⟨_ | s⟩ := e <;> rfl

/-! ## What fails -/

/-- Whether a step needs a session: all but loading and closing do. -/
def Step.NeedsSession : Step → Prop
  | .load _ | .close => False
  | .propose _ _ | .item _ | .views _ | .commit | .allValid | .pending | .isCommittable => True

/-- The identity that a step asks for. -/
def Step.identity? : Step → Option String
  | .propose identity _ | .item identity => some identity
  | .load _ | .close | .views _ | .commit | .allValid | .pending | .isCommittable => none

/-- **What fails, and why**, told by what the editor holds. -/
inductive Step.Fails (e : Editor) : Step → EditError → Prop
  /-- Records are not loaded if one has the name of an earlier one; the first such record is the
  reason. -/
  | duplicateName {before after : List Ied} {r : Ied} (distinct : (before.map (·.name)).Nodup)
    (repeated : r.name ∈ before.map (·.name)) :
    Fails e (.load (before ++ r :: after)) (.duplicateName r.name)
  /-- Without a session nothing can be asked for. -/
  | noSession {step : Step} (needs : step.NeedsSession) (missing : e.session = none) :
    Fails e step .noSession
  /-- The session does not have the identity that is asked for. -/
  | unknownName {step : Step} {identity : String} {s : Session}
      (asks : step.identity? = some identity)
    (held : e.session = some s) (unknown : identity ∉ s.items.map (·.identity)) :
    Fails e step (.unknownName identity)

theorem map_eq_error_iff {α β : Type} {f : α → β} {r : Except EditError α} {x : EditError} :
    r.map f = .error x ↔ r = .error x := by
  cases r <;> simp [Except.map]

theorem perform_load_eq_error_iff {e : Editor} {records : List Ied} {x : EditError} :
    e.perform (.load records) = .error x ↔ Session.load records = .error x := by
  have hload : e.load records = (Session.load records).map fun s => ⟨some s⟩ := by
    rw [Editor.load]
    cases Session.load records <;> rfl
  rw [perform, map_eq_error_iff, hload, map_eq_error_iff]

theorem exists_asked_iff {step : Step} {identity : String} (h : step.identity? = some identity)
    {p : String → Prop} : (∃ other, step.identity? = some other ∧ p other) ↔ p identity := by
  simp [h]

/-- In a session a step fails only for an identity that it asks for. -/
theorem perform_eq_error_iff_of_session {s : Session} {step : Step} (needs : step.NeedsSession)
    {x : EditError} : perform ⟨some s⟩ step = .error x ↔
      ∃ identity, step.identity? = some identity ∧ identity ∉ s.items.map (·.identity) ∧
        x = .unknownName identity := by
  cases step with
  | load | close => exact needs.elim
  | propose identity value =>
    rw [exists_asked_iff rfl, perform_propose, map_eq_error_iff, Session.edit_eq_error_iff]
  | item identity =>
    rw [exists_asked_iff rfl, perform_item, map_eq_error_iff, ← Session.find?_eq_none_iff]
    cases s.find? identity <;> simp [eq_comm]
  | views | commit | allValid | pending | isCommittable =>
    exact iff_of_false nofun fun ⟨_, hasks, _⟩ => absurd hasks nofun

/-- Without a session every step that needs one fails. -/
theorem perform_of_no_session {step : Step} (needs : step.NeedsSession) :
    perform ⟨none⟩ step = .error .noSession := by
  cases step with
  | load | close => exact needs.elim
  | propose | item | views | commit | allValid | pending | isCommittable => rfl

/-- **Every failure has its reason, and every reason makes a step fail.** -/
theorem perform_eq_error_iff {e : Editor} {step : Step} {x : EditError} :
    e.perform step = .error x ↔ step.Fails e x := by
  constructor
  · intro h
    by_cases needs : step.NeedsSession
    · obtain ⟨_ | s⟩ := e
      · rw [perform_of_no_session needs] at h
        cases h
        exact .noSession needs rfl
      · obtain ⟨identity, hasks, hunknown, rfl⟩ := (perform_eq_error_iff_of_session needs).mp h
        exact .unknownName hasks rfl hunknown
    · cases step with
      | load records =>
        obtain ⟨before, r, after, rfl, hdistinct, hrepeated, rfl⟩ :=
          Session.load_eq_error_iff.mp (perform_load_eq_error_iff.mp h)
        exact .duplicateName hdistinct hrepeated
      | close => cases h
      | propose | item | views | commit | allValid | pending | isCommittable =>
        exact absurd trivial needs
  · intro h
    cases h with
    | duplicateName hdistinct hrepeated =>
      exact perform_load_eq_error_iff.mpr
        (Session.load_eq_error_iff.mpr ⟨_, _, _, rfl, hdistinct, hrepeated, rfl⟩)
    | noSession needs hnone =>
      obtain ⟨_ | s⟩ := e
      · exact perform_of_no_session needs
      · cases hnone
    | @unknownName _ identity s hasks hheld hunknown =>
      obtain ⟨_⟩ := e
      obtain rfl := hheld
      have needs : step.NeedsSession := by
        cases step with
        | load | close => cases hasks
        | propose | item | views | commit | allValid | pending | isCommittable => trivial
      exact (perform_eq_error_iff_of_session needs).mpr ⟨identity, hasks, hunknown, rfl⟩

/-! ## After a new start -/

/-- Whether a step leaves nothing of what was held before it: closing, and loading records that can
be loaded. -/
def Step.StartsAnew : Step → Prop
  | .close => True
  | .load records => (records.map (·.name)).Nodup
  | .propose _ _ | .item _ | .views _ | .commit | .allValid | .pending | .isCommittable => False

/-- **A new start** leaves the same editor, whatever was held before it. -/
theorem after_of_startsAnew {step : Step} (h : step.StartsAnew) (e e' : Editor) :
    e.after step = e'.after step := by
  cases step with
  | load records =>
    have hload : ∀ past :
      Editor, past.load records = .ok ⟨some (Ledger.start records h).session⟩ := by
      intro past
      rw [Editor.load, Session.load_of_nodup h]
      rfl
    rw [after, after, hload, hload]
    rfl
  | close => rfl
  | propose | item | views | commit | allValid | pending | isCommittable => exact h.elim

/-- **Failures are exact, and nothing has been done by then.** For every editor and every step: the
step fails exactly for the reasons of `Step.Fails`, loading in particular exactly if two records
have one name; if it fails, also in place, the editor is as it was, and if not, it is the one that
performing the step gives. After closing or a successful loading, no answer to any later step
depends on what was held before. -/
theorem failures_exact (e : Editor) :
    (∀ step x, e.perform step = .error x ↔ step.Fails e x) ∧
    (∀ records, (∃ x, e.perform (.load records) = .error x) ↔ ¬ (records.map (·.name)).Nodup) ∧
    (∀ step x, e.perform step = .error x → (act step).run e = .error x e ∧ e.after step = e) ∧
    (∀ step e' a, e.perform step = .ok (e', a) → (act step).run e = .ok a e' ∧ e.after step = e') ∧
    ∀ step, step.StartsAnew → ∀ (past : Editor) (later : List Step),
      (e.after step).answers later = (past.after step).answers later := by
  refine ⟨fun step x => perform_eq_error_iff, ?_, ?_, ?_, ?_⟩
  · intro records
    rw [← Session.exists_load_error_iff]
    exact exists_congr fun x => perform_load_eq_error_iff
  · intro step x h
    rw [run_act, after_eq, h]
    exact ⟨rfl, rfl⟩
  · intro step e' a h
    rw [run_act, after_eq, h]
    exact ⟨rfl, rfl⟩
  · intro step h past later
    rw [after_of_startsAnew h e past]

/-- An editor with an edit that may not stand. -/
def halfEdited : Editor :=
  ⟨some ⟨[
    { ied := { name := "A" }, current := "1bad", verdict := .patternMismatch, pending := true },
    { ied := { name := "B" }, current := "B" }], false⟩⟩

/-- Records, two of which have one name. -/
def twins : List Ied := [{ name := "C" }, { name := "A" }, { name := "C" }, { name := "A" }]

/-- One record, with the name of an item that was edited. -/
def single : List Ied := [{ name := "A" }]

theorem failures_exact_halfEdited :
    (halfEdited.perform (.load twins) = .error (.duplicateName "C") ∧
      (act (.load twins)).run halfEdited = .error (.duplicateName "C") halfEdited) ∧
    (halfEdited.perform (.propose "D" "A") = .error (.unknownName "D") ∧
      (act (.propose "D" "A")).run halfEdited = .error (.unknownName "D") halfEdited) ∧
    (Step.StartsAnew (.load single) ∧
      (halfEdited.after (.load single)).answers [.item "A", .pending, .commit] =
        (({} : Editor).after (.load single)).answers [.item "A", .pending, .commit]) ∧
    (({} : Editor).after (.load single)).answers [.item "A", .pending, .commit] =
      [.ok (.item { ied := { name := "A" }, current := "A" }), .ok (.identities []),
        .ok (.renamings [])] := by
  obtain ⟨hfails, -, hkept, -, hanew⟩ := failures_exact halfEdited
  have htwins : halfEdited.perform (.load twins) = .error (.duplicateName "C") :=
    (hfails (.load twins) (.duplicateName "C")).mpr (@Step.Fails.duplicateName halfEdited
      [{ name := "C" }, { name := "A" }] [{ name := "A" }] { name := "C" } (by decide) (by decide))
  have hunknown : halfEdited.perform (.propose "D" "A") = .error (.unknownName "D") :=
    (hfails (.propose "D" "A") (.unknownName "D")).mpr (.unknownName rfl rfl (by decide))
  have hsingle : Step.StartsAnew (.load single) := List.nodup_singleton "A"
  exact ⟨⟨htwins, (hkept _ _ htwins).1⟩, ⟨hunknown, (hkept _ _ hunknown).1⟩,
    ⟨hsingle, hanew _ hsingle {} _⟩, by decide⟩

end Editor

end StationNaming
