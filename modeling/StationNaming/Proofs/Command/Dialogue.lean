import StationNaming.Proofs.Command.Agreement
import StationNaming.Proofs.Command.Orders
import StationNaming.Proofs.Editor.Display
/-!
# The interactive dialogue

The operator gives orders line by line, and each is answered. Whatever is answered depends on the
orders so far alone: on the names they propose for IEDs that are there, and on the search that was
asked for last.

**What is exact.** `dialogue_of_interactive` tells all that is shown, whatever the lines are. No
line after the one that quits or commits is looked at, and every line before it has one answer.
-/

namespace StationNaming

open Search (Query)
open Shown (styled)
open Text (escapeMarkup)
open Unicode (trimString)

/-! ## Edits -/

namespace Session

variable {s : Session} {identity : String}

theorem identities_propose (s : Session) (identity value : String) :
    (s.propose identity value).items.map (·.identity) = s.items.map (·.identity) := by
  simp only [propose, judged, List.map_map]
  refine List.map_congr_left fun i _ => ?_
  simp only [Function.comp_apply]
  split <;> rfl

/-- **An edit of an IED that is there** is made, and told by its item. -/
theorem exists_edit_of_mem (h : identity ∈ s.items.map (·.identity)) (value : String) :
    ∃ i ∈ (s.propose identity value).items, i.identity = identity ∧
      ∃ result, s.edit identity value = .ok (s.propose identity value, result) ∧
        result.verdict = i.verdict := by
  cases hfound : s.find? identity with
  | none => exact absurd h (find?_eq_none_iff.mp hfound)
  | some before =>
    -- The item is looked up once more after the edit, which leaves it where it is.
    have hafter := find?_propose s identity value
    rw [hfound] at hafter
    obtain ⟨i, hi⟩ := Option.isSome_iff_exists.mp hafter
    have hidentity := List.find?_some hi
    refine ⟨i, List.mem_of_find?_eq_some hi, beq_iff_eq.mp hidentity,
      ⟨identity, value, i.verdict, i.isChanged, (s.propose identity value).allValid⟩, ?_, rfl⟩
    simp only [edit, hfound, hi]

end Session

theorem Search.Query.raw_compile (text : String) : (Query.compile text).raw = text := by
  rw [Query.compile]
  split_ifs with hempty
  · exact hempty.symm
  · rfl

namespace Command

/-! ## What orders come to -/

/-- What an order makes of the search, if it asks for one or drops it. -/
def Order.search? : Order → Option (Option String)
  | .search text => some (some text)
  | .clear => some none
  | _ => none

/-- **The search that was asked for last**, unless it was dropped since. -/
def searchAfter (orders : List Order) : Option String :=
  (orders.filterMap Order.search?).getLast?.join

/-- **The session after some orders**: each edit of an IED that is there was made, in turn. -/
def sessionAfter (start : Session) (orders : List Order) : Session :=
  ((orders.flatMap Order.edits).filter fun e => e.1 ∈ start.items.map (·.identity)).foldl
    (fun s e => s.propose e.1 e.2) start

/-! ## What orders are answered with -/

/-- Whether an item is listed under a search. -/
def isListed (search : Option String) (i : Item) : Bool :=
  search.all fun text => (Query.compile text).test i.searchableText

/-- **The status of an item**: why its name may not stand, or else whether it is another one than
before. -/
inductive Status (i : Item) : String → Prop
  | invalid (invalid : i.verdict ≠ .valid) : Status i (styled "red" i.verdict.message)
  | changed (valid : i.verdict = .valid) (changed : i.current ≠ i.identity) :
      Status i (styled "green" "changed")
  | same (valid : i.verdict = .valid) (same : i.current = i.identity) : Status i ""

/-- **The row of an item.** Its cells are the markup that is handed to the console, not what that
prints of them. -/
inductive Row (i : Item) : List String → Prop
  | intro {style status : String} (green : i.current ≠ i.identity → style = "green")
      (white : i.current = i.identity → style = "white") (told : Status i status) :
      Row i [escapeMarkup i.identity, styled style (escapeMarkup i.current),
        escapeMarkup i.ied.firstLine, escapeMarkup i.ied.secondLine, status]

/-- **The table of a session under a search**: a row for each item that is listed, in display
order. -/
structure Lists (s : Session) (search : Option String) (t : Table) : Prop where
  columns_eq : t.columns = ["Original", "New Name", "IED", "Details", "Status"]
  rows : ∃ items, s.InDisplayOrder items ∧ List.Forall₂ Row (items.filter (isListed search)) t.rows
  /-- A search without a term is not told. -/
  caption_eq : t.caption = (search.filter fun text => (Query.compile text).terms ≠ []).map
    fun text => "Filter: " ++ escapeMarkup text

/-- **The table after some orders**, and the state of the session below it. -/
inductive Overview (start : Session) (orders : List Order) : List Shown → Prop
  | intro {t : Table} (lists : Lists (sessionAfter start orders) (searchAfter orders) t) :
      Overview start orders [.table t,
        Display.pending (sessionAfter start orders).pending.length
          (sessionAfter start orders).isCommittable]

/-- What a name that may not stand is answered with, before the table. -/
def warning (i : Item) : List Shown :=
  if i.verdict = .valid then [] else [.line (styled "red" i.verdict.message)]

/-- **The answer to an order** that comes after others. -/
inductive Answers (start : Session) (past : List Order) : Order → List Shown → Prop
  | view {order : Order} {shown : List Shown}
      (views : (∃ text, order = .search text) ∨ order = .clear ∨ order = .show)
      (overview : Overview start (past ++ [order]) shown) : Answers start past order shown
  | propose {old new : String} {i : Item} {shown : List Shown}
      (item : i ∈ (sessionAfter start (past ++ [.propose old new])).items)
      (named : i.identity = old)
      (overview : Overview start (past ++ [.propose old new]) shown) :
      Answers start past (.propose old new) (warning i ++ shown)
  | unknown {old new : String} (unknown : old ∉ start.items.map (·.identity)) :
      Answers start past (.propose old new) [.error (EditError.unknownName old).message]
  | commit (uncommittable : ¬ (sessionAfter start past).isCommittable = true) :
      Answers start past .commit
        [Display.notice "Nothing to commit: names must be changed and all valid."]
  | help : Answers start past .help [Display.help]

/-- **What is shown while orders are answered** that come after others. -/
inductive Transcript (start : Session) : List Order → List Order → List Shown → Prop
  | nil (past : List Order) : Transcript start past [] []
  | cons {past orders : List Order} {order : Order} {shown more : List Shown}
      (answer : Answers start past order shown)
      (rest : Transcript start (past ++ [order]) orders more) :
        Transcript start past (order :: orders) (shown ++ more)

/-- **How a dialogue ends** after some orders, with the lines that are left. -/
inductive Ends (f : OpenFile) (input : String) (output : Option String) (orders : List Order) :
    List String → Outcome → Prop
  | quit {line : String} {lines : List String} (spelled : Order.Spelled (trimString line) .quit) :
      Ends f input output orders (line :: lines)
        { console := [Display.notice "Closed. No IEDs were renamed."], files := f.desk.files }
  | commit {line : String} {lines : List String} (spelled : Order.Spelled (trimString line) .commit)
      (committable : (sessionAfter f.session orders).isCommittable = true) :
      Ends f input output orders (line :: lines)
        ({ f with session := sessionAfter f.session orders }.commit input output)
  | input : Ends f input output orders [] { ending := .aborted, files := f.desk.files }

/-- **A dialogue** that goes on after some orders: the lines up to its end are orders that are
answered, and no other tables are shown. -/
inductive Dialogue (f : OpenFile) (input : String) (output : Option String) (past : List Order)
    (lines : List String) (o : Outcome) : Prop
  | intro {handled rest : List String} {orders : List Order} {shown : List Shown}
      {closing : Outcome}
      (lines_eq : lines = handled ++ rest)
      (spelled : List.Forall₂ (fun line order => Order.Spelled (trimString line) order)
        handled orders)
      (transcript : Transcript f.session past orders shown)
      (ends : Ends f input output (past ++ orders) rest closing)
      (tableless : ∀ t, .table t ∉ closing.console)
      (console_eq : o.console = shown ++ closing.console)
      (ending_eq : o.ending = closing.ending)
      (files_eq : o.files = closing.files)

/-! ## Sessions -/

/-- One more order makes one more edit, if it makes one. -/
theorem sessionAfter_concat (start : Session) (past : List Order) (order : Order) :
    sessionAfter start (past ++ [order]) =
      (order.edits.filter fun e => e.1 ∈ start.items.map (·.identity)).foldl
        (fun s e => s.propose e.1 e.2) (sessionAfter start past) := by
  rw [sessionAfter, List.flatMap_append, List.filter_append, List.foldl_append,
    List.flatMap_singleton, ← sessionAfter]

/-- An order that edits nothing leaves the session as it is. -/
theorem sessionAfter_concat_of_edits_nil (start : Session) (past : List Order) {order : Order}
    (h : order.edits = []) :
    sessionAfter start (past ++ [order]) = sessionAfter start past := by
  rw [sessionAfter_concat, h, List.filter_nil, List.foldl_nil]

/-- A proposal counts if the IED is there. -/
theorem sessionAfter_concat_propose (start : Session) (past : List Order) (old new : String) :
    sessionAfter start (past ++ [.propose old new]) =
      if old ∈ start.items.map (·.identity) then (sessionAfter start past).propose old new
      else sessionAfter start past := by
  simp only [sessionAfter_concat, Order.edits, List.filter_cons, List.filter_nil, decide_eq_true_eq]
  split <;> rfl

theorem identities_sessionAfter (start : Session) (orders : List Order) :
    (sessionAfter start orders).items.map (·.identity) = start.items.map (·.identity) := by
  unfold sessionAfter
  generalize (orders.flatMap Order.edits).filter _ = edits
  induction edits using List.reverseRecOn with
  | nil => rfl
  | append_singleton edits e ih =>
    rw [List.foldl_append, List.foldl_cons, List.foldl_nil, Session.identities_propose, ih]

/-! ## Tables -/

/-- The query of a search. -/
def queryOf (search : Option String) : Query := search.elim .matchAll .compile

theorem searchAfter_concat (past : List Order) (order : Order) :
    searchAfter (past ++ [order]) = order.search?.getD (searchAfter past) := by
  rw [searchAfter, List.filterMap_append]
  cases h : order.search? with
  | none =>
    rw [List.filterMap_cons_none h, List.filterMap_nil, List.append_nil, ← searchAfter,
      Option.getD_none]
  | some search =>
    rw [List.filterMap_cons_some h, List.filterMap_nil, List.getLast?_concat, Option.join_some,
      Option.getD_some]

theorem status_view (i : Item) (query : Option Query) :
    Status i (Display.status (i.view query)) := by
  by_cases hvalid : i.verdict = .valid
  · have hview : (i.view query).isValid = true := Verdict.isValid_iff.mpr hvalid
    by_cases hsame : i.current = i.identity
    · have hchanged : (i.view query).isChanged = false := bne_eq_false_iff_eq.mpr hsame
      rw [Display.status, hview, hchanged]
      exact .same hvalid hsame
    · have hchanged : (i.view query).isChanged = true := bne_iff_ne.mpr hsame
      rw [Display.status, hview, hchanged]
      exact .changed hvalid hsame
  · have hview : (i.view query).isValid = false :=
      Bool.eq_false_of_not_eq_true (hvalid ∘ Verdict.isValid_iff.mp)
    rw [Display.status, hview]
    exact .invalid hvalid

theorem row_proposal (i : Item) (query : Option Query) :
    Row i (Display.proposal (i.view query)) := by
  refine .intro (fun hchanged => if_pos (bne_iff_ne.mpr hchanged)) (fun hsame => if_neg ?_)
    (status_view i query)
  exact fun hchanged => bne_iff_ne.mp hchanged hsame

/-- **The list of proposals** is the table of the session. -/
theorem lists_proposals (s : Session) (search : Option String) :
    Lists s search (Display.proposals (s.views (some (queryOf search)))
      (some (queryOf search))) where
  columns_eq := rfl
  rows := by
    refine ⟨_, s.inDisplayOrder_displayOrder, ?_⟩
    have hvisible : (fun i : Item => (i.view (some (queryOf search))).visible) =
      isListed search := by
      funext i
      cases search <;> rfl
    rw [Display.proposals, Session.views, List.filter_map, List.map_map, List.forall₂_map_right_iff]
    change List.Forall₂ _ _
      (List.filter (fun i : Item => (i.view (some (queryOf search))).visible) _)
    rw [hvisible]
    exact List.forall₂_same.mpr fun i _ => row_proposal i _
  caption_eq := by
    cases search with
    | none => rfl
    | some text =>
      simp only [Display.proposals, Display.caption, queryOf, Option.elim_some, Query.matchesAll,
        Query.raw_compile]
      cases h : (Query.compile text).terms <;> simp [h]

/-! ## Steps -/

/-- **What the operator works on after some orders.** -/
def worklistAfter (start : Session) (orders : List Order) : Worklist where
  session := sessionAfter start orders
  query := queryOf (searchAfter orders)

section Step

variable {start : Session} {past : List Order} {order : Order}

theorem overview_worklistAfter (start : Session) (orders : List Order) :
    Overview start orders (worklistAfter start orders).overview :=
  .intro (lists_proposals _ _)

/-- An order that shows the list shows it as it is after all orders. -/
theorem answers_view (views : (∃ text, order = .search text) ∨ order = .clear ∨ order = .show) :
    Answers start past order (worklistAfter start (past ++ [order])).overview :=
  .view views (overview_worklistAfter start _)

/-- **A proposal is answered**, whether the IED is there or not. -/
theorem exists_answer_propose (start : Session) (past : List Order) (old new : String) :
    ∃ shown, (worklistAfter start past).propose old new =
      (worklistAfter start (past ++ [.propose old new]), shown) ∧
      Answers start past (.propose old new) shown := by
  have hsearch : searchAfter (past ++ [.propose old new]) = searchAfter past :=
    searchAfter_concat past _
  have hidentities := identities_sessionAfter start past
  by_cases known : old ∈ start.items.map (·.identity)
  · have hsession : sessionAfter start (past ++ [.propose old new]) =
      (sessionAfter start past).propose old new := by
      rw [sessionAfter_concat_propose, if_pos known]
    obtain ⟨i, hi, hidentity, result, hedit, hverdict⟩ :=
      Session.exists_edit_of_mem (hidentities ▸ known) new
    refine ⟨_, ?_, .propose (hsession ▸ hi) hidentity (overview_worklistAfter start _)⟩
    simp only [Worklist.propose, worklistAfter, hedit, hsession, hsearch, warning,
      EditResult.isValid, hverdict, Verdict.isValid_iff]
  · have hsession : sessionAfter start (past ++ [.propose old new]) = sessionAfter start past := by
      rw [sessionAfter_concat_propose, if_neg known]
    have hedit : (sessionAfter start past).edit old new = .error (.unknownName old) :=
      Session.edit_eq_error_iff.mpr ⟨hidentities ▸ known, rfl⟩
    refine ⟨_, ?_, .unknown known⟩
    simp only [Worklist.propose, worklistAfter, hedit, hsession, hsearch]

/-- **An order is answered**, and it is worked on what all orders come to, with this one as their
last. -/
theorem exists_answer (stays : order ≠ .quit)
    (uncommitted : ¬ (order = .commit ∧ (sessionAfter start past).isCommittable = true)) :
    ∃ shown, (worklistAfter start past).obey order =
      (worklistAfter start (past ++ [order]), shown) ∧
      Answers start past order shown := by
  -- An order that edits nothing can only change the search.
  have hquiet : order.edits = [] → worklistAfter start (past ++ [order]) =
      ⟨sessionAfter start past, queryOf (order.search?.getD (searchAfter past))⟩ := fun hnone => by
    rw [worklistAfter, sessionAfter_concat_of_edits_nil start past hnone, searchAfter_concat]
  cases order with
  | quit => exact absurd rfl stays
  | propose old new => exact exists_answer_propose start past old new
  | commit =>
    exact ⟨_, by rw [hquiet rfl]; rfl, .commit fun committable => uncommitted ⟨rfl, committable⟩⟩
  | help => exact ⟨_, by rw [hquiet rfl]; rfl, .help⟩
  | search text => exact ⟨_, by rw [hquiet rfl]; rfl, answers_view (.inl ⟨text, rfl⟩)⟩
  | clear => exact ⟨_, by rw [hquiet rfl]; rfl, answers_view (.inr (.inl rfl))⟩
  | «show» => exact ⟨_, by rw [hquiet rfl]; rfl, answers_view (.inr (.inr rfl))⟩

end Step

/-! ## Dialogues -/

section Run

variable {f : OpenFile} {input : String} {output : Option String} {past : List Order}
  {lines : List String}

/-- Committing shows no table. -/
theorem tableless_commit (f : OpenFile) (input : String) (output : Option String) (t : Table) :
    .table t ∉ (f.commit input output).console := by
  unfold OpenFile.commit
  dsimp only
  split
  · simp [Shown.error]
  · split <;> simp [Display.renamed, Display.saved]

/-- A dialogue that is over before the first line is handled. -/
theorem Dialogue.of_ends {o closing : Outcome} (ends : Ends f input output past lines closing)
    (tableless : ∀ t, .table t ∉ closing.console) (console_eq : o.console = closing.console)
    (ending_eq : o.ending = closing.ending) (files_eq : o.files = closing.files) :
    Dialogue f input output past lines o :=
  .intro rfl .nil (.nil past) ((List.append_nil past).symm ▸ ends) tableless console_eq
    ending_eq files_eq

/-- Prompts are no part of a dialogue. -/
theorem Dialogue.afterPrompts {o : Outcome} (h : Dialogue f input output past lines o)
    (prompts : String) :
    Dialogue f input output past lines (o.afterPrompts prompts) := by
  obtain ⟨hlines, hspelled, htranscript, hends, htableless, hconsole, hending, hfiles⟩ := h
  exact .intro hlines hspelled htranscript hends htableless hconsole hending hfiles

/-- **A line that is answered**, and the dialogue after it. -/
theorem Dialogue.cons {line : String} {order : Order} {shown : List Shown} {o : Outcome}
    (spelled : Order.Spelled (trimString line) order) (answer : Answers f.session past order shown)
    (rest : Dialogue f input output (past ++ [order]) lines o) :
    Dialogue f input output past (line :: lines) (o.after shown) := by
  obtain ⟨rfl, hspelled, htranscript, hends, htableless, hconsole, hending, hfiles⟩ := rest
  refine .intro rfl (.cons spelled hspelled) (.cons answer htranscript) ?_ htableless ?_
    hending hfiles
  · rwa [List.append_assoc] at hends
  · show shown ++ o.console = _
    rw [hconsole, List.append_assoc]

/-- **Following lines is a dialogue**, whatever was ordered before. -/
theorem dialogue_follow (f : OpenFile) (input : String) (output : Option String) (past : List Order)
    (lines : List String) :
    Dialogue f input output past lines
      (follow f input output (worklistAfter f.session past) lines) := by
  -- Each line moves what is worked on from what the orders before it come to, to what they come to
  -- with it.
  induction lines generalizing past with
  | nil => exact .of_ends .input (fun _ => List.not_mem_nil) rfl rfl rfl
  | cons line lines ih =>
    have hspelled := Order.spelled_read line
    unfold follow
    dsimp only
    split
    · next hquit => exact .of_ends (.quit (hquit ▸ hspelled)) (by simp [Display.notice]) rfl rfl rfl
    · next hstays =>
      split
      · next hcommit =>
        have hends : Ends f input output past (line :: lines) _ :=
          .commit (hcommit.1 ▸ hspelled) hcommit.2
        exact (Dialogue.of_ends hends (tableless_commit _ _ _) rfl rfl rfl).afterPrompts _
      · next hgoes =>
        obtain ⟨shown, hobey, hanswer⟩ := exists_answer hstays hgoes
        rw [hobey]
        exact (Dialogue.cons hspelled hanswer (ih _)).afterPrompts _

end Run

/-- **The display follows the orders.** Of a file that opens, the interactive command shows the
help, the table of the names as they are, and then the answer to each line up to the one that quits,
or that commits when the session may be committed, or up to the end of the input. Every table is the
one that the lines so far ask for, and so is the state below it. The command is refused, with
nothing shown, only if it is not told where to save. -/
theorem dialogue_of_interactive {host : Host} {files : Files} {input : String} {f : OpenFile}
    (opens : OpenFile.ofPath host files input = .ok f) (output : Option String) (inPlace : Bool)
    (lines : List String) :
    (∃ e, Request.target output inPlace = .error e ∧
      interactive host files input output inPlace lines =
        { ending := .refused e, files := files }) ∨
    ∃ target opening o, Request.target output inPlace = .ok target ∧ Lists f.session none opening ∧
      Dialogue f input target [] lines o ∧
      interactive host files input output inPlace lines =
        o.after [Display.help, .table opening] := by
  unfold interactive
  cases htarget : Request.target output inPlace with
  | error e => exact .inl ⟨e, rfl, rfl⟩
  | ok target =>
    have hopening := lists_proposals f.session none
    refine .inr ⟨target, _, _, rfl, hopening, dialogue_follow f input target [] lines, ?_⟩
    simp only [opens]
    rfl

/-- A script that proposes a name that is taken, searches, and commits too early, and then frees the
name. -/
def freeingScript : List String :=
  [" A = B ", "/search a", "/commit", "X=Y", "B=C", "/commit", "A=D"]

theorem dialogue_of_freeingScript :
    (∃ f opening o, OpenFile.ofPath .usual pairFolder "a.scd" = .ok f ∧
      Lists f.session none opening ∧
      Dialogue f "a.scd" none [] freeingScript o ∧
      interactive .usual pairFolder "a.scd" none true freeingScript =
        o.after [Display.help, .table opening]) ∧
    ((interactive .usual pairFolder "a.scd" none true freeingScript).console.filter fun shown =>
      shown matches .line _) =
      [Display.help, .line (styled "red" "IED name must be unique."), Display.pending 1 false,
        Display.pending 1 false,
        Display.notice "Nothing to commit: names must be changed and all valid.",
        .error "Unknown IED 'X'.", Display.pending 2 true,
        .line (styled "cyan" "Renamed 2 IED(s) and updated 0 reference(s)."),
        Display.saved 2 "a.scd"] := by
  refine ⟨?_, by decide +kernel⟩
  have hopens : (OpenFile.ofPath .usual pairFolder "a.scd").toOption.isSome = true := by
    decide +kernel
  cases hopen : OpenFile.ofPath .usual pairFolder "a.scd" with
  | error e => rw [hopen] at hopens; cases hopens
  | ok f =>
    rcases dialogue_of_interactive hopen none true freeingScript with
      ⟨_, hrefused, -⟩ | ⟨_, opening, o, htarget, h⟩
    · cases hrefused
    · cases htarget
      exact ⟨f, opening, o, rfl, h⟩

end Command

end StationNaming
