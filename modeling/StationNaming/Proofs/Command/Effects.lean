import StationNaming.Command.Run
import StationNaming.Proofs.Desk
import StationNaming.Proofs.Station.Reload
/-!
# What a run does to the files

A run changes files in one way only: it saves the renamed document over one file, and says so. Every
other run leaves all files as they were, but for one whose document is too deep for its host. That
one breaks off while it writes its output file, and leaves a beginning of the document there.

**What is exact.** `files_of_run` covers every host, every command line, all files and every input.
A run that shows the message of success has written one path, the output file if there is one and
the input file otherwise, and what stands there is the document of the input file with every IED
under the name that was proposed last for it. A run that does not show it leaves the files as they
are, whatever it stopped at, or it broke off as told above.
-/

namespace StationNaming

open Renaming (substitute)

/-! ## The message of success -/

/-- Whether an entry of the console begins as the message of success does. -/
def Display.isSaved : Shown → Bool
  | .line markup => "[bold green]".toList.isPrefixOf markup.toList
  | .table _ => false

/-- **A run that ends in success** says so. -/
def Outcome.Succeeded (o : Outcome) : Prop := ∃ count path, Display.saved count path ∈ o.console

namespace Display

theorem isSaved_saved (count : Nat) (path : String) : isSaved (saved count path) = true := by
  simp [isSaved, saved, Shown.styled]

@[simp] theorem isSaved_error (wording : String) : isSaved (.error wording) = false := by
  simp [isSaved, List.isPrefixOf, Shown.error, Shown.styled]

@[simp] theorem isSaved_notice (wording : String) : isSaved (notice wording) = false := by
  simp [isSaved, List.isPrefixOf, notice, Shown.styled]

@[simp] theorem isSaved_renamed (r : Station.Renamed) : isSaved (renamed r) = false := by
  simp [isSaved, List.isPrefixOf, renamed, Shown.styled]

@[simp] theorem isSaved_refused (v : View) : isSaved (refused v) = false := by
  simp [isSaved, List.isPrefixOf, refused, Shown.styled]

@[simp] theorem isSaved_found (count : Nat) (path : String) :
    isSaved (found count path) = false := by
  simp [isSaved, List.isPrefixOf, found]

@[simp] theorem isSaved_matching (count : Nat) (raw : String) :
    isSaved (matching count raw) = false := by
  simp [isSaved, List.isPrefixOf, matching, accented, Shown.styled]

@[simp] theorem isSaved_pending (count : Nat) (isReady : Bool) :
    isSaved (pending count isReady) = false := by
  simp [isSaved, List.isPrefixOf, pending]

theorem isSaved_commands (rest : String) :
    isSaved (.line ("Commands:" ++ "\n" ++ rest)) = false := by
  simp [isSaved, List.isPrefixOf]

@[simp] theorem isSaved_help : isSaved help = false := by
  rw [help, String.intercalate_cons_cons]
  exact isSaved_commands _

@[simp] theorem isSaved_table (t : Table) : isSaved (.table t) = false := rfl

end Display

/-! ## Documents under edits -/

/-- The renamings of a session give every record the name that is proposed for it. -/
theorem Ledger.substitute_commit {l : Ledger} (committable : l.session.isCommittable = true)
    {r : Ied} (hr : r ∈ l.records) : substitute l.session.commit r.name = l.names r.name := by
  rw [commit_session_of_isCommittable committable]
  exact substitute_renamings (mem_items_session.mpr ⟨r, hr, rfl⟩)

namespace Command

variable (host : Host) (files : Files) (input : String) (output : Option String) (edits : List Edit)

/-- **The document that edits make of an input file**: every IED is under the name that was proposed
last for it, in its record and wherever it is referred to. -/
structure Made (registry : Xml.PrefixRegistry) (s : Station) (r : Station.Renamed) : Prop where
  opens : ∃ bytes, files.read input = .ok bytes ∧
    Station.ofBytes host.intake .initial input bytes = (registry, .ok s)
  renames : ∃ ops, (∀ record ∈ s.records, substitute ops record.name =
    lastProposed edits record.name) ∧
    s.rename ops = .ok r ∧ Station.Substituted ops s r.station
  records_eq : r.station.records =
    s.records.map fun record => { record with name := lastProposed edits record.name }

/-- **What is written after some edits**: the document that they make, over the output file or else
over the input file. -/
inductive Wrote (after : Files) : Prop
  | intro (registry : Xml.PrefixRegistry) (s : Station) (r : Station.Renamed)
      (made : Made host files input edits registry s r)
      (fits : s.root.depth ≤ host.room)
      (wrote : files.WroteOne (Files.plainPath (output.getD input))
        (r.station.toBytes registry) after)
      (there : output = none → ∃ old, files.find? (Files.plainPath input) = some old)

/-- **What is left where a document is too deep for the host**: a beginning of what the edits make,
in the output file. -/
inductive BrokeOff (after : Files) : Prop
  | intro (registry : Xml.PrefixRegistry) (s : Station) (r : Station.Renamed) (path : String)
      (made : Made host files input edits registry s r)
      (deep : host.room < s.root.depth)
      (output_eq : output = some path)
      (wrote : files.WroteBeginning (Files.plainPath path)
        (Xml.write registry r.station.root) after)

end Command

/-! ## Effects of a run -/

/-- **What a run does to the files**, given what may be asked of it: nothing, without the message of
success; or it writes what it was asked for, and shows that message; or it breaks off. -/
inductive Outcome.Effect (host : Host) (files : Files)
    (asked : String → Option String → List Edit → Prop) (o : Outcome) : Prop
  | kept (unsaved : ∀ shown ∈ o.console, Display.isSaved shown = false) (files_eq : o.files = files)
  | saved {input : String} {output : Option String} {edits : List Edit}
      (asks : asked input output edits) (succeeded : o.Succeeded)
      (wrote : Command.Wrote host files input output edits o.files)
  | brokeOff {input : String} {output : Option String} {edits : List Edit}
      (asks : asked input output edits)
      (unsaved : ∀ shown ∈ o.console, Display.isSaved shown = false)
      (ending_eq : o.ending = .failed (.file .tooDeep))
      (broke : Command.BrokeOff host files input output edits o.files)

/-- An outcome without a message of success is none of success. -/
theorem Outcome.not_succeeded {o : Outcome}
    (unsaved : ∀ shown ∈ o.console, Display.isSaved shown = false) :
    ¬ o.Succeeded := by
  rintro ⟨count, path, hmem⟩
  have hsaved := unsaved _ hmem
  rw [Display.isSaved_saved] at hsaved
  cases hsaved

namespace Outcome.Effect

variable {host : Host} {files : Files} {asked : String → Option String → List Edit → Prop}
    {o : Outcome}

theorem kept_of_console_nil (hconsole : o.console = []) (hfiles : o.files = files) :
    o.Effect host files asked :=
  .kept (fun _ h => absurd (hconsole ▸ h) List.not_mem_nil) hfiles

theorem kept_of_single {shown : Shown} (hconsole : o.console = [shown])
    (unsaved : Display.isSaved shown = false) (hfiles : o.files = files) :
      o.Effect host files asked :=
  .kept (fun _ h => List.mem_singleton.mp (hconsole ▸ h) ▸ unsaved) hfiles

/-- More shown before changes nothing, if it is no message of success. -/
theorem after (h : o.Effect host files asked) {shown : List Shown}
    (unsaved : ∀ entry ∈ shown, Display.isSaved entry = false) :
    (o.after shown).Effect host files asked := by
  have hconsole : (∀ entry ∈ o.console, Display.isSaved entry = false) →
      ∀ entry ∈ (o.after shown).console, Display.isSaved entry = false :=
    fun hrest => List.forall_mem_append.mpr ⟨unsaved, hrest⟩
  cases h with
  | kept hrest hfiles => exact .kept (hconsole hrest) hfiles
  | saved asks hsucceeded hwrote =>
    obtain ⟨count, path, hmem⟩ := hsucceeded
    exact .saved asks ⟨count, path, List.mem_append_right _ hmem⟩ hwrote
  | brokeOff asks hrest hending hbroke => exact .brokeOff asks (hconsole hrest) hending hbroke

theorem afterPrompts (h : o.Effect host files asked) (prompts : String) :
    (o.afterPrompts prompts).Effect host files asked := by
  cases h with
  | kept unsaved hfiles => exact .kept unsaved hfiles
  | saved asks succeeded wrote => exact .saved asks succeeded wrote
  | brokeOff asks unsaved hending hbroke => exact .brokeOff asks unsaved hending hbroke

theorem mono {asked' : String → Option String → List Edit → Prop} (h : o.Effect host files asked)
    (himp : ∀ input output edits, asked input output edits → asked' input output edits) :
    o.Effect host files asked' := by
  cases h with
  | kept unsaved hfiles => exact .kept unsaved hfiles
  | saved asks succeeded wrote => exact .saved (himp _ _ _ asks) succeeded wrote
  | brokeOff asks unsaved hending hbroke => exact .brokeOff (himp _ _ _ asks) unsaved hending hbroke

theorem wrote_of_succeeded (h : o.Effect host files asked) (succeeded : o.Succeeded) :
    ∃ input output edits, asked input output edits ∧
      Command.Wrote host files input output edits o.files := by
  cases h with
  | kept unsaved _ => exact absurd succeeded (not_succeeded unsaved)
  | saved asks _ wrote => exact ⟨_, _, _, asks, wrote⟩
  | brokeOff _ unsaved _ _ => exact absurd succeeded (not_succeeded unsaved)

theorem files_of_not_succeeded (h : o.Effect host files asked) (hnot : ¬ o.Succeeded) :
    o.files = files ∨ o.ending = .failed (.file .tooDeep) ∧ ∃ input output edits,
      asked input output edits ∧ Command.BrokeOff host files input output edits o.files := by
  cases h with
  | kept _ hfiles => exact .inl hfiles
  | saved _ succeeded _ => exact absurd succeeded hnot
  | brokeOff asks _ hending hbroke => exact .inr ⟨hending, _, _, _, asks, hbroke⟩

end Outcome.Effect

/-! ## Files that are open -/

namespace OpenFile

/-- **An input file that was opened on a host, and edits that were made since.** -/
structure Edited (host : Host) (files : Files) (input : String) (edits : List Edit) (f : OpenFile) :
    Prop where
  reads : ∃ bytes, files.read input = .ok bytes ∧
    Station.ofBytes host.intake .initial input bytes = (f.desk.registry, .ok f.station)
  host_eq : f.desk.host = host
  files_eq : f.desk.files = files
  session_eq : ∃ distinct : (f.station.records.map (·.name)).Nodup,
    f.session = (Ledger.ofEdits f.station.records distinct edits).session

variable {host : Host} {files : Files} {input : String} {output : Option String} {f : OpenFile}
  {edits : List Edit}

/-- A file that was opened is under no edits. -/
theorem edited_of_ofPath (h : ofPath host files input = .ok f) : f.Edited host files input [] := by
  simp only [ofPath, Desk.openStation] at h
  cases hread : files.read input with
  | error e => rw [hread] at h; cases h
  | ok bytes =>
    rw [hread] at h
    dsimp only at h
    rcases hopen : Station.ofBytes host.intake .initial input bytes with ⟨registry, e | s⟩
    · rw [hopen] at h
      cases h
    · rw [hopen] at h
      dsimp only at h
      by_cases distinct : (s.records.map (·.name)).Nodup
      · rw [Session.load_of_nodup distinct] at h
        cases h
        exact ⟨⟨bytes, hread, hopen⟩, rfl, rfl, distinct, rfl⟩
      · obtain ⟨name, hname⟩ := Session.load_of_not_nodup distinct
        rw [hname] at h
        cases h

/-- A file that cannot be opened is left as it is. -/
theorem effect_of_ofPath {o : Outcome} (h : ofPath host files input = .error o)
    (asked : String → Option String → List Edit → Prop) : o.Effect host files asked := by
  unfold ofPath at h
  split at h
  · split at h <;> cases h
    · exact .kept_of_single rfl (Display.isSaved_error _) rfl
    · exact .kept_of_console_nil rfl rfl
  · split at h <;> cases h
    exact .kept_of_single rfl (Display.isSaved_error _) rfl

/-- **One more edit**: whether the session accepts it or not, it is one edit more. -/
theorem Edited.edit (h : f.Edited host files input edits) (old new : String) :
    match f.session.edit old new with
    | .ok (session, _) =>
      { f with session := session }.Edited host files input (edits ++ [(old, new)])
    | .error _ => f.Edited host files input (edits ++ [(old, new)]) := by
  obtain ⟨hreads, hhost, hfiles, distinct, hsession⟩ := h
  have hwrite : ∀ name, lastProposed (edits ++ [(old, new)]) name =
      Function.update (lastProposed edits) old new name := by
    intro name
    rw [lastProposed_append, Function.update_apply]
  by_cases hold : old ∈ f.station.records.map (·.name)
  · obtain ⟨record, hrecord, rfl⟩ := List.mem_map.mp hold
    rw [hsession, Ledger.edit_session_of_mem (l := Ledger.ofEdits _ distinct edits) hrecord]
    exact ⟨hreads, hhost, hfiles, distinct, Ledger.session_congr rfl fun r _ =>
      (hwrite r.name).symm⟩
  · rw [hsession, Ledger.edit_session_of_notMem (l := Ledger.ofEdits _ distinct edits) hold]
    refine ⟨hreads, hhost, hfiles, distinct,
      hsession.trans (Ledger.session_congr rfl fun r hr => ?_)⟩
    have hne : r.name ≠ old := fun heq => hold (heq ▸ List.mem_map_of_mem hr)
    show lastProposed edits r.name = lastProposed _ r.name
    rw [lastProposed_append, if_neg hne]

/-- A file under edits is one whose session is that of a ledger. -/
theorem Edited.exists_ledger (h : f.Edited host files input edits) :
    ∃ l : Ledger, l.records = f.station.records ∧ l.names = lastProposed edits ∧
      f.session = l.session := by
  obtain ⟨distinct, hsession⟩ := h.session_eq
  exact ⟨Ledger.ofEdits f.station.records distinct edits, rfl, rfl, hsession⟩

/-- **A document whose IEDs all have names accepts what is committed.** -/
theorem Edited.exists_substituted (h : f.Edited host files input edits)
    (named : f.station.Named) :
    ∃ r, f.station.rename f.session.commit = .ok r ∧
      Station.Substituted f.session.commit f.station r.station := by
  obtain ⟨l, hrecords, -, hsession⟩ := h.exists_ledger
  rw [hsession]
  exact Station.exists_substituted hrecords named

section Committing

variable (h : f.Edited host files input edits) (committable : f.session.isCommittable = true)
  {r : Station.Renamed} (applied : f.station.rename f.session.commit = .ok r)

include h committable applied

/-- **What is committed** puts every IED under the name that was proposed last for it. -/
theorem Edited.records_of_commit :
    r.station.records =
      f.station.records.map fun record =>
        { record with name := lastProposed edits record.name } := by
  obtain ⟨l, hrecords, hnames, hsession⟩ := h.exists_ledger
  rw [hsession] at committable applied
  rw [Station.records_rename_commit hrecords committable applied, Ledger.items_session,
    List.map_map, hrecords, ← hnames]
  rfl

/-- **What can be committed is made**, if the document accepts it. -/
theorem Edited.made : Command.Made host files input edits f.desk.registry f.station r := by
  have hrecords_eq := h.records_of_commit committable applied
  obtain ⟨l, hrecords, hnames, hsession⟩ := h.exists_ledger
  have named : f.station.Named := by
    rw [hsession] at committable applied
    exact Station.named_of_rename hrecords committable applied
  obtain ⟨r', hr', hsubstituted⟩ := h.exists_substituted named
  obtain rfl : r = r' := Except.ok.inj (applied.symm.trans hr')
  refine ⟨h.reads, ⟨f.session.commit, fun record hrecord => ?_, applied, hsubstituted⟩,
    hrecords_eq⟩
  rw [hsession] at committable ⊢
  rw [Ledger.substitute_commit committable (hrecords ▸ hrecord), hnames]

end Committing

/-- **Committing writes what the edits ask for**, or leaves the files as they are, or breaks off. -/
theorem Edited.commit (h : f.Edited host files input edits)
    (committable : f.session.isCommittable = true) (output : Option String) :
    (f.commit input output).Effect host files fun i o es => i = input ∧ o = output ∧
      es = edits := by
  have hmade := fun r (applied : f.station.rename f.session.commit = .ok r) =>
    h.made committable applied
  obtain ⟨-, rfl, rfl, -⟩ := h
  rw [OpenFile.commit]
  cases hrename : f.station.rename f.session.commit with
  | error name => exact .kept_of_single rfl (Display.isSaved_error _) rfl
  | ok r =>
    have made := hmade r hrename
    obtain ⟨-, -, hsubstituted⟩ := made.renames.choose_spec
    dsimp only
    rcases hsave : f.desk.saveOrKeep r.station input output with ⟨d', e | path⟩
    · obtain hkept | ⟨rfl, deep, path, rfl, hwrote⟩ := Desk.files_of_saveOrKeep_error hsave
      · exact .kept_of_single rfl (Display.isSaved_renamed r) hkept
      · rw [hsubstituted.depth_eq] at deep
        exact .brokeOff ⟨rfl, rfl, rfl⟩
          (fun _ h => List.mem_singleton.mp h ▸ Display.isSaved_renamed r) rfl
          (.intro f.desk.registry f.station r path made deep rfl hwrote)
    · obtain ⟨rfl, fits, hwrote, hthere⟩ := Desk.wroteOne_of_saveOrKeep hsave
      rw [hsubstituted.depth_eq] at fits
      refine .saved ⟨rfl, rfl, rfl⟩ ⟨_, _, List.mem_cons_of_mem _ (List.mem_singleton.mpr rfl)⟩
        (.intro f.desk.registry f.station r made fits hwrote ?_)
      rintro rfl
      exact hthere rfl

end OpenFile

namespace Command

/-! ## Edits that are asked for -/

/-- The edits that the instructions of a rename command make. -/
def editsOfRenamings (renamings : List Renaming) : List Edit :=
  renamings.map fun op => (op.old, op.new)

/-- The edits that an order makes. -/
def Order.edits : Order → List Edit
  | .propose old new => [(old, new)]
  | _ => []

/-- **The edits that lines of input make**, in their order. -/
def editsOf (lines : List String) : List Edit := lines.flatMap fun line => (Order.read line).edits

/-- **What a run is asked to rename**: its input file, its output file if there is one, and the
edits that are made before it commits. -/
inductive Asks (words : List String) (files : Files) (text : String) :
    String → Option String → List Edit → Prop
  | rename {input : String} {output target : Option String} {instructions : List String}
      {inPlace isConfirmed : Bool} {renamings : List Renaming}
      (reads : Request.read files words =
        .ok (.rename input output instructions inPlace isConfirmed))
      (targets : Request.target output inPlace = .ok target)
      (names : instructions.mapM Request.readRenaming = .ok renamings) :
      Asks words files text input target (editsOfRenamings renamings)
  | interactive {input : String} {output target : Option String} {inPlace : Bool}
      {before rest : List String} {line : String}
      (reads : Request.read files words = .ok (.interactive input output inPlace))
      (targets : Request.target output inPlace = .ok target)
      (follows : inputLines text = before ++ line :: rest)
      (commits : Order.read line = .commit)
      (stays : ∀ earlier ∈ before, Order.read earlier ≠ .quit) :
      Asks words files text input target (editsOf before)

variable {host : Host} {files : Files} {input : String} {output : Option String} {f : OpenFile}
  {edits : List Edit}

/-! ## The rename command -/

/-- Proposals that are all accepted are edits. -/
theorem edited_of_proposeAll {session : Session} {renamings : List Renaming}
    (h : f.Edited host files input edits)
    (accepted : proposeAll f.session renamings = .ok session) :
    { f with session := session }.Edited host files input
      (edits ++ editsOfRenamings renamings) := by
  induction renamings generalizing f edits with
  | nil =>
    cases accepted
    rwa [editsOfRenamings, List.map_nil, List.append_nil]
  | cons op renamings ih =>
    have hedit := h.edit op.old op.new
    rw [proposeAll, List.foldlM_cons] at accepted
    cases hfirst : f.session.edit op.old op.new with
    | error e => rw [hfirst] at accepted; cases accepted
    | ok found =>
      rw [hfirst] at hedit accepted
      have hrest := ih hedit accepted
      rwa [List.append_assoc] at hrest

theorem isSaved_proposed (session : Session) :
    ∀ entry ∈ proposed session, Display.isSaved entry = false := by
  simp [proposed, Display.isSaved, Shown.styled, List.isPrefixOf]

/-- **Settling the proposals** is committing them, or leaves the files as they are. -/
theorem effect_settle (h : f.Edited host files input edits) (output : Option String)
    (isConfirmed : Bool) (lines : List String) :
    (settle f input output isConfirmed lines).Effect host files fun i o es =>
      i = input ∧ o = output ∧ es = edits := by
  have hfiles := h.files_eq
  unfold settle
  split
  · split
    · exact .kept_of_single rfl (Display.isSaved_notice _) hfiles
    · refine .kept (fun entry hentry => ?_) hfiles
      obtain ⟨v, -, rfl⟩ := List.mem_map.mp hentry
      exact Display.isSaved_refused v
  · next hcommittable =>
    have hcommit := h.commit (by simpa using hcommittable) output
    split
    · exact hcommit
    · split
      · exact .kept_of_console_nil rfl hfiles
      · exact hcommit.afterPrompts _
      · exact .kept_of_single rfl (Display.isSaved_notice _) hfiles

/-! ## The interactive command -/

theorem editsOf_cons (line : String) (lines : List String) :
    editsOf (line :: lines) = (Order.read line).edits ++ editsOf lines := rfl

theorem isSaved_overview (w : Worklist) :
    ∀ entry ∈ w.overview, Display.isSaved entry = false := by
  simp [Worklist.overview, Worklist.list]

/-- **An order makes its edits**, and shows no success. -/
theorem edited_obey {w : Worklist}
    (h : { f with session := w.session }.Edited host files input edits)
    (order : Order) :
    { f with session := (w.obey order).1.session }.Edited host files input (edits ++ order.edits) ∧
      ∀ entry ∈ (w.obey order).2, Display.isSaved entry = false := by
  cases order with
  | propose old new =>
    have hedit := h.edit old new
    simp only [Worklist.obey, Worklist.propose, Order.edits]
    cases hresult : w.session.edit old new with
    | error e =>
      rw [hresult] at hedit
      exact ⟨hedit, by simp⟩
    | ok found =>
      rw [hresult] at hedit
      refine ⟨hedit, fun entry hentry => ?_⟩
      rcases List.mem_append.mp hentry with hverdict | hlist
      · split at hverdict
        · exact absurd hverdict List.not_mem_nil
        · rw [List.mem_singleton.mp hverdict]
          simp [Display.isSaved, Shown.styled, List.isPrefixOf]
      · exact isSaved_overview _ entry hlist
  | quit | commit | help => exact ⟨(List.append_nil edits).symm ▸ h, by simp [Worklist.obey]⟩
  | search | clear | «show» => exact ⟨(List.append_nil edits).symm ▸ h, isSaved_overview _⟩

/-- **What the lines of input come to**: one of them commits the edits that are made before it, or
the files are left as they are. -/
theorem effect_follow {w : Worklist} (output : Option String) (lines : List String)
    (h : { f with session := w.session }.Edited host files input edits) :
    (follow f input output w lines).Effect host files fun i o es => i = input ∧ o = output ∧
      ∃ before line rest, lines = before ++ line :: rest ∧ Order.read line = .commit ∧
        (∀ earlier ∈ before, Order.read earlier ≠ .quit) ∧ es = edits ++ editsOf before := by
  induction lines generalizing w edits with
  | nil => exact .kept_of_console_nil rfl h.files_eq
  | cons line lines ih =>
    unfold follow
    dsimp only
    split
    · exact .kept_of_single rfl (Display.isSaved_notice _) h.files_eq
    · next order hquit =>
      split
      · next hcommit =>
        refine ((h.commit hcommit.2 output).afterPrompts _).mono ?_
        rintro i o es ⟨rfl, rfl, rfl⟩
        exact ⟨rfl, rfl, [], line, lines, rfl, hcommit.1, nofun, (List.append_nil _).symm⟩
      · obtain ⟨hedited, hshown⟩ := edited_obey h (Order.read line)
        refine (((ih hedited).after hshown).afterPrompts _).mono ?_
        rintro i o es ⟨rfl, rfl, before, last, rest, rfl, hlast, hstays, rfl⟩
        refine ⟨rfl, rfl, line :: before, last, rest, rfl, hlast,
          List.forall_mem_cons.mpr ⟨hquit, hstays⟩, ?_⟩
        rw [editsOf_cons, List.append_assoc]

/-! ## Every run -/

/-- Listing shows no success. -/
theorem effect_list (host : Host) (files : Files) (input search : String)
    (asked : String → Option String → List Edit → Prop) :
    (list host files input search).Effect host files asked := by
  unfold list
  cases hopen : OpenFile.ofPath host files input with
  | error o => exact OpenFile.effect_of_ofPath hopen asked
  | ok f =>
    refine .kept ?_ rfl
    intro entry hentry
    simp only [listed, List.mem_append, List.mem_singleton] at hentry
    rcases hentry with (rfl | hmatching) | rfl
    · exact Display.isSaved_found _ _
    · split at hmatching
      · exact absurd hmatching List.not_mem_nil
      · rw [List.mem_singleton.mp hmatching]
        exact Display.isSaved_matching _ _
    · rfl

theorem effect_rename (host : Host) (files : Files) (input : String) (output : Option String)
    (instructions : List String) (inPlace isConfirmed : Bool) (lines : List String) :
    (rename host files input output instructions inPlace isConfirmed lines).Effect host files
      fun i target es => i = input ∧ Request.target output inPlace = .ok target ∧
        ∃ renamings, instructions.mapM Request.readRenaming = .ok renamings ∧
          es = editsOfRenamings renamings := by
  unfold rename
  cases htarget : Request.target output inPlace with
  | error e => exact .kept_of_console_nil rfl rfl
  | ok target =>
    cases hnames : instructions.mapM Request.readRenaming with
    | error e => exact .kept_of_console_nil rfl rfl
    | ok renamings =>
      dsimp only
      cases hopen : OpenFile.ofPath host files input with
      | error o => exact OpenFile.effect_of_ofPath hopen _
      | ok f =>
        dsimp only
        cases hpropose : proposeAll f.session renamings with
        | error e => exact .kept_of_single rfl (Display.isSaved_error _) rfl
        | ok session =>
          have hedited := edited_of_proposeAll (OpenFile.edited_of_ofPath hopen) hpropose
          refine ((effect_settle hedited target isConfirmed lines).after
            (isSaved_proposed session)).mono ?_
          rintro i o es ⟨rfl, rfl, rfl⟩
          exact ⟨rfl, rfl, renamings, rfl, rfl⟩

theorem effect_interactive (host : Host) (files : Files) (input : String) (output : Option String)
    (inPlace : Bool) (lines : List String) :
    (interactive host files input output inPlace lines).Effect host files fun i target es =>
      i = input ∧ Request.target output inPlace = .ok target ∧
        ∃ before line rest, lines = before ++ line :: rest ∧ Order.read line = .commit ∧
          (∀ earlier ∈ before, Order.read earlier ≠ .quit) ∧ es = editsOf before := by
  unfold interactive
  cases htarget : Request.target output inPlace with
  | error e => exact .kept_of_console_nil rfl rfl
  | ok target =>
    dsimp only
    cases hopen : OpenFile.ofPath host files input with
    | error o => exact OpenFile.effect_of_ofPath hopen _
    | ok f =>
      have hfollow := effect_follow (w := { session := f.session }) target lines
        (OpenFile.edited_of_ofPath hopen)
      refine (hfollow.after (by simp [Worklist.list])).mono ?_
      rintro i o es ⟨rfl, rfl, hbefore⟩
      exact ⟨rfl, rfl, hbefore⟩

/-- **The effect of a run.** -/
theorem effect_run (host : Host) (words : List String) (files : Files) (text : String) :
    (run host words files text).Effect host files (Asks words files text) := by
  unfold run
  cases hread : Request.read files words with
  | error e => exact .kept_of_console_nil rfl rfl
  | ok request =>
    cases request with
    | help => exact .kept_of_console_nil rfl rfl
    | list input search => exact effect_list host files input search _
    | rename input output instructions inPlace isConfirmed =>
      refine (effect_rename host files input output instructions inPlace isConfirmed _).mono ?_
      rintro i target es ⟨rfl, htarget, renamings, hnames, rfl⟩
      exact .rename hread htarget hnames
    | interactive input output inPlace =>
      refine (effect_interactive host files input output inPlace _).mono ?_
      rintro i target es ⟨rfl, htarget, before, line, rest, hlines, hline, hstays, rfl⟩
      exact .interactive hread htarget hlines hline hstays

/-- **A run changes the files only by saving.** A run that shows the message of success was asked
for some edits, and has written the document of its input file, with every IED under the name that
was proposed last for it, to its output file, or over the input file if there is none; nothing else
has changed. A run that does not show it leaves all files as they are, unless its document is too
deep for the host: then it ends at once, and a beginning of the document is left in its output
file. -/
theorem files_of_run (host : Host) (words : List String) (files : Files) (text : String) :
    ((run host words files text).Succeeded → ∃ input output edits,
      Asks words files text input output edits ∧
        Wrote host files input output edits (run host words files text).files) ∧
    (¬ (run host words files text).Succeeded →
      (run host words files text).files = files ∨
        (run host words files text).ending = .failed (.file .tooDeep) ∧ ∃ input output edits,
          Asks words files text input output edits ∧
            BrokeOff host files input output edits (run host words files text).files) :=
  ⟨(effect_run host words files text).wrote_of_succeeded,
    (effect_run host words files text).files_of_not_succeeded⟩

/-- A folder with a station of one IED, and another file. -/
def folder : Files where
  files := [("a.scd", ⟨"<SCL><IED name='A'/></SCL>".toUTF8.toList, 0o600⟩), ("b.scd", ⟨[], 0o644⟩)]

/-- A command line that renames the IED in place. -/
def renameInPlace : List String := ["rename", "a.scd", "-r", "A=B", "--inplace", "-y"]

theorem files_of_run_folder :
    (run .usual renameInPlace folder "").Succeeded ∧
    ∃ input output edits, Asks renameInPlace folder "" input output edits ∧
      Wrote .usual folder input output edits (run .usual renameInPlace folder "").files := by
  have hlast : (run .usual renameInPlace folder "").console.getLast? =
    some (Display.saved 1 "a.scd") := by
    decide +kernel
  have hsucceeded : (run .usual renameInPlace folder "").Succeeded :=
    ⟨1, "a.scd", List.mem_of_getLast? hlast⟩
  exact ⟨hsucceeded, (files_of_run .usual renameInPlace folder "").1 hsucceeded⟩

end Command

end StationNaming
