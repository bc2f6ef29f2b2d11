import StationNaming.Proofs.Command.Instructions
import StationNaming.Proofs.Command.Words
import StationNaming.Proofs.Station.Reopening
/-!
# Assigning names

A rename command can ask for a new name for every IED of a file at once.

**What is exact.** If the new names may stand together and one of them is new, the command saves the
file under them exactly if every IED can be asked for, the output file can be written, and the
document is not too deep for the host (`succeeded_run_assignment_iff`). An IED can be asked for if
its name is not empty and holds no equals sign: a word of the command line is read as an old name up
to its first equals sign, and that may not be empty. Where one cannot be asked for, nothing is
written.
-/

namespace StationNaming

open Naming (Admissible)

/-- What can be read is there. -/
theorem Files.hasPath_of_read {files : Files} {path : String} {bytes : List UInt8}
    (h : files.read path = .ok bytes) : files.hasPath path = true := by
  unfold read at h
  split at h
  · next plain hfile => rw [hasPath, hfile]
  all_goals cases h

/-! ## Assignments -/

instance (name : String) : Decidable (Admissible name) :=
  decidable_of_iff (matchesPattern name.toList = true ∧ name.length ≤ 63)
    (by rw [Naming.admissible_iff, Naming.matchesPattern_iff])

/-- **New names for all IEDs**: they may stand together, and at least one is new. -/
structure Assigns (records : List Ied) (target : String → String) : Prop where
  distinct : (records.map fun r => target r.name).Nodup
  admissible : ∀ r ∈ records, Admissible (target r.name)
  changes : ∃ r ∈ records, target r.name ≠ r.name

instance (records : List Ied) (target : String → String) : Decidable (Assigns records target) :=
  decidable_of_iff ((records.map fun r => target r.name).Nodup ∧
    (∀ r ∈ records, Admissible (target r.name)) ∧
      ∃ r ∈ records, target r.name ≠ r.name)
    ⟨fun h => ⟨h.1, h.2.1, h.2.2⟩, fun h => ⟨h.distinct, h.admissible, h.changes⟩⟩

/-- The edits that give every IED its new name. -/
def assignment (records : List Ied) (target : String → String) : List Edit :=
  records.map fun r => (r.name, target r.name)

/-- An IED keeps its name if no edit is made to it. -/
theorem lastProposed_of_notMem {edits : List Edit} {name : String} (h : name ∉ edits.map (·.1)) :
    lastProposed edits name = name := by
  cases hlookup : edits.reverse.lookup name with
  | none => rw [lastProposed, hlookup, Option.getD_none]
  | some value =>
    have hmem := Keyed.mem_keys_of_lookup hlookup
    rw [List.map_reverse, List.mem_reverse] at hmem
    exact absurd hmem h

section Assignment

variable {records : List Ied} {target : String → String} {edits : List Edit}

theorem mem_edits_iff (asked : edits.Perm (assignment records target)) {e : Edit} :
    e ∈ edits ↔ ∃ r ∈ records, (r.name, target r.name) = e := asked.mem_iff.trans List.mem_map

/-- **In any order**, the edits leave every IED its new name. -/
theorem lastProposed_assignment (distinct : (records.map (·.name)).Nodup)
    (asked : edits.Perm (assignment records target)) {r : Ied} (hr : r ∈ records) :
    lastProposed edits r.name = target r.name := by
  have hkeys : (edits.reverse.map (·.1)).Perm (records.map (·.name)) := by
    refine ((edits.reverse_perm.trans asked).map (·.1)).trans (List.Perm.of_eq ?_)
    rw [assignment, List.map_map]
    rfl
  have hmem : (r.name, target r.name) ∈ edits.reverse :=
    List.mem_reverse.mpr ((mem_edits_iff asked).mpr ⟨r, hr, rfl⟩)
  rw [lastProposed, (Keyed.lookup_eq_some_iff_mem (hkeys.nodup_iff.mpr distinct)).mpr hmem,
    Option.getD_some]

end Assignment

/-- **An IED that can be asked for** in a word of the command line. -/
def CanAsk (name : String) : Prop := name ≠ "" ∧ '=' ∉ name.toList

instance (name : String) : Decidable (CanAsk name) :=
  inferInstanceAs (Decidable (name ≠ "" ∧ '=' ∉ name.toList))

/-- A name that may stand can be asked for. -/
theorem canAsk_of_admissible {name : String} (h : Admissible name) : CanAsk name := by
  refine ⟨((Naming.admissible_iff name).mp h).1.ne_empty, fun hmem => ?_⟩
  obtain ⟨c, cs, hname, hletter, hfollowers, -⟩ := h
  rw [hname, List.mem_cons] at hmem
  rcases hmem with rfl | hmem
  · exact absurd ((Naming.isNameStart_iff _).mpr hletter) (by decide)
  · exact absurd ((Naming.isNameChar_iff _).mpr (hfollowers _ hmem)) (by decide)

namespace Request

/-- **What is read of words** has no equals sign in an old name, and all words are read. -/
theorem read_of_mapM_readRenaming {words : List String} {renamings : List Renaming}
    (h : words.mapM readRenaming = .ok renamings) :
    (∀ op ∈ renamings, '=' ∉ op.old.toList) ∧ ∀ word ∈ words, ∃ op, readRenaming word = .ok op := by
  induction words generalizing renamings with
  | nil =>
    cases h
    exact ⟨List.forall_mem_nil _, List.forall_mem_nil _⟩
  | cons word words ih =>
    rw [List.mapM_cons] at h
    cases hfirst : readRenaming word with
    | error e => rw [hfirst] at h; cases h
    | ok op =>
      cases hrest : words.mapM readRenaming with
      | error e => rw [hfirst, hrest] at h; cases h
      | ok rest =>
        rw [hfirst, hrest] at h
        cases h
        obtain ⟨hunequal, hread⟩ := ih hrest
        exact ⟨List.forall_mem_cons.mpr ⟨notMem_old_of_readRenaming hfirst, hunequal⟩,
          List.forall_mem_cons.mpr ⟨⟨op, hfirst⟩, hread⟩⟩

end Request

/-! ## Saving under new names -/

namespace OpenFile.Edited

variable {host : Host} {files : Files} {input path : String} {f : OpenFile} {edits : List Edit}

/-- No two IEDs of the file have one name. -/
theorem distinct (h : f.Edited host files input edits) : (f.station.records.map (·.name)).Nodup :=
  h.session_eq.1

theorem reached (h : f.Edited host files input edits) : Station.Reached f.desk.registry := by
  obtain ⟨bytes, -, hopens⟩ := h.reads
  exact Station.Reached.initial.of_opens hopens

/-- IEDs that can be asked for have names. -/
theorem named_of_canAsk (h : f.Edited host files input edits)
    (askable : ∀ r ∈ f.station.records, CanAsk r.name) : f.station.Named := by
  by_contra hnot
  obtain ⟨r, hr, hname⟩ := List.mem_map.mp (Station.empty_of_not_named h.distinct hnot).1
  exact (askable r hr).1 hname

/-- **What committing renames**: every IED, if all of them have names; no element is nested
otherwise. -/
theorem exists_renamed (h : f.Edited host files input edits)
    (committable : f.session.isCommittable = true) (named : f.station.Named) :
    ∃ r, f.station.rename f.session.commit = .ok r ∧
      r.station.records =
        f.station.records.map
          (fun record => { record with name := lastProposed edits record.name }) ∧
      r.station.root.depth = f.station.root.depth := by
  obtain ⟨r, applied, hsubstituted⟩ := h.exists_substituted named
  exact ⟨r, applied, h.records_of_commit committable applied, hsubstituted.depth_eq⟩

section Committing

variable {r : Station.Renamed} (h : f.Edited host files input edits)
  (applied : f.station.rename f.session.commit = .ok r)

include h applied

/-- **Committing to a file that can be written**, with room for the document. -/
theorem exists_commit (writable : files.CanWrite path) (fits : r.station.root.depth ≤ host.room) :
    ∃ after, files.WroteOne (Files.plainPath path) (r.station.toBytes f.desk.registry) after ∧
      f.commit input (some path) = {
        console := [Display.renamed r, Display.saved f.session.commit.length path],
        files := after } := by
  obtain ⟨-, rfl, rfl, -⟩ := h
  obtain ⟨after, hwrote, hsave⟩ := Desk.exists_save writable fits
  exact ⟨after, hwrote, by simp only [OpenFile.commit, applied, Desk.saveOrKeep, hsave]⟩

/-- **Committing a document that is too deep** breaks off, and leaves a beginning of it in the
file. -/
theorem exists_commit_of_deep (writable : files.CanWrite path)
    (deep : host.room < r.station.root.depth) :
    ∃ after,
      files.WroteBeginning (Files.plainPath path) (Xml.write f.desk.registry r.station.root) after ∧
      f.commit input (some path) = {
        ending := .failed (.file .tooDeep), console := [Display.renamed r], files := after } := by
  obtain ⟨-, rfl, rfl, -⟩ := h
  obtain ⟨after, hwrote, hsave⟩ := Desk.exists_save_of_deep writable deep
  exact ⟨after, hwrote, by simp only [OpenFile.commit, applied, Desk.saveOrKeep, hsave]⟩

/-- Where nothing can be written, committing writes nothing. -/
theorem effect_commit_of_not_canWrite (unwritable : ¬ files.CanWrite path) :
    (f.commit input (some path)).Effect host files fun _ _ _ => False := by
  obtain ⟨-, rfl, rfl, -⟩ := h
  obtain ⟨e, hsave⟩ := Desk.exists_save_of_not_canWrite r.station unwritable
  simp only [OpenFile.commit, applied, Desk.saveOrKeep, hsave]
  exact .kept_of_single rfl (Display.isSaved_renamed r) rfl

/-- **What was saved can be opened again** with the names it was saved under, if it can be opened as
it was. -/
theorem exists_reopened (reopens : Station.Reopens f.desk.registry r.station.root)
    (again : Xml.PrefixRegistry) (path : String) :
    ∃ s, (Station.ofBytes host.intake again path (r.station.toBytes f.desk.registry)).2 = .ok s ∧
      s.records = r.station.records := by
  have hreached := h.reached
  obtain ⟨⟨bytes, -, hopens⟩, -, -, distinct, hsession⟩ := h
  rw [hsession] at applied
  obtain ⟨hroot, htail⟩ :=
    Station.sound_of_rename (Station.sound_of_ofBytes (congrArg Prod.snd hopens))
    (fun op hop => Station.isDocumentText_of_admissible (Ledger.admissible_new hop)) applied
  have hparsed := (Xml.parse?_write hreached.sound hroot htail _).mpr ⟨reopens.written, rfl⟩
  have hfree :=
    (Station.unreserved_saved_iff hreached.sound hroot reopens.written htail).mpr reopens.registered
  exact ⟨⟨Xml.rewritten f.desk.registry r.station.root, Files.plainPath path⟩,
    Station.ofBytes_eq_ok_iff.mpr ⟨hfree, hparsed, rfl⟩,
    (Station.records_saved_iff hreached.sound hroot reopens.written).mpr reopens.records⟩

end Committing

end OpenFile.Edited

namespace Command

variable {host : Host} {files : Files} {input : String} {f : OpenFile} {target : String → String}
  {edits : List Edit}

/-- **Where every word of an assignment can be read**, only an equals sign keeps an IED from being
asked for. -/
theorem equals_mem_of_not_canAsk {records : List Ied}
    (asked : edits.Perm (assignment records target))
    {r : Ied} (hr : r ∈ records) (unaskable : ¬ CanAsk r.name)
    (readable : ∀ word ∈ edits.map instruction, ∃ op, Request.readRenaming word = .ok op) :
    '=' ∈ r.name.toList := by
  by_contra hnot
  have nameless : r.name = "" := by
    by_contra hne
    exact unaskable ⟨hne, hnot⟩
  -- The word that asks for it could not have been read.
  have hword : (r.name, target r.name) ∈ edits := (mem_edits_iff asked).mpr ⟨r, hr, rfl⟩
  obtain ⟨op, hop⟩ := readable _ (List.mem_map_of_mem hword)
  rw [Request.readRenaming_of_nameless nameless] at hop
  cases hop

/-- An IED with an equals sign in its name is in no renaming that was read of a word. -/
theorem notMem_editsOfRenamings {renamings : List Renaming}
    (hunequal : ∀ op ∈ renamings, '=' ∉ op.old.toList) {name : String}
    (hequals : '=' ∈ name.toList) :
    name ∉ (editsOfRenamings renamings).map (·.1) := by
  rw [editsOfRenamings, List.map_map]
  intro hmem
  obtain ⟨op, hop, hname⟩ := List.mem_map.mp hmem
  have hold : op.old = name := hname
  exact hunequal op hop (hold ▸ hequals)

/-- **An IED that cannot be asked for** keeps the command from saving anything. -/
theorem effect_rename_of_not_canAsk (opens : OpenFile.ofPath host files input = .ok f)
    (asked : edits.Perm (assignment f.station.records target)) {r : Ied}
    (hr : r ∈ f.station.records)
    (unaskable : ¬ CanAsk r.name) (output : Option String) (inPlace : Bool) (lines : List String) :
    (rename host files input output (edits.map instruction) inPlace true lines).Effect host files
      fun _ _ _ => False := by
  rw [rename]
  cases htarget : Request.target output inPlace with
  | error e => exact .kept_of_console_nil rfl rfl
  | ok path =>
    cases hread : (edits.map instruction).mapM Request.readRenaming with
    | error e => exact .kept_of_console_nil rfl rfl
    | ok renamings =>
      obtain ⟨hunequal, readable⟩ := Request.read_of_mapM_readRenaming hread
      have huntouched :=
        notMem_editsOfRenamings hunequal (equals_mem_of_not_canAsk asked hr unaskable readable)
      have hopened := OpenFile.edited_of_ofPath opens
      simp only [opens]
      cases hpropose : proposeAll f.session renamings with
      | error e => exact .kept_of_single rfl (Display.isSaved_error _) rfl
      | ok session =>
        have hedited := edited_of_proposeAll hopened hpropose
        -- It keeps its name, and that name may not stand.
        have uncommittable : ¬ session.isCommittable = true := fun committable => by
          have hadmissible := (hedited.isCommittable_iff.mp committable).2.2 r hr
          rw [List.nil_append, lastProposed_of_notMem huntouched] at hadmissible
          exact unaskable (canAsk_of_admissible hadmissible)
        refine Outcome.Effect.after ?_ (isSaved_proposed session)
        exact effect_settle_of_not_committable (f := { f with session := session })
          hopened.files_eq uncommittable path true lines

/-- **If every IED can be asked for**, all edits are made and the session is committed. -/
theorem exists_rename_eq_commit (opens : OpenFile.ofPath host files input = .ok f)
    (assigns : Assigns f.station.records target)
    (asked : edits.Perm (assignment f.station.records target))
    (askable : ∀ r ∈ f.station.records, CanAsk r.name) (path : String) (lines : List String) :
    ∃ session, { f with session := session }.Edited host files input edits ∧
      session.isCommittable = true ∧
      rename host files input (some path) (edits.map instruction) false true lines =
        ({ f with session := session }.commit input (some path)).after (proposed session) := by
  have hopened := OpenFile.edited_of_ofPath opens
  have hknown : ∀ e ∈ edits, CanAsk e.1 ∧ e.1 ∈ f.station.records.map (·.name) := by
    intro e he
    obtain ⟨r, hr, rfl⟩ := (mem_edits_iff asked).mp he
    exact ⟨askable r hr, List.mem_map_of_mem hr⟩
  have hread := Request.mapM_readRenaming (fun e he => (hknown e he).1.1)
    (fun e he => (hknown e he).1.2)
  obtain ⟨session, accepted, hedited⟩ := hopened.exists_proposeAll fun e he => (hknown e he).2
  rw [List.nil_append] at hedited
  have hproposed : ∀ r ∈ f.station.records, lastProposed edits r.name = target r.name := fun r hr =>
    lastProposed_assignment hopened.distinct asked hr
  have committable : session.isCommittable = true := by
    refine hedited.isCommittable_iff.mpr ⟨?_, ?_, fun r hr => ?_⟩
    · obtain ⟨r, hr, hne⟩ := assigns.changes
      exact ⟨r, hr, (hproposed r hr).symm ▸ hne⟩
    · show (f.station.records.map fun r => lastProposed edits r.name).Nodup
      rw [List.map_congr_left hproposed]
      exact assigns.distinct
    · rw [hproposed r hr]
      exact assigns.admissible r hr
  refine ⟨session, hedited, committable, ?_⟩
  simp only [rename, Request.target, hread, opens, accepted, settle, committable, Bool.not_true,
    Bool.false_eq_true, if_false, if_true]

/-! ## What an assignment comes to -/

/-- **The document of a file under new names**: the renamings, and what they make of it. -/
structure NamedBy (f : OpenFile) (target : String → String) (ops : List Renaming)
    (r : Station.Renamed) : Prop where
  applied : f.station.rename ops = .ok r
  records_eq : r.station.records =
    f.station.records.map (fun record => { record with name := target record.name })

/-- **What an assignment leaves**: the exit code 0, and the document under the new names in the
output file. -/
structure SavedUnder (host : Host) (files : Files) (f : OpenFile) (target : String → String)
    (path : String) (o : Outcome) : Prop where
  code_eq : o.ending.code = 0
  saved : ∃ ops r, NamedBy f target ops r ∧
    files.WroteOne (Files.plainPath path) (r.station.toBytes f.desk.registry) o.files ∧
    (Station.Reopens f.desk.registry r.station.root → ∀ again, ∃ s,
      (Station.ofBytes host.intake again path (r.station.toBytes f.desk.registry)).2 = .ok s ∧
        s.records = r.station.records)

section Outcomes

variable (opens : OpenFile.ofPath host files input = .ok f)
  (assigns : Assigns f.station.records target)
  (asked : edits.Perm (assignment f.station.records target))
  (askable : ∀ r ∈ f.station.records, CanAsk r.name) (path : String) (lines : List String)

include opens assigns asked askable

/-- **An assignment is committed** by a rename command that asks for it. -/
theorem exists_rename_assignment : ∃ session r,
    { f with session := session }.Edited host files input edits ∧
      NamedBy f target session.commit r ∧ r.station.root.depth = f.station.root.depth ∧
      rename host files input (some path) (edits.map instruction) false true lines =
        ({ f with session := session }.commit input (some path)).after (proposed session) := by
  have hopened := OpenFile.edited_of_ofPath opens
  obtain ⟨session, hedited, committable, hrename⟩ :=
    exists_rename_eq_commit opens assigns asked askable path lines
  obtain ⟨r, applied, hrecords, hdepth⟩ :=
    hedited.exists_renamed committable (hopened.named_of_canAsk askable)
  refine ⟨session, r, hedited, ⟨applied, ?_⟩, hdepth, hrename⟩
  rw [hrecords]
  refine List.map_congr_left fun record hrecord => ?_
  rw [lastProposed_assignment hopened.distinct asked hrecord]

/-- **It is saved** to a file that can be written, with room for the document. -/
theorem savedUnder_rename_assignment (writable : files.CanWrite path)
    (fits : f.station.root.depth ≤ host.room) :
    (rename host files input (some path) (edits.map instruction) false true lines).Succeeded ∧
      SavedUnder host files f target path
        (rename host files input (some path) (edits.map instruction) false true lines) := by
  obtain ⟨session, r, hedited, hnamed, hdepth, hrename⟩ :=
    exists_rename_assignment opens assigns asked askable path lines
  obtain ⟨after, hwrote, hcommit⟩ :=
    hedited.exists_commit hnamed.applied writable (hdepth.symm ▸ fits)
  rw [hrename, hcommit]
  exact ⟨⟨session.commit.length, path,
      List.mem_append_right _ (List.mem_cons_of_mem _ List.mem_cons_self)⟩,
    rfl, session.commit, r, hnamed, hwrote,
    fun reopens again => hedited.exists_reopened hnamed.applied reopens again path⟩

/-- **It breaks off** if the document is too deep, with a beginning of it in the file. -/
theorem brokeOff_rename_assignment (writable : files.CanWrite path)
    (deep : host.room < f.station.root.depth) :
    ¬ (rename host files input (some path) (edits.map instruction) false true lines).Succeeded ∧
      (rename host files input (some path) (edits.map instruction) false true lines).ending =
        .failed (.file .tooDeep) ∧
      ∃ ops r, NamedBy f target ops r ∧
        files.WroteBeginning (Files.plainPath path) (Xml.write f.desk.registry r.station.root)
          (rename host files input (some path) (edits.map instruction) false true lines).files := by
  obtain ⟨session, r, hedited, hnamed, hdepth, hrename⟩ :=
    exists_rename_assignment opens assigns asked askable path lines
  obtain ⟨after, hwrote, hcommit⟩ :=
    hedited.exists_commit_of_deep hnamed.applied writable (hdepth.symm ▸ deep)
  rw [hrename, hcommit]
  refine ⟨Outcome.not_succeeded (List.forall_mem_append.mpr ⟨isSaved_proposed session, ?_⟩), rfl,
    session.commit, r, hnamed, hwrote⟩
  exact List.forall_mem_singleton.mpr (Display.isSaved_renamed r)

/-- **Nothing is written** where the file cannot be. -/
theorem unchanged_rename_assignment (unwritable : ¬ files.CanWrite path) :
    ¬ (rename host files input (some path) (edits.map instruction) false true lines).Succeeded ∧
      (rename host files input (some path) (edits.map instruction) false true lines).files =
        files := by
  obtain ⟨session, r, hedited, hnamed, -, hrename⟩ :=
    exists_rename_assignment opens assigns asked askable path lines
  rw [hrename]
  exact ((hedited.effect_commit_of_not_canWrite hnamed.applied unwritable).after
    (isSaved_proposed session)).unchanged

end Outcomes

/-- What is known of an outcome that is no success because something is not as it must be. -/
theorem of_not_able {o : Outcome} {able fits unchanged saved : Prop} (unable : ¬ able)
    (hnot : ¬ o.Succeeded) (hfiles : fits → unchanged) :
    (o.Succeeded ↔ able) ∧ (o.Succeeded → saved) ∧ (¬ o.Succeeded → fits → unchanged) :=
  ⟨iff_of_false hnot unable, fun hsucceeded => absurd hsucceeded hnot, fun _ => hfiles⟩

/-- **Which assignments of new names can be asked for.** A new name for every IED of a file is asked
for, in any order, by a command line for files of any name; and by one with its switches behind the
files, if their names do not begin with a dash. However it is written, the run succeeds exactly if
every IED can be asked for, the output file can be written, and the document is not too deep for the
host. It then saves the document under the new names. Otherwise it leaves all files as they are, if
the document is not too deep. -/
theorem succeeded_run_assignment_iff (opens : OpenFile.ofPath host files input = .ok f)
    (assigns : Assigns f.station.records target)
    (asked : edits.Perm (assignment f.station.records target)) (path : String) :
    (Request.read files (renameWords input (some path) (edits.map instruction) false) =
      .ok (.rename input (some path) (edits.map instruction) false true) ∧
      (input.toList.head? ≠ some '-' → path.toList.head? ≠ some '-' →
        Request.read files (renameWordsBehind input path (edits.map instruction)) =
          .ok (.rename input (some path) (edits.map instruction) false true))) ∧
    ∀ (words : List String) (text : String),
      Request.read files words =
        .ok (.rename input (some path) (edits.map instruction) false true) →
      ((run host words files text).Succeeded ↔ (∀ r ∈ f.station.records, CanAsk r.name) ∧
        files.CanWrite path ∧ f.station.root.depth ≤ host.room) ∧
      ((run host words files text).Succeeded →
        SavedUnder host files f target path (run host words files text)) ∧
      (¬ (run host words files text).Succeeded → f.station.root.depth ≤ host.room →
        (run host words files text).files = files) := by
  constructor
  · obtain ⟨bytes, hbytes, -⟩ := (OpenFile.edited_of_ofPath opens).reads
    have hne : edits.map instruction ≠ [] := by
      obtain ⟨r, hr, -⟩ := assigns.changes
      exact List.ne_nil_of_mem (List.mem_map_of_mem ((mem_edits_iff asked).mpr ⟨r, hr, rfl⟩))
    have there := Files.hasPath_of_read hbytes
    refine ⟨?_, fun hinput hpath => read_renameWordsBehind there hinput hpath hne⟩
    rw [read_renameWords, if_pos there, if_neg hne]
  · intro words text hwords
    have hrun : run host words files text =
        rename host files input (some path) (edits.map instruction) false true
          (inputLines text) := by
      simp only [run, hwords, grant]
    rw [hrun]
    by_cases askable : ∀ r ∈ f.station.records, CanAsk r.name
    · by_cases writable : files.CanWrite path
      · rcases Nat.lt_or_ge host.room f.station.root.depth with deep | fits
        · obtain ⟨hnot, -⟩ :=
            brokeOff_rename_assignment opens assigns asked askable path (inputLines text)
              writable deep
          exact of_not_able (fun h => absurd h.2.2 (Nat.not_le_of_lt deep)) hnot
            fun fits => absurd fits (Nat.not_le_of_lt deep)
        · obtain ⟨hsucceeded, hsaved⟩ :=
            savedUnder_rename_assignment opens assigns asked askable path (inputLines text)
              writable fits
          exact ⟨iff_of_true hsucceeded ⟨askable, writable, fits⟩, fun _ => hsaved,
            fun hnot => absurd hsucceeded hnot⟩
      · obtain ⟨hnot, hfiles⟩ :=
          unchanged_rename_assignment opens assigns asked askable path (inputLines text) writable
        exact of_not_able (fun h => writable h.2.1) hnot fun _ => hfiles
    · obtain ⟨r, hr, unaskable⟩ : ∃ r ∈ f.station.records, ¬ CanAsk r.name := by
        by_contra hnone
        exact askable fun r hr => by_contra fun unaskable => hnone ⟨r, hr, unaskable⟩
      obtain ⟨hnot, hfiles⟩ :=
        (effect_rename_of_not_canAsk opens asked hr unaskable (some path) false
          (inputLines text)).unchanged
      exact of_not_able (fun h => askable h.1) hnot fun _ => hfiles

/-- A folder with a station of two IEDs, of which one has a name that may not stand. -/
def brokenFolder : Files where
  files := [("a.scd", ⟨"<SCL><IED name='1 2'/><IED name='A'/></SCL>".toUTF8.toList, 0o644⟩)]

/-- New names for its IEDs, of which one is taken from the other. -/
def repaired (name : String) : String := if name = "A" then "B" else "A"

theorem succeeded_run_assignment_repaired :
    ∃ f, OpenFile.ofPath .usual brokenFolder "a.scd" = .ok f ∧
    Assigns f.station.records repaired ∧
    [("A", "B"), ("1 2", "A")].Perm (assignment f.station.records repaired) ∧
    SavedUnder .usual brokenFolder f repaired "out.scd"
      (run .usual ["rename", "a.scd", "out.scd", "-y", "-r", "A=B", "-r", "1 2=A"]
        brokenFolder "") := by
  have hopened : (OpenFile.ofPath .usual brokenFolder "a.scd").toOption.map
      (fun f => (f.station.records, f.station.root.depth)) =
      some ([{ name := "1 2" }, { name := "A" }], 2) := by decide +kernel
  cases hopen : OpenFile.ofPath .usual brokenFolder "a.scd" with
  | error o =>
    rw [hopen] at hopened
    cases hopened
  | ok f =>
    rw [hopen] at hopened
    obtain ⟨hrecords, hdepth⟩ := Prod.mk.inj (Option.some.inj hopened)
    have hassigns : Assigns f.station.records repaired := by
      rw [hrecords]
      decide +kernel
    have hasked : [("A", "B"), ("1 2", "A")].Perm (assignment f.station.records repaired) := by
      rw [hrecords]
      decide
    obtain ⟨⟨-, hread⟩, hrun⟩ := succeeded_run_assignment_iff hopen hassigns hasked "out.scd"
    obtain ⟨hiff, hsaved, -⟩ := hrun _ "" (hread (by decide) (by decide))
    refine ⟨f, rfl, hassigns, hasked,
      hsaved (hiff.mpr ⟨?_, ⟨"out.scd", .inr (by decide +kernel)⟩, ?_⟩)⟩
    · rw [hrecords]
      decide
    · rw [hdepth]
      decide

/-- A folder with two stations, of which one has an IED with an equals sign in its name, and one an
IED with an empty name. -/
def unaskableFolder : Files where
  files := [("s.scd", ⟨"<SCL><IED name='A=B'/></SCL>".toUTF8.toList, 0o644⟩),
    ("t.scd", ⟨"<SCL><IED name=''/></SCL>".toUTF8.toList, 0o644⟩)]

/-- **Some IEDs cannot be asked for.** -/
theorem run_assignment_unaskable :
    ((OpenFile.ofPath .usual unaskableFolder "s.scd").toOption.map (·.station.records) =
        some [{ name := "A=B" }] ∧
      (OpenFile.ofPath .usual unaskableFolder "t.scd").toOption.map (·.station.records) =
        some [{ name := "" }]) ∧
    (Assigns [{ name := "A=B" }] (fun _ => "C") ∧ Assigns [{ name := "" }] (fun _ => "A")) ∧
    unaskableFolder.CanWrite "out.scd" ∧
    ((run .usual ["rename", "s.scd", "out.scd", "-y", "-r", "A=B=C"] unaskableFolder
        "").ending.code = 1 ∧
      (run .usual ["rename", "s.scd", "out.scd", "-y", "-r", "A=B=C"] unaskableFolder "").files =
        unaskableFolder) ∧
    (run .usual ["rename", "t.scd", "out.scd", "-y", "-r", "=A"] unaskableFolder
        "").ending.code = 2 ∧
      (run .usual ["rename", "t.scd", "out.scd", "-y", "-r", "=A"] unaskableFolder "").files =
        unaskableFolder := by
  exact ⟨⟨by decide +kernel, by decide +kernel⟩, ⟨by decide +kernel, by decide +kernel⟩,
    ⟨"out.scd", .inr (by decide +kernel)⟩, ⟨by decide +kernel, by decide +kernel⟩,
    by decide +kernel, by decide +kernel⟩

end Command

end StationNaming
