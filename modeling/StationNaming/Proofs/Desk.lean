import StationNaming.Desk
import StationNaming.Proofs.Files.InPlace
import StationNaming.Proofs.Xml.Drafted
/-!
# What saving on a desk comes to

A document is saved to an output file, or in place of its input file. It succeeds if something can
be written there and the document is not too deep for the host.

**What is exact.** `wroteOne_of_saveOrKeep` covers every saving that succeeds: one path is written,
with all of the document. `files_of_saveOrKeep_error` covers every one that fails: all files are as
they were, unless the document is too deep and goes to an output file. That one then holds a
beginning of it.
-/

namespace StationNaming

/-! ## Files of which one was written -/

namespace Files

variable {files after : Files} {path plain : String} {content : List UInt8}

/-- **Files of which one was written**: it has the content, the permissions it had before or those
of a new file, and all others are as before. -/
structure WroteOne (files : Files) (plain : String) (content : List UInt8)
    (after : Files) : Prop where
  written : ∃ mode, after.find? plain = some ⟨content, mode⟩ ∧
    (∀ old, files.find? plain = some old → mode = old.mode) ∧
    (files.find? plain = none → mode = newMode)
  others : ∀ other, other ≠ plain → after.find? other = files.find? other
  directories_eq : after.directories = files.directories

/-- **Files of which one was written with the beginning of a text**, after which something is
missing. -/
def WroteBeginning (files : Files) (plain text : String) (after : Files) : Prop :=
  ∃ begun rest, rest ≠ "" ∧ text = begun ++ rest ∧ files.WroteOne plain begun.toUTF8.toList after

theorem wroteOne_update (files : Files) (plain : String) (content : List UInt8) :
    files.WroteOne plain content (files.update plain content) where
  written := by
    refine ⟨_, by rw [update, find?_put, if_pos rfl], ?_, ?_⟩
    · intro old hold
      rw [hold, Option.map_some, Option.getD_some]
    · intro hnone
      rw [hnone, Option.map_none, Option.getD_none]
  others other hother := by rw [update, find?_put, if_neg hother]
  directories_eq := rfl

/-- Where something can be written, its plain path is written. -/
theorem eq_plainPath_of_locate (h : files.locate path = .file plain ∨ files.locate path =
    .free plain) :
    plain = plainPath path := by
  simp only [locate] at h
  split_ifs at h <;> simp_all

/-- **Where a path leads** is told by the paths of the files, whatever is in them. -/
theorem locate_congr {fs fs' : Files} (hfiles : fs.files.map (·.1) = fs'.files.map (·.1))
    (hdirectories : fs.directories = fs'.directories) (path : String) :
      fs.locate path = fs'.locate path := by
  have hfound : ∀ plain, (fs.find? plain).isSome = (fs'.find? plain).isSome := fun plain => by
    rw [Bool.eq_iff_iff, find?, find?, Keyed.isSome_lookup_iff, Keyed.isSome_lookup_iff, hfiles]
  have hdirectory : ∀ plain, fs.isDirectory plain = fs'.isDirectory plain := fun plain => by
    have hany : ∀ fs : Files, (fs.files.any fun f => (plain ++ "/").toList.isPrefixOf f.1.toList) =
        (fs.files.map (·.1)).any fun path => (plain ++ "/").toList.isPrefixOf path.toList :=
      fun fs => by rw [List.any_map, Function.comp_def]
    rw [isDirectory, isDirectory, hany, hany, hfiles, hdirectories]
  simp only [locate, hfound, funext hdirectory]

/-- **Whether something can be written** to a path. -/
def CanWrite (files : Files) (path : String) : Prop :=
  ∃ plain, files.locate path = .file plain ∨ files.locate path = .free plain

/-- **Writing succeeds where something can be written**, and writes one file. -/
theorem exists_write (h : files.CanWrite path) (content : List UInt8) :
    ∃ after, files.write path content = .ok after := by
  obtain ⟨plain, hfile | hfree⟩ := h
  · exact ⟨_, by rw [write, hfile]⟩
  · exact ⟨_, by rw [write, hfree]⟩

theorem canWrite_of_write (h : files.write path content = .ok after) : files.CanWrite path := by
  unfold write at h
  split at h
  · next plain hfile => exact ⟨plain, .inl hfile⟩
  · next plain hfree => exact ⟨plain, .inr hfree⟩
  all_goals cases h

theorem wroteOne_of_write (h : files.write path content = .ok after) :
    files.WroteOne (plainPath path) content after := by
  obtain ⟨plain, hplace⟩ := canWrite_of_write h
  obtain rfl := eq_plainPath_of_locate hplace
  rcases hplace with hplace | hplace <;> rw [write, hplace] at h <;> cases h <;>
    exact wroteOne_update files _ content

end Files

/-! ## Saving -/

namespace Desk

variable {d d' : Desk} {s : Station} {input path : String} {output : Option String}

theorem saving_of_ok {steps : Files.Steps Unit} {after : Files}
    (h : steps.run d.files = .ok () after)
    (path : String) : d.saving steps path = ({ d with files := after }, .ok path) := by
  rw [saving, h]

theorem saving_of_error {steps : Files.Steps Unit} {after : Files} {e : FileError}
    (h : steps.run d.files = .error e after) (path : String) :
    d.saving steps path = ({ d with files := after }, .error e) := by
  rw [saving, h]

/-- **A document that is not too deep** is saved whole. -/
theorem save_of_fits (fits : s.root.depth ≤ d.host.room) (path : String) :
    d.save s path = d.saving (Files.writeOver path (s.toBytes d.registry) true) path := by
  rw [save, draft, Station.draft, Xml.draft_of_depth_le d.registry fits]
  rfl

theorem saveOrKeep_none_of_fits (fits : s.root.depth ≤ d.host.room) (input : String) :
    d.saveOrKeep s input none =
      d.saving (Files.saveInPlace input (s.toBytes d.registry) true) input := by
  rw [saveOrKeep, draft, Station.draft, Xml.draft_of_depth_le d.registry fits]
  rfl

/-- **Of a document that is too deep**, a beginning is saved. -/
theorem exists_save_eq_of_deep (deep : d.host.room < s.root.depth) (path : String) :
    ∃ begun rest, rest ≠ "" ∧ Xml.write d.registry s.root = begun ++ rest ∧
      d.save s path = d.saving (Files.writeOver path begun.toUTF8.toList false) path := by
  obtain ⟨begun, rest, hrest, hwhole, hdraft⟩ := Xml.exists_draft_of_lt_depth d.registry deep
  refine ⟨begun, rest, hrest, hwhole, ?_⟩
  rw [save, draft, Station.draft, hdraft]
  rfl

/-- **Saving to an output file** that can be written, with room for the document. -/
theorem exists_save (writable : d.files.CanWrite path) (fits : s.root.depth ≤ d.host.room) :
    ∃ after, d.files.WroteOne (Files.plainPath path) (s.toBytes d.registry) after ∧
      d.save s path = ({ d with files := after }, .ok path) := by
  obtain ⟨after, hwrite⟩ := Files.exists_write writable (s.toBytes d.registry)
  have hrun := Files.run_writeOver path (s.toBytes d.registry) true d.files
  rw [hwrite] at hrun
  exact ⟨after, Files.wroteOne_of_write hwrite,
    (save_of_fits fits path).trans (saving_of_ok hrun path)⟩

/-- **Saving to an output file a document that is too deep** leaves a beginning of it there. -/
theorem exists_save_of_deep (writable : d.files.CanWrite path) (deep : d.host.room < s.root.depth) :
    ∃ after, d.files.WroteBeginning (Files.plainPath path) (Xml.write d.registry s.root) after ∧
      d.save s path = ({ d with files := after }, .error .tooDeep) := by
  obtain ⟨begun, rest, hrest, hwhole, hsave⟩ := exists_save_eq_of_deep deep path
  obtain ⟨after, hwrite⟩ := Files.exists_write writable begun.toUTF8.toList
  have hrun := Files.run_writeOver path begun.toUTF8.toList false d.files
  rw [hwrite] at hrun
  exact ⟨after, ⟨begun, rest, hrest, hwhole, Files.wroteOne_of_write hwrite⟩,
    hsave.trans (saving_of_error hrun path)⟩

/-- Where nothing can be written, nothing is. -/
theorem exists_save_of_not_canWrite (s : Station) (unwritable : ¬ d.files.CanWrite path) :
    ∃ e, d.save s path = (d, .error e) := by
  have hrun := Files.run_writeOver path (d.draft s).toBytes (d.draft s).isWhole d.files
  cases hwrite : d.files.write path (d.draft s).toBytes with
  | ok after => exact absurd (Files.canWrite_of_write hwrite) unwritable
  | error e =>
    rw [hwrite] at hrun
    exact ⟨e, saving_of_error hrun path⟩

/-- **A saving in place that succeeds** writes over the input file, which is there. -/
theorem wroteOne_of_saveInPlace (h : d.saveOrKeep s input none = (d', .ok path)) :
    path = input ∧ s.root.depth ≤ d.host.room ∧
      d.files.WroteOne (Files.plainPath input) (s.toBytes d.registry) d'.files ∧
      ∃ old, d.files.find? (Files.plainPath input) = some old := by
  rcases Nat.lt_or_ge d.host.room s.root.depth with deep | fits
  · have hpart : (d.draft s).isWhole = false := by
      rw [Bool.eq_false_iff, ne_eq, draft, Station.draft, Xml.isWhole_draft_iff]
      exact Nat.not_le_of_lt deep
    rw [saveOrKeep, hpart, saving_of_error (Files.run_saveInPlace_part _ _ _)] at h
    cases h
  · rw [saveOrKeep_none_of_fits fits] at h
    have hrun := Files.run_saveInPlace input (s.toBytes d.registry) d.files
    cases hfile : d.files.fileAt input with
    | error e =>
      rw [hfile] at hrun
      rw [saving_of_error hrun] at h
      cases h
    | ok plain =>
      rw [hfile] at hrun
      rw [saving_of_ok hrun] at h
      cases h
      have hlocate := Files.locate_of_fileAt hfile
      obtain rfl := Files.eq_plainPath_of_locate (.inl hlocate)
      exact ⟨rfl, fits, Files.wroteOne_update _ _ _, Files.exists_find?_of_locate hlocate⟩

/-- **What saving to an output file comes to**: it is written whole, written in part, or not at
all. -/
theorem save_cases (d : Desk) (s : Station) (path : String) :
    (∃ after, s.root.depth ≤ d.host.room ∧
      d.files.WroteOne (Files.plainPath path) (s.toBytes d.registry) after ∧
      d.save s path = ({ d with files := after }, .ok path)) ∨
    (∃ after, d.host.room < s.root.depth ∧
      d.files.WroteBeginning (Files.plainPath path) (Xml.write d.registry s.root) after ∧
      d.save s path = ({ d with files := after }, .error .tooDeep)) ∨
    ∃ e, d.save s path = (d, .error e) := by
  by_cases writable : d.files.CanWrite path
  · rcases Nat.lt_or_ge d.host.room s.root.depth with deep | fits
    · obtain ⟨after, hwrote, hsave⟩ := exists_save_of_deep writable deep
      exact .inr (.inl ⟨after, deep, hwrote, hsave⟩)
    · obtain ⟨after, hwrote, hsave⟩ := exists_save writable fits
      exact .inl ⟨after, fits, hwrote, hsave⟩
  · exact .inr (.inr (exists_save_of_not_canWrite s writable))

/-- **A saving that succeeds writes one path**, with all of the document; it is the output file, or
else the input file, which is there. -/
theorem wroteOne_of_saveOrKeep (h : d.saveOrKeep s input output = (d', .ok path)) :
    path = output.getD input ∧ s.root.depth ≤ d.host.room ∧
      d.files.WroteOne (Files.plainPath path) (s.toBytes d.registry) d'.files ∧
      (output = none → ∃ old, d.files.find? (Files.plainPath path) = some old) := by
  cases output with
  | none =>
    obtain ⟨rfl, fits, hwrote, there⟩ := wroteOne_of_saveInPlace h
    exact ⟨rfl, fits, hwrote, fun _ => there⟩
  | some target =>
    rw [saveOrKeep] at h
    obtain ⟨after, fits, hwrote, hsave⟩ | ⟨after, -, -, hsave⟩ | ⟨e, hsave⟩ :=
      save_cases d s target <;>
      rw [hsave] at h <;> cases h
    exact ⟨rfl, fits, hwrote, nofun⟩

/-- **A saving that fails changes nothing**, unless the document is too deep for the host and goes
to an output file; that one then holds a beginning of it. -/
theorem files_of_saveOrKeep_error {e : FileError}
    (h : d.saveOrKeep s input output = (d', .error e)) :
    d'.files = d.files ∨ e = .tooDeep ∧ d.host.room < s.root.depth ∧ ∃ path, output = some path ∧
      d.files.WroteBeginning (Files.plainPath path) (Xml.write d.registry s.root) d'.files := by
  cases output with
  | none =>
    rw [saveOrKeep, saving] at h
    split at h <;> cases h
    next hrun => exact .inl (Files.eq_of_run_saveInPlace_error hrun)
  | some target =>
    rw [saveOrKeep] at h
    obtain ⟨after, -, -, hsave⟩ | ⟨after, deep, hwrote, hsave⟩ | ⟨e', hsave⟩ :=
      save_cases d s target <;>
      rw [hsave] at h <;> cases h
    · exact .inr ⟨rfl, deep, target, rfl, hwrote⟩
    · exact .inl rfl

end Desk

end StationNaming
