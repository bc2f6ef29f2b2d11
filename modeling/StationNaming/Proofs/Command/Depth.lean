import StationNaming.Proofs.Command.Assignment
import StationNaming.Proofs.Xml.Apart
/-!
# Documents that are too deep

However many nested elements a host can write, there is a file with more of them. It is opened like
any other and its IEDs can be renamed, but the command that saves it to an output file breaks off.

**What is exact.** `brokeOff_of_deepFolder` covers every host, and a file for each that is too deep:
the output file was not there, and holds a beginning of the document afterwards.
-/

namespace StationNaming

open Xml (Element Label PrefixRegistry)

/-! ## Nested elements -/

/-- An element with so many others nested in it. -/
def nested : Nat → Element
  | 0 => .mk ⟨"", "a"⟩ [] "" [] ""
  | n + 1 => .mk ⟨"", "a"⟩ [] "" [nested n] ""

/-- The root of a document with one IED, and with elements nested beside it. -/
def deepRoot (n : Nat) : Element :=
  .mk ⟨"", "SCL"⟩ [] "" [.mk ⟨"", "IED"⟩ [(⟨"", "name"⟩, "A")] "" [] "", nested n] ""

theorem depth_nested (n : Nat) : (nested n).depth = n + 1 := by
  induction n with
  | zero => rfl
  | succ n ih => simp [nested, Element.depth, Element.depthAll, ih]

theorem depth_deepRoot (n : Nat) : (deepRoot n).depth = n + 2 := by
  simp [deepRoot, Element.depth, Element.depthAll, depth_nested]

/-- The labels of all elements of such a document, without what is inside them. -/
def deepLabels : List Label :=
  [⟨⟨"", "SCL"⟩, [], "", ""⟩, ⟨⟨"", "IED"⟩, [(⟨"", "name"⟩, "A")], "", ""⟩, ⟨⟨"", "a"⟩, [], "", ""⟩]

theorem label_nested (n : Nat) : ∀ x ∈ (nested n).walk, x.2.label ∈ deepLabels := by
  have hlabel : (⟨⟨"", "a"⟩, [], "", ""⟩ : Label) ∈ deepLabels := by decide
  have hwalk := @Element.forall_mem_walk_mk fun e => e.label ∈ deepLabels
  induction n with
  | zero => exact hwalk.mpr ⟨hlabel, fun _ hc => absurd hc List.not_mem_nil⟩
  | succ n ih => exact hwalk.mpr ⟨hlabel, List.forall_mem_singleton.mpr ih⟩

theorem label_deepRoot (n : Nat) : ∀ x ∈ (deepRoot n).walk, x.2.label ∈ deepLabels := by
  have hroot : (⟨⟨"", "SCL"⟩, [], "", ""⟩ : Label) ∈ deepLabels := by decide
  have hied : (⟨⟨"", "IED"⟩, [(⟨"", "name"⟩, "A")], "", ""⟩ : Label) ∈ deepLabels := by decide
  have hwalk := @Element.forall_mem_walk_mk fun e => e.label ∈ deepLabels
  refine hwalk.mpr ⟨hroot,
    List.forall_mem_cons.mpr ⟨?_, List.forall_mem_singleton.mpr (label_nested n)⟩⟩
  exact hwalk.mpr ⟨hied, fun _ hc => absurd hc List.not_mem_nil⟩

theorem sound_deepRoot (n : Nat) : (deepRoot n).Sound := by
  have hempty : Xml.IsDocumentText "" := nofun
  have hnames : ∀ l ∈ ["SCL", "IED", "name", "a"], Xml.isName l.toList = true := by decide
  have hname : ∀ l ∈ ["SCL", "IED", "name", "a"], (⟨"", l⟩ : Xml.Name).Sound := fun l hl =>
    ⟨((Xml.isName_iff _).mp (hnames l hl)).isToken, .inl rfl⟩
  have hlabels : ∀ l ∈ deepLabels, l.Sound := by
    refine List.forall_mem_cons.mpr
      ⟨?_, List.forall_mem_cons.mpr ⟨?_, List.forall_mem_singleton.mpr ?_⟩⟩
    · exact ⟨hname _ (by decide), nofun, List.nodup_nil, hempty, hempty⟩
    · refine ⟨hname _ (by decide), List.forall_mem_singleton.mpr ?_, List.nodup_singleton _,
        hempty, hempty⟩
      exact ⟨hname _ (by decide), by decide, Xml.isDocumentText_of_all (by decide)⟩
    · exact ⟨hname _ (by decide), nofun, List.nodup_nil, hempty, hempty⟩
  exact fun x hx => hlabels _ (label_deepRoot n x hx)

theorem bare_deepRoot (n : Nat) : (deepRoot n).Bare := by
  have hlabels : ∀ l ∈ deepLabels, l.name.space = "" ∧ ∀ a ∈ l.attributes, a.1.space = "" := by
    decide
  intro u hu
  obtain ⟨x, hx, hown⟩ := List.mem_flatMap.mp hu
  obtain ⟨hname, hattributes⟩ := hlabels _ (label_deepRoot n x hx)
  rcases List.mem_cons.mp hown with rfl | hmem
  · exact hname
  · obtain ⟨a, ha, rfl⟩ := List.mem_map.mp hmem
    exact hattributes a ha

theorem wellWritten_deepRoot (n : Nat) : Xml.WellWritten .initial (deepRoot n) := by
  have hlabels : ∀ l ∈ deepLabels, Xml.IsQName l.name.localName.toList ∧
      ∀ a ∈ l.attributes, Xml.IsQName a.1.localName.toList := by decide
  rw [Xml.wellWritten_iff_of_bare PrefixRegistry.sound_initial (bare_deepRoot n) (sound_deepRoot n)]
  exact fun x hx => hlabels _ (label_deepRoot n x hx)

theorem records_deepRoot (n : Nat) (path : String) :
    (⟨deepRoot n, path⟩ : Station).records = [{ name := "A" }] := by
  cases n <;> rfl

/-- **A file is opened for renaming** if its bytes are, and no two of its IEDs have one name. -/
theorem OpenFile.exists_ofPath {host : Host} {files : Files} {input : String} {bytes : List UInt8}
    (reads : files.read input = .ok bytes) {s : Station}
    (opens : (Station.ofBytes host.intake .initial input bytes).2 = .ok s)
    (distinct : (s.records.map (·.name)).Nodup) :
    ∃ f, ofPath host files input = .ok f ∧ f.station = s := by
  rcases hopen : Station.ofBytes host.intake .initial input bytes with ⟨registry, e | s'⟩
  · rw [hopen] at opens
    cases opens
  · rw [hopen] at opens
    obtain rfl : s' = s := Except.ok.inj opens
    simp only [ofPath, Desk.openStation, reads, hopen, Session.load_of_nodup distinct]
    exact ⟨_, rfl, rfl⟩

/-! ## A file that is too deep -/

namespace Command

/-- A folder with one file. -/
def folderOf (content : List UInt8) : Files where
  files := [("a.scd", ⟨content, 0o644⟩)]

section Folder

variable (content : List UInt8)

theorem locate_folderOf (path : String) :
    (folderOf content).locate path = (folderOf []).locate path :=
  @Files.locate_congr (folderOf content) (folderOf []) rfl rfl path

theorem read_folderOf : (folderOf content).read "a.scd" = .ok content := by
  have hplace : (folderOf []).locate "a.scd" = .file "a.scd" := by decide +kernel
  rw [Files.read, locate_folderOf, hplace]
  rfl

theorem canWrite_folderOf : (folderOf content).CanWrite "out.scd" := by
  have hplace : (folderOf []).locate "out.scd" = .free "out.scd" := by decide +kernel
  exact ⟨"out.scd", .inr ((locate_folderOf content "out.scd").trans hplace)⟩

theorem find?_folderOf : (folderOf content).find? "out.scd" = none := rfl

end Folder

/-- A folder with a file of a document with so many nested elements. -/
def deepFolder (n : Nat) : Files := folderOf (Xml.write .initial (deepRoot n)).toUTF8.toList

example : deepFolder 1 = folderOf ("<?xml version='1.0' encoding='utf-8'?>\n" ++
    "<SCL><IED name=\"A\" /><a><a /></a></SCL>").toUTF8.toList := by
  decide +kernel

/-- **The file is opened**, however deep its document is. -/
theorem exists_ofPath_deepFolder (host : Host) (n : Nat) :
    ∃ f, OpenFile.ofPath host (deepFolder n) "a.scd" = .ok f ∧
      f.station.records = [{ name := "A" }] ∧ f.station.root.depth = n + 2 := by
  have hsound := PrefixRegistry.sound_initial
  have hroot := sound_deepRoot n
  have hwell := wellWritten_deepRoot n
  have hdefault := Xml.writtenDefault_of_bare hsound (bare_deepRoot n)
  have hrecords := (@Station.records_saved_iff _ hsound _ hroot hwell ""
    (Files.plainPath "a.scd")).mpr
    fun _ _ _ _ _ _ hcaptured => absurd hdefault hcaptured.1
  rw [records_deepRoot] at hrecords
  have hdistinct : ((⟨Xml.rewritten .initial (deepRoot n),
      Files.plainPath "a.scd"⟩ : Station).records.map (·.name)).Nodup := by
    rw [hrecords]
    decide
  have hfree := (Station.unreserved_saved_iff hsound hroot hwell rfl).mpr
    fun u hu hne => absurd (bare_deepRoot n u hu) hne
  have hopens := (@Station.ofBytes_eq_ok_iff host.intake .initial "a.scd" _
    ⟨Xml.rewritten .initial (deepRoot n), Files.plainPath "a.scd"⟩).mpr
      ⟨hfree, (Xml.parse?_write hsound hroot rfl _).mpr ⟨hwell, rfl⟩, rfl⟩
  obtain ⟨f, hf, hstation⟩ := OpenFile.exists_ofPath (read_folderOf _) hopens hdistinct
  refine ⟨f, hf, ?_, ?_⟩
  · rw [hstation, hrecords]
  · rw [hstation]
    exact (Xml.depth_rewritten _ _).trans (depth_deepRoot n)

/-- A command line that renames the IED and saves the document to another path. -/
def renameToOutput : List String := ["rename", "a.scd", "out.scd", "-y", "-r", "A=B"]

/-- **Every host has a file that is too deep for it.** Renaming its IED fails without the message of
success, and leaves a file where none was. -/
theorem brokeOff_of_deepFolder {host : Host} {n : Nat} (deep : host.room < n + 2) (text : String) :
    ¬ (run host renameToOutput (deepFolder n) text).Succeeded ∧
      (run host renameToOutput (deepFolder n) text).ending = .failed (.file .tooDeep) ∧
      (deepFolder n).find? "out.scd" = none ∧
      ((run host renameToOutput (deepFolder n) text).files.find? "out.scd").isSome = true := by
  obtain ⟨f, opens, hrecords, hdepth⟩ := exists_ofPath_deepFolder host n
  have hassigns : Assigns f.station.records fun _ => "B" := by
    rw [hrecords]
    decide +kernel
  have hasked : [("A", "B")].Perm (assignment f.station.records fun _ => "B") := by
    rw [hrecords]
    exact List.Perm.refl _
  have haskable : ∀ r ∈ f.station.records, CanAsk r.name := by
    rw [hrecords]
    decide
  have hread : Request.read (deepFolder n) renameToOutput =
      .ok (.rename "a.scd" (some "out.scd") ["A=B"] false true) :=
    @read_renameWordsBehind _ "a.scd" "out.scd" (Files.hasPath_of_read (read_folderOf _))
      (by decide) (by decide) ["A=B"] (by decide)
  have hrun : run host renameToOutput (deepFolder n) text =
      rename host (deepFolder n) "a.scd" (some "out.scd") ["A=B"] false true (inputLines text) := by
    simp only [run, hread, grant]
  obtain ⟨hnot, hending, -, -, -, begun, rest, -, -, hwrote⟩ :=
    brokeOff_rename_assignment opens hassigns hasked haskable "out.scd" (inputLines text)
      (canWrite_folderOf _) (hdepth.symm ▸ deep)
  obtain ⟨mode, hfind, -⟩ := hwrote.written
  have hplain : Files.plainPath "out.scd" = "out.scd" := by decide +kernel
  rw [hplain] at hfind
  rw [hrun]
  exact ⟨hnot, hending, find?_folderOf _, Option.isSome_of_mem hfind⟩

/-- **A run that fails may leave a file behind**, on a host as it usually is. -/
theorem files_of_run_deepFolder :
    ¬ (run .usual renameToOutput (deepFolder 1500) "").Succeeded ∧
      (run .usual renameToOutput (deepFolder 1500) "").files ≠ deepFolder 1500 := by
  have hdeep : Host.usual.room < 1500 + 2 := by decide
  obtain ⟨hnot, -, hnone, hsome⟩ := brokeOff_of_deepFolder hdeep ""
  refine ⟨hnot, fun heq => ?_⟩
  rw [heq, hnone] at hsome
  cases hsome

end Command

end StationNaming
