import StationNaming.Command.Outcome
import StationNaming.Proofs.Station.Opened
import StationNaming.Proofs.Xml.Nesting
/-!
# Files that are refused

A file that cannot be opened should be malformed, and what is said about it should name it, whatever
it is called. This holds of every failure of reading that is a fault in the file itself, and of no
other failure.

**What is exact.** `ofBytes_of_not_registersAll` and `ofBytes_eq_error_iff` give every way in which
opening fails, for every list of bytes under every registry. `reportsMalformed_iff` says which files
are reported as they should. The others are those that announce a prefix kept for invented ones,
well-formed or not, and those whose declared encoding is not known, is none of text, has several
bytes for a character, or cannot be made a map of single bytes.
-/

namespace StationNaming.Station

open Xml (Element PrefixRegistry WellFormed bindingsIn parse?)

variable {intake : Xml.Intake}

/-! ## Failures -/

/-- A file without a fault amounts to a document. -/
theorem ofReading_eq_error_iff {plain : String} {bytes : List UInt8} {x : OpenError} :
    ofReading plain (Xml.read bytes) = .error x ↔
      ∃ failure, (Xml.read bytes).failure = some failure ∧ x = .ofReadFailure plain failure := by
  rw [ofReading]
  cases hfailure : (Xml.read bytes).failure with
  | some failure => simp [eq_comm]
  | none =>
    -- The reader has ended every element that it opened, so there is a tree.
    obtain ⟨root, hparse⟩ := Xml.wellFormed_iff.mp hfailure
    rw [parse?, hfailure] at hparse
    have htree : Element.ofEvents? (Xml.read bytes).events = some root := hparse
    simp [htree]

/-- All prefixes that a file announces can be registered. -/
def RegistersAll (intake : Xml.Intake) (bytes : List UInt8) : Prop :=
  ∀ b ∈ bindingsIn (intake.announced bytes), PrefixRegistry.isReserved b.pfx = false

/-- A prefix that is kept ends the opening, whatever else stands in the file. -/
theorem ofBytes_of_not_registersAll {bytes : List UInt8} (h : ¬ RegistersAll intake bytes)
    (registry : PrefixRegistry) (path : String) :
    (ofBytes intake registry path bytes).2 = .error .reservedPrefix := by
  rw [RegistersAll, ← @registerAll_snd_iff registry] at h
  rw [ofBytes]
  split
  · next hregister => exact absurd (by rw [hregister]) h
  · rfl

/-- **How opening a file fails** if its prefixes can be registered: as reading it does. -/
theorem ofBytes_eq_error_iff {bytes : List UInt8} (h : RegistersAll intake bytes)
    {registry : PrefixRegistry} {path : String} {x : OpenError} :
    (ofBytes intake registry path bytes).2 = .error x ↔
      ∃ failure, (Xml.read bytes).failure = some failure ∧
        x = .ofReadFailure (Files.plainPath path) failure := by
  rw [RegistersAll, ← @registerAll_snd_iff registry] at h
  rw [← ofReading_eq_error_iff, ofBytes]
  split
  · rfl
  · next hregister => simp [hregister] at h

/-! ## What is said about a file -/

/-- A message names a file: its path stands there between quotes. -/
def NamesFile (path message : String) : Prop :=
  ∃ before after, message = before ++ "'" ++ Files.plainPath path ++ "'" ++ after

theorem message_malformed (plain : String) (refusal : Xml.Refusal) :
    (OpenError.malformed plain refusal).message =
      "Could not parse SCL file '" ++ plain ++ "': " ++ refusal.message := rfl

/-- A message about a malformed file names it. -/
theorem namesFile_malformed (path : String) (refusal : Xml.Refusal) :
    NamesFile path (OpenError.malformed (Files.plainPath path) refusal).message := by
  have hopening : "Could not parse SCL file '" = "Could not parse SCL file " ++ "'" := by decide
  have hclosing : "': " = "'" ++ ": " := by decide
  refine ⟨"Could not parse SCL file ", ": " ++ refusal.message, ?_⟩
  rw [message_malformed, hopening, hclosing]
  simp only [String.append_assoc]

/-- A message that does not depend on the file does not name every file. -/
theorem exists_not_namesFile (message : String) : ∃ path, ¬ NamesFile path message := by
  have hplain : Files.plainPath (String.ofList (List.replicate (message.length + 1) 'a')) =
      String.ofList (List.replicate (message.length + 1) 'a') := by
    refine Files.plainPath_of_plain (List.cons_ne_nil _ _) fun c hc => ?_
    rw [List.eq_of_mem_replicate hc]
    decide
  refine ⟨String.ofList (List.replicate (message.length + 1) 'a'), ?_⟩
  rintro ⟨before, after, hmessage⟩
  rw [hplain] at hmessage
  have hlength := congrArg String.length hmessage
  simp only [String.length_append, String.length_ofList, List.length_replicate] at hlength
  omega

/-- **Opening reports a malformed file**: it fails exactly if the file is not well-formed, and
whenever it fails, this is shown as an error with a message that names the file. -/
structure ReportsMalformed (intake : Xml.Intake) (registry : PrefixRegistry) (path : String)
    (bytes : List UInt8) : Prop where
  fails_iff : (∃ x, (ofBytes intake registry path bytes).2 = .error x) ↔ ¬ WellFormed bytes
  shown : ∀ x, (ofBytes intake registry path bytes).2 = .error x →
    OpenFile.isShown (.opening x) = true
  named : ∀ x, (ofBytes intake registry path bytes).2 = .error x → NamesFile path x.message

/-- What is reported under every path does not declare a prefix that is kept. -/
theorem registersAll_of_reports {registry : PrefixRegistry} {bytes : List UInt8}
    (h : ∀ path, ReportsMalformed intake registry path bytes) : RegistersAll intake bytes := by
  by_contra hreserved
  obtain ⟨path, hunnamed⟩ := exists_not_namesFile OpenError.reservedPrefix.message
  exact hunnamed ((h path).named _ (ofBytes_of_not_registersAll hreserved registry path))

/-- What is reported under every path is not stopped at its encoding. -/
theorem exists_refusal_of_reports {registry : PrefixRegistry} {bytes : List UInt8}
    (h : ∀ path, ReportsMalformed intake registry path bytes) {failure : Xml.ReadFailure}
    (hfailure : (Xml.read bytes).failure = some failure) :
    ∃ refusal, failure = .refused refusal := by
  cases failure with
  | refused refusal => exact ⟨refusal, rfl⟩
  | encoding e =>
    obtain ⟨path, hunnamed⟩ := exists_not_namesFile e.message
    have hfails : (ofBytes intake registry path bytes).2 = .error (.encoding e) :=
      (ofBytes_eq_error_iff (registersAll_of_reports h)).mpr ⟨_, hfailure, rfl⟩
    exact absurd ((h path).named _ hfails) hunnamed

/-- **What is reported as it should**: a file whose prefixes can be registered and that has no
fault, or one in itself. -/
theorem reportsMalformed_of_refused {bytes : List UInt8} (registers : RegistersAll intake bytes)
    (refused : ∀ failure, (Xml.read bytes).failure = some failure →
      ∃ refusal, failure = .refused refusal) (registry : PrefixRegistry) (path : String) :
    ReportsMalformed intake registry path bytes := by
  have hmalformed : ∀ x, (ofBytes intake registry path bytes).2 = .error x →
      ∃ refusal, x = .malformed (Files.plainPath path) refusal := by
    intro x hx
    obtain ⟨failure, hfailure, rfl⟩ := (ofBytes_eq_error_iff registers).mp hx
    obtain ⟨refusal, rfl⟩ := refused failure hfailure
    exact ⟨refusal, rfl⟩
  refine ⟨?_, ?_, ?_⟩
  · rw [WellFormed, ← ne_eq, Option.ne_none_iff_exists']
    constructor
    · rintro ⟨x, hx⟩
      obtain ⟨failure, hfailure, -⟩ := (ofBytes_eq_error_iff registers).mp hx
      exact ⟨failure, hfailure⟩
    · rintro ⟨failure, hfailure⟩
      exact ⟨_, (ofBytes_eq_error_iff registers).mpr ⟨failure, hfailure, rfl⟩⟩
  · intro x hx
    obtain ⟨refusal, rfl⟩ := hmalformed x hx
    rfl
  · intro x hx
    obtain ⟨refusal, rfl⟩ := hmalformed x hx
    exact namesFile_malformed path refusal

/-! ## Commands -/

section Commands

variable {host : Host} {files : Files} {input : String} {bytes : List UInt8}

/-- A command that opens a file for renaming shows why it cannot be opened, or ends at once. -/
theorem ofPath_of_error (reads : files.read input = .ok bytes) {x : OpenError}
    (fails : (ofBytes host.intake PrefixRegistry.initial input bytes).2 = .error x) :
    OpenFile.ofPath host files input =
      .error (if OpenFile.isShown (.opening x) then
        { ending := .reported, console := [.error x.message], files := files }
      else { ending := .failed (.opening x), files := files }) := by
  cases hopened : ofBytes host.intake PrefixRegistry.initial input bytes with
  | mk registry result =>
    rw [hopened] at fails
    obtain rfl : result = .error x := fails
    simp only [OpenFile.ofPath, Desk.openStation, reads, hopened]
    rfl

/-- A command that fails to open a file has it refused, or two of its records have one name. -/
theorem exists_error_of_ofPath (reads : files.read input = .ok bytes) {o : Outcome}
    (fails : OpenFile.ofPath host files input = .error o) :
    (∃ x, (ofBytes host.intake PrefixRegistry.initial input bytes).2 = .error x) ∨
      ∃ line, o = { ending := .reported, console := [.error line], files := files } := by
  cases hopened : ofBytes host.intake PrefixRegistry.initial input bytes with
  | mk registry result =>
    cases result with
    | error x => exact .inl ⟨x, rfl⟩
    | ok station =>
      simp only [OpenFile.ofPath, Desk.openStation, reads, hopened] at fails
      split at fails
      · next e _ => exact .inr ⟨e.message, (Except.error.inj fails).symm⟩
      · cases fails

end Commands

/-- **Opening reports the malformed files, and no others, exactly if the file lets it**: all
prefixes that the file announces can be registered, and what stops its reading, if anything does, is
a fault of the file itself and not its encoding. A command then shows every failure as an error, and
one that names the file if the file is malformed. -/
theorem reportsMalformed_iff (host : Host) (bytes : List UInt8) :
    (∀ registry, (∀ path, ReportsMalformed host.intake registry path bytes) ↔
      RegistersAll host.intake bytes ∧
        ∀ failure, (Xml.read bytes).failure = some failure → ∃ refusal, failure =
          .refused refusal) ∧
    ∀ (files : Files) (path : String), files.read path = .ok bytes →
      ReportsMalformed host.intake PrefixRegistry.initial path bytes →
      (∀ o, OpenFile.ofPath host files path = .error o →
        ∃ line, o = { ending := .reported, console := [.error line], files := files }) ∧
      (¬ WellFormed bytes → ∃ line, NamesFile path line ∧ OpenFile.ofPath host files path =
        .error { ending := .reported, console := [.error line], files := files }) := by
  refine ⟨fun registry =>
    ⟨fun h => ⟨registersAll_of_reports h, fun _ => exists_refusal_of_reports h⟩,
    fun h => reportsMalformed_of_refused h.1 h.2 registry⟩, fun files path reads reports => ?_⟩
  have hshown : ∀ x, (ofBytes host.intake PrefixRegistry.initial path bytes).2 = .error x →
      OpenFile.ofPath host files path =
        .error { ending := .reported, console := [.error x.message], files := files } := by
    intro x hx
    rw [ofPath_of_error reads hx, if_pos (reports.shown x hx)]
  refine ⟨fun o ho => ?_, fun hmalformed => ?_⟩
  · obtain ⟨x, hx⟩ | hline := exists_error_of_ofPath reads ho
    · exact ⟨x.message, Except.error.inj (ho.symm.trans (hshown x hx))⟩
    · exact hline
  · obtain ⟨x, hx⟩ := reports.fails_iff.mpr hmalformed
    exact ⟨x.message, reports.named x hx, hshown x hx⟩

/-- The content of a file that ends too early. -/
def truncated : List UInt8 := "<SCL>".toUTF8.toList

/-- A folder with that file. -/
def truncatedFolder : Files where
  files := [("s.scd", ⟨truncated, 0o644⟩)]

theorem reportsMalformed_truncated :
    truncatedFolder.read "./s.scd" = .ok truncated ∧ ¬ WellFormed truncated ∧
      (∀ path, ReportsMalformed Host.usual.intake PrefixRegistry.initial path truncated) ∧
      ∃ line, NamesFile "./s.scd" line ∧ OpenFile.ofPath .usual truncatedFolder "./s.scd" =
        .error { ending := .reported, console := [.error line], files := truncatedFolder } := by
  obtain ⟨hreports, hcommand⟩ := reportsMalformed_iff .usual truncated
  have hread : (Xml.read truncated).failure = some (.refused ⟨.noElement, ⟨1, 5⟩⟩) := by
    decide +kernel
  have hmalformed : ¬ WellFormed truncated := by
    rw [WellFormed, hread]
    exact Option.some_ne_none _
  have hregisters : RegistersAll Host.usual.intake truncated := by
    have hbindings : bindingsIn (Host.usual.intake.announced truncated) = [] := by decide +kernel
    rw [RegistersAll, hbindings]
    exact List.forall_mem_nil _
  have hexact := (hreports PrefixRegistry.initial).mpr
    ⟨hregisters, fun failure hfailure => ⟨_, Option.some.inj (hfailure.symm.trans hread)⟩⟩
  have hreads : truncatedFolder.read "./s.scd" = .ok truncated := by decide +kernel
  exact ⟨hreads, hmalformed, hexact,
    (hcommand truncatedFolder "./s.scd" hreads (hexact _)).2 hmalformed⟩

/-- A well-formed file that declares a prefix kept for invented ones. -/
def declaringKept : List UInt8 := "<SCL xmlns:ns0=\"u\"/>".toUTF8.toList

/-- A file whose declared encoding is not known. -/
def foreignlyEncoded : List UInt8 := "<?xml version='1.0' encoding='foo'?><SCL/>".toUTF8.toList

/-- **A well-formed file can be refused, and a failure can end a command at once.** -/
theorem not_reportsMalformed :
    (WellFormed declaringKept ∧
      (ofBytes Host.usual.intake PrefixRegistry.initial "d.scd" declaringKept).2 =
        .error .reservedPrefix ∧
      ¬ ReportsMalformed Host.usual.intake PrefixRegistry.initial "d.scd" declaringKept) ∧
    (ofBytes Host.usual.intake PrefixRegistry.initial "d.scd" foreignlyEncoded).2 =
        .error (.encoding (.unknown "foo")) ∧
      ¬ ReportsMalformed Host.usual.intake PrefixRegistry.initial "d.scd" foreignlyEncoded ∧
      ∀ files : Files, files.read "d.scd" = .ok foreignlyEncoded →
        OpenFile.ofPath .usual files "d.scd" =
          .error { ending := .failed (.opening (.encoding (.unknown "foo"))), files := files } := by
  have hwell : WellFormed declaringKept := by decide +kernel
  have hrefused : (ofBytes Host.usual.intake PrefixRegistry.initial "d.scd" declaringKept).2 =
      .error .reservedPrefix :=
    ofBytes_of_not_registersAll (by unfold RegistersAll; decide +kernel) _ _
  have hunknown : (ofBytes Host.usual.intake PrefixRegistry.initial "d.scd" foreignlyEncoded).2 =
      .error (.encoding (.unknown "foo")) :=
    (ofBytes_eq_error_iff (by unfold RegistersAll; decide +kernel)).mpr
      ⟨.encoding (.unknown "foo"), by decide +kernel, rfl⟩
  refine ⟨⟨hwell, hrefused, fun h => h.fails_iff.mp ⟨_, hrefused⟩ hwell⟩, hunknown, fun h => ?_, ?_⟩
  · exact absurd (h.shown _ hunknown) nofun
  · exact fun files reads => ofPath_of_error reads hunknown

end StationNaming.Station
