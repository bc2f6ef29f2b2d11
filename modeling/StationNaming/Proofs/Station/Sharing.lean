import StationNaming.Desk
import StationNaming.Proofs.Station.Saving
import StationNaming.Proofs.Xml.Dependence
/-!
# Documents that share a registry

All documents are written under one registry, and every opening adds to it what the file announces
of its declarations, whether the opening succeeds or not. A document is opened, other files are
opened after it, and it is saved: its text may be another one than it would have been without them.

**What is exact.** `toBytes_openAll_iff` says for every document that is opened on any host, for
whatever is renamed in it, and for every sequence of openings after it exactly when they leave its
text as it was.
-/

namespace StationNaming

open Xml (Binding Event PrefixRegistry bindingsIn)

/-! ## Declarations -/

/-- The last declaration of a prefix or of a namespace, whichever comes last. -/
def lastMention (pfx uri : String) (bs : List Binding) : Option Binding :=
  (bs.filter fun b => b.pfx == pfx || b.uri == uri).getLast?

theorem lastMention_append (pfx uri : String) (bs bs' : List Binding) :
    lastMention pfx uri (bs ++ bs') = (lastMention pfx uri bs').or (lastMention pfx uri bs) := by
  rw [lastMention, List.filter_append, List.getLast?_append]
  rfl

/-- **A prefix and a namespace are bound to each other after declarations**: by the last one of
either, or, if there is none, because they were. -/
def BoundAfter (bs : List Binding) (registry : PrefixRegistry) (pfx uri : String) : Prop :=
  lastMention pfx uri bs = some ⟨pfx, uri⟩ ∨
    (lastMention pfx uri bs = none ∧ (⟨pfx, uri⟩ : Binding) ∈ registry)

/-- Declarations after which come others. -/
theorem boundAfter_append {bs bs' : List Binding} {registry registry' : PrefixRegistry}
    {pfx uri : String} (h : (⟨pfx, uri⟩ : Binding) ∈ registry' ↔ BoundAfter bs registry pfx uri) :
    BoundAfter bs' registry' pfx uri ↔ BoundAfter (bs ++ bs') registry pfx uri := by
  rw [BoundAfter, BoundAfter, h, BoundAfter, lastMention_append]
  cases lastMention pfx uri bs' <;> simp

/-- **A namespace keeps its prefix** through declarations: for every prefix, the last declaration of
either, if there is one, binds them to each other exactly if they were bound to each other
before. -/
def KeepsPrefix (bs : List Binding) (registry : PrefixRegistry) (uri : String) : Prop :=
  ∀ pfx, ∀ b ∈ lastMention pfx uri bs, b = ⟨pfx, uri⟩ ↔ (⟨pfx, uri⟩ : Binding) ∈ registry

theorem keepsPrefix_iff {bs : List Binding} {registry : PrefixRegistry} {uri : String} :
    KeepsPrefix bs registry uri ↔
      ∀ pfx, BoundAfter bs registry pfx uri ↔ (⟨pfx, uri⟩ : Binding) ∈ registry := by
  refine forall_congr' fun pfx => ?_
  rw [BoundAfter]
  cases lastMention pfx uri bs <;> simp

theorem register?_eq_none_iff {registry : PrefixRegistry} {b : Binding} :
    registry.register? b = none ↔ PrefixRegistry.isReserved b.pfx = true := by
  rw [PrefixRegistry.register?]
  split_ifs with hreserved <;> simp [hreserved]

/-- **What one registration does**: it binds its prefix and its namespace to each other, and leaves
all bindings that are of neither. -/
theorem mem_register?_iff {registry registry' : PrefixRegistry} {b : Binding}
    (h : registry.register? b = some registry') (pfx uri : String) :
    (⟨pfx, uri⟩ : Binding) ∈ registry' ↔ BoundAfter [b] registry pfx uri := by
  rw [PrefixRegistry.register?] at h
  split_ifs at h with hreserved
  obtain rfl := Option.some.inj h
  have hnew : (⟨pfx, uri⟩ : Binding) ∈ [b] ↔ b = ⟨pfx, uri⟩ := by rw [List.mem_singleton, eq_comm]
  have hold : (⟨pfx, uri⟩ : Binding) ∈ registry.filter (fun a => a.uri != b.uri && a.pfx != b.pfx) ↔
      (⟨pfx, uri⟩ : Binding) ∈ registry ∧ ¬ (b.pfx = pfx ∨ b.uri = uri) := by
    rw [List.mem_filter, Bool.and_eq_true, bne_iff_ne, bne_iff_ne, not_or, and_comm (a := _ ≠ _)]
    exact and_congr_right' (and_congr ne_comm ne_comm)
  have hlast : lastMention pfx uri [b] = if b.pfx = pfx ∨ b.uri = uri then some b else none := by
    by_cases hmention : b.pfx = pfx ∨ b.uri = uri <;> simp [lastMention, hmention]
  rw [List.mem_append, hnew, hold, BoundAfter, hlast]
  -- A registration drops every binding of its prefix or of its namespace, so these are the two
  -- cases.
  by_cases hmention : b.pfx = pfx ∨ b.uri = uri
  · simp [hmention]
  · have hne : b ≠ ⟨pfx, uri⟩ := fun heq => hmention (.inl (congrArg Binding.pfx heq))
    simp [hmention, hne]

/-! ## Opening files -/

namespace Station

/-- **The declarations that opening a file registers**: those before the first one that cannot
be. -/
def registered (es : List Event) : List Binding :=
  (bindingsIn es).takeWhile fun b => !PrefixRegistry.isReserved b.pfx

/-- **What the declarations of a file do** to the registry. -/
theorem mem_registerAll_iff (registry : PrefixRegistry) (es : List Event) (pfx uri : String) :
    (⟨pfx, uri⟩ : Binding) ∈ (registerAll registry es).1 ↔
      BoundAfter (registered es) registry pfx uri := by
  induction es generalizing registry with
  | nil => simp [registerAll, registered, bindingsIn, BoundAfter, lastMention]
  | cons e es ih =>
    cases e with
    | bind b =>
      have hcons : bindingsIn (.bind b :: es) = b :: bindingsIn es := rfl
      cases hregister : registry.register? b with
      | none =>
        have hreserved := register?_eq_none_iff.mp hregister
        have hnone : registered (.bind b :: es) = [] := by simp [registered, hcons, hreserved]
        rw [registerAll, hregister, hnone]
        simp [BoundAfter, lastMention]
      | some registry' =>
        have hfree : PrefixRegistry.isReserved b.pfx = false := by
          rw [Bool.eq_false_iff, ne_eq, ← @register?_eq_none_iff registry, hregister]
          exact Option.some_ne_none registry'
        have hregistered : registered (.bind b :: es) = [b] ++ registered es := by
          simp [registered, hcons, hfree]
        rw [registerAll, hregister, hregistered]
        exact (ih registry').trans (boundAfter_append (mem_register?_iff hregister pfx uri))
    | start | text | stop => exact ih registry

/-- **A file that is refused** has registered the prefixes that it has announced. -/
theorem ofBytes_of_failure {intake : Xml.Intake} {registry registry' : PrefixRegistry}
    {path plain : String} {bytes : List UInt8} {failure : Xml.ReadFailure} (es : List Event)
    (hannounced : intake.announced bytes = es) (hfailure : (Xml.read bytes).failure = some failure)
    (hregister : registerAll registry es = (registry', true))
    (hplain : Files.plainPath path = plain) :
    ofBytes intake registry path bytes = (registry', .error (.ofReadFailure plain failure)) := by
  simp only [ofBytes, hannounced, hregister, ofReading, hfailure, hplain]

end Station

namespace Desk

/-- What a call registers that opens a file, given the files that are there then: declarations that
the file announces. -/
def registrations (intake : Xml.Intake) (call : Files × String) : List Binding :=
  match call.1.read call.2 with
  | .error _ => []
  | .ok bytes => Station.registered (intake.announced bytes)

/-- **Opening files one after the other**, each among the files that are there then. -/
def openAll (d : Desk) (calls : List (Files × String)) : Desk :=
  calls.foldl (fun d call => ({ d with files := call.1 }.openStation call.2).1) d

/-- **Opening a file** is opening its bytes, if it can be read. -/
theorem openStation_eq (d : Desk) (path : String) : d.openStation path =
    match d.files.read path with
    | .error e => (d, .error (.file e))
    | .ok bytes => ({ d with registry := (Station.ofBytes d.host.intake d.registry path bytes).1 },
        (Station.ofBytes d.host.intake d.registry path bytes).2.mapError .opening) := by
  rw [openStation]
  cases d.files.read path with
  | error e => rfl
  | ok bytes =>
    simp only
    obtain ⟨registry, result⟩ := Station.ofBytes d.host.intake d.registry path bytes
    cases result <;> rfl

/-- Opening a file changes nothing but the registry. -/
theorem host_openStation (d : Desk) (path : String) : (d.openStation path).1.host = d.host := by
  rw [openStation_eq]
  cases d.files.read path <;> rfl

theorem registry_openStation (d : Desk) (path : String) : (d.openStation path).1.registry =
    match d.files.read path with
    | .error _ => d.registry
    | .ok bytes => (Station.ofBytes d.host.intake d.registry path bytes).1 := by
  rw [openStation_eq]
  cases d.files.read path <;> rfl

/-- A document that was opened comes from bytes that were read. -/
theorem exists_of_openStation {d d' : Desk} {path : String} {s : Station}
    (opens : d.openStation path = (d', .ok s)) :
    ∃ bytes, d.files.read path = .ok bytes ∧
      (Station.ofBytes d.host.intake d.registry path bytes).2 = .ok s := by
  have hresult := congrArg Prod.snd opens
  rw [openStation_eq] at hresult
  cases hread : d.files.read path with
  | error e =>
    rw [hread] at hresult
    cases hresult
  | ok bytes =>
    rw [hread] at hresult
    refine ⟨bytes, rfl, ?_⟩
    cases hopened : (Station.ofBytes d.host.intake d.registry path bytes).2 with
    | error e =>
      simp only [hopened, Except.mapError] at hresult
      cases hresult
    | ok s' =>
      simp only [hopened, Except.mapError] at hresult
      exact congrArg Except.ok (Except.ok.inj hresult)

theorem mem_openStation_iff (d : Desk) (path : String) (pfx uri : String) :
    (⟨pfx, uri⟩ : Binding) ∈ (d.openStation path).1.registry ↔
      BoundAfter (registrations d.host.intake (d.files, path)) d.registry pfx uri := by
  rw [registry_openStation, registrations]
  cases d.files.read path with
  | error e => simp [BoundAfter, lastMention]
  | ok bytes =>
    simp only
    rw [Station.ofBytes_fst, Station.mem_registerAll_iff]

/-- **What openings do to the registry.** -/
theorem mem_openAll_iff (d : Desk) (calls : List (Files × String)) (pfx uri : String) :
    (⟨pfx, uri⟩ : Binding) ∈ (d.openAll calls).registry ↔
      BoundAfter (calls.flatMap (registrations d.host.intake)) d.registry pfx uri := by
  induction calls generalizing d with
  | nil => simp [openAll, BoundAfter, lastMention]
  | cons call calls ih =>
    rw [openAll, List.foldl_cons, ← openAll, ih, host_openStation, List.flatMap_cons]
    exact boundAfter_append (mem_openStation_iff { d with files := call.1 } call.2 pfx uri)

theorem reached_openStation {d : Desk} (reached : Station.Reached d.registry) (path : String) :
    Station.Reached (d.openStation path).1.registry := by
  rw [registry_openStation]
  split
  · exact reached
  · next bytes _ => exact reached.opened d.host.intake path bytes

theorem reached_openAll {d : Desk} (reached : Station.Reached d.registry)
    (calls : List (Files × String)) :
    Station.Reached (d.openAll calls).registry := by
  induction calls generalizing d with
  | nil => exact reached
  | cons call calls ih => exact ih (@reached_openStation { d with files := call.1 } reached call.2)

/-! ## Saving -/

/-- **When openings leave the text of a document as it is.** A document is opened, something may be
renamed in it, and other files are opened after it, with or without success. It is then saved with
the text that it would have without them, exactly if every namespace of its names keeps its prefix
through what those files declare. -/
theorem toBytes_openAll_iff {d d' : Desk} (reached : Station.Reached d.registry) {path : String}
    {s : Station} (opens : d.openStation path = (d', .ok s)) {ops : List Renaming}
    (legible : ∀ op ∈ ops, Xml.IsDocumentText op.new) {r : Station.Renamed}
    (applied : s.rename ops = .ok r) (calls : List (Files × String)) :
    r.station.toBytes (d'.openAll calls).registry = r.station.toBytes d'.registry ↔
      ∀ u ∈ r.station.root.allSpaces, u ≠ "" →
        KeepsPrefix (calls.flatMap (registrations d.host.intake)) d'.registry u := by
  have hhost : d'.host = d.host := by
    have hstep := host_openStation d path
    rwa [opens] at hstep
  obtain ⟨bytes, -, hopened⟩ := exists_of_openStation opens
  obtain ⟨hroot, htail⟩ :=
    Station.sound_of_rename (Station.sound_of_ofBytes hopened) legible applied
  have hreached : Station.Reached d'.registry := by
    have hstep := reached_openStation reached path
    rwa [opens] at hstep
  have hsound := hreached.sound
  have hsound' := (reached_openAll hreached calls).sound
  have hwrite := Xml.write_eq_write_iff hsound' hsound hroot htail
  rw [Station.toBytes, Station.toBytes, Xml.toList_toUTF8_injective.eq_iff, hwrite]
  refine forall₂_congr fun u _ => imp_congr_right fun _ => ?_
  -- In a one-to-one registry the prefix that is found for a namespace is the one that is bound to
  -- it.
  rw [keepsPrefix_iff, Option.ext_iff]
  refine forall_congr' fun pfx => ?_
  rw [PrefixRegistry.find?_eq_some_iff hsound'.uri_nodup,
    PrefixRegistry.find?_eq_some_iff hsound.uri_nodup,
    mem_openAll_iff, hhost]

/-- A document whose root has a prefix, with an IED of some name. -/
def prefixed (name : String) : Station where
  root := .mk ⟨"u1", "SCL"⟩ [] "" [.mk ⟨"", "IED"⟩ [(⟨"", "name"⟩, name)] "" [] ""] ""
  path := "a.scd"

/-- The file of that document, one that is malformed and takes its prefix, and one that gives it
back. -/
def contendingFiles : Files where
  files := [("a.scd", ⟨"<p:SCL xmlns:p=\"u1\"><IED name=\"A\"/></p:SCL>".toUTF8.toList,
        Files.newMode⟩),
    ("b.scd", ⟨"<p:SCL xmlns:p=\"u2\"></SCL>".toUTF8.toList, Files.newMode⟩),
    ("c.scd", ⟨"<SCL xmlns:q=\"u2\" xmlns:p=\"u1\"/>".toUTF8.toList, Files.newMode⟩)]

/-- Those two files, and one that is not there, opened one after the other. -/
def contending : List (Files × String) :=
  [(contendingFiles, "b.scd"), (contendingFiles, "c.scd"), (contendingFiles, "gone.scd")]

/-- The desk with those files. -/
def contendingDesk : Desk where
  host := .usual
  files := contendingFiles

/-- The desk after that document was opened. -/
def prefixedDesk : Desk where
  host := .usual
  files := contendingFiles
  registry := PrefixRegistry.initial ++ [⟨"p", "u1"⟩]

theorem openStation_prefixed :
    contendingDesk.openStation "a.scd" = (prefixedDesk, .ok (prefixed "A")) := by
  have hopened : Station.ofBytes contendingDesk.host.intake contendingDesk.registry "a.scd"
      "<p:SCL xmlns:p=\"u1\"><IED name=\"A\"/></p:SCL>".toUTF8.toList =
        (prefixedDesk.registry, .ok (prefixed "A")) :=
    Station.ofBytes_of_read [.bind ⟨"p", "u1"⟩, .start ⟨"u1", "SCL"⟩ [],
      .start ⟨"", "IED"⟩ [(⟨"", "name"⟩, "A")],
      .stop, .stop] (by decide +kernel) (by decide +kernel) (by decide +kernel) rfl (by
        decide +kernel)
  have hread : contendingDesk.files.read "a.scd" =
      .ok "<p:SCL xmlns:p=\"u1\"><IED name=\"A\"/></p:SCL>".toUTF8.toList := by decide +kernel
  rw [openStation_eq]
  simp only [hread, hopened]
  rfl

theorem openStation_malformed : (prefixedDesk.openStation "b.scd").2 =
    .error (.opening (.malformed "b.scd" ⟨.mismatchedTag, ⟨1, 22⟩⟩)) := by
  have hfailure : (Xml.read "<p:SCL xmlns:p=\"u2\"></SCL>".toUTF8.toList).failure =
      some (.refused ⟨.mismatchedTag, ⟨1, 22⟩⟩) := by decide +kernel
  have hplain : Files.plainPath "b.scd" = "b.scd" := by decide +kernel
  have hevents : (Xml.read "<p:SCL xmlns:p=\"u2\"></SCL>".toUTF8.toList).events =
      [.bind ⟨"p", "u2"⟩, .start ⟨"u2", "SCL"⟩ []] := by decide +kernel
  have hopened : Station.ofBytes prefixedDesk.host.intake prefixedDesk.registry "b.scd"
      "<p:SCL xmlns:p=\"u2\"></SCL>".toUTF8.toList =
        (PrefixRegistry.initial ++ [⟨"p", "u2"⟩],
          .error (.malformed "b.scd" ⟨.mismatchedTag, ⟨1, 22⟩⟩)) :=
    Station.ofBytes_of_failure _
      ((Xml.Intake.announced_of_length_le (by decide +kernel)).trans hevents)
      hfailure (by decide +kernel) hplain
  have hread : prefixedDesk.files.read "b.scd" =
    .ok "<p:SCL xmlns:p=\"u2\"></SCL>".toUTF8.toList := by
    decide +kernel
  rw [openStation_eq]
  simp only [hread, hopened]
  rfl

theorem toBytes_openAll_contended :
    Station.Reached PrefixRegistry.initial ∧
      contendingDesk.openStation "a.scd" = (prefixedDesk, .ok (prefixed "A")) ∧
      (∀ op ∈ [(⟨"A", "B"⟩ : Renaming)], Xml.IsDocumentText op.new) ∧
      (prefixed "A").rename [⟨"A", "B"⟩] = .ok ⟨prefixed "B", 1, 0⟩ ∧
      (∀ u ∈ (prefixed "B").root.allSpaces, u ≠ "" →
        KeepsPrefix (contending.flatMap (registrations contendingDesk.host.intake))
          prefixedDesk.registry u) ∧
      (prefixed "B").toBytes (prefixedDesk.openAll contending).registry =
        (prefixed "B").toBytes prefixedDesk.registry := by
  have hregistered : contending.flatMap (registrations contendingDesk.host.intake) =
    [⟨"p", "u2"⟩, ⟨"q", "u2"⟩] ++ [⟨"p", "u1"⟩] := by
    decide +kernel
  have hspaces : (prefixed "B").root.allSpaces = ["u1", "", ""] := rfl
  have hkeeps : ∀ u ∈ (prefixed "B").root.allSpaces, u ≠ "" →
      KeepsPrefix (contending.flatMap (registrations contendingDesk.host.intake))
        prefixedDesk.registry u := by
    intro u hu hne pfx b hb
    obtain rfl : u = "u1" := by
      rw [hspaces] at hu
      simpa [hne] using hu
    -- The last of the declarations gives the namespace its prefix back.
    have hlast : lastMention pfx "u1" [⟨"p", "u1"⟩] = some ⟨"p", "u1"⟩ := by simp [lastMention]
    rw [hregistered, lastMention_append, hlast, Option.some_or, Option.mem_some_iff] at hb
    subst hb
    simp [prefixedDesk, PrefixRegistry.initial, Xml.xmlNamespace, eq_comm]
  have hlegible : ∀ op ∈ [(⟨"A", "B"⟩ : Renaming)], Xml.IsDocumentText op.new :=
    List.forall_mem_singleton.mpr (Xml.isDocumentText_of_all (by decide))
  have happlied : (prefixed "A").rename [⟨"A", "B"⟩] = .ok ⟨prefixed "B", 1, 0⟩ := rfl
  exact ⟨Station.Reached.initial, openStation_prefixed, hlegible, happlied, hkeeps,
    (toBytes_openAll_iff Station.Reached.initial openStation_prefixed hlegible happlied
      contending).mpr hkeeps⟩

/-- **A file that cannot be opened can change the text of a document that is open.** -/
theorem toBytes_openAll_overridden :
    contendingDesk.openStation "a.scd" = (prefixedDesk, .ok (prefixed "A")) ∧
      (prefixedDesk.openStation "b.scd").2 =
        .error (.opening (.malformed "b.scd" ⟨.mismatchedTag, ⟨1, 22⟩⟩)) ∧
      (prefixed "A").toBytes prefixedDesk.registry =
        (Xml.writtenDeclaration ++
          "<p:SCL xmlns:p=\"u1\"><IED name=\"A\" /></p:SCL>").toUTF8.toList ∧
      (prefixed "A").toBytes (prefixedDesk.openAll [(contendingFiles, "b.scd")]).registry =
        (Xml.writtenDeclaration ++
          "<ns0:SCL xmlns:ns0=\"u1\"><IED name=\"A\" /></ns0:SCL>").toUTF8.toList ∧
      (prefixed "A").toBytes (prefixedDesk.openAll [(contendingFiles, "b.scd")]).registry ≠
        (prefixed "A").toBytes prefixedDesk.registry :=
  ⟨openStation_prefixed, openStation_malformed, by decide +kernel, by decide +kernel,
    by decide +kernel⟩

end Desk

end StationNaming
