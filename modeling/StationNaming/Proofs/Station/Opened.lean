import StationNaming.Proofs.Station.Renamed
import StationNaming.Proofs.Xml.Accepted
import StationNaming.Station.Opening
/-!
# Documents that were opened

Opening a file registers its prefixes and gives its tree. Every registry that this leads to can be
relied on for writing, and every tree that is opened, and what renaming makes of it, is one that a
file can hold.

**What is exact.** `ofBytes_eq_ok_iff` says when a file is opened, for every list of bytes under
every registry; how the file is taken in makes no difference to that. `Reached` is every registry
that any number of openings can lead to, whether they succeed or not.
-/

namespace StationNaming.Station

open Xml (Attribute Binding Element Event IsDocumentText IsToken Label PrefixRegistry
  bindingsIn parse?)

variable {intake : Xml.Intake}

/-! ## Registering -/

/-- **All prefixes can be registered** if none of them is kept. -/
theorem registerAll_snd_iff {registry : PrefixRegistry} {es : List Event} :
    (registerAll registry es).2 = true ↔
      ∀ b ∈ bindingsIn es, PrefixRegistry.isReserved b.pfx = false := by
  induction es generalizing registry with
  | nil => simp [registerAll, bindingsIn]
  | cons e es ih =>
    cases e with
    | bind b =>
      have hcons : bindingsIn (.bind b :: es) = b :: bindingsIn es := rfl
      rw [registerAll, PrefixRegistry.register?, hcons, List.forall_mem_cons]
      by_cases hreserved : PrefixRegistry.isReserved b.pfx = true
      · simp [hreserved]
      · simp [Bool.eq_false_iff.mpr hreserved, ih]
    | start | text | stop => exact ih

theorem sound_registerAll {registry : PrefixRegistry} (h : registry.Sound) {es : List Event}
    (hes : ∀ e ∈ es, e.Sound) : (registerAll registry es).1.Sound := by
  induction es generalizing registry with
  | nil => exact h
  | cons e es ih =>
    obtain ⟨he, hrest⟩ := List.forall_mem_cons.mp hes
    cases e with
    | bind b =>
      rw [registerAll]
      split
      · next hregister => exact ih (h.register? he hregister) hrest
      · exact h
    | start | text | stop => exact ih h hrest

/-- **The registries that opening files leads to**, one after the other, from the one at the
start. -/
inductive Reached : PrefixRegistry → Prop
  | initial : Reached PrefixRegistry.initial
  | opened (intake : Xml.Intake) {registry : PrefixRegistry} (h : Reached registry) (path : String)
    (bytes : List UInt8) : Reached (ofBytes intake registry path bytes).1

theorem Reached.of_opens {registry registry' : PrefixRegistry} (h : Reached registry)
    {path : String} {bytes : List UInt8} {result : Except OpenError Station}
    (opens : ofBytes intake registry path bytes = (registry', result)) : Reached registry' := by
  have hopened := h.opened intake path bytes
  rwa [opens] at hopened

theorem ofBytes_fst (registry : PrefixRegistry) (path : String) (bytes : List UInt8) :
    (ofBytes intake registry path bytes).1 =
      (registerAll registry (intake.announced bytes)).1 := by
  rw [ofBytes]
  split <;> simp_all

/-- **A registry that was reached can be relied on.** -/
theorem Reached.sound {registry : PrefixRegistry} (h : Reached registry) : registry.Sound := by
  induction h with
  | initial => exact PrefixRegistry.sound_initial
  | opened intake _ path bytes ih =>
    rw [ofBytes_fst]
    exact sound_registerAll ih fun e he =>
      Xml.sound_of_mem_read bytes e ((intake.announced_prefix bytes).subset he)

/-! ## Opening -/

/-- What a reading amounts to is its tree, if nothing stopped the reading. -/
theorem ofReading_eq_ok_iff {plain : String} {bytes : List UInt8} {s : Station} :
    ofReading plain (Xml.read bytes) = .ok s ↔ parse? bytes = some s.root ∧ s.path = plain := by
  obtain ⟨root, path⟩ := s
  rw [ofReading, parse?]
  cases (Xml.read bytes).failure with
  | some failure => simp
  | none =>
    cases Element.ofEvents? (Xml.read bytes).events with
    | none => simp
    | some e => simp [Station.mk.injEq, eq_comm]

/-- **When a file is opened**: if it can be parsed and declares no prefix that is kept. -/
theorem ofBytes_eq_ok_iff {registry : PrefixRegistry} {path : String} {bytes : List UInt8}
    {s : Station} :
    (ofBytes intake registry path bytes).2 = .ok s ↔
      (∀ b ∈ bindingsIn (Xml.read bytes).events, PrefixRegistry.isReserved b.pfx = false) ∧
        parse? bytes = some s.root ∧ s.path = Files.plainPath path := by
  rw [← @registerAll_snd_iff registry, ← ofReading_eq_ok_iff, ofBytes]
  cases hfailure : (Xml.read bytes).failure with
  | none =>
    rw [Xml.Intake.announced_of_failure_eq_none hfailure]
    split <;> simp_all
  | some failure =>
    -- A file with a fault is refused, whatever it has announced by then.
    have hrefused : ofReading (Files.plainPath path) (Xml.read bytes) ≠ .ok s := by
      simp [ofReading, hfailure]
    split <;> simp_all

/-- **An opened tree is one that a file can hold.** -/
theorem sound_of_ofBytes {registry : PrefixRegistry} {path : String} {bytes : List UInt8}
    {s : Station}
    (opens : (ofBytes intake registry path bytes).2 = .ok s) : s.root.Sound ∧ s.root.tail = "" := by
  have hparse := (ofBytes_eq_ok_iff.mp opens).2.1
  rw [parse?] at hparse
  split_ifs at hparse
  exact Element.sound_of_ofEvents? hparse

/-! ## Renaming -/

/-- An attribute that can be set outside every namespace. -/
def IsKey (key : String) : Prop := IsToken key.toList ∧ key ≠ "xmlns"

theorem isKey_name : IsKey "name" := ⟨⟨by decide, List.all_eq_true.mp (by decide)⟩, by decide⟩

theorem isKey_referenceKey : IsKey referenceKey :=
  ⟨⟨by decide, List.all_eq_true.mp (by decide)⟩, by decide⟩

theorem Label.Sound.setAttribute {l : Label} (h : l.Sound) {key value : String} (hkey : IsKey key)
    (hvalue : IsDocumentText value) : (l.setAttribute key value).Sound where
  name := h.name
  attributes := by
    intro a ha
    rcases Keyed.eq_or_mem_of_mem_set ha with rfl | ha
    · exact ⟨⟨hkey.1, .inl rfl⟩, fun heq => hkey.2 (congrArg Xml.Name.localName heq), hvalue⟩
    · exact h.attributes a ha
  distinct := Keyed.nodup_keys_set h.distinct _ value
  text := h.text
  tail := h.tail

theorem Label.Sound.setText {l : Label} (h : l.Sound) {value : String}
    (hvalue : IsDocumentText value) :
    (l.setText value).Sound :=
  { h with text := hvalue }

/-- **Relabelling a tree** keeps it one that a file can hold, if it does so with every label. -/
theorem Element.Sound.relabel {e : Element} (h : e.Sound) {f : Element.Path → Label → Label}
    (hf : ∀ path l, l.Sound → (f path l).Sound) : (e.relabel f).Sound := by
  intro y hy
  have hflip : List.Forall₂ (fun y x => Xml.Element.Relabelled f x y) (e.relabel f).walk e.walk :=
    (Xml.Element.forall₂_walk_relabel f e).flip
  obtain ⟨x, hx, hxy⟩ := exists_mem_of_forall₂ hflip hy
  rw [hxy.label_eq]
  exact hf x.1 x.2.label (h x hx)

/-- **What a resolved renaming writes** to a label that a file can hold is one again, with its old
tail. -/
theorem Resolved.sound_relabel {r : Resolved} (hnew : IsDocumentText r.new)
    (path : Element.Path) {l : Label}
    (h : l.Sound) : (r.relabel path l).Sound ∧ (r.relabel path l).tail = l.tail := by
  have hsite : ∀ (site : Site) {k : Label}, k.Sound →
      (site.writeLabel r.new k).Sound ∧ (site.writeLabel r.new k).tail = k.tail := by
    intro site k hk
    match site with
    | .attribute => exact ⟨Label.Sound.setAttribute hk isKey_referenceKey hnew, rfl⟩
    | .text => exact ⟨Label.Sound.setText hk hnew, rfl⟩
  have hname : (Element.relabelAt [r.index] (·.setAttribute "name" r.new) path l).Sound ∧
      (Element.relabelAt [r.index] (·.setAttribute "name" r.new) path l).tail = l.tail := by
    rw [Element.relabelAt]
    split_ifs
    · exact ⟨Label.Sound.setAttribute h isKey_name hnew, rfl⟩
    · exact ⟨h, rfl⟩
  rw [Resolved.relabel]
  generalize Element.relabelAt [r.index] (·.setAttribute "name" r.new) path l = k at hname ⊢
  -- Every reference is written to a label that the ones before have left sound.
  induction r.references generalizing k with
  | nil => exact hname
  | cons ref refs ih =>
    refine ih _ ?_
    simp only [Element.relabelAt]
    split_ifs
    · exact ⟨(hsite ref.site hname.1).1, (hsite ref.site hname.1).2.trans hname.2⟩
    · exact hname

/-- A renaming that resolves keeps its new name. -/
theorem new_of_resolve {s : Station} {op : Renaming} {x : Resolved} (h : s.resolve op = .ok x) :
    x.new = op.new := by
  rw [resolve] at h
  split at h
  · cases h
  · cases h
    rfl

theorem exists_of_mem_mapM {s : Station} {ops : List Renaming} {resolved : List Resolved}
    (h : ops.mapM s.resolve = .ok resolved) {x : Resolved} (hx : x ∈ resolved) :
    ∃ op ∈ ops, x.new = op.new := by
  induction ops generalizing resolved with
  | nil =>
    cases h
    exact absurd hx List.not_mem_nil
  | cons op ops ih =>
    rw [List.mapM_cons] at h
    cases hfirst : s.resolve op with
    | error name =>
      rw [hfirst] at h
      cases h
    | ok first =>
      cases hrest : ops.mapM s.resolve with
      | error name =>
        rw [hfirst, hrest] at h
        cases h
      | ok rest =>
        rw [hfirst, hrest] at h
        cases h
        rcases List.mem_cons.mp hx with rfl | hx
        · exact ⟨op, List.mem_cons_self, new_of_resolve hfirst⟩
        · obtain ⟨op', hop', heq⟩ := ih hrest hx
          exact ⟨op', List.mem_cons_of_mem op hop', heq⟩

/-- **A renamed document** is one that a file can hold, if the document was and the new names are
legible. -/
theorem sound_of_rename {s : Station} (hs : s.root.Sound ∧ s.root.tail = "") {ops : List Renaming}
    (hnew : ∀ op ∈ ops, IsDocumentText op.new) {r : Renamed} (applied : s.rename ops = .ok r) :
    r.station.root.Sound ∧ r.station.root.tail = "" := by
  rw [rename] at applied
  cases hresolved : ops.mapM s.resolve with
  | error name =>
    rw [hresolved] at applied
    cases applied
  | ok resolved =>
    rw [hresolved] at applied
    cases applied
    have hnew' : ∀ x ∈ resolved, IsDocumentText x.new := by
      intro x hx
      obtain ⟨op, hop, heq⟩ := exists_of_mem_mapM hresolved hx
      exact heq ▸ hnew op hop
    have hlabel : ∀ (path : Element.Path) (l : Label), l.Sound →
        (resolved.foldl (fun l x => x.relabel path l) l).Sound ∧
          (resolved.foldl (fun l x => x.relabel path l) l).tail = l.tail := by
      intro path l hl
      clear hresolved
      induction resolved generalizing l with
      | nil => exact ⟨hl, rfl⟩
      | cons x resolved ih =>
        obtain ⟨hx, hrest⟩ := List.forall_mem_cons.mp hnew'
        obtain ⟨hsound, htail⟩ := Resolved.sound_relabel hx path hl
        obtain ⟨hsound', htail'⟩ := ih hrest _ hsound
        exact ⟨hsound', htail'.trans htail⟩
    have hroot := foldl_write_eq resolved s.root
    refine ⟨?_, ?_⟩
    · show (resolved.foldl Resolved.write s.root).Sound
      rw [hroot]
      exact Element.Sound.relabel hs.1 fun path l hl => (hlabel path l hl).1
    · show (resolved.foldl Resolved.write s.root).label.tail = ""
      rw [hroot, Element.label_relabel]
      exact (hlabel [] s.root.label (hs.1 ([], s.root) (Element.nil_mem_walk s.root))).2.trans hs.2

/-- A name that may stand is legible. -/
theorem isDocumentText_of_admissible {name : String} (h : Naming.Admissible name) :
    IsDocumentText name := by
  obtain ⟨c, cs, hname, hc, hcs, -⟩ := h
  have hfollower : ∀ d ∈ name.toList, Naming.IsFollower d := by
    rw [hname]
    exact List.forall_mem_cons.mpr ⟨.inl hc, hcs⟩
  intro d hd
  rw [Xml.isDocumentChar_iff]
  rcases hfollower d hd with (hd | hd) | hd | rfl
  · omega
  · omega
  · have hdigit : 48 ≤ d.toNat ∧ d.toNat ≤ 57 := hd
    omega
  · decide

/-- **What a session renames in an opened document** leaves it one that a file can hold. -/
theorem sound_of_rename_commit {registry : PrefixRegistry} {path : String} {bytes : List UInt8}
    {s : Station} (opens : (ofBytes intake registry path bytes).2 = .ok s) {start opened : Editor}
    (loads : start.load s.records = .ok opened) (edits : List Edit) {ops : List Renaming}
    (commits : (opened.edited edits).commit = .ok ops) {r : Renamed}
    (applied : s.rename ops = .ok r) :
    r.station.root.Sound ∧ r.station.root.tail = "" := by
  obtain ⟨l, -, hheld⟩ := Editor.exists_holds_edited loads edits
  rw [Editor.commit_of_holds_some hheld, Except.ok.injEq] at commits
  subst commits
  exact sound_of_rename (sound_of_ofBytes opens)
    (fun op hop => isDocumentText_of_admissible (Ledger.admissible_new hop)) applied

end StationNaming.Station
