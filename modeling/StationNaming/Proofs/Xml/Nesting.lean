import StationNaming.Proofs.Xml.Accepted
/-!
# Reading makes a tree

The reader refuses an end tag that ends no open element, and a file that ends while an element is
open. So the events of a file without a fault are those of one element with everything inside it.

**What is exact.** `wellFormed_iff` holds for every list of bytes: a file has a tree exactly if
nothing stopped its reading. What carries this is `Made`: the frames of the tree so far are as many
as the elements that the reader holds open.
-/

namespace StationNaming.Xml

open Element (Frame ofEventsIn)

/-- **A well-formed file**: nothing stops its reading. -/
def WellFormed (bytes : List UInt8) : Prop := (read bytes).failure = none

instance (bytes : List UInt8) : Decidable (WellFormed bytes) := inferInstanceAs (Decidable (_ = _))

/-! ## Frames -/

/-- Events, last one first, that leave frames open and a root if one has ended. -/
def LeadsTo (events : List Event) (frames : List Frame) (root : Option Element) : Prop :=
  ∀ later, Element.ofEvents? (events.reverse ++ later) = ofEventsIn frames root later

section LeadsTo

variable {events : List Event} {frames : List Frame} {root : Option Element}

theorem leadsTo_nil : LeadsTo [] [] none := fun _ => rfl

/-- One more event. -/
theorem LeadsTo.cons (h : LeadsTo events frames root) {e : Event} {frames' : List Frame}
    {root' : Option Element}
    (hstep : ∀ later, ofEventsIn frames root (e :: later) = ofEventsIn frames' root' later) :
    LeadsTo (e :: events) frames' root' := by
  intro later
  rw [List.reverse_cons, List.append_assoc, List.singleton_append, h, hstep]

/-- Bindings open and end nothing. -/
theorem LeadsTo.binds (h : LeadsTo events frames root) (bs : List Binding) :
    LeadsTo ((bs.map Event.bind).reverse ++ events) frames root := by
  induction bs generalizing events with
  | nil => exact h
  | cons b bs ih =>
    have hbs := ih (h.cons (e := .bind b) fun _ => rfl)
    rwa [List.map_cons, List.reverse_cons, List.append_assoc, List.singleton_append]

/-- A text opens and ends nothing. -/
theorem LeadsTo.text (h : LeadsTo events frames root) (cs : List Char) :
    ∃ frames', LeadsTo (.text cs :: events) frames' root ∧ frames'.length = frames.length := by
  cases frames with
  | nil => exact ⟨[], h.cons fun _ => rfl, rfl⟩
  | cons f outer => exact ⟨f.addText (String.ofList cs) :: outer, h.cons fun _ => rfl, rfl⟩

/-- **An end** ends the innermost frame, and the last frame to end is the root. -/
theorem LeadsTo.stop {f : Frame} (h : LeadsTo events (f :: frames) root) :
    ∃ frames' root', LeadsTo (.stop :: events) frames' root' ∧ frames'.length = frames.length ∧
      (frames = [] → root'.isSome = true) := by
  cases frames with
  | nil => exact ⟨[], some f.close, h.cons fun _ => rfl, rfl, fun _ => rfl⟩
  | cons g outer =>
    exact ⟨{ g with children := f.close :: g.children } :: outer, root, h.cons fun _ =>
      rfl, rfl, nofun⟩

/-- Where nothing is open, the tree is the root. -/
theorem LeadsTo.ofEvents?_eq (h : LeadsTo events [] root) :
    Element.ofEvents? events.reverse = root := by
  have hend := h []
  rwa [List.append_nil] at hend

end LeadsTo

/-! ## Content -/

namespace ContentState

/-- **What has been read leaves as many frames open as there are open elements.** -/
def Made (st : ContentState) : Prop :=
  ∃ frames root, LeadsTo st.events frames root ∧ frames.length = st.opened.length

/-- The root element has ended. -/
def Whole (st : ContentState) : Prop := ∃ root, Element.ofEvents? st.events.reverse = some root

theorem made_initial : Made {} := ⟨[], none, leadsTo_nil, rfl⟩

/-- An element that has been ended leaves the elements around it open, or it is the root. -/
theorem made_stop {events : List Event} {opened : List OpenElement} {f : Frame}
    {frames : List Frame} {root : Option Element} (hleads : LeadsTo events (f :: frames) root)
    (hdepth : frames.length = opened.length) :
    Made ⟨.stop :: events, opened⟩ ∧ (opened = [] → Whole ⟨.stop :: events, opened⟩) := by
  obtain ⟨frames', root', hstop, hlength, hroot⟩ := hleads.stop
  refine ⟨⟨frames', root', hstop, hlength.trans hdepth⟩, ?_⟩
  rintro rfl
  obtain rfl := List.eq_nil_of_length_eq_zero (hlength.trans hdepth)
  obtain ⟨e, rfl⟩ := Option.isSome_iff_exists.mp (hroot (List.eq_nil_of_length_eq_zero hdepth))
  exact ⟨e, hstop.ofEvents?_eq⟩

variable {st : ContentState} (h : st.Made)

include h

theorem Made.text (cs : List Char) : (st.push (.text cs)).Made := by
  obtain ⟨frames, root, hleads, hdepth⟩ := h
  obtain ⟨frames', htext, hlength⟩ := hleads.text cs
  exact ⟨frames', root, htext, hlength.trans hdepth⟩

/-- **A start tag** opens one frame, or none if its element ends at once. -/
theorem Made.start (d : Doctype) (here : List Glyph) (name : String)
    (attributes : List RawAttribute) (isEmpty : Bool) :
    Yields (fun _ => True) (fun st' => st'.Made ∧ (st'.opened = [] → st'.Whole))
      (st.start d here name attributes isEmpty) := by
  obtain ⟨frames, root, hleads, hdepth⟩ := h
  rw [ContentState.start]
  dsimp only
  split
  · trivial
  · next tag _ =>
    have hstart := (hleads.binds tag.bound).cons (e := .start tag.name tag.attributes) fun _ => rfl
    split_ifs
    · exact made_stop hstart hdepth
    · have hopen : ({ name := name, scope := tag.scope } : OpenElement) :: st.opened ≠ [] :=
        List.cons_ne_nil _ _
      exact ⟨⟨_, root, hstart, congrArg Nat.succ hdepth⟩, fun hclosed => absurd hclosed hopen⟩

/-- **An end tag** ends one frame. -/
theorem Made.stop (floor : Nat) (here nameAt : List Glyph) (name : String) :
    Yields (fun _ => True) (fun st' => st'.Made ∧ (st'.opened = [] → st'.Whole))
      (st.stop floor here nameAt name) := by
  obtain ⟨frames, root, hleads, hdepth⟩ := h
  rw [ContentState.stop]
  split
  · trivial
  · next o outer hopened =>
    rw [hopened] at hdepth
    obtain ⟨f, rest, rfl⟩ := List.exists_cons_of_length_eq_add_one hdepth
    split_ifs
    · trivial
    · exact made_stop hleads (Nat.succ.inj hdepth)
    · trivial

end ContentState

/-- **Reading content** to its end, outside every entity, ends the root element. -/
theorem made_readContent (s : Setting) (available : Entities) (floor : Nat) {st : ContentState}
    (hst : st.Made) (cs : List Glyph) :
    Yields (fun _ => True) (fun r => r.1.Made ∧ (floor = 0 → r.1.Whole))
      (readContent s available floor st cs) := by
  fun_induction readContent s available floor st cs
  case case2 hfloor => exact ⟨hst, fun hzero => absurd hzero hfloor⟩
  case case6 ih => exact ih (hst.text _)
  case case7 ih => exact ih hst
  case case10 ih => exact ih (hst.text _)
  case case12 ih => exact ih (hst.text _)
  case case14 st' rest' hst' ihinside ih =>
    have hinside := ihinside hst
    rw [hst'] at hinside
    exact ih hinside.1
  case case16 floor st g gs _ name attributes isEmpty rest _ st' hst' hopened =>
    have hstart := hst.start s.doctype (g :: gs) name attributes isEmpty
    rw [hst'] at hstart
    exact ⟨hstart.1, fun _ => hstart.2 (List.isEmpty_iff.mp hopened)⟩
  case case17 floor st g gs _ name attributes isEmpty rest _ st' hst' _ ih =>
    have hstart := hst.start s.doctype (g :: gs) name attributes isEmpty
    rw [hst'] at hstart
    exact ih hstart.1
  case case19 floor st g gs _ name nameAt rest _ st' hst' hopened =>
    have hstop := hst.stop floor (g :: gs) nameAt name
    rw [hst'] at hstop
    exact ⟨hstop.1, fun _ => hstop.2 (List.isEmpty_iff.mp hopened)⟩
  case case20 floor st g gs _ name nameAt rest _ st' hst' _ ih =>
    have hstop := hst.stop floor (g :: gs) nameAt name
    rw [hst'] at hstop
    exact ih hstop.1
  all_goals trivial

/-! ## Files -/

theorem exists_tree_of_decoded {d : Decoded} (h : d.read.failure = none) :
    ∃ root, Element.ofEvents? d.read.events = some root := by
  rw [Decoded.read] at h ⊢
  dsimp only at h ⊢
  split at h
  · cases h
  · next doctype cs _ =>
    have hread := made_readContent ⟨doctype, d.isTorn⟩ doctype.entities 0
      ContentState.made_initial cs
    split at h
    · cases h
    · next st rest hst =>
      rw [hst] at hread
      split at h
      · cases h
      · exact hread.2 rfl

/-- **A well-formed file has a tree, and only a well-formed file has one.** -/
theorem wellFormed_iff {bytes : List UInt8} : WellFormed bytes ↔
    ∃ root, parse? bytes = some root := by
  rw [WellFormed, parse?]
  constructor
  · intro h
    rw [if_pos (by rw [h]; rfl)]
    rw [read] at h ⊢
    cases hd : Decoded.ofBytes bytes with
    | error failure =>
      rw [hd] at h
      cases h
    | ok d =>
      rw [hd] at h
      exact exists_tree_of_decoded h
  · rintro ⟨root, h⟩
    split_ifs at h with hnone
    exact Option.isNone_iff_eq_none.mp hnone

end StationNaming.Xml
