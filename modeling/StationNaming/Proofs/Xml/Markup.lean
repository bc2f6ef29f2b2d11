import StationNaming.Proofs.Xml.Characters
import StationNaming.Proofs.Xml.Content
import StationNaming.Proofs.Xml.Tags
import StationNaming.Xml.Element
/-!
# Reading elements as they are written

An element as it is written, with names that are not resolved yet, and what reading it gives.

**What is exact.** `readsAs` covers every element that is written with runs of name characters for
names. It is read exactly if these are names and every tag says something, and then the events that
are read build the element that the tags say, with the line ends of its texts made line feeds.
-/

namespace StationNaming.Xml

/-! ## Markup -/

/-- **An element as it is written**: its name and those of its attributes are not resolved. -/
inductive Markup where
  | mk (tag : String) (attributes : List WrittenAttribute) (text : String) (children : List Markup)
    (tail : String)

/-- A text with its line ends made line feeds. -/
def normalText (text : String) : String := String.ofList (lineEnds text.toList)

/-- What a start tag says, if its names are names and it says something. -/
def readableTag (scope : Scope) (tag : String) (as : List WrittenAttribute) : Option StartTag :=
  if IsQName tag.toList ∧ ∀ a ∈ as, IsQName a.1.toList then readTag scope tag as else none

theorem names_of_readableTag {scope : Scope} {tag : String} {as : List WrittenAttribute}
    {said : StartTag} (h : readableTag scope tag as = some said) :
    IsQName tag.toList ∧ ∀ a ∈ as, IsQName a.1.toList := by
  rw [readableTag] at h
  split at h
  case isTrue hnames => exact hnames
  case isFalse => cases h

theorem bound_of_readableTag {scope : Scope} {tag : String} {as : List WrittenAttribute}
    {said : StartTag} (h : readableTag scope tag as = some said) : said.bound = bindingsOf as := by
  simp only [readableTag, readTag, Option.ite_none_right_eq_some, Option.bind_eq_some_iff,
    Option.map_eq_some_iff] at h
  obtain ⟨-, -, attributes, -, name, -, rfl⟩ := h
  rfl

namespace Markup

/-- The text after the element. -/
def tail : Markup → String
  | mk _ _ _ _ tl => tl

mutual

/-- The glyphs of an element without its tail. -/
def glyphs : Markup → List Glyph
  | mk tag as t cs _ =>
    if t = "" && cs.isEmpty then .char '<' :: startTagGlyphs tag as true
    else
      .char '<' :: (startTagGlyphs tag as false ++ (textGlyphs t.toList ++ (glyphsAll cs ++
        .char '<' :: .char '/' :: (Xml.glyphs tag.toList ++ [.char '>']))))

/-- The glyphs of neighbours, with their tails. -/
def glyphsAll : List Markup → List Glyph
  | [] => []
  | c :: cs => glyphs c ++ (textGlyphs c.tail.toList ++ glyphsAll cs)

end

mutual

/-- Every name in an element is a run of name characters with at most one colon inside, and every
value and text may stand in a document. -/
def Spelled : Markup → Prop
  | mk tag as t cs tl => IsQToken tag.toList ∧
    (∀ a ∈ as, IsQToken a.1.toList ∧ IsDocumentText a.2) ∧
      IsDocumentText t ∧ IsDocumentText tl ∧ SpelledAll cs

/-- So it is in neighbours. -/
def SpelledAll : List Markup → Prop
  | [] => True
  | c :: cs => Spelled c ∧ SpelledAll cs

end

mutual

/-- **The element that is read**, without its tail, if the names are names and every tag says
something. -/
def element? (scope : Scope) : Markup → Option Element
  | mk tag as t cs _ =>
    (readableTag scope tag as).bind fun said =>
      (elements? said.scope cs).map fun cs' => .mk said.name said.attributes (normalText t) cs' ""

/-- The neighbours that are read, with their tails. -/
def elements? (scope : Scope) : List Markup → Option (List Element)
  | [] => some []
  | c :: cs =>
    (element? scope c).bind fun c' =>
      (elements? scope cs).map fun cs' => c'.addTail (normalText c.tail) :: cs'

end

mutual

/-- The bindings in an element, in document order. -/
def bindings : Markup → List Binding
  | mk _ as _ cs _ => bindingsOf as ++ bindingsAll cs

/-- The bindings in neighbours. -/
def bindingsAll : List Markup → List Binding
  | [] => []
  | c :: cs => bindings c ++ bindingsAll cs

end

end Markup

/-! ## What events build -/

namespace Element

/-- More text in an open element at once. -/
theorem Frame.addText_append (f : Frame) (a b : String) :
    (f.addText a).addText b = f.addText (a ++ b) := by
  obtain ⟨n, as, t, cs⟩ := f
  cases cs with
  | nil => simp [Frame.addText, String.append_assoc]
  | cons c cs =>
    cases c
    simp [Frame.addText, addTail, String.append_assoc]

theorem Frame.addText_empty (f : Frame) : f.addText "" = f := by
  obtain ⟨n, as, t, cs⟩ := f
  cases cs with
  | nil => simp [Frame.addText]
  | cons c cs =>
    cases c
    simp [Frame.addText, addTail]

/-- **What events make of an open element**, whatever comes after them. -/
def Makes (es : List Event) (f f' : Frame) : Prop :=
  ∀ outer root more, ofEventsIn (f :: outer) root (es ++ more) = ofEventsIn (f' :: outer) root more

theorem Makes.refl (f : Frame) : Makes [] f f := fun _ _ _ => rfl

theorem Makes.trans {es es' : List Event} {f f' f'' : Frame} (h : Makes es f f')
    (h' : Makes es' f' f'') : Makes (es ++ es') f f'' := by
  intro outer root more
  rw [List.append_assoc, h, h']

theorem makes_text (cs : List Char) (f : Frame) :
    Makes [.text cs] f (f.addText (String.ofList cs)) := fun _ _ _ => rfl

/-- Pieces of text are one text. -/
theorem makes_pieces (pieces : List (List Char)) (f : Frame) :
    Makes (pieces.map .text) f (f.addText (String.ofList pieces.flatten)) := by
  induction pieces generalizing f with
  | nil =>
    rw [List.flatten_nil, show String.ofList [] = "" from rfl, Frame.addText_empty]
    exact Makes.refl f
  | cons piece pieces ih =>
    rw [List.map_cons, ← List.singleton_append, List.flatten_cons, String.ofList_append,
      ← Frame.addText_append]
    exact (makes_text piece f).trans (ih _)

/-- Bindings leave no trace in the tree. -/
theorem makes_bindings (bs : List Binding) (f : Frame) : Makes (bs.map .bind) f f := by
  induction bs with
  | nil => exact Makes.refl f
  | cons b bs ih => exact ih

/-- One more child of an open element. -/
def Frame.addChild (f : Frame) (e : Element) : Frame := { f with children := e :: f.children }

/-- **Events build an element** if they make it one more child, wherever they stand. -/
def Builds (es : List Event) (e : Element) : Prop := ∀ f, Makes es f (f.addChild e)

/-- Events that build neighbours. -/
def BuildsAll (es : List Event) (cs : List Element) : Prop :=
  ∀ f, Makes es f { f with children := cs.reverse ++ f.children }

/-- The events of an element, from those inside it. -/
def eventsOf (said : StartTag) (inside : List Event) : List Event :=
  said.bound.map .bind ++ .start said.name said.attributes :: (inside ++ [.stop])

theorem builds_eventsOf (said : StartTag) {inside : List Event} {f' : Frame}
    (h : Makes inside { name := said.name, attributes := said.attributes } f') :
    Builds (eventsOf said inside) f'.close := by
  intro f outer root more
  rw [eventsOf, List.append_assoc, makes_bindings said.bound f, List.cons_append, ofEventsIn,
    List.append_assoc, h]
  rfl

/-- An element whose events are read from the start is the tree of these events. -/
theorem ofEvents?_eventsOf (said : StartTag) {inside : List Event} {f' : Frame}
    (h : Makes inside { name := said.name, attributes := said.attributes } f') :
    ofEvents? (eventsOf said inside) = some f'.close := by
  have hbindings : ∀ bs : List Binding, ∀ more,
      ofEventsIn [] none (bs.map .bind ++ more) = ofEventsIn [] none more := by
    intro bs more
    induction bs with
    | nil => rfl
    | cons b bs ih => exact ih
  rw [ofEvents?, eventsOf, hbindings, ofEventsIn, h]
  rfl

theorem buildsAll_nil : BuildsAll [] [] := fun f => Makes.refl f

/-- A child gets the text that follows it for its tail. -/
theorem BuildsAll.cons {es es' : List Event} {c : Element} {cs : List Element} (h : Builds es c)
    (pieces : List (List Char)) (h' : BuildsAll es' cs) :
    BuildsAll (es ++ (pieces.map .text ++ es'))
    (c.addTail (String.ofList pieces.flatten) :: cs) := by
  intro f
  have hmakes := (h f).trans ((makes_pieces pieces _).trans (h' _))
  rw [List.reverse_cons, List.append_assoc]
  exact hmakes

/-- The inside of an element: its text, then its children. -/
theorem makes_inside (said : StartTag) (pieces : List (List Char)) {es : List Event}
    {cs : List Element} (h : BuildsAll es cs) :
    ∃ f' : Frame, Makes (pieces.map .text ++ es)
        { name := said.name, attributes := said.attributes } f' ∧
      f'.close =
        .mk said.name said.attributes (String.ofList pieces.flatten) cs "" := by
  refine ⟨_, (makes_pieces pieces _).trans (h _), ?_⟩
  simp [Frame.close, Frame.addText]

end Element

/-! ## Bindings among events -/

/-- The binding that an event makes. -/
def Event.binding? : Event → Option Binding
  | .bind b => some b
  | _ => none

/-- The bindings among events. -/
def bindingsIn (es : List Event) : List Binding := es.filterMap Event.binding?

@[simp] theorem bindingsIn_append (es es' : List Event) :
    bindingsIn (es ++ es') = bindingsIn es ++ bindingsIn es' := List.filterMap_append

@[simp] theorem bindingsIn_text (pieces : List (List Char)) :
    bindingsIn (pieces.map .text) = [] := by
  simp [bindingsIn, List.filterMap_map, Function.comp_def, Event.binding?]

@[simp] theorem bindingsIn_bind (bs : List Binding) : bindingsIn (bs.map .bind) = bs := by
  simp [bindingsIn, List.filterMap_map, Function.comp_def, Event.binding?]

theorem bindingsIn_eventsOf (said : StartTag) (inside : List Event) :
    bindingsIn (Element.eventsOf said inside) = said.bound ++ bindingsIn inside := by
  have hcons : ∀ n as es, bindingsIn (.start n as :: es) = bindingsIn es := fun _ _ _ => rfl
  have hstop : bindingsIn [.stop] = [] := rfl
  rw [Element.eventsOf, bindingsIn_append, bindingsIn_bind, hcons, bindingsIn_append, hstop,
    List.append_nil]

/-! ## Tags -/

/-- Reading goes on as long as an element is open. -/
def readOn (s : Setting) (available : Entities) (st : ContentState) (rest : List Glyph) :
    Except EventFault (ContentState × List Glyph) :=
  if st.opened.isEmpty then .ok (st, rest) else readContent s available 0 st rest

namespace ContentState

/-- The state inside an element that has just started. -/
def enter (st : ContentState) (tag : String) (said : StartTag) : ContentState where
  events := (st.pushAll (said.bound.map .bind ++ [.start said.name said.attributes])).events
  opened := ⟨tag, said.scope⟩ :: st.opened

/-- The state after the end of the innermost element. -/
def leave (st : ContentState) : ContentState where
  events := .stop :: st.events
  opened := st.opened.tail

/-- From the start of an element to its end. -/
theorem leave_pushAll_enter (st : ContentState) (tag : String) (said : StartTag)
    (inside : List Event) :
    ((st.enter tag said).pushAll inside).leave = st.pushAll (Element.eventsOf said inside) := by
  simp [enter, leave, pushAll, Element.eventsOf]

theorem start_of_read {d : Doctype} {st : ContentState} {here : List Glyph} {tag : String}
    {raws : List RawAttribute} {said : StartTag}
    (h : StartTag.read d st.scope here tag raws = .ok said) (isEmpty : Bool) :
    st.start d here tag raws isEmpty =
      .ok (if isEmpty then st.pushAll (Element.eventsOf said []) else st.enter tag said) := by
  rw [start, h]
  cases isEmpty <;> simp [enter, pushAll, Element.eventsOf]

theorem start_of_not_read {d : Doctype} {st : ContentState} {here : List Glyph} {tag : String}
    {raws : List RawAttribute} {fault : TagFault}
    (h : StartTag.read d st.scope here tag raws = .error fault) (isEmpty : Bool) :
    ∃ f, st.start d here tag raws isEmpty = .error f := by
  rw [start, h]
  exact ⟨_, rfl⟩

end ContentState

/-- A written tag opens no other kind of markup. -/
theorem scanContent_startTag {tag : String} (h : IsQToken tag.toList) (as : List WrittenAttribute)
    (isEmpty : Bool) (rest : List Glyph) :
    scanContent (.char '<' :: (startTagGlyphs tag as isEmpty ++ rest)) =
      placed (.char '<' :: (startTagGlyphs tag as isEmpty ++ rest))
        (scanStartTag (startTagGlyphs tag as isEmpty ++ rest)) := by
  obtain ⟨c, cs, htag, hc⟩ := h.exists_cons
  have hcons : startTagGlyphs tag as isEmpty ++ rest =
      .char c :: (glyphs cs ++ (attributesGlyphs as ++ tagEnd isEmpty) ++ rest) := by
    rw [startTagGlyphs, htag]
    rfl
  have hne : c ≠ '!' ∧ c ≠ '?' ∧ c ≠ '/' := by
    refine ⟨?_, ?_, ?_⟩ <;> rintro rfl <;> exact absurd hc (by decide)
  rw [hcons]
  unfold scanContent
  split <;> simp_all

section Tags

variable {s : Setting} (noEntities : s.doctype.entities = []) (noRules : s.doctype.rules = [])
  (available : Entities)

include noEntities noRules in
/-- **A written start tag is read as what it says.** -/
theorem readContent_startTag (st : ContentState) {tag : String} {as : List WrittenAttribute}
    (htag : IsQToken tag.toList) (isEmpty : Bool) {said : StartTag}
    (hsaid : readableTag st.scope tag as = some said) (rest : List Glyph) :
    readContent s available 0 st (.char '<' :: (startTagGlyphs tag as isEmpty ++ rest)) =
      readOn s available
        (if isEmpty then st.pushAll (Element.eventsOf said []) else st.enter tag said) rest := by
  rw [readableTag] at hsaid
  split at hsaid
  case isFalse => cases hsaid
  case isTrue hnames =>
    obtain ⟨raws, hraws, hscan⟩ := scanStartTag_glyphs hnames.1 hnames.2 isEmpty rest
    have hread := toOption_read noEntities noRules st.scope
      (.char '<' :: (startTagGlyphs tag as isEmpty ++ rest)) tag hraws
    rw [hsaid] at hread
    refine readContent_start ?_ ?_ (ContentState.start_of_read (eq_ok_of_toOption hread) isEmpty)
    · obtain ⟨c, cs, heq, -⟩ := htag.exists_cons
      simp [startTagGlyphs, heq]
    · rw [scanContent_startTag htag, hscan]
      rfl

include noEntities noRules in
/-- **A written start tag that says nothing is refused.** -/
theorem readContent_startTag_of_none (st : ContentState) {tag : String} {as : List WrittenAttribute}
    (htag : IsQToken tag.toList) (has : ∀ a ∈ as, IsQToken a.1.toList) (isEmpty : Bool)
    (hnone : readableTag st.scope tag as = none) (rest : List Glyph) :
    ∃ f, readContent s available 0 st (.char '<' :: (startTagGlyphs tag as isEmpty ++ rest)) =
      .error f := by
  have hscanned := scanContent_startTag htag as isEmpty rest
  rw [readableTag] at hnone
  split at hnone
  case isFalse hnames =>
    obtain ⟨flaw, hflaw⟩ := scanStartTag_of_not_isQName htag has hnames isEmpty rest
    rw [hflaw] at hscanned
    exact readContent_of_flawed hscanned
  case isTrue hnames =>
    obtain ⟨raws, hraws, hscan⟩ := scanStartTag_glyphs hnames.1 hnames.2 isEmpty rest
    have hread := toOption_read noEntities noRules st.scope
      (.char '<' :: (startTagGlyphs tag as isEmpty ++ rest)) tag hraws
    rw [hnone] at hread
    rw [hscan] at hscanned
    cases hresult : StartTag.read s.doctype st.scope
        (.char '<' :: (startTagGlyphs tag as isEmpty ++ rest)) tag raws with
    | ok said => rw [hresult] at hread; cases hread
    | error fault =>
      obtain ⟨f, hf⟩ := ContentState.start_of_not_read hresult isEmpty
      exact readContent_of_refused hscanned hf

/-- **A written end tag ends its element.** -/
theorem readContent_endTag {st : ContentState} {tag : String} {scope : Scope}
    {outer : List OpenElement} (h : IsQName tag.toList)
    (hopened : st.opened = ⟨tag, scope⟩ :: outer)
    (rest : List Glyph) :
    readContent s available 0 st
        (.char '<' :: .char '/' :: (glyphs tag.toList ++ .char '>' :: rest)) =
      readOn s available st.leave rest := by
  obtain ⟨here, hscan⟩ := scanEndTag_glyphs h rest
  have hscan' : scanContent (.char '<' :: .char '/' :: (glyphs tag.toList ++ .char '>' :: rest)) =
      .ok (.stop tag here, rest) := by
    rw [scanContent, hscan]
    rfl
  refine readContent_stop (List.cons_ne_nil _ _) hscan' ?_
  simp [ContentState.stop, ContentState.leave, hopened]

/-! ## Elements -/

/-- **What reading an element gives**: the events of the element and its bindings, or a fault. -/
def ReadsAs (s : Setting) (available : Entities) (st : ContentState) (m : Markup)
    (rest : List Glyph) : Prop :=
  match m.element? st.scope with
  | some e =>
    ∃ said inside f, Element.Makes inside { name := said.name, attributes := said.attributes } f ∧
      f.close = e ∧ bindingsIn (Element.eventsOf said inside) = m.bindings ∧
      readContent s available 0 st (m.glyphs ++ rest) =
        readOn s available (st.pushAll (Element.eventsOf said inside)) rest
  | none => ∃ f, readContent s available 0 st (m.glyphs ++ rest) = .error f

/-- **What reading neighbours gives** inside an element, up to the next tag. -/
def ReadAllAs (s : Setting) (available : Entities) (st : ContentState) (cs : List Markup)
    (rest : List Glyph) : Prop :=
  match Markup.elements? st.scope cs with
  | some cs' => ∃ es, Element.BuildsAll es cs' ∧ bindingsIn es = Markup.bindingsAll cs ∧
      readContent s available 0 st (Markup.glyphsAll cs ++ .char '<' :: rest) =
        readContent s available 0 (st.pushAll es) (.char '<' :: rest)
  | none => ∃ f, readContent s available 0 st (Markup.glyphsAll cs ++ .char '<' :: rest) = .error f

/-- **What reading a text and the neighbours after it gives** inside an element, up to the next
tag. -/
def ReadsInside (s : Setting) (available : Entities) (st : ContentState) (text : List Char)
    (cs : List Markup) (rest : List Glyph) : Prop :=
  match Markup.elements? st.scope cs with
  | some cs' => ∃ (pieces : List (List Char)) (es : List Event), pieces.flatten = lineEnds text ∧
      Element.BuildsAll es cs' ∧ bindingsIn es = Markup.bindingsAll cs ∧
      readContent s available 0 st (textGlyphs text ++ (Markup.glyphsAll cs ++ .char '<' :: rest)) =
        readContent s available 0 (st.pushAll (pieces.map .text ++ es)) (.char '<' :: rest)
  | none => ∃ f, readContent s available 0 st
      (textGlyphs text ++ (Markup.glyphsAll cs ++ .char '<' :: rest)) = .error f

/-- Neighbours and the tag after them begin with a bracket. -/
theorem exists_glyphsAll_eq (cs : List Markup) (rest : List Glyph) :
    ∃ more, Markup.glyphsAll cs ++ .char '<' :: rest = .char '<' :: more := by
  cases cs with
  | nil => exact ⟨rest, rfl⟩
  | cons c cs =>
    obtain ⟨tag, as, t, ds, tl⟩ := c
    rw [Markup.glyphsAll, Markup.glyphs]
    split <;> exact ⟨_, rfl⟩

theorem readOn_of_opened {st : ContentState} (h : st.opened ≠ []) (rest : List Glyph) :
    readOn s available st rest = readContent s available 0 st rest :=
  if_neg (by simpa using h)

/-- **A text does not change what is read after it.** -/
theorem readsInside_of_readAllAs {st : ContentState} {cs : List Markup} {rest : List Glyph}
    (text : List Char) (hall : ∀ es, ReadAllAs s available (st.pushAll es) cs rest) :
      ReadsInside s available st text cs rest := by
  obtain ⟨more, hmore⟩ := exists_glyphsAll_eq cs rest
  obtain ⟨pieces, hpieces, htext⟩ := readContent_textGlyphs s available text more st
  rw [← hmore] at htext
  have hneighbours := hall (pieces.map .text)
  have hscope : (st.pushAll (pieces.map .text)).scope = st.scope := rfl
  rw [ReadAllAs, hscope] at hneighbours
  rw [ReadsInside]
  cases hchildren : Markup.elements? st.scope cs with
  | none =>
    rw [hchildren] at hneighbours
    exact hneighbours.imp fun _ hfault => htext.trans hfault
  | some cs' =>
    rw [hchildren] at hneighbours
    obtain ⟨es, hbuilds, hbindings, hread⟩ := hneighbours
    exact ⟨pieces, es, hpieces, hbuilds, hbindings,
      by rw [htext, hread, ContentState.pushAll_append]⟩

include noEntities noRules in
/-- An element that holds nothing is read. -/
theorem readsAs_of_empty (st : ContentState) {tag : String} {as : List WrittenAttribute}
    (tl : String)
    (htag : IsQToken tag.toList) (has : ∀ a ∈ as, IsQToken a.1.toList) (rest : List Glyph) :
    ReadsAs s available st (.mk tag as "" [] tl) rest := by
  have hglyphs : (Markup.mk tag as "" [] tl).glyphs = .char '<' :: startTagGlyphs tag as true := by
    simp [Markup.glyphs]
  rw [ReadsAs, hglyphs, Markup.element?]
  cases hsaid : readableTag st.scope tag as with
  | none =>
    exact readContent_startTag_of_none noEntities noRules available st htag has true hsaid rest
  | some said =>
    refine ⟨said, [], _, Element.Makes.refl _, rfl, ?_,
      readContent_startTag noEntities noRules available st htag true hsaid rest⟩
    rw [bindingsIn_eventsOf, bound_of_readableTag hsaid]
    rfl

include noEntities noRules in
/-- An element that holds something is read, if what it holds is. -/
theorem readsAs_of_full (st : ContentState) {tag : String} {as : List WrittenAttribute} {t : String}
    {cs : List Markup} (tl : String) (htag : IsQToken tag.toList)
    (has : ∀ a ∈ as, IsQToken a.1.toList)
    (hfull : ¬ (t = "" ∧ cs = []))
    (hinside : ∀ (st : ContentState) (rest : List Glyph), st.opened ≠ [] →
      ReadAllAs s available st cs rest)
    (rest : List Glyph) : ReadsAs s available st (.mk tag as t cs tl) rest := by
  have hglyphs : (Markup.mk tag as t cs tl).glyphs ++ rest =
    .char '<' :: (startTagGlyphs tag as false ++
      (textGlyphs t.toList ++ (Markup.glyphsAll cs ++
        .char '<' :: .char '/' :: (glyphs tag.toList ++ .char '>' :: rest)))) := by
    rw [Markup.glyphs, if_neg (by simpa using hfull)]
    simp
  rw [ReadsAs, hglyphs, Markup.element?]
  cases hsaid : readableTag st.scope tag as with
  | none =>
    exact readContent_startTag_of_none noEntities noRules available st htag has false hsaid _
  | some said =>
    have hstart := readContent_startTag noEntities noRules available st htag false hsaid
    have hopened : (st.enter tag said).opened ≠ [] := List.cons_ne_nil _ _
    have hread := readsInside_of_readAllAs available t.toList fun es =>
      hinside ((st.enter tag said).pushAll es)
        (.char '/' :: (glyphs tag.toList ++ .char '>' :: rest)) hopened
    have hscope : (st.enter tag said).scope = said.scope := rfl
    rw [ReadsInside, hscope] at hread
    rw [hstart, if_neg Bool.false_ne_true, readOn_of_opened available hopened, Option.bind_some]
    cases hchildren : Markup.elements? said.scope cs with
    | none =>
      rw [hchildren] at hread
      exact hread
    | some cs' =>
      rw [hchildren] at hread
      obtain ⟨pieces, es, hpieces, hbuilds, hbindings, hcontent⟩ := hread
      obtain ⟨f, hmakes, hclose⟩ := Element.makes_inside said pieces hbuilds
      refine ⟨said, pieces.map .text ++ es, f, hmakes, ?_, ?_, ?_⟩
      · rw [hclose, hpieces]
        rfl
      · rw [bindingsIn_eventsOf, bound_of_readableTag hsaid, bindingsIn_append, bindingsIn_text,
          List.nil_append, hbindings]
        rfl
      · rw [hcontent, readContent_endTag available (names_of_readableTag hsaid).1 rfl,
          ContentState.leave_pushAll_enter]

end Tags

mutual

/-- **A written element is read as the element it says**, or refused. -/
theorem readsAs {s : Setting} (noEntities : s.doctype.entities = [])
    (noRules : s.doctype.rules = []) (available : Entities) : (m : Markup) → m.Spelled →
    ∀ (st : ContentState) (rest : List Glyph), ReadsAs s available st m rest
  | .mk tag as t cs tl, ⟨htag, has, _, _, hcs⟩, st, rest => by
    have has' : ∀ a ∈ as, IsQToken a.1.toList := fun a ha => (has a ha).1
    by_cases hempty : t = "" ∧ cs = []
    · obtain ⟨rfl, rfl⟩ := hempty
      exact readsAs_of_empty noEntities noRules available st tl htag has' rest
    · exact readsAs_of_full noEntities noRules available st tl htag has' hempty
        (fun st rest hopened => readAllAs noEntities noRules available cs hcs st rest hopened) rest

/-- **Written neighbours are read as the elements they say**, or refused. -/
theorem readAllAs {s : Setting} (noEntities : s.doctype.entities = [])
    (noRules : s.doctype.rules = []) (available : Entities) : (cs : List Markup) →
    Markup.SpelledAll cs → ∀ (st : ContentState) (rest : List Glyph), st.opened ≠ [] →
      ReadAllAs s available st cs rest
  | [], _, st, rest, _ => ⟨[], Element.buildsAll_nil, rfl, rfl⟩
  | c :: cs, ⟨hc, hcs⟩, st, rest, hopened => by
    have hfirst := readsAs noEntities noRules available c hc st
      (textGlyphs c.tail.toList ++ (Markup.glyphsAll cs ++ .char '<' :: rest))
    have hglyphs : Markup.glyphsAll (c :: cs) ++ .char '<' :: rest =
        c.glyphs ++ (textGlyphs c.tail.toList ++ (Markup.glyphsAll cs ++ .char '<' :: rest)) := by
      simp [Markup.glyphsAll]
    rw [ReadAllAs, hglyphs, Markup.elements?]
    rw [ReadsAs] at hfirst
    cases he : c.element? st.scope with
    | none =>
      rw [he] at hfirst
      exact hfirst
    | some e =>
      rw [he] at hfirst
      obtain ⟨said, inside, f, hmakes, rfl, hbindings, hread⟩ := hfirst
      have hopened' : (st.pushAll (Element.eventsOf said inside)).opened ≠ [] := hopened
      have hrest := readsInside_of_readAllAs available c.tail.toList fun es =>
        readAllAs noEntities noRules available cs hcs
          ((st.pushAll (Element.eventsOf said inside)).pushAll es) rest hopened
      have hscope : (st.pushAll (Element.eventsOf said inside)).scope = st.scope := rfl
      rw [ReadsInside, hscope] at hrest
      rw [hread, readOn_of_opened available hopened', Option.bind_some]
      cases hes : Markup.elements? st.scope cs with
      | none =>
        rw [hes] at hrest
        exact hrest
      | some cs' =>
        rw [hes] at hrest
        obtain ⟨pieces, es, hpieces, hbuilds, hbindings', hread'⟩ := hrest
        refine ⟨Element.eventsOf said inside ++ (pieces.map .text ++ es), ?_, ?_, ?_⟩
        · have htail : normalText c.tail = String.ofList pieces.flatten := by
            rw [hpieces, normalText]
          rw [htail]
          exact Element.BuildsAll.cons (Element.builds_eventsOf said hmakes) pieces hbuilds
        · rw [bindingsIn_append, bindingsIn_append, bindingsIn_text, List.nil_append, hbindings,
            hbindings', Markup.bindingsAll]
        · rw [hread', ← ContentState.pushAll_append]

end

end StationNaming.Xml
