import StationNaming.Xml.Namespace
/-!
# Events of a document

Reading a document yields a list of events: a binding of a namespace prefix, the start of an
element, a piece of text, and the end of an element.

**What is exact.** The events before a fault are kept. Comments, instructions and the document type
yield none, so text around them is one text. An element that starts inside the replacement text of
an entity must end there too.
-/

namespace StationNaming.Xml

/-- **An event of a document.** -/
inductive Event where
  | bind (b : Binding)
  | start (name : Name) (attributes : List (Name × String))
  | text (cs : List Char)
  | stop
  deriving DecidableEq, Repr

/-! ## Content -/

/-- An element that has started and not ended: its name as written, and the bindings inside it. -/
structure OpenElement where
  name : String
  scope : Scope
  deriving Repr

/-- What has been read of the content: the events, last one first, and the elements that are open,
innermost first. -/
structure ContentState where
  events : List Event := []
  opened : List OpenElement := []
  deriving Repr

/-- A fault and the events before it, last one first. -/
structure EventFault where
  fault : Fault
  events : List Event
  deriving Repr

namespace ContentState

/-- The bindings in force. -/
def scope (st : ContentState) : Scope :=
  match st.opened with
  | [] => Scope.initial
  | e :: _ => e.scope

/-- One more event. -/
def push (st : ContentState) (e : Event) : ContentState := { st with events := e :: st.events }

/-- A fault after these events. -/
def fail (st : ContentState) (cause : Cause) (here : List Glyph) : EventFault :=
  ⟨⟨cause, here⟩, st.events⟩

/-- **A start tag** that begins at `here`. -/
def start (d : Doctype) (st : ContentState) (here : List Glyph) (name : String)
    (attributes : List RawAttribute) (isEmpty : Bool) : Except EventFault ContentState :=
  let bind (events : List Event) (bs : List Binding) := (bs.map Event.bind).reverse ++ events
  match StartTag.read d st.scope here name attributes with
  | .error f => .error ⟨f.fault, bind st.events f.bound⟩
  | .ok tag =>
    let events := Event.start tag.name tag.attributes :: bind st.events tag.bound
    .ok (if isEmpty then { st with events := .stop :: events }
      else { events := events, opened := ⟨name, tag.scope⟩ :: st.opened })

/-- **An end tag** whose name stands at `nameAt`; elements below `floor` cannot be ended here. -/
def stop (st : ContentState) (floor : Nat) (here nameAt : List Glyph) (name : String) :
    Except EventFault ContentState :=
  match st.opened with
  | [] => .error (st.fail .asynchronousEntity here)
  | e :: outer =>
    if st.opened.length = floor then .error (st.fail .asynchronousEntity here)
    else if e.name = name then .ok { events := .stop :: st.events, opened := outer }
    else .error (st.fail .mismatchedTag nameAt)

end ContentState

/-- What a document has besides its glyphs: the document type, and whether it ends in half a
16-bit unit. -/
structure Setting where
  doctype : Doctype := {}
  isTorn : Bool := false
  deriving Repr

/-- The fault of a document that ends too early. -/
def Setting.early (s : Setting) : Cause := if s.isTorn then .unclosedToken else .noElement

/-- What an entity reference stands for in content. -/
inductive Resolved where
  | character (c : Char)
  | text (cs : List Char) (available : Entities)
  | refused (cause : Cause)

/-- **Resolving a reference to an entity** in content. -/
def resolveEntity (d : Doctype) (available : Entities) (name : String) : Resolved :=
  match predefined? name with
  | some c => .character c
  | none =>
    match takeEntity? name available with
    | some (.text text, available') => .text text available'
    | some (.external, _) => .refused (.unresolvedEntity name)
    | some (.unparsed, _) => .refused .binaryEntity
    | none =>
      .refused (if d.declares name then .recursiveEntity
        else if d.isComplete then .undefinedEntity
        else .unresolvedEntity name)

theorem size_of_resolveEntity {d : Doctype} {available rest : Entities} {name : String}
    {cs : List Char} (h : resolveEntity d available name = .text cs rest) :
    cs.length + rest.size < available.size := by
  unfold resolveEntity at h
  split at h
  · simp at h
  · split at h
    · next hs =>
      simp only [Resolved.text.injEq] at h
      rw [← h.1, ← h.2]
      exact size_of_takeEntity?_text hs
    all_goals simp at h

/-- **Reading content** until the root element has ended, or, inside an entity, to the end of its
text. `floor` is the number of elements that were open where the text began. -/
def readContent (s : Setting) (available : Entities) (floor : Nat) (st : ContentState)
    (cs : List Glyph) : Except EventFault (ContentState × List Glyph) :=
  match cs with
  | [] =>
    if floor = 0 then .error (st.fail s.early [])
    else if st.opened.length = floor then .ok (st, [])
    else .error (st.fail .asynchronousEntity [])
  | g :: gs =>
    -- A carriage return at the very end may be half of a line end, and no text is made of it.
    if floor = 0 && (g :: gs) == [.char '\r'] then .error (st.fail .noElement (g :: gs))
    else
      match _h : scanContent (g :: gs) with
      | .error fault => .error ⟨fault, st.events⟩
      | .ok (.text text, rest) => readContent s available floor (st.push (.text text)) rest
      | .ok (.ignored, rest) => readContent s available floor st rest
      | .ok (.declaration, _) => .error (st.fail .misplacedDeclaration (g :: gs))
      | .ok (.reference (.character code), rest) =>
        match referenced? code with
        | none => .error (st.fail .badCharacterReference (g :: gs))
        | some c => readContent s available floor (st.push (.text [c])) rest
      | .ok (.reference (.entity name), rest) =>
        match _hr : resolveEntity s.doctype available name with
        | .refused cause => .error (st.fail cause (g :: gs))
        | .character c => readContent s available floor (st.push (.text [c])) rest
        | .text text available' =>
          match readContent s available' st.opened.length st (entityGlyphs text) with
          | .error f => .error ⟨⟨f.fault.cause, g :: gs⟩, f.events⟩
          | .ok (st', _) => readContent s available floor st' rest
      | .ok (.start name attributes isEmpty, rest) =>
        match st.start s.doctype (g :: gs) name attributes isEmpty with
        | .error f => .error f
        | .ok st' =>
          if st'.opened.isEmpty then .ok (st', rest) else readContent s available floor st' rest
      | .ok (.stop name nameAt, rest) =>
        match st.stop floor (g :: gs) nameAt name with
        | .error f => .error f
        | .ok st' =>
          if st'.opened.isEmpty then .ok (st', rest) else readContent s available floor st' rest
  termination_by cs.length + available.size
  decreasing_by
    · have := length_of_scanContent _h; omega
    · have := length_of_scanContent _h; omega
    · have := length_of_scanContent _h; omega
    · have := length_of_scanContent _h; omega
    · have := size_of_resolveEntity _hr; simp only [entityGlyphs, List.length_map]; omega
    · have := length_of_scanContent _h; omega
    · have := length_of_scanContent _h; omega
    · have := length_of_scanContent _h; omega

end StationNaming.Xml
