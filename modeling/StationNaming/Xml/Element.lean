import StationNaming.Keyed
import StationNaming.Xml.Event
/-!
# Elements

A document as a tree. An element has a name, attributes in their order, the text before its first
child, its children, and the text between its end and what follows, its tail.

**What is exact.** An absent text and an empty one are the same. The tree of a list of events exists
if every element that starts also ends and there is one root. `walk` lists an element and
everything below it in document order, each with the path that leads to it. The depth of an element
counts the elements that are nested in each other, itself included.
-/

namespace StationNaming.Xml

/-- An attribute: a name and a value. -/
abbrev Attribute := Name × String

/-- **An element** with everything inside it and its tail. -/
inductive Element where
  | mk (name : Name) (attributes : List Attribute) (text : String) (children : List Element)
    (tail : String)
  deriving Repr

namespace Element

/-! ## Parts -/

/-- The name. -/
def name : Element → Name
  | mk n _ _ _ _ => n

/-- The attributes, in order. -/
def attributes : Element → List Attribute
  | mk _ as _ _ _ => as

/-- The text before the first child. -/
def text : Element → String
  | mk _ _ t _ _ => t

/-- The children, in order. -/
def children : Element → List Element
  | mk _ _ _ cs _ => cs

/-- The text after the element. -/
def tail : Element → String
  | mk _ _ _ _ t => t

/-- The name without its namespace. -/
def localName (e : Element) : String := e.name.localName

/-- The value of an attribute outside every namespace. -/
def attribute? (e : Element) (key : String) : Option String := e.attributes.lookup ⟨"", key⟩

/-- **Setting an attribute** outside every namespace. -/
def setAttribute (key value : String) : Element → Element
  | mk n as t cs tl => mk n (Keyed.set ⟨"", key⟩ value as) t cs tl

@[simp] theorem name_setAttribute (key value : String) (e : Element) :
    (e.setAttribute key value).name = e.name := by
  cases e
  rfl

@[simp] theorem text_setAttribute (key value : String) (e : Element) :
    (e.setAttribute key value).text = e.text := by
  cases e
  rfl

@[simp] theorem children_setAttribute (key value : String) (e : Element) :
    (e.setAttribute key value).children = e.children := by
  cases e
  rfl

@[simp] theorem tail_setAttribute (key value : String) (e : Element) :
    (e.setAttribute key value).tail = e.tail := by
  cases e
  rfl

/-- **What an attribute is after one was set**: the new value, or what it was. -/
theorem attribute?_setAttribute (key other value : String) (e : Element) :
    (e.setAttribute key value).attribute? other =
      if other = key then some value else e.attribute? other := by
  cases e
  simp [setAttribute, attribute?, attributes, Keyed.lookup_set]

/-- **Setting the text.** -/
def setText (value : String) : Element → Element
  | mk n as _ cs tl => mk n as value cs tl

@[simp] theorem text_setText (value : String) (e : Element) : (e.setText value).text = value := by
  cases e
  rfl

@[simp] theorem attributes_setText (value : String) (e : Element) :
    (e.setText value).attributes = e.attributes := by
  cases e
  rfl

/-- More tail. -/
def addTail (more : String) : Element → Element
  | mk n as t cs tl => mk n as t cs (tl ++ more)

/-! ## From events -/

/-- An element that is being read, its children last one first. -/
structure Frame where
  name : Name
  attributes : List Attribute
  text : String := ""
  children : List Element := []

/-- More text in an open element: before its first child, or after its last one so far. -/
def Frame.addText (f : Frame) (more : String) : Frame :=
  match f.children with
  | [] => { f with text := f.text ++ more }
  | c :: cs => { f with children := c.addTail more :: cs }

/-- The element when it ends. -/
def Frame.close (f : Frame) : Element :=
  Element.mk f.name f.attributes f.text f.children.reverse ""

/-- The tree of the events that follow, inside the given open elements. -/
def ofEventsIn (frames : List Frame) (root : Option Element) : List Event → Option Element
  | [] => if frames.isEmpty then root else none
  | .bind _ :: es => ofEventsIn frames root es
  | .start name attributes :: es =>
    ofEventsIn ({ name := name, attributes := attributes } :: frames) root es
  | .text cs :: es =>
    match frames with
    | [] => ofEventsIn [] root es
    | f :: outer => ofEventsIn (f.addText (String.ofList cs) :: outer) root es
  | .stop :: es =>
    match frames with
    | [] => none
    | [f] => ofEventsIn [] (some f.close) es
    | f :: g :: outer => ofEventsIn ({ g with children := f.close :: g.children } :: outer) root es

/-- **The tree of a list of events.** -/
def ofEvents? (events : List Event) : Option Element := ofEventsIn [] none events

/-! ## Walking and changing -/

/-- The way from an element to one below it: the index of a child, of a child of that, and so
on. -/
abbrev Path := List Nat

mutual

/-- **An element and everything below it** in document order, with paths. -/
def walk : Element → List (Path × Element)
  | mk n as t cs tl => ([], mk n as t cs tl) :: walkAll 0 cs

/-- The elements below neighbours, the first of which has the given index. -/
def walkAll (index : Nat) : List Element → List (Path × Element)
  | [] => []
  | c :: cs => (walk c).map (fun found => (index :: found.1, found.2)) ++ walkAll (index + 1) cs

end

mutual

/-- **How deep elements are nested** in an element, itself included. -/
def depth : Element → Nat
  | mk _ _ _ cs _ => depthAll cs + 1

/-- How deep elements are nested in neighbours. -/
def depthAll : List Element → Nat
  | [] => 0
  | c :: cs => max (depth c) (depthAll cs)

end

/-- Changing the element at a path; a path that leads nowhere changes nothing. -/
def modifyAt (path : Path) (f : Element → Element) (e : Element) : Element :=
  match path, e with
  | [], e => f e
  | i :: rest, mk n as t cs tl => mk n as t (cs.modify i (modifyAt rest f)) tl

end Element

end StationNaming.Xml
