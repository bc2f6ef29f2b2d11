import StationNaming.Proofs.Xml.Relabel
import StationNaming.Xml.Writer
/-!
# What a draft holds

A writer that has not the room for all the elements that are nested in each other stops in front of
the first one that is nested too deep. What it has written by then is a beginning of the document.

**What is exact.** `begins_draft` and `isWhole_draft_iff` cover every tree, every registry and every
room: the document is written whole exactly if it is not deeper than the room, and otherwise
something of it is missing.
-/

namespace StationNaming.Xml

/-! ## Beginnings -/

namespace Draft

/-- **A draft of a text**: with what is missing after it, which is nothing exactly if it is
whole. -/
def Begins (d : Draft) (whole : String) : Prop :=
  ∃ rest, whole = d.text ++ rest ∧ (d.isWhole = true ↔ rest = "")

theorem begins_whole (text : String) : ({ text := text } : Draft).Begins text :=
  ⟨"", by rw [String.append_empty], by simp⟩

/-- Nothing has been written yet of a text. -/
theorem begins_nothing {whole : String} (h : whole ≠ "") :
    ({ text := "", isWhole := false } : Draft).Begins whole :=
  ⟨whole, by rw [String.empty_append], by simp [h]⟩

theorem Begins.text_eq {d : Draft} {whole : String} (h : d.Begins whole)
    (hwhole : d.isWhole = true) :
    d.text = whole := by
  obtain ⟨rest, rfl, hrest⟩ := h
  rw [hrest.mp hwhole, String.append_empty]

/-- **What is written one after the other** begins the two texts together. -/
theorem Begins.andThen {d more : Draft} {whole whole' : String} (h : d.Begins whole)
    (h' : more.Begins whole') : (d.andThen more).Begins (whole ++ whole') := by
  obtain ⟨rest, rfl, hrest⟩ := h
  rw [Draft.andThen]
  by_cases hd : d.isWhole = true
  · obtain ⟨rest', rfl, hrest'⟩ := h'
    rw [if_pos hd, hrest.mp hd, String.append_empty]
    exact ⟨rest', by rw [String.append_assoc], hrest'⟩
  · rw [if_neg hd]
    refine ⟨rest ++ whole', by rw [String.append_assoc], ?_⟩
    have hmissing : rest ≠ "" := fun hnone => hd (hrest.mpr hnone)
    simp [hd, hmissing]

@[simp] theorem isWhole_andThen (d more : Draft) :
    (d.andThen more).isWhole = (d.isWhole && more.isWhole) := by
  rw [Draft.andThen]
  cases hd : d.isWhole <;> simp [hd]

end Draft

/-! ## Elements -/

section Elements

variable (writeName : Name → String)

/-- Something is written of every element. -/
theorem writeElement_ne_empty (declarations : String) (e : Element) :
    writeElement writeName declarations e ≠ "" := by
  cases e
  simp [writeElement, writtenStart]

mutual

/-- **The draft of an element** begins what would be written of it. -/
theorem begins_draftElement (declarations : String) (room : Nat) : (e : Element) →
    (draftElement writeName declarations room e).Begins (writeElement writeName declarations e)
  | .mk n as t cs tl => by
    cases room with
    | zero =>
      rw [draftElement]
      exact Draft.begins_nothing (writeElement_ne_empty writeName declarations _)
    | succ room =>
      rw [writeElement, String.append_assoc, draftElement]
      refine (Draft.begins_whole _).andThen (Draft.Begins.andThen ?_ (Draft.begins_whole _))
      split
      · exact Draft.begins_whole _
      · have hbody : ">" ++ escapeText t ++ writeElements writeName cs ++ "</" ++
          writeName n ++ ">" =
            (">" ++ escapeText t) ++
              (writeElements writeName cs ++ ("</" ++ writeName n ++ ">")) := by
          simp only [String.append_assoc]
        rw [hbody]
        exact (Draft.begins_whole _).andThen
          ((begins_draftElements room cs).andThen (Draft.begins_whole _))

theorem begins_draftElements (room : Nat) : (cs : List Element) →
    (draftElements writeName room cs).Begins (writeElements writeName cs)
  | [] => by
    rw [draftElements, writeElements]
    exact Draft.begins_whole _
  | c :: cs => by
    rw [draftElements, writeElements]
    exact (begins_draftElement "" room c).andThen (begins_draftElements room cs)

end

mutual

/-- **An element is written whole** exactly if it is not deeper than the room. -/
theorem isWhole_draftElement_iff (declarations : String) (room : Nat) : (e : Element) →
    ((draftElement writeName declarations room e).isWhole = true ↔ e.depth ≤ room)
  | .mk n as t cs tl => by
    cases room with
    | zero => simp [draftElement, Element.depth]
    | succ room =>
      have hinside := isWhole_draftElements_iff room cs
      rw [draftElement, Element.depth, Nat.add_le_add_iff_right, ← hinside]
      split
      · next hempty =>
        -- An element without children is written as one tag, and there is nothing inside.
        obtain rfl : cs = [] := List.isEmpty_iff.mp (Bool.and_eq_true_iff.mp hempty).2
        simp [draftElements]
      · simp

theorem isWhole_draftElements_iff (room : Nat) : (cs : List Element) →
    ((draftElements writeName room cs).isWhole = true ↔ Element.depthAll cs ≤ room)
  | [] => by simp [draftElements, Element.depthAll]
  | c :: cs => by
    rw [draftElements, Draft.isWhole_andThen, Bool.and_eq_true,
      isWhole_draftElement_iff "" room c, isWhole_draftElements_iff room cs, Element.depthAll,
      Nat.max_le]

end

end Elements

/-! ## Documents -/

section Documents

variable {room : Nat} {root : Element}

/-- **The draft of a document** begins what would be written of it. -/
theorem begins_draft (registry : PrefixRegistry) (room : Nat) (root : Element) :
    (draft registry room root).Begins (write registry root) :=
  (Draft.begins_whole _).andThen (begins_draftElement _ _ room root)

/-- **A document is written whole** exactly if it is not deeper than the room. -/
theorem isWhole_draft_iff (registry : PrefixRegistry) (room : Nat) (root : Element) :
    (draft registry room root).isWhole = true ↔ root.depth ≤ room := by
  rw [draft, Draft.isWhole_andThen, Bool.true_and]
  exact isWhole_draftElement_iff _ _ room root

theorem draft_of_depth_le (registry : PrefixRegistry) (h : root.depth ≤ room) :
    draft registry room root = { text := write registry root } := by
  have hwhole := (isWhole_draft_iff registry room root).mpr h
  rw [Draft.mk.injEq]
  exact ⟨(begins_draft registry room root).text_eq hwhole, hwhole⟩

/-- **Of a document that is too deep**, something is missing at the end. -/
theorem exists_draft_of_lt_depth (registry : PrefixRegistry) (h : room < root.depth) :
    ∃ begun rest, rest ≠ "" ∧ write registry root = begun ++ rest ∧
      draft registry room root = { text := begun, isWhole := false } := by
  have hpart : (draft registry room root).isWhole = false := by
    rw [Bool.eq_false_iff, ne_eq, isWhole_draft_iff]
    exact Nat.not_le_of_lt h
  obtain ⟨rest, hwrite, hrest⟩ := begins_draft registry room root
  refine ⟨_, rest, fun hnone => ?_, hwrite, by rw [← hpart]⟩
  rw [hrest.mpr hnone] at hpart
  cases hpart

end Documents

end StationNaming.Xml
