import StationNaming.Proofs.Command.Instructions
/-!
# What a line asks for

A line of input of the interactive command is one of a few words behind a slash, a search, or a
renaming. Which one it is, is told here from how the line is spelled alone.

**What is exact.** `Order.read_eq_iff`: every line is spelled as exactly one order, and that one is
read. Blanks around the line do not count, nor do those around the text of a search and the two
names of a renaming.
-/

namespace StationNaming.Command

open Unicode (trimString)

/-! ## Texts with an equals sign -/

/-- **A text with an equals sign** is split into what stands before the first one and what stands
behind it. -/
theorem eq_instruction_of_splitValue {text old new : String}
    (h : CommandLine.splitValue text = (old, some new)) : text = instruction (old, new) := by
  rw [CommandLine.splitValue, List.span_eq_takeWhile_dropWhile] at h
  split at h
  · cases h
  · next name sign value hspan =>
    cases h
    obtain ⟨hname, hrest⟩ := Prod.mk.inj hspan
    have hsign : sign = '=' := by
      have hhead := List.head?_dropWhile_not (fun c : Char => c != '=') text.toList
      rw [hrest] at hhead
      simpa using hhead
    refine String.toList_inj.mp ?_
    rw [toList_instruction, String.toList_ofList, String.toList_ofList, ← hsign, ← hname, ← hrest,
      List.takeWhile_append_dropWhile]

/-- A text without an equals sign is not split. -/
theorem notMem_of_splitValue_none {text name : String}
    (h : CommandLine.splitValue text = (name, none)) :
    '=' ∉ text.toList := by
  rw [CommandLine.splitValue, List.span_eq_takeWhile_dropWhile] at h
  split at h
  · next hspan =>
    have hall := List.dropWhile_eq_nil_iff.mp (Prod.mk.inj hspan).2
    intro hmem
    exact absurd (hall '=' hmem) (by decide)
  · cases h

theorem splitValue_of_notMem {text : String} (h : '=' ∉ text.toList) :
    CommandLine.splitValue text = (text, none) := by
  have hall : text.toList.dropWhile (· != '=') = [] :=
    List.dropWhile_eq_nil_iff.mpr fun c hc => bne_iff_ne.mpr fun heq => h (heq ▸ hc)
  rw [CommandLine.splitValue, List.span_eq_takeWhile_dropWhile, hall]

/-- A text that starts with a word is the word and the rest. -/
theorem eq_append_ofList {word text : String} {rest : List Char}
    (h : word.toList ++ rest = text.toList) :
    text = word ++ String.ofList rest := by
  rw [← String.toList_inj, String.toList_append, String.toList_ofList, h]

namespace Order

/-! ## Spelling -/

/-- **Whether a text is an order other than a renaming**: a word behind a slash, nothing, or
whatever starts as a search does. -/
def IsWord (text : String) : Prop :=
  text ∈ ["/quit", "/commit", "/clear", "/show", ""] ∨ "/search".toList <+: text.toList

/-- **How orders are spelled**, without blanks around them. -/
inductive Spelled : String → Order → Prop
  | quit : Spelled "/quit" .quit
  | commit : Spelled "/commit" .commit
  | search (text : String) : Spelled ("/search" ++ text) (.search (trimString text))
  | clear : Spelled "/clear" .clear
  | show : Spelled "/show" .show
  | blank : Spelled "" .show
  /-- A renaming stands on both sides of the first equals sign. -/
  | propose {old new : String} (first : '=' ∉ old.toList) (other : ¬ IsWord (old ++ "=" ++ new)) :
      Spelled (old ++ "=" ++ new) (.propose (trimString old) (trimString new))
  /-- Whatever else is typed is answered with help. -/
  | help {text : String} (unequal : '=' ∉ text.toList) (other : ¬ IsWord text) : Spelled text .help

/-! ## Reading -/

/-- A text that is no other order is a renaming, or it is answered with help. -/
theorem read_of_not_isWord {line old : String} {new : Option String}
    (h : ¬ IsWord (trimString line))
    (split : CommandLine.splitValue (trimString line) = (old, new)) :
    read line = new.elim .help fun new => .propose (trimString old) (trimString new) := by
  have hword : ∀ word ∈ ["/quit", "/commit", "/clear", "/show", ""], trimString line ≠ word :=
    fun word hmem heq => h (.inl (heq ▸ hmem))
  have hsearch : ¬ searchWord.isPrefixOf (trimString line).toList = true :=
    fun hprefix => h (.inr (List.isPrefixOf_iff_prefix.mp hprefix))
  simp only [List.forall_mem_cons] at hword
  obtain ⟨hquit, hcommit, hclear, hshow, hblank, -⟩ := hword
  simp only [read]
  rw [if_neg hquit, if_neg hcommit, if_neg hsearch, if_neg hclear,
    if_neg (not_or.mpr ⟨hshow, hblank⟩), split]
  cases new <;> rfl

/-- A text that starts as a search does is a search. -/
theorem read_of_search {line text : String} (h : trimString line = "/search" ++ text) :
    read line = .search (trimString text) := by
  have htext : (trimString line).toList = searchWord ++ text.toList := by
    rw [h, String.toList_append]; rfl
  have hword : ∀ word : String, ¬ searchWord <+: word.toList → trimString line ≠ word := by
    rintro word hnot rfl
    exact hnot ⟨text.toList, htext.symm⟩
  have hsearch : searchWord.isPrefixOf (trimString line).toList = true :=
    List.isPrefixOf_iff_prefix.mpr ⟨text.toList, htext.symm⟩
  simp only [read]
  rw [if_neg (hword "/quit" (by decide)), if_neg (hword "/commit" (by decide)),
    if_pos hsearch, htext, List.drop_left, String.ofList_toList]

theorem spelled_read (line : String) : Spelled (trimString line) (read line) := by
  unfold read
  generalize trimString line = text
  dsimp only
  split_ifs with hquit hcommit hsearch hclear hshow
  · exact hquit ▸ .quit
  · exact hcommit ▸ .commit
  · obtain ⟨rest, hrest⟩ := List.isPrefixOf_iff_prefix.mp hsearch
    have hdrop : text.toList.drop searchWord.length = rest := by rw [← hrest, List.drop_left]
    obtain rfl := eq_append_ofList hrest
    rw [hdrop]
    exact .search _
  · exact hclear ▸ .clear
  · rcases hshow with rfl | rfl
    · exact .show
    · exact .blank
  · -- None of the words fits, so the text is split or it is answered with help.
    have hother : ¬ IsWord text := by
      rintro (hword | hword)
      · simp only [List.mem_cons, List.not_mem_nil, or_false] at hword
        tauto
      · exact hsearch (List.isPrefixOf_iff_prefix.mpr hword)
    split
    · next old new hsplit =>
      have htext := eq_instruction_of_splitValue hsplit
      have hfirst := notMem_of_splitValue hsplit
      subst htext
      exact .propose hfirst hother
    · next hsplit => exact .help (notMem_of_splitValue_none hsplit) hother

/-- **A line is read as the one order that it spells**, blanks aside. -/
theorem read_eq_iff {line : String} {order : Order} : read line = order ↔
    Spelled (trimString line) order := by
  constructor
  · rintro rfl
    exact spelled_read line
  · intro h
    generalize htext : trimString line = text at h
    cases h with
    | quit | commit | clear | «show» | blank => simp only [read, htext]; rfl
    | search text => exact read_of_search htext
    | @propose old new hfirst hother =>
      have hsplit : CommandLine.splitValue (trimString line) = (old, some new) := by
        rw [htext]
        exact splitValue_instruction (e := (old, new)) hfirst
      exact read_of_not_isWord (htext ▸ hother) hsplit
    | help hunequal hother =>
      exact read_of_not_isWord (htext ▸ hother) (htext ▸ splitValue_of_notMem hunequal)

end Order

end StationNaming.Command
