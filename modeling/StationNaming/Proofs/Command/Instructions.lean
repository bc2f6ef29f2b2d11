import Mathlib.Data.List.Infix
import Mathlib.Data.List.TakeWhile
import StationNaming.Proofs.Command.Effects
/-!
# Instructions

An edit can be asked for in one word of a command line, and in one line of input. In both it is
spelled as the old name, an equals sign and the new name.

**What is exact.** A word is read back as the edit it spells exactly if the old name is not empty
and holds no equals sign (`readRenaming_instruction`, `notMem_old_of_readRenaming`). A line needs
more: it must not end early, blanks at its ends do not count, and it must not start as a search does
(`read_instruction`). An edit of an IED that is there is always accepted (`exists_proposeAll`),
whatever its new name is.
-/

namespace StationNaming

open Naming (Admissible)
open Unicode (isBlank trim trimStart trimEnd trimString)

/-! ## Texts without blanks around them -/

/-- **A text that neither starts nor ends with a blank character.** -/
structure IsTrimmed (text : String) : Prop where
  starts : ∀ c, text.toList.head? = some c → isBlank c = false
  ends : ∀ c, text.toList.getLast? = some c → isBlank c = false

instance (text : String) : Decidable (IsTrimmed text) :=
  decidable_of_iff (text.toList.head?.all (!isBlank ·) = true ∧
    text.toList.getLast?.all (!isBlank ·) = true) (by
    simp only [Option.all_eq_true, Bool.not_eq_true']
    exact ⟨fun h => ⟨h.1, h.2⟩, fun h => ⟨h.starts, h.ends⟩⟩)

theorem trimStart_eq_self {cs : List Char} (h : ∀ c, cs.head? = some c → isBlank c = false) :
    trimStart cs = cs := by
  cases cs with
  | nil => rfl
  | cons c cs => rw [trimStart, List.dropWhile_cons, h c rfl, if_neg Bool.false_ne_true]

theorem trimEnd_eq_self {cs : List Char} (h : ∀ c, cs.getLast? = some c → isBlank c = false) :
    trimEnd cs = cs := by
  have hreverse : trimStart cs.reverse = cs.reverse := trimStart_eq_self fun c hc =>
    h c (List.head?_reverse ▸ hc)
  rw [trimStart] at hreverse
  rw [trimEnd, hreverse, List.reverse_reverse]

theorem IsTrimmed.trimString_eq {text : String} (h : IsTrimmed text) : trimString text = text := by
  rw [trimString, trim, trimStart_eq_self h.starts, trimEnd_eq_self h.ends, String.ofList_toList]

/-! ## Spelling an edit -/

/-- **An edit as it is asked for.** -/
def instruction (e : Edit) : String := e.1 ++ "=" ++ e.2

/-- The renaming that an edit amounts to. -/
def renamingOf (e : Edit) : Renaming := ⟨e.1, e.2⟩

theorem toList_instruction (e : Edit) :
    (instruction e).toList = e.1.toList ++ '=' :: e.2.toList := by
  rw [instruction, String.toList_append, String.toList_append, List.append_assoc]
  rfl

/-- A word is split at its first equals sign. -/
theorem splitValue_instruction {e : Edit} (h : '=' ∉ e.1.toList) :
    CommandLine.splitValue (instruction e) = (e.1, some e.2) := by
  have hbefore : ∀ c ∈ e.1.toList, (c != '=') = true := fun c hc => bne_iff_ne.mpr fun heq =>
    h (heq ▸ hc)
  have hequals : ¬ ('=' != '=') = true := by decide
  rw [CommandLine.splitValue, toList_instruction, List.span_eq_takeWhile_dropWhile,
    List.takeWhile_append_of_pos hbefore, List.dropWhile_append_of_pos hbefore,
    List.takeWhile_cons_of_neg (p := (· != '=')) hequals,
      List.dropWhile_cons_of_neg (p := (· != '=')) hequals,
    List.append_nil]
  simp only [String.ofList_toList]

/-- No equals sign stands before the first one. -/
theorem notMem_of_splitValue {word old new : String}
    (h : CommandLine.splitValue word = (old, some new)) :
    '=' ∉ old.toList := by
  rw [CommandLine.splitValue, List.span_eq_takeWhile_dropWhile] at h
  split at h
  · cases h
  · next name _ _ hspan =>
    cases h
    rw [String.toList_ofList, ← (Prod.mk.inj hspan).1]
    intro hmem
    exact absurd (List.mem_takeWhile_imp hmem) (by decide)

namespace Request

/-- **An instruction is read as the edit it spells.** -/
theorem readRenaming_instruction {e : Edit} (named : e.1 ≠ "") (unequal : '=' ∉ e.1.toList) :
    readRenaming (instruction e) = .ok (renamingOf e) := by
  simp only [readRenaming, splitValue_instruction unequal, if_neg named]
  rfl

/-- What is read has an old name without an equals sign. -/
theorem notMem_old_of_readRenaming {word : String} {op : Renaming}
    (h : readRenaming word = .ok op) :
    '=' ∉ op.old.toList := by
  rw [readRenaming] at h
  split at h
  · next old new hsplit =>
    split at h <;> cases h
    exact notMem_of_splitValue hsplit
  · cases h

/-- An instruction without an old name is refused. -/
theorem readRenaming_of_nameless {e : Edit} (nameless : e.1 = "") :
    readRenaming (instruction e) = .error (.notRenaming (instruction e)) := by
  have hsplit : CommandLine.splitValue (instruction e) = (e.1, some e.2) := by
    refine splitValue_instruction ?_
    rw [nameless]
    exact List.not_mem_nil
  simp only [readRenaming, hsplit, if_pos nameless]

/-- **Instructions are read one by one.** -/
theorem mapM_readRenaming {edits : List Edit} (named : ∀ e ∈ edits, e.1 ≠ "")
    (unequal : ∀ e ∈ edits, '=' ∉ e.1.toList) :
    (edits.map instruction).mapM readRenaming = .ok (edits.map renamingOf) := by
  induction edits with
  | nil => rfl
  | cons e edits ih =>
    obtain ⟨hnamed, named⟩ := List.forall_mem_cons.mp named
    obtain ⟨hunequal, unequal⟩ := List.forall_mem_cons.mp unequal
    rw [List.map_cons, List.mapM_cons, readRenaming_instruction hnamed hunequal, ih named unequal]
    rfl

end Request

/-! ## Edits of known IEDs -/

/-- Proposals go on from a session in which the first of them is accepted. -/
theorem Command.proposeAll_cons {session after : Session} (op : Renaming) {found : EditResult}
    (h : session.edit op.old op.new = .ok (after, found)) (renamings : List Renaming) :
    proposeAll session (op :: renamings) = proposeAll after renamings := by
  rw [proposeAll, List.foldlM_cons, h]
  rfl

namespace OpenFile.Edited

variable {host : Host} {files : Files} {input : String} {f : OpenFile} {edits : List Edit}

/-- The IEDs of the file are the items of its session. -/
theorem identities_session (h : f.Edited host files input edits) :
    f.session.items.map (·.identity) = f.station.records.map (·.name) := by
  obtain ⟨-, -, -, distinct, hsession⟩ := h
  rw [hsession, Ledger.items_session, List.map_map]
  rfl

/-- **An edit of a known IED is accepted**, whatever the name is. -/
theorem exists_edit (h : f.Edited host files input edits) {e : Edit}
    (known : e.1 ∈ f.station.records.map (·.name)) :
    ∃ session found, f.session.edit e.1 e.2 = .ok (session, found) ∧
      { f with session := session }.Edited host files input (edits ++ [e]) := by
  obtain ⟨old, new⟩ := e
  have hedit := h.edit old new
  obtain ⟨record, hrecord, rfl⟩ := List.mem_map.mp known
  obtain ⟨-, -, -, distinct, hsession⟩ := h
  rw [hsession, Ledger.edit_session_of_mem (l := Ledger.ofEdits _ distinct edits) hrecord]
    at hedit ⊢
  exact ⟨_, _, rfl, hedit⟩

/-- **Edits of known IEDs are all accepted.** -/
theorem exists_proposeAll (h : f.Edited host files input edits) {more : List Edit}
    (known : ∀ e ∈ more, e.1 ∈ f.station.records.map (·.name)) :
    ∃ session, Command.proposeAll f.session (more.map renamingOf) = .ok session ∧
      { f with session := session }.Edited host files input (edits ++ more) := by
  induction more generalizing f edits with
  | nil => exact ⟨f.session, rfl, (List.append_nil edits).symm ▸ h⟩
  | cons e more ih =>
    obtain ⟨hknown, known⟩ := List.forall_mem_cons.mp known
    obtain ⟨session, found, hedit, hedited⟩ := h.exists_edit hknown
    obtain ⟨last, hlast, hafter⟩ := ih hedited known
    refine ⟨last, ?_, ?_⟩
    · rw [List.map_cons, Command.proposeAll_cons (renamingOf e) hedit]
      exact hlast
    · rwa [List.append_assoc] at hafter

/-- **When edits can be committed**: a name changes, and the names that were proposed last may stand
together. -/
theorem isCommittable_iff (h : f.Edited host files input edits) : f.session.isCommittable = true ↔
    (∃ r ∈ f.station.records, lastProposed edits r.name ≠ r.name) ∧
      (f.station.records.map fun r => lastProposed edits r.name).Nodup ∧
        ∀ r ∈ f.station.records, Admissible (lastProposed edits r.name) := by
  obtain ⟨-, -, -, distinct, hsession⟩ := h
  simp only [hsession, Ledger.isCommittable_session_iff, Ledger.items_session, List.map_map,
    List.mem_map, exists_exists_and_eq_and, forall_exists_index, and_imp, forall_apply_eq_imp_iff₂]
  rfl

end OpenFile.Edited

/-! ## Refusing to commit -/

/-- Where nothing can have been written, there is no success, and the files are as they were. -/
theorem Outcome.Effect.unchanged {host : Host} {files : Files} {o : Outcome}
    (h : o.Effect host files fun _ _ _ => False) : ¬ o.Succeeded ∧ o.files = files := by
  cases h with
  | kept unsaved files_eq => exact ⟨Outcome.not_succeeded unsaved, files_eq⟩
  | saved asks | brokeOff asks => exact asks.elim

namespace Command

/-- **A session that cannot be committed is not**, whether something is pending in it or not. -/
theorem effect_settle_of_not_committable {host : Host} {files : Files} {input : String}
    {f : OpenFile}
    (files_eq : f.desk.files = files) (uncommittable : ¬ f.session.isCommittable = true)
    (output : Option String) (isConfirmed : Bool) (lines : List String) :
    (settle f input output isConfirmed lines).Effect host files fun _ _ _ => False := by
  have hrefused : (!f.session.isCommittable) = true := by
    rw [Bool.eq_false_of_not_eq_true uncommittable]
    rfl
  rw [settle, if_pos hrefused]
  split
  · exact .kept_of_single rfl (Display.isSaved_notice _) files_eq
  · refine .kept (fun entry hentry => ?_) files_eq
    obtain ⟨v, -, rfl⟩ := List.mem_map.mp hentry
    exact Display.isSaved_refused v

/-! ## Lines -/

/-- Whether a character ends a line of input. -/
def EndsLine (c : Char) : Prop := c = '\n' ∨ c = '\r'

instance (c : Char) : Decidable (EndsLine c) := inferInstanceAs (Decidable (c = '\n' ∨ c = '\r'))

/-- **An edit that can be asked for in a line of input.** -/
structure IsTypable (e : Edit) : Prop where
  named : e.1 ≠ ""
  unequal : '=' ∉ e.1.toList
  unsearched : ¬ "/search".toList <+: e.1.toList
  old_trimmed : IsTrimmed e.1
  new_trimmed : IsTrimmed e.2
  old_line : ∀ c ∈ e.1.toList, ¬ EndsLine c
  new_line : ∀ c ∈ e.2.toList, ¬ EndsLine c

instance (e : Edit) : Decidable (IsTypable e) :=
  decidable_of_iff (e.1 ≠ "" ∧ '=' ∉ e.1.toList ∧ ¬ "/search".toList <+: e.1.toList ∧
    IsTrimmed e.1 ∧
      IsTrimmed e.2 ∧ e.1.toList.all (¬ EndsLine ·) = true ∧
        e.2.toList.all (¬ EndsLine ·) = true) (by
    simp only [List.all_eq_true, decide_eq_true_eq]
    exact ⟨fun ⟨named, unequal, unsearched, old_trimmed, new_trimmed, old_line, new_line⟩ =>
        ⟨named, unequal, unsearched, old_trimmed, new_trimmed, old_line, new_line⟩,
      fun h => ⟨h.named, h.unequal, h.unsearched, h.old_trimmed, h.new_trimmed, h.old_line,
        h.new_line⟩⟩)

namespace IsTypable

variable {e : Edit} (h : IsTypable e)

include h

theorem isTrimmed_instruction : IsTrimmed (instruction e) := by
  have hne : e.1.toList ≠ [] := fun hnil => h.named (String.toList_eq_nil_iff.mp hnil)
  obtain ⟨first, rest, hcons⟩ := List.exists_cons_of_ne_nil hne
  constructor
  · intro c hc
    refine h.old_trimmed.starts c ?_
    rw [toList_instruction, hcons] at hc
    rw [hcons]
    exact hc
  · intro c hc
    rw [toList_instruction, List.getLast?_append, List.getLast?_cons] at hc
    -- The last character is that of the new name, or the equals sign if that is empty.
    cases hlast : e.2.toList.getLast? with
    | some d =>
      rw [hlast] at hc
      exact h.new_trimmed.ends c (hlast.trans hc)
    | none =>
      rw [hlast] at hc
      obtain rfl : '=' = c := Option.some.inj hc
      decide

/-- The word that starts a search has no equals sign in it, so it does not reach over one. -/
theorem not_searchWord_prefix : ¬ searchWord <+: (instruction e).toList := by
  intro hsearch
  rw [toList_instruction] at hsearch
  rcases List.prefix_or_prefix_of_prefix hsearch (List.prefix_append _ _) with hold | hold
  · exact h.unsearched hold
  · obtain ⟨rest, hrest⟩ := hold
    rw [← hrest, List.prefix_append_right_inj] at hsearch
    cases rest with
    | nil =>
      rw [List.append_nil] at hrest
      exact h.unsearched (hrest ▸ List.prefix_rfl)
    | cons d rest =>
      have hequals : d = '=' := (List.cons_prefix_cons.mp hsearch).1
      have hmem : '=' ∈ searchWord := by
        rw [← hrest, hequals]
        exact List.mem_append_right _ List.mem_cons_self
      exact absurd hmem (by decide)

omit h in
/-- A line that asks for an edit is none of the words behind a slash. -/
theorem instruction_ne {word : String} (hword : '=' ∉ word.toList) : instruction e ≠ word := by
  rintro rfl
  rw [toList_instruction] at hword
  exact hword (List.mem_append_right _ List.mem_cons_self)

/-- **A line is read as the edit it spells.** -/
theorem read_instruction : Order.read (instruction e) = .propose e.1 e.2 := by
  have hsearch : ¬ searchWord.isPrefixOf (instruction e).toList = true := fun hprefix =>
    h.not_searchWord_prefix (List.isPrefixOf_iff_prefix.mp hprefix)
  have hshow : ¬ (instruction e = "/show" ∨ instruction e = "") := by
    rintro (heq | heq)
    · exact instruction_ne (by decide) heq
    · exact instruction_ne (by decide) heq
  simp only [Order.read, h.isTrimmed_instruction.trimString_eq]
  rw [if_neg (instruction_ne (by decide)), if_neg (instruction_ne (by decide)), if_neg hsearch,
    if_neg (instruction_ne (by decide)), if_neg hshow, splitValue_instruction h.unequal]
  simp only [h.old_trimmed.trimString_eq, h.new_trimmed.trimString_eq]

theorem instruction_line : ∀ c ∈ (instruction e).toList, ¬ EndsLine c := by
  intro c hc
  rw [toList_instruction, List.mem_append, List.mem_cons] at hc
  rcases hc with hc | rfl | hc
  · exact h.old_line c hc
  · rintro (heq | heq)
    · exact absurd heq (by decide)
    · exact absurd heq (by decide)
  · exact h.new_line c hc

end IsTypable

/-! ## Scripts -/

/-- **Lines of input**, each of them ended. -/
def typed (lines : List String) : String := String.join (lines.map (· ++ "\n"))

theorem splitLines_line {line : List Char} (h : ∀ c ∈ line, ¬ EndsLine c)
    (current rest : List Char) :
    splitLines current (line ++ '\n' :: rest) = String.ofList (current.reverse ++ line) ::
      splitLines [] rest := by
  induction line generalizing current with
  | nil =>
    rw [List.nil_append, List.append_nil, splitLines, if_pos (.inl rfl)]
    exact fun _ hc => absurd hc (by decide)
  | cons c line ih =>
    obtain ⟨hc, hline⟩ := List.forall_mem_cons.mp h
    have hnot : ¬ (c = '\n' ∨ c = '\r') := hc
    rw [List.cons_append, splitLines, if_neg hnot, ih hline, List.reverse_cons, List.append_assoc]
    · rfl
    · exact fun _ hreturn _ => hc (.inr hreturn)

/-- **Lines are read as they were typed.** -/
theorem inputLines_typed {lines : List String}
    (h : ∀ line ∈ lines, ∀ c ∈ line.toList, ¬ EndsLine c) :
    inputLines (typed lines) = lines := by
  rw [inputLines, typed]
  induction lines with
  | nil => rfl
  | cons line lines ih =>
    obtain ⟨hline, hlines⟩ := List.forall_mem_cons.mp h
    rw [List.map_cons, String.join_cons, String.toList_append, String.toList_append,
      List.append_assoc]
    show splitLines [] (line.toList ++ '\n' :: (String.join (lines.map (· ++ "\n"))).toList) = _
    rw [splitLines_line hline, ih hlines, List.reverse_nil, List.nil_append, String.ofList_toList]

end Command

end StationNaming
