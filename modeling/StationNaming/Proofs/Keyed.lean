import Mathlib.Data.List.Nodup
import Mathlib.Tactic.SplitIfs
import StationNaming.Keyed
/-!
# Looking up by a key

In a list whose entries have distinct keys, the entry with a key is found wherever it stands. In a
list of keys with their values, what is found under a key is the value that setting the key
replaces.
-/

namespace StationNaming.Keyed

/-! ## Entries by key -/

/-- Keys that are distinct stay so when an entry with a new one is added. -/
theorem nodup_map_concat {α β : Type} {key : α → β} {entries : List α}
    (distinct : (entries.map key).Nodup)
    {entry : α} (new : ∀ e ∈ entries, key e ≠ key entry) :
      ((entries ++ [entry]).map key).Nodup := by
  rw [List.map_append, List.map_singleton, List.nodup_append]
  refine ⟨distinct, List.nodup_singleton _, ?_⟩
  intro k hk l hl
  obtain ⟨e, he, rfl⟩ := List.mem_map.mp hk
  rw [List.mem_singleton.mp hl]
  exact new e he

section Find

variable {α β : Type} [DecidableEq β] {key : α → β}

/-- An entry is found by its key if no other entry has that key. -/
theorem find?_key_of_mem {entries : List α} (distinct : (entries.map key).Nodup) {entry : α}
    (h : entry ∈ entries) : entries.find? (fun e => key e == key entry) = some entry := by
  cases hfind : entries.find? (fun e => key e == key entry) with
  | none => exact absurd (List.find?_eq_none.mp hfind entry h) (by simp)
  | some found =>
    have hkey : key found = key entry := by simpa using List.find?_some hfind
    have hmem : found ∈ entries := List.mem_of_find?_eq_some hfind
    rw [List.inj_on_of_nodup_map distinct hmem h hkey]

/-- A key that no entry has finds nothing. -/
theorem find?_key_of_notMem {entries : List α} {k : β} (h : k ∉ entries.map key) :
    entries.find? (fun e => key e == k) = none := by
  rw [List.find?_eq_none]
  intro e he hk
  exact h (beq_iff_eq.mp hk ▸ List.mem_map_of_mem he)

end Find

/-! ## Values by key -/

section Lookup

variable {α β : Type} [DecidableEq α] {key : α} {value : β} {entries : List (α × β)}

/-- A key that is found is among the keys. -/
theorem mem_keys_of_lookup (h : entries.lookup key = some value) : key ∈ entries.map (·.1) := by
  obtain ⟨before, after, rfl, -⟩ := List.lookup_eq_some_iff.mp h
  simp

theorem isSome_lookup_iff : (entries.lookup key).isSome = true ↔ key ∈ entries.map (·.1) := by
  simp only [List.lookup_isSome_iff, List.mem_map, beq_iff_eq, @eq_comm α key]

/-- Where keys are distinct, a key is found with the value it stands with. -/
theorem lookup_eq_some_iff_mem (distinct : (entries.map (·.1)).Nodup) :
    entries.lookup key = some value ↔ (key, value) ∈ entries := by
  induction entries with
  | nil => simp
  | cons entry entries ih =>
    obtain ⟨name, found⟩ := entry
    obtain ⟨hnew, hrest⟩ := List.nodup_cons.mp distinct
    by_cases hname : key = name
    · subst hname
      have hnot : (key, value) ∉ entries := fun hmem => hnew (List.mem_map.mpr ⟨_, hmem, rfl⟩)
      rw [List.lookup_cons_self, List.mem_cons, or_iff_left hnot, Option.some.injEq,
        Prod.mk.injEq, eq_comm]
      exact (and_iff_right rfl).symm
    · rw [List.lookup_cons, beq_eq_false_iff_ne.mpr hname, List.mem_cons, ih hrest]
      exact (or_iff_right fun heq => hname (congrArg Prod.fst heq)).symm

/-- Setting a key to the value it has changes nothing. -/
theorem set_of_lookup (h : entries.lookup key = some value) : set key value entries = entries := by
  induction entries with
  | nil => exact absurd h nofun
  | cons entry entries ih =>
    obtain ⟨name, found⟩ := entry
    by_cases hname : name = key
    · subst hname
      rw [List.lookup_cons_self, Option.some.injEq] at h
      rw [set, if_pos rfl, h]
    · rw [List.lookup_cons, beq_eq_false_iff_ne.mpr (Ne.symm hname)] at h
      rw [set, if_neg hname, ih h]

/-- A new key goes to the end. -/
theorem set_of_notMem (h : key ∉ entries.map (·.1)) (value : β) :
    set key value entries = entries ++ [(key, value)] := by
  induction entries with
  | nil => rfl
  | cons entry entries ih =>
    rw [List.map_cons, List.mem_cons, not_or] at h
    rw [set, if_neg (Ne.symm h.1), ih h.2, List.cons_append]

/-- A key that is there is set where it is, whatever follows. -/
theorem set_append_of_mem (h : key ∈ entries.map (·.1)) (value : β) (more : List (α × β)) :
    set key value (entries ++ more) = set key value entries ++ more := by
  induction entries with
  | nil => exact absurd h List.not_mem_nil
  | cons entry entries ih =>
    by_cases hkey : entry.1 = key
    · rw [List.cons_append, set, set, if_pos hkey, if_pos hkey, List.cons_append]
    · have hrest : key ∈ entries.map (·.1) := by
        rcases List.mem_cons.mp h with heq | hmem
        · exact absurd heq.symm hkey
        · exact hmem
      rw [List.cons_append, set, set, if_neg hkey, if_neg hkey, ih hrest, List.cons_append]

/-- Setting a key twice is setting it to the last value. -/
theorem set_set (first last : β) : set key last (set key first entries) = set key last entries := by
  induction entries with
  | nil => simp [set]
  | cons entry entries ih =>
    by_cases hkey : entry.1 = key
    · simp [set, hkey]
    · simp [set, hkey, ih]

/-- What is in a list after a key was set is the new entry or was there before. -/
theorem eq_or_mem_of_mem_set {entry : α × β} (h : entry ∈ set key value entries) :
    entry = (key, value) ∨ entry ∈ entries := by
  induction entries with
  | nil => exact .inl (List.mem_singleton.mp h)
  | cons first entries ih =>
    rw [set] at h
    split_ifs at h
    · exact (List.mem_cons.mp h).imp_right (List.mem_cons_of_mem first)
    · rcases List.mem_cons.mp h with rfl | h
      · exact .inr List.mem_cons_self
      · exact (ih h).imp_right (List.mem_cons_of_mem first)

/-- Keys that are distinct stay so when one is set. -/
theorem nodup_keys_set (h : (entries.map (·.1)).Nodup) (key : α) (value : β) :
    ((set key value entries).map (·.1)).Nodup := by
  by_cases hkey : key ∈ entries.map (·.1)
  · rw [map_fst_set_of_mem value hkey]
    exact h
  · rw [set_of_notMem hkey]
    exact nodup_map_concat h fun e he hsame => hkey (List.mem_map.mpr ⟨e, he, hsame⟩)

end Lookup

end StationNaming.Keyed
