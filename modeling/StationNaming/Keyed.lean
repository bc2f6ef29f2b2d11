/-!
# Keyed lists

A list of keys with their values, in an order that is kept.

**What is exact.** Setting a key that is there changes its first entry in place; a new key goes to
the end. Looking a key up after setting one gives the new value for that key and the old one for
every other key.
-/

namespace StationNaming.Keyed

variable {α β : Type} [DecidableEq α]

/-- **Setting the value of a key.** -/
def set (key : α) (value : β) : List (α × β) → List (α × β)
  | [] => [(key, value)]
  | entry :: entries =>
    if entry.1 = key then (key, value) :: entries else entry :: set key value entries

/-- **Looking up after setting.** -/
theorem lookup_set (key other : α) (value : β) (entries : List (α × β)) :
    (set key value entries).lookup other =
      if other = key then some value else entries.lookup other := by
  induction entries with
  | nil =>
    by_cases h : other = key
    · simp [set, h]
    · simp [set, List.lookup_cons, h, beq_eq_false_iff_ne.2 h]
  | cons entry entries ih =>
    rcases entry with ⟨name, found⟩
    by_cases hn : name = key
    · subst hn
      by_cases h : other = name
      · simp [set, h]
      · simp [set, List.lookup_cons, h, beq_eq_false_iff_ne.2 h]
    · by_cases h : other = name
      · subst h
        simp [set, hn]
      · simp [set, List.lookup_cons, hn, ih, beq_eq_false_iff_ne.2 h]

/-- Setting a key that is there keeps all keys and their order. -/
theorem map_fst_set_of_mem {key : α} {entries : List (α × β)} (value : β)
    (h : key ∈ entries.map (·.1)) : (set key value entries).map (·.1) = entries.map (·.1) := by
  induction entries with
  | nil => simp at h
  | cons entry entries ih =>
    by_cases hn : entry.1 = key
    · simp [set, hn]
    · have hm : key ∈ entries.map (·.1) := by
        rcases List.mem_cons.1 h with he | hm
        · exact absurd he.symm hn
        · exact hm
      simp [set, hn, ih hm]

end StationNaming.Keyed
