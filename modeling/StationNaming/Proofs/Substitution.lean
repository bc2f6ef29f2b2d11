import StationNaming.Proofs.Keyed
import StationNaming.Renaming
/-!
# Renamings as one substitution

A list of renamings read as one map on names: an old name goes to its new one, and every other name
stays. All renamings are made at once, so names can be swapped or passed round in a circle.

**What is exact.** If the old names are distinct, every renaming takes effect and their order does
not matter.
-/

namespace StationNaming.Renaming

/-- **What becomes of a name** when all renamings are made at once. -/
def substitute (ops : List Renaming) (name : String) : String :=
  match ops.find? (·.old == name) with
  | some op => op.new
  | none => name

theorem substitute_of_mem {ops : List Renaming} (distinct : (ops.map (·.old)).Nodup)
    {op : Renaming} (h : op ∈ ops) : substitute ops op.old = op.new := by
  rw [substitute, Keyed.find?_key_of_mem distinct h]

theorem substitute_of_notMem {ops : List Renaming} {name : String}
    (h : name ∉ ops.map (·.old)) : substitute ops name = name := by
  rw [substitute, Keyed.find?_key_of_notMem h]

/-- **The order of the renamings does not matter.** -/
theorem substitute_perm {ops ops' : List Renaming} (hperm : ops'.Perm ops)
    (distinct : (ops.map (·.old)).Nodup) : substitute ops' = substitute ops := by
  have holds : (ops'.map (·.old)).Perm (ops.map (·.old)) := hperm.map _
  funext name
  by_cases h : name ∈ ops.map (·.old)
  · obtain ⟨op, hop, rfl⟩ := List.mem_map.mp h
    rw [substitute_of_mem distinct hop,
      substitute_of_mem (holds.nodup_iff.mpr distinct) (hperm.mem_iff.mpr hop)]
  · rw [substitute_of_notMem h, substitute_of_notMem (mt holds.mem_iff.mp h)]

theorem substitute_cons_self (op : Renaming) (ops : List Renaming) :
    substitute (op :: ops) op.old = op.new := by
  simp [substitute]

theorem substitute_cons_of_ne {op : Renaming} {name : String} (h : op.old ≠ name)
    (ops : List Renaming) : substitute (op :: ops) name = substitute ops name := by
  simp [substitute, h]

/-- **Renamings made one after the other, all of them looking at one name that does not change.**
What was written for that name is its substitute, if it is an old name, and nothing otherwise. -/
theorem foldl_write_substitute {α : Type} (write : String → α → α) (name : String)
    {ops : List Renaming} (distinct : (ops.map (·.old)).Nodup) (a : α) :
    ops.foldl (fun a op => if op.old = name then write op.new a else a) a =
      if name ∈ ops.map (·.old) then write (substitute ops name) a else a := by
  induction ops generalizing a with
  | nil => rfl
  | cons op ops ih =>
    rw [List.map_cons, List.nodup_cons] at distinct
    rw [List.foldl_cons, ih distinct.2, List.map_cons]
    by_cases hname : op.old = name
    · subst hname
      rw [if_neg distinct.1, if_pos rfl, if_pos List.mem_cons_self, substitute_cons_self]
    · rw [if_neg hname, substitute_cons_of_ne hname]
      simp [Ne.symm hname]

end StationNaming.Renaming
