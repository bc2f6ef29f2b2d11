import Mathlib.Data.List.Forall2
import Mathlib.Data.List.Nodup
import StationNaming.Xml.Element
/-!
# Changing labels in place

A tree with its shape taken apart from what stands in it: the label of an element is its name, its
attributes, its text and its tail, and relabelling gives every element a new label that depends on
the old one and on the way to it.

**What is exact.** A change of labels at one path is a relabelling (`modifyAt_eq_relabel`), two
relabellings in a row are one (`relabel_relabel`), and a relabelled tree has the old paths in the
old order (`forall₂_walk_relabel`). So any number of changes that stay within labels, made one after
the other, can be read off path by path.
-/

namespace StationNaming.Xml

/-! ## Labels -/

/-- **What an element is** apart from its children. -/
@[ext]
structure Label where
  name : Name
  attributes : List Attribute
  text : String
  tail : String
  deriving DecidableEq, Repr

namespace Label

/-- The element with a label and given children. -/
def element (l : Label) (children : List Element) : Element :=
  Element.mk l.name l.attributes l.text children l.tail

/-- Setting an attribute outside every namespace. -/
def setAttribute (key value : String) (l : Label) : Label :=
  { l with attributes := Keyed.set ⟨"", key⟩ value l.attributes }

/-- Setting the text. -/
def setText (value : String) (l : Label) : Label := { l with text := value }

end Label

namespace Element

/-- The label of an element. -/
def label (e : Element) : Label := ⟨e.name, e.attributes, e.text, e.tail⟩

theorem setAttribute_eq (key value : String) (e : Element) :
    e.setAttribute key value = (e.label.setAttribute key value).element e.children := by
  cases e
  rfl

theorem setText_eq (value : String) (e : Element) :
    e.setText value = (e.label.setText value).element e.children := by
  cases e
  rfl

/-! ## Paths -/

mutual

/-- Every path of a walk leads somewhere else. -/
theorem nodup_walk : (e : Element) → (e.walk.map (·.1)).Nodup
  | mk n as t cs tl => by
    rw [walk, List.map_cons, List.nodup_cons]
    refine ⟨?_, (nodup_walkAll 0 cs).1⟩
    intro hmem
    obtain ⟨x, hx, hpath⟩ := List.mem_map.mp hmem
    obtain ⟨i, rest, hi, -⟩ := (nodup_walkAll 0 cs).2 x hx
    rw [hi] at hpath
    exact absurd hpath (List.cons_ne_nil i rest)

/-- The paths among neighbours are distinct, and start at the index of the first or later. -/
theorem nodup_walkAll (index : Nat) : (cs : List Element) →
    ((walkAll index cs).map (·.1)).Nodup ∧
      ∀ x ∈ walkAll index cs, ∃ i rest, x.1 = i :: rest ∧ index ≤ i
  | [] => ⟨List.nodup_nil, fun x hx => absurd hx List.not_mem_nil⟩
  | c :: cs => by
    obtain ⟨htail, hlater⟩ := nodup_walkAll (index + 1) cs
    have hhead : ((walk c).map fun found => index :: found.1).Nodup := by
      have hmap := (nodup_walk c).map (List.cons_injective (a := index))
      rw [List.map_map] at hmap
      exact hmap
    rw [walkAll]
    refine ⟨?_, ?_⟩
    · rw [List.map_append, List.map_map]
      -- What leads below the first neighbour starts at its index, and all other paths at a later
      -- one.
      refine hhead.append htail ?_
      intro path hpath hpath'
      obtain ⟨x, -, rfl⟩ := List.mem_map.mp hpath
      obtain ⟨y, hy, hyx⟩ := List.mem_map.mp hpath'
      obtain ⟨i, rest, hi, hle⟩ := hlater y hy
      rw [hi, List.cons.injEq] at hyx
      omega
    · intro x hx
      rcases List.mem_append.mp hx with hx | hx
      · obtain ⟨found, -, rfl⟩ := List.mem_map.mp hx
        exact ⟨index, found.1, rfl, Nat.le_refl index⟩
      · obtain ⟨i, rest, hi, hle⟩ := hlater x hx
        exact ⟨i, rest, hi, by omega⟩

end

/-- At most one element stands at a path. -/
theorem eq_of_mem_walk {e : Element} {x y : Path × Element} (hx : x ∈ e.walk) (hy : y ∈ e.walk)
    (h : x.1 = y.1) : x = y :=
  List.inj_on_of_nodup_map (nodup_walk e) hx hy h

theorem forall_mem_walkAll {P : Element → Prop} {index : Nat} {cs : List Element} :
    (∀ x ∈ walkAll index cs, P x.2) ↔ ∀ c ∈ cs, ∀ x ∈ c.walk, P x.2 := by
  induction cs generalizing index with
  | nil => simp [walkAll]
  | cons c cs ih =>
    rw [walkAll, List.forall_mem_append, List.forall_mem_cons, ih, List.forall_mem_map]

/-- **What holds of all elements** holds of the root and of everything below its children. -/
theorem forall_mem_walk_mk {P : Element → Prop} {n : Name} {as : List Attribute} {t : String}
    {cs : List Element} {tl : String} :
    (∀ x ∈ (mk n as t cs tl).walk, P x.2) ↔
      P (mk n as t cs tl) ∧ ∀ c ∈ cs, ∀ x ∈ c.walk, P x.2 := by
  rw [walk, List.forall_mem_cons, forall_mem_walkAll]

/-- An element stands at the head of its own walk. -/
theorem nil_mem_walk (e : Element) : ([], e) ∈ e.walk := by
  cases e
  exact List.mem_cons_self

theorem getElem?_of_mem_walkAll {cs : List Element} {k : Nat} {c : Element} {index : Nat}
    (h : ([k], c) ∈ walkAll index cs) : ∃ i, k = index + i ∧ cs[i]? = some c := by
  induction cs generalizing index with
  | nil => exact absurd h List.not_mem_nil
  | cons d ds ih =>
    rw [walkAll] at h
    rcases List.mem_append.mp h with h | h
    · obtain ⟨found, hfound, hx⟩ := List.mem_map.mp h
      obtain ⟨hpath, rfl⟩ := Prod.mk.inj hx
      obtain ⟨rfl, hnil⟩ := List.cons.inj hpath
      have hroot : found = ([], d) := eq_of_mem_walk hfound (nil_mem_walk d) hnil
      exact ⟨0, rfl, by rw [hroot]; rfl⟩
    · obtain ⟨i, hk, hi⟩ := ih h
      exact ⟨i + 1, by omega, by simpa using hi⟩

/-- **What stands at a path of one index is that child.** -/
theorem getElem?_of_mem_walk {e : Element} {i : Nat} {c : Element} (h : ([i], c) ∈ e.walk) :
    e.children[i]? = some c := by
  cases e with
  | mk n as t cs tl =>
    rcases List.mem_cons.mp h with heq | hmem
    · exact absurd (Prod.mk.inj heq).1 (List.cons_ne_nil i [])
    · obtain ⟨j, hj, hc⟩ := getElem?_of_mem_walkAll hmem
      rw [Nat.zero_add] at hj
      exact hj ▸ hc

theorem mem_walkAll_of_getElem? {cs : List Element} {i : Nat} {c : Element} (index : Nat)
    (h : cs[i]? = some c) : ([index + i], c) ∈ walkAll index cs := by
  induction cs generalizing index i with
  | nil => exact absurd h nofun
  | cons d ds ih =>
    rw [walkAll]
    cases i with
    | zero =>
      obtain rfl : d = c := Option.some.inj h
      exact List.mem_append_left _ (List.mem_map.mpr ⟨([], d), nil_mem_walk d, rfl⟩)
    | succ i =>
      have hmem := ih (index + 1) h
      rw [Nat.add_right_comm, Nat.add_assoc] at hmem
      exact List.mem_append_right _ hmem

/-- Every child stands at the path of its index. -/
theorem mem_walk_of_getElem? {e : Element} {i : Nat} {c : Element} (h : e.children[i]? = some c) :
    ([i], c) ∈ e.walk := by
  cases e with
  | mk n as t cs tl =>
    have hmem := mem_walkAll_of_getElem? 0 h
    rw [Nat.zero_add] at hmem
    exact List.mem_cons_of_mem _ hmem

/-! ## Relabelling -/

mutual

/-- **A tree with new labels**: every label is given anew from the path to it and what it was. -/
def relabel (f : Path → Label → Label) : Element → Element
  | mk n as t cs tl => (f [] ⟨n, as, t, tl⟩).element (relabelAll f 0 cs)

/-- Neighbours with new labels, the first of which has the given index. -/
def relabelAll (f : Path → Label → Label) (index : Nat) : List Element → List Element
  | [] => []
  | c :: cs => relabel (fun path => f (index :: path)) c :: relabelAll f (index + 1) cs

end

/-- A relabelled element has the label that is given to the path of no steps. -/
theorem label_relabel (f : Path → Label → Label) (e : Element) :
    (relabel f e).label = f [] e.label := by
  cases e
  rfl

mutual

/-- Relabelling looks at labels of the tree only. -/
theorem relabel_congr {f g : Path → Label → Label} : {e : Element} →
    (∀ x ∈ e.walk, f x.1 x.2.label = g x.1 x.2.label) → relabel f e = relabel g e
  | mk n as t cs tl, h => by
    have hroot : f [] ⟨n, as, t, tl⟩ = g [] ⟨n, as, t, tl⟩ :=
      h ([], mk n as t cs tl) List.mem_cons_self
    rw [relabel, relabel, hroot]
    rw [relabelAll_congr fun x hx => h x (List.mem_cons_of_mem _ hx)]

theorem relabelAll_congr {f g : Path → Label → Label} {index : Nat} : {cs : List Element} →
    (∀ x ∈ walkAll index cs, f x.1 x.2.label = g x.1 x.2.label) →
      relabelAll f index cs = relabelAll g index cs
  | [], _ => rfl
  | c :: cs, h => by
    have hhead : relabel (fun path => f (index :: path)) c =
      relabel (fun path => g (index :: path)) c :=
      relabel_congr fun x hx => h (index :: x.1, x.2)
        (List.mem_append_left _ (List.mem_map.mpr ⟨x, hx, rfl⟩))
    rw [relabelAll, relabelAll, hhead]
    rw [relabelAll_congr fun x hx => h x (List.mem_append_right _ hx)]

end

mutual

/-- Relabelling by what is there changes nothing. -/
theorem relabel_self : (e : Element) → relabel (fun _ l => l) e = e
  | mk n as t cs tl => by
    rw [relabel, relabelAll_self 0 cs]
    rfl

theorem relabelAll_self (index : Nat) : (cs : List Element) →
    relabelAll (fun _ l => l) index cs = cs
  | [] => rfl
  | c :: cs => by rw [relabelAll, relabel_self c, relabelAll_self (index + 1) cs]

end

mutual

/-- **Two relabellings in a row are one.** -/
theorem relabel_relabel (f g : Path → Label → Label) : (e : Element) →
    relabel f (relabel g e) = relabel (fun path l => f path (g path l)) e
  | mk n as t cs tl => by
    rw [relabel, Label.element, relabel, relabelAll_relabelAll f g 0 cs, relabel]

theorem relabelAll_relabelAll (f g : Path → Label → Label) (index : Nat) : (cs : List Element) →
    relabelAll f index (relabelAll g index cs) =
      relabelAll (fun path l => f path (g path l)) index cs
  | [] => rfl
  | c :: cs => by
    rw [relabelAll, relabelAll, relabel_relabel _ _ c, relabelAll_relabelAll f g (index + 1) cs,
      relabelAll]

end

/-- A relabelled tree keeps the number of children everywhere. -/
theorem length_relabelAll (f : Path → Label → Label) (index : Nat) (cs : List Element) :
    (relabelAll f index cs).length = cs.length := by
  induction cs generalizing index with
  | nil => rfl
  | cons c cs ih => rw [relabelAll, List.length_cons, List.length_cons, ih]

mutual

/-- A relabelled tree is nested as deep as before. -/
theorem depth_relabel (f : Path → Label → Label) : (e : Element) → (relabel f e).depth = e.depth
  | mk n as t cs tl => by
    rw [relabel, Label.element, depth, depth, depthAll_relabelAll f 0 cs]

theorem depthAll_relabelAll (f : Path → Label → Label) (index : Nat) : (cs : List Element) →
    depthAll (relabelAll f index cs) = depthAll cs
  | [] => rfl
  | c :: cs => by
    rw [relabelAll, depthAll, depthAll, depth_relabel _ c, depthAll_relabelAll f (index + 1) cs]

end

/-- An element and what a relabelling makes of it, at the same path. -/
structure Relabelled (f : Path → Label → Label) (x y : Path × Element) : Prop where
  path_eq : y.1 = x.1
  label_eq : y.2.label = f x.1 x.2.label
  arity_eq : y.2.children.length = x.2.children.length

mutual

/-- **A relabelled tree has the old paths in the old order**, and the new label at each. -/
theorem forall₂_walk_relabel (f : Path → Label → Label) : (e : Element) →
    List.Forall₂ (Relabelled f) e.walk (relabel f e).walk
  | mk n as t cs tl => by
    have hroot : Relabelled f ([], mk n as t cs tl) ([], relabel f (mk n as t cs tl)) :=
      ⟨rfl, rfl, length_relabelAll f 0 cs⟩
    exact .cons hroot (forall₂_walkAll_relabelAll f 0 cs)

theorem forall₂_walkAll_relabelAll (f : Path → Label → Label) (index : Nat) :
    (cs : List Element) →
      List.Forall₂ (Relabelled f) (walkAll index cs) (walkAll index (relabelAll f index cs))
  | [] => .nil
  | c :: cs => by
    have hhead := forall₂_walk_relabel (fun path => f (index :: path)) c
    have htail := forall₂_walkAll_relabelAll f (index + 1) cs
    rw [relabelAll, walkAll, walkAll]
    -- The paths below a neighbour are those of its own walk, with its index in front.
    refine List.rel_append (R := Relabelled f) ?_ htail
    rw [List.forall₂_map_left_iff, List.forall₂_map_right_iff]
    exact hhead.imp fun x y h => ⟨by rw [h.path_eq], h.label_eq, h.arity_eq⟩

end

/-! ## Changes at a path -/

/-- The relabelling that changes the label at one path. -/
def relabelAt (path : Path) (g : Label → Label) (p : Path) (l : Label) : Label :=
  if p = path then g l else l

theorem relabelAll_at (rest : Path) (g : Label → Label) (index i : Nat) (cs : List Element) :
    relabelAll (relabelAt ((index + i) :: rest) g) index cs =
      cs.modify i (relabel (relabelAt rest g)) := by
  induction cs generalizing index i with
  | nil => simp [relabelAll]
  | cons c cs ih =>
    cases i with
    | zero =>
      have hhead : (fun path => relabelAt ((index + 0) :: rest) g (index :: path)) =
        relabelAt rest g := by
        funext path l
        simp [relabelAt]
      have htail : relabelAll (relabelAt ((index + 0) :: rest) g) (index + 1) cs = cs := by
        refine (relabelAll_congr fun x hx => ?_).trans (relabelAll_self (index + 1) cs)
        obtain ⟨j, path, hpath, hle⟩ := (nodup_walkAll (index + 1) cs).2 x hx
        rw [relabelAt, if_neg]
        rw [hpath, List.cons.injEq]
        omega
      rw [relabelAll, hhead, htail, List.modify_zero_cons]
    | succ i =>
      have hhead : relabel (fun path => relabelAt ((index + (i + 1)) :: rest) g (index :: path)) c =
        c := by
        refine (relabel_congr fun x _ => ?_).trans (relabel_self c)
        rw [relabelAt, if_neg]
        rw [List.cons.injEq]
        omega
      rw [relabelAll, hhead, List.modify_succ_cons, ← ih (index + 1) i]
      rw [Nat.add_right_comm index 1 i, Nat.add_assoc]

/-- **A change at a path that stays within labels is a relabelling.** -/
theorem modifyAt_eq_relabel {h : Element → Element} {g : Label → Label}
    (hshallow : ∀ e : Element, h e = (g e.label).element e.children) (path : Path) (e : Element) :
    e.modifyAt path h = relabel (relabelAt path g) e := by
  induction path generalizing e with
  | nil =>
    cases e with
    | mk n as t cs tl =>
      have hbelow : relabelAll (relabelAt [] g) 0 cs = cs := by
        refine (relabelAll_congr fun x hx => ?_).trans (relabelAll_self 0 cs)
        obtain ⟨i, rest, hpath, -⟩ := (nodup_walkAll 0 cs).2 x hx
        rw [relabelAt, if_neg]
        rw [hpath]
        exact List.cons_ne_nil i rest
      rw [modifyAt, hshallow, relabel, hbelow]
      rfl
  | cons i rest ih =>
    cases e with
    | mk n as t cs tl =>
      have hroot : relabelAt (i :: rest) g [] ⟨n, as, t, tl⟩ = ⟨n, as, t, tl⟩ :=
        if_neg (List.cons_ne_nil i rest).symm
      have hbelow := relabelAll_at rest g 0 i cs
      rw [Nat.zero_add] at hbelow
      rw [modifyAt, relabel, hroot, hbelow, funext ih]
      rfl

end Element

end StationNaming.Xml
