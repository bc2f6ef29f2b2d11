import StationNaming.Proofs.Station.Resolution
/-!
# What resolved renamings write

Resolved renamings are written one after the other, each to the IED it renames and then to the sites
that refer to it. All of these writes stay within labels, so together they are one relabelling.

**What is exact.** `foldl_write_eq` makes all writes one relabelling. In it each renaming in turn
sets the name of the IED if it stands at the path, and writes to the sites that the element there
had for the old name before anything was written (`relabel_resolution`).
-/

namespace StationNaming.Station

open Xml (Element Label)

/-- Writing a name at a site of a label. -/
def Site.writeLabel (site : Site) (name : String) (l : Label) : Label :=
  match site with
  | .attribute => l.setAttribute referenceKey name
  | .text => l.setText name

theorem Site.write_eq (site : Site) (name : String) (e : Element) :
    site.write name e = (site.writeLabel name e.label).element e.children :=
  match site with
  | .attribute => Element.setAttribute_eq referenceKey name e
  | .text => Element.setText_eq name e

/-! ## One renaming -/

/-- A label at a path after a resolved renaming has been written. -/
def Resolved.relabel (r : Resolved) (path : Element.Path) (l : Label) : Label :=
  r.references.foldl (fun l ref => Element.relabelAt ref.path (ref.site.writeLabel r.new) path l)
    (Element.relabelAt [r.index] (·.setAttribute "name" r.new) path l)

/-- Writing to sites one after the other is one relabelling. -/
theorem foldl_modifyAt_eq (new : String) (refs : List Reference) (f : Element.Path → Label → Label)
    (root : Element) :
    refs.foldl (fun e ref => e.modifyAt ref.path (ref.site.write new)) (root.relabel f) =
      root.relabel fun path l =>
        refs.foldl (fun l ref => Element.relabelAt ref.path (ref.site.writeLabel new) path l)
          (f path l) := by
  induction refs generalizing f with
  | nil => rfl
  | cons ref refs ih =>
    rw [List.foldl_cons, Element.modifyAt_eq_relabel (ref.site.write_eq new),
      Element.relabel_relabel, ih]
    rfl

theorem Resolved.write_eq (root : Element) (r : Resolved) :
    Resolved.write root r = root.relabel r.relabel := by
  have hname : ∀ e : Element, e.setAttribute "name" r.new =
      (e.label.setAttribute "name" r.new).element e.children := Element.setAttribute_eq "name" r.new
  rw [Resolved.write, Element.modifyAt_eq_relabel hname, foldl_modifyAt_eq]
  rfl

/-! ## All renamings -/

/-- Writing resolved renamings one after the other is one relabelling. -/
theorem foldl_write_relabel (resolved : List Resolved) (f : Element.Path → Label → Label)
    (root : Element) :
    resolved.foldl Resolved.write (root.relabel f) =
      root.relabel fun path l => resolved.foldl (fun l r => r.relabel path l) (f path l) := by
  induction resolved generalizing f with
  | nil => rfl
  | cons r resolved ih =>
    rw [List.foldl_cons, Resolved.write_eq, Element.relabel_relabel, ih]
    rfl

/-- **All writes together**, told path by path. -/
theorem foldl_write_eq (resolved : List Resolved) (root : Element) :
    resolved.foldl Resolved.write root =
      root.relabel fun path l => resolved.foldl (fun l r => r.relabel path l) l := by
  have h := foldl_write_relabel resolved (fun _ l => l) root
  rw [Element.relabel_self] at h
  exact h

/-- **What a renaming writes at the path of an element** is written to the sites that the element
had before. -/
theorem relabel_resolution {s : Station} {path : Element.Path} {e : Element}
    (h : (path, e) ∈ s.root.walk) (op : Renaming) (l : Label) :
    (s.resolution op).relabel path l =
      (sitesOf op.old e).foldl (fun l site => site.writeLabel op.new l)
        (Element.relabelAt [(s.resolution op).index] (·.setAttribute "name" op.new) path l) := by
  have hfold : ∀ l : Label,
      (s.references op.old).foldl
          (fun l ref => Element.relabelAt ref.path (ref.site.writeLabel op.new) path l) l =
        ((s.references op.old).filter (·.path = path)).foldl
          (fun l ref => ref.site.writeLabel op.new l) l := by
    intro l
    rw [List.foldl_filter]
    congr 1
    funext l ref
    by_cases hpath : path = ref.path
    · simp [Element.relabelAt, hpath]
    · simp [Element.relabelAt, hpath, Ne.symm hpath]
  show (s.references op.old).foldl
    (fun l ref => Element.relabelAt ref.path (ref.site.writeLabel op.new) path l) _ = _
  -- The other references lead elsewhere, so only those of the element itself are written here.
  rw [hfold, filter_references h, List.foldl_map]
  rfl

end StationNaming.Station
