import StationNaming.Proofs.Editor.Failures
/-!
# Display order

The items of a session are shown by their descriptive lines, in an order that ignores case. Neither
the names that are proposed nor a query has a part in it.

**What is exact.** `displayed_of_run` holds in every state of every session and for every query. The
order is told without sorting: folded keys never fall, and items with one key stand as they were
loaded.
-/

namespace StationNaming

open Search (Query)

/-! ## Order -/

/-- **Comparing by code points** is comparing lexicographically. -/
theorem Unicode.codeLe_iff {as bs : List Nat} :
    codeLe as bs = true ↔ as = bs ∨ List.Lex (· < ·) as bs := by
  induction as generalizing bs with
  | nil => cases bs <;> simp [codeLe]
  | cons a as ih =>
    cases bs with
    | nil => simp [codeLe]
    | cons b bs =>
      rw [codeLe, Bool.or_eq_true, Bool.and_eq_true, decide_eq_true_eq, beq_iff_eq, ih,
        List.cons_lex_cons_iff]
      constructor
      · rintro (hlt | ⟨rfl, rfl | hlex⟩)
        · exact .inr (.inl hlt)
        · exact .inl rfl
        · exact .inr (.inr ⟨rfl, hlex⟩)
      · rintro (heq | hlt | ⟨rfl, hlex⟩)
        · obtain ⟨rfl, rfl⟩ := List.cons.inj heq
          exact .inr ⟨rfl, .inl rfl⟩
        · exact .inl hlt
        · exact .inr ⟨rfl, .inr hlex⟩

namespace Session

/-- **Items in display order**: those of the session, by the folding of their keys, compared code
point by code point. Items with one key are in load order. -/
structure InDisplayOrder (s : Session) (items : List Item) : Prop where
  perm : items.Perm s.items
  sorted : items.Pairwise fun i j => foldedKey i = foldedKey j ∨
    List.Lex (· < ·) (foldedKey i) (foldedKey j)
  stable : ∀ key, items.filter (foldedKey · = key) = s.items.filter (foldedKey · = key)

theorem inDisplayOrder_displayOrder (s : Session) : s.InDisplayOrder (displayOrder s.items) := by
  have htrans : ∀ i j k : Item, Unicode.codeLe (foldedKey i) (foldedKey j) = true →
      Unicode.codeLe (foldedKey j) (foldedKey k) = true →
        Unicode.codeLe (foldedKey i) (foldedKey k) = true :=
    fun _ _ _ => Unicode.codeLe_trans
  have htotal : ∀ i j : Item,
      (Unicode.codeLe (foldedKey i) (foldedKey j) || Unicode.codeLe (foldedKey j) (foldedKey i)) =
        true :=
    fun _ _ => Unicode.codeLe_total _ _
  have hperm : (displayOrder s.items).Perm s.items := List.mergeSort_perm _ _
  refine ⟨hperm, ?_, fun key => ?_⟩
  · exact (List.pairwise_mergeSort htrans htotal s.items).imp Unicode.codeLe_iff.mp
  · -- Items with one key are a sorted part of the session, which sorting leaves as it is.
    have hpart : (s.items.filter (foldedKey · = key)).Pairwise
        fun i j => Unicode.codeLe (foldedKey i) (foldedKey j) = true := by
      refine List.pairwise_of_forall_mem_list fun i hi j hj => ?_
      have hkey : foldedKey i = foldedKey j :=
        (of_decide_eq_true (List.mem_filter.mp hi).2).trans
          (of_decide_eq_true (List.mem_filter.mp hj).2).symm
      exact Unicode.codeLe_iff.mpr (.inl hkey)
    have hsub := (List.sublist_mergeSort htrans htotal hpart List.filter_sublist).filter
      (foldedKey · = key)
    simp only [List.filter_filter, Bool.and_self] at hsub
    exact (hsub.eq_of_length (hperm.filter _).length_eq.symm).symm

end Session

/-! ## Views -/

/-- **What a view tells of an item** under a query, or without one. -/
structure View.Shows (query : Option Query) (i : Item) (v : View) : Prop where
  identity_eq : v.identity = i.identity
  current_eq : v.current = i.current
  verdict_eq : v.verdict = i.verdict
  isChanged_iff : v.isChanged = true ↔ i.current ≠ i.identity
  firstLine_eq : v.firstLine = i.ied.firstLine
  secondLine_eq : v.secondLine = i.ied.secondLine
  /-- A query decides on the text with the name that is proposed now. -/
  visible_iff : v.visible = true ↔
    ∀ q, query = some q → q.test (i.ied.searchableText i.current) = true

theorem Item.shows_view (query : Option Query) (i : Item) : (i.view query).Shows query i where
  identity_eq := rfl
  current_eq := rfl
  verdict_eq := rfl
  isChanged_iff := bne_iff_ne
  firstLine_eq := rfl
  secondLine_eq := rfl
  visible_iff := Option.all_eq_true ..

theorem Session.forall₂_shows_views (s : Session) (query : Option Query) :
    List.Forall₂ (View.Shows query) (displayOrder s.items) (s.views query) := by
  rw [views, List.forall₂_map_right_iff]
  exact List.forall₂_same.mpr fun i _ => i.shows_view query

namespace Editor

/-! ## Within a session -/

/-- Within a session the records stay the same. -/
theorem exists_record_of_not_startsAnew {step : Step} (h : ¬ step.StartsAnew) (l : Ledger) :
    ∃ l', step.record (some l) = some l' ∧ l'.records = l.records := by
  cases step with
  | load records => exact ⟨l, dif_neg h, rfl⟩
  | close => exact absurd trivial h
  | propose identity value =>
    by_cases hknown : identity ∈ l.identities
    · exact ⟨l.write identity value, by rw [Step.record, Option.map_some, if_pos hknown], rfl⟩
    · exact ⟨l, by rw [Step.record, Option.map_some, if_neg hknown], rfl⟩
  | item | views | commit | allValid | pending | isCommittable => exact ⟨l, rfl, rfl⟩

/-- **After steps that start no other session** the records are the same. -/
theorem exists_ledger_of_not_startsAnew {steps more : List Step} {l : Ledger}
    (hl : ledgerOf steps = some l) (within : ∀ step ∈ more, ¬ step.StartsAnew) :
    ∃ l', ledgerOf (steps ++ more) = some l' ∧ l'.records = l.records := by
  induction more generalizing steps l with
  | nil => exact ⟨l, by rwa [List.append_nil], rfl⟩
  | cons step more ih =>
    obtain ⟨hstep, hmore⟩ := List.forall_mem_cons.mp within
    obtain ⟨l₁, hl₁, hrecords₁⟩ := exists_record_of_not_startsAnew hstep l
    have hnext : ledgerOf (steps ++ [step]) = some l₁ := by
      rw [ledgerOf, List.foldl_append, ← ledgerOf, hl]
      exact hl₁
    obtain ⟨l₂, hl₂, hrecords₂⟩ := ih hnext hmore
    rw [List.append_cons]
    exact ⟨l₂, hl₂, hrecords₂.trans hrecords₁⟩

/-- An editor that holds a session shows its views. -/
theorem views_of_session {e : Editor} {s : Session} (held : e.session = some s)
    (query : Option Query) :
    e.views query = .ok (s.views query) := by
  simp only [views, require, held]
  rfl

end Editor

/-- The identities in display order are told by the records. -/
theorem Ledger.map_identity_views (l : Ledger) (query : Option Query) :
    (l.session.views query).map (·.identity) = l.displayed.map (·.name) := by
  rw [views_session, List.map_map]
  rfl

namespace Editor

/-- **Every item has its row.** In every session that a run leaves, under every query and without
one, there is one view for each item, and it tells what the item holds now and whether its text
passes. The views are in the order of the folded keys, and those with equal keys in load order. The
rows are the same, in the same order, after all steps that neither close the session nor start
another one, and under every other query. -/
theorem displayed_of_run {steps : List Step} {s : Session} (held : (run {} steps).session = some s)
    (query : Option Query) :
    ∃ items vs, s.InDisplayOrder items ∧ List.Forall₂ (View.Shows query) items vs ∧
      (run {} steps).views query = .ok vs ∧
      ∀ more, (∀ step ∈ more, ¬ step.StartsAnew) → ∀ query', ∃ vs',
        (run {} (steps ++ more)).views query' = .ok vs' ∧ vs'.map (·.identity) =
          vs.map (·.identity) := by
  refine ⟨_, _, s.inDisplayOrder_displayOrder, s.forall₂_shows_views query,
    views_of_session held query, ?_⟩
  intro more within query'
  obtain ⟨l, hl, rfl⟩ := exists_ledger_of_run held
  obtain ⟨l', hl', hrecords⟩ := exists_ledger_of_not_startsAnew hl within
  have held' : (run {} (steps ++ more)).session = some l'.session := by
    rw [session_run (steps ++ more), hl', Option.map_some]
  refine ⟨_, views_of_session held' query', ?_⟩
  rw [Ledger.map_identity_views, Ledger.map_identity_views, Ledger.displayed,
    Ledger.displayed, hrecords]

/-- A run over three IEDs, two of which have makers that differ in case only. -/
def streetSteps : List Step :=
  [.load [{ name := "A", manufacturer := "Straße" }, { name := "B", manufacturer := "STRASSE" },
    { name := "C", manufacturer := "Markt" }], .propose "A" "X"]

/-- The session that it leaves. -/
def street : Session :=
  ⟨[{ ied := { name := "A", manufacturer := "Straße" }, current := "X", pending := true },
    { ied := { name := "B", manufacturer := "STRASSE" }, current := "B" },
    { ied := { name := "C", manufacturer := "Markt" }, current := "C" }], true⟩

/-- The last IED comes first, and the other two have one key. -/
theorem displayOrder_street :
    Session.displayOrder street.items = [street.items[2], street.items[0], street.items[1]] := by
  have hsame : Unicode.codeLe (Session.foldedKey street.items[0])
    (Session.foldedKey street.items[1]) = true := by
    decide +kernel
  have hlast : Unicode.codeLe (Session.foldedKey street.items[0])
    (Session.foldedKey street.items[2]) = false := by
    decide +kernel
  show Session.displayOrder [street.items[0], street.items[1], street.items[2]] = _
  simp [Session.displayOrder, List.mergeSort, hsame, hlast]

theorem displayed_of_street :
    (run {} streetSteps).session = some street ∧
    ∃ items vs, street.InDisplayOrder items ∧
      List.Forall₂ (View.Shows (some (.compile "x"))) items vs ∧
      (run {} streetSteps).views (some (.compile "x")) = .ok vs ∧
      vs.map (fun v => (v.identity, v.visible)) = [("C", false), ("A", true), ("B", false)] ∧
      ∃ vs', (run {} (streetSteps ++ [.propose "C" "X"])).views none = .ok vs' ∧
        vs'.map (·.identity) = ["C", "A", "B"] := by
  have held : (run {} streetSteps).session = some street := by decide
  obtain ⟨items, vs, horder, hshows, hviews, hsame⟩ := displayed_of_run held (some (.compile "x"))
  have hvisible : vs.map (fun v => (v.identity, v.visible)) =
    [("C", false), ("A", true), ("B", false)] := by
    rw [Except.ok.inj (hviews.symm.trans (views_of_session held _)), Session.views,
      displayOrder_street]
    decide +kernel
  have within : ∀ step ∈ [Step.propose "C" "X"], ¬ step.StartsAnew :=
    List.forall_mem_singleton.mpr id
  obtain ⟨vs', hviews', hrows⟩ := hsame _ within none
  refine ⟨held, items, vs, horder, hshows, hviews, hvisible, vs', hviews', ?_⟩
  have hidentities := congrArg (List.map Prod.fst) hvisible
  rw [List.map_map] at hidentities
  exact hrows.trans hidentities

end Editor

end StationNaming
