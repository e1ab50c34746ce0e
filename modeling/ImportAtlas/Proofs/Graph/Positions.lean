import ImportAtlas.Graph.Table
import ImportAtlas.Proofs.Disk.Following
import ImportAtlas.Proofs.Graph.Directions
import ImportAtlas.Proofs.Graph.History
import Mathlib.Data.List.Forall2

/-!
# Tables and the graphs they stand for

A table *stands for* a graph if it has the graph's vertices, each at a position of its own, if its
index gives for each place the position of the vertex there and nothing else, and if its edges join the
positions of the vertices that the edges of the graph join. Every change to a table that stands for a
graph is the same change to the graph, whichever free positions new vertices are given. So a table that
was reached by some changes stands for the graph that these changes lead to.

Main definitions:

* `ImportAtlas.Graph.Table.HoldsAt` — the vertex at a position has a place;
* `ImportAtlas.Graph.Table.StandsFor` — a table stands for a graph;
* `ImportAtlas.Graph.Table.Reached` — a table that some changes to the empty table lead to.

Main results:

* `ImportAtlas.Graph.Table.StandsFor.remove`, `ImportAtlas.Graph.Table.StandsFor.add`,
  `ImportAtlas.Graph.Table.StandsFor.link` — what each change does;
* `ImportAtlas.Graph.Table.Reached.standsFor` — **a table stands for the graph after the same
  changes**;
* `ImportAtlas.Graph.Table.exists_reached` — all changes lead to a table.
-/

set_option autoImplicit false

namespace ImportAtlas.Graph

/-- Removing what is not there changes nothing. -/
theorem Consistent.remove_eq_self {g : Graph} (hg : g.Consistent) {p : RealPath} (hp : p ∉ g.places) :
    g.remove p = g := by
  have hfiles : ∀ f ∈ g.files, f.path.abs ≠ p := by
    rintro f hf rfl
    exact hp (mem_places.2 ⟨f, hf, rfl⟩)
  have hedges : ∀ e ∈ g.edges, e.1 ≠ p ∧ e.2 ≠ p := by
    intro e he
    obtain ⟨⟨f, hf, hfe, -⟩, hdest⟩ := hg.due_of_mem e he
    refine ⟨hfe ▸ hfiles f hf, ?_⟩
    rintro rfl
    exact hp hdest
  rw [Graph.remove, List.filter_eq_self.2 (by simpa using hfiles),
    List.filter_eq_self.2 (by simpa using hedges)]

namespace Table

variable {t : Table} {g : Graph}

/-- The vertex at a position has a place. -/
def HoldsAt (t : Table) (i : Nat) (p : RealPath) : Prop :=
  ∃ f, (i, f) ∈ t.vertices ∧ f.path.abs = p

/-- An edge between positions joins the vertices for two places. -/
def Joins (t : Table) (e : Nat × Nat) (d : RealPath × RealPath) : Prop :=
  t.HoldsAt e.1 d.1 ∧ t.HoldsAt e.2 d.2

/-- A table has the vertices and the edges of a graph, with an index of exactly these vertices. -/
structure StandsFor (t : Table) (g : Graph) : Prop where
  files_eq : t.files = g.files
  nodup_positions : (t.vertices.map Prod.fst).Nodup
  nodup_keys : (t.index.map Prod.fst).Nodup
  mem_index_iff : ∀ p i, (p, i) ∈ t.index ↔ t.HoldsAt i p
  joins : List.Forall₂ t.Joins t.edges g.edges

theorem standsFor_empty : StandsFor {} {} where
  files_eq := rfl
  nodup_positions := List.nodup_nil
  nodup_keys := List.nodup_nil
  mem_index_iff := by simp [HoldsAt]
  joins := List.Forall₂.nil

namespace StandsFor

/-! ### Positions and places -/

theorem vertex?_eq_some_iff (h : t.StandsFor g) {i : Nat} {f : SourceFile} :
    t.vertex? i = some f ↔ (i, f) ∈ t.vertices :=
  lookup_eq_some_iff h.nodup_positions

theorem position?_eq_some_iff (h : t.StandsFor g) {p : RealPath} {i : Nat} :
    t.position? p = some i ↔ t.HoldsAt i p :=
  (lookup_eq_some_iff h.nodup_keys).trans (h.mem_index_iff p i)

theorem mem_places_iff (h : t.StandsFor g) {p : RealPath} : p ∈ g.places ↔ ∃ i, t.HoldsAt i p := by
  rw [mem_places, ← h.files_eq, files]
  constructor
  · rintro ⟨f, hf, hp⟩
    obtain ⟨⟨i, f⟩, hv, rfl⟩ := List.mem_map.1 hf
    exact ⟨i, f, hv, hp⟩
  · rintro ⟨i, f, hv, hp⟩
    exact ⟨f, List.mem_map.2 ⟨(i, f), hv, rfl⟩, hp⟩

theorem position?_eq_none_iff (h : t.StandsFor g) {p : RealPath} :
    t.position? p = none ↔ p ∉ g.places := by
  rw [h.mem_places_iff, Option.eq_none_iff_forall_ne_some]
  simp only [ne_eq, h.position?_eq_some_iff, not_exists]

/-- Positions and places of vertices determine each other. -/
theorem biUnique_holdsAt (h : t.StandsFor g) (hg : g.Consistent) : Relator.BiUnique t.HoldsAt := by
  constructor
  · -- no two vertices have one place
    have hplaces : (t.vertices.map fun v => v.2.path.abs).Nodup := by
      have hnodup := hg.nodup_places
      rw [places, ← h.files_eq, files, List.map_map] at hnodup
      exact hnodup
    rintro i p j ⟨f, hf, hp⟩ ⟨k, hk, hkp⟩
    exact congrArg Prod.fst (List.inj_on_of_nodup_map hplaces hf hk (hp.trans hkp.symm))
  · -- no two vertices have one position
    rintro i p q ⟨f, hf, rfl⟩ ⟨k, hk, rfl⟩
    exact congrArg (·.2.path.abs) (List.inj_on_of_nodup_map h.nodup_positions hf hk rfl)

/-- Two vertices have one position if and only if they have one place. -/
theorem position_eq_iff (h : t.StandsFor g) (hg : g.Consistent) {i j : Nat} {p q : RealPath}
    (hip : t.HoldsAt i p) (hjq : t.HoldsAt j q) : j = i ↔ q = p := by
  obtain ⟨hleft, hright⟩ := h.biUnique_holdsAt hg
  constructor
  · rintro rfl
    exact hright hjq hip
  · rintro rfl
    exact hleft hjq hip

theorem biUnique_joins (h : t.StandsFor g) (hg : g.Consistent) : Relator.BiUnique t.Joins := by
  obtain ⟨hleft, hright⟩ := h.biUnique_holdsAt hg
  constructor
  · rintro e d e' ⟨h₁, h₂⟩ ⟨h₁', h₂'⟩
    exact Prod.ext (hleft h₁ h₁') (hleft h₂ h₂')
  · rintro e d d' ⟨h₁, h₂⟩ ⟨h₁', h₂'⟩
    exact Prod.ext (hright h₁ h₁') (hright h₂ h₂')

/-! ### Changes -/

/-- What is left at a position after the vertex at position `i` is taken away. -/
theorem holdsAt_filter {i j : Nat} {p : RealPath} {edges : List (Nat × Nat)}
    {index : List (RealPath × Nat)} :
    HoldsAt ⟨t.vertices.filter (·.1 ≠ i), edges, index⟩ j p ↔ t.HoldsAt j p ∧ j ≠ i := by
  simp only [HoldsAt, List.mem_filter, ne_eq, decide_not, Bool.not_eq_true', decide_eq_false_iff_not]
  constructor
  · rintro ⟨f, ⟨hf, hj⟩, hp⟩
    exact ⟨⟨f, hf, hp⟩, hj⟩
  · rintro ⟨⟨f, hf, hp⟩, hj⟩
    exact ⟨f, ⟨hf, hj⟩, hp⟩

/-- The edges that do not touch a position are those that do not touch its place. -/
theorem forall₂_filter_edges (h : t.StandsFor g) (hg : g.Consistent) {i : Nat} {p : RealPath}
    (hip : t.HoldsAt i p) :
    List.Forall₂ (fun e d => (e.1 ≠ i ∧ e.2 ≠ i) ∧ t.Joins e d)
      (t.edges.filter fun e => e.1 ≠ i ∧ e.2 ≠ i) (g.edges.filter fun d => d.1 ≠ p ∧ d.2 ≠ p) := by
  refine (List.forall₂_and_left _ _).2 ⟨?_, List.rel_filter ?_ h.joins⟩
  · intro e he
    simpa using (List.mem_filter.1 he).2
  · rintro e d ⟨h₁, h₂⟩
    simp only [ne_eq, decide_eq_true_eq, h.position_eq_iff hg hip h₁, h.position_eq_iff hg hip h₂]

/-- Removing a place from a table is removing it from the graph. -/
theorem remove (h : t.StandsFor g) (hg : g.Consistent) (p : RealPath) :
    (t.remove p).StandsFor (g.remove p) := by
  rw [Table.remove]
  split
  · next hnone =>
      rw [hg.remove_eq_self (h.position?_eq_none_iff.1 hnone)]
      exact h
  · next i hi =>
      have hip : t.HoldsAt i p := h.position?_eq_some_iff.1 hi
      constructor
      · change (t.vertices.filter (·.1 ≠ i)).map Prod.snd = g.files.filter (·.path.abs ≠ p)
        rw [← h.files_eq, files, List.filter_map]
        refine congrArg _ (List.filter_congr fun v hv => decide_eq_decide.2 ?_)
        exact not_congr (h.position_eq_iff hg hip ⟨v.2, hv, rfl⟩)
      · exact h.nodup_positions.sublist (List.filter_sublist.map _)
      · exact h.nodup_keys.sublist (List.filter_sublist.map _)
      · intro q j
        rw [holdsAt_filter, List.mem_filter, h.mem_index_iff]
        refine and_congr_right fun hjq => ?_
        simp [h.position_eq_iff hg hip hjq]
      · refine (h.forall₂_filter_edges hg hip).imp ?_
        rintro e d ⟨⟨hi₁, hi₂⟩, h₁, h₂⟩
        exact ⟨holdsAt_filter.2 ⟨h₁, hi₁⟩, holdsAt_filter.2 ⟨h₂, hi₂⟩⟩

theorem holdsAt_add {i j : Nat} {f : SourceFile} {q : RealPath} :
    (t.add i f).HoldsAt j q ↔
      (t.remove f.path.abs).HoldsAt j q ∨ (q = f.path.abs ∧ j = i) := by
  simp only [HoldsAt, Table.add, List.mem_append, List.mem_singleton, Prod.mk.injEq]
  constructor
  · rintro ⟨k, hk | ⟨rfl, rfl⟩, rfl⟩
    · exact Or.inl ⟨k, hk, rfl⟩
    · exact Or.inr ⟨rfl, rfl⟩
  · rintro (⟨k, hk, rfl⟩ | ⟨rfl, rfl⟩)
    · exact ⟨k, Or.inl hk, rfl⟩
    · exact ⟨f, Or.inr ⟨rfl, rfl⟩, rfl⟩

/-- Adding a file to a table at a free position is adding it to the graph. -/
theorem add (h : t.StandsFor g) (hg : g.Consistent) {f : SourceFile} {i : Nat}
    (hi : (t.remove f.path.abs).vertex? i = none) : (t.add i f).StandsFor (g.add f) := by
  have hr := h.remove hg f.path.abs
  have hplace : f.path.abs ∉ (g.remove f.path.abs).places := by
    rw [mem_places]
    rintro ⟨k, hk, hkf⟩
    exact (mem_files_remove.1 hk).2 hkf
  have hfree : i ∉ (t.remove f.path.abs).vertices.map Prod.fst := by
    intro hmem
    obtain ⟨⟨j, k⟩, hk, rfl⟩ := List.mem_map.1 hmem
    rw [hr.vertex?_eq_some_iff.2 hk] at hi
    exact absurd hi (by simp)
  constructor
  · change ((t.remove f.path.abs).vertices ++ [(i, f)]).map Prod.snd = _
    rw [List.map_append]
    exact congrArg (· ++ [f]) hr.files_eq
  · change (((t.remove f.path.abs).vertices ++ [(i, f)]).map Prod.fst).Nodup
    rw [List.map_append]
    exact List.Nodup.append hr.nodup_positions (by simp) (by simpa using hfree)
  · refine List.nodup_cons.2 ⟨?_, hr.nodup_keys⟩
    intro hmem
    obtain ⟨⟨q, j⟩, hj, hq⟩ := List.mem_map.1 hmem
    obtain rfl : q = f.path.abs := hq
    exact hplace (hr.mem_places_iff.2 ⟨j, (hr.mem_index_iff _ _).1 hj⟩)
  · intro q j
    rw [holdsAt_add, ← hr.mem_index_iff]
    change (q, j) ∈ (f.path.abs, i) :: (t.remove f.path.abs).index ↔ _
    rw [List.mem_cons, Prod.mk.injEq, or_comm]
  · refine hr.joins.imp ?_
    rintro e d ⟨h₁, h₂⟩
    exact ⟨holdsAt_add.2 (Or.inl h₁), holdsAt_add.2 (Or.inl h₂)⟩

/-- An import asks for an edge of the table exactly if it asks for the same edge of the graph. -/
theorem rel_missingEdge? (h : t.StandsFor g) (hg : g.Consistent) {v : Nat × SourceFile}
    (hv : v ∈ t.vertices) (imported : FileRef) :
    Option.Rel t.Joins (t.missingEdge? v.1 imported)
      (if g.contains imported.abs ∧ (v.2.path.abs, imported.abs) ∉ g.edges then
        some (v.2.path.abs, imported.abs) else none) := by
  rw [missingEdge?]
  split
  · next j hj =>
      have hjoin : t.Joins (v.1, j) (v.2.path.abs, imported.abs) :=
        ⟨⟨v.2, hv, rfl⟩, h.position?_eq_some_iff.1 hj⟩
      have hmem : g.contains imported.abs = true :=
        contains_iff.2 (h.mem_places_iff.2 ⟨j, hjoin.2⟩)
      have hedge := List.rel_mem (h.biUnique_joins hg) hjoin h.joins
      by_cases he : (v.1, j) ∈ t.edges
      · rw [if_pos he, if_neg fun hc => hc.2 (hedge.1 he)]
        exact Option.Rel.none
      · rw [if_neg he, if_pos ⟨hmem, fun hc => he (hedge.2 hc)⟩]
        exact Option.Rel.some hjoin
  · next hnone =>
      rw [if_neg fun hc => h.position?_eq_none_iff.1 hnone (contains_iff.1 hc.1)]
      exact Option.Rel.none

theorem forall₂_newEdges (h : t.StandsFor g) (hg : g.Consistent) :
    List.Forall₂ t.Joins t.newEdges g.newEdges := by
  rw [newEdges, Graph.newEdges, ← h.files_eq, files, List.flatMap_map]
  refine List.rel_flatMap (R := fun v w => v = w ∧ v ∈ t.vertices)
    (List.forall₂_same.2 fun v hv => ⟨rfl, hv⟩) ?_
  rintro v _ ⟨rfl, hv⟩
  refine List.rel_filterMap (R := Eq) ?_ (List.forall₂_same.2 fun _ _ => rfl)
  rintro imported _ rfl
  exact h.rel_missingEdge? hg hv imported

/-- Linking a table is linking the graph. -/
theorem link (h : t.StandsFor g) (hg : g.Consistent) :
    t.link.value.1.StandsFor g.link.value.1 where
  files_eq := h.files_eq
  nodup_positions := h.nodup_positions
  nodup_keys := h.nodup_keys
  mem_index_iff := h.mem_index_iff
  joins := List.rel_append h.joins (h.forall₂_newEdges hg)

end StandsFor

/-! ### Histories -/

/-- A table that some changes to the empty table lead to. A new vertex may get any position that is
free once the vertex for its place is gone. -/
inductive Reached : List Change → Table → Prop
  | start : Reached [] {}
  | add {changes : List Change} {t : Table} (before : Reached changes t) {i : Nat} {f : SourceFile}
      (free : (t.remove f.path.abs).vertex? i = none) : Reached (changes ++ [.add f]) (t.add i f)
  | remove {changes : List Change} {t : Table} (before : Reached changes t) {path : Path}
      {p : RealPath} (named : path.real? = some p) :
      Reached (changes ++ [.remove path]) (t.remove p)
  | removeNothing {changes : List Change} {t : Table} (before : Reached changes t) {path : Path}
      (nameless : path.real? = none) : Reached (changes ++ [.remove path]) t
  | link {changes : List Change} {t : Table} (before : Reached changes t) :
      Reached (changes ++ [.link]) t.link.value.1

/-- **A table stands for the graph after the same changes.** -/
theorem Reached.standsFor {changes : List Change} (h : Reached changes t) :
    t.StandsFor (ofChanges changes) := by
  induction h with
  | start => exact standsFor_empty
  | @add changes t _ i f free ih =>
      rw [ofChanges_concat]
      exact ih.add (consistent_ofChanges changes) free
  | @remove changes t _ path p named ih =>
      rw [ofChanges_concat, Change.apply, named]
      exact ih.remove (consistent_ofChanges changes) p
  | @removeNothing changes t _ path nameless ih =>
      rw [ofChanges_concat, Change.apply, nameless]
      exact ih
  | @link changes t _ ih =>
      rw [ofChanges_concat]
      exact ih.link (consistent_ofChanges changes)

/-- Some position is free. -/
theorem exists_vertex?_eq_none (t : Table) : ∃ i, t.vertex? i = none := by
  obtain ⟨n, hn⟩ : ∃ n, ∀ v ∈ t.vertices, v.1 < n := by
    induction t.vertices with
    | nil => exact ⟨0, by simp⟩
    | cons v vertices ih =>
        obtain ⟨n, hn⟩ := ih
        refine ⟨max (v.1 + 1) n, ?_⟩
        intro w hw
        rcases List.mem_cons.1 hw with rfl | hw
        · omega
        · have := hn w hw
          omega
  refine ⟨n, List.lookup_eq_none_iff.2 fun v hv => ?_⟩
  have hne : n ≠ v.1 := by
    have := hn v hv
    omega
  simpa using hne

/-- All changes lead to a table. -/
theorem exists_reached (changes : List Change) : ∃ t, Reached changes t := by
  induction changes using List.reverseRecOn with
  | nil => exact ⟨_, .start⟩
  | append_singleton changes c ih =>
      obtain ⟨t, ht⟩ := ih
      cases c with
      | add f =>
          obtain ⟨i, hi⟩ := exists_vertex?_eq_none (t.remove f.path.abs)
          exact ⟨_, ht.add hi⟩
      | remove path =>
          cases hp : path.real? with
          | none => exact ⟨_, ht.removeNothing hp⟩
          | some p => exact ⟨_, ht.remove hp⟩
      | link => exact ⟨_, ht.link⟩

end Table

end ImportAtlas.Graph
