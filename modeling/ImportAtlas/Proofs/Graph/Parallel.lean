import ImportAtlas.Proofs.Graph.Answers
import Mathlib.Data.Finset.Card

/-!
# Parallel edges

Linking compares the edges that the imports ask for with those that were there before, but not with each
other. Imports are told apart by their places and roots, vertices by their places alone. So a file that
imports one place under two roots is joined to the vertex there by two edges. That is the only way in
which parallel edges come about: in every graph that changes lead to, two vertices that are joined at all
are joined by as many edges as the first one's imports have the place of the second. If all files import
each place once, no edge is repeated, and edges can be counted as pairs of vertices.

Main definitions:

* `ImportAtlas.Graph.Counted` — two vertices are joined as often as the first imports the second;
* `ImportAtlas.Graph.ImportsOnce` — all files that were added import each place once.

Main results:

* `ImportAtlas.Graph.counted_ofChanges` — graphs are counted, whatever changes lead to them;
* `ImportAtlas.Graph.Table.Reached.count_edges_eq` — **how many edges join two vertices of a table**;
* `ImportAtlas.Graph.Table.Reached.edges_as_pairs` — **if each place is imported once, edges are pairs**;
* `ImportAtlas.Graph.Table.parallel_edges_under_two_roots` — a file that imports a place under two roots.
-/

set_option autoImplicit false

namespace ImportAtlas.Graph

variable {g : Graph}

/-! ### How often two places are joined -/

/-- If only one part of a list holds an element, the whole holds it as often as that part. -/
theorem count_flatMap_of_unique {α β : Type} [BEq β] [LawfulBEq β] {l : List α} {f : α → List β}
    {a : α} {b : β} (hl : l.Nodup) (ha : a ∈ l) (h : ∀ c ∈ l, b ∈ f c → c = a) :
    (l.flatMap f).count b = (f a).count b := by
  induction l with
  | nil => cases ha
  | cons c l ih =>
      obtain ⟨hc, hl⟩ := List.nodup_cons.1 hl
      rw [List.flatMap_cons, List.count_append]
      rcases List.mem_cons.1 ha with rfl | ha
      · -- the other parts do not hold it
        have hrest : b ∉ l.flatMap f := by
          intro hmem
          obtain ⟨c, hcl, hb⟩ := List.mem_flatMap.1 hmem
          obtain rfl := h c (by simp [hcl]) hb
          exact hc hcl
        rw [List.count_eq_zero.2 hrest, Nat.add_zero]
      · have hfirst : b ∉ f c := by
          intro hb
          obtain rfl := h c (by simp) hb
          exact hc ha
        rw [List.count_eq_zero.2 hfirst, Nat.zero_add, ih hl ha fun c hc => h c (by simp [hc])]

/-- Two places that are joined are joined as often as the file at the first imports the second. -/
def Counted (g : Graph) : Prop :=
  ∀ f ∈ g.files, ∀ p, (f.path.abs, p) ∈ g.edges →
    g.edges.count (f.path.abs, p) = (f.imports.toList.map (·.abs)).count p

theorem counted_empty : Counted {} := by
  intro f hf
  cases hf

theorem Counted.remove (hg : g.Counted) (p : RealPath) : (g.remove p).Counted := by
  intro f hf q hq
  obtain ⟨hmem, h₁, h₂⟩ := mem_edges_remove.1 hq
  rw [Graph.remove, List.count_filter (by simpa using ⟨h₁, h₂⟩)]
  exact hg f (mem_files_remove.1 hf).1 q hmem

theorem Counted.add (hg : g.Counted) (f : SourceFile) : (g.add f).Counted := by
  intro k hk q hq
  rcases mem_files_add.1 hk with rfl | ⟨hk, hne⟩
  · -- a file that was just added has no edges
    exact absurd rfl (mem_edges_remove.1 hq).2.1
  · exact hg.remove f.path.abs k (mem_files_remove.2 ⟨hk, hne⟩) q hq

/-- Linking makes one edge for each import of a place that was not joined before. -/
theorem Consistent.count_newEdges (hg : g.Consistent) {f : SourceFile} (hf : f ∈ g.files) {p : RealPath}
    (hp : p ∈ g.places) (he : (f.path.abs, p) ∉ g.edges) :
    g.newEdges.count (f.path.abs, p) = (f.imports.toList.map (·.abs)).count p := by
  have hunique : ∀ k ∈ g.files, (f.path.abs, p) ∈ g.missingEdges k → k = f := by
    intro k hk hmem
    exact hg.file_eq hk hf (mem_missingEdges.1 hmem).1
  rw [newEdges, count_flatMap_of_unique hg.nodup_places.of_map hf hunique, missingEdges_eq,
    List.count_map_of_injective _ _ (Prod.mk_right_injective _), List.count_filter]
  simpa [contains_iff] using ⟨hp, he⟩

theorem Counted.link (hc : g.Counted) (hg : g.Consistent) : g.link.value.1.Counted := by
  intro f hf p hp
  rw [edges_link, List.count_append]
  by_cases he : (f.path.abs, p) ∈ g.edges
  · have hnew : (f.path.abs, p) ∉ g.newEdges := fun hmem => (mem_newEdges.1 hmem).2 he
    rw [List.count_eq_zero.2 hnew, Nat.add_zero, hc f hf p he]
  · have hplace : p ∈ g.places := ((mem_edges_link.1 hp).resolve_left he).2
    rw [List.count_eq_zero.2 he, Nat.zero_add, hg.count_newEdges hf hplace he]

theorem Change.counted_apply (hc : g.Counted) (hg : g.Consistent) (c : Change) :
    (c.apply g).Counted := by
  cases c with
  | add f => exact hc.add f
  | remove path =>
      rw [Change.apply]
      split
      · exact hc.remove _
      · exact hc
  | link => exact hc.link hg

/-- Graphs are counted, whatever changes lead to them. -/
theorem counted_ofChanges (changes : List Change) : (ofChanges changes).Counted := by
  induction changes using List.reverseRecOn with
  | nil => exact counted_empty
  | append_singleton changes c ih =>
      rw [ofChanges_concat]
      exact Change.counted_apply ih (consistent_ofChanges changes) c

/-! ### Files that import each place once -/

/-- All files that changes add import each place once. -/
def ImportsOnce (changes : List Change) : Prop :=
  ∀ f, Change.add f ∈ changes → (f.imports.toList.map (·.abs)).Nodup

theorem nodup_edges_ofChanges {changes : List Change} (h : ImportsOnce changes) :
    (ofChanges changes).edges.Nodup := by
  refine List.nodup_iff_count_le_one.2 fun e => ?_
  by_cases he : e ∈ (ofChanges changes).edges
  · obtain ⟨⟨f, hf, hfe, -⟩, -⟩ := (consistent_ofChanges changes).due_of_mem e he
    obtain ⟨u, v⟩ := e
    obtain rfl : f.path.abs = u := hfe
    -- the file at the source was added by one of the changes
    obtain ⟨before, later, rfl, -⟩ := mem_files_ofChanges.1 hf
    rw [counted_ofChanges _ f hf v he]
    exact List.nodup_iff_count_le_one.1 (h f (by simp)) v
  · rw [List.count_eq_zero.2 he]
    exact Nat.zero_le 1

/-- Different edges are listed differently. -/
theorem nodup_listed {edges : List (RealPath × RealPath)} (h : edges.Nodup) :
    (Order.sort (edges.filterMap g.edge?)).Nodup := by
  refine (Order.perm_sort _).nodup_iff.2 (h.filterMap fun e e' k hk hk' => ?_)
  obtain ⟨h₁, h₂⟩ := abs_of_edge?_eq_some hk
  obtain ⟨h₁', h₂'⟩ := abs_of_edge?_eq_some hk'
  exact Prod.ext (h₁.symm.trans h₁') (h₂.symm.trans h₂')

namespace Table

variable {t : Table} {changes : List Change}

/-! ### Tables -/

/-- Related elements occur equally often in related lists. -/
theorem count_eq_of_forall₂ {α β : Type} [BEq α] [LawfulBEq α] [BEq β] [LawfulBEq β]
    {R : α → β → Prop} (hR : Relator.BiUnique R) {l : List α} {m : List β} (h : List.Forall₂ R l m)
    {a : α} {b : β} (hab : R a b) : l.count a = m.count b := by
  induction h with
  | nil => rfl
  | @cons a' b' l m hab' _ ih =>
      have hsame : (a' == a) = (b' == b) := by
        rw [Bool.eq_iff_iff, beq_iff_eq, beq_iff_eq]
        constructor
        · rintro rfl
          exact hR.2 hab' hab
        · rintro rfl
          exact hR.1 hab' hab
      rw [List.count_cons, List.count_cons, ih, hsame]

/-- **How many edges join two vertices of a table**, if any: as many as the imports of the first have the
place of the second. -/
theorem Reached.count_edges_eq (h : Reached changes t) {i j : Nat} {f k : SourceFile}
    (hf : t.vertex? i = some f) (hk : t.vertex? j = some k) (he : (i, j) ∈ t.edges) :
    t.edges.count (i, j) = (f.imports.toList.map (·.abs)).count k.path.abs := by
  have hs := h.standsFor
  have hg := consistent_ofChanges changes
  have hjoins : t.Joins (i, j) (f.path.abs, k.path.abs) :=
    ⟨⟨f, hs.vertex?_eq_some_iff.1 hf, rfl⟩, ⟨k, hs.vertex?_eq_some_iff.1 hk, rfl⟩⟩
  have hmem : f ∈ (ofChanges changes).files := by
    rw [← hs.files_eq]
    exact List.mem_map.2 ⟨(i, f), hs.vertex?_eq_some_iff.1 hf, rfl⟩
  have hedge := (List.rel_mem (hs.biUnique_joins hg) hjoins hs.joins).1 he
  rw [count_eq_of_forall₂ (hs.biUnique_joins hg) hs.joins hjoins,
    counted_ofChanges changes f hmem _ hedge]

theorem Reached.nodup_edges (h : Reached changes t) (honce : ImportsOnce changes) : t.edges.Nodup :=
  (List.rel_nodup (h.standsFor.biUnique_joins (consistent_ofChanges changes)) h.standsFor.joins).2
    (nodup_edges_ofChanges honce)

/-- **If each place is imported once, edges are pairs**: there are as many as pairs of joined vertices,
none is listed twice at a place, and linking makes one for each pair that it joins anew. -/
theorem Reached.edges_as_pairs (h : Reached changes t) (honce : ImportsOnce changes) :
    t.edges.Nodup ∧ t.edgeCount = t.edges.toFinset.card ∧
      (∀ p, (t.outgoing p).Nodup ∧ (t.incoming p).Nodup) ∧
      t.link.value.2 = (t.link.value.1.edges.toFinset \ t.edges.toFinset).card := by
  have hg := consistent_ofChanges changes
  have hnodup := h.nodup_edges honce
  refine ⟨hnodup, (List.toFinset_card_of_nodup hnodup).symm, ?_, ?_⟩
  · intro p
    have hlisted := nodup_edges_ofChanges honce
    rw [h.standsFor.outgoing_eq hg, h.standsFor.incoming_eq hg]
    exact ⟨nodup_listed (hlisted.filter _), nodup_listed (hlisted.filter _)⟩
  · have honce' : ImportsOnce (changes ++ [.link]) := by
      intro f hf
      exact honce f (by simpa using hf)
    have hlinked : (t.edges ++ t.newEdges).Nodup := h.link.nodup_edges honce'
    obtain ⟨-, hnew, hdisjoint⟩ := List.nodup_append'.1 hlinked
    have hdiff : (t.edges ++ t.newEdges).toFinset \ t.edges.toFinset = t.newEdges.toFinset := by
      ext e
      simp only [Finset.mem_sdiff, List.mem_toFinset, List.mem_append]
      constructor
      · rintro ⟨he, hn⟩
        exact he.resolve_left hn
      · intro he
        exact ⟨.inr he, fun hold => hdisjoint hold he⟩
    change t.newEdges.length = ((t.edges ++ t.newEdges).toFinset \ t.edges.toFinset).card
    rw [hdiff, List.toFinset_card_of_nodup hnew]

/-- A file that imports one place under two roots. -/
def twoRoots : SourceFile := ⟨⟨.of ["a"], []⟩, .ofList [⟨.of ["b"], []⟩, ⟨.of ["b"], .of ["c"]⟩], true⟩

/-- A table of that file and the one that it imports. -/
def twoRootsTable : Table := (({} : Table).add 0 twoRoots).add 1 (importing (.of ["b"]) [])

/-- Linking joins the two files by two edges, and counts both. -/
theorem parallel_edges_under_two_roots :
    Reached [.add twoRoots, .add (importing (.of ["b"]) [])] twoRootsTable ∧
      twoRoots.imports.toList = [⟨.of ["b"], []⟩, ⟨.of ["b"], .of ["c"]⟩] ∧ twoRootsTable.edges = [] ∧
      twoRootsTable.link.value.2 = 2 ∧ twoRootsTable.link.value.1.edges = [(0, 1), (0, 1)] ∧
      ¬(twoRootsTable.link.value.1.outgoing (.of ["a"])).Nodup :=
  ⟨(Reached.start.add (by decide)).add (by decide), by decide, rfl, by decide, by decide, by decide⟩

end Table

end ImportAtlas.Graph
