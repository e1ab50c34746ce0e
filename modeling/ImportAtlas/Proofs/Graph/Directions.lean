import ImportAtlas.Proofs.Graph.Linking
import ImportAtlas.Proofs.Order
import Mathlib.Data.List.Perm.Basic

/-!
# The two directions of a graph

Each edge of a graph is listed twice: among the edges that leave its source, and among those that
arrive at its destination. Both lists hold it equally often. If the graph is consistent, each of its
edges is listed at a vertex, so the lists of all vertices together hold all edges, in one direction as
in the other.

Main results:

* `ImportAtlas.Graph.Consistent.find?_eq_some_iff` — looking up a place gives the vertex there;
* `ImportAtlas.Graph.count_outgoing_eq_count_incoming` — **an edge is listed equally often in both
  directions**;
* `ImportAtlas.Graph.Consistent.perm_flatMap_outgoing`,
  `ImportAtlas.Graph.Consistent.perm_flatMap_incoming` — **the lists of all vertices together hold all
  edges**.
-/

set_option autoImplicit false

namespace ImportAtlas.Graph

variable {g : Graph}

/-! ### Looking up -/

theorem mem_of_find?_eq_some {p : RealPath} {f : SourceFile} (h : g.find? p = some f) :
    f ∈ g.files ∧ f.path.abs = p :=
  ⟨List.mem_of_find?_eq_some h, by simpa using List.find?_some h⟩

/-- Looking up a place gives the vertex there. -/
theorem Consistent.find?_eq_some_iff (hg : g.Consistent) {p : RealPath} {f : SourceFile} :
    g.find? p = some f ↔ f ∈ g.files ∧ f.path.abs = p := by
  refine ⟨mem_of_find?_eq_some, ?_⟩
  rintro ⟨hf, hp⟩
  obtain ⟨h, hh⟩ : ∃ h, g.find? p = some h := by
    rw [← Option.isSome_iff_exists]
    exact contains_iff.2 (mem_places.2 ⟨f, hf, hp⟩)
  obtain ⟨hmem, hplace⟩ := mem_of_find?_eq_some hh
  rw [hh, hg.file_eq hmem hf (hplace.trans hp.symm)]

/-- An edge between two places joins the references of the vertices there. -/
theorem edge?_eq_some_iff {e : RealPath × RealPath} {k : Edge} :
    g.edge? e = some k ↔
      ∃ f h, g.find? e.1 = some f ∧ g.find? e.2 = some h ∧ k = ⟨f.path, h.path⟩ := by
  simp only [edge?, bind, Option.bind_eq_some_iff, pure, Option.some.injEq]
  constructor
  · rintro ⟨f, hf, h, hh, rfl⟩
    exact ⟨f, h, hf, hh, rfl⟩
  · rintro ⟨f, h, hf, hh, rfl⟩
    exact ⟨f, hf, h, hh, rfl⟩

theorem abs_of_edge?_eq_some {e : RealPath × RealPath} {k : Edge} (h : g.edge? e = some k) :
    k.source.abs = e.1 ∧ k.dest.abs = e.2 := by
  obtain ⟨f, h, hf, hh, rfl⟩ := edge?_eq_some_iff.1 h
  exact ⟨(mem_of_find?_eq_some hf).2, (mem_of_find?_eq_some hh).2⟩

/-- In a consistent graph there is a vertex at both ends of each edge. -/
theorem Consistent.exists_edge? (hg : g.Consistent) {e : RealPath × RealPath} (he : e ∈ g.edges) :
    ∃ k, g.edge? e = some k := by
  obtain ⟨⟨f, hf, hfe, -⟩, hp⟩ := hg.due_of_mem e he
  obtain ⟨h, hh, hhe⟩ := mem_places.1 hp
  exact ⟨_, edge?_eq_some_iff.2
    ⟨f, h, hg.find?_eq_some_iff.2 ⟨hf, hfe⟩, hg.find?_eq_some_iff.2 ⟨hh, hhe⟩, rfl⟩⟩

/-! ### An edge in both directions -/

/-- All edges as they are listed. -/
def listedEdges (g : Graph) : List Edge := g.edges.filterMap g.edge?

/-- Passing over what gives another result does not change how often a result is given. -/
theorem count_filterMap_filter {α β : Type} [DecidableEq β] {f : α → Option β} {q : α → Bool} {b : β}
    (h : ∀ a, f a = some b → q a = true) (l : List α) :
    ((l.filter q).filterMap f).count b = (l.filterMap f).count b := by
  rw [List.count_filterMap, List.count_filterMap, List.countP_filter]
  refine List.countP_congr fun a _ => ?_
  simp only [Bool.and_eq_true, beq_iff_eq, and_iff_left_iff_imp]
  exact h a

theorem count_outgoing (g : Graph) (k : Edge) :
    (g.outgoing k.source.abs).count k = g.listedEdges.count k := by
  rw [outgoing, List.Perm.count_eq (Order.perm_sort _) k, listedEdges]
  refine count_filterMap_filter ?_ g.edges
  intro e he
  simp [(abs_of_edge?_eq_some he).1]

theorem count_incoming (g : Graph) (k : Edge) :
    (g.incoming k.dest.abs).count k = g.listedEdges.count k := by
  rw [incoming, List.Perm.count_eq (Order.perm_sort _) k, listedEdges]
  refine count_filterMap_filter ?_ g.edges
  intro e he
  simp [(abs_of_edge?_eq_some he).2]

/-- **An edge is listed equally often in both directions.** -/
theorem count_outgoing_eq_count_incoming (g : Graph) (k : Edge) :
    (g.outgoing k.source.abs).count k = (g.incoming k.dest.abs).count k := by
  rw [count_outgoing, count_incoming]

/-! ### The edges of all vertices -/

/-- Sorting elements by keys and putting the parts together again keeps them all, if each key is taken
once. -/
theorem perm_flatMap_filter {α κ : Type} [DecidableEq κ] (key : α → κ) {keys : List κ}
    (hkeys : keys.Nodup) {l : List α} (hl : ∀ a ∈ l, key a ∈ keys) :
    (keys.flatMap fun k => l.filter (key · = k)).Perm l := by
  induction keys generalizing l with
  | nil =>
      have hnil : l = [] := List.eq_nil_iff_forall_not_mem.2 fun a ha => by simpa using hl a ha
      simp [hnil]
  | cons k keys ih =>
      obtain ⟨hk, hkeys'⟩ := List.nodup_cons.1 hkeys
      -- the other keys only take elements whose key is not `k`
      have hrest : ∀ k' ∈ keys, l.filter (key · = k') =
          (l.filter fun a => !decide (key a = k)).filter (key · = k') := by
        intro k' hk'
        rw [List.filter_filter]
        refine List.filter_congr fun a _ => ?_
        by_cases ha : key a = k'
        · have hne : k' ≠ k := fun h => hk (h ▸ hk')
          simp [ha, hne]
        · simp [ha]
      have hmem : ∀ a ∈ l.filter fun a => !decide (key a = k), key a ∈ keys := by
        intro a ha
        obtain ⟨ha, hne⟩ := List.mem_filter.1 ha
        exact (List.mem_cons.1 (hl a ha)).resolve_left (by simpa using hne)
      rw [List.flatMap_cons, List.flatMap_congr hrest]
      exact ((ih hkeys' hmem).append_left _).trans (List.filter_append_perm _ l)

/-- The edges of all vertices at one end are all edges. -/
theorem Consistent.perm_flatMap_edges (hg : g.Consistent) (side : RealPath × RealPath → RealPath)
    (hside : ∀ e ∈ g.edges, side e ∈ g.places) :
    (g.files.flatMap fun f =>
      Order.sort ((g.edges.filter (side · = f.path.abs)).filterMap g.edge?)).Perm g.listedEdges := by
  have hplaces := (perm_flatMap_filter side hg.nodup_places hside).filterMap g.edge?
  rw [List.filterMap_flatMap, places, List.flatMap_map] at hplaces
  refine List.Perm.trans ?_ hplaces
  exact List.Perm.flatMap_left _ fun f _ => Order.perm_sort _

theorem Consistent.perm_flatMap_outgoing (hg : g.Consistent) :
    (g.files.flatMap fun f => g.outgoing f.path.abs).Perm g.listedEdges := by
  refine hg.perm_flatMap_edges Prod.fst fun e he => ?_
  obtain ⟨⟨f, hf, hfe, -⟩, -⟩ := hg.due_of_mem e he
  exact mem_places.2 ⟨f, hf, hfe⟩

theorem Consistent.perm_flatMap_incoming (hg : g.Consistent) :
    (g.files.flatMap fun f => g.incoming f.path.abs).Perm g.listedEdges :=
  hg.perm_flatMap_edges Prod.snd fun e he => (hg.due_of_mem e he).2

/-- As many edges are listed as there are. -/
theorem Consistent.length_listedEdges (hg : g.Consistent) : g.listedEdges.length = g.edgeCount := by
  have hsome : ∀ l : List (RealPath × RealPath), (∀ e ∈ l, e ∈ g.edges) →
      (l.filterMap g.edge?).length = l.length := by
    intro l hl
    induction l with
    | nil => rfl
    | cons e l ih =>
        obtain ⟨k, hk⟩ := hg.exists_edge? (hl e (by simp))
        rw [List.filterMap_cons_some hk, List.length_cons, List.length_cons,
          ih fun e he => hl e (by simp [he])]
  exact hsome g.edges fun e he => he

end ImportAtlas.Graph
