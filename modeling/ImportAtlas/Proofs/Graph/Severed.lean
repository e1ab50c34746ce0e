import ImportAtlas.Proofs.Graph.Answers

/-!
# Taking one file out

A vertex is taken out or replaced without regard to what the rest of the graph looks like. Its place is
*severed* then: the vertices at other places stay where they are, the edges between them stay as well,
and all edges that touched the place are gone. So every question about another place is answered as
before, less what concerned the severed one. A file that was put in has no edges until the graph is
linked.

Main definitions:

* `ImportAtlas.Graph.Severed` — a graph without the edges at a place, and otherwise the same elsewhere;
* `ImportAtlas.Graph.Table.Edgeless` — no edge touches the vertex for a place;
* `ImportAtlas.Graph.Table.Severed` — the same of tables, with all that they answer.

Main results:

* `ImportAtlas.Graph.Severed.outgoing_eq`, `ImportAtlas.Graph.Severed.dependencies_eq` and others — what
  a graph with a severed place answers;
* `ImportAtlas.Graph.Table.StandsFor.severed` — what a table answers;
* `ImportAtlas.Graph.Table.Reached.takeOut_and_putIn` — **taking out and putting in change nothing at
  other places**.
-/

set_option autoImplicit false

namespace ImportAtlas

namespace Graph

variable {g g' : Graph} {p : RealPath}

/-! ### Graphs -/

/-- A graph has the vertices of another one at all places but one, and the edges that do not touch that
place. -/
structure Severed (g g' : Graph) (p : RealPath) : Prop where
  files_eq : g'.files.filter (·.path.abs ≠ p) = g.files.filter (·.path.abs ≠ p)
  edges_eq : g'.edges = (g.remove p).edges

theorem severed_remove (g : Graph) (p : RealPath) : g.Severed (g.remove p) p where
  files_eq := by simp [Graph.remove, List.filter_filter]
  edges_eq := rfl

theorem severed_add (g : Graph) (f : SourceFile) : g.Severed (g.add f) f.path.abs where
  files_eq := by
    change ((g.remove f.path.abs).files ++ [f]).filter (·.path.abs ≠ f.path.abs) = _
    rw [List.filter_append, (g.severed_remove f.path.abs).files_eq]
    simp
  edges_eq := rfl

/-- A vertex at another place can be looked for among those at other places. -/
theorem find?_filter_files (g : Graph) {q : RealPath} (hq : q ≠ p) :
    (g.files.filter (·.path.abs ≠ p)).find? (·.path.abs = q) = g.find? q := by
  rw [Graph.find?, List.find?_filter]
  congr 1
  funext f
  by_cases hf : f.path.abs = q
  · simp [hf, hq]
  · simp [hf]

/-- Only a link makes edges. -/
theorem Change.mem_edges_of_apply {c : Change} (hc : c ≠ .link) {e : RealPath × RealPath}
    (he : e ∈ (c.apply g).edges) : e ∈ g.edges := by
  cases c with
  | add f => exact (mem_edges_remove.1 he).1
  | remove path =>
      rw [Change.apply] at he
      split at he
      · exact (mem_edges_remove.1 he).1
      · exact he
  | link => exact absurd rfl hc

/-- No edge is made between two links. -/
theorem mem_edges_of_ofChanges {changes later : List Change} (hlater : Change.link ∉ later)
    {e : RealPath × RealPath} (he : e ∈ (ofChanges (changes ++ later)).edges) :
    e ∈ (ofChanges changes).edges := by
  induction later using List.reverseRecOn with
  | nil => rwa [List.append_nil] at he
  | append_singleton later c ih =>
      rw [← List.append_assoc, ofChanges_concat] at he
      simp only [List.mem_append, List.mem_singleton, not_or] at hlater
      exact ih hlater.1 (Change.mem_edges_of_apply (Ne.symm hlater.2) he)

namespace Severed

theorem untouched (h : g.Severed g' p) : ∀ e ∈ g'.edges, e.1 ≠ p ∧ e.2 ≠ p := by
  intro e he
  rw [h.edges_eq] at he
  exact (mem_edges_remove.1 he).2

theorem find?_eq (h : g.Severed g' p) {q : RealPath} (hq : q ≠ p) : g'.find? q = g.find? q := by
  rw [← find?_filter_files g' hq, h.files_eq, find?_filter_files g hq]

theorem edge?_eq (h : g.Severed g' p) {e : RealPath × RealPath} (h₁ : e.1 ≠ p) (h₂ : e.2 ≠ p) :
    g'.edge? e = g.edge? e := by
  rw [edge?, edge?, h.find?_eq h₁, h.find?_eq h₂]

/-- The edges at another place are those that were there, less those with the severed place at the
other end. Which end is looked at does not matter. -/
theorem sort_edges_eq (h : g.Severed g' p) {near far : RealPath × RealPath → RealPath}
    {other : Edge → FileRef} (hends : ∀ e, (e.1 ≠ p ∧ e.2 ≠ p) ↔ (near e ≠ p ∧ far e ≠ p))
    (hother : ∀ e k, g.edge? e = some k → (other k).abs = far e) {q : RealPath} (hq : q ≠ p) :
    Order.sort ((g'.edges.filter (near · = q)).filterMap g'.edge?) =
      (Order.sort ((g.edges.filter (near · = q)).filterMap g.edge?)).filter
        fun k => (other k).abs ≠ p := by
  rw [Order.filter_sort, h.edges_eq, Graph.remove, List.filter_filter, List.filterMap_filter,
    List.filterMap_filter, List.filter_filterMap]
  refine congrArg _ (List.filterMap_congr fun e _ => ?_)
  by_cases hnear : near e = q
  · by_cases hfar : far e = p
    · -- the edge went to the severed place, so it is on neither side
      have hcut : ¬(e.1 ≠ p ∧ e.2 ≠ p) := fun hc => ((hends e).1 hc).2 hfar
      cases hedge : g.edge? e with
      | none => simp [hnear, hcut]
      | some k => simp [hnear, hcut, Option.filter_some, hother e k hedge, hfar]
    · obtain ⟨h₁, h₂⟩ := (hends e).2 ⟨hnear ▸ hq, hfar⟩
      rw [h.edge?_eq h₁ h₂]
      cases hedge : g.edge? e with
      | none => simp
      | some k => simp [hnear, h₁, h₂, Option.filter_some, hother e k hedge, hfar]
  · simp [hnear]

theorem outgoing_eq (h : g.Severed g' p) {q : RealPath} (hq : q ≠ p) :
    g'.outgoing q = (g.outgoing q).filter fun k => k.dest.abs ≠ p :=
  h.sort_edges_eq (fun _ => Iff.rfl) (fun _ _ hk => (abs_of_edge?_eq_some hk).2) hq

theorem incoming_eq (h : g.Severed g' p) {q : RealPath} (hq : q ≠ p) :
    g'.incoming q = (g.incoming q).filter fun k => k.source.abs ≠ p :=
  h.sort_edges_eq (fun _ => And.comm) (fun _ _ hk => (abs_of_edge?_eq_some hk).1) hq

theorem dependencies_eq (h : g.Severed g' p) {q : RealPath} (hq : q ≠ p) :
    g'.dependencies q = (g.dependencies q).filter (·.abs ≠ p) := by
  rw [dependencies, dependencies, h.outgoing_eq hq, Order.filter_sortedSet, List.filter_map]
  rfl

theorem dependents_eq (h : g.Severed g' p) {q : RealPath} (hq : q ≠ p) :
    g'.dependents q = (g.dependents q).filter (·.abs ≠ p) := by
  rw [dependents, dependents, h.incoming_eq hq, Order.filter_sortedSet, List.filter_map]
  rfl

end Severed

namespace Table

variable {t t' : Table}

/-! ### Tables -/

/-- No edge touches the vertex for a place. -/
structure Edgeless (t : Table) (p : RealPath) : Prop where
  untouched : ∀ e ∈ t.edges, t.position? p ≠ some e.1 ∧ t.position? p ≠ some e.2
  outgoing_eq : t.outgoing p = []
  incoming_eq : t.incoming p = []
  dependencies_eq : t.dependencies p = []
  dependents_eq : t.dependents p = []

/-- A table has lost the edges at a place, and is otherwise unchanged at all other places. -/
structure Severed (t t' : Table) (p : RealPath) : Prop where
  edgeless : t'.Edgeless p
  /-- The other vertices are the same, and at the same positions. -/
  files_eq : t'.files.filter (·.path.abs ≠ p) = t.files.filter (·.path.abs ≠ p)
  vertex?_iff : ∀ i f, f.path.abs ≠ p → (t'.vertex? i = some f ↔ t.vertex? i = some f)
  position?_eq : ∀ q, q ≠ p → t'.position? q = t.position? q
  find?_eq : ∀ q, q ≠ p → t'.find? q = t.find? q
  contains_eq : ∀ q, q ≠ p → t'.contains q = t.contains q
  /-- The edges are those that did not touch the place. -/
  edges_eq : t'.edges = t.edges.filter fun e => t.position? p ≠ some e.1 ∧ t.position? p ≠ some e.2
  outgoing_eq : ∀ q, q ≠ p → t'.outgoing q = (t.outgoing q).filter (·.dest.abs ≠ p)
  incoming_eq : ∀ q, q ≠ p → t'.incoming q = (t.incoming q).filter (·.source.abs ≠ p)
  dependencies_eq : ∀ q, q ≠ p → t'.dependencies q = (t.dependencies q).filter (·.path.abs ≠ p)
  dependents_eq : ∀ q, q ≠ p → t'.dependents q = (t.dependents q).filter (·.path.abs ≠ p)

theorem edges_remove (t : Table) (p : RealPath) :
    (t.remove p).edges =
      t.edges.filter fun e => t.position? p ≠ some e.1 ∧ t.position? p ≠ some e.2 := by
  rw [Table.remove]
  split
  · next hnone => simp [hnone]
  · next i hi => simp [hi, eq_comm]

theorem takeOut_snd (t : Table) (p : RealPath) : (t.takeOut p).2 = t.remove p := by
  rw [takeOut]
  split
  · next hnone => rw [Table.remove, hnone]
  · rfl

theorem takeOut_fst (t : Table) (p : RealPath) : (t.takeOut p).1 = t.find? p := by
  rw [takeOut, Table.find?]
  split
  · next hnone => rw [hnone, Option.bind_none]
  · next i hi => rw [hi, Option.bind_some]

theorem putIn_eq (t : Table) (i : Nat) (f : SourceFile) :
    t.putIn i f = (t.find? f.path.abs, t.add i f) := by
  rw [putIn, Table.add, ← takeOut_fst, ← takeOut_snd]

namespace StandsFor

/-- A place that no edge of the graph touches has no edges in the table. -/
theorem edgeless (h : t.StandsFor g) (hg : g.Consistent) (hp : ∀ e ∈ g.edges, e.1 ≠ p ∧ e.2 ≠ p) :
    t.Edgeless p := by
  have hout : t.outgoing p = [] := by
    have hnone : g.edges.filter (·.1 = p) = [] := by
      simpa [List.filter_eq_nil_iff] using fun a b hab => (hp (a, b) hab).1
    rw [h.outgoing_eq hg, Graph.outgoing, hnone]
    rfl
  have hin : t.incoming p = [] := by
    have hnone : g.edges.filter (·.2 = p) = [] := by
      simpa [List.filter_eq_nil_iff] using fun a b hab => (hp (a, b) hab).2
    rw [h.incoming_eq hg, Graph.incoming, hnone]
    rfl
  refine ⟨?_, hout, hin, ?_, ?_⟩
  · intro e he
    obtain ⟨d, hd, h₁, h₂⟩ := exists_of_mem_left h.joins he
    -- a position holds only one place, and that of `e` is not `p`
    obtain ⟨-, hright⟩ := h.biUnique_holdsAt hg
    simp only [ne_eq, h.position?_eq_some_iff]
    exact ⟨fun hp₁ => (hp d hd).1 (hright h₁ hp₁), fun hp₂ => (hp d hd).2 (hright h₂ hp₂)⟩
  · rw [← List.map_eq_nil_iff, h.path_dependencies hg, hout]
    rfl
  · rw [← List.map_eq_nil_iff, h.path_dependents hg, hin]
    rfl

theorem mem_vertices_remove (h : t.StandsFor g) (hg : g.Consistent) {i : Nat} {f : SourceFile} :
    (i, f) ∈ (t.remove p).vertices ↔ (i, f) ∈ t.vertices ∧ f.path.abs ≠ p := by
  rw [Table.remove]
  split
  · next hnone =>
      refine ⟨fun hf => ⟨hf, ?_⟩, And.left⟩
      rintro rfl
      exact h.position?_eq_none_iff.1 hnone (h.mem_places_iff.2 ⟨i, f, hf, rfl⟩)
  · next j hj =>
      rw [List.mem_filter, decide_eq_true_eq]
      refine and_congr_right fun hf => not_congr ?_
      exact h.position_eq_iff hg (h.position?_eq_some_iff.1 hj) ⟨f, hf, rfl⟩

/-- Vertices are told apart by their references, so lists of vertices are told apart by those of their
references. -/
theorem eq_of_map_path_eq (hg : g.Consistent) {l m : List SourceFile} (hl : ∀ f ∈ l, f ∈ g.files)
    (hm : ∀ f ∈ m, f ∈ g.files) (h : l.map (·.path) = m.map (·.path)) : l = m := by
  induction l generalizing m with
  | nil => exact (List.map_eq_nil_iff.1 h.symm).symm
  | cons f l ih =>
      cases m with
      | nil => cases h
      | cons k m =>
          obtain ⟨hpath, hrest⟩ := List.cons.inj h
          rw [hg.file_eq (hl f (by simp)) (hm k (by simp)) (congrArg FileRef.abs hpath),
            ih (fun f hf => hl f (by simp [hf])) (fun f hf => hm f (by simp [hf])) hrest]

/-- If the references of vertices of a table are those left of some vertices of another one, then so are
the vertices. -/
theorem eq_filter_of_map_path (h : t.StandsFor g) (hg : g.Consistent) (h' : t'.StandsFor g')
    (hs : g.Severed g' p) {l m : List SourceFile} (hl : ∀ f ∈ l, f ∈ t'.files)
    (hm : ∀ f ∈ m, f ∈ t.files) (heq : l.map (·.path) = (m.map (·.path)).filter (·.abs ≠ p)) :
    l = m.filter (·.path.abs ≠ p) := by
  rw [List.filter_map] at heq
  refine eq_of_map_path_eq hg ?_ ?_ heq
  · -- what is listed is not at `p`, so the graph had it before
    intro f hf
    have hne : f.path.abs ≠ p := by
      have hmem := List.mem_map_of_mem (f := SourceFile.path) hf
      rw [heq] at hmem
      obtain ⟨k, hk, hkf⟩ := List.mem_map.1 hmem
      rw [← hkf]
      simpa using (List.mem_filter.1 hk).2
    have hmem : f ∈ g'.files.filter (·.path.abs ≠ p) :=
      List.mem_filter.2 ⟨h'.files_eq ▸ hl f hf, by simpa using hne⟩
    rw [hs.files_eq] at hmem
    exact (List.mem_filter.1 hmem).1
  · intro f hf
    rw [← h.files_eq]
    exact hm f (List.mem_filter.1 hf).1

/-- A table that stands for a graph with a severed place answers as before about all other places, if
their vertices have kept their positions and the edges between them are the same. -/
theorem severed (h : t.StandsFor g) (hg : g.Consistent) (h' : t'.StandsFor g') (hg' : g'.Consistent)
    (hs : g.Severed g' p)
    (hv : ∀ i f, f.path.abs ≠ p → ((i, f) ∈ t'.vertices ↔ (i, f) ∈ t.vertices))
    (he : t'.edges = (t.remove p).edges) : t.Severed t' p := by
  have hholds : ∀ i q, q ≠ p → (t'.HoldsAt i q ↔ t.HoldsAt i q) := by
    intro i q hq
    refine exists_congr fun f => and_congr_left ?_
    rintro rfl
    exact hv i f hq
  constructor
  · exact h'.edgeless hg' hs.untouched
  · rw [h'.files_eq, h.files_eq, hs.files_eq]
  · intro i f hf
    rw [h'.vertex?_eq_some_iff, h.vertex?_eq_some_iff, hv i f hf]
  · intro q hq
    refine Option.ext fun i => ?_
    rw [h'.position?_eq_some_iff, h.position?_eq_some_iff, hholds i q hq]
  · intro q hq
    rw [h'.find?_eq hg', h.find?_eq hg, hs.find?_eq hq]
  · intro q hq
    rw [h'.contains_eq, h.contains_eq, Graph.contains, Graph.contains, hs.find?_eq hq]
  · rw [he, edges_remove]
  · intro q hq
    rw [h'.outgoing_eq hg', h.outgoing_eq hg, hs.outgoing_eq hq]
  · intro q hq
    rw [h'.incoming_eq hg', h.incoming_eq hg, hs.incoming_eq hq]
  · intro q hq
    refine h.eq_filter_of_map_path hg h' hs (fun f => h'.mem_files_of_mem_neighbors)
      (fun f => h.mem_files_of_mem_neighbors) ?_
    rw [(h'.sameAnswers hg').dependencies_eq, (h.sameAnswers hg).dependencies_eq,
      hs.dependencies_eq hq]
  · intro q hq
    refine h.eq_filter_of_map_path hg h' hs (fun f => h'.mem_files_of_mem_neighbors)
      (fun f => h.mem_files_of_mem_neighbors) ?_
    rw [(h'.sameAnswers hg').dependents_eq, (h.sameAnswers hg).dependents_eq, hs.dependents_eq hq]

/-- The index does not have a place that was removed. -/
theorem position?_remove (h : t.StandsFor g) (hg : g.Consistent) (p : RealPath) :
    (t.remove p).position? p = none := by
  rw [(h.remove hg p).position?_eq_none_iff, mem_places]
  rintro ⟨f, hf, hp⟩
  exact (mem_files_remove.1 hf).2 hp

/-- Removing a place where nothing is found changes nothing. -/
theorem remove_eq_self (h : t.StandsFor g) (hg : g.Consistent) (hp : t.find? p = none) :
    t.remove p = t := by
  have hposition : t.position? p = none := by
    rw [h.position?_eq_none_iff, ← contains_iff, Graph.contains, ← h.find?_eq hg, hp]
    simp
  rw [Table.remove, hposition]

theorem severed_remove (h : t.StandsFor g) (hg : g.Consistent) (p : RealPath) :
    t.Severed (t.remove p) p := by
  refine h.severed hg (h.remove hg p) (hg.remove p) (g.severed_remove p) ?_ rfl
  intro i f hf
  rw [h.mem_vertices_remove hg, and_iff_left hf]

theorem severed_add (h : t.StandsFor g) (hg : g.Consistent) {i : Nat} {f : SourceFile}
    (hi : (t.remove f.path.abs).vertex? i = none) : t.Severed (t.add i f) f.path.abs := by
  refine h.severed hg (h.add hg hi) (hg.add f) (g.severed_add f) ?_ rfl
  intro j k hk
  rw [Table.add, List.mem_append, h.mem_vertices_remove hg, and_iff_left hk, or_iff_left]
  intro hlast
  obtain ⟨rfl, rfl⟩ := Prod.mk.inj (List.mem_singleton.1 hlast)
  exact hk rfl

end StandsFor

/-! ### Histories -/

/-- A file that was added has no edges before the next link. -/
theorem Reached.edgeless_of_add {changes later : List Change} {f : SourceFile}
    (hlater : Change.link ∉ later) (h : Reached (changes ++ .add f :: later) t) :
    t.Edgeless f.path.abs := by
  refine h.standsFor.edgeless (consistent_ofChanges _) fun e he => ?_
  rw [List.append_cons] at he
  have hedge := mem_edges_of_ofChanges hlater he
  rw [ofChanges_concat] at hedge
  exact ((ofChanges changes).severed_add f).untouched e hedge

/-- **Taking out and putting in change nothing at other places.** Taking out a place of a table that
changes lead to gives back what was found there, and leaves nothing to be found and no edges; a table
without the place is left as it is. Putting in a file at a free position gives back what was found at
its place, and then the file is found there; it has no edges, and gets none before the next link. Both
leave the vertices and edges at all other places as they were, lead to a table that changes lead to, and
agree with what happens to the graph. -/
theorem Reached.takeOut_and_putIn {changes : List Change} (h : Reached changes t) (p : RealPath) :
    ((t.takeOut p).1 = t.find? p ∧ (t.takeOut p).2.find? p = none ∧
        (t.takeOut p).2.contains p = false ∧ t.Severed (t.takeOut p).2 p ∧
        (t.find? p = none → (t.takeOut p).2 = t) ∧
        (∀ path : Path, path.real? = some p → Reached (changes ++ [.remove path]) (t.takeOut p).2) ∧
        (t.takeOut p).1 = ((ofChanges changes).takeOut p).1 ∧
        (t.takeOut p).2.SameAnswers ((ofChanges changes).takeOut p).2) ∧
      ∀ i f, f.path.abs = p → (t.takeOut p).2.vertex? i = none →
        (t.putIn i f).1 = t.find? p ∧ (t.putIn i f).2.find? p = some f ∧
          (t.putIn i f).2.vertex? i = some f ∧ t.Severed (t.putIn i f).2 p ∧
          Reached (changes ++ [.add f]) (t.putIn i f).2 ∧
          (t.putIn i f).1 = ((ofChanges changes).putIn f).1 ∧
          (t.putIn i f).2.SameAnswers ((ofChanges changes).putIn f).2 ∧
          ∀ later t', Change.link ∉ later → Reached (changes ++ .add f :: later) t' →
            t'.Edgeless p := by
  have hg := consistent_ofChanges changes
  have hs := h.standsFor
  constructor
  · rw [takeOut_fst, takeOut_snd, Table.contains, hs.position?_remove hg p]
    refine ⟨rfl, ?_, rfl, hs.severed_remove hg p, hs.remove_eq_self hg, fun path hpath => h.remove hpath,
      hs.find?_eq hg p, (hs.remove hg p).sameAnswers (hg.remove p)⟩
    rw [Table.find?, hs.position?_remove hg p, Option.bind_none]
  · rintro i f rfl hi
    rw [takeOut_snd] at hi
    have ha := hs.add hg hi
    have hmem : (i, f) ∈ (t.add i f).vertices := by simp [Table.add]
    rw [putIn_eq]
    refine ⟨rfl, ?_, ha.vertex?_eq_some_iff.2 hmem, hs.severed_add hg hi, h.add hi,
      hs.find?_eq hg _, ha.sameAnswers (hg.add f), fun later t' => edgeless_of_add⟩
    rw [ha.find?_eq (hg.add f), (hg.add f).find?_eq_some_iff]
    exact ⟨mem_files_add.2 (Or.inl rfl), rfl⟩

/-- In a table where a position was used twice, the file there is taken out again, and then replaced at
another position. -/
theorem Reached.takeOut_and_putIn_reusingTable :
    Reached reusingChanges reusingTable ∧
      reusingTable.find? (.of ["c"]) = some (importing (.of ["c"]) [.of ["c"], .of ["a"]]) ∧
      reusingTable.edges = [(1, 0), (0, 0)] ∧
      (reusingTable.takeOut (.of ["c"])).2.vertex? 7 = none ∧
      reusingTable.Severed (reusingTable.takeOut (.of ["c"])).2 (.of ["c"]) ∧
      reusingTable.Severed (reusingTable.putIn 7 (importing (.of ["c"]) [.of ["b"]])).2 (.of ["c"]) := by
  have h : Reached reusingChanges reusingTable :=
    (((((Reached.start.add (by decide)).add (by decide)).link).remove
      (by decide +kernel)).add (by decide +kernel)).link
  obtain ⟨⟨-, -, -, htaken, -⟩, hput⟩ := h.takeOut_and_putIn (.of ["c"])
  have hfree : (reusingTable.takeOut (.of ["c"])).2.vertex? 7 = none := by decide +kernel
  obtain ⟨-, -, -, hsevered, -⟩ := hput 7 (importing (.of ["c"]) [.of ["b"]]) rfl hfree
  exact ⟨h, by decide +kernel, by decide +kernel, hfree, htaken, hsevered⟩

end Table

end Graph

end ImportAtlas
