import ImportAtlas.Proofs.Graph.Positions

/-!
# What a table answers

A table answers every question as the graph that it stands for, though it finds the answers by
positions. This gives what a table keeps through all changes: its index is right about every vertex and
knows nothing else, its edges join vertices of which the first imports the second, and what it says
about the edges that leave a place agrees with what it says about those that arrive.

Main definitions:

* `ImportAtlas.Graph.Table.Sound` — index, vertices and edges agree, and so do the two directions;
* `ImportAtlas.Graph.Table.SameAnswers` — a table answers like a graph.

Main results:

* `ImportAtlas.Graph.Table.StandsFor.sameAnswers` — a table answers like the graph it stands for;
* `ImportAtlas.Graph.Table.StandsFor.sound` — such a table is sound;
* `ImportAtlas.Graph.Table.Reached.sound_and_sameAnswers` — **every table that changes lead to is
  sound, and answers like the graph after the same changes**.
-/

set_option autoImplicit false

namespace ImportAtlas.Graph.Table

variable {t : Table} {g : Graph}

/-- A table answers like a graph. -/
structure SameAnswers (t : Table) (g : Graph) : Prop where
  files_eq : t.files = g.files
  find?_eq : ∀ p, t.find? p = g.find? p
  contains_eq : ∀ p, t.contains p = g.contains p
  fileCount_eq : t.fileCount = g.fileCount
  edgeCount_eq : t.edgeCount = g.edgeCount
  outgoing_eq : ∀ p, t.outgoing p = g.outgoing p
  incoming_eq : ∀ p, t.incoming p = g.incoming p
  dependencies_eq : ∀ p, (t.dependencies p).map (·.path) = g.dependencies p
  dependents_eq : ∀ p, (t.dependents p).map (·.path) = g.dependents p
  link_count_eq : t.link.value.2 = g.link.value.2

/-- Index, vertices and edges of a table agree, and so do the two directions. -/
structure Sound (t : Table) : Prop where
  /-- The index leads from a place to a position if and only if the vertex there has that place. -/
  position?_eq_some_iff : ∀ p i,
    t.position? p = some i ↔ ∃ f, t.vertex? i = some f ∧ f.path.abs = p
  nodup_keys : (t.index.map Prod.fst).Nodup
  nodup_positions : (t.vertices.map Prod.fst).Nodup
  fileCount_eq : t.fileCount = t.index.length
  nodup_places : (t.files.map (·.path.abs)).Nodup
  contains_iff : ∀ p, t.contains p = true ↔ ∃ f, t.find? p = some f ∧ f.path.abs = p
  /-- An edge joins two vertices, and the first imports the second. -/
  imports_of_mem_edges : ∀ e ∈ t.edges, ∃ f h, t.vertex? e.1 = some f ∧ t.vertex? e.2 = some h ∧
    ∃ i ∈ f.imports, i.abs = h.path.abs
  count_outgoing_eq : ∀ e : Edge,
    (t.outgoing e.source.abs).count e = (t.incoming e.dest.abs).count e
  length_outgoing : (t.files.flatMap fun f => t.outgoing f.path.abs).length = t.edgeCount
  length_incoming : (t.files.flatMap fun f => t.incoming f.path.abs).length = t.edgeCount
  mem_files_of_mem_dependencies : ∀ p, ∀ f ∈ t.dependencies p, f ∈ t.files
  path_dependencies : ∀ p,
    (t.dependencies p).map (·.path) = Order.sortedSet ((t.outgoing p).map (·.dest))
  mem_files_of_mem_dependents : ∀ p, ∀ f ∈ t.dependents p, f ∈ t.files
  path_dependents : ∀ p,
    (t.dependents p).map (·.path) = Order.sortedSet ((t.incoming p).map (·.source))

/-! ### Lists with related elements -/

section

variable {α β γ : Type} {R : α → β → Prop} {l : List α} {m : List β}

theorem exists_of_mem_left (h : List.Forall₂ R l m) {a : α} (ha : a ∈ l) : ∃ b ∈ m, R a b := by
  induction h with
  | nil => exact absurd ha (by simp)
  | @cons a' b' l m hab _ ih =>
      rcases List.mem_cons.1 ha with rfl | ha
      · exact ⟨b', by simp, hab⟩
      · obtain ⟨b, hb, hab⟩ := ih ha
        exact ⟨b, by simp [hb], hab⟩

theorem exists_of_mem_right (h : List.Forall₂ R l m) {b : β} (hb : b ∈ m) : ∃ a ∈ l, R a b :=
  exists_of_mem_left (R := flip R) h.flip hb

/-- Related elements that give the same results give them in the same order. -/
theorem filterMap_eq_of_forall₂ {f : α → Option γ} {k : β → Option γ}
    (hfk : ∀ a b, R a b → f a = k b) (h : List.Forall₂ R l m) : l.filterMap f = m.filterMap k := by
  induction h with
  | nil => rfl
  | cons hab _ ih => rw [List.filterMap_cons, List.filterMap_cons, hfk _ _ hab, ih]

end

namespace StandsFor

/-! ### Vertices -/

/-- The vertex at a position is the one that the graph has at its place. -/
theorem vertex?_eq_find? (h : t.StandsFor g) (hg : g.Consistent) {i : Nat} {p : RealPath}
    (hip : t.HoldsAt i p) : t.vertex? i = g.find? p := by
  obtain ⟨f, hf, hp⟩ := hip
  have hmem : f ∈ g.files := by
    rw [← h.files_eq]
    exact List.mem_map.2 ⟨(i, f), hf, rfl⟩
  rw [h.vertex?_eq_some_iff.2 hf, hg.find?_eq_some_iff.2 ⟨hmem, hp⟩]

theorem find?_eq (h : t.StandsFor g) (hg : g.Consistent) (p : RealPath) : t.find? p = g.find? p := by
  rw [Table.find?]
  cases hp : t.position? p with
  | none =>
      have hnot := h.position?_eq_none_iff.1 hp
      rw [← contains_iff, Graph.contains, Option.not_isSome_iff_eq_none] at hnot
      rw [hnot]
      rfl
  | some i => exact h.vertex?_eq_find? hg (h.position?_eq_some_iff.1 hp)

theorem contains_eq (h : t.StandsFor g) (p : RealPath) : t.contains p = g.contains p := by
  rw [Bool.eq_iff_iff, contains_iff, h.mem_places_iff, Table.contains, Option.isSome_iff_exists]
  simp only [h.position?_eq_some_iff]

theorem fileCount_eq (h : t.StandsFor g) : t.fileCount = g.fileCount := by
  rw [Graph.fileCount, ← h.files_eq, files, List.length_map]
  rfl

/-- The index has as many keys as there are vertices. -/
theorem length_index (h : t.StandsFor g) (hg : g.Consistent) : t.index.length = t.fileCount := by
  have hkeys : (t.index.map Prod.fst).Perm g.places := by
    refine (List.perm_ext_iff_of_nodup h.nodup_keys hg.nodup_places).2 fun p => ?_
    simp only [h.mem_places_iff, ← h.mem_index_iff, List.mem_map, Prod.exists]
    exact ⟨fun ⟨q, i, hi, hq⟩ => ⟨i, hq ▸ hi⟩, fun ⟨i, hi⟩ => ⟨p, i, hi, rfl⟩⟩
  have hlength := hkeys.length_eq
  rw [List.length_map, places, List.length_map] at hlength
  rw [hlength, h.fileCount_eq, Graph.fileCount]

/-! ### Edges -/

theorem edge?_eq (h : t.StandsFor g) (hg : g.Consistent) {e : Nat × Nat} {d : RealPath × RealPath}
    (hed : t.Joins e d) : t.edge? e = g.edge? d := by
  rw [Table.edge?, Graph.edge?, h.vertex?_eq_find? hg hed.1, h.vertex?_eq_find? hg hed.2]

/-- An edge between two positions joins the references of the vertices there. -/
theorem edge?_eq_some_iff {e : Nat × Nat} {k : Edge} :
    t.edge? e = some k ↔
      ∃ f, t.vertex? e.1 = some f ∧ ∃ h, t.vertex? e.2 = some h ∧ ⟨f.path, h.path⟩ = k := by
  simp only [Table.edge?, bind, Option.bind_eq_some_iff, pure, Option.some.injEq]

/-- Both ends of an edge of the table have a vertex, and the first imports the second. -/
theorem imports_of_mem_edges (h : t.StandsFor g) (hg : g.Consistent) {e : Nat × Nat}
    (he : e ∈ t.edges) : ∃ f k, t.vertex? e.1 = some f ∧ t.vertex? e.2 = some k ∧
      ∃ i ∈ f.imports, i.abs = k.path.abs := by
  obtain ⟨d, hd, h₁, h₂⟩ := exists_of_mem_left h.joins he
  obtain ⟨⟨f, hf, hfd, hi⟩, hdest⟩ := hg.due_of_mem d hd
  obtain ⟨k, hk, hkd⟩ := mem_places.1 hdest
  rw [h.vertex?_eq_find? hg h₁, h.vertex?_eq_find? hg h₂, hg.find?_eq_some_iff.2 ⟨hf, hfd⟩,
    hg.find?_eq_some_iff.2 ⟨hk, hkd⟩]
  exact ⟨f, k, rfl, rfl, hkd ▸ hi⟩

/-- Taking the edges at a position is taking those at its place, whichever end is looked at. -/
theorem edgesAt_eq (h : t.StandsFor g) (hg : g.Consistent) (near : Nat × Nat → Nat)
    (side : RealPath × RealPath → RealPath)
    (hside : ∀ e d, t.Joins e d → t.HoldsAt (near e) (side d)) (p : RealPath) :
    t.edgesAt near p = Order.sort ((g.edges.filter (side · = p)).filterMap g.edge?) := by
  rw [edgesAt]
  split
  · next hnone =>
      have hnil : g.edges.filter (side · = p) = [] := by
        refine List.filter_eq_nil_iff.2 fun d hd hp => ?_
        obtain ⟨e, -, hed⟩ := exists_of_mem_right h.joins hd
        obtain rfl : side d = p := by simpa using hp
        exact h.position?_eq_none_iff.1 hnone (h.mem_places_iff.2 ⟨near e, hside e d hed⟩)
      rw [hnil]
      rfl
  · next i hi =>
      have hip := h.position?_eq_some_iff.1 hi
      have hnear : List.Forall₂ t.Joins (t.edges.filter (near · = i))
          (g.edges.filter (side · = p)) := by
        refine List.rel_filter (fun {e d} hed => ?_) h.joins
        simp only [decide_eq_true_eq]
        exact h.position_eq_iff hg hip (hside e d hed)
      rw [filterMap_eq_of_forall₂ (fun e d hed => h.edge?_eq hg hed) hnear]

theorem outgoing_eq (h : t.StandsFor g) (hg : g.Consistent) (p : RealPath) :
    t.outgoing p = g.outgoing p :=
  h.edgesAt_eq hg Prod.fst Prod.fst (fun _ _ hed => hed.1) p

theorem incoming_eq (h : t.StandsFor g) (hg : g.Consistent) (p : RealPath) :
    t.incoming p = g.incoming p :=
  h.edgesAt_eq hg Prod.snd Prod.snd (fun _ _ hed => hed.2) p

theorem edgeCount_eq (h : t.StandsFor g) : t.edgeCount = g.edgeCount := h.joins.length_eq

/-! ### Neighbors -/

theorem mem_files_of_mem_neighbors (h : t.StandsFor g) {near far : Nat × Nat → Nat} {p : RealPath}
    {f : SourceFile} (hf : f ∈ t.neighbors near far p) : f ∈ t.files := by
  rw [neighbors] at hf
  split at hf
  · exact absurd hf (by simp)
  · have hsorted := Order.mem_sort.1 ((Order.dropRepeats_sublist _).mem hf)
    obtain ⟨e, -, he⟩ := List.mem_filterMap.1 hsorted
    exact List.mem_map.2 ⟨(far e, f), h.vertex?_eq_some_iff.1 he, rfl⟩

/-- The neighbors of a place are at the far ends of its edges, in order and each once. -/
theorem path_neighbors (h : t.StandsFor g) (hg : g.Consistent) {near far : Nat × Nat → Nat}
    {other : Edge → FileRef}
    (hfar : ∀ e k, t.edge? e = some k → (t.vertex? (far e)).map (·.path) = some (other k))
    (p : RealPath) :
    (t.neighbors near far p).map (·.path) = Order.sortedSet ((t.edgesAt near p).map other) := by
  rw [neighbors, edgesAt]
  split
  · rfl
  · next i hi =>
      -- before they are sorted, the two lists are the same
      have hends : ((t.edges.filter (near · = i)).filterMap fun e => t.vertex? (far e)).map (·.path) =
          ((t.edges.filter (near · = i)).filterMap t.edge?).map other := by
        rw [List.map_filterMap, List.map_filterMap]
        refine List.filterMap_congr fun e he => ?_
        obtain ⟨f, k, hf, hk, -⟩ := h.imports_of_mem_edges hg (List.mem_filter.1 he).1
        have hedge := edge?_eq_some_iff.2 ⟨f, hf, k, hk, rfl⟩
        rw [hfar e _ hedge, hedge]
        rfl
      have hcompare : ∀ f k : SourceFile, compare f.path k.path = compare f k := fun _ _ => rfl
      rw [Order.map_dropRepeats hcompare, Order.map_sort hcompare, Order.dropRepeats_sort, hends]
      refine Order.sortedSet_congr fun x => ?_
      simp only [List.mem_map, Order.mem_sort]

theorem path_dependencies (h : t.StandsFor g) (hg : g.Consistent) (p : RealPath) :
    (t.dependencies p).map (·.path) = Order.sortedSet ((t.outgoing p).map (·.dest)) := by
  refine h.path_neighbors hg ?_ p
  intro e k he
  obtain ⟨f, -, k', hk', rfl⟩ := edge?_eq_some_iff.1 he
  rw [hk']
  rfl

theorem path_dependents (h : t.StandsFor g) (hg : g.Consistent) (p : RealPath) :
    (t.dependents p).map (·.path) = Order.sortedSet ((t.incoming p).map (·.source)) := by
  refine h.path_neighbors hg ?_ p
  intro e k he
  obtain ⟨f, hf, k', -, rfl⟩ := edge?_eq_some_iff.1 he
  rw [hf]
  rfl

/-! ### All answers -/

/-- A table answers like the graph it stands for. -/
theorem sameAnswers (h : t.StandsFor g) (hg : g.Consistent) : t.SameAnswers g where
  files_eq := h.files_eq
  find?_eq := h.find?_eq hg
  contains_eq := h.contains_eq
  fileCount_eq := h.fileCount_eq
  edgeCount_eq := h.edgeCount_eq
  outgoing_eq := h.outgoing_eq hg
  incoming_eq := h.incoming_eq hg
  dependencies_eq p := by rw [h.path_dependencies hg, h.outgoing_eq hg, Graph.dependencies]
  dependents_eq p := by rw [h.path_dependents hg, h.incoming_eq hg, Graph.dependents]
  link_count_eq := (h.forall₂_newEdges hg).length_eq

/-- A table that stands for a consistent graph is sound. -/
theorem sound (h : t.StandsFor g) (hg : g.Consistent) : t.Sound where
  position?_eq_some_iff p i := by
    simp only [h.position?_eq_some_iff, h.vertex?_eq_some_iff]
    rfl
  nodup_keys := h.nodup_keys
  nodup_positions := h.nodup_positions
  fileCount_eq := (h.length_index hg).symm
  nodup_places := by
    rw [h.files_eq]
    exact hg.nodup_places
  contains_iff p := by
    rw [h.contains_eq, h.find?_eq hg, Graph.contains, Option.isSome_iff_exists]
    exact exists_congr fun f => ⟨fun hf => ⟨hf, (mem_of_find?_eq_some hf).2⟩, And.left⟩
  imports_of_mem_edges e he := h.imports_of_mem_edges hg he
  count_outgoing_eq e := by
    rw [h.outgoing_eq hg, h.incoming_eq hg, count_outgoing_eq_count_incoming]
  length_outgoing := by
    simp only [h.files_eq, h.outgoing_eq hg]
    rw [hg.perm_flatMap_outgoing.length_eq, hg.length_listedEdges, h.edgeCount_eq]
  length_incoming := by
    simp only [h.files_eq, h.incoming_eq hg]
    rw [hg.perm_flatMap_incoming.length_eq, hg.length_listedEdges, h.edgeCount_eq]
  mem_files_of_mem_dependencies p f hf := h.mem_files_of_mem_neighbors hf
  path_dependencies := h.path_dependencies hg
  mem_files_of_mem_dependents p f hf := h.mem_files_of_mem_neighbors hf
  path_dependents := h.path_dependents hg

end StandsFor

/-- **Every table that changes lead to is sound, and answers like the graph after the same changes**,
whichever free positions the vertices were given on the way. -/
theorem Reached.sound_and_sameAnswers {changes : List Change} (h : Reached changes t) :
    t.Sound ∧ t.SameAnswers (ofChanges changes) :=
  ⟨h.standsFor.sound (consistent_ofChanges changes),
    h.standsFor.sameAnswers (consistent_ofChanges changes)⟩

/-- A file that imports places, under no root. -/
def importing (p : RealPath) (imports : List RealPath) : SourceFile :=
  ⟨⟨p, []⟩, .ofList (imports.map (⟨·, []⟩)), true⟩

/-- Two files that import each other, of which the first is removed and a third one comes instead. -/
def reusingChanges : List Change :=
  [.add (importing (.of ["a"]) [.of ["b"]]), .add (importing (.of ["b"]) [.of ["a"], .of ["c"]]), .link,
    .remove ⟨"/a"⟩, .add (importing (.of ["c"]) [.of ["c"], .of ["a"]]), .link]

/-- A table after these changes, in which the third file has the position of the first. -/
def reusingTable : Table :=
  let linked := ((({} : Table).add 0 (importing (.of ["a"]) [.of ["b"]])).add 1
    (importing (.of ["b"]) [.of ["a"], .of ["c"]])).link.value.1
  ((linked.remove (.of ["a"])).add 0 (importing (.of ["c"]) [.of ["c"], .of ["a"]])).link.value.1

theorem Reached.sound_and_sameAnswers_reusingTable :
    Reached reusingChanges reusingTable ∧ reusingTable.edges = [(1, 0), (0, 0)] ∧
      reusingTable.Sound ∧ reusingTable.SameAnswers (ofChanges reusingChanges) := by
  have h : Reached reusingChanges reusingTable :=
    (((((Reached.start.add (by decide)).add (by decide)).link).remove
      (by decide +kernel)).add (by decide +kernel)).link
  exact ⟨h, by decide +kernel, h.sound_and_sameAnswers⟩

end ImportAtlas.Graph.Table
