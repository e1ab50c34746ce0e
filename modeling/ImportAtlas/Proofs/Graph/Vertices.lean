import ImportAtlas.Proofs.Graph.Build

/-!
# Vertices for any list of references

A list may refer to one place under several roots. The graph has one vertex for such a place, and the
last reference counts. So which references become analyzed vertices depends on the references alone and
on which of them are source files, and not on what these import. A place that an analyzed vertex imports
has a vertex if there is a source file and either files outside are wanted or the place is in the list.

Main results:

* `ImportAtlas.Graph.map_path_addAll` — which references become vertices depends on the references
  alone;
* `ImportAtlas.Resolver.analyzed_build` — the analyzed vertices of a graph that is built;
* `ImportAtlas.Resolver.mem_edges_build` — its edges;
* `ImportAtlas.Resolver.mem_places_of_mem_imports` — **when a place that is imported has a vertex**.
-/

set_option autoImplicit false

namespace ImportAtlas

namespace Graph

/-! ### Adding files whose places may repeat -/

theorem files_add (g : Graph) (f : SourceFile) :
    (g.add f).files = g.files.filter (·.path.abs ≠ f.path.abs) ++ [f] := rfl

theorem mem_of_mem_files_addAll {files : List SourceFile} {v : SourceFile}
    (hv : v ∈ (addAll files).files) : v ∈ files := by
  induction files using List.reverseRecOn with
  | nil => simp [addAll] at hv
  | append_singleton files f ih =>
      rw [addAll_concat, mem_files_add] at hv
      rcases hv with rfl | ⟨hv, -⟩
      · simp
      · simp [ih hv]

theorem mem_places_addAll {files : List SourceFile} {p : RealPath} :
    p ∈ (addAll files).places ↔ ∃ f ∈ files, f.path.abs = p := by
  induction files using List.reverseRecOn with
  | nil => simp [addAll, places]
  | append_singleton files f ih =>
      rw [mem_places] at ih
      simp only [mem_places, addAll_concat, mem_files_add, List.mem_append, List.mem_singleton]
      constructor
      · rintro ⟨v, rfl | ⟨hv, -⟩, hp⟩
        · exact ⟨v, .inr rfl, hp⟩
        · obtain ⟨k, hk, hkp⟩ := ih.1 ⟨v, hv, hp⟩
          exact ⟨k, .inl hk, hkp⟩
      · rintro ⟨k, hk | rfl, hp⟩
        · -- what was at the place is still there, unless `f` has taken it over
          by_cases hf : f.path.abs = p
          · exact ⟨f, .inl rfl, hf⟩
          · obtain ⟨v, hv, hvp⟩ := ih.2 ⟨k, hk, hp⟩
            exact ⟨v, .inr ⟨hv, fun h => hf (h ▸ hvp)⟩, hvp⟩
        · exact ⟨k, .inl rfl, hp⟩

/-- Which references become vertices depends on the references alone. -/
theorem map_path_addAll {files files' : List SourceFile}
    (h : files.map (·.path) = files'.map (·.path)) :
    (addAll files).files.map (·.path) = (addAll files').files.map (·.path) := by
  induction files using List.reverseRecOn generalizing files' with
  | nil =>
      obtain rfl : files' = [] := by simpa using h.symm
      rfl
  | append_singleton files f ih =>
      rcases List.eq_nil_or_concat' files' with rfl | ⟨files', f', rfl⟩
      · simp at h
      · rw [List.map_append, List.map_append] at h
        obtain ⟨hfiles, hf⟩ := List.append_inj' h rfl
        obtain hf : f.path = f'.path := by simpa using hf
        have hfilter : ∀ l : List SourceFile,
            (l.filter (·.path.abs ≠ f.path.abs)).map (·.path) =
              (l.map (·.path)).filter (·.abs ≠ f.path.abs) := by
          intro l
          rw [List.filter_map]
          rfl
        rw [addAll_concat, addAll_concat, files_add, files_add, ← hf, List.map_append, List.map_append,
          hfilter, hfilter, ih hfiles, List.map_singleton, List.map_singleton, hf]

/-- Adding files that are not analyzed, at places of their own, leaves the analyzed vertices as they
are. -/
theorem analyzed_addAll_append {files others : List SourceFile}
    (hfiles : ∀ f ∈ files, f.analyzed = true)
    (hothers : ∀ o ∈ others, o.analyzed = false ∧ ∀ f ∈ files, f.path.abs ≠ o.path.abs) :
    (addAll (files ++ others)).analyzed = (addAll files).files := by
  induction others using List.reverseRecOn with
  | nil =>
      rw [List.append_nil, analyzed, List.filter_eq_self]
      exact fun v hv => hfiles v (mem_of_mem_files_addAll hv)
  | append_singleton others o ih =>
      obtain ⟨hanalyzed, hplace⟩ := hothers o (by simp)
      have hrest := ih fun k hk => hothers k (by simp [hk])
      rw [analyzed] at hrest
      have hkept : (addAll files).files.filter (·.path.abs ≠ o.path.abs) = (addAll files).files := by
        rw [List.filter_eq_self]
        intro v hv
        simpa using hplace v (mem_of_mem_files_addAll hv)
      rw [← List.append_assoc, addAll_concat, analyzed, files_add, List.filter_append,
        List.filter_comm, hrest, hkept]
      simp [hanalyzed]

end Graph

namespace Resolver

/-! ### The graph that is built from any list -/

variable {r : Resolver} {external : Bool} {files : List FileRef}

theorem ne_of_mem_outside {v : SourceFile} (hv : v ∈ r.outside external files) :
    ∀ u ∈ r.loaded files, u.path.abs ≠ v.path.abs := by
  obtain ⟨-, i, -, hne, -, rfl⟩ := mem_outside.1 hv
  exact hne

/-- The analyzed vertices are those of the source files of the list; of several references to one place
the last one counts. -/
theorem analyzed_build :
    (r.build external files).value.analyzed = (Graph.addAll (r.loaded files)).files := by
  rw [build_eq, Graph.analyzed, Graph.files_link, unlinked]
  refine Graph.analyzed_addAll_append (fun v hv => analyzed_of_mem_loaded hv) fun v hv => ?_
  exact ⟨unanalyzed_of_mem_outside hv, ne_of_mem_outside hv⟩

/-- An analyzed vertex is a source file of the list with what it imports. -/
theorem eq_load_of_mem_analyzed {v : SourceFile} (hv : v ∈ (r.build external files).value.analyzed) :
    v.path ∈ files ∧ r.site.IsSource v.path.abs ∧ v = (r.load v.path).value := by
  rw [analyzed_build] at hv
  obtain ⟨f, hf, hsource, rfl⟩ := mem_loaded.1 (Graph.mem_of_mem_files_addAll hv)
  rw [path_load]
  exact ⟨hf, hsource, rfl⟩

/-- Each source file of the list has an analyzed vertex at its place. -/
theorem exists_mem_analyzed (external : Bool) {f : FileRef} (hf : f ∈ files)
    (hsource : r.site.IsSource f.abs) :
    ∃ v ∈ (r.build external files).value.analyzed, v.path.abs = f.abs := by
  rw [analyzed_build, ← Graph.mem_places, Graph.mem_places_addAll]
  exact ⟨_, mem_loaded.2 ⟨f, hf, hsource, rfl⟩, by rw [path_load]⟩

theorem mem_places_build {p : RealPath} :
    p ∈ (r.build external files).value.places ↔
      ∃ v ∈ r.loaded files ++ r.outside external files, v.path.abs = p := by
  rw [build_eq, Graph.places, Graph.files_link, ← Graph.places, unlinked, Graph.mem_places_addAll]

/-- Only analyzed vertices import anything. -/
theorem mem_analyzed_of_imports {v : SourceFile} {i : FileRef}
    (hv : v ∈ (r.build external files).value.files) (hi : i ∈ v.imports) :
    v ∈ (r.build external files).value.analyzed := by
  have hmem : v ∈ r.loaded files ++ r.outside external files := by
    rw [build_eq, Graph.files_link, unlinked] at hv
    exact Graph.mem_of_mem_files_addAll hv
  refine List.mem_filter.2 ⟨hv, ?_⟩
  rcases List.mem_append.1 hmem with hl | ho
  · exact analyzed_of_mem_loaded hl
  · obtain ⟨-, j, -, -, -, rfl⟩ := mem_outside.1 ho
    simp [SourceFile.external] at hi

/-- Edges lead from an analyzed vertex to each vertex that it imports. -/
theorem mem_edges_build {u v : RealPath} :
    (u, v) ∈ (r.build external files).value.edges ↔
      (∃ x ∈ (r.build external files).value.analyzed, x.path.abs = u ∧ ∃ i ∈ x.imports, i.abs = v) ∧
        v ∈ (r.build external files).value.places := by
  have hcons : (r.unlinked external files).Consistent := Graph.consistent_addAll _
  rw [build_eq, hcons.mem_edges_link, Graph.Due, ← build_eq]
  constructor
  · rintro ⟨⟨x, hx, hu, i, hi, hv⟩, hp⟩
    exact ⟨⟨x, mem_analyzed_of_imports hx hi, hu, i, hi, hv⟩, hp⟩
  · rintro ⟨⟨x, hx, hu, hi⟩, hp⟩
    exact ⟨⟨x, (List.mem_filter.1 hx).1, hu, hi⟩, hp⟩

/-- A place that an analyzed vertex imports has a vertex if and only if there is a source file and either
files outside are wanted or the place is in the list. -/
theorem mem_places_of_mem_imports {x : SourceFile} {i : FileRef}
    (hx : x ∈ (r.build external files).value.analyzed) (hi : i ∈ x.imports) :
    i.abs ∈ (r.build external files).value.places ↔
      r.site.IsSource i.abs ∧ (external = true ∨ ∃ f ∈ files, f.abs = i.abs) := by
  rw [mem_places_build]
  constructor
  · rintro ⟨v, hv, hp⟩
    rcases List.mem_append.1 hv with hl | ho
    · obtain ⟨f, hf, hsource, rfl⟩ := mem_loaded.1 hl
      rw [path_load] at hp
      exact ⟨hp ▸ hsource, .inr ⟨f, hf, hp⟩⟩
    · obtain ⟨hexternal, j, -, -, hsource, rfl⟩ := mem_outside.1 ho
      exact ⟨hp ▸ hsource, .inl hexternal⟩
  · rintro ⟨hsource, h⟩
    by_cases hl : ∃ v ∈ r.loaded files, v.path.abs = i.abs
    · obtain ⟨v, hv, hp⟩ := hl
      exact ⟨v, List.mem_append_left _ hv, hp⟩
    rcases h with rfl | ⟨f, hf, hp⟩
    · -- the place is none of the list, so its file is one of those outside
      rw [analyzed_build] at hx
      have hloaded := Graph.mem_of_mem_files_addAll hx
      have hout : SourceFile.external i ∈ r.outside true files :=
        mem_outside.2 ⟨rfl, i, ⟨x, hloaded, hi⟩, fun v hv hp => hl ⟨v, hv, hp⟩, hsource, rfl⟩
      exact ⟨_, List.mem_append_right _ hout, rfl⟩
    · exact absurd ⟨_, mem_loaded.2 ⟨f, hf, hp ▸ hsource, rfl⟩, by rw [path_load, hp]⟩ hl

end Resolver

end ImportAtlas
