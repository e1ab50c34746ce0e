import ImportAtlas.Graph.Build
import ImportAtlas.Proofs.Graph.Linking
import ImportAtlas.Proofs.Module.Imports

/-!
# The graph that is built

The graph of some files has a vertex for each of them that is a source file, with what it imports. If
files outside the list are wanted, it also has a vertex for each source file that one of the former
imports. It has one edge from each vertex to each vertex that it imports, and no other. This says all
about the graph but the order in which it is kept, so the order of the files and their repetitions do
not matter.

Main definitions:

* `ImportAtlas.Graph.Same` — the same vertices and edges, in whatever order they are kept;
* `ImportAtlas.Site.IsSource` — a file with the extension of source files;
* `ImportAtlas.Resolver.IsGraphOf` — what the graph of some files is.

Main results:

* `ImportAtlas.Resolver.mem_vertices` — the vertices for some files;
* `ImportAtlas.Resolver.IsGraphOf.perm` — the graph depends on the set of the files alone;
* `ImportAtlas.Resolver.isGraphOf_build` — **the graph that is built is the graph of its files**.
-/

set_option autoImplicit false

namespace ImportAtlas

/-- A place at which there is a file with the extension of source files. -/
def Site.IsSource (s : Site) (p : RealPath) : Prop :=
  s.isFile (RealPath.toPath p) = true ∧ RealPath.extension? p = some "py"

theorem RealPath.kind_eq_source_iff {p : RealPath} :
    RealPath.kind p = .source ↔ RealPath.extension? p = some "py" := by
  rw [RealPath.kind]
  constructor
  · intro h
    unfold FileKind.ofExtension? at h
    split at h
    · next hpy => exact hpy
    · cases h
    · cases h
    · cases h
  · intro h
    rw [h]
    rfl

/-- Two graphs with the same vertices and edges, in whatever order they are kept. -/
def Graph.Same (g h : Graph) : Prop := g.files.Perm h.files ∧ g.edges.Perm h.edges

instance (g h : Graph) : Decidable (g.Same h) := inferInstanceAs (Decidable (_ ∧ _))

theorem Graph.Same.refl (g : Graph) : g.Same g := ⟨.refl _, .refl _⟩

/-- The vertices that were read for their imports. -/
def Graph.analyzed (g : Graph) : List SourceFile := g.files.filter (·.analyzed)

/-- The vertices that are there only because others import them. -/
def Graph.unanalyzed (g : Graph) : List SourceFile := g.files.filter (!·.analyzed)

theorem Graph.mem_files_iff {g : Graph} {v : SourceFile} :
    v ∈ g.files ↔ v ∈ g.analyzed ∨ v ∈ g.unanalyzed := by
  cases hv : v.analyzed <;> simp [analyzed, unanalyzed, hv]

namespace Resolver

/-! ### Vertices -/

@[simp] theorem path_load (r : Resolver) (f : FileRef) : (r.load f).value.path = f := by
  rw [load]
  split <;> rfl

@[simp] theorem analyzed_load (r : Resolver) (f : FileRef) : (r.load f).value.analyzed = true := by
  rw [load]
  split <;> rfl

theorem vertex?_eq_some_iff (r : Resolver) {analyze : Bool} {f : FileRef} {v : SourceFile} :
    (r.vertex? analyze f).value = some v ↔
      r.site.IsSource f.abs ∧ v = if analyze then (r.load f).value else .external f := by
  rw [Site.IsSource, ← RealPath.kind_eq_source_iff, vertex?]
  cases hfile : r.site.isFile (RealPath.toPath f.abs) with
  | false => simp
  | true =>
      cases hkind : RealPath.kind f.abs with
      | source => cases analyze <;> simp [eq_comm]
      | compiled => simp
      | other => simp

/-- The vertices for some files: one for each source file among them. -/
theorem mem_vertices (r : Resolver) {analyze : Bool} {files : List FileRef} {v : SourceFile} :
    v ∈ (r.vertices analyze files).value ↔
      ∃ f ∈ files, r.site.IsSource f.abs ∧ v = if analyze then (r.load f).value else .external f := by
  induction files with
  | nil => simp [vertices]
  | cons f files ih =>
      have hcons : (r.vertices analyze (f :: files)).value =
          (r.vertex? analyze f).value.toList ++ (r.vertices analyze files).value := rfl
      rw [hcons, List.mem_append, ih, Option.mem_toList, vertex?_eq_some_iff]
      simp

theorem mem_externals {files : List SourceFile} {i : FileRef} :
    i ∈ externals files ↔
      (∃ f ∈ files, i ∈ f.imports) ∧ ∀ f ∈ files, f.path.abs ≠ i.abs := by
  simp [externals, Order.mem_sortedSet]

/-! ### Graphs of files -/

/-- What the graph of some files is. -/
structure IsGraphOf (r : Resolver) (external : Bool) (files : List FileRef) (g : Graph) : Prop where
  /-- No two vertices have one place. -/
  nodup_places : g.places.Nodup
  /-- The analyzed vertices are those of the source files among the files. -/
  mem_analyzed : ∀ v, v ∈ g.analyzed ↔ ∃ f ∈ files, r.site.IsSource f.abs ∧ v = (r.load f).value
  /-- The others, if they are wanted, are those of the source files that are imported and are not
  analyzed themselves. -/
  mem_unanalyzed : ∀ v, v ∈ g.unanalyzed ↔
    external = true ∧ ∃ i, (∃ u ∈ g.analyzed, i ∈ u.imports) ∧
      (∀ u ∈ g.analyzed, u.path.abs ≠ i.abs) ∧ r.site.IsSource i.abs ∧ v = .external i
  /-- No edge is there twice. -/
  nodup_edges : g.edges.Nodup
  /-- Edges lead from an analyzed vertex to each vertex that it imports. -/
  mem_edges : ∀ u v, (u, v) ∈ g.edges ↔
    (∃ f ∈ g.analyzed, f.path.abs = u ∧ ∃ i ∈ f.imports, i.abs = v) ∧ v ∈ g.places

/-- The graph of some files depends on which files they are, and not on their order or how often they
are repeated. -/
theorem IsGraphOf.perm {r : Resolver} {external : Bool} {files files' : List FileRef} {g g' : Graph}
    (hg : r.IsGraphOf external files g) (hg' : r.IsGraphOf external files' g')
    (h : ∀ f, f ∈ files ↔ f ∈ files') : g.files.Perm g'.files ∧ g.edges.Perm g'.edges := by
  have hanalyzed : ∀ v, v ∈ g.analyzed ↔ v ∈ g'.analyzed := by
    intro v
    simp only [hg.mem_analyzed, hg'.mem_analyzed, h]
  have hfiles : ∀ v, v ∈ g.files ↔ v ∈ g'.files := by
    intro v
    simp only [Graph.mem_files_iff, hg.mem_unanalyzed, hg'.mem_unanalyzed, hanalyzed]
  constructor
  · exact (List.perm_ext_iff_of_nodup hg.nodup_places.of_map hg'.nodup_places.of_map).2 hfiles
  · refine (List.perm_ext_iff_of_nodup hg.nodup_edges hg'.nodup_edges).2 ?_
    rintro ⟨u, v⟩
    simp only [hg.mem_edges, hg'.mem_edges, Graph.mem_places, hfiles, hanalyzed]

/-! ### The graph that is built -/

/-- The vertices for the source files among some files. -/
def loaded (r : Resolver) (files : List FileRef) : List SourceFile := (r.vertices true files).value

/-- The vertices for the source files outside that some files import, if these are wanted. -/
def outside (r : Resolver) (external : Bool) (files : List FileRef) : List SourceFile :=
  (r.vertices false (if external then externals (r.loaded files) else [])).value

/-- The graph that is built before it is linked. -/
def unlinked (r : Resolver) (external : Bool) (files : List FileRef) : Graph :=
  Graph.addAll (r.loaded files ++ r.outside external files)

theorem build_eq (r : Resolver) (external : Bool) (files : List FileRef) :
    (r.build external files).value = (r.unlinked external files).link.value.1 := rfl

section Build

variable {r : Resolver} {external : Bool} {files : List FileRef} {v : SourceFile}

theorem mem_loaded :
    v ∈ r.loaded files ↔ ∃ f ∈ files, r.site.IsSource f.abs ∧ v = (r.load f).value := by
  rw [loaded, mem_vertices]
  rfl

theorem mem_outside :
    v ∈ r.outside external files ↔
      external = true ∧ ∃ i, (∃ u ∈ r.loaded files, i ∈ u.imports) ∧
        (∀ u ∈ r.loaded files, u.path.abs ≠ i.abs) ∧ r.site.IsSource i.abs ∧ v = .external i := by
  rw [outside, mem_vertices]
  cases external with
  | false => simp
  | true => simp [mem_externals, and_assoc]

theorem analyzed_of_mem_loaded (hv : v ∈ r.loaded files) : v.analyzed = true := by
  obtain ⟨f, -, -, rfl⟩ := mem_loaded.1 hv
  exact r.analyzed_load f

theorem unanalyzed_of_mem_outside (hv : v ∈ r.outside external files) : v.analyzed = false := by
  obtain ⟨-, i, -, -, -, rfl⟩ := mem_outside.1 hv
  rfl

/-- If the files have one root, then vertices with one place are the same. -/
theorem file_eq_of_mem {root : RealPath} (hroot : ∀ f ∈ files, f.root = root) :
    ∀ u ∈ r.loaded files ++ r.outside external files,
      ∀ v ∈ r.loaded files ++ r.outside external files, u.path.abs = v.path.abs → u = v := by
  intro u hu v hv huv
  rcases List.mem_append.1 hu with hu | hu <;> rcases List.mem_append.1 hv with hv | hv
  · obtain ⟨f, hf, -, rfl⟩ := mem_loaded.1 hu
    obtain ⟨k, hk, -, rfl⟩ := mem_loaded.1 hv
    rw [path_load, path_load] at huv
    rw [FileRef.eq_of_abs ((hroot f hf).trans (hroot k hk).symm) huv]
  · obtain ⟨-, i, -, hne, -, rfl⟩ := mem_outside.1 hv
    exact absurd huv (hne u hu)
  · obtain ⟨-, i, -, hne, -, rfl⟩ := mem_outside.1 hu
    exact absurd huv.symm (hne v hv)
  · -- both were imported, and imports have the root of the resolver
    obtain ⟨-, i, ⟨f, hf, hi⟩, -, -, rfl⟩ := mem_outside.1 hu
    obtain ⟨-, j, ⟨k, hk, hj⟩, -, -, rfl⟩ := mem_outside.1 hv
    obtain ⟨f, -, -, rfl⟩ := mem_loaded.1 hf
    obtain ⟨k, -, -, rfl⟩ := mem_loaded.1 hk
    have hroots := (r.root_of_mem_imports hi).trans (r.root_of_mem_imports hj).symm
    rw [FileRef.eq_of_abs hroots huv]

theorem mem_files_unlinked {root : RealPath} (hroot : ∀ f ∈ files, f.root = root) :
    v ∈ (r.unlinked external files).files ↔ v ∈ r.loaded files ∨ v ∈ r.outside external files := by
  rw [unlinked, Graph.mem_files_addAll (file_eq_of_mem hroot), List.mem_append]

theorem mem_analyzed_build {root : RealPath} (hroot : ∀ f ∈ files, f.root = root) :
    v ∈ (r.build external files).value.analyzed ↔ v ∈ r.loaded files := by
  rw [build_eq, Graph.analyzed, Graph.files_link, List.mem_filter, mem_files_unlinked hroot]
  constructor
  · rintro ⟨hv | hv, ha⟩
    · exact hv
    · rw [unanalyzed_of_mem_outside hv] at ha
      cases ha
  · intro hv
    exact ⟨Or.inl hv, analyzed_of_mem_loaded hv⟩

theorem mem_unanalyzed_build {root : RealPath} (hroot : ∀ f ∈ files, f.root = root) :
    v ∈ (r.build external files).value.unanalyzed ↔ v ∈ r.outside external files := by
  rw [build_eq, Graph.unanalyzed, Graph.files_link, List.mem_filter, mem_files_unlinked hroot]
  constructor
  · rintro ⟨hv | hv, ha⟩
    · rw [analyzed_of_mem_loaded hv] at ha
      cases ha
    · exact hv
  · intro hv
    exact ⟨Or.inr hv, by rw [unanalyzed_of_mem_outside hv]; rfl⟩

/-- Files outside are not read, so only analyzed vertices import anything. -/
theorem mem_analyzed_of_mem_imports {root : RealPath} (hroot : ∀ f ∈ files, f.root = root)
    {i : FileRef} (hv : v ∈ (r.build external files).value.files) (hi : i ∈ v.imports) :
    v ∈ (r.build external files).value.analyzed := by
  rcases Graph.mem_files_iff.1 hv with hv | hv
  · exact hv
  · obtain ⟨-, j, -, -, -, rfl⟩ := mem_outside.1 ((mem_unanalyzed_build hroot).1 hv)
    simp [SourceFile.external] at hi

theorem nodup_imports_of_mem {root : RealPath} (hroot : ∀ f ∈ files, f.root = root)
    (hv : v ∈ (r.unlinked external files).files) : (v.imports.toList.map (·.abs)).Nodup := by
  rcases (mem_files_unlinked hroot).1 hv with hv | hv
  · obtain ⟨f, -, -, rfl⟩ := mem_loaded.1 hv
    exact r.nodup_imports f
  · obtain ⟨-, i, -, -, -, rfl⟩ := mem_outside.1 hv
    exact List.nodup_nil

/-- The graph that is built is the graph of its files. -/
theorem isGraphOf_build {root : RealPath} (hroot : ∀ f ∈ files, f.root = root) :
    r.IsGraphOf external files (r.build external files).value := by
  have hcons : (r.unlinked external files).Consistent := Graph.consistent_addAll _
  refine ⟨hcons.link.nodup_places, ?_, ?_, ?_, ?_⟩
  · intro v
    rw [mem_analyzed_build hroot, mem_loaded]
  · intro v
    simp only [mem_unanalyzed_build hroot, mem_outside, mem_analyzed_build hroot]
  · -- there are no edges before linking, so all of them are new
    rw [build_eq, Graph.edges_link, unlinked, Graph.edges_addAll, List.nil_append]
    exact Graph.nodup_newEdges hcons.nodup_places fun v hv => nodup_imports_of_mem hroot hv
  · intro u v
    rw [build_eq, hcons.mem_edges_link, Graph.Due, ← build_eq]
    constructor
    · rintro ⟨⟨f, hf, hu, i, hi, hv⟩, hp⟩
      exact ⟨⟨f, mem_analyzed_of_mem_imports hroot hf hi, hu, i, hi, hv⟩, hp⟩
    · rintro ⟨⟨f, hf, hu, hi⟩, hp⟩
      exact ⟨⟨f, (List.mem_filter.1 hf).1, hu, hi⟩, hp⟩

end Build

/-- **The graph that is built is the graph of its files**, and it stays the same, up to the order in
which it is kept, if the files are listed in another order or more than once. -/
theorem build_determined_by_files (r : Resolver) (external : Bool) (root : RealPath)
    (files : List FileRef) (hroot : ∀ f ∈ files, f.root = root) :
    r.IsGraphOf external files (r.build external files).value ∧
      ∀ files' : List FileRef, (∀ f, f ∈ files' ↔ f ∈ files) →
        (r.build external files').value.files.Perm (r.build external files).value.files ∧
          (r.build external files').value.edges.Perm (r.build external files).value.edges := by
  have hg : r.IsGraphOf external files (r.build external files).value := isGraphOf_build hroot
  refine ⟨hg, fun files' h => ?_⟩
  have hroot' : ∀ f ∈ files', f.root = root := fun f hf => hroot f ((h f).1 hf)
  exact (isGraphOf_build hroot').perm hg h

/-- A directory with a file that imports another one and itself, and with a file that is no source. -/
def sampleSite : Site where
  disk :=
    { entries :=
        [(.of ["p"], .directory), (.of ["p", "a.py"], .file (Text.encode "import b, a\n")),
          (.of ["p", "b.py"], .file []), (.of ["p", "b.txt"], .file [])] }
  cwd := []

/-- The resolver for the modules in that directory. -/
def sampleResolver : Resolver := ⟨sampleSite, sampleSite.finder, [⟨"/p"⟩], ⟨"/p"⟩⟩

/-- The importing file twice, and the one that is no source. -/
def sampleFiles : List FileRef :=
  [⟨.of ["p", "a.py"], .of ["p"]⟩, ⟨.of ["p", "b.txt"], .of ["p"]⟩, ⟨.of ["p", "a.py"], .of ["p"]⟩]

theorem build_determined_by_sampleFiles :
    (sampleResolver.build true sampleFiles).value.edges =
        [(.of ["p", "a.py"], .of ["p", "a.py"]), (.of ["p", "a.py"], .of ["p", "b.py"])] ∧
      sampleResolver.IsGraphOf true sampleFiles (sampleResolver.build true sampleFiles).value ∧
      ∀ files' : List FileRef, (∀ f, f ∈ files' ↔ f ∈ sampleFiles) →
        (sampleResolver.build true files').value.files.Perm
            (sampleResolver.build true sampleFiles).value.files ∧
          (sampleResolver.build true files').value.edges.Perm
            (sampleResolver.build true sampleFiles).value.edges :=
  ⟨by decide +kernel,
    build_determined_by_files sampleResolver true (.of ["p"]) sampleFiles (by decide +kernel)⟩

end Resolver

end ImportAtlas
