import ImportAtlas.Proofs.Graph.Vertices
import ImportAtlas.Proofs.Module.Found

/-!
# Imports without a vertex

When files outside the list are wanted, an import gets a vertex, and an edge leads to it, if and only if
the place that it refers to is one of a source file. An import is lost without notice if a link gives a
file with another extension the name of a module.

Main results:

* `ImportAtlas.Resolver.import_has_vertex_iff` — **which imports have a vertex and an edge**;
* `ImportAtlas.Resolver.import_lost_behind_link` — an import without a vertex.
-/

set_option autoImplicit false

namespace ImportAtlas

namespace Resolver

/-- **An import has a vertex, and an edge to it, if and only if its place is one of a source file.** If
modules are searched in absolute directories, then a file is at the place, and it is a source file if and
only if the place has the extension of source files and the system takes the text of the place. -/
theorem import_has_vertex_iff (r : Resolver) (hfinder : r.finder = r.site.finder)
    (files : List FileRef) :
    ∀ u ∈ (r.build true files).value.files, ∀ i ∈ u.imports,
      (i.abs ∈ (r.build true files).value.places ↔ r.site.IsSource i.abs) ∧
        ((u.path.abs, i.abs) ∈ (r.build true files).value.edges ↔ r.site.IsSource i.abs) ∧
        ((∀ dir ∈ r.searchPath, dir.isAbsolute = true) →
          (∃ bytes, r.site.disk.Real i.abs (.file bytes)) ∧
            (r.site.IsSource i.abs ↔
              RealPath.extension? i.abs = some "py" ∧ Site.Spellable i.abs)) := by
  intro u hu i hi
  have hanalyzed := mem_analyzed_of_imports hu hi
  have hplace : i.abs ∈ (r.build true files).value.places ↔ r.site.IsSource i.abs := by
    simpa using mem_places_of_mem_imports hanalyzed hi
  refine ⟨hplace, ?_, fun hsearch => ?_⟩
  · rw [← hplace, mem_edges_build, and_iff_right_iff_imp]
    intro _
    exact ⟨u, hanalyzed, rfl, i, hi, rfl⟩
  · obtain ⟨-, -, hload⟩ := eq_load_of_mem_analyzed hanalyzed
    rw [hload] at hi
    have hfile := exists_file_of_mem_imports hfinder hsearch hi
    exact ⟨hfile.1, Site.isSource_iff_of_real hfile⟩

/-- A directory with a file that imports two modules, one of which is a link to a text. -/
def disguisedSite : Site where
  disk :=
    { entries :=
        [(.of ["p"], .directory), (.of ["p", "main.py"], .file (Text.encode "import m, n\n")),
          (.of ["p", "m.txt"], .file []), (.of ["p", "m.py"], .link ⟨"m.txt"⟩),
          (.of ["p", "n.py"], .file [])] }
  cwd := []

/-- The resolver for the modules in that directory. -/
def disguisedResolver : Resolver := ⟨disguisedSite, disguisedSite.finder, [⟨"/p"⟩], ⟨"/p"⟩⟩

theorem import_has_vertex_iff_disguised :
    (∀ dir ∈ disguisedResolver.searchPath, dir.isAbsolute = true) ∧
      (∃ u ∈ (disguisedResolver.build true [⟨.of ["p", "main.py"], .of ["p"]⟩]).value.files,
        u.imports.toList = [⟨.of ["p", "m.txt"], .of ["p"]⟩, ⟨.of ["p", "n.py"], .of ["p"]⟩]) ∧
      ∀ u ∈ (disguisedResolver.build true [⟨.of ["p", "main.py"], .of ["p"]⟩]).value.files,
        ∀ i ∈ u.imports,
          (i.abs ∈ (disguisedResolver.build true [⟨.of ["p", "main.py"], .of ["p"]⟩]).value.places ↔
            RealPath.extension? i.abs = some "py" ∧ Site.Spellable i.abs) := by
  have habs : ∀ dir ∈ disguisedResolver.searchPath, dir.isAbsolute = true := by decide +kernel
  refine ⟨habs, by decide +kernel, fun u hu i hi => ?_⟩
  obtain ⟨hplace, -, hreal⟩ :=
    import_has_vertex_iff disguisedResolver rfl [⟨.of ["p", "main.py"], .of ["p"]⟩] u hu i hi
  exact hplace.trans (hreal habs).2

/-- An import whose module is a link to a text has no vertex, and so no edge leads to it. -/
theorem import_lost_behind_link :
    ∃ u ∈ (disguisedResolver.build true [⟨.of ["p", "main.py"], .of ["p"]⟩]).value.files, ∃ i ∈ u.imports,
      i.abs ∉ (disguisedResolver.build true [⟨.of ["p", "main.py"], .of ["p"]⟩]).value.places ∧
        (u.path.abs, i.abs) ∉
          (disguisedResolver.build true [⟨.of ["p", "main.py"], .of ["p"]⟩]).value.edges := by
  decide +kernel

end Resolver

end ImportAtlas
