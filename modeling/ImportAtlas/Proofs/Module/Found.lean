import ImportAtlas.Proofs.Disk.Contents
import ImportAtlas.Proofs.Graph.Build
import ImportAtlas.Proofs.Module.Relative
import ImportAtlas.Proofs.Path.Names

/-!
# The places of imports

A module is found under the path that its name spells, and the import refers to the canonical place of
that path. If modules are searched in absolute directories, a file is at that place. It is a source file
there only if the place itself has the extension of source files and the system takes its text; both may
fail although they hold of the path under which the file was found, since that path may lead through
links.

Main results:

* `ImportAtlas.Resolver.finds_written` — the paths under which modules are found;
* `ImportAtlas.Resolver.exists_file_of_mem_imports` — **there is a file at the place of each import**;
* `ImportAtlas.Site.isSource_iff_of_real` — when such a place is one of a source file.
-/

set_option autoImplicit false

namespace ImportAtlas

/-! ### Absolute directories -/

theorem Path.isAbsolute_of_parent? {p q : Path} (hp : p.isAbsolute = true) (h : p.parent? = some q) :
    q.isAbsolute = true := by
  rw [parent?, if_pos hp] at h
  split at h
  · cases h
  · cases h
    simp [ofPieces, isAbsolute, String.toList_append]

/-- A path that is absolute or written from one of some directories that is relative. -/
def Path.WrittenFrom (dirs : List Path) (p : Path) : Prop :=
  p.isAbsolute = true ∨ ∃ dir ∈ dirs, dir.isAbsolute = false ∧ dir.text.toList <+: p.text.toList

theorem Path.WrittenFrom.join {dirs : List Path} {p : Path} (h : p.WrittenFrom dirs) (q : Path) :
    (p.join q).WrittenFrom dirs := by
  rcases h with habs | ⟨dir, hdir, hrelative, hbegins⟩
  · exact .inl (Path.isAbsolute_join habs q)
  · cases hq : q.isAbsolute with
    | true =>
        refine .inl ?_
        rw [Path.join, if_pos hq, hq]
    | false =>
        refine .inr ⟨dir, hdir, hrelative, hbegins.trans ?_⟩
        rw [Path.join, if_neg (by simp [hq])]
        split
        · simp [String.toList_append]
        · simp [String.toList_append]

namespace Resolver

theorem isAbsolute_of_above? {n : Nat} {p q : Path} (hp : p.isAbsolute = true)
    (h : above? n p = some q) : q.isAbsolute = true := by
  induction n generalizing p with
  | zero =>
      cases h
      exact hp
  | succ n ih =>
      obtain ⟨parent, hparent, hq⟩ := Option.bind_eq_some_iff.1 h
      exact ih (Path.isAbsolute_of_parent? hp hparent) hq

/-- Relative names are seen from absolute directories. -/
theorem seenFrom_isAbsolute (file : FileRef) : SeenFrom (·.isAbsolute = true) file := by
  intro level base hbase
  exact isAbsolute_of_above? (RealPath.isAbsolute_toPath file.abs) hbase

end Resolver

/-! ### Places that are reached -/

namespace Site

variable {s : Site}

/-- A file at a real place with short names. -/
def IsRealFile (s : Site) (p : RealPath) : Prop :=
  (∃ bytes, s.disk.Real p (.file bytes)) ∧ ∀ n ∈ p, n.Short

/-- Where an absolute path leads to a file, there is a real one at its canonical place. -/
theorem isRealFile_canonicalize {p : Path} (hp : p.isAbsolute = true) (h : s.isFile p = true) :
    s.IsRealFile (s.canonicalize p) := by
  obtain ⟨place, bytes, hfind⟩ := isFile_eq_true_iff.1 h
  rw [canonicalize_of_find hfind]
  refine ⟨⟨bytes, real_of_find hp hfind⟩, ?_⟩
  have hleads := (locate_eq_ok_iff.1 (find_eq_ok_iff.1 hfind)).2
  rw [if_pos hp] at hleads
  exact hleads.short (by simp)

/-- A real file is found under the text of its place if the system takes that text. -/
theorem isFile_toPath_iff_of_real {p : RealPath} (h : s.IsRealFile p) :
    s.isFile (RealPath.toPath p) = true ↔ Spellable p := by
  obtain ⟨⟨bytes, hreal⟩, hshort⟩ := h
  have hleads := hreal.leadsTo?_eq
  rw [if_pos hshort] at hleads
  rw [isFile_eq_true_iff]
  simp only [find_eq_ok_iff_leadsTo? (RealPath.isAbsolute_toPath p), Disk.leadsTo?_steps_toPath, hleads]
  constructor
  · rintro ⟨place, read, htext, -⟩
    exact htext
  · intro htext
    exact ⟨p, bytes, htext, rfl⟩

/-- A real file is a source file if its place has the extension of source files and the system takes the
text of the place. -/
theorem isSource_iff_of_real {p : RealPath} (h : s.IsRealFile p) :
    s.IsSource p ↔ RealPath.extension? p = some "py" ∧ Spellable p := by
  rw [IsSource, isFile_toPath_iff_of_real h, and_comm]

theorem isFile_of_findModule? {name : String} {dirs : List Path} {file : Path}
    (h : s.findModule? name dirs = some (.source file)) :
    s.isFile file = true ∧ ∃ dir ∈ dirs, file = dir.join ⟨name ++ ".py"⟩ := by
  obtain ⟨dir, hdir, hfound⟩ := List.exists_of_findSome?_eq_some h
  rw [moduleIn?] at hfound
  split at hfound
  · cases hfound
  · split at hfound
    · next hfile =>
        cases hfound
        exact ⟨hfile, dir, hdir, rfl⟩
    · cases hfound

end Site

namespace Resolver

variable {r : Resolver}

theorem abs_ref {p : Path} (hp : p.isAbsolute = true) : (r.ref p).abs = r.site.canonicalize p := by
  rw [ref, Site.ref, if_pos hp]

/-- Modules on the disk are found under paths that are absolute or written from a relative directory of
the search path, and a file is found under each of these paths. -/
theorem finds_written (hfinder : r.finder = r.site.finder) :
    r.Finds (Path.WrittenFrom r.searchPath) fun i =>
      ∃ p, p.WrittenFrom r.searchPath ∧ r.site.isFile p = true ∧ i = r.ref p := by
  refine ⟨?_, ?_, ?_, ?_⟩
  · intro dir hdir
    cases habs : dir.isAbsolute with
    | true => exact .inl habs
    | false => exact .inr ⟨dir, hdir, habs, List.prefix_rfl⟩
  · intro module name _ dirs dir hdirs hfound
    rw [hfinder] at hfound
    obtain ⟨hpackage, parent, hparent, rfl⟩ := Site.exists_join_of_findModule? hfound
    have hwritten := (hdirs parent hparent).join ⟨name⟩
    exact ⟨hwritten, _, hwritten.join initializer, hpackage, rfl⟩
  · intro module name _ dirs file hdirs hfound
    rw [hfinder] at hfound
    obtain ⟨hfile, dir, hdir, rfl⟩ := Site.isFile_of_findModule? hfound
    exact ⟨_, (hdirs dir hdir).join _, hfile, rfl⟩
  · intro dir hdir hpackage
    rw [hfinder] at hpackage
    exact ⟨_, hdir.join initializer, hpackage, rfl⟩

/-- If modules are found on the disk, in absolute directories, there is a file at the place of each
import. -/
theorem exists_file_of_mem_imports (hfinder : r.finder = r.site.finder)
    (hsearch : ∀ dir ∈ r.searchPath, dir.isAbsolute = true) {file i : FileRef}
    (hi : i ∈ (r.load file).value.imports) : r.site.IsRealFile i.abs := by
  obtain ⟨p, hwritten, hfile, rfl⟩ :=
    (finds_written hfinder).load (fun level base hbase => .inl (seenFrom_isAbsolute file level base hbase))
      i hi
  have habs : p.isAbsolute = true := by
    rcases hwritten with habs | ⟨dir, hdir, hrelative, -⟩
    · exact habs
    · rw [hsearch dir hdir] at hrelative
      cases hrelative
  rw [abs_ref habs]
  exact Site.isRealFile_canonicalize habs hfile

end Resolver

end ImportAtlas
