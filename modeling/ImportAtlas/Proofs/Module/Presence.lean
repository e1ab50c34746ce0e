import ImportAtlas.Proofs.Module.Found
import ImportAtlas.Proofs.Module.SearchPath
import ImportAtlas.Proofs.Path.Canonical
import ImportAtlas.Workspace.Basic

/-!
# Imports of files that are there

That there is a file is asked for the path under which a module is found, while an import refers to the
canonical place of that path. If the path is absolute, there is a file at that place, and the place stays
as it is when it is made canonical again, however the links lie. Only a relative directory of the search
path can lead to an import without a file: modules are searched in it from the current directory, while
references are made from the root.

Main definitions:

* `ImportAtlas.Site.Present` — a file is at a place, which stays as it is;
* `ImportAtlas.Site.Misplaced` — a path that leads to a file from the current directory, and to none from
  a root.

Main results:

* `ImportAtlas.Site.present_canonicalize` — absolute paths of files have places at which files are;
* `ImportAtlas.Site.present_of_mem_imports` — there is a file at the place of each import in a workspace;
* `ImportAtlas.Site.imports_present_or_misplaced` — **there is a file at the place of each import that was
  not found from a relative directory**;
* `ImportAtlas.Site.import_absent_driftingSite` — an import without a file.
-/

set_option autoImplicit false

namespace ImportAtlas

open Python (ImportStatement)

namespace Site

variable {s : Site}

/-- A file is at a place, with nothing but directories above it. The place stays as it is when it is made
canonical, and the file is found there if the system takes the text of the place. -/
structure Present (s : Site) (p : RealPath) : Prop where
  file : ∃ bytes, s.disk.Real p (.file bytes)
  canonical : s.canonicalize (RealPath.toPath p) = p
  isFile_iff : s.isFile (RealPath.toPath p) = true ↔ Spellable p

theorem IsRealFile.present {p : RealPath} (h : s.IsRealFile p) : s.Present p := by
  obtain ⟨bytes, hreal⟩ := h.1
  exact ⟨h.1, canonicalize_toPath_eq_iff.2 (settled_of_real hreal), isFile_toPath_iff_of_real h⟩

/-- Absolute paths that lead to files have places at which files are. -/
theorem present_canonicalize {p : Path} (hp : p.isAbsolute = true) (h : s.isFile p = true) :
    s.Present (s.canonicalize p) :=
  (isRealFile_canonicalize hp h).present

/-- In a workspace modules are searched in absolute directories only, so there is a file at the place of
each import. -/
theorem present_of_mem_imports (w : Workspace) {file i : FileRef}
    (hi : i ∈ ((w.resolver s).load file).value.imports) : s.Present i.abs := by
  refine (Resolver.exists_file_of_mem_imports rfl ?_ hi).present
  intro dir hdir
  obtain ⟨place, -, rfl⟩ := List.mem_map.1 hdir
  exact RealPath.isAbsolute_toPath place

/-- A path that is written from one of some relative directories, and that leads to a file from the
current directory, but not from a root. -/
structure Misplaced (s : Site) (root : RealPath) (dirs : List Path) (p : Path) : Prop where
  relative : p.isAbsolute = false
  written : ∃ dir ∈ dirs, dir.isAbsolute = false ∧ dir.text.toList <+: p.text.toList
  isFile : s.isFile p = true
  isFile_join : s.isFile ((RealPath.toPath root).join p) = false

/-- The reference to a file that is found under a path refers to a file, unless the path is misplaced. -/
theorem present_ref_or_misplaced {p root : Path} {dirs : List Path} (hwritten : p.WrittenFrom dirs)
    (hfile : s.isFile p = true) :
    s.Present (s.ref p root).abs ∨ s.Misplaced (s.canonicalize root) dirs p := by
  cases hp : p.isAbsolute with
  | true =>
      have habs : (s.ref p root).abs = s.canonicalize p := by simp [ref, hp]
      rw [habs]
      exact .inl (present_canonicalize hp hfile)
  | false =>
      have habs : (s.ref p root).abs =
          s.canonicalize ((RealPath.toPath (s.canonicalize root)).join p) := by simp [ref, hp]
      cases hjoin : s.isFile ((RealPath.toPath (s.canonicalize root)).join p) with
      | true =>
          rw [habs]
          exact .inl (present_canonicalize (isAbsolute_toPath_join _ p) hjoin)
      | false =>
          rcases hwritten with habsolute | hrelative
          · rw [hp] at habsolute
            cases habsolute
          · exact .inr ⟨hp, hrelative, hfile, hjoin⟩

/-- **There is a file at the place of each import that was not found from a relative directory.** On every
disk, whatever links are on it, all that some statements import has the canonical root and different
places. At each place there is a file, and the place stays as it is when it is made canonical, unless a
relative directory of the search path led to a file from the current directory and leads to none from the
root. -/
theorem imports_present_or_misplaced (s : Site) (root : Path) (dirs : List Path) (importer : FileRef)
    (statements : List ImportStatement) :
    let found := ((s.resolver root dirs).resolveStatements importer statements).value
    (found.toList.map (·.abs)).Nodup ∧
      ∀ i ∈ found, i.root = s.canonicalize root ∧
        (s.Present i.abs ∨ ∃ p, s.Misplaced i.root dirs p ∧ i = s.ref p root) := by
  intro found
  have hroot : ∀ i ∈ found, i.root = s.canonicalize root :=
    (s.resolver root dirs).finds_root.resolveStatements (fun _ _ _ => trivial) statements
  refine ⟨Resolver.nodup_places found.inOrder hroot, ?_⟩
  intro i hi
  have habove : Resolver.SeenFrom (Path.WrittenFrom dirs) importer := fun level base hbase =>
    .inl (Resolver.seenFrom_isAbsolute importer level base hbase)
  have hfinds : (s.resolver root dirs).Finds (Path.WrittenFrom dirs) _ := Resolver.finds_written rfl
  obtain ⟨p, hwritten, hfile, rfl⟩ := hfinds.resolveStatements habove statements i hi
  refine ⟨rfl, (present_ref_or_misplaced hwritten hfile).imp id fun hmisplaced => ?_⟩
  exact ⟨p, hmisplaced, rfl⟩

/-- A directory that is searched through a link, with a link to a file in another directory. -/
def borrowingSite : Site where
  disk :=
    { entries :=
        [(.of ["p"], .directory), (.of ["p", "lib"], .link ⟨"../real"⟩), (.of ["real"], .directory),
          (.of ["real", "m.py"], .link ⟨"/store/n.py"⟩), (.of ["store"], .directory),
          (.of ["store", "n.py"], .file [])] }
  cwd := .of ["p"]

theorem imports_present_or_misplaced_borrowingSite :
    ((borrowingSite.resolver ⟨"."⟩ [⟨"/p/lib"⟩]).resolveStatements ⟨.of ["p", "main.py"], .of ["p"]⟩
        [.modules ["m"]]).value = .ofList [⟨.of ["store", "n.py"], .of ["p"]⟩] ∧
      borrowingSite.Present (.of ["store", "n.py"]) := by
  have hvalue : ((borrowingSite.resolver ⟨"."⟩ [⟨"/p/lib"⟩]).resolveStatements
      ⟨.of ["p", "main.py"], .of ["p"]⟩ [.modules ["m"]]).value =
        .ofList [⟨.of ["store", "n.py"], .of ["p"]⟩] := by
    decide +kernel
  obtain ⟨-, hfound⟩ := imports_present_or_misplaced borrowingSite ⟨"."⟩ [⟨"/p/lib"⟩]
    ⟨.of ["p", "main.py"], .of ["p"]⟩ [.modules ["m"]]
  rw [hvalue] at hfound
  obtain ⟨-, hpresent | ⟨p, hmisplaced, -⟩⟩ :=
    hfound ⟨.of ["store", "n.py"], .of ["p"]⟩ (SortedSet.mem_ofList.2 (by simp))
  · exact ⟨hvalue, hpresent⟩
  · obtain ⟨dir, hdir, hrelative, -⟩ := hmisplaced.written
    rw [List.mem_singleton.1 hdir] at hrelative
    exact absurd hrelative (by decide)

/-- Two directories, of which one has a module. -/
def driftingSite : Site where
  disk :=
    { entries := [(.of ["p"], .directory), (.of ["q"], .directory), (.of ["q", "m.py"], .file [])] }
  cwd := []

/-- A module that is found from the current directory is taken to be below the root, where there is
none. -/
theorem import_absent_driftingSite :
    ((driftingSite.resolver ⟨"/p"⟩ [⟨"q"⟩]).resolveStatements ⟨.of ["p", "main.py"], .of ["p"]⟩
        [.modules ["m"]]).value = .ofList [⟨.of ["p", "q", "m.py"], .of ["p"]⟩] ∧
      driftingSite.disk.entry? (.of ["p", "q", "m.py"]) = none ∧
      driftingSite.isFile (RealPath.toPath (.of ["p", "q", "m.py"])) = false := by
  decide +kernel

end Site

end ImportAtlas
