import ImportAtlas.Proofs.Disk.Contents
import ImportAtlas.Proofs.Graph.Reading
import ImportAtlas.Proofs.Graph.Vertices

/-!
# What one file can change

The search for modules asks which files there are and never what they hold. So if two sites differ only
in what one file holds, all names are resolved to the same references on both, and every other file
imports the same. The vertices outside the list may come and go with the imports of that one file; but
whether a place that another file imports has a vertex does not depend on them.

Main definitions:

* `ImportAtlas.Resolver.SameAnswers` — two resolvers that find the same and make the same references.

Main results:

* `ImportAtlas.Resolver.SameAnswers.resolveStatements` — such resolvers resolve statements alike;
* `ImportAtlas.Site.SameBut.map_path_analyzed`, `ImportAtlas.Site.SameBut.load`,
  `ImportAtlas.Site.SameBut.mem_edges` — analyzed vertices, imports and edges on two such sites;
* `ImportAtlas.Resolver.imports_eq_empty_of_unreadable` — a file that cannot be read imports nothing;
* `ImportAtlas.Resolver.build_confined_to_file` — **what one file holds affects its own edges alone**.
-/

set_option autoImplicit false

namespace ImportAtlas

namespace Resolver

/-! ### Resolvers with the same answers -/

/-- Two resolvers that find the same modules in the same directories and make the same references. -/
structure SameAnswers (r r' : Resolver) : Prop where
  finder : r.finder = r'.finder
  searchPath : r.searchPath = r'.searchPath
  ref : ∀ p, r.ref p = r'.ref p

namespace SameAnswers

variable {r r' : Resolver}

theorem chain (h : r.SameAnswers r') (module : String) (segments : List String) (dirs : List Path) :
    r.chain module segments dirs = r'.chain module segments dirs := by
  induction segments generalizing dirs with
  | nil => simp only [Resolver.chain]
  | cons segment rest ih => simp only [Resolver.chain, h.finder, h.ref, ih]

theorem resolveIn (h : r.SameAnswers r') (module : String) (dirs : List Path) :
    r.resolveIn module dirs = r'.resolveIn module dirs := by
  simp only [Resolver.resolveIn, h.chain]

theorem resolveRelative (h : r.SameAnswers r') (importer : Path) (level : Nat)
    (module : Option String) :
    r.resolveRelative importer level module = r'.resolveRelative importer level module := by
  simp only [Resolver.resolveRelative, Resolver.initializerOf, h.finder, h.ref, h.resolveIn]

theorem resolveTarget (h : r.SameAnswers r') (importer : FileRef) (target : Target) :
    r.resolveTarget importer target = r'.resolveTarget importer target := by
  cases target with
  | absolute module =>
      rw [Resolver.resolveTarget, Resolver.resolveTarget, resolve, resolve, h.searchPath, h.resolveIn]
  | relative level module => exact h.resolveRelative _ level module

/-- Statements are resolved to the same references. -/
theorem resolveStatements (h : r.SameAnswers r') (importer : FileRef)
    (statements : List Python.ImportStatement) :
    r.resolveStatements importer statements = r'.resolveStatements importer statements := by
  have habsorb : r.absorb importer = r'.absorb importer := by
    funext found reference
    rw [absorb, absorb, h.resolveTarget]
  rw [Resolver.resolveStatements, Resolver.resolveStatements, habsorb]

end SameAnswers

theorem map_path_vertex? {r r' : Resolver} {f : FileRef}
    (h : r.site.IsSource f.abs ↔ r'.site.IsSource f.abs) :
    (r.vertex? true f).value.map (·.path) = (r'.vertex? true f).value.map (·.path) := by
  ext ref
  simp only [Option.map_eq_some_iff, vertex?_eq_some_iff, h]
  constructor
  · rintro ⟨v, ⟨hsource, rfl⟩, rfl⟩
    exact ⟨_, ⟨hsource, rfl⟩, by simp⟩
  · rintro ⟨v, ⟨hsource, rfl⟩, rfl⟩
    exact ⟨_, ⟨hsource, rfl⟩, by simp⟩

/-- Which references are loaded depends on which of them are source files. -/
theorem map_path_loaded {r r' : Resolver} (h : ∀ p, r.site.IsSource p ↔ r'.site.IsSource p)
    (files : List FileRef) :
    (r.loaded files).map (·.path) = (r'.loaded files).map (·.path) := by
  induction files with
  | nil => rfl
  | cons f files ih =>
      have hcons : ∀ r : Resolver, (r.loaded (f :: files)).map (·.path) =
          ((r.vertex? true f).value.map (·.path)).toList ++ (r.loaded files).map (·.path) := by
        intro r
        have hloaded : r.loaded (f :: files) = (r.vertex? true f).value.toList ++ r.loaded files := rfl
        rw [hloaded, List.map_append, Option.toList_map]
      rw [hcons, hcons, ih, map_path_vertex? (h f.abs)]

/-- A file imports nothing if no text can be read that makes sense. -/
theorem imports_eq_empty_of_unreadable {r : Resolver} {file : FileRef} {f : RealPath} {bytes : List UInt8}
    (hfile : r.site.realPath (RealPath.toPath file.abs) = .ok f)
    (hbytes : r.site.disk.entry? f = some (.file bytes))
    (hbad : ∀ text, Text.decode? bytes = some text → ∃ e, Python.importsOf text = .error e) :
    (r.load file).value.imports = ∅ := by
  cases hscan : r.scan file with
  | error e => rw [value_load_of_error hscan]
  | ok statements =>
      obtain ⟨text, hread, hparse⟩ := scan_eq_ok_iff.1 hscan
      obtain ⟨place, read, hfind, hdecode⟩ := Site.readText_eq_ok_iff.1 hread
      -- what is read is what stands at the place that the path leads to
      obtain ⟨e, hfound⟩ := Site.realPath_eq_ok_iff.1 hfile
      obtain ⟨rfl, -⟩ := Prod.mk.inj (Except.ok.inj (hfind.symm.trans hfound))
      have hentry := (Site.real_of_find (RealPath.isAbsolute_toPath file.abs) hfind).entry
      rw [hbytes, Option.some.injEq, Entry.file.injEq] at hentry
      rw [← hentry] at hdecode
      obtain ⟨e, he⟩ := hbad text hdecode
      rw [he] at hparse
      cases hparse

end Resolver

/-! ### Graphs on two sites -/

namespace Site.SameBut

variable {s s' : Site} {f : RealPath} {external : Bool} {files : List FileRef}

theorem finder (h : s.SameBut s' f) : s.finder = s'.finder := by
  have hpackage : s.isPackage = s'.isPackage := funext fun dir => h.isFile _
  have hmodule : s.findModule? = s'.findModule? := by
    funext name dirs
    have hin : s.moduleIn? name = s'.moduleIn? name := by
      funext dir
      simp only [moduleIn?, hpackage, h.isFile]
    rw [findModule?, findModule?, hin]
  rw [Site.finder, Site.finder, hmodule, hpackage]

theorem sameAnswers (h : s.SameBut s' f) (r : Resolver) : (r.onSite s).SameAnswers (r.onSite s') :=
  ⟨h.finder, rfl, fun p => h.ref p r.root⟩

theorem isSource_iff (h : s.SameBut s' f) (p : RealPath) : s.IsSource p ↔ s'.IsSource p := by
  rw [IsSource, IsSource, h.isFile]

/-- A file that does not lead to the one that differs imports the same. -/
theorem load (h : s.SameBut s' f) (r : Resolver) {file : FileRef}
    (hfile : s.realPath (RealPath.toPath file.abs) ≠ .ok f) :
    ((r.onSite s).load file).value = ((r.onSite s').load file).value :=
  Resolver.load_eq (h.alike hfile).agree.2 fun statements _ => by
    rw [(h.sameAnswers r).resolveStatements]

/-- The same references are analyzed on both sites. -/
theorem map_path_analyzed (h : s.SameBut s' f) (r : Resolver) :
    ((r.onSite s).build external files).value.analyzed.map (·.path) =
      ((r.onSite s').build external files).value.analyzed.map (·.path) := by
  have hsource : ∀ p, (r.onSite s).site.IsSource p ↔ (r.onSite s').site.IsSource p := h.isSource_iff
  rw [Resolver.analyzed_build, Resolver.analyzed_build]
  exact Graph.map_path_addAll (Resolver.map_path_loaded hsource files)

/-- An analyzed vertex that does not lead to the file that differs is one on the other site too. -/
theorem mem_analyzed (h : s.SameBut s' f) (r : Resolver) {v : SourceFile}
    (hv : v ∈ ((r.onSite s).build external files).value.analyzed)
    (hf : s.realPath (RealPath.toPath v.path.abs) ≠ .ok f) :
    v ∈ ((r.onSite s').build external files).value.analyzed := by
  have hpath : v.path ∈ ((r.onSite s').build external files).value.analyzed.map (·.path) := by
    rw [← h.map_path_analyzed r]
    exact List.mem_map_of_mem hv
  obtain ⟨v', hv', heq⟩ := List.mem_map.1 hpath
  obtain ⟨-, -, hload⟩ := Resolver.eq_load_of_mem_analyzed hv
  obtain ⟨-, -, hload'⟩ := Resolver.eq_load_of_mem_analyzed hv'
  have hsame : v = v' := by rw [hload, hload', heq, h.load r hf]
  rwa [hsame]

/-- Edges that do not leave the file that differs are there on the other site too: whether there is a
vertex at a place that another file imports does not depend on what the former imports. -/
theorem mem_edges (h : s.SameBut s' f) (r : Resolver) {u v : RealPath}
    (hu : s.realPath (RealPath.toPath u) ≠ .ok f)
    (he : (u, v) ∈ ((r.onSite s).build external files).value.edges) :
    (u, v) ∈ ((r.onSite s').build external files).value.edges := by
  obtain ⟨⟨x, hx, rfl, i, hi, rfl⟩, hplace⟩ := Resolver.mem_edges_build.1 he
  have hx' := h.mem_analyzed r hx hu
  obtain ⟨hsource, hwanted⟩ := (Resolver.mem_places_of_mem_imports hx hi).1 hplace
  have hplace' := (Resolver.mem_places_of_mem_imports hx' hi).2 ⟨(h.isSource_iff _).1 hsource, hwanted⟩
  exact Resolver.mem_edges_build.2 ⟨⟨x, hx', rfl, i, hi, rfl⟩, hplace'⟩

end Site.SameBut

namespace Resolver

/-- **What one file holds affects its own edges alone.** On two sites that differ only in what the file
at `f` holds, the same references are analyzed; every one of them that does not lead to `f` imports the
same; and there are the same edges from all places that do not lead to `f`. If `f` is a source file of
the list that holds no text, or none that makes sense, then it has an analyzed vertex without imports and
without edges that leave it.

A canonical place leads to `f` only if it is `f`; a place that is not canonical may be another name for
the same file. -/
theorem build_confined_to_file (r : Resolver) (external : Bool) (files : List FileRef) {s s' : Site}
    {f : RealPath} (h : s.SameBut s' f) :
    ((r.onSite s).build external files).value.analyzed.map (·.path) =
        ((r.onSite s').build external files).value.analyzed.map (·.path) ∧
      (∀ v ∈ ((r.onSite s).build external files).value.analyzed,
        ∀ v' ∈ ((r.onSite s').build external files).value.analyzed, v.path = v'.path →
          s.realPath (RealPath.toPath v.path.abs) ≠ .ok f → v.imports = v'.imports) ∧
      (∀ u v, s.realPath (RealPath.toPath u) ≠ .ok f →
        ((u, v) ∈ ((r.onSite s).build external files).value.edges ↔
          (u, v) ∈ ((r.onSite s').build external files).value.edges)) ∧
      ∀ bytes, s.disk.entry? f = some (.file bytes) →
        (∀ text, Text.decode? bytes = some text → ∃ e, Python.importsOf text = .error e) →
        ∀ file ∈ files, s.realPath (RealPath.toPath file.abs) = .ok f →
          RealPath.extension? file.abs = some "py" →
          ∃ v ∈ ((r.onSite s).build external files).value.analyzed,
            v.path.abs = file.abs ∧ v.imports = ∅ ∧
              ∀ w, (file.abs, w) ∉ ((r.onSite s).build external files).value.edges := by
  refine ⟨h.map_path_analyzed r, ?_, ?_, ?_⟩
  · intro v hv v' hv' hpath hne
    obtain ⟨-, -, hload⟩ := eq_load_of_mem_analyzed hv
    obtain ⟨-, -, hload'⟩ := eq_load_of_mem_analyzed hv'
    rw [hload, hload', ← hpath, h.load r hne]
  · intro u v hne
    refine ⟨h.mem_edges r hne, h.symm.mem_edges r ?_⟩
    exact fun hu => hne (h.realPath_eq_ok_iff.2 hu)
  · intro bytes hbytes hbad file hfile hreal hext
    have hsource : (r.onSite s).site.IsSource file.abs := by
      obtain ⟨e, hfind⟩ := Site.realPath_eq_ok_iff.1 hreal
      have hentry := (Site.real_of_find (RealPath.isAbsolute_toPath file.abs) hfind).entry
      rw [hbytes, Option.some.injEq] at hentry
      exact ⟨Site.isFile_eq_true_iff.2 ⟨f, bytes, hentry ▸ hfind⟩, hext⟩
    -- all references to this place lead to the file, and so does each vertex there
    have hempty : ∀ v ∈ ((r.onSite s).build external files).value.analyzed, v.path.abs = file.abs →
        v.imports = ∅ := by
      intro v hv hplace
      obtain ⟨-, -, hload⟩ := eq_load_of_mem_analyzed hv
      rw [hload]
      exact imports_eq_empty_of_unreadable (by rw [hplace]; exact hreal) hbytes hbad
    obtain ⟨v, hv, hplace⟩ := exists_mem_analyzed external hfile hsource
    refine ⟨v, hv, hplace, hempty v hv hplace, fun w hw => ?_⟩
    obtain ⟨⟨x, hx, hxplace, i, hi, -⟩, -⟩ := mem_edges_build.1 hw
    rw [hempty x hx hxplace] at hi
    exact SortedSet.not_mem_empty i hi

/-- A directory in which one file imports two others, the first of which holds no text. -/
def garbledSite : Site where
  disk :=
    { entries :=
        [(.of ["p"], .directory), (.of ["p", "a.py"], .file (Text.encode "import b, c\n")),
          (.of ["p", "b.py"], .file [0xff]), (.of ["p", "c.py"], .file []), (.of ["p", "d.py"], .file [])] }
  cwd := []

/-- The same directory after an import was written to that file. -/
def mendedSite : Site :=
  { garbledSite with disk := garbledSite.disk.set (.of ["p", "b.py"]) (.file (Text.encode "import d\n")) }

/-- The importing file and the one that differs. -/
def garbledFiles : List FileRef := [⟨.of ["p", "a.py"], .of ["p"]⟩, ⟨.of ["p", "b.py"], .of ["p"]⟩]

theorem build_confined_to_garbledFile :
    ((sampleResolver.onSite garbledSite).build true garbledFiles).value.edges =
        [(.of ["p", "a.py"], .of ["p", "b.py"]), (.of ["p", "a.py"], .of ["p", "c.py"])] ∧
      ((sampleResolver.onSite mendedSite).build true garbledFiles).value.edges =
        [(.of ["p", "a.py"], .of ["p", "b.py"]), (.of ["p", "a.py"], .of ["p", "c.py"]),
          (.of ["p", "b.py"], .of ["p", "d.py"])] ∧
      (∀ v, (.of ["p", "a.py"], v) ∈
          ((sampleResolver.onSite garbledSite).build true garbledFiles).value.edges ↔
        (.of ["p", "a.py"], v) ∈
          ((sampleResolver.onSite mendedSite).build true garbledFiles).value.edges) ∧
      ∃ v ∈ ((sampleResolver.onSite garbledSite).build true garbledFiles).value.analyzed,
        v.path.abs = .of ["p", "b.py"] ∧ v.imports = ∅ ∧
          ∀ w, (.of ["p", "b.py"], w) ∉
            ((sampleResolver.onSite garbledSite).build true garbledFiles).value.edges := by
  have hdiffer : garbledSite.SameBut mendedSite (.of ["p", "b.py"]) := Site.sameBut_set rfl _
  obtain ⟨-, -, hedges, hgarbled⟩ := build_confined_to_file sampleResolver true garbledFiles hdiffer
  have hplain : garbledSite.realPath (RealPath.toPath (.of ["p", "a.py"])) =
      .ok (.of ["p", "a.py"]) := by
    decide +kernel
  refine ⟨by decide +kernel, by decide +kernel, fun v => hedges _ v (by rw [hplain]; decide), ?_⟩
  refine hgarbled [0xff] (by decide +kernel) ?_ ⟨.of ["p", "b.py"], .of ["p"]⟩ (by simp [garbledFiles])
    (by decide +kernel) (by decide +kernel)
  intro text htext
  cases (show Text.decode? [0xff] = none by rfl).symm.trans htext

end Resolver

end ImportAtlas
