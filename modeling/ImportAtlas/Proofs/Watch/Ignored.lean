import ImportAtlas.Proofs.Watch.InStep

/-!
# Paths that are ignored

A service ignores the paths that its walk would not list: those outside the root and those with a hidden
or excluded name on the way. But the graph is not made from the list alone. A search for modules goes
through excluded directories, and through directories outside the root that the search path names, so a
change there can leave the graph behind the disk. It can also be left behind if the root is another place
now, since then nothing below the old one matters any more.

There is no other way. Each place that changed and is not ignored would have made the service build the
graph anew. A place that changed and is ignored leaves the graph behind only if it lies on the way of a
question that was asked when the graph was built, and if that question has another answer now. So it does
not matter what happens at excluded, hidden or outside places that no source file of the list imports, nor
what files outside the list hold.

Main definitions:

* `ImportAtlas.Service.Stale` — an ignored batch that names all changes leaves the graph behind the disk.

Main results:

* `ImportAtlas.Service.graph_same_of_ignored` — **a batch that is ignored leaves the graph as it would be
  built now**, unless an ignored place gives a question of the build another answer;
* `ImportAtlas.Service.stale_of_excluded_or_moved` — an excluded file that is imported, and a root that
  is another place now.
-/

set_option autoImplicit false

namespace ImportAtlas

namespace Service

/-- If all paths of a batch are ignored, so is each place that one of them spells out. -/
theorem ignores_of_silent {s : Site} {service : Service} {paths : List Path}
    (hnone : (service.applyChanges s paths).value.2 = none) {q : Path} (hq : q ∈ paths) {p : RealPath}
    (hspelled : q.real? = some p) :
    (service.workspace.filter s).ignores (RealPath.toPath p) = true := by
  rw [← PathFilter.ignores_of_real? _ hspelled]
  by_contra hmatters
  have hmem : q ∈ service.relevant s paths := mem_relevant.2 ⟨hq, by simpa using hmatters⟩
  rw [snd_applyChanges_eq_none_iff.1 hnone] at hmem
  cases hmem

/-- **A batch that is ignored leaves the graph as it would be built now.** The graph was the one that is
built on the disk as it was before, and each place at which another entry stands now is spelled out by a
path of the batch. No condition is needed for places that are not ignored. If an ignored place changed and
was looked up for a question that was asked when the graph was built, that question must have the same
answer now. -/
theorem graph_same_of_ignored (before now : Site) (service : Service) (paths : List Path)
    (hgraph : service.graph.Same (service.workspace.build before true).value)
    (htold : ∀ p, ¬before.disk.SameEntry now.disk p → ∃ q ∈ paths, q.real? = some p)
    (hkept : ∀ p, (service.workspace.filter now).ignores (RealPath.toPath p) = true →
      ¬before.disk.SameEntry now.disk p →
      ∀ question ∈ service.workspace.questions before, p ∈ before.passed question →
        before.Agree now question)
    (hnone : (service.applyChanges now paths).value.2 = none) :
    (service.applyChanges now paths).value.1 = service ∧
      service.graph.Same (service.workspace.build now true).value := by
  have hbuild : (service.workspace.build before true).value =
      (service.workspace.build now true).value := by
    refine Workspace.build_eq_of_agree fun question hquestion => ?_
    by_cases hway : ∀ p ∈ before.passed question, before.disk.SameEntry now.disk p
    · exact Site.agree_of_sameEntry (Workspace.isAbsolute_of_mem_questions hquestion) hway
    · -- what changed on the way was told, and since nothing mattered it is ignored
      push Not at hway
      obtain ⟨p, hp, hchanged⟩ := hway
      obtain ⟨q, hq, hspelled⟩ := htold p hchanged
      exact hkept p (ignores_of_silent hnone hq hspelled) hchanged question hquestion hp
  rw [applyChanges_of_ignored (snd_applyChanges_eq_none_iff.1 hnone), ← hbuild]
  exact ⟨rfl, hgraph⟩

/-- A source file that imports a module from a package, in which there is no such module. -/
def withoutModule : Site where
  disk := { entries :=
    [(.of ["p"], .directory), (.of ["p", "main.py"], .file (Text.encode "import gen.out\n")),
      (.of ["p", "gen"], .directory), (.of ["p", "gen", "__init__.py"], .file [])] }
  cwd := []

/-- The place of the module. -/
def modulePlace : RealPath := .of ["p", "gen", "out.py"]

/-- The same directory as long as the module was there. -/
def withModule : Site := { withoutModule with disk := withoutModule.disk.set modulePlace (.file []) }

/-- A workspace that excludes the package. -/
def excludingWorkspace : Workspace where
  dir := .of ["p", "w"]
  config := { excludeFiles := ["gen"] }
  files := [⟨.of ["p", "main.py"], .of ["p"]⟩]

/-- A service with the graph of the time when the module was there. -/
def excludingService : Service :=
  ⟨excludingWorkspace, (excludingWorkspace.build withModule true).value⟩

/-- Other places: of a module in the package that is not imported, and of one outside the root. -/
def besidePlace : RealPath := .of ["p", "gen", "x.py"]

@[inherit_doc besidePlace] def unrelatedPlace : RealPath := .of ["unrelated.py"]

/-- The module that is imported holds something else, and there are the other ones. -/
def rewrittenSite : Site :=
  { withModule with
    disk := ((withModule.disk.set modulePlace (.file [33])).set besidePlace (.file [])).set unrelatedPlace
      (.file []) }

/-- The paths of all these places. -/
def rewrittenPaths : List Path := [⟨"/p/gen/out.py"⟩, ⟨"/p/gen/x.py"⟩, ⟨"/unrelated.py"⟩]

theorem graph_same_of_ignored_rewrittenSite :
    (∀ p ∈ [modulePlace, besidePlace, unrelatedPlace],
        rewrittenSite.disk.entry? p ≠ withModule.disk.entry? p) ∧
      excludingService.graph.edges =
        [(.of ["p", "main.py"], .of ["p", "gen", "__init__.py"]),
          (.of ["p", "main.py"], modulePlace)] ∧
      (excludingService.applyChanges rewrittenSite rewrittenPaths).value.2 = none ∧
      excludingService.graph.Same (excludingWorkspace.build rewrittenSite true).value := by
  have hnone : (excludingService.applyChanges rewrittenSite rewrittenPaths).value.2 = none := by
    decide +kernel
  have hagree : ∀ question ∈ excludingWorkspace.questions withModule,
      withModule.Agree rewrittenSite question := by
    decide +kernel
  refine ⟨by decide +kernel, by decide +kernel, hnone, ?_⟩
  refine (graph_same_of_ignored withModule rewrittenSite excludingService rewrittenPaths (.refl _)
    (fun p hchanged => ?_) (fun _ _ _ question hquestion _ => hagree question hquestion) hnone).2
  have hspelled : ∀ p ∈ [modulePlace, besidePlace, unrelatedPlace],
      ∃ q ∈ rewrittenPaths, q.real? = some p := by
    decide +kernel
  refine hspelled p ?_
  by_contra hother
  simp only [List.mem_cons, List.not_mem_nil, or_false, not_or] at hother
  obtain ⟨hmodule, hbeside, hunrelated⟩ := hother
  refine hchanged (((Disk.sameEntry_set_of_ne (by decide) (by decide +kernel) hmodule).trans
    (Disk.sameEntry_set_of_ne (by decide) (by decide +kernel) hbeside)).trans
    (Disk.sameEntry_set_of_ne (by decide) (by decide +kernel) hunrelated))

/-! ### Graphs that are left behind -/

/-- The graph was the one that is built on the disk as it was before, and each place at which another
entry stands now is spelled out by a path of a batch. But the batch is ignored, and on the disk as it is
now another graph would be built. -/
structure Stale (before now : Site) (service : Service) (paths : List Path) : Prop where
  built : service.graph.Same (service.workspace.build before true).value
  told : ∀ p, ¬before.disk.SameEntry now.disk p → ∃ q ∈ paths, q.real? = some p
  silent : (service.applyChanges now paths).value = (service, none)
  stale : ¬service.graph.Same (service.workspace.build now true).value

theorem stale_excludingService :
    Stale withModule withoutModule excludingService [⟨"/p/gen/out.py"⟩] := by
  refine ⟨.refl _, fun p hchanged => ?_, by decide +kernel, by decide +kernel⟩
  obtain rfl : p = modulePlace := by
    by_contra hne
    have hsame : withoutModule.disk.SameEntry withModule.disk p :=
      Disk.sameEntry_set_of_ne (by decide) (by decide +kernel) hne
    exact hchanged fun e => (hsame e).symm
  exact ⟨⟨"/p/gen/out.py"⟩, by simp, by decide +kernel⟩

/-- A directory with a source file that imports another one, and two directories elsewhere. -/
def rootedSite : Site where
  disk := { entries :=
    [(.of ["p"], .directory), (.of ["p", "w"], .directory), (.of ["p", "b"], .directory),
      (.of ["p", "b", "main.py"], .file (Text.encode "import m\n")), (.of ["p", "b", "m.py"], .file []),
      (.of ["e"], .directory), (.of ["e", "f"], .directory), (.of ["e", "b"], .directory)] }
  cwd := []

/-- The place of a link. -/
def linkPlace : RealPath := .of ["p", "l"]

/-- The same disk with a link to one of the directories elsewhere. -/
def movedSite : Site := { rootedSite with disk := rootedSite.disk.set linkPlace (.link ⟨"/e/f"⟩) }

/-- A workspace whose root is next to where the link leads to. -/
def movingWorkspace : Workspace where
  dir := .of ["p", "w"]
  config := { rootDir := some ⟨"../l/../b"⟩ }
  files := [⟨.of ["p", "b", "m.py"], .of ["p", "b"]⟩, ⟨.of ["p", "b", "main.py"], .of ["p", "b"]⟩]

/-- A service with the graph of the time when there was no link. -/
def movingService : Service := ⟨movingWorkspace, (movingWorkspace.build rootedSite true).value⟩

theorem stale_movingService : Stale rootedSite movedSite movingService [⟨"/p/l"⟩] := by
  refine ⟨.refl _, fun p hchanged => ?_, by decide +kernel, by decide +kernel⟩
  obtain rfl : p = linkPlace := by
    by_contra hne
    exact hchanged (Disk.sameEntry_set_of_ne (by decide) (by decide +kernel) hne)
  exact ⟨⟨"/p/l"⟩, by simp, by decide +kernel⟩

/-- Ignored batches that name all changes leave the graph behind the disk: one names an excluded file
that is imported, the other one a link through which the root is another place now. -/
theorem stale_of_excluded_or_moved :
    Stale withModule withoutModule excludingService [⟨"/p/gen/out.py"⟩] ∧
      Stale rootedSite movedSite movingService [⟨"/p/l"⟩] :=
  ⟨stale_excludingService, stale_movingService⟩

end Service

end ImportAtlas
