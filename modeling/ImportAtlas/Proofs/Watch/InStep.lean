import ImportAtlas.Proofs.Disk.LinkFree
import ImportAtlas.Proofs.Graph.Reading
import ImportAtlas.Proofs.Watch.Batches
import ImportAtlas.Proofs.Workspace.Listing

/-!
# In step with the disk

A service is in step with the disk if its list of files is what the walk finds, and its graph is the one
that is built from them. When the disk changes and the service is told of all changed places, it should
be in step again. If the list stays the same and none of the places is a source file, it does not build
the graph anew, and it need not: the build asks only about files with the ending of source files, so it
would give the same graph. On a disk without links that holds whenever none of the changed places is ignored.

Main definitions:

* `ImportAtlas.Service.InStep` — the list of files and the graph belong to the disk.

Main results:

* `ImportAtlas.Disk.LinkFree.build_eq` — when a workspace has the same graph on two disks without links;
* `ImportAtlas.Service.eq_rootDir_of_quiet` — a place that matters and is no source file does not end as
  source files do, unless it is the root;
* `ImportAtlas.Service.inStep_applyChanges` — **after all changes were told, the service is in step
  again**.
-/

set_option autoImplicit false

namespace ImportAtlas

/-! ### Disks without links -/

/-- Without links, a question about a file has the same answer on two sites if nothing differs there, and
canonical places are the same anyway. -/
theorem Disk.LinkFree.agree {s s' : Site} (hd : s.disk.LinkFree) (hd' : s'.disk.LinkFree)
    (h : ∀ p, RealPath.EndsInPy p → s.disk.SameAt s'.disk p) {question : Question}
    (hquestion : question.About Path.Sought) : s.Agree s' question := by
  have halike : ∀ p : Path, p.Sought → s.Alike s' p := by
    intro p hp
    obtain ⟨way, hsteps, hpy⟩ := hp.spelled
    refine Site.alike_of_leadsTo? hp.isAbsolute ?_
    rw [hsteps]
    exact (h way hpy).leadsTo?_eq hd hd'
  cases question with
  | file p => exact (halike p hquestion).agree.1
  | text p => exact (halike p hquestion).agree.2
  | place p => exact hd.canonicalize_eq hd' hquestion

/-- Without links, a workspace has the same graph on two sites if nothing differs at places that end as
source files do. -/
theorem Disk.LinkFree.build_eq {w : Workspace} {s s' : Site} (hd : s.disk.LinkFree)
    (hd' : s'.disk.LinkFree) (h : ∀ p, RealPath.EndsInPy p → s.disk.SameAt s'.disk p) :
    (w.build s true).value = (w.build s' true).value :=
  Workspace.build_eq_of_agree fun _ hquestion =>
    hd.agree hd' h (Workspace.sought_of_mem_questions hquestion)

/-! ### Paths that spell out places -/

theorem PathFilter.ignores_of_real? (f : PathFilter) {p : Path} {place : RealPath}
    (h : p.real? = some place) : f.ignores p = f.ignores (RealPath.toPath place) := by
  rw [ignores, ignores, Path.below?, Path.below?, Path.components_of_real? h]

theorem Path.kind_of_real? {p : Path} {place : RealPath} (h : p.real? = some place) :
    p.kind = RealPath.kind place := by
  rw [kind, RealPath.kind, extension?, RealPath.extension?, fileName?_of_real? h, Option.bind_map]
  rfl

/-- If a change of a list is empty, both lists have the same files. -/
theorem FileListChange.mem_iff_of_isEmpty {before later : List FileRef}
    (h : (between before later).isEmpty = true) (r : FileRef) : r ∈ before ↔ r ∈ later := by
  simp only [between, isEmpty, Bool.and_eq_true, List.isEmpty_iff, Order.difference,
    List.filter_eq_nil_iff, decide_eq_true_eq, not_not] at h
  exact ⟨h.1 r, h.2 r⟩

namespace Service

variable {before now : Site} {service : Service} {batch : List Path}

/-- The list of files is what the walk finds, and the graph is the one that is built from it. -/
structure InStep (s : Site) (service : Service) : Prop where
  files : service.UpToDate s
  graph : service.graph.Same (service.workspace.build s true).value

theorem mem_relevant {s : Site} {q : Path} :
    q ∈ service.relevant s batch ↔ q ∈ batch ∧ (service.workspace.filter s).ignores q = false := by
  rw [relevant, List.mem_filter, Bool.not_eq_true']

/-- A place that matters and is no source file does not end as source files do, unless it is the
root. -/
theorem eq_rootDir_of_quiet {s : Site} {w : Workspace} {q : Path} {p : RealPath}
    (hq : q.real? = some p) (hmatters : (w.filter s).ignores q = false)
    (hkind : q.kind ≠ .source) (hpy : RealPath.EndsInPy p) : p = w.rootDir s := by
  rcases hpy.extension? with hext | ⟨front, n, rfl, hn⟩
  · rw [Path.kind_of_real? hq] at hkind
    exact absurd (RealPath.kind_eq_source_iff.2 hext) hkind
  · -- what has nothing before the ending is hidden
    rw [PathFilter.ignores_of_real? _ hq] at hmatters
    obtain ⟨⟨way, hway⟩, hskip⟩ := PathFilter.ignores_toPath_eq_false_iff.1 hmatters
    by_cases hnil : way = []
    · rw [← hway, hnil, List.append_nil]
    · have hlast : way.getLast? = some n := by
        have hget := congrArg List.getLast? hway
        rwa [List.getLast?_append_of_ne_nil _ hnil, List.getLast?_concat] at hget
      rw [← hway, List.drop_left] at hskip
      have hshown := hskip n (List.mem_of_getLast? hlast)
      simp [isSkipped, isHidden, hn] at hshown

/-- If the list of files is not empty, the root is a directory. -/
theorem UpToDate.through_rootDir {s : Site} (h : service.UpToDate s) (hd : s.disk.LinkFree)
    (hne : service.workspace.files ≠ []) : s.disk.Through (service.workspace.rootDir s) := by
  obtain ⟨r, hr⟩ := List.exists_mem_of_ne_nil _ hne
  rw [h] at hr
  obtain ⟨e, ⟨dir, way, hfind, -⟩, -⟩ := Site.mem_walk.1 hr
  exact (hd.through_of_find hfind).2

/-- Without files there is nothing in the graph. -/
theorem build_nil (r : Resolver) (external : Bool) : (r.build external []).value = {} := by
  cases external <;> rfl

/-- If the list of files stays the same and no path that matters is a source file, the graph that would
be built stays the same. -/
theorem build_eq_of_skipped (hbefore : before.disk.LinkFree) (hnow : now.disk.LinkFree)
    (hfiles : service.UpToDate before) (hfiles' : service.UpToDate now)
    (hquiet : touchesSource (service.relevant now batch) = false)
    (htold : ∀ p, ¬before.disk.SameAt now.disk p →
      ∃ q ∈ batch, q.real? = some p ∧ (service.workspace.filter now).ignores q = false) :
    (service.workspace.build before true).value = (service.workspace.build now true).value := by
  by_cases hnil : service.workspace.files = []
  · rw [Workspace.build, Workspace.build, hnil, build_nil, build_nil]
  · have hroot := hbefore.rootDir_eq hnow service.workspace
    refine hbefore.build_eq hnow fun p hpy => ?_
    by_contra hp
    obtain ⟨q, hq, hreal, hmatters⟩ := htold p hp
    have hkind : q.kind ≠ .source := by
      simpa using List.any_eq_false.1 hquiet q (mem_relevant.2 ⟨hq, hmatters⟩)
    -- the root is a directory before and now, since there are files in it
    obtain rfl := eq_rootDir_of_quiet hreal hmatters hkind hpy
    refine hp (Disk.Through.sameAt ?_ (hfiles'.through_rootDir hnow hnil))
    rw [← hroot]
    exact hfiles.through_rootDir hbefore hnil

/-- If nothing at all differs, a service that was in step before still is. -/
theorem InStep.of_sameAt (h : service.InStep before) (hbefore : before.disk.LinkFree)
    (hnow : now.disk.LinkFree) (hsame : ∀ p, before.disk.SameAt now.disk p) : service.InStep now := by
  have hfiles := h.files
  constructor
  · rw [UpToDate, hfiles, hbefore.rootDir_eq hnow service.workspace]
    exact hbefore.walk_eq hnow (fun p _ => hsame p) _
  · rw [← hbefore.build_eq hnow fun p _ => hsame p]
    exact h.graph

/-- A reload that changes nothing leaves the list as the walk finds it. -/
theorem UpToDate.of_isEmpty_change (h : service.UpToDate before)
    (hchange : (service.change now).isEmpty = true) : service.UpToDate now := by
  have hlist : service.workspace.files = (service.reloaded now).files := by
    refine Order.InOrder.ext ?_ (now.inOrder_walk _ _) (FileListChange.mem_iff_of_isEmpty hchange)
    rw [h]
    exact before.inOrder_walk _ _
  exact hlist

/-- **After all changes were told, the service is in step again.** There are no links, the service was
in step before, and each place at which the disk is different now is spelled out by a path of the batch
that is not ignored. Whether the graph is built anew or not, the list of files is then what the walk
finds on the disk as it is now, and the graph is the one that is built from it. -/
theorem inStep_applyChanges (before now : Site) (service : Service) (batch : List Path)
    (hbefore : before.disk.LinkFree) (hnow : now.disk.LinkFree) (hstep : service.InStep before)
    (htold : ∀ p, ¬before.disk.SameAt now.disk p →
      ∃ q ∈ batch, q.real? = some p ∧ (service.workspace.filter now).ignores q = false) :
    (service.applyChanges now batch).value.1.InStep now ∧
      (service.applyChanges now batch).value.1.workspace = service.reloaded now := by
  by_cases hrelevant : service.relevant now batch = []
  · -- nothing matters, so nothing changed
    have hsame : ∀ p, before.disk.SameAt now.disk p := by
      intro p
      by_contra hp
      obtain ⟨q, hq, -, hmatters⟩ := htold p hp
      have hmem : q ∈ service.relevant now batch := mem_relevant.2 ⟨hq, hmatters⟩
      rw [hrelevant] at hmem
      cases hmem
    have hstill := hstep.of_sameAt hbefore hnow hsame
    rw [applyChanges_of_ignored hrelevant]
    exact ⟨hstill, hstill.files.reloaded_eq.symm⟩
  · rw [applyChanges_of_relevant hrelevant]
    refine ⟨⟨upToDate_reloaded now service _, ?_⟩, rfl⟩
    dsimp only
    rw [graphAfter]
    split
    · next hskip =>
        obtain ⟨hchange, hquiet⟩ := Bool.and_eq_true_iff.1 hskip
        have hfiles := hstep.files.of_isEmpty_change hchange
        rw [hfiles.reloaded_eq, ← build_eq_of_skipped hbefore hnow hstep.files hfiles
          (by simpa using hquiet) htold]
        exact hstep.graph
    · exact .refl _

/-- A directory with two source files, one of which imports the other, and with some notes. -/
def notedSite : Site where
  disk := { entries :=
    [(.of ["p"], .directory), (.of ["p", "a.py"], .file (Text.encode "import b\n")),
      (.of ["p", "b.py"], .file []), (.of ["p", "notes.txt"], .file [])] }
  cwd := []

/-- The place of the notes. -/
def notesPlace : RealPath := .of ["p", "notes.txt"]

/-- The same directory with other notes. -/
def renotedSite : Site := { notedSite with disk := notedSite.disk.set notesPlace (.file [33]) }

/-- A workspace whose files were listed before the notes were changed. -/
def notedWorkspace : Workspace where
  dir := .of ["p", "w"]
  files :=
    [⟨.of ["p", "a.py"], .of ["p"]⟩, ⟨.of ["p", "b.py"], .of ["p"]⟩, ⟨.of ["p", "notes.txt"], .of ["p"]⟩]

/-- A service with the graph of that time. -/
def notedService : Service := ⟨notedWorkspace, (notedWorkspace.build notedSite true).value⟩

theorem inStep_applyChanges_renotedSite :
    renotedSite.disk.entry? notesPlace ≠ notedSite.disk.entry? notesPlace ∧
      notedService.InStep notedSite ∧
      (notedService.applyChanges renotedSite [⟨"/p/notes.txt"⟩]).value = (notedService, some {}) ∧
      notedService.graph.edges = [(.of ["p", "a.py"], .of ["p", "b.py"])] ∧
      (notedService.applyChanges renotedSite [⟨"/p/notes.txt"⟩]).value.1.InStep renotedSite := by
  have hstep : notedService.InStep notedSite := ⟨by decide +kernel, .refl _⟩
  refine ⟨by decide +kernel, hstep, by decide +kernel, by decide +kernel, ?_⟩
  refine (inStep_applyChanges notedSite renotedSite notedService _ (by decide +kernel)
    (by decide +kernel) hstep fun p hp => ?_).1
  obtain rfl : p = notesPlace := by
    by_contra hne
    exact hp (Disk.sameEntry_set_of_ne (by decide) (by decide +kernel) hne).sameAt
  exact ⟨⟨"/p/notes.txt"⟩, by simp, by decide +kernel, by decide +kernel⟩

end Service

end ImportAtlas
