import ImportAtlas.Proofs.Workspace.Walk
import ImportAtlas.Watch.Service

/-!
# Batches of changes

A service is told of changed paths in batches. The first batch with a path that matters makes it reload
the list of files, and on a disk that stays as it is every further reload finds the same. The graph is
built anew if that first reload changes the list, or else if one of the batches holds a source file that
matters. So it does not matter how the paths are divided into batches, nor in which order they come.

Main definitions:

* `ImportAtlas.Service.applyBatches` — what the service does with one batch after the other;
* `ImportAtlas.Service.UpToDate` — the list of files is what the walk finds.

Main results:

* `ImportAtlas.Service.value_applyChanges` — what the service does with a batch;
* `ImportAtlas.Service.applyChanges_append` — **two batches leave the service as one does**;
* `ImportAtlas.Service.applyBatches_eq_applyChanges` — **any division into batches leaves the service as
  one batch does**.
-/

set_option autoImplicit false

namespace ImportAtlas

theorem FileListChange.isEmpty_between_self (files : List FileRef) :
    (FileListChange.between files files).isEmpty = true := by
  have hnil : Order.difference files files = [] := by
    refine List.filter_eq_nil_iff.2 fun f hf => ?_
    simpa using hf
  simp [between, isEmpty, hnil]

namespace Service

/-! ### One batch -/

/-- The workspace of the service after a reload. -/
def reloaded (s : Site) (service : Service) : Workspace := (service.workspace.reload s).value.1

/-- What a reload changes in the list of files. -/
def change (s : Site) (service : Service) : FileListChange :=
  .between service.workspace.files (service.reloaded s).files

/-- The graph after a reload, if some paths matter: built anew if the list changed or one of the paths
is a source file. -/
def graphAfter (s : Site) (service : Service) (relevant : List Path) : Graph :=
  if (service.change s).isEmpty && !touchesSource relevant then service.graph
  else ((service.reloaded s).build s true).value

/-- If no path of a batch matters, nothing happens. Otherwise the list of files is loaded again, and
the graph is built anew if need be. -/
theorem value_applyChanges (s : Site) (service : Service) (paths : List Path) :
    (service.applyChanges s paths).value =
      if service.relevant s paths = [] then (service, none)
      else (⟨service.reloaded s, service.graphAfter s (service.relevant s paths)⟩,
        some (service.change s)) := by
  rw [applyChanges]
  split
  · rfl
  · have hchange : (service.workspace.reload s).value.2.change = service.change s := rfl
    simp only [Logged.value_bind, hchange, graphAfter]
    split <;> rfl

variable {s : Site} {service : Service} {paths : List Path}

theorem applyChanges_of_ignored (h : service.relevant s paths = []) :
    (service.applyChanges s paths).value = (service, none) := by
  rw [value_applyChanges, if_pos h]

theorem applyChanges_of_relevant (h : service.relevant s paths ≠ []) :
    (service.applyChanges s paths).value =
      (⟨service.reloaded s, service.graphAfter s (service.relevant s paths)⟩,
        some (service.change s)) := by
  rw [value_applyChanges, if_neg h]

/-- The order of the paths in a batch does not matter. -/
theorem applyChanges_perm {paths' : List Path} (h : paths.Perm paths') :
    (service.applyChanges s paths).value = (service.applyChanges s paths').value := by
  have hrelevant : (service.relevant s paths).Perm (service.relevant s paths') := h.filter _
  have htouches : touchesSource (service.relevant s paths) =
      touchesSource (service.relevant s paths') := hrelevant.any_eq
  have hnil : service.relevant s paths = [] ↔ service.relevant s paths' = [] := by
    rw [← List.length_eq_zero_iff, ← List.length_eq_zero_iff, hrelevant.length_eq]
  simp only [value_applyChanges, hnil, graphAfter, htouches]

/-! ### One batch after the other -/

/-- The list of files is what the walk finds. -/
def UpToDate (s : Site) (service : Service) : Prop :=
  service.workspace.files =
    (s.walk service.workspace.config.excludeFiles (service.workspace.rootDir s)).value

instance (s : Site) (service : Service) : Decidable (service.UpToDate s) :=
  inferInstanceAs (Decidable (_ = _))

theorem upToDate_reloaded (s : Site) (service : Service) (g : Graph) :
    UpToDate s ⟨service.reloaded s, g⟩ := rfl

/-- Reloading an up-to-date list changes nothing. -/
theorem UpToDate.reloaded_eq (h : service.UpToDate s) : service.reloaded s = service.workspace := by
  rw [reloaded, Workspace.value_reload, ← h]

theorem UpToDate.isEmpty_change (h : service.UpToDate s) : (service.change s).isEmpty = true := by
  rw [change, h.reloaded_eq]
  exact FileListChange.isEmpty_between_self _

/-- With an up-to-date list, a batch changes at most the graph, and makes no change of the list
known. -/
theorem UpToDate.applyChanges (h : service.UpToDate s) (paths : List Path) :
    (service.applyChanges s paths).value.1.UpToDate s ∧
      ∀ change ∈ (service.applyChanges s paths).value.2, change.isEmpty = true := by
  by_cases hrelevant : service.relevant s paths = []
  · rw [applyChanges_of_ignored hrelevant]
    exact ⟨h, by simp⟩
  · rw [applyChanges_of_relevant hrelevant]
    refine ⟨upToDate_reloaded s service _, ?_⟩
    rintro change ⟨⟩
    exact h.isEmpty_change

/-- The graph after two batches: the first one takes up what the reload changes, so the second one can
only add a source file. -/
theorem graphAfter_append (s : Site) (service : Service) (relevant later : List Path) :
    graphAfter s ⟨service.reloaded s, service.graphAfter s relevant⟩ later =
      service.graphAfter s (relevant ++ later) := by
  have hdate := upToDate_reloaded s service (service.graphAfter s relevant)
  have htouches : touchesSource (relevant ++ later) =
      (touchesSource relevant || touchesSource later) := List.any_append
  rw [graphAfter, hdate.isEmpty_change, hdate.reloaded_eq]
  simp only [graphAfter, htouches]
  cases (service.change s).isEmpty <;> cases touchesSource relevant <;> cases touchesSource later <;> rfl

/-- **Two batches leave the service as one does.** -/
theorem applyChanges_append (s : Site) (service : Service) (paths later : List Path) :
    ((service.applyChanges s paths).value.1.applyChanges s later).value.1 =
      (service.applyChanges s (paths ++ later)).value.1 := by
  have happend : service.relevant s (paths ++ later) =
      service.relevant s paths ++ service.relevant s later := List.filter_append ..
  by_cases hfirst : service.relevant s paths = []
  · rw [applyChanges_of_ignored hfirst, value_applyChanges, value_applyChanges, happend, hfirst,
      List.nil_append]
  · have hboth : service.relevant s (paths ++ later) ≠ [] := by simp [happend, hfirst]
    rw [applyChanges_of_relevant hfirst, applyChanges_of_relevant hboth, happend]
    dsimp only
    -- the filter depends on the settings alone, which a reload does not change
    have hlater : relevant s ⟨service.reloaded s, service.graphAfter s (service.relevant s paths)⟩ later =
        service.relevant s later := rfl
    by_cases hsecond : service.relevant s later = []
    · rw [applyChanges_of_ignored (hlater.trans hsecond), hsecond, List.append_nil]
    · rw [applyChanges_of_relevant (hlater ▸ hsecond), hlater]
      dsimp only
      rw [graphAfter_append, (upToDate_reloaded s service _).reloaded_eq]

/-- What the service does with one batch after the other, and what it makes known after each. -/
def applyBatches (s : Site) (service : Service) :
    List (List Path) → Logged (Service × List (Option FileListChange))
  | [] => return (service, [])
  | batch :: rest => do
      let (service, change) ← service.applyChanges s batch
      let (service, changes) ← service.applyBatches s rest
      return (service, change :: changes)

theorem applyBatches_cons (s : Site) (service : Service) (batch : List Path)
    (rest : List (List Path)) :
    (service.applyBatches s (batch :: rest)).value =
      (((service.applyChanges s batch).value.1.applyBatches s rest).value.1,
        (service.applyChanges s batch).value.2 ::
          ((service.applyChanges s batch).value.1.applyBatches s rest).value.2) := rfl

theorem length_applyBatches (s : Site) (service : Service) (batches : List (List Path)) :
    (service.applyBatches s batches).value.2.length = batches.length := by
  induction batches generalizing service with
  | nil => rfl
  | cons batch rest ih => rw [applyBatches_cons, List.length_cons, ih, List.length_cons]

/-- Batches leave the service as one batch of all their paths does. -/
theorem fst_applyBatches (s : Site) (service : Service) (batches : List (List Path)) :
    (service.applyBatches s batches).value.1 = (service.applyChanges s batches.flatten).value.1 := by
  induction batches generalizing service with
  | nil => rfl
  | cons batch rest ih => rw [applyBatches_cons, ih, applyChanges_append, List.flatten_cons]

/-- With an up-to-date list, no batch makes a change of the list known. -/
theorem UpToDate.applyBatches (h : service.UpToDate s) (batches : List (List Path)) :
    ∀ answer ∈ (service.applyBatches s batches).value.2, ∀ change ∈ answer, change.isEmpty = true := by
  induction batches generalizing service with
  | nil => simp [Service.applyBatches]
  | cons batch rest ih =>
      obtain ⟨hdate, hchange⟩ := h.applyChanges batch
      rw [applyBatches_cons]
      exact List.forall_mem_cons.2 ⟨hchange, ih hdate⟩

/-- Nothing is made known until a batch holds a path that matters. That batch makes known what one
batch of all paths does, and the later ones make no change known. -/
theorem snd_applyBatches (s : Site) (service : Service) (batches : List (List Path)) :
    (service.relevant s batches.flatten = [] ∧
        ∀ answer ∈ (service.applyBatches s batches).value.2, answer = none) ∨
      (service.relevant s batches.flatten ≠ [] ∧ ∃ before later,
        (service.applyBatches s batches).value.2 = before ++ some (service.change s) :: later ∧
          (∀ answer ∈ before, answer = none) ∧
          ∀ answer ∈ later, ∀ change ∈ answer, change.isEmpty = true) := by
  induction batches with
  | nil => exact .inl ⟨rfl, by simp [applyBatches]⟩
  | cons batch rest ih =>
      have happend : service.relevant s (batch :: rest).flatten =
          service.relevant s batch ++ service.relevant s rest.flatten := List.filter_append ..
      rw [applyBatches_cons, happend]
      by_cases hbatch : service.relevant s batch = []
      · rw [applyChanges_of_ignored hbatch, hbatch, List.nil_append]
        rcases ih with ⟨hrest, hnone⟩ | ⟨hrest, before, later, hsplit, hbefore, hlater⟩
        · exact .inl ⟨hrest, by simpa using hnone⟩
        · exact .inr ⟨hrest, none :: before, later, by simp [hsplit], by simpa using hbefore, hlater⟩
      · rw [applyChanges_of_relevant hbatch]
        refine .inr ⟨by simp [hbatch], [], _, rfl, by simp, ?_⟩
        exact (upToDate_reloaded s service _).applyBatches rest

theorem snd_applyChanges_eq_none_iff :
    (service.applyChanges s paths).value.2 = none ↔ service.relevant s paths = [] := by
  rw [value_applyChanges]
  split <;> simp_all

/-- **Any division into batches leaves the service as one batch does.** The paths of one batch may come
in any order and be cut into batches in any way. The list of files and the graph end up the same. The
first answer that makes a change known makes the same change known, every later one makes none known or
an empty one, and all of them are silent if and only if the answer to the one batch is. -/
theorem applyBatches_eq_applyChanges (s : Site) (service : Service) (paths : List Path)
    (batches : List (List Path)) (h : batches.flatten.Perm paths) :
    (service.applyBatches s batches).value.1 = (service.applyChanges s paths).value.1 ∧
      (service.applyBatches s batches).value.2.length = batches.length ∧
      ((∀ answer ∈ (service.applyBatches s batches).value.2, answer = none) ↔
        (service.applyChanges s paths).value.2 = none) ∧
      ∀ change, (service.applyChanges s paths).value.2 = some change →
        ∃ before later,
          (service.applyBatches s batches).value.2 = before ++ some change :: later ∧
            (∀ answer ∈ before, answer = none) ∧
            ∀ answer ∈ later, answer = none ∨ ∃ change, answer = some change ∧
              change.isEmpty = true := by
  rw [← applyChanges_perm h]
  refine ⟨fst_applyBatches s service batches, length_applyBatches s service batches, ?_⟩
  rw [snd_applyChanges_eq_none_iff]
  rcases snd_applyBatches s service batches with
    ⟨hnil, hnone⟩ | ⟨hne, before, later, hsplit, hbefore, hlater⟩
  · refine ⟨iff_of_true hnone hnil, ?_⟩
    intro change hchange
    rw [snd_applyChanges_eq_none_iff.2 hnil] at hchange
    cases hchange
  · refine ⟨iff_of_false (fun hnone => ?_) hne, ?_⟩
    · have hfirst := hnone (some (service.change s)) (by simp [hsplit])
      cases hfirst
    · intro change hchange
      rw [applyChanges_of_relevant hne] at hchange
      obtain rfl : service.change s = change := Option.some.inj hchange
      refine ⟨before, later, hsplit, hbefore, fun answer hanswer => ?_⟩
      cases answer with
      | none => exact .inl rfl
      | some change => exact .inr ⟨change, rfl, hlater _ hanswer change rfl⟩

/-- A directory with a file that imports another one. -/
def importingSite : Site where
  disk := { entries :=
    [(.of ["p"], .directory), (.of ["p", "a.py"], .file (Text.encode "import b\n")),
      (.of ["p", "b.py"], .file [])] }
  cwd := []

/-- A service that does not know of the imported file yet, and has no graph. -/
def belatedService : Service := ⟨{ dir := .of ["p", "w"], files := [⟨.of ["p", "a.py"], .of ["p"]⟩] }, {}⟩

/-- A hidden path, one that is no source, and two sources of which one is elsewhere, in three batches. -/
def dividedPaths : List (List Path) :=
  [[⟨"/p/.git/x"⟩], [⟨"/p/b.txt"⟩], [⟨"/p/b.py"⟩, ⟨"/q/c.py"⟩]]

/-- The same paths in another order. -/
def joinedPaths : List Path := [⟨"/q/c.py"⟩, ⟨"/p/b.py"⟩, ⟨"/p/.git/x"⟩, ⟨"/p/b.txt"⟩]

theorem applyBatches_eq_applyChanges_belatedService :
    dividedPaths.flatten.Perm joinedPaths ∧
      (belatedService.applyBatches importingSite dividedPaths).value.2 =
        [none, some ⟨[], [⟨.of ["p", "b.py"], .of ["p"]⟩]⟩, some {}] ∧
      (belatedService.applyBatches importingSite dividedPaths).value.1.graph.edges =
        [(.of ["p", "a.py"], .of ["p", "b.py"])] ∧
      (belatedService.applyBatches importingSite dividedPaths).value.1 =
        (belatedService.applyChanges importingSite joinedPaths).value.1 := by
  have h : dividedPaths.flatten.Perm joinedPaths := by decide
  exact ⟨h, by decide +kernel, by decide +kernel,
    (applyBatches_eq_applyChanges importingSite belatedService _ _ h).1⟩

end Service

end ImportAtlas
