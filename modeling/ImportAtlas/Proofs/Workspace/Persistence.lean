import ImportAtlas.Proofs.Workspace.Config
import ImportAtlas.Proofs.Workspace.Settings

/-!
# Memory and disk in step

As long as nobody else touches the file of the configuration, the file holds what the workspace has in
memory after each setting, and opening the workspace again gives one that answers all questions alike.
The path that it is opened by must lead to the directory. A path that leads nowhere may have another
canonical place once the file exists.

Main definitions:

* `ImportAtlas.Setting.Storable` — settings whose values can be read back;
* `ImportAtlas.Workspace.Alike` — workspaces that answer all questions alike;
* `ImportAtlas.Session.Anchored` — a path leads to the directory of the workspace;
* `ImportAtlas.Session.Undisturbed` — events in which writing succeeds and nobody else touches the file;
* `ImportAtlas.Session.InStep` — what the file holds is what the workspace has in memory.

Main results:

* `ImportAtlas.Session.InStep.after`, `ImportAtlas.Session.InStep.run` — **memory and disk stay in step**;
* `ImportAtlas.Session.InStep.reopen` — what opening again gives;
* `ImportAtlas.Session.reopened_alike` — **over a whole session, opening again gives the same answers**;
* `ImportAtlas.Session.reopened_elsewhere` — a path that leads nowhere, by which it does not.
-/

set_option autoImplicit false

namespace ImportAtlas

open Json

/-- Settings whose values can be read back: numbers are integers, members are in order, and arrays and
objects are not too deep. -/
def Setting.Storable : Setting → Prop
  | .editorOption _ value => Fits Number.IsInteger (depthLimit - 3) value
  | _ => True

instance : (setting : Setting) → Decidable setting.Storable
  | .editorOption _ value => inferInstanceAs (Decidable (Fits Number.IsInteger (depthLimit - 3) value))
  | .rootDir _ | .pythonPath _ | .excludeFiles _ | .openFiles _ => inferInstanceAs (Decidable True)

/-- A storable setting keeps a configuration well formed. -/
theorem Workspace.fit_configWith {s : Site} {w : Workspace} (hw : w.config.Fit Number.IsInteger)
    {setting : Setting} (h : setting.Storable) : (w.configWith s setting).Fit Number.IsInteger := by
  cases setting with
  | rootDir root => exact ⟨hw.editorOptions, hw.extra, hw.foreign⟩
  | pythonPath dirs => exact ⟨hw.editorOptions, hw.extra, hw.foreign⟩
  | excludeFiles names => exact ⟨hw.editorOptions, hw.extra, hw.foreign⟩
  | openFiles files => exact ⟨hw.editorOptions, hw.extra, hw.foreign⟩
  | editorOption key value => exact ⟨hw.editorOptions.insert key h, hw.extra, hw.foreign⟩

/-- A configuration that was loaded is well formed. -/
theorem Config.fit_of_load {s : Site} {dir : Path} {c : Config} (h : load s dir = .loaded c) :
    c.Fit Number.InRange := by
  obtain ⟨text, -, hparse⟩ := load_eq_loaded_iff.1 h
  exact fit_of_parse invariant_inRange hparse trivial

theorem Config.fit_default (N : Number → Prop) : Fit N {} :=
  ⟨Fields.fit_nil N _, Fields.fit_nil N _, by simp⟩

/-- Two workspaces answer all questions alike. -/
structure Workspace.Alike (s : Site) (w w' : Workspace) : Prop where
  config : w'.config = w.config
  rootDir : w'.rootDir s = w.rootDir s
  pythonPath : w'.pythonPath s = w.pythonPath s
  searchPath : w'.searchPath s = w.searchPath s
  openFiles : w'.openFiles s = w.openFiles s
  editorOptions : w'.editorOptions = w.editorOptions

/-- The answers depend on the directory and on the configuration only. -/
theorem Workspace.alike_of_eq {s : Site} {w w' : Workspace} (hdir : w'.dir = w.dir)
    (hconfig : w'.config = w.config) : Alike s w w' := by
  have hroot : w'.rootDir s = w.rootDir s := by
    simp only [rootDir, dirPath, hdir, hconfig]
  have hpython : w'.pythonPath s = w.pythonPath s := by
    simp only [pythonPath, rootPath, hroot, hconfig]
  refine ⟨hconfig, hroot, hpython, ?_, ?_, ?_⟩
  · simp only [searchPath, hpython, hroot]
  · simp only [openFiles, rootPath, hroot, hconfig]
  · simp only [editorOptions, hconfig]

namespace Session

/-- A path leads to the directory of the workspace, and so does the canonical place of that. -/
structure Anchored (p : Path) (x : Session) : Prop where
  find : x.site.find p = .ok (x.workspace.dir, .directory)
  directory : x.site.isDirectory x.workspace.dirPath = true

/-- Events that leave memory and disk in step: a setting can be stored and is written, and somebody else
touches neither the directory nor the file. -/
def Undisturbed (p : Path) (x : Session) : Event → Prop
  | .outside disk => Anchored p (x.after (.outside disk)) ∧
      Config.load { x.site with disk := disk } x.workspace.dirPath = Config.load x.site x.workspace.dirPath
  | .configure setting => setting.Storable ∧
      ∃ disk, (x.workspace.configWith x.site setting).save x.site x.workspace.dirPath = .ok disk
  | _ => True

/-- All events of a session leave memory and disk in step. -/
def AllUndisturbed (p : Path) : Session → List Event → Prop
  | _, [] => True
  | x, event :: rest => Undisturbed p x event ∧ AllUndisturbed p (x.after event) rest

/-- What the file holds is what the workspace has in memory; if there is no file, those are the
defaults. -/
structure InStep (p : Path) (x : Session) : Prop where
  anchored : Anchored p x
  writable : x.workspace.writable = true
  fit : x.workspace.config.Fit Number.IsInteger
  loaded : Config.load x.site x.workspace.dirPath = .loaded x.workspace.config ∨
    Config.load x.site x.workspace.dirPath = .missing ∧ x.workspace.config = {}

/-- After a setting, the file holds what the workspace has in memory. -/
theorem InStep.configure {p : Path} {x : Session} (h : x.InStep p) {setting : Setting}
    (hset : Undisturbed p x (.configure setting)) :
    (x.after (.configure setting)).InStep p ∧
      Config.load (x.after (.configure setting)).site x.workspace.dirPath =
        .loaded (x.after (.configure setting)).workspace.config := by
  obtain ⟨hstorable, disk, hsave⟩ := hset
  let w : Workspace := { x.workspace with config := x.workspace.configWith x.site setting }
  have hfit : w.config.Fit Number.IsInteger := Workspace.fit_configWith h.fit hstorable
  -- none of the reasons for which nothing is written applies
  have hdisk : (w.persist x.site).value = disk := by
    rcases w.persist_cases x.site with ⟨-, -, hsaved⟩ | ⟨hwhy, -⟩
    · exact Except.ok.inj (hsaved.symm.trans hsave)
    · rcases hwhy with hdir | hwritable | ⟨e, herror⟩
      · cases hdir.symm.trans h.anchored.directory
      · cases hwritable.symm.trans h.writable
      · cases herror.symm.trans hsave
  have hsite : (x.after (.configure setting)).site = { x.site with disk := disk } := by
    rw [← hdisk]
    rfl
  have hload : Config.load (x.after (.configure setting)).site x.workspace.dirPath = .loaded w.config := by
    rw [hsite]
    exact Config.load_of_save hfit hsave
  refine ⟨⟨⟨?_, ?_⟩, h.writable, hfit, .inl hload⟩, hload⟩
  · rw [hsite]
    exact Site.find_writeBytes hsave h.anchored.find
  · obtain ⟨place, hplace⟩ := Site.isDirectory_iff.1 h.anchored.directory
    rw [hsite]
    exact Site.isDirectory_iff.2 ⟨place, Site.find_writeBytes hsave hplace⟩

/-- One event leaves memory and disk in step. -/
theorem InStep.after {p : Path} {x : Session} (h : x.InStep p) {event : Event}
    (hevent : Undisturbed p x event) : (x.after event).InStep p := by
  cases event with
  | outside disk =>
      obtain ⟨hanchored, hload⟩ := hevent
      refine ⟨hanchored, h.writable, h.fit, ?_⟩
      exact h.loaded.imp hload.trans fun hmissing => ⟨hload.trans hmissing.1, hmissing.2⟩
  | configure setting => exact (h.configure hevent).1
  | listen listener => exact ⟨⟨h.anchored.find, h.anchored.directory⟩, h.writable, h.fit, h.loaded⟩
  | reload => exact ⟨⟨h.anchored.find, h.anchored.directory⟩, h.writable, h.fit, h.loaded⟩

/-- A whole session leaves memory and disk in step. -/
theorem InStep.run {p : Path} {x : Session} (h : x.InStep p) {events : List Event}
    (hevents : AllUndisturbed p x events) : (x.run events).InStep p := by
  induction events generalizing x with
  | nil => exact h
  | cons event rest ih => exact ih (h.after hevents.1) hevents.2

/-- A session is in step when its workspace was opened by a path that leads to its directory, unless the
configuration could not be read or holds floating point numbers. -/
theorem inStep_of_openAt {start : Session} {p : Path} {mustExist : Bool}
    (hopen : (Workspace.openAt start.site p mustExist).value = .ok start.workspace)
    (hdir : start.site.isDirectory start.workspace.dirPath = true) (hp : start.site.isDirectory p = true)
    (hload : ∀ failure, Config.load start.site start.workspace.dirPath ≠ .failed failure)
    (hreal : ∀ n ∈ start.workspace.config.numbers, n.isReal = false) : start.InStep p := by
  obtain ⟨-, hopened⟩ := value_openAt_iff.1 hopen
  -- the path leads to a directory, so the canonical place is that of the directory
  obtain ⟨place, hplace⟩ := Site.isDirectory_iff.1 hp
  have hcanonical : start.site.canonicalize p = place := by
    rw [Site.canonicalize, Site.realPath_eq_ok_iff.2 ⟨_, hplace⟩]
  rw [hcanonical] at hopened
  have hplacedir : start.workspace.dir = place := by rw [hopened, Workspace.dir_opened]
  have hwritable : start.workspace.writable = true := by
    rw [hopened, Workspace.writable_opened, ← hplacedir]
    exact hload
  have hconfig := Workspace.config_opened start.site place
  rw [← hopened, ← hplacedir] at hconfig
  have hanchored : Anchored p start := ⟨by rw [hplace, hplacedir], hdir⟩
  cases hcase : Config.load start.site (RealPath.toPath start.workspace.dir) with
  | loaded c =>
      rw [hcase] at hconfig
      have hfit : start.workspace.config.Fit Number.InRange := by
        rw [hconfig]
        exact Config.fit_of_load hcase
      refine ⟨hanchored, hwritable, hfit.isInteger hreal, .inl ?_⟩
      rw [hconfig]
      exact hcase
  | missing =>
      rw [hcase] at hconfig
      have hfit : start.workspace.config.Fit Number.IsInteger := by
        rw [hconfig]
        exact Config.fit_default _
      exact ⟨hanchored, hwritable, hfit, .inr ⟨hcase, hconfig⟩⟩
  | failed failure => exact absurd hcase (hload failure)

/-- Opening the workspace again gives one with the same directory and the same configuration. -/
theorem InStep.reopen {p : Path} {x : Session} (h : x.InStep p) (mustExist : Bool) :
    ∃ w, (Workspace.openAt x.site p mustExist).value = .ok w ∧ w.dir = x.workspace.dir ∧
      w.config = x.workspace.config := by
  have hcanonical : x.site.canonicalize p = x.workspace.dir := by
    rw [Site.canonicalize, Site.realPath_eq_ok_iff.2 ⟨_, h.anchored.find⟩]
  refine ⟨Workspace.opened x.site x.workspace.dir, value_openAt_iff.2 ?_, Workspace.dir_opened _ _, ?_⟩
  · rw [hcanonical]
    exact ⟨fun _ => h.anchored.directory, rfl⟩
  · have hloaded := h.loaded
    rw [Workspace.dirPath] at hloaded
    rw [Workspace.config_opened]
    rcases hloaded with hloaded | ⟨hmissing, hdefault⟩
    · rw [hloaded]
    · rw [hmissing, hdefault]

/-- Nothing changes the other members of the configuration. -/
theorem extra_run (x : Session) (events : List Event) :
    (x.run events).workspace.config.extra = x.workspace.config.extra := by
  induction events using List.reverseRecOn with
  | nil => rfl
  | append_singleton events event ih =>
      rw [run_concat, ← ih]
      cases event with
      | configure setting => exact (Workspace.agreeBut_configWith _ _ setting).extra
      | outside disk => rfl
      | listen listener => rfl
      | reload => rfl

/-- **Opening again gives the same answers.** Let a workspace be opened by a path that leads to its
directory, with no configuration or one without floating point numbers. As long as settings can be stored
and are written, and nobody else touches the directory or the file, the file holds after each setting what
the workspace has in memory, and opening it again by that path gives one that answers all questions alike.
Each setting changes its own field only, and the other members of the document are kept. -/
theorem reopened_alike {start : Session} {p : Path} {mustExist : Bool}
    (hopen : (Workspace.openAt start.site p mustExist).value = .ok start.workspace)
    (hdir : start.site.isDirectory start.workspace.dirPath = true) (hp : start.site.isDirectory p = true)
    (hload : ∀ failure, Config.load start.site start.workspace.dirPath ≠ .failed failure)
    (hreal : ∀ n ∈ start.workspace.config.numbers, n.isReal = false) {events : List Event}
    (hevents : AllUndisturbed p start events) :
    let x := start.run events
    (∀ again, ∃ w, (Workspace.openAt x.site p again).value = .ok w ∧ Workspace.Alike x.site x.workspace w) ∧
      x.workspace.config.extra = start.workspace.config.extra ∧
      ∀ setting, Undisturbed p x (.configure setting) →
        let y := x.after (.configure setting)
        Config.load y.site y.workspace.dirPath = .loaded y.workspace.config ∧
          (∀ again, ∃ w, (Workspace.openAt y.site p again).value = .ok w ∧
            Workspace.Alike y.site y.workspace w) ∧
          setting.Fulfilled x.site x.workspace y.workspace.config ∧
          Config.AgreeBut setting.key x.workspace.config y.workspace.config := by
  intro x
  have hstart := inStep_of_openAt hopen hdir hp hload hreal
  have hx : x.InStep p := hstart.run hevents
  have hreopen : ∀ {y : Session}, y.InStep p → ∀ again,
      ∃ w, (Workspace.openAt y.site p again).value = .ok w ∧ Workspace.Alike y.site y.workspace w := by
    intro y hy again
    obtain ⟨w, hw, hwdir, hwconfig⟩ := hy.reopen again
    exact ⟨w, hw, Workspace.alike_of_eq hwdir hwconfig⟩
  refine ⟨hreopen hx, extra_run start events, fun setting hsetting => ?_⟩
  obtain ⟨hy, hyload⟩ := hx.configure hsetting
  exact ⟨hyload, hreopen hy, x.workspace.fulfilled_configWith x.site setting,
    x.workspace.agreeBut_configWith x.site setting⟩

/-- A directory with a configuration that has a member which means nothing here. -/
def editedSite : Site where
  disk := { entries :=
    [(.of ["p"], .directory), (.of ["p", "w"], .directory),
      (.of ["p", "w", "config"], .file (Text.encode "\x7b\x22z\x22: -7\x7d"))] }
  cwd := []

def editedStart : Session := ⟨editedSite, Workspace.opened editedSite (.of ["p", "w"])⟩

/-- The session after an option was set and the files were listed. -/
def editedSession : Session :=
  editedStart.run [.configure (.editorOption "tab-width" (.number (.natural 8))), .reload]

theorem reopened_alike_editedSession :
    editedSession.workspace.config =
        { editorOptions := [("tab-width", .number (.natural 8))], extra := [("z", .number (.negative 7))] } ∧
      ∃ w, (Workspace.openAt editedSession.site ⟨"/p/./w"⟩ true).value = .ok w ∧
        Workspace.Alike editedSession.site editedSession.workspace w := by
  have hopen : (Workspace.openAt editedStart.site ⟨"/p/./w"⟩ true).value = .ok editedStart.workspace := by
    decide +kernel
  have hload : ∀ failure, Config.load editedStart.site editedStart.workspace.dirPath ≠ .failed failure := by
    have hloaded : Config.load editedStart.site editedStart.workspace.dirPath =
        .loaded { extra := [("z", .number (.negative 7))] } := by decide +kernel
    rw [hloaded]
    simp
  have hevents : AllUndisturbed ⟨"/p/./w"⟩ editedStart
      [.configure (.editorOption "tab-width" (.number (.natural 8))), .reload] := by
    have hfile : editedStart.site.locate true (editedStart.workspace.dirPath.join Config.fileName) =
        .ok (.of ["p", "w", "config"], some (.file (Text.encode "\x7b\x22z\x22: -7\x7d"))) := by
      decide +kernel
    exact ⟨⟨by decide, _, Site.writeBytes_eq_ok_iff.2 ⟨_, _, hfile, by simp, rfl⟩⟩, trivial, trivial⟩
  have hall := reopened_alike hopen (by decide +kernel) (by decide +kernel) hload (by decide +kernel) hevents
  exact ⟨by decide +kernel, hall.1 true⟩

/-- The path goes up from a name that is missing, and so to a link that it does not follow. -/
def detour : Path := ⟨"/s/real/config/../../../l"⟩

def detourSite : Site where
  disk := { entries :=
    [(.of ["s"], .directory), (.of ["s", "real"], .directory), (.of ["l"], .link ⟨"/s/real"⟩)] }
  cwd := []

def detourSession : Session := ⟨detourSite, Workspace.opened detourSite (.of ["l"])⟩

/-- A workspace that was opened by a path which leads nowhere has another root when it is opened again,
by the same path or by its directory: now the file is there, so that the link is followed. -/
theorem reopened_elsewhere :
    (Workspace.openAt detourSite detour true).value = .ok detourSession.workspace ∧
      detourSite.isDirectory detourSession.workspace.dirPath = true ∧
      Config.load detourSite detourSession.workspace.dirPath = .missing ∧
      let x := detourSession.after (.configure (.excludeFiles ["x"]))
      Config.load x.site x.workspace.dirPath = .loaded x.workspace.config ∧
        x.workspace.rootDir x.site = [] ∧
        ∀ q ∈ [detour, x.workspace.dirPath],
          (Workspace.openAt x.site q true).value.map (Workspace.rootDir x.site) = .ok (.of ["s"]) := by
  decide +kernel

end Session

end ImportAtlas
