import ImportAtlas.Proofs.Path.Canonical
import ImportAtlas.Proofs.Workspace.Walk
import Mathlib.Data.List.Induction

/-!
# Sessions

A session is a workspace on a site. It starts when the workspace is opened, and then goes on with
reloads, new settings and new listeners, in any order, while somebody else may change the disk at any
time in any way. The directory of the workspace is the one that it was opened in, whatever happens.

Main definitions:

* `ImportAtlas.Session`, `ImportAtlas.Session.Event` — sessions, and what can happen in them;
* `ImportAtlas.Session.run` — a session after some events;
* `ImportAtlas.Workspace.opened` — the workspace in a directory when it was just opened;
* `ImportAtlas.Session.Opened`, `ImportAtlas.Session.Reloaded` — a session when its workspace was just
  opened, and when its files were just listed.

Main results:

* `ImportAtlas.Session.dir_run` — nothing changes the directory of the workspace;
* `ImportAtlas.Session.Reloaded.files_eq` — **after a reload, the files are those that the walk finds**.
-/

set_option autoImplicit false

namespace ImportAtlas

namespace Workspace

/-- The workspace in a directory when it was just opened. -/
def opened (s : Site) (dir : RealPath) : Workspace :=
  let loaded := (loadConfig s dir).value
  (reload s ⟨dir, loaded.1, loaded.2, [], []⟩).value.1

theorem value_loadConfig (s : Site) (dir : RealPath) :
    (loadConfig s dir).value =
      match Config.load s (RealPath.toPath dir) with
      | .loaded config => (config, true)
      | .missing => ({}, true)
      | .failed _ => ({}, false) := by
  unfold loadConfig
  generalize Config.load s (RealPath.toPath dir) = load
  cases load with
  | loaded config => rfl
  | missing => rfl
  | failed failure => rfl

theorem opened_eq (s : Site) (dir : RealPath) :
    opened s dir =
      let loaded := (loadConfig s dir).value
      let root := rootDir s ⟨dir, loaded.1, loaded.2, [], []⟩
      ⟨dir, loaded.1, loaded.2, (s.walk loaded.1.excludeFiles root).value, []⟩ := by
  rw [opened, value_reload]

theorem dir_opened (s : Site) (dir : RealPath) : (opened s dir).dir = dir := by rw [opened_eq]

/-- The configuration is the one that is found, or else the defaults. -/
theorem config_opened (s : Site) (dir : RealPath) :
    (opened s dir).config =
      match Config.load s (RealPath.toPath dir) with
      | .loaded config => config
      | .missing => {}
      | .failed _ => {} := by
  rw [opened_eq]
  dsimp only
  rw [value_loadConfig]
  cases Config.load s (RealPath.toPath dir) with
  | loaded config => rfl
  | missing => rfl
  | failed failure => rfl

end Workspace

/-- A workspace on a site. -/
structure Session where
  site : Site
  workspace : Workspace
deriving DecidableEq, Repr

namespace Session

/-- What can happen in a session. -/
inductive Event where
  /-- Somebody else changes the disk. -/
  | outside (disk : Disk)
  | configure (setting : Setting)
  | listen (listener : Listener)
  | reload
deriving DecidableEq, Repr

/-- The session after an event. -/
def after (x : Session) : Event → Session
  | .outside disk => { x with site := { x.site with disk := disk } }
  | .configure setting =>
      let (disk, workspace) := (x.workspace.configure x.site setting).value
      ⟨{ x.site with disk := disk }, workspace⟩
  | .listen listener => { x with workspace := x.workspace.listen listener }
  | .reload => { x with workspace := (x.workspace.reload x.site).value.1 }

/-- The session after some events. -/
def run (x : Session) (events : List Event) : Session := events.foldl after x

theorem run_concat (x : Session) (events : List Event) (event : Event) :
    x.run (events ++ [event]) = (x.run events).after event := by
  simp [run]

theorem dir_after (x : Session) (event : Event) :
    (x.after event).workspace.dir = x.workspace.dir := by
  cases event <;> rfl

/-- Nothing changes the directory of the workspace. -/
theorem dir_run (x : Session) (events : List Event) :
    (x.run events).workspace.dir = x.workspace.dir := by
  induction events using List.reverseRecOn with
  | nil => rfl
  | append_singleton events event ih => rw [run_concat, dir_after, ih]

/-! ### Opening and reloading -/

/-- The workspace was opened by a path, and nothing has happened since. -/
def Opened (x : Session) : Prop :=
  ∃ (p : Path) (mustExist : Bool), (Workspace.openAt x.site p mustExist).value = .ok x.workspace

/-- A workspace that is opened has the directory that the path canonically leads to, which must be there
if that is asked for. -/
theorem value_openAt_iff {s : Site} {p : Path} {mustExist : Bool} {w : Workspace} :
    (Workspace.openAt s p mustExist).value = .ok w ↔
      (mustExist = true → s.isDirectory (RealPath.toPath (s.canonicalize p)) = true) ∧
        w = Workspace.opened s (s.canonicalize p) := by
  rw [Workspace.openAt]
  split
  · next hmissing =>
      simp only [Bool.and_eq_true, Bool.not_eq_true'] at hmissing
      simp [hmissing]
  · next hmissing =>
      simp only [Bool.and_eq_true, Bool.not_eq_true', not_and, Bool.not_eq_false] at hmissing
      simp only [Logged.value_bind, Logged.value_pure, Except.ok.injEq]
      exact ⟨fun h => ⟨hmissing, h.symm⟩, fun h => h.2.symm⟩

/-- Opening ends with a reload. -/
theorem value_openAt {s : Site} {p : Path} {mustExist : Bool} {w : Workspace}
    (h : (Workspace.openAt s p mustExist).value = .ok w) :
    ∃ blank : Workspace, blank.dir = s.canonicalize p ∧ w = (blank.reload s).value.1 := by
  rw [Workspace.openAt] at h
  split at h
  · cases h
  · simp only [Logged.value_bind, Logged.value_pure] at h
    exact ⟨_, rfl, (Except.ok.inj h).symm⟩

/-- The files were just listed: the last thing that happened, if anything did, was a reload. -/
def Reloaded (x : Session) : Prop :=
  ∃ (start : Session) (events : List Event), start.Opened ∧
    (∀ event ∈ events.getLast?, event = .reload) ∧ x = start.run events

/-- A session whose files were just listed is one in which a reload comes last. -/
theorem Reloaded.exists_before {x : Session} (h : x.Reloaded) :
    ∃ before : Session, x = before.after .reload := by
  obtain ⟨start, events, ⟨p, mustExist, hopen⟩, hlast, rfl⟩ := h
  rcases List.eq_nil_or_concat' events with rfl | ⟨front, event, rfl⟩
  · obtain ⟨blank, -, hblank⟩ := value_openAt hopen
    refine ⟨⟨start.site, blank⟩, ?_⟩
    rw [after, ← hblank]
    rfl
  · obtain rfl : event = .reload := hlast event (by simp)
    exact ⟨start.run front, run_concat start front .reload⟩

/-- **After a reload, the files are those that the walk finds.** -/
theorem Reloaded.files_eq {x : Session} (h : x.Reloaded) :
    x.workspace.files =
      (x.site.walk x.workspace.config.excludeFiles (x.workspace.rootDir x.site)).value := by
  obtain ⟨before, rfl⟩ := h.exists_before
  rfl

end Session

end ImportAtlas
