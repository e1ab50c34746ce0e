import ImportAtlas.Proofs.Disk.Writing
import ImportAtlas.Proofs.Workspace.Session

/-!
# What changing a setting does

A setting changes one field of the configuration in memory, whatever becomes of the file. On the disk at
most one file changes, the one that holds the configuration; it is left alone if the directory of the
workspace is not there, and for good if the configuration could not be read when the workspace was opened.

Main definitions:

* `ImportAtlas.Setting.Fulfilled` — a configuration holds what a setting asks for;
* `ImportAtlas.Config.AgreeBut` — two configurations differ in one field at most.

Main results:

* `ImportAtlas.Workspace.fulfilled_configWith`, `ImportAtlas.Workspace.agreeBut_configWith` — **a setting
  changes its own field and no other**;
* `ImportAtlas.Workspace.persist_cases` — when the configuration is written;
* `ImportAtlas.Session.writable_run` — whether it may be written does not change in a session;
* `ImportAtlas.Session.nothing_else_is_written` — **over a whole session, no file but that of the
  configuration is ever written, and that one only if it could be read or was missing**.
-/

set_option autoImplicit false

namespace ImportAtlas

/-! ### In memory -/

/-- The key of the field that a setting changes. -/
def Setting.key : Setting → String
  | .rootDir _ => "root_dir"
  | .pythonPath _ => "python_path"
  | .excludeFiles _ => "exclude_files"
  | .openFiles _ => "open_files"
  | .editorOption _ _ => "editor_options"

/-- A configuration holds what a setting asks for, when it was changed in a workspace. Open files are kept
as seen from the root, and an option of the editor leaves the other ones. -/
def Setting.Fulfilled (s : Site) (w : Workspace) (c : Config) : Setting → Prop
  | .rootDir root => c.rootDir = some root
  | .pythonPath dirs => c.pythonPath = dirs
  | .excludeFiles names => c.excludeFiles = names
  | .openFiles files => c.openFiles = files.map fun r => (s.ref (RealPath.toPath r.abs) (w.rootPath s)).rel
  | .editorOption key value => ∀ other, c.editorOptions.get? other =
      if other = key then some value else w.config.editorOptions.get? other

/-- Two configurations have the same members, and the same fields but one. -/
structure Config.AgreeBut (key : String) (c c' : Config) : Prop where
  rootDir : key ≠ "root_dir" → c'.rootDir = c.rootDir
  excludeFiles : key ≠ "exclude_files" → c'.excludeFiles = c.excludeFiles
  pythonPath : key ≠ "python_path" → c'.pythonPath = c.pythonPath
  openFiles : key ≠ "open_files" → c'.openFiles = c.openFiles
  editorOptions : key ≠ "editor_options" → c'.editorOptions = c.editorOptions
  extra : c'.extra = c.extra

namespace Workspace

variable (s : Site) (w : Workspace)

theorem fulfilled_configWith (setting : Setting) :
    setting.Fulfilled s w (w.configWith s setting) := by
  cases setting with
  | rootDir root => rfl
  | pythonPath dirs => rfl
  | excludeFiles names => rfl
  | openFiles files => simp only [Setting.Fulfilled, configWith, Path.shown_eq]
  | editorOption key value => exact fun other => Json.Fields.get?_insert _ key other value

theorem agreeBut_configWith (setting : Setting) :
    Config.AgreeBut setting.key w.config (w.configWith s setting) := by
  cases setting <;> constructor <;> simp [Setting.key, configWith]

/-! ### On the disk -/

/-- The configuration is written if the directory is there, if it may be written, and if that succeeds.
Otherwise nothing happens. -/
theorem persist_cases :
    (s.isDirectory w.dirPath = true ∧ w.writable = true ∧
        w.config.save s w.dirPath = .ok (w.persist s).value) ∨
      ((s.isDirectory w.dirPath = false ∨ w.writable = false ∨
          ∃ e, w.config.save s w.dirPath = .error e) ∧ (w.persist s).value = s.disk) := by
  rw [persist]
  split
  · next hdir => exact .inr ⟨.inl (by simpa using hdir), rfl⟩
  split
  · next hwritable => exact .inr ⟨.inr (.inl (by simpa using hwritable)), rfl⟩
  · next hdir hwritable =>
      cases hsave : w.config.save s w.dirPath with
      | ok disk => exact .inl ⟨by simpa using hdir, by simpa using hwritable, rfl⟩
      | error e => exact .inr ⟨.inr (.inr ⟨e, rfl⟩), rfl⟩

/-- What is written is the file in the directory. -/
theorem onlyWrites_persist (h : w.config.save s w.dirPath = .ok (w.persist s).value) :
    s.OnlyWrites (w.dirPath.join Config.fileName) (Text.encode w.config.text)
      { s with disk := (w.persist s).value } :=
  Site.onlyWrites_of_writeBytes h

/-- A workspace may write its configuration unless that could not be read. -/
theorem writable_opened (dir : RealPath) :
    (opened s dir).writable = true ↔ ∀ failure, Config.load s (RealPath.toPath dir) ≠ .failed failure := by
  rw [opened_eq]
  dsimp only
  rw [value_loadConfig]
  cases Config.load s (RealPath.toPath dir) with
  | loaded config => simp
  | missing => simp
  | failed failure => simp

end Workspace

namespace Session

/-! ### In a session -/

/-- Whether an event is a change by somebody else. -/
def Event.isOutside : Event → Bool
  | .outside _ => true
  | _ => false

theorem writable_after (x : Session) (event : Event) :
    (x.after event).workspace.writable = x.workspace.writable := by
  cases event <;> rfl

/-- Whether the configuration may be written does not change in a session. -/
theorem writable_run (x : Session) (events : List Event) :
    (x.run events).workspace.writable = x.workspace.writable := by
  induction events using List.reverseRecOn with
  | nil => rfl
  | append_singleton events event ih => rw [run_concat, writable_after, ih]

/-- A setting changes the configuration of the workspace and nothing else of it. -/
theorem workspace_configure (x : Session) (setting : Setting) :
    (x.after (.configure setting)).workspace =
      { x.workspace with config := x.workspace.configWith x.site setting } := rfl

/-- Either the site stays as it is, or a setting wrote the configuration, which was there or missing. -/
theorem site_after {x : Session} {event : Event} (hown : event.isOutside = false) :
    (x.after event).site = x.site ∨
      (∃ setting, event = .configure setting) ∧ x.site.isDirectory x.workspace.dirPath = true ∧
        x.workspace.writable = true ∧
        x.site.OnlyWrites (x.workspace.dirPath.join Config.fileName)
          (Text.encode (x.after event).workspace.config.text) (x.after event).site := by
  cases event with
  | outside disk => cases hown
  | listen listener => exact .inl rfl
  | reload => exact .inl rfl
  | configure setting =>
      let w : Workspace := { x.workspace with config := x.workspace.configWith x.site setting }
      have hsite : (x.after (.configure setting)).site = { x.site with disk := (w.persist x.site).value } :=
        rfl
      rcases w.persist_cases x.site with ⟨hdir, hwritable, hsave⟩ | ⟨-, hsame⟩
      · right
        rw [hsite, workspace_configure]
        exact ⟨⟨setting, rfl⟩, hdir, hwritable, w.onlyWrites_persist x.site hsave⟩
      · left
        rw [hsite, hsame]

/-- **Nothing else is written.** Whatever has happened in a session, and whatever somebody else did to the
disk: if the configuration could not be read when the workspace was opened, nothing that the workspace does
changes the disk; nor does a setting while the directory is not there. All that ever happens is that the
file of the configuration is created or replaced where its path leads, by the new configuration. In all
cases a setting is fulfilled in memory, where nothing but its field changes. -/
theorem nothing_else_is_written {start : Session} (hstart : start.Opened) (events : List Event) :
    let x := start.run events
    ((∃ failure, Config.load start.site start.workspace.dirPath = .failed failure) →
        ∀ event, event.isOutside = false → (x.after event).site = x.site) ∧
      (∀ setting, x.site.isDirectory start.workspace.dirPath = false →
        (x.after (.configure setting)).site = x.site) ∧
      (∀ event, event.isOutside = false →
        (x.after event).site = x.site ∨
          x.site.OnlyWrites (start.workspace.dirPath.join Config.fileName)
            (Text.encode (x.after event).workspace.config.text) (x.after event).site) ∧
      ∀ setting,
        (x.after (.configure setting)).workspace =
            { x.workspace with config := (x.after (.configure setting)).workspace.config } ∧
          setting.Fulfilled x.site x.workspace (x.after (.configure setting)).workspace.config ∧
          Config.AgreeBut setting.key x.workspace.config
            (x.after (.configure setting)).workspace.config := by
  intro x
  have hdir : x.workspace.dirPath = start.workspace.dirPath :=
    congrArg RealPath.toPath (dir_run start events)
  refine ⟨fun hfailed event hown => ?_, fun setting hmissing => ?_, fun event hown => ?_, fun setting => ?_⟩
  · obtain ⟨p, mustExist, hopen⟩ := hstart
    obtain ⟨failure, hfailure⟩ := hfailed
    -- what was found when the workspace was opened holds for the whole session
    have hwritable : x.workspace.writable ≠ true := by
      intro h
      rw [writable_run start events, (value_openAt_iff.1 hopen).2, Workspace.writable_opened] at h
      rw [(value_openAt_iff.1 hopen).2] at hfailure
      exact h failure hfailure
    rcases site_after hown with hsame | ⟨-, -, h, -⟩
    · exact hsame
    · exact absurd h hwritable
  · have hown : (Event.configure setting).isOutside = false := rfl
    rcases site_after (x := x) hown with hsame | ⟨-, h, -⟩
    · exact hsame
    · rw [hdir, hmissing] at h
      cases h
  · rcases site_after hown with hsame | ⟨-, -, -, hwrites⟩
    · exact .inl hsame
    · rw [hdir] at hwrites
      exact .inr hwrites
  · exact ⟨rfl, x.workspace.fulfilled_configWith x.site setting,
      x.workspace.agreeBut_configWith x.site setting⟩

/-- The file of the configuration is a link that leads to no file yet. -/
def danglingSite : Site where
  disk := { entries :=
    [(.of ["p"], .directory), (.of ["p", "w"], .directory), (.of ["p", "w", "config"], .link ⟨"../e/c"⟩),
      (.of ["p", "e"], .directory)] }
  cwd := []

def danglingSession : Session := ⟨danglingSite, Workspace.opened danglingSite (.of ["p", "w"])⟩

/-- There the file is created where the link leads. -/
theorem nothing_else_is_written_danglingSession :
    danglingSession.Opened ∧
      danglingSite.OnlyWrites ⟨"/p/w/config"⟩
        (Text.encode "\x7b\n    \x22exclude_files\x22: [\n        \x22out\x22\n    ]\n\x7d")
        (danglingSession.after (.configure (.excludeFiles ["out"]))).site := by
  have hopened : danglingSession.Opened := ⟨⟨"/p/w"⟩, true, by decide +kernel⟩
  have hpath : danglingSession.workspace.dirPath.join Config.fileName = ⟨"/p/w/config"⟩ := by
    decide +kernel
  have htext : (danglingSession.after (.configure (.excludeFiles ["out"]))).workspace.config.text =
      "\x7b\n    \x22exclude_files\x22: [\n        \x22out\x22\n    ]\n\x7d" := by
    decide +kernel
  have hchanged : (danglingSession.after (.configure (.excludeFiles ["out"]))).site ≠ danglingSite := by
    decide +kernel
  have hwrites :=
    ((nothing_else_is_written hopened []).2.2.1 (.configure (.excludeFiles ["out"])) rfl).resolve_left
      hchanged
  rw [hpath] at hwrites
  refine ⟨hopened, ?_⟩
  rw [← htext]
  exact hwrites

end Session

end ImportAtlas
