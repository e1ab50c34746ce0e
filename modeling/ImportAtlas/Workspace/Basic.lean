import ImportAtlas.Module.Resolver
import ImportAtlas.Watch.Filter
import ImportAtlas.Workspace.Config
import ImportAtlas.Workspace.EditorOptions
import ImportAtlas.Workspace.Walk

/-!
# Workspaces

A workspace has a directory of its own, which need not exist, a configuration, and the list of the
files below its root, as it was found by the last walk. Changing a setting also writes the
configuration to the directory, unless the directory does not exist or holds a configuration that
could not be read.

Operations take the site on which the workspace lies; those that change the disk give the new one.

Main definitions:

* `ImportAtlas.Workspace` — a workspace;
* `ImportAtlas.Workspace.create`, `ImportAtlas.Workspace.openAt` — making and opening one;
* `ImportAtlas.Workspace.reload` — walking again, and telling the listeners what changed;
* `ImportAtlas.Setting`, `ImportAtlas.Workspace.configure` — changing a setting;
* `ImportAtlas.Workspace.rootDir`, `ImportAtlas.Workspace.searchPath`,
  `ImportAtlas.Workspace.findFiles` and others — the questions.
-/

set_option autoImplicit false

namespace ImportAtlas

/-- What a walk found that the one before did not, and the other way round. -/
structure FileListChange where
  removed : List FileRef := []
  added : List FileRef := []
deriving DecidableEq, Repr, Inhabited

/-- Whether nothing changed. -/
def FileListChange.isEmpty (c : FileListChange) : Bool := c.removed.isEmpty && c.added.isEmpty

/-- The change from one list of files to another. -/
def FileListChange.between (before later : List FileRef) : FileListChange where
  removed := Order.difference before later
  added := Order.difference later before

/-- Somebody who is told of each reload, and who may fail when told. -/
structure Listener where
  label : String
  failure : Option String := none
deriving DecidableEq, Repr

/-- A workspace. -/
structure Workspace where
  dir : RealPath
  config : Config := {}
  /-- Whether the configuration may be written: it may not if there is one that could not be read. -/
  writable : Bool := true
  /-- What the last walk found. -/
  files : List FileRef := []
  listeners : List Listener := []
deriving DecidableEq, Repr

/-- Why a workspace cannot be made or opened. -/
inductive WorkspaceError where
  | alreadyExists (path : Path)
  | notFound (dir : RealPath)
  | disk (path : Path) (error : OsError)
deriving DecidableEq, Repr

/-- The reason in words. -/
def WorkspaceError.message : WorkspaceError → String
  | .alreadyExists path => s!"workspace already exists: {path.text}"
  | .notFound dir => s!"no workspace directory: {dir.text}"
  | .disk path error => s!"i/o error on {path.text}: {error.message}"

namespace Workspace

/-! ### Places -/

/-- The directory of a workspace as a path. -/
def dirPath (w : Workspace) : Path := RealPath.toPath w.dir

/-- The root: the configured one, seen from the directory of the workspace, or else the directory
above that. -/
def rootDir (s : Site) (w : Workspace) : RealPath :=
  match w.config.rootDir with
  | some root => s.canonicalize (w.dirPath.join root)
  | none => w.dir.dropLast

/-- The root as a path. -/
def rootPath (s : Site) (w : Workspace) : Path := RealPath.toPath (w.rootDir s)

/-- The configured directories in which modules are searched. -/
def pythonPath (s : Site) (w : Workspace) : List RealPath :=
  w.config.pythonPath.map fun p => s.canonicalize ((w.rootPath s).join p)

/-- The directories in which modules are searched: the configured ones, or the root if there are
none. -/
def searchPath (s : Site) (w : Workspace) : List RealPath :=
  if w.pythonPath s = [] then [w.rootDir s] else w.pythonPath s

/-- The files that are open in the editor. -/
def openFiles (s : Site) (w : Workspace) : List FileRef :=
  w.config.openFiles.map fun p => s.ref ⟨p⟩ (w.rootPath s)

/-- Where the index of symbols is kept. -/
def symbolIndex (s : Site) (w : Workspace) : FileRef :=
  s.ref (w.dirPath.join ⟨"index.db"⟩) (w.rootPath s)

/-- The resolver for the modules of a workspace. -/
def resolver (s : Site) (w : Workspace) : Resolver where
  site := s
  finder := s.finder
  searchPath := (w.searchPath s).map RealPath.toPath
  root := w.rootPath s

/-- The filter for changes below the root. -/
def filter (s : Site) (w : Workspace) : PathFilter := ⟨w.rootPath s, w.config.excludeFiles⟩

/-! ### The list of files -/

/-- A listener is told of a change. -/
structure Call where
  listener : Listener
  change : FileListChange
deriving DecidableEq, Repr

/-- What comes of a reload: the change that it gives back, and the calls of the listeners, in order. -/
structure Reload where
  change : FileListChange
  calls : List Call
deriving DecidableEq, Repr

/-- Tells the listeners, from the given number on, of a change, and gives the calls. One that fails is
reported, and the others are told all the same. -/
def notify (change : FileListChange) : Nat → List Listener → Logged (List Call)
  | _, [] => return []
  | i, listener :: rest => do
      match listener.failure with
      | some text => .write .warn s!"File listener {i} failed: {text}"
      | none => pure ()
      return ⟨listener, change⟩ :: (← notify change (i + 1) rest)

/-- Walks again, replaces the list of files and tells all listeners what changed, even if nothing
did. -/
def reload (s : Site) (w : Workspace) : Logged (Workspace × Reload) := do
  .write .info "Loading workspace file list"
  let files ← s.walk w.config.excludeFiles (w.rootDir s)
  let change := FileListChange.between w.files files
  .write .debug
    s!"File list reloaded: {files.length} files, {change.added.length} added, {change.removed.length} removed"
  let calls ← notify change 0 w.listeners
  return ({ w with files := files }, ⟨change, calls⟩)

/-- The workspace with one more listener. -/
def listen (w : Workspace) (listener : Listener) : Workspace :=
  { w with listeners := w.listeners ++ [listener] }

/-- Whether a text occurs in another. -/
def occursIn (query : List Char) : List Char → Bool
  | [] => query.isEmpty
  | c :: rest => query.isPrefixOf (c :: rest) || occursIn query rest

/-- The files that are no directories and whose text holds a query. A star matches all, and an empty
query matches none. -/
def findFiles (s : Site) (w : Workspace) (query : String) : List FileRef :=
  if query = "" then []
  else
    w.files.filter fun r =>
      !s.isDirectory (RealPath.toPath r.abs) &&
        (query = "*" || occursIn query.toList r.shortest.toList)

/-! ### Making and opening -/

/-- Makes an empty directory for a workspace where nothing is yet. Gives the disk, and why it failed
if it did. -/
def create (s : Site) (p : Path) : Disk × Option WorkspaceError :=
  if s.exists? p then (s.disk, some (.alreadyExists p))
  else
    let (disk, error) := s.makeDirectories p
    (disk, error.map (.disk p))

/-- The configuration in a directory, and whether it may be written. -/
def loadConfig (s : Site) (dir : RealPath) : Logged (Config × Bool) := do
  match Config.load s (RealPath.toPath dir) with
  | .loaded config => return (config, true)
  | .missing => return ({}, true)
  | .failed failure =>
      let file := (RealPath.toPath dir).join Config.fileName
      .write .error s!"Failed to read {file.text}: {failure.message}"
      return ({}, false)

/-- Opens the workspace in a directory and walks. With `mustExist` the directory has to be there;
without it a workspace with the defaults is opened, and nothing is written. -/
def openAt (s : Site) (p : Path) (mustExist : Bool) : Logged (Except WorkspaceError Workspace) := do
  let dir := s.canonicalize p
  if mustExist && !s.isDirectory (RealPath.toPath dir) then return .error (.notFound dir)
  let (config, writable) ← loadConfig s dir
  let (workspace, _) ← reload s ⟨dir, config, writable, [], []⟩
  return .ok workspace

/-! ### Settings -/

/-- Writes the configuration, as far as that may be done; gives the disk. -/
def persist (s : Site) (w : Workspace) : Logged Disk := do
  if !s.isDirectory w.dirPath then
    .write .debug s!"No workspace directory at {w.dir.text}, not saving config"
    return s.disk
  else if !w.writable then
    .write .warn "Not saving config: the existing file could not be read"
    return s.disk
  else
    match w.config.save s w.dirPath with
    | .ok disk => return disk
    | .error e =>
        .write .error s!"Failed to write {(w.dirPath.join Config.fileName).text}: {e.message}"
        return s.disk

end Workspace

/-- A new value for a setting. -/
inductive Setting where
  | rootDir (root : Path)
  | pythonPath (dirs : List Path)
  | excludeFiles (names : List String)
  | openFiles (files : List FileRef)
  | editorOption (key : String) (value : Json)
deriving DecidableEq, Repr

namespace Workspace

/-- The configuration with a new value for a setting. Open files are stored as seen from the root, as
they are shown. -/
def configWith (s : Site) (w : Workspace) : Setting → Config
  | .rootDir root => { w.config with rootDir := some root }
  | .pythonPath dirs => { w.config with pythonPath := dirs }
  | .excludeFiles names => { w.config with excludeFiles := names }
  | .openFiles files =>
      { w.config with
        openFiles := files.map fun r =>
          Path.shown ⟨(s.ref (RealPath.toPath r.abs) (w.rootPath s)).rel⟩ }
  | .editorOption key value =>
      { w.config with editorOptions := w.config.editorOptions.insert key value }

/-- Changes a setting and writes the configuration; gives the disk and the workspace. -/
def configure (s : Site) (w : Workspace) (setting : Setting) : Logged (Disk × Workspace) := do
  let w := { w with config := w.configWith s setting }
  return (← w.persist s, w)

/-- The options of the editor. -/
def editorOptions (w : Workspace) : Logged EditorOptions :=
  EditorOptions.withOverrides w.config.editorOptions

/-- The bytes of the style sheet, if there is one. -/
def stylesheet (s : Site) (w : Workspace) : Logged (Option (List UInt8)) := do
  let file := w.dirPath.join ⟨"override.css"⟩
  if !s.exists? file then return none
  match s.readBytes file with
  | .ok bytes => return some bytes
  | .error e =>
      .write .error s!"Failed to read {file.text}: {e.message}"
      return none

/-- The workspace in one line. -/
def summary (w : Workspace) : String :=
  s!"Workspace \x7b workspace_dir: {w.dirPath.quoted}, file_count: {w.files.length}, listener_count: {w.listeners.length} \x7d"

end Workspace

end ImportAtlas
