import ImportAtlas.Command.Arguments
import ImportAtlas.Watch.Service

/-!
# Running commands

A command opens the workspace, which need not exist, and prints lines or fails with a message.

Main definitions:

* `ImportAtlas.Outcome` — the disk afterwards, the lines, and why the command failed;
* `ImportAtlas.Invocation.run` — what a command does.
-/

set_option autoImplicit false

namespace ImportAtlas

/-- What comes of a command. -/
structure Outcome where
  disk : Disk
  lines : List String := []
  error : Option String := none
deriving DecidableEq, Repr

/-- The width to which listed files are cut. -/
def listingWidth : Nat := 48

/-- A file as it is listed. -/
def FileRef.listed (r : FileRef) : String := r.abbreviate listingWidth true

namespace Command

/-- Runs `f` on the workspace in a directory. -/
def withWorkspace (s : Site) (dir : Path) (f : Workspace → Logged Outcome) : Logged Outcome := do
  match ← Workspace.openAt s dir false with
  | .ok workspace => f workspace
  | .error e => return { disk := s.disk, error := some e.message }

/-- Makes the directory of a workspace. -/
def create (s : Site) (dir : Path) : Logged Outcome := do
  match Workspace.create s dir with
  | (disk, some e) => return { disk := disk, error := some e.message }
  | (disk, none) =>
      .write .info s!"Initialized workspace in {dir.text}"
      return { disk := disk }

/-- Lists the files that match a query. -/
def list (s : Site) (dir : Path) (query : String) : Logged Outcome :=
  withWorkspace s dir fun w => do
    return { disk := s.disk, lines := (w.findFiles s query).map FileRef.listed }

/-- Reports the size of the graph. -/
def report (s : Site) (dir : Path) : Logged Outcome :=
  withWorkspace s dir fun w => do
    .write .info s!"Indexing {(w.rootDir s).text}"
    let graph ← w.build s true
    let external := (graph.files.filter fun f => !f.analyzed).length
    return { disk := s.disk, lines :=
      [s!"{graph.fileCount} files ({external} external), {graph.edgeCount} import edges"] }

/-- Asks the graph about a file, seen from the current directory. -/
def ask (s : Site) (dir file : Path) (question : Graph → RealPath → List FileRef) :
    Logged Outcome :=
  withWorkspace s dir fun w => do
    let target := (s.ref file (RealPath.toPath s.cwd)).abs
    let graph ← w.build s true
    if graph.contains target then
      return { disk := s.disk, lines := (question graph target).map FileRef.shortest }
    else
      return { disk := s.disk
               error := some s!"{target.text} is not a source file in the workspace" }

/-- What the version command prints. -/
def versionLine : String := "Arbor v0.1.0"

end Command

/-- What a command does. The command that watches prints nothing. -/
def Invocation.run (s : Site) (i : Invocation) : Logged Outcome := do
  .write .debug s!"Workspace directory: {i.workspace.text}"
  match i.command with
  | .init dir => Command.create s (dir.getD i.workspace)
  | .files query => Command.list s i.workspace (query.getD "*")
  | .index => Command.report s i.workspace
  | .deps file => Command.ask s i.workspace file fun g p => (g.outgoing p).map (·.dest)
  | .rdeps file true => Command.ask s i.workspace file Graph.transitiveDependents
  | .rdeps file false => Command.ask s i.workspace file fun g p => (g.incoming p).map (·.source)
  | .watch => return { disk := s.disk }
  | .version => return { disk := s.disk, lines := [Command.versionLine] }

end ImportAtlas
