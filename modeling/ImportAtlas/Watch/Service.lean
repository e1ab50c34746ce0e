import ImportAtlas.Graph.Build
import ImportAtlas.Workspace.Basic

/-!
# Keeping the graph up to date

A service holds a workspace and the graph of its files. It is told in batches which paths changed on
the disk. If one of them matters, it reloads the list of files; if the list changed or one of the
paths is a source file, it also builds the graph anew.

Main definitions:

* `ImportAtlas.Workspace.build` — the graph of the files of a workspace;
* `ImportAtlas.Service` — a workspace with the graph of its files;
* `ImportAtlas.Service.applyChanges` — what the service does with a batch of paths.
-/

set_option autoImplicit false

namespace ImportAtlas

/-- The graph of the files of a workspace, with or without the files outside that they import. -/
def Workspace.build (s : Site) (w : Workspace) (external : Bool) : Logged Graph :=
  (w.resolver s).build external w.files

/-- A workspace with the graph of its files. -/
structure Service where
  workspace : Workspace
  graph : Graph
deriving DecidableEq, Repr

namespace Service

/-- The service for a workspace. -/
def start (s : Site) (w : Workspace) : Logged Service := do
  return ⟨w, ← w.build s true⟩

/-- The paths of a batch that matter. -/
def relevant (s : Site) (service : Service) (paths : List Path) : List Path :=
  paths.filter fun p => !(service.workspace.filter s).ignores p

/-- Whether one of some paths is a source file. -/
def touchesSource (paths : List Path) : Bool := paths.any fun p => p.kind = .source

/-- The service after a batch of paths changed on the disk, and the change of the list of files that
it makes known; there is none if no path matters. -/
def applyChanges (s : Site) (service : Service) (paths : List Path) :
    Logged (Service × Option FileListChange) := do
  let paths := service.relevant s paths
  if paths = [] then return (service, none)
  let (workspace, result) ← service.workspace.reload s
  let change := result.change
  if change.isEmpty && !touchesSource paths then
    .write .debug s!"No source changes in batch of {paths.length} paths"
    return (⟨workspace, service.graph⟩, some change)
  let graph ← workspace.build s true
  let lists := s!"{change.added.length} added, {change.removed.length} removed"
  let sizes := s!"{graph.fileCount} files, {graph.edgeCount} edges"
  .write .info s!"Workspace changed: {lists}; graph has {sizes}"
  return (⟨workspace, graph⟩, some change)

end Service

end ImportAtlas
