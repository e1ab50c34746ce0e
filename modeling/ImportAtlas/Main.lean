import ImportAtlas.Command.Run
import Std.Data.HashMap
import Std.Data.HashSet

/-!
# The program

The program reads as much of the disk as a command looks at, runs the command on that, makes the
directories that the command made, and prints. What it reads is the way to each path that is named,
all that is below the root, and all that is below the directories in which modules are searched. Of
most files it is enough to know that they are there; only source files and configurations are opened.

Main definitions:

* `ImportAtlas.Program.Snapshot` — what was read of the disk;
* `ImportAtlas.Program.readSite` — what an invocation looks at;
* `ImportAtlas.Program.run` — an invocation on the disk of the system;
* `main` — the program.
-/

set_option autoImplicit false

namespace ImportAtlas.Program

/-! ### Reading the disk -/

instance : Hashable Name := ⟨fun name => hash name.text⟩

/-- What was read of the disk. -/
structure Snapshot where
  entries : Std.HashMap RealPath Entry := {}
  /-- The directories whose entries were all read. -/
  listed : Std.HashSet RealPath := {}

/-- What was read as a disk. -/
def Snapshot.disk (snapshot : Snapshot) : Disk where
  entries := snapshot.entries.toList
  nodup_places := by
    refine List.pairwise_map.2 ?_
    exact snapshot.entries.distinct_keys_toList.imp fun h => by simpa using h

/-- A snapshot with a current directory. -/
def Snapshot.site (snapshot : Snapshot) (cwd : RealPath) : Site := ⟨snapshot.disk, cwd⟩

/-- The name of a place in the directory above it. -/
def directoryEntry (place : RealPath) : IO.FS.DirEntry :=
  ⟨RealPath.text place.dropLast, (RealPath.texts place).getLastD ""⟩

/-- The place with a name in a directory. -/
def placeIn? (dir : RealPath) (name : String) : Option RealPath :=
  ((RealPath.toPath dir).join ⟨name⟩).real?

/-- The place that a path leads to, if it leads anywhere. -/
def systemPlace? (p : Path) : IO (Option RealPath) := do
  try
    let found ← IO.FS.realPath p.text
    return (Path.mk found.toString).real?
  catch _ => return none

/-- Whether a file is opened. -/
def isOpened (place : RealPath) : Bool :=
  RealPath.kind place = .source || (RealPath.texts place).getLast? = some Config.fileName.text

/-- The entry at a place, if there is one. A link is taken as one to the place that it leads to, or to
itself if it leads nowhere. -/
def readEntry? (place : RealPath) : IO (Option Entry) := do
  try
    let data ← (directoryEntry place).path.symlinkMetadata
    match data.type with
    | .dir => return some .directory
    | .symlink =>
        let target ← systemPlace? (RealPath.toPath place)
        return some (.link (RealPath.toPath (target.getD place)))
    | .file =>
        if isOpened place then
          return some (.file (← IO.FS.readBinFile (RealPath.text place)).toList)
        else return some (.file [])
    | .other => return some (.file [])
  catch _ => return none

/-- Adds a place, those above it, and the place that it leads to if it is a link. -/
partial def addPlace (snapshot : Snapshot) (place : RealPath) : IO Snapshot := do
  if place = [] || snapshot.entries.contains place then return snapshot
  let snapshot ← addPlace snapshot place.dropLast
  match ← readEntry? place with
  | none => return snapshot
  | some entry =>
      let snapshot := { snapshot with entries := snapshot.entries.insert place entry }
      match entry with
      | .link target => addPlace snapshot (target.real?.getD [])
      | _ => return snapshot

/-- Adds the places on the way of an absolute path. -/
partial def addPath (snapshot : Snapshot) (p : Path) : IO Snapshot := do
  match p.parent? with
  | none => return snapshot
  | some parent =>
      let snapshot ← addPath snapshot parent
      let dir? ← systemPlace? parent
      match (do placeIn? (← dir?) (← p.fileName?)) with
      | some place => addPlace snapshot place
      | none => return snapshot

/-- Adds all that is below a place, through links too, unless they lead back. -/
partial def addTree (snapshot : Snapshot) (place : RealPath) : IO Snapshot := do
  let snapshot ← addPlace snapshot place
  if snapshot.listed.contains place then return snapshot
  unless ← (directoryEntry place).path.isDir do return snapshot
  let mut snapshot := { snapshot with listed := snapshot.listed.insert place }
  for found in ← (directoryEntry place).path.readDir do
    let some child := placeIn? place found.fileName | continue
    snapshot ← addPlace snapshot child
    match snapshot.entries[child]? with
    | some .directory => snapshot ← addTree snapshot child
    | some (.link target) =>
        let target := target.real?.getD []
        unless target.isPrefixOf child do snapshot ← addTree snapshot target
    | _ => pure ()
  return snapshot

/-- Adds what a command looks at in the workspace of a directory. -/
def addWorkspace (snapshot : Snapshot) (cwd dir : RealPath) : IO Snapshot := do
  let snapshot ← addPath snapshot ((RealPath.toPath dir).join Config.fileName)
  let (config, writable) := (Workspace.loadConfig (snapshot.site cwd) dir).value
  let w : Workspace := ⟨dir, config, writable, [], []⟩
  let mut snapshot := snapshot
  if let some root := config.rootDir then
    snapshot ← addPath snapshot (w.dirPath.join root)
  snapshot ← addTree snapshot (w.rootDir (snapshot.site cwd))
  for p in config.pythonPath do
    snapshot ← addPath snapshot ((w.rootPath (snapshot.site cwd)).join p)
  for place in w.searchPath (snapshot.site cwd) do
    snapshot ← addTree snapshot place
  return snapshot

/-- The paths that the arguments of a command name. -/
def namedPaths : Command → List Path
  | .init dir => dir.toList
  | .deps file => [file]
  | .rdeps file _ => [file]
  | _ => []

/-- Whether a command opens the workspace. -/
def opensWorkspace : Command → Bool
  | .init _ => false
  | .version => false
  | _ => true

/-- What an invocation looks at. -/
def readSite (i : Invocation) : IO Site := do
  let here ← IO.currentDir
  let cwd := ((← systemPlace? ⟨here.toString⟩).getD [])
  let mut snapshot ← addPlace {} cwd
  for p in i.workspace :: namedPaths i.command do
    snapshot ← addPath snapshot ((snapshot.site cwd).absolute p)
  if opensWorkspace i.command then
    snapshot ← addWorkspace snapshot cwd ((snapshot.site cwd).canonicalize i.workspace)
  return snapshot.site cwd

/-! ### Running -/

/-- The word for a level. -/
def levelWord : LogLevel → String
  | .error => "ERROR"
  | .warn => " WARN"
  | .info => " INFO"
  | .debug => "DEBUG"
  | .trace => "TRACE"

/-- Whether entries of a level are shown. -/
def isShown (verbose : Bool) : LogLevel → Bool
  | .trace => false
  | .debug => verbose
  | _ => true

/-- Shows the entries that were written. -/
def showLog (verbose : Bool) (log : List LogEntry) : IO Unit := do
  for entry in log do
    if isShown verbose entry.level then
      IO.eprintln s!"{levelWord entry.level} {entry.message}"

/-- Makes the directories that are on the second disk and not on the first. -/
def makeNew (before later : Disk) : IO Unit := do
  let new := (DiskChange.differences before later).filter fun p => later.entry? p = some .directory
  for place in new.mergeSort fun p q => p.length ≤ q.length do
    IO.FS.createDir (RealPath.text place)

/-- Shows an error and gives the code for it. -/
def fail (message : String) : IO UInt32 := do
  IO.eprintln s!"Error: {message}"
  return 1

/-- The time between two looks at the disk, in milliseconds. -/
def interval : UInt32 := 500

/-- Looks at the disk again and again, and tells the service of what changed. -/
partial def keepWatching (i : Invocation) (s : Site) (service : Service) : IO UInt32 := do
  IO.sleep interval
  let later ← readSite i
  let paths := (DiskChange.differences s.disk later.disk).map RealPath.toPath
  let result := service.applyChanges later paths
  showLog i.verbose result.log
  keepWatching i later result.value.1

/-- Watches a workspace. -/
def watch (i : Invocation) (s : Site) : IO UInt32 := do
  let opened := Workspace.openAt s i.workspace false
  showLog i.verbose opened.log
  match opened.value with
  | .error e => fail e.message
  | .ok workspace =>
      showLog i.verbose [⟨.info, s!"Watching {(workspace.rootPath s).text}"⟩]
      let started := Service.start s workspace
      showLog i.verbose started.log
      keepWatching i s started.value

/-- Runs an invocation on the disk of the system, and gives the code with which the program ends. -/
def run (i : Invocation) : IO UInt32 := do
  let s ← readSite i
  let result := i.run s
  showLog i.verbose result.log
  makeNew s.disk result.value.disk
  for line in result.value.lines do
    IO.println line
  match result.value.error, i.command with
  | some message, _ => fail message
  | none, .watch => watch i s
  | none, _ => return 0

end ImportAtlas.Program

/-- The program. It ends with 0, with 1 if the command fails, and with 2 if there is none. -/
def main (arguments : List String) : IO UInt32 := do
  match ImportAtlas.Invocation.ofArguments arguments with
  | .ok i => ImportAtlas.Program.run i
  | .error .help =>
      for line in ImportAtlas.Invocation.usage do
        IO.println line
      return 0
  | .error .misuse =>
      for line in ImportAtlas.Invocation.usage do
        IO.eprintln line
      return 2
