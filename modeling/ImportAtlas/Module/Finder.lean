import ImportAtlas.Disk.Basic

/-!
# Finding modules

A finder looks for one module name in a list of directories and gives what it finds first. On a disk
a module is a directory with an initializer, or else a source file; in one directory the former hides
the latter.

Main definitions:

* `ImportAtlas.Location` — where a module is;
* `ImportAtlas.Finder` — a way to find modules;
* `ImportAtlas.Site.finder` — finding modules on a disk;
* `ImportAtlas.ModuleTable.finder` — finding modules in a table.
-/

set_option autoImplicit false

namespace ImportAtlas

/-- Where a module is. -/
inductive Location where
  /-- A source file. -/
  | source (file : Path)
  /-- A directory with an initializer. -/
  | package (dir : Path)
deriving DecidableEq, Repr

/-- The file that makes a directory a package. -/
def initializer : Path := ⟨"__init__.py"⟩

/-- A way to find modules. -/
structure Finder where
  /-- The first module of a name in some directories. -/
  find? : String → List Path → Option Location
  /-- Whether a directory is a package. -/
  isPackage : Path → Bool

namespace Site

/-- Whether a directory has an initializer. -/
def isPackage (s : Site) (dir : Path) : Bool := s.isFile (dir.join initializer)

/-- The module of a name in a directory. -/
def moduleIn? (s : Site) (name : String) (dir : Path) : Option Location :=
  let package := dir.join ⟨name⟩
  let file := dir.join ⟨name ++ ".py"⟩
  if s.isPackage package then some (.package package)
  else if s.isFile file then some (.source file)
  else none

/-- The first module of a name in some directories. -/
def findModule? (s : Site) (name : String) (dirs : List Path) : Option Location :=
  dirs.findSome? (s.moduleIn? name)

/-- Finding modules on a disk. -/
def finder (s : Site) : Finder := ⟨s.findModule?, s.isPackage⟩

end Site

/-- A module that is known beforehand: the directory in which it is found, its name, and where it
is. -/
structure ModuleEntry where
  dir : Path
  name : String
  location : Location
deriving DecidableEq, Repr

/-- Modules that are known beforehand. -/
abbrev ModuleTable := List ModuleEntry

namespace ModuleTable

/-- The first module of a name in some directories. -/
def find? (table : ModuleTable) (name : String) (dirs : List Path) : Option Location :=
  dirs.findSome? fun dir =>
    (table.filter fun entry => entry.name = name && entry.dir.same dir).head?.map (·.location)

/-- Whether a directory is the place of a package. -/
def isPackage (table : ModuleTable) (dir : Path) : Bool :=
  table.any fun entry =>
    match entry.location with
    | .package place => place.same dir
    | .source _ => false

/-- Finding modules in a table. -/
def finder (table : ModuleTable) : Finder := ⟨find? table, isPackage table⟩

end ModuleTable

end ImportAtlas
