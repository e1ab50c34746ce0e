import ImportAtlas.FileRef
import ImportAtlas.Module.Finder
import ImportAtlas.Text.Quoted

/-!
# Resolving module names

A dotted name is resolved part by part: each part but the last has to be a package, in whose
directory the next part is searched. The result is the set of the files that are loaded on the way,
which are the initializers of the packages and the last file.

Main definitions:

* `ImportAtlas.ResolveError` — why a name cannot be resolved;
* `ImportAtlas.Resolver` — a finder with a search path and a root;
* `ImportAtlas.Resolver.resolve` — absolute names;
* `ImportAtlas.Resolver.resolveRelative` — names relative to an importing file.
-/

set_option autoImplicit false

namespace ImportAtlas

/-- A path between quotes. -/
def Path.quoted (p : Path) : String := Text.quoted true p.text

/-- Why a module name cannot be resolved. -/
inductive ResolveError where
  /-- A part of the name is empty. -/
  | invalidName (module : String)
  /-- A part of the name is not found. -/
  | notFound (module segment : String)
  /-- A part of the name that is not the last one is a file. -/
  | notPackage (module : String) (file : Path)
  /-- There are more dots than directories above the importing file. -/
  | beyondTop (importer : Path)
deriving DecidableEq, Repr

/-- The reason in words. -/
def ResolveError.message : ResolveError → String
  | .invalidName module => "invalid module name " ++ Text.quoted false module
  | .notFound module segment =>
      "no module named " ++ Text.quoted false segment ++ " while resolving " ++
        Text.quoted false module
  | .notPackage module file =>
      Text.quoted false module ++ ": " ++ file.text ++ " is a module, not a package"
  | .beyondTop importer => "relative import climbs above " ++ importer.text

/-- Resolves module names to files. -/
structure Resolver where
  /-- The site on which the files that are found get their canonical places. -/
  site : Site
  finder : Finder
  searchPath : List Path
  /-- The root that references are made for. -/
  root : Path

namespace Resolver

/-- The reference for a file that is found. -/
def ref (r : Resolver) (p : Path) : FileRef := r.site.ref p r.root

/-- The parts of a dotted name. -/
def segments (module : String) : List String :=
  (module.toList.splitOn '.').map String.ofList

/-- Resolves the parts of a name that are left in some directories. -/
def chain (r : Resolver) (module : String) :
    List String → List Path → Except ResolveError (List FileRef)
  | [], _ => .ok []
  | segment :: rest, dirs =>
      match r.finder.find? segment dirs with
      | none => .error (.notFound module segment)
      | some (.package dir) =>
          match r.chain module rest [dir] with
          | .ok refs => .ok (Order.insertNew (r.ref (dir.join initializer)) refs)
          | .error e => .error e
      | some (.source file) =>
          if rest = [] then .ok [r.ref file] else .error (.notPackage module file)

/-- Resolves a name in some directories. -/
def resolveIn (r : Resolver) (module : String) (dirs : List Path) :
    Except ResolveError (List FileRef) :=
  if "" ∈ segments module then .error (.invalidName module)
  else r.chain module (segments module) dirs

/-- Resolves an absolute name. -/
def resolve (r : Resolver) (module : String) : Except ResolveError (List FileRef) :=
  r.resolveIn module r.searchPath

/-- The directory some levels above a path. -/
def above? : Nat → Path → Option Path
  | 0, p => some p
  | n + 1, p => p.parent?.bind (above? n)

/-- The directory that a relative name is seen from: one dot stands for the directory of the
importing file, each further dot for the one above. -/
def base? (importer : Path) (level : Nat) : Option Path := above? (max level 1) importer

/-- The initializer of a directory, if it is a package. -/
def initializerOf (r : Resolver) (dir : Path) : List FileRef :=
  if r.finder.isPackage dir then [r.ref (dir.join initializer)] else []

/-- Resolves a name relative to an importing file. The initializer of the directory that it is seen
from belongs to the result. -/
def resolveRelative (r : Resolver) (importer : Path) (level : Nat) (module : Option String) :
    Except ResolveError (List FileRef) :=
  match base? importer level with
  | none => .error (.beyondTop importer)
  | some base =>
      match module with
      | none => .ok (r.initializerOf base)
      | some module =>
          match r.resolveIn module [base] with
          | .ok refs => .ok (Order.union (r.initializerOf base) refs)
          | .error e => .error e

/-- The resolver in one line. -/
def summary (r : Resolver) : String :=
  "ImportResolver \x7b search_path: [" ++ ", ".intercalate (r.searchPath.map Path.quoted) ++
    "], root: " ++ r.root.quoted ++ " \x7d"

end Resolver

end ImportAtlas
