import ImportAtlas.Graph.Basic
import ImportAtlas.Module.Resolver
import ImportAtlas.Python.Check

/-!
# What a file imports

The import statements of a file are taken apart into references, each of which is resolved by itself.
What cannot be resolved is reported and adds nothing. That a module is not found is worth more notice
than that a name imported from it is not a module, since such a name is most often a class or a
function.

Main definitions:

* `ImportAtlas.Reference` — a name that is resolved;
* `ImportAtlas.references` — the references of a statement;
* `ImportAtlas.Resolver.resolveStatements` — the files that some statements import;
* `ImportAtlas.Resolver.load`, `ImportAtlas.Resolver.vertex?` — the vertex for a file.
-/

set_option autoImplicit false

namespace ImportAtlas

open Python (ImportStatement)

/-- A name that is resolved. -/
inductive Target where
  | absolute (module : String)
  | relative (level : Nat) (module : Option String)
deriving DecidableEq, Repr

/-- A name in an import statement. -/
structure Reference where
  target : Target
  /-- Whether it names a module for sure; if not, it may be a member of one. -/
  isModule : Bool
deriving DecidableEq, Repr

/-- The name as it is reported: the dots and the module. -/
def Target.text : Target → String
  | .absolute module => module
  | .relative level module => String.ofList (List.replicate level '.') ++ module.getD ""

/-- A member of a module, as a module of its own. -/
def Target.member (name : String) : Target → Target
  | .absolute module => .absolute (module ++ "." ++ name)
  | .relative level none => .relative level (some name)
  | .relative level (some module) => .relative level (some (module ++ "." ++ name))

/-- The module whose members are directives of the language. -/
def futureModule : String := "__future__"

/-- The source of a statement that imports members, unless there is none to be resolved. -/
def sourceTarget? (level : Nat) (source : Option String) : Option Target :=
  if level = 0 then
    match source with
    | none => none
    | some module => if module = futureModule then none else some (.absolute module)
  else some (.relative level source)

/-- The references of a statement: each module of an import; the source and then each of its members
of an import from a source. -/
def references : ImportStatement → List Reference
  | .modules names => names.map fun name => ⟨.absolute name, true⟩
  | .members level source names =>
      match sourceTarget? level source with
      | none => []
      | some target => ⟨target, true⟩ :: names.map fun name => ⟨target.member name, false⟩

namespace Resolver

/-- The files that a name in an importing file stands for. -/
def resolveTarget (r : Resolver) (importer : FileRef) :
    Target → Except ResolveError (List FileRef)
  | .absolute module => r.resolve module
  | .relative level module => r.resolveRelative (RealPath.toPath importer.abs) level module

/-- Adds the files of a reference to those found before, or reports why there are none. -/
def absorb (r : Resolver) (importer : FileRef) (found : SortedSet FileRef) (reference : Reference) :
    Logged (SortedSet FileRef) := do
  match r.resolveTarget importer reference.target with
  | .ok refs => return found.insertAll refs
  | .error e =>
      let name := importer.shortest ++ ":" ++ reference.target.text
      if reference.isModule then .write .info s!"Failed to resolve {name}: {e.message}"
      else .write .trace s!"{name} is not a module: {e.message}"
      return found

/-- The files that some statements in an importing file import. -/
def resolveStatements (r : Resolver) (importer : FileRef) (statements : List ImportStatement) :
    Logged (SortedSet FileRef) :=
  (statements.flatMap references).foldlM (r.absorb importer) ∅

/-- Why a file is taken to import nothing. -/
inductive LoadError where
  | unreadable (file : RealPath) (error : OsError)
  | refused (error : Python.SyntaxError)
deriving DecidableEq, Repr

/-- The reason in words. -/
def LoadError.message : LoadError → String
  | .unreadable file error => s!"failed to read {file.text}: {error.message}"
  | .refused error => error.message

/-- The import statements of a file. -/
def scan (r : Resolver) (file : FileRef) : Except LoadError (List ImportStatement) :=
  match r.site.readText (RealPath.toPath file.abs) with
  | .error e => .error (.unreadable file.abs e)
  | .ok text =>
      match Python.importsOf text with
      | .error e => .error (.refused e)
      | .ok statements => .ok statements

/-- The vertex for a file with what it imports; a file that cannot be read imports nothing. -/
def load (r : Resolver) (file : FileRef) : Logged SourceFile := do
  match r.scan file with
  | .ok statements => return ⟨file, ← r.resolveStatements file statements, true⟩
  | .error e =>
      .write .info s!"Couldn't parse {file.shortest}: {e.message}"
      return ⟨file, ∅, true⟩

/-- The vertex for a file, if it is a source file: with what it imports if `analyze` holds. -/
def vertex? (r : Resolver) (analyze : Bool) (file : FileRef) : Logged (Option SourceFile) := do
  if !r.site.isFile (RealPath.toPath file.abs) then return none
  match RealPath.kind file.abs with
  | .source => if analyze then return some (← r.load file) else return some (.external file)
  | .compiled => return none
  | .other =>
      .write .debug s!"Unrecognized file type: {file.shortest}"
      return none

end Resolver

end ImportAtlas
