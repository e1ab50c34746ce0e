import ImportAtlas.Path.Basic

/-!
# Kinds of files

Main definitions:

* `ImportAtlas.FileKind` — what a file is, judged by its extension alone.
-/

set_option autoImplicit false

namespace ImportAtlas

/-- What a file is. -/
inductive FileKind where
  /-- A Python source, which is read for its imports. -/
  | source
  /-- A compiled module, which is never read. -/
  | compiled
  | other
deriving DecidableEq, Repr

/-- The kind of files with an extension. -/
def FileKind.ofExtension? : Option String → FileKind
  | some "py" => .source
  | some "pyc" => .compiled
  | some "pyo" => .compiled
  | _ => .other

/-- The kind of the file at a path, which need not exist. -/
def Path.kind (p : Path) : FileKind := .ofExtension? p.extension?

/-- The kind of the file at a place, which need not exist. -/
def RealPath.kind (p : RealPath) : FileKind := .ofExtension? (RealPath.extension? p)

end ImportAtlas
