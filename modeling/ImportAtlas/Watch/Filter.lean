import ImportAtlas.Path.Basic
import ImportAtlas.Text.Utf8

/-!
# Which paths matter

A change at a path matters if the path lies below a root and no name on the way to it is hidden or
excluded.

Names are tested by their bytes, which need not be a text. The filter tests the text that a name is
shown as.

Main definitions:

* `ImportAtlas.PathFilter` — a root and the excluded names;
* `ImportAtlas.PathFilter.ignoresName` — whether a name is hidden or excluded;
* `ImportAtlas.PathFilter.ignores` — whether a path does not matter.
-/

set_option autoImplicit false

namespace ImportAtlas

/-- Decides which paths matter. -/
structure PathFilter where
  root : Path
  exclude : List String := []
deriving DecidableEq, Repr

namespace PathFilter

/-- Whether a name is ignored: its text starts with a dot, or is one of the excluded ones. Bytes that
are no text are shown as one first. -/
def ignoresName (f : PathFilter) (name : List UInt8) : Bool :=
  let text := Text.decodeLossy name
  text.toList.head? = some '.' || f.exclude.contains text

/-- Whether a component of a path is a name that is ignored. -/
def skips (f : PathFilter) : Component → Bool
  | .name n => f.ignoresName (Text.encode n.text)
  | _ => false

/-- Whether a path does not matter: it does not lie below the root, or a name on the way is
ignored. -/
def ignores (f : PathFilter) (p : Path) : Bool :=
  match p.below? f.root with
  | none => true
  | some components => components.any f.skips

end PathFilter

end ImportAtlas
