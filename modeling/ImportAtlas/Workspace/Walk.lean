import ImportAtlas.FileRef
import ImportAtlas.Log
import ImportAtlas.Text.Utf8

/-!
# The files below a root

The files and directories of a workspace are found by a walk from its root downwards. The walk passes
over hidden and excluded names with all below them. It does not go through links: a link is listed as
the place that it leads to. Directories are read by their paths from the root, so one whose path is
too long for the system is listed and reported, and nothing below it is found.

Main definitions:

* `ImportAtlas.passesOver` — the names that the walk passes over;
* `ImportAtlas.Disk.namesBelow` — the ways from a directory to all that the walk finds below it;
* `ImportAtlas.Site.walk` — the references for what the walk finds.
-/

set_option autoImplicit false

namespace ImportAtlas

/-- Whether the walk passes over a name: it starts with a dot, or it is a text that is excluded. A name
that is no text is never excluded. -/
def passesOver (exclude : List String) (name : List UInt8) : Bool :=
  name.head? = some 0x2e || (Text.decode? name).any (exclude.contains ·)

/-- The ways from a directory to all entries below it, name by name, without those names that are
passed over. Only directories that can be read are entered: `reads` tells which, by the ways to them.
The length of the ways is bounded by `depth`. -/
def Disk.namesBelow (d : Disk) (skip : Name → Bool) :
    Nat → (reads : List Name → Bool) → RealPath → List (List Name)
  | 0, _, _ => []
  | depth + 1, reads, dir =>
      (d.children dir).flatMap fun (name, entry) =>
        if skip name then []
        else if entry = .directory ∧ reads [name] then
          [name] :: (d.namesBelow skip depth (fun way => reads (name :: way)) (dir ++ [name])).map
            (name :: ·)
        else [[name]]

namespace Site

/-- Reports that an entry below a root cannot be read. -/
def reportUnread (root entry : RealPath) (e : OsError) : Logged Unit :=
  .write .warn
    s!"Failed to read entry under {root.text}: {entry.text}: IO error for operation on {entry.text}: {e.message}"

/-- Reports those ways down from a directory, to which a root leads, that end at a directory that
cannot be read. -/
def reportUnreadBelow (s : Site) (root dir : RealPath) : List (List Name) → Logged Unit
  | [] => pure ()
  | way :: rest => do
      match s.disk.entry? (dir ++ way), s.find (RealPath.toPath (root ++ way)) with
      | some .directory, .error e => reportUnread root (root ++ way) e
      | _, _ => pure ()
      s.reportUnreadBelow root dir rest

/-- The references for all that is found below a root. A root that leads nowhere is reported. -/
def walk (s : Site) (exclude : List String) (root : RealPath) : Logged (List FileRef) := do
  match s.find (RealPath.toPath root) with
  | .error e =>
      reportUnread root root e
      return []
  | .ok (dir, .directory) =>
      let ways := s.disk.namesBelow (fun name => passesOver exclude (Text.encode name.text))
        (s.disk.entries.length + 1) (fun way => s.isDirectory (RealPath.toPath (root ++ way))) dir
      s.reportUnreadBelow root dir ways
      return Order.sortedSet
        (ways.map fun way => s.ref (RealPath.toPath (root ++ way)) (RealPath.toPath root))
  | .ok _ => return []

end Site

end ImportAtlas
