import ImportAtlas.Path.Canonical

/-!
# Watched paths

A registry remembers the paths that it was asked to watch. Below them it keeps a watch on each
directory, so asking it to stop watching a directory inside a watched one succeeds too, and ends the
watches on all directories below.

Main definitions:

* `ImportAtlas.Registry` — the watched paths;
* `ImportAtlas.Registry.watch`, `ImportAtlas.Registry.unwatch`, `ImportAtlas.Registry.isWatching` —
  its operations.
-/

set_option autoImplicit false

namespace ImportAtlas

/-- A watch on a directory or a file. -/
structure Registry.Watch where
  path : Path
  /-- Whether the watches below it end with it. -/
  recursive : Bool
deriving DecidableEq, Repr

/-- The watched paths. -/
structure Registry where
  root : Path
  /-- The paths that were asked for. -/
  requested : List Path := []
  /-- The watches that are kept. -/
  watches : List Registry.Watch := []
deriving DecidableEq, Repr

/-- The directories below a directory, reached through links too. The places on the way are not
entered again; `depth` bounds the length of the way. -/
def Site.directoriesBelow (s : Site) : Nat → List RealPath → Path → List Path
  | 0, _, _ => []
  | depth + 1, seen, p =>
      match s.find p with
      | .ok (place, .directory) =>
          if place ∈ seen then []
          else
            p :: (s.disk.children place).flatMap fun (name, _) =>
              s.directoriesBelow depth (place :: seen) (p.join ⟨name.text⟩)
      | _ => []

namespace Registry

/-- The watches for a path, if it leads to anything. -/
def watchesFor? (s : Site) (p : Path) : Option (List Watch) :=
  match s.find p with
  | .ok (_, .directory) =>
      some ((s.directoriesBelow (s.disk.entries.length + 1) [] p).map fun q => ⟨q, true⟩)
  | .ok _ => some [⟨p, false⟩]
  | .error _ => none

/-- Whether a path was asked for. -/
def isWatching (r : Registry) (p : Path) : Bool := r.requested.any p.same

/-- Starts to watch a path, unless it leads nowhere. -/
def watch (s : Site) (r : Registry) (p : Path) : Option Registry := do
  let new ← watchesFor? s (s.absolute p)
  let old := r.watches.filter fun w => !new.any fun n => n.path.same w.path
  let requested := if r.isWatching p then r.requested else p :: r.requested
  return { r with requested := requested, watches := new ++ old }

/-- Stops watching a path, unless there is no watch on it. -/
def unwatch (s : Site) (r : Registry) (p : Path) : Option Registry := do
  let full := s.absolute p
  let w ← r.watches.find? fun w => w.path.same full
  let ended (v : Watch) : Bool :=
    v.path.same full || (w.recursive && (v.path.below? full).isSome)
  return { r with
    requested := r.requested.filter fun q => !q.same p
    watches := r.watches.filter fun v => !ended v }

end Registry

end ImportAtlas
