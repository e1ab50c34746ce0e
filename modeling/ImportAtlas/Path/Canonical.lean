import ImportAtlas.Disk.Basic

/-!
# The canonical place of a path

Every path has a canonical place, whether it exists or not. A path that leads to an entry has the
place of that entry. For any other path the components are followed one by one: as long as what has
been followed exists, links are resolved; after the first name that does not exist, names are taken
as they are written.

Main definitions:

* `ImportAtlas.Site.absolute` — a path seen from the current directory;
* `ImportAtlas.Site.follow` — the components of a path, followed one by one;
* `ImportAtlas.Site.canonicalize` — the canonical place of a path.
-/

set_option autoImplicit false

namespace ImportAtlas

namespace Site

/-- A path seen from the current directory. -/
def absolute (s : Site) (p : Path) : Path :=
  if p.isAbsolute then p else (RealPath.toPath s.cwd).join p

/-- Follows components from a place; `onDisk` tells whether all that was followed exists. -/
def follow (s : Site) : Bool → RealPath → List Component → RealPath
  | _, place, [] => place
  | onDisk, _, .top :: rest => s.follow onDisk [] rest
  | onDisk, place, .here :: rest => s.follow onDisk place rest
  | onDisk, place, .up :: rest => s.follow onDisk place.dropLast rest
  | false, place, .name n :: rest => s.follow false (place ++ [n]) rest
  | true, place, .name n :: rest =>
      match s.realPath (RealPath.toPath (place ++ [n])) with
      | .ok real => s.follow true real rest
      | .error _ => s.follow false (place ++ [n]) rest

/-- The canonical place of a path. -/
def canonicalize (s : Site) (p : Path) : RealPath :=
  match s.realPath p with
  | .ok real => real
  | .error _ => s.follow true [] (s.absolute p).components

end Site

end ImportAtlas
