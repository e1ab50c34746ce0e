import ImportAtlas.Disk.Basic

/-!
# Changes to a disk

Writing files, making directories and links, removing and renaming. An operation gives the changed
disk or says why it fails. Making a directory with those above it may fail after some of them were
made, so it gives the disk in both cases.

Main definitions:

* `ImportAtlas.Site.writeBytes` — creates or replaces what a file holds;
* `ImportAtlas.Site.makeDirectory`, `ImportAtlas.Site.makeDirectories` — makes a directory, without
  and with the missing ones above it;
* `ImportAtlas.Site.makeLink`, `ImportAtlas.Site.remove`, `ImportAtlas.Site.rename` — the other
  changes;
* `ImportAtlas.DiskChange` — a change that somebody else makes to a disk.
-/

set_option autoImplicit false

namespace ImportAtlas

namespace Site

/-! ### Operations -/

/-- Creates or replaces what the file that a path leads to holds. Through a dangling link the file is
created where the link points. -/
def writeBytes (s : Site) (p : Path) (bytes : List UInt8) : Except OsError Disk :=
  match s.locate true p with
  | .ok (_, some .directory) => .error .isDirectory
  | .ok (place, _) => .ok (s.disk.set place (.file bytes))
  | .error e => .error e

/-- A path without the separators at its end, which do not matter when a directory is made. -/
def withoutTrailing (p : Path) : Path :=
  match (p.text.toList.reverse.dropWhile (· == '/')).reverse with
  | [] => p
  | text => ⟨String.ofList text⟩

/-- Makes a directory in an existing one. -/
def makeDirectory (s : Site) (p : Path) : Except OsError Disk :=
  match s.locate false (withoutTrailing p) with
  | .ok (_, some _) => .error .exists
  | .ok (place, none) => .ok (s.disk.set place .directory)
  | .error e => .error e

/-- Makes a directory unless it is there; gives the disk and why it failed, if it did. -/
def ensureDirectory (s : Site) (p : Path) : Disk × Option OsError :=
  match s.makeDirectory p with
  | .ok disk => (disk, none)
  | .error e => (s.disk, if s.isDirectory p then none else some e)

/-- Makes a directory and the missing ones above it; `depth` bounds the number of those. -/
def makeDirectoriesWith (s : Site) : Nat → Path → Disk × Option OsError
  | 0, _ => (s.disk, some .notFound)
  | depth + 1, p =>
      if p.text = "" then (s.disk, none)
      else
        match s.makeDirectory p, p.parent? with
        | .error .notFound, some parent =>
            match s.makeDirectoriesWith depth parent with
            | (disk, some e) => (disk, some e)
            | (disk, none) => ensureDirectory { s with disk := disk } p
        | _, _ => s.ensureDirectory p

/-- Makes a directory and the missing ones above it. -/
def makeDirectories (s : Site) (p : Path) : Disk × Option OsError :=
  s.makeDirectoriesWith (p.pieces.length + 1) p

/-- Makes a symbolic link. -/
def makeLink (s : Site) (p target : Path) : Except OsError Disk :=
  match s.locate false p with
  | .ok (_, some _) => .error .exists
  | .ok (place, none) =>
      if target.text = "" then .error .notFound else .ok (s.disk.set place (.link target))
  | .error e => .error e

/-- Removes a file, a link, or a directory with all below it. -/
def remove (s : Site) (p : Path) : Except OsError Disk :=
  match s.locate false p with
  | .ok (place, some _) => .ok (s.disk.erase place)
  | .ok (_, none) => .error .notFound
  | .error e => .error e

/-- Why an entry cannot take the place of another one. -/
def blocked? (d : Disk) (place : RealPath) : Entry → Option Entry → Option OsError
  | .directory, some .directory => if (d.children place).isEmpty then none else some .notEmpty
  | .directory, some _ => some .notDirectory
  | _, some .directory => some .isDirectory
  | _, _ => none

/-- Gives an entry and all below it a new place. -/
def rename (s : Site) (p q : Path) : Except OsError Disk := do
  let (source, entry?) ← s.locate false p
  let (target, other?) ← s.locate false q
  match entry? with
  | none => .error .notFound
  | some entry =>
      if source = target then return s.disk
      match blocked? s.disk target entry other? with
      | some e => .error e
      | none =>
          return .ofEntries <| (s.disk.erase target).entries.map fun (place, e) =>
            if source.isPrefixOf place then (target ++ place.drop source.length, e) else (place, e)

/-- The site with the disk that an operation gives, or as it was if the operation fails. -/
def after (s : Site) (result : Except OsError Disk) : Site :=
  match result with
  | .ok disk => { s with disk := disk }
  | .error _ => s

/-- The site with the directory above a path made. -/
def withParent (s : Site) (p : Path) : Site :=
  match p.parent? with
  | none => s
  | some parent => { s with disk := (s.makeDirectories parent).1 }

end Site

/-! ### Changes from outside -/

/-- A change that somebody else makes to a disk. -/
inductive DiskChange where
  /-- Writes a file, with the directories above it. -/
  | file (path : Path) (bytes : List UInt8)
  /-- Makes a directory, with those above it. -/
  | directory (path : Path)
  /-- Makes a link, with the directories above it. -/
  | link (path target : Path)
  /-- Removes what is at a path, if anything is. -/
  | remove (path : Path)
  /-- Renames, with the directories above the new path. -/
  | rename (path target : Path)
deriving DecidableEq, Repr

namespace DiskChange

/-- The site after a change; a change that fails leaves it as it was. -/
def apply (s : Site) : DiskChange → Site
  | .file p bytes =>
      let s := s.withParent p
      s.after (s.writeBytes p bytes)
  | .directory p => { s with disk := (s.makeDirectories p).1 }
  | .link p target =>
      let s := s.withParent p
      s.after (s.makeLink p target)
  | .remove p => s.after (s.remove p)
  | .rename p q =>
      let s := s.withParent q
      s.after (s.rename p q)

/-- The places at which two disks differ. -/
def differences (before later : Disk) : List RealPath :=
  let places := (before.entries ++ later.entries).map (·.1)
  places.filter fun p => before.entry? p ≠ later.entry? p

/-- The paths that a change touches on a site: those at which the disk is different afterwards, and a
file that is written, even if it holds the same as before. -/
def touched (s : Site) (c : DiskChange) : List Path :=
  let places := (differences s.disk (c.apply s).disk).map RealPath.toPath
  match c with
  | .file p _ => p :: places
  | _ => places

end DiskChange

end ImportAtlas
