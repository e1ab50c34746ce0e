import ImportAtlas.Path.Basic
import ImportAtlas.Text.Utf8

/-!
# Disks

A disk is a table of entries: files with their bytes, directories, and symbolic links with the path
that they were given. No place has two entries. An entry counts only if all the places above it are
directories, since that is how a path is followed: name by name from the top or from the current
directory, going up at each double dot and going on with the target of each link, of which at most forty
are followed.

Main definitions:

* `ImportAtlas.Entry`, `ImportAtlas.Disk` — entries and disks;
* `ImportAtlas.Disk.set`, `ImportAtlas.Disk.erase`, `ImportAtlas.Disk.ofEntries` — changing the table;
* `ImportAtlas.OsError` — why an operation on a disk fails;
* `ImportAtlas.Step`, `ImportAtlas.Path.steps` — the steps of a path;
* `ImportAtlas.Site` — a disk with a current directory;
* `ImportAtlas.Site.locate` — the place that a path leads to, and the entry there;
* `ImportAtlas.Site.realPath` — the place of an existing entry;
* `ImportAtlas.Site.readBytes`, `ImportAtlas.Site.readText` — what a file holds.
-/

set_option autoImplicit false

namespace ImportAtlas

/-- What stands at a place of a disk. -/
inductive Entry where
  | file (bytes : List UInt8)
  | directory
  | link (target : Path)
deriving DecidableEq, Repr

/-- A disk: the entries at its places. The top directory is always there. -/
structure Disk where
  entries : List (RealPath × Entry) := []
  /-- No place has two entries. -/
  nodup_places : (entries.map Prod.fst).Nodup := by decide
deriving DecidableEq, Repr, Inhabited

/-- Why an operation on a disk fails. -/
inductive OsError where
  | notFound
  | exists
  | notDirectory
  | isDirectory
  | nameTooLong
  | notEmpty
  | tooManyLinks
  /-- A path holds the character that ends a text on the system. -/
  | nulInPath
  /-- A file that was read as a text is none. -/
  | notText
deriving DecidableEq, Repr

/-- The text of an error. -/
def OsError.message : OsError → String
  | .notFound => "No such file or directory (os error 2)"
  | .exists => "File exists (os error 17)"
  | .notDirectory => "Not a directory (os error 20)"
  | .isDirectory => "Is a directory (os error 21)"
  | .nameTooLong => "File name too long (os error 36)"
  | .notEmpty => "Directory not empty (os error 39)"
  | .tooManyLinks => "Too many levels of symbolic links (os error 40)"
  | .nulInPath => "file name contained an unexpected NUL byte"
  | .notText => "stream did not contain valid UTF-8"

/-- The number of bytes that a name may have. -/
def nameLimit : Nat := 255

/-- The number of bytes that a path may have. -/
def pathLimit : Nat := 4095

/-- The number of links that are followed on the way of one path. -/
def linkLimit : Nat := 40

/-- A step on the way of a path. -/
inductive Step where
  /-- A dot, which asks for a directory. -/
  | stay
  /-- A double dot. -/
  | up
  | name (name : Name)
deriving DecidableEq, Repr

/-- The step of a piece; an empty piece is none. -/
def Step.ofPiece? (piece : String) : Option Step :=
  if h : isName piece = true then some (.name ⟨piece, h⟩)
  else if piece = ".." then some .up
  else if piece = "." then some .stay
  else none

/-- The steps of a path, which are followed one by one. A separator at the end asks for a directory, as
a dot does. -/
def Path.steps (p : Path) : List Step :=
  p.pieces.filterMap Step.ofPiece? ++ (if p.text.toList.getLast? = some '/' then [.stay] else [])

namespace Disk

/-- The entry at a place, whatever stands above it. -/
def entry? (d : Disk) (p : RealPath) : Option Entry :=
  if p = [] then some .directory else d.entries.lookup p

/-- The disk with only some of its entries. -/
def keep (d : Disk) (kept : RealPath → Bool) : Disk where
  entries := d.entries.filter fun entry => kept entry.1
  nodup_places := d.nodup_places.sublist (List.filter_sublist.map Prod.fst)

/-- The disk with an entry put at a place. -/
def set (d : Disk) (p : RealPath) (e : Entry) : Disk where
  entries := (p, e) :: (d.keep fun q => q ≠ p).entries
  nodup_places := by
    refine List.nodup_cons.2 ⟨?_, (d.keep _).nodup_places⟩
    simp [keep]

/-- The disk without the entries at a place and below it. -/
def erase (d : Disk) (p : RealPath) : Disk := d.keep fun q => !p.isPrefixOf q

/-- The disk with the entries of a list; of two entries at one place the first one counts. -/
def ofEntries (entries : List (RealPath × Entry)) : Disk :=
  entries.foldr (fun entry d => d.set entry.1 entry.2) {}

/-- The names in a directory, with their entries. -/
def children (d : Disk) (dir : RealPath) : List (Name × Entry) :=
  d.entries.filterMap fun (p, e) =>
    if p.dropLast = dir then p.getLast?.map (·, e) else none

/-! ### Following a path -/

/-- Follows steps from a directory. At a link that is to be followed, `jump` goes on with its target;
the last step is followed only if `follow` says so. Gives the place of the last step, and its entry
if there is one. -/
def descend (d : Disk) (follow : Bool)
    (jump : RealPath → List Step → Except OsError (RealPath × Option Entry)) :
    RealPath → List Step → Except OsError (RealPath × Option Entry)
  | dir, [] => .ok (dir, some .directory)
  | dir, .stay :: rest => descend d follow jump dir rest
  | dir, .up :: rest => descend d follow jump dir.dropLast rest
  | dir, .name n :: rest =>
      if nameLimit < n.text.utf8ByteSize then .error .nameTooLong
      else
        match d.entry? (dir ++ [n]) with
        | some .directory => descend d follow jump (dir ++ [n]) rest
        | some (.file bytes) =>
            if rest = [] then .ok (dir ++ [n], some (.file bytes)) else .error .notDirectory
        | some (.link target) =>
            if rest = [] ∧ follow = false then .ok (dir ++ [n], some (.link target))
            else jump (if target.isAbsolute then [] else dir) (target.steps ++ rest)
        | none => if rest = [] then .ok (dir ++ [n], none) else .error .notFound

/-- Follows steps from a directory through at most so many links. -/
def resolve (d : Disk) (follow : Bool) :
    Nat → RealPath → List Step → Except OsError (RealPath × Option Entry)
  | 0 => d.descend follow fun _ _ => .error .tooManyLinks
  | links + 1 => d.descend follow (d.resolve follow links)

end Disk

/-- A disk with a current directory, from which relative paths start. -/
structure Site where
  disk : Disk
  cwd : RealPath
deriving DecidableEq, Repr

namespace Site

/-- The place that a path leads to, and the entry there; the last step is followed, if it is a link,
only if `follow` says so. -/
def locate (s : Site) (follow : Bool) (p : Path) : Except OsError (RealPath × Option Entry) :=
  if '\x00' ∈ p.text.toList then .error .nulInPath
  else if p.text = "" then .error .notFound
  else if pathLimit < p.text.utf8ByteSize then .error .nameTooLong
  else s.disk.resolve follow linkLimit (if p.isAbsolute then [] else s.cwd) p.steps

/-- The entry that a path leads to through all links, and its place. -/
def find (s : Site) (p : Path) : Except OsError (RealPath × Entry) :=
  match s.locate true p with
  | .ok (place, some e) => .ok (place, e)
  | .ok (_, none) => .error .notFound
  | .error e => .error e

/-- The place of the entry that a path leads to. -/
def realPath (s : Site) (p : Path) : Except OsError RealPath :=
  (s.find p).map Prod.fst

/-- Whether a path leads to a file. -/
def isFile (s : Site) (p : Path) : Bool :=
  match s.find p with
  | .ok (_, .file _) => true
  | _ => false

/-- Whether a path leads to a directory. -/
def isDirectory (s : Site) (p : Path) : Bool :=
  match s.find p with
  | .ok (_, .directory) => true
  | _ => false

/-- Whether a path leads to an entry. -/
def exists? (s : Site) (p : Path) : Bool :=
  match s.find p with
  | .ok _ => true
  | .error _ => false

/-- The bytes of the file that a path leads to. -/
def readBytes (s : Site) (p : Path) : Except OsError (List UInt8) :=
  match s.find p with
  | .ok (_, .file bytes) => .ok bytes
  | .ok _ => .error .isDirectory
  | .error e => .error e

/-- The text of the file that a path leads to. -/
def readText (s : Site) (p : Path) : Except OsError String :=
  match s.readBytes p with
  | .ok bytes =>
      match Text.decode? bytes with
      | some text => .ok text
      | none => .error .notText
  | .error e => .error e

end Site

end ImportAtlas
