/-!
# Paths as they are written

A path is kept as the text that was written, since that text is what is shown and what other paths
are joined to. What it means is given by its components: repeated separators, a separator at the
end and dots between names have no meaning, while a dot at the beginning of a relative path and
every double dot are components of their own.

Main definitions:

* `ImportAtlas.Path` — a path as it is written;
* `ImportAtlas.Name` — a text that can be the name of an entry in a directory;
* `ImportAtlas.Path.components` — its components;
* `ImportAtlas.Path.join`, `ImportAtlas.Path.parent?`, `ImportAtlas.Path.fileName?`,
  `ImportAtlas.Path.extension?` — the usual operations on the text;
* `ImportAtlas.RealPath` — the names on the way from the top directory to a place, which is what a
  path means once links and double dots are followed;
* `ImportAtlas.RealPath.of` — the place with some names;
* `ImportAtlas.Path.real?` — the place that a path spells out name by name.
-/

set_option autoImplicit false

namespace ImportAtlas

/-- A path as it is written. -/
structure Path where
  text : String
deriving DecidableEq, Repr, Inhabited

/-- Whether a text can be the name of an entry: it can be written in a path, and it is neither the dot
nor the double dot. -/
def isName (text : String) : Bool :=
  text ≠ "" && text ≠ "." && text ≠ ".." && !text.toList.contains '/'

/-- The name of an entry in a directory. -/
@[ext] structure Name where
  text : String
  isName_text : isName text = true
deriving DecidableEq, Repr

/-- A component of a path. -/
inductive Component where
  /-- The separator at the beginning. -/
  | top
  /-- A dot at the beginning. -/
  | here
  /-- A double dot. -/
  | up
  | name (name : Name)
deriving DecidableEq, Repr

/-- The names on the way from the top directory to a place. -/
abbrev RealPath := List Name

namespace Path

/-! ### Components -/

/-- Whether a path starts at the top directory. -/
def isAbsolute (p : Path) : Bool := p.text.toList.head? = some '/'

/-- The pieces of a path between separators, some of which may be empty. -/
def pieces (p : Path) : List String :=
  (p.text.toList.splitOn '/').map String.ofList

/-- The component of a piece; an empty piece and a dot have none. -/
def ofPiece? (piece : String) : Option Component :=
  if h : isName piece = true then some (.name ⟨piece, h⟩)
  else if piece = ".." then some .up
  else none

/-- The components of a path. -/
def components (p : Path) : List Component :=
  if p.isAbsolute then .top :: p.pieces.filterMap ofPiece?
  else if p.pieces.head? = some "." then .here :: p.pieces.filterMap ofPiece?
  else p.pieces.filterMap ofPiece?

/-- Whether two paths have the same components. -/
def same (p q : Path) : Bool := p.components = q.components

/-- The components of `p` below `base`, if it lies below. -/
def below? (p base : Path) : Option (List Component) :=
  if base.components.isPrefixOf p.components then
    some (p.components.drop base.components.length)
  else none

/-- The name of a component that is one. -/
def nameOf? : Component → Option Name
  | .name n => some n
  | _ => none

/-- The place that a path spells out, if it is absolute and has no double dot. -/
def real? (p : Path) : Option RealPath :=
  match p.components with
  | .top :: rest => rest.mapM nameOf?
  | _ => none

/-! ### Operations on the text -/

/-- The path `q` seen from `p`: `q` itself if it is absolute, else both texts with one separator
between them. -/
def join (p q : Path) : Path :=
  if q.isAbsolute then q
  else if p.text = "" ∨ p.text.toList.getLast? = some '/' then ⟨p.text ++ q.text⟩
  else ⟨p.text ++ "/" ++ q.text⟩

/-- Pieces without those at the end that have no meaning. -/
def trimPieces (pieces : List String) : List String :=
  (pieces.reverse.dropWhile fun piece => piece == "" || piece == ".").reverse

/-- The text of some pieces after a head. -/
def ofPieces (head : String) (pieces : List String) : Path :=
  ⟨head ++ "/".intercalate pieces⟩

/-- The path without its last component; the top directory and the empty path have no parent. -/
def parent? (p : Path) : Option Path :=
  if p.isAbsolute then
    match trimPieces p.pieces.tail with
    | [] => none
    | body => some (ofPieces "/" (trimPieces body.dropLast))
  else if p.pieces.head? = some "." then
    match trimPieces p.pieces.tail with
    | [] => some ⟨""⟩
    | body => some (ofPieces "" ("." :: trimPieces body.dropLast))
  else
    match trimPieces p.pieces with
    | [] => none
    | body => some (ofPieces "" (trimPieces body.dropLast))

/-- The last component, if it is a name. -/
def fileName? (p : Path) : Option String :=
  match p.components.getLast? with
  | some (.name n) => some n.text
  | _ => none

end Path

/-- The part of a file name after its last dot, if something stands before that dot. -/
def extensionOf? (fileName : String) : Option String :=
  let after := (fileName.toList.reverse.takeWhile (· != '.')).reverse
  let before := fileName.toList.length - after.length - 1
  if after.length = fileName.toList.length ∨ before = 0 then none
  else some (String.ofList after)

/-- The extension of the file name of a path. -/
def Path.extension? (p : Path) : Option String := p.fileName?.bind extensionOf?

namespace RealPath

/-! ### Places -/

/-- The place with some names. -/
def of (names : List String) (h : names.all isName = true := by exact Eq.refl true) : RealPath :=
  names.pmap Name.mk (List.all_eq_true.1 h)

/-- The names of a place as texts. -/
def texts (p : RealPath) : List String := p.map Name.text

/-- The text of a place. -/
def text (p : RealPath) : String := "/" ++ "/".intercalate (texts p)

/-- A place as a path. -/
def toPath (p : RealPath) : Path := ⟨text p⟩

/-- The extension of the last name of a place. -/
def extension? (p : RealPath) : Option String := p.getLast?.bind fun n => extensionOf? n.text

end RealPath

end ImportAtlas
