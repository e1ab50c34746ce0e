import ImportAtlas.FileKind
import ImportAtlas.Order
import ImportAtlas.Path.Canonical

/-!
# References to files

A reference is a canonical place together with the root of the workspace that it was made for. It is
shown by its path from the root or by its absolute path, whichever is shorter, and that text can be
cut in the middle to fit a given length.

Main definitions:

* `ImportAtlas.Path.shown` — the text that a path is shown as;
* `ImportAtlas.FileRef` — a place and a root;
* `ImportAtlas.FileRef.rel` — the path from the root;
* `ImportAtlas.FileRef.shortest` — the shorter of the two texts;
* `ImportAtlas.FileRef.abbreviate` — that text cut to a length;
* `ImportAtlas.Site.ref` — the reference for a path.
-/

set_option autoImplicit false

namespace ImportAtlas

/-- The text that a path is shown as: what is no text in its bytes is replaced. -/
@[irreducible] def Path.shown (p : Path) : String := Text.decodeLossy (Text.encode p.text)

/-- Names are ordered by their texts. -/
instance : Ord Name where
  compare m n := compare m.text n.text

theorem Name.compare_def (m n : Name) : compare m n = compare m.text n.text := rfl

/-- Only equal names are equal in the order. -/
instance : Std.LawfulEqOrd Name where
  compare_self := by simp [Name.compare_def]
  eq_of_compare := by
    intro m n h
    exact Name.ext (Std.LawfulEqOrd.eq_of_compare h)

instance : Std.TransOrd Name := inferInstanceAs (Std.TransCmp (compareOn Name.text))

/-- A place, and the root that it was made for. -/
structure FileRef where
  abs : RealPath
  root : RealPath
deriving DecidableEq, Repr

/-- References are ordered by place and then by root, name by name. -/
instance : Ord FileRef where
  compare r s := (compare r.abs s.abs).then (compare r.root s.root)

theorem FileRef.compare_def (r s : FileRef) :
    compare r s = (compare r.abs s.abs).then (compare r.root s.root) := rfl

/-- Only equal references are equal in the order. -/
instance : Std.LawfulEqOrd FileRef where
  compare_self := by simp [FileRef.compare_def]
  eq_of_compare := by
    intro r s h
    rw [FileRef.compare_def, Ordering.then_eq_eq] at h
    cases r
    cases s
    simp_all

instance : Std.TransOrd FileRef :=
  inferInstanceAs (Std.TransCmp (compareLex (compareOn FileRef.abs) (compareOn FileRef.root)))

/-- The reference for a path; a relative path is taken from the root. -/
def Site.ref (s : Site) (p root : Path) : FileRef :=
  let root := s.canonicalize root
  { abs := s.canonicalize (if p.isAbsolute then p else (RealPath.toPath root).join p)
    root := root }

namespace FileRef

/-- The number of names that two places have in common at the beginning. -/
def common : RealPath → RealPath → Nat
  | a :: as, b :: bs => if a = b then common as bs + 1 else 0
  | _, _ => 0

/-- The steps from the root to the place: up to the last common directory, and down from there. -/
def steps (r : FileRef) : List String :=
  let n := common r.abs r.root
  List.replicate (r.root.length - n) ".." ++ RealPath.texts (r.abs.drop n)

/-- The path from the root to the place; it is a dot if the two are the same. -/
def rel (r : FileRef) : String :=
  match r.steps with
  | [] => "."
  | steps => "/".intercalate steps

/-- The path from the root, as it is shown, if it has fewer characters than the absolute path, else the
absolute path. -/
def shortest (r : FileRef) : String :=
  let rel := Path.shown ⟨r.rel⟩
  let abs := (RealPath.toPath r.abs).shown
  if rel.length < abs.length then rel else abs

/-- Whether the place is the root or lies below it. -/
def inWorkspace (r : FileRef) : Bool := r.root.isPrefixOf r.abs

/-- The last name of the place; the top directory has the empty name. -/
def baseName (r : FileRef) : String := Path.shown ⟨(r.abs.getLast?.map Name.text).getD ""⟩

/-- The least length that a text is cut to. -/
def leastLength : Nat := 16

/-- The shortest text, cut in the middle if it is longer than `length`. Two thirds of the length are
left for the end, and the rest, less the two dots that mark the cut, for the beginning. With
`wholeName` the end holds at least the whole last name, even if the text gets longer than asked. -/
def abbreviate (r : FileRef) (length : Nat) (wholeName : Bool) : String :=
  let length := max length leastLength
  let chars := r.shortest.toList
  if chars.length ≤ length then r.shortest
  else
    let nameLength := ((Path.fileName? ⟨r.shortest⟩).getD "").length
    let ending := length * 2 / 3
    let ending := if wholeName then max ending nameLength else ending
    let ending := min ending chars.length
    let beginning := length - (ending + 2)
    String.ofList (chars.take beginning ++ ['.', '.'] ++ chars.drop (chars.length - ending))

end FileRef

end ImportAtlas
