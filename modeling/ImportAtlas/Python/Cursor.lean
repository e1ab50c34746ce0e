/-!
# Places in a source text

A cursor is a place in a Python source: the characters that remain, the row and column of the first
of them, and what the layout rules remember of the lines above.

Main definitions:

* `ImportAtlas.Python.Position` — a row and a column, both counted from zero, the column in bytes;
* `ImportAtlas.Python.Cursor` — a place in the source;
* `ImportAtlas.Python.Cursor.skip` — the place some characters further on;
* `ImportAtlas.Python.Cursor.textTo` — the text between two places.
-/

set_option autoImplicit false

namespace ImportAtlas.Python

/-- A row and a column, counted from zero; the column counts the bytes of the row before it. -/
structure Position where
  row : Nat
  column : Nat
deriving DecidableEq, Repr, Inhabited

/-- The position after the character `c` at `p`. -/
def Position.next (p : Position) (c : Char) : Position :=
  if c = '\n' then ⟨p.row + 1, 0⟩ else ⟨p.row, p.column + c.utf8Size⟩

/-- A place in a source. -/
structure Cursor where
  /-- The characters that remain. -/
  rest : List Char
  /-- Their number. -/
  left : Nat
  /-- The position of the first of them. -/
  pos : Position
  /-- The widths of the indented blocks that are open, innermost first. -/
  indents : List Nat
  /-- Whether the innermost string that is open is a format string. -/
  inFormat : Bool
deriving DecidableEq, Repr

namespace Cursor

/-- The beginning of a source. -/
def ofChars (source : List Char) : Cursor :=
  { rest := source, left := source.length, pos := ⟨0, 0⟩, indents := [0], inFormat := false }

/-- The place one character further on. -/
def step (c : Cursor) : Cursor :=
  match c.rest with
  | [] => c
  | ch :: rest => { c with rest := rest, left := c.left - 1, pos := c.pos.next ch }

/-- The place `n` characters further on. -/
def skip : Nat → Cursor → Cursor
  | 0, c => c
  | n + 1, c => skip n c.step

/-- The place after the longest run of characters in `p`. -/
def skipWhile (p : Char → Bool) (c : Cursor) : Cursor :=
  c.skip (c.rest.takeWhile p).length

/-- The width of the innermost open block. -/
def indent (c : Cursor) : Nat := c.indents.headD 0

/-- The text between a place and a later one. -/
def textTo (c d : Cursor) : String :=
  String.ofList (c.rest.take (c.left - d.left))

@[simp] theorem skip_zero (c : Cursor) : c.skip 0 = c := rfl

@[simp] theorem step_indents (c : Cursor) : c.step.indents = c.indents := by
  unfold step; split <;> rfl

@[simp] theorem step_inFormat (c : Cursor) : c.step.inFormat = c.inFormat := by
  unfold step; split <;> rfl

@[simp] theorem skip_indents (n : Nat) (c : Cursor) : (c.skip n).indents = c.indents := by
  induction n generalizing c with
  | zero => rfl
  | succ n ih => simp [skip, ih]

theorem step_rest (c : Cursor) : c.step.rest = c.rest.tail := by
  unfold step; split <;> simp_all

end Cursor

end ImportAtlas.Python
