import ImportAtlas.Python.Reader

/-!
# What the rules of the grammar hand to each other

The grammar is a set of rules, one for each `Goal`; a rule reads its construct and hands the
constructs inside to the rules of their goals, which it is given as an argument. A rule is told what
may follow its construct, since that decides how the token after it is read.

Main definitions:

* `ImportAtlas.Python.Context` — what may follow an expression;
* `ImportAtlas.Python.Shape` — what an expression could also be: a target, or a named expression;
* `ImportAtlas.Python.Piece` — what a rule gives: trees and a shape;
* `ImportAtlas.Python.Goal`, `ImportAtlas.Python.Rules` — the recursive constructs and their rules.
-/

set_option autoImplicit false

namespace ImportAtlas.Python

/-- What may follow an expression. -/
structure Context where
  /-- The end of a logical line. -/
  newline : Bool := false
  /-- A closing bracket. -/
  close : Bool := false
  /-- Whether an `if` after the expression makes it a conditional expression. -/
  conditional : Bool := true
deriving DecidableEq, Repr

/-- What can be taken after an expression. -/
def Context.after (x : Context) : Want :=
  { newline := x.newline, close := x.close }

/-- What can be taken where an expression may either start or be left out. -/
def Context.optional (x : Context) : Want :=
  { newline := x.newline, close := x.close, string := true }

/-- What can be taken where an expression must start. -/
def operand : Want := { string := true }

/-- Inside brackets. -/
def Context.bracketed : Context := { close := true }

/-- At the end of a simple statement. -/
def Context.statement : Context := { newline := true }

/-- What an expression could also be. -/
inductive Shape where
  /-- A name. -/
  | name
  /-- An attribute or a subscript. -/
  | place
  /-- A call of a name or of a place, or of such a call. -/
  | call
  /-- A name or a place after a star. -/
  | starred
  /-- Targets in brackets. -/
  | group
  /-- A named expression that no operator surrounds. -/
  | named
  /-- An element that is no expression: any other starred one, or a `yield`. -/
  | element
  /-- Nothing else. -/
  | value
deriving DecidableEq, Repr

/-- Whether an expression of this shape may be assigned to. -/
def Shape.isTarget : Shape → Bool
  | .name | .place | .starred | .group => true
  | _ => false

/-- What a rule gives: the trees that it found, in order, and the shape of the construct. -/
structure Piece where
  trees : List Tree := []
  shape : Shape := .value

/-- The trees of an expression as parts of a statement: a named expression is a part itself, any
other expression is a node around what it holds. -/
def Piece.parts (pos : Position) (p : Piece) : List Tree :=
  match p.shape, p.trees with
  | .named, trees => trees
  | _, [] => []
  | _, trees => [.inner .plain pos trees]

/-- The constructs whose rules call each other. -/
inductive Goal where
  | expression (x : Context)
  /-- Operands between `and` and `or`. -/
  | chain (x : Context)
  /-- A name, a literal or a display with the attributes, subscripts and calls after it. -/
  | simple (x : Context)
  /-- What a comprehension runs over. -/
  | iterand (x : Context)
  /-- A type; `colon` tells whether a colon and a bound may follow it. -/
  | typeForm (x : Context) (colon : Bool)
  /-- The inside of a replacement field, up to its closing brace. -/
  | replacement
  /-- A pattern of a `case` clause. -/
  | pattern (x : Context)
  /-- A key of a mapping in a `case` clause. -/
  | key
  /-- The statements of the whole source or of a block, up to its end. -/
  | statements (module : Bool)

/-- The rules of all goals. -/
abbrev Rules := Goal → Reader Piece

end ImportAtlas.Python
