import ImportAtlas.Python.Cursor

/-!
# Syntax trees

The tree of a source keeps the constructs that matter to this library under kinds of their own;
every other construct is a plain node around its parts. A node knows the position where it starts,
its text if it is a leaf, and the part that it plays in the construct around it.

Main definitions:

* `ImportAtlas.Python.Kind`, `ImportAtlas.Python.Role` — what a node is, and what it is for;
* `ImportAtlas.Python.Tree` — the syntax trees;
* `ImportAtlas.Python.Tree.preorder` — the nodes of a tree in the order of the source.
-/

set_option autoImplicit false

namespace ImportAtlas.Python

/-- The kinds of nodes. -/
inductive Kind where
  /-- `import a, b as c`. -/
  | importStatement
  /-- `from .a import b`. -/
  | importFrom
  /-- `from __future__ import a`. -/
  | importFuture
  | dottedName
  | aliasedImport
  | relativeImport
  /-- The dots of a relative import. -/
  | importDots
  | wildcardImport
  | printStatement
  /-- The target of a print statement, as in `print >>f`. -/
  | chevron
  | execStatement
  | expressionStatement
  | assignment
  | augmentedAssignment
  /-- `a := b`. -/
  | namedExpression
  /-- The opening of a string: its flags and its quote. -/
  | stringStart
  /-- Text that the grammar cannot place. -/
  | error
  /-- A token that the grammar asks for and the source lacks. -/
  | missing
  /-- Any other construct. -/
  | plain
deriving DecidableEq, Repr

/-- The part that a node plays in the construct around it. -/
inductive Role where
  /-- A name that is imported, also under an alias. -/
  | name
  /-- The module that names are imported from. -/
  | source
  /-- Any other part. -/
  | part
deriving DecidableEq, Repr

/-- A syntax tree. -/
inductive Tree where
  | node (kind : Kind) (role : Role) (start : Position) (text : String) (children : List Tree)
deriving Repr

namespace Tree

def kind : Tree → Kind
  | node kind _ _ _ _ => kind

def role : Tree → Role
  | node _ role _ _ _ => role

def start : Tree → Position
  | node _ _ start _ _ => start

def text : Tree → String
  | node _ _ _ text _ => text

def children : Tree → List Tree
  | node _ _ _ _ children => children

/-- A leaf. -/
def leaf (kind : Kind) (start : Position) (text : String) : Tree :=
  node kind .part start text []

/-- A node around some parts. -/
def inner (kind : Kind) (start : Position) (children : List Tree) : Tree :=
  node kind .part start "" children

/-- The same node with a role. -/
def withRole (role : Role) : Tree → Tree
  | node kind _ start text children => node kind role start text children

/-- The nodes of a tree in the order of the source, each before its parts. -/
def preorder : Tree → List Tree
  | node kind role start text children =>
      node kind role start text children :: below children
where
  /-- The nodes of some trees, one tree after the other. -/
  below : List Tree → List Tree
    | [] => []
    | t :: ts => preorder t ++ below ts

theorem preorder_eq (t : Tree) : t.preorder = t :: t.children.flatMap preorder := by
  have hbelow : ∀ ts : List Tree, preorder.below ts = ts.flatMap preorder := by
    intro ts
    induction ts with
    | nil => rfl
    | cons t ts ih => simp [preorder.below, ih]
  cases t with
  | node kind role start text children => simp [preorder, hbelow, Tree.children]

end Tree

end ImportAtlas.Python
