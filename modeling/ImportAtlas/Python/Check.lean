import ImportAtlas.Python.Grammar
import ImportAtlas.Python.Import

/-!
# What is accepted

A tree is accepted if it has no error and no missing node, and none of the few constructs that the
grammar takes but a Python 3 interpreter does not: a `print` statement without a target, an `exec`
statement, a string in backticks, and a named expression that is a statement or is assigned.

Main definitions:

* `ImportAtlas.Python.SyntaxError` — a line and a column, both counted from one;
* `ImportAtlas.Python.Tree.firstError?` — the first error or missing node;
* `ImportAtlas.Python.Tree.firstLegacy?` — the first construct that is no longer Python;
* `ImportAtlas.Python.Tree.check` — the verdict on a tree;
* `ImportAtlas.Python.parse` — the tree of an accepted source.
-/

set_option autoImplicit false

namespace ImportAtlas.Python

/-- Where a source is refused; lines and columns count from one. -/
structure SyntaxError where
  line : Nat
  column : Nat
deriving DecidableEq, Repr

def SyntaxError.message (e : SyntaxError) : String :=
  s!"invalid syntax at line {e.line}, column {e.column}"

/-- The error at the start of a node. -/
def SyntaxError.ofNode (t : Tree) : SyntaxError :=
  { line := t.start.row + 1, column := t.start.column + 1 }

namespace Tree

/-! ### Errors -/

/-- Whether a node itself is an error or missing. -/
def isFault (t : Tree) : Bool := t.kind = .error || t.kind = .missing

/-- Whether a node or one below it is an error or missing. -/
def hasFault (t : Tree) : Bool := t.preorder.any isFault

/-- The first error or missing node, searched for below the nodes that have one. -/
def firstError? : Tree → Option Tree
  | node kind role start text children =>
      let t := node kind role start text children
      if t.isFault then some t
      else if t.hasFault then go children
      else none
where
  /-- The first error or missing node of some trees. -/
  go : List Tree → Option Tree
    | [] => none
    | t :: ts => (firstError? t).or (go ts)

/-! ### Constructs that are no longer Python -/

/-- Whether a node under a parent of the given kind is no longer Python. -/
def isLegacy (parent : Option Kind) (t : Tree) : Bool :=
  match t.kind with
  | .printStatement => !t.children.any fun c => c.kind = .chevron
  | .execStatement => true
  | .stringStart => t.text.toList.getLast? = some '\x60'
  | .namedExpression =>
      match parent with
      | some kind =>
          kind = .expressionStatement || kind = .assignment || kind = .augmentedAssignment
      | none => false
  | _ => false

/-- Searches the trees that are still to be visited, each with the kind of its parent, for one that
is no longer Python; `fuel` bounds the number of visits. -/
def searchLegacy : Nat → List (Option Kind × Tree) → Option Tree
  | 0, _ => none
  | _ + 1, [] => none
  | fuel + 1, (parent, t) :: todo =>
      if t.isLegacy parent then some t
      else searchLegacy fuel (t.children.map (some t.kind, ·) ++ todo)

/-- The first node in the order of the source that is no longer Python. Every node is visited at
most once. -/
def firstLegacy? (t : Tree) : Option Tree := searchLegacy (t.size + 1) [(none, t)]

/-! ### The verdict -/

/-- Accepts a tree or says where it is refused: at its first error, else at its first legacy
construct. -/
def check (t : Tree) : Except SyntaxError Unit :=
  let refused := if t.hasFault then some (t.firstError?.getD t) else t.firstLegacy?
  match refused with
  | some t => .error (.ofNode t)
  | none => .ok ()

end Tree

/-- The tree of a source, if it is accepted. -/
def parse (source : String) : Except SyntaxError Tree := do
  let t := Tree.ofSource source.toList
  t.check
  return t

/-- The import statements of a source, if it is accepted. -/
def importsOf (source : String) : Except SyntaxError (List ImportStatement) := do
  return (← parse source).imports

end ImportAtlas.Python
