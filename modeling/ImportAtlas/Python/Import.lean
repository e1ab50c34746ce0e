import ImportAtlas.Text.Blank
import ImportAtlas.Python.Tree

/-!
# Import statements of a tree

The import statements of a source, reduced to the names that they refer to, in the order of the
source and at any depth: in functions, classes and conditionals as well.

They are collected with a stack of the trees that are still to be visited. `Tree.importsBelow` says
the same by recursion on the tree.

Main definitions:

* `ImportAtlas.Python.ImportStatement` — an import statement;
* `ImportAtlas.Python.Tree.statement?` — the statement of an import node;
* `ImportAtlas.Python.Visits` — a stage of the collection, and what comes after it;
* `ImportAtlas.Python.Tree.imports` — the import statements of a tree;
* `ImportAtlas.Python.Tree.importsBelow` — the same by recursion.
-/

set_option autoImplicit false

namespace ImportAtlas.Python

open ImportAtlas.Text

/-- An import statement, reduced to the names that it refers to. -/
inductive ImportStatement where
  /-- `import a.b, c as d` names `a.b` and `c`. -/
  | modules (names : List String)
  /-- `from ..a.b import x, y as z` has level 2, the source `a.b` and the names `x` and `y`. The
  wildcard has no names. -/
  | members (level : Nat) (source : Option String) (names : List String)
deriving DecidableEq, Repr

/-- A dotted name as the source spells it, without the white space around its parts. -/
def dottedText (text : List Char) : List Char :=
  ['.'].intercalate ((text.splitOn '.').map trim)

namespace Tree

/-- The dotted name that a node spells, unless it is empty. -/
def dotted? (t : Tree) : Option String :=
  match dottedText t.text.toList with
  | [] => none
  | name => some (String.ofList name)

/-- The name that a node imports, whatever alias it is given. -/
def importedName? (t : Tree) : Option String :=
  if t.kind = .aliasedImport then
    (t.children.find? fun c => c.role = .name).bind dotted?
  else t.dotted?

/-- The names that an import node imports. -/
def importedNames (t : Tree) : List String :=
  (t.children.filter fun c => c.role = .name).filterMap importedName?

/-- The level and the module of a relative import: how many dots there are, and the name after
them. -/
def relative (t : Tree) : Nat × Option String :=
  t.children.foldl
    (fun found c =>
      match c.kind with
      | .importDots => (c.text.toList.count '.', found.2)
      | .dottedName => (found.1, c.dotted?)
      | _ => found)
    (0, none)

/-- The statement of a `from` node; there is none without a module or dots. -/
def members? (t : Tree) : Option ImportStatement :=
  match t.children.find? fun c => c.role = .source with
  | none => none
  | some source =>
      let (level, module) :=
        if source.kind = .relativeImport then source.relative else (0, source.dotted?)
      if level = 0 ∧ module = none then none
      else some (.members level module t.importedNames)

/-- The statement of an `import` node; there is none without a name. -/
def modules? (t : Tree) : Option ImportStatement :=
  match t.importedNames with
  | [] => none
  | names => some (.modules names)

/-- The statement of an import node. -/
def statement? (t : Tree) : Option ImportStatement :=
  match t.kind with
  | .importStatement => t.modules?
  | .importFrom => t.members?
  | _ => none

/-- Whether a node is an import statement, which is not searched for others. -/
def isImport (t : Tree) : Bool :=
  t.kind = .importStatement || t.kind = .importFrom

/-- The number of nodes of a tree. -/
def size (t : Tree) : Nat := t.preorder.length

end Tree

/-- A stage of the collection. -/
structure Visits where
  /-- The trees that are still to be visited: a stack with the next one on top. -/
  todo : List Tree
  /-- The statements that were found so far. -/
  found : Array ImportStatement
deriving Repr

namespace Visits

/-- Before the first visit. -/
def start (t : Tree) : Visits := ⟨[t], #[]⟩

/-- The stage after the next visit, unless nothing is left to visit. An import node gives its
statement. Of any other node the children are pushed, the last one first: the first one is then on
top. -/
def next? : Visits → Option Visits
  | ⟨[], _⟩ => none
  | ⟨t :: todo, found⟩ =>
      if t.isImport then some ⟨todo, found ++ t.statement?.toList⟩
      else some ⟨t.children.reverse.foldl (fun todo c => c :: todo) todo, found⟩

/-- The stage after a number of visits, or the last one if there are not so many. -/
def run : Nat → Visits → Visits
  | 0, v => v
  | n + 1, v =>
      match v.next? with
      | some w => run n w
      | none => v

end Visits

namespace Tree

/-- The import statements of a tree in the order of the source. Every node is visited at most
once. -/
def imports (t : Tree) : List ImportStatement := ((Visits.start t).run t.size).found.toList

/-- The import statements of a tree, by recursion. -/
def importsBelow : Tree → List ImportStatement
  | node kind role start text children =>
      let t := node kind role start text children
      if t.isImport then t.statement?.toList else go children
where
  /-- The import statements of some trees, one tree after the other. -/
  go : List Tree → List ImportStatement
    | [] => []
    | t :: ts => importsBelow t ++ go ts

end Tree

end ImportAtlas.Python
