import ImportAtlas.Graph.Basic

/-!
# Questions about the graph

A question names a file by a path as it is written. The path is not looked up on the disk: it names
the place that it spells out.

Main definitions:

* `ImportAtlas.Graph.Query` — the questions;
* `ImportAtlas.Graph.Answer` — their answers;
* `ImportAtlas.Graph.answer` — the answer to a question about a path.
-/

set_option autoImplicit false

namespace ImportAtlas.Graph

/-- A question about a file. -/
inductive Query where
  | find
  | contains
  | outgoing
  | incoming
  | dependencies
  | dependents
  | transitive
deriving DecidableEq, Repr

/-- The answer to a question. -/
inductive Answer where
  | vertex (file? : Option SourceFile)
  | truth (holds : Bool)
  | edges (edges : List Edge)
  | places (files : List FileRef)
  | refs (files : List FileRef)
deriving DecidableEq, Repr

/-- The answer to a question about a place. -/
def answerAt (g : Graph) (p : RealPath) : Query → Answer
  | .find => .vertex (g.find? p)
  | .contains => .truth (g.contains p)
  | .outgoing => .edges (g.outgoing p)
  | .incoming => .edges (g.incoming p)
  | .dependencies => .places (g.dependencies p)
  | .dependents => .places (g.dependents p)
  | .transitive => .refs (g.transitiveDependents p)

/-- The answer to a question about a path that names no place. -/
def noAnswer : Query → Answer
  | .find => .vertex none
  | .contains => .truth false
  | .outgoing | .incoming => .edges []
  | .dependencies | .dependents => .places []
  | .transitive => .refs []

/-- The answer to a question about a path. -/
def answer (g : Graph) (q : Query) (p : Path) : Answer :=
  match p.real? with
  | some place => g.answerAt place q
  | none => noAnswer q

/-- The graph with its vertices and edges in order. -/
def sorted (g : Graph) : List SourceFile × List (RealPath × RealPath) :=
  ((Order.sort (g.files.map (·.path))).filterMap fun r => g.find? r.abs,
    (Order.sort (g.edges.filterMap g.edge?)).map fun e => (e.source.abs, e.dest.abs))

end ImportAtlas.Graph
