import ImportAtlas.FileRef
import ImportAtlas.Graph.Search
import ImportAtlas.Log

/-!
# The graph of imports

The graph has a vertex for each file and an edge from each importing file to each imported one. A
vertex is known by its place: two references to one place under different roots are one vertex.
Adding a file only adds the vertex; its edges are made when the graph is linked.

Main definitions:

* `ImportAtlas.SourceFile` — a vertex: a file and what it imports;
* `ImportAtlas.Graph` — the vertices and the edges between their places;
* `ImportAtlas.Graph.add`, `ImportAtlas.Graph.remove`, `ImportAtlas.Graph.link` — the changes;
* `ImportAtlas.Graph.takeOut`, `ImportAtlas.Graph.putIn` — removing and adding, with the vertex that was
  there before;
* `ImportAtlas.Graph.outgoing`, `ImportAtlas.Graph.incoming`, `ImportAtlas.Graph.dependencies`,
  `ImportAtlas.Graph.dependents`, `ImportAtlas.Graph.transitiveDependents` — the questions.
-/

set_option autoImplicit false

namespace ImportAtlas

/-- A file and what it imports. -/
structure SourceFile where
  path : FileRef
  imports : SortedSet FileRef
  /-- Whether the file was read for its imports; if not, it is there only because others import
  it. -/
  analyzed : Bool
deriving DecidableEq, Repr

/-- The vertex for a file that is never read. -/
def SourceFile.external (path : FileRef) : SourceFile := ⟨path, ∅, false⟩

/-- An edge from an importing file to an imported one. -/
structure Edge where
  source : FileRef
  dest : FileRef
deriving DecidableEq, Repr

/-- Edges are ordered by source and then by destination. -/
instance : Ord Edge where
  compare e f := (compare e.source f.source).then (compare e.dest f.dest)

theorem Edge.compare_def (e f : Edge) :
    compare e f = (compare e.source f.source).then (compare e.dest f.dest) := rfl

/-- Only equal edges are equal in the order. -/
instance : Std.LawfulEqOrd Edge where
  compare_self := by simp [Edge.compare_def]
  eq_of_compare := by
    intro e f h
    rw [Edge.compare_def, Ordering.then_eq_eq] at h
    cases e
    cases f
    simp_all

instance : Std.TransOrd Edge :=
  inferInstanceAs (Std.TransCmp (compareLex (compareOn Edge.source) (compareOn Edge.dest)))

/-- Files and the imports between them. -/
structure Graph where
  files : List SourceFile := []
  edges : List (RealPath × RealPath) := []
deriving DecidableEq, Repr, Inhabited

namespace Graph

/-! ### Vertices -/

/-- The vertex at a place. -/
def find? (g : Graph) (p : RealPath) : Option SourceFile :=
  g.files.find? (·.path.abs = p)

/-- Whether there is a vertex at a place. -/
def contains (g : Graph) (p : RealPath) : Bool := (g.find? p).isSome

/-- The number of vertices. -/
def fileCount (g : Graph) : Nat := g.files.length

/-- The number of edges. -/
def edgeCount (g : Graph) : Nat := g.edges.length

/-- The graph without the vertex at a place and the edges that touch it. -/
def remove (g : Graph) (p : RealPath) : Graph where
  files := g.files.filter (·.path.abs ≠ p)
  edges := g.edges.filter fun e => e.1 ≠ p ∧ e.2 ≠ p

/-- The graph with a file in place of what was at its place; the file has no edges yet. -/
def add (g : Graph) (f : SourceFile) : Graph :=
  let g := g.remove f.path.abs
  { g with files := g.files ++ [f] }

/-- Takes out the vertex at a place: gives it back, and the graph without it. -/
def takeOut (g : Graph) (p : RealPath) : Option SourceFile × Graph := (g.find? p, g.remove p)

/-- Puts in a file: gives back the vertex that it replaces, and the graph with the file. -/
def putIn (g : Graph) (f : SourceFile) : Option SourceFile × Graph := (g.find? f.path.abs, g.add f)

/-! ### Edges -/

/-- The edges that a file lacks: one for each of its imports that has a vertex and no edge yet. -/
def missingEdges (g : Graph) (f : SourceFile) : List (RealPath × RealPath) :=
  f.imports.toList.filterMap fun i =>
    if g.contains i.abs ∧ (f.path.abs, i.abs) ∉ g.edges then some (f.path.abs, i.abs) else none

/-- The edges that are made when the graph is linked. -/
def newEdges (g : Graph) : List (RealPath × RealPath) := g.files.flatMap g.missingEdges

/-- The graph with an edge for each import that has a vertex, and the number of new edges. -/
def link (g : Graph) : Logged (Graph × Nat) := do
  .write .debug s!"Linked {g.newEdges.length} import edges"
  return ({ g with edges := g.edges ++ g.newEdges }, g.newEdges.length)

/-- The edge between two places, if both have a vertex. -/
def edge? (g : Graph) (e : RealPath × RealPath) : Option Edge := do
  let source ← g.find? e.1
  let dest ← g.find? e.2
  return ⟨source.path, dest.path⟩

/-- The edges that leave a place, in order. -/
def outgoing (g : Graph) (p : RealPath) : List Edge :=
  Order.sort ((g.edges.filter (·.1 = p)).filterMap g.edge?)

/-- The edges that arrive at a place, in order. -/
def incoming (g : Graph) (p : RealPath) : List Edge :=
  Order.sort ((g.edges.filter (·.2 = p)).filterMap g.edge?)

/-- The files that the file at a place imports, in order. -/
def dependencies (g : Graph) (p : RealPath) : List FileRef :=
  Order.sortedSet ((g.outgoing p).map (·.dest))

/-- The files that import the file at a place, in order. -/
def dependents (g : Graph) (p : RealPath) : List FileRef :=
  Order.sortedSet ((g.incoming p).map (·.source))

/-! ### Chains of imports -/

/-- The places with an edge to a place. -/
def sourcesOf (g : Graph) (p : RealPath) : List RealPath := (g.edges.filter (·.2 = p)).map Prod.fst

/-- Follows edges backwards from a place. No place is looked at twice, apart from the one that is
asked for. -/
def searchFrom (g : Graph) (p : RealPath) : Search RealPath :=
  .run g.sourcesOf (g.fileCount + 1) ⟨[p], []⟩

/-- The files from which a chain of one or more imports leads to the file at a place, in order. -/
def transitiveDependents (g : Graph) (p : RealPath) : List FileRef :=
  Order.sortedSet ((g.searchFrom p).seen.filterMap fun q => (g.find? q).map (·.path))

/-- The graph in one line. -/
def summary (g : Graph) : String :=
  s!"SourceGraph \x7b file_count: {g.fileCount}, edge_count: {g.edgeCount} \x7d"

end Graph

end ImportAtlas
