import ImportAtlas.Graph.Basic

/-!
# Graphs kept as tables

A graph can be kept as a table, in which each vertex has a position. Edges join positions, and an index
tells at which position the vertex for a place is. A vertex keeps its position until it is removed.
Then its edges are dropped, and the position may be given to a new vertex. Which one a new vertex gets
is up to whoever adds it; it only has to be free.

Main definitions:

* `ImportAtlas.Graph.Table` — vertices at positions, edges between them, and the index;
* `ImportAtlas.Graph.Table.add`, `ImportAtlas.Graph.Table.remove`, `ImportAtlas.Graph.Table.link` — the
  changes;
* `ImportAtlas.Graph.Table.takeOut`, `ImportAtlas.Graph.Table.putIn` — removing and adding, with the
  vertex that was there before;
* `ImportAtlas.Graph.Table.find?`, `ImportAtlas.Graph.Table.outgoing`,
  `ImportAtlas.Graph.Table.dependencies` and others — the questions.
-/

set_option autoImplicit false

namespace ImportAtlas

/-- Files are ordered by their references. -/
instance : Ord SourceFile := ⟨compareOn SourceFile.path⟩

namespace Graph

/-- Vertices at positions, edges between positions, and an index of the positions by places. -/
structure Table where
  vertices : List (Nat × SourceFile) := []
  edges : List (Nat × Nat) := []
  index : List (RealPath × Nat) := []
deriving DecidableEq, Repr, Inhabited

namespace Table

/-! ### Vertices -/

/-- The vertex at a position. -/
def vertex? (t : Table) (i : Nat) : Option SourceFile := t.vertices.lookup i

/-- The position that the index gives for a place. -/
def position? (t : Table) (p : RealPath) : Option Nat := t.index.lookup p

/-- The vertex for a place. -/
def find? (t : Table) (p : RealPath) : Option SourceFile := (t.position? p).bind t.vertex?

/-- Whether the index has a place. -/
def contains (t : Table) (p : RealPath) : Bool := (t.position? p).isSome

/-- The vertices without their positions. -/
def files (t : Table) : List SourceFile := t.vertices.map Prod.snd

/-- The number of vertices. -/
def fileCount (t : Table) : Nat := t.vertices.length

/-- The number of edges. -/
def edgeCount (t : Table) : Nat := t.edges.length

/-- The table without the vertex for a place and the edges that touch it. -/
def remove (t : Table) (p : RealPath) : Table :=
  match t.position? p with
  | none => t
  | some i =>
      { vertices := t.vertices.filter (·.1 ≠ i)
        edges := t.edges.filter fun e => e.1 ≠ i ∧ e.2 ≠ i
        index := t.index.filter (·.1 ≠ p) }

/-- The table with a file at a position, in place of the vertex for its place; the file has no edges
yet. -/
def add (t : Table) (i : Nat) (f : SourceFile) : Table :=
  let t := t.remove f.path.abs
  { t with vertices := t.vertices ++ [(i, f)], index := (f.path.abs, i) :: t.index }

/-- Takes out the vertex for a place: gives it back, and the table without it. -/
def takeOut (t : Table) (p : RealPath) : Option SourceFile × Table :=
  match t.position? p with
  | none => (none, t)
  | some i => (t.vertex? i, t.remove p)

/-- Puts in a file at a position: gives back the vertex that it replaces, and the table with the file. -/
def putIn (t : Table) (i : Nat) (f : SourceFile) : Option SourceFile × Table :=
  let (previous, rest) := t.takeOut f.path.abs
  (previous, { rest with
    vertices := rest.vertices ++ [(i, f)], index := (f.path.abs, i) :: rest.index })

/-! ### Edges -/

/-- The edge from a position that an import asks for, if the import has a vertex and there is no such
edge yet. -/
def missingEdge? (t : Table) (i : Nat) (imported : FileRef) : Option (Nat × Nat) :=
  match t.position? imported.abs with
  | some j => if (i, j) ∈ t.edges then none else some (i, j)
  | none => none

/-- The edges that are made when the table is linked. -/
def newEdges (t : Table) : List (Nat × Nat) :=
  t.vertices.flatMap fun v => v.2.imports.toList.filterMap (t.missingEdge? v.1)

/-- The table with an edge for each import that has a vertex, and the number of new edges. -/
def link (t : Table) : Logged (Table × Nat) := do
  .write .debug s!"Linked {t.newEdges.length} import edges"
  return ({ t with edges := t.edges ++ t.newEdges }, t.newEdges.length)

/-- The edge between two positions, if both have a vertex. -/
def edge? (t : Table) (e : Nat × Nat) : Option Edge := do
  let source ← t.vertex? e.1
  let dest ← t.vertex? e.2
  return ⟨source.path, dest.path⟩

/-- The edges with the vertex for a place at one end, in order. -/
def edgesAt (t : Table) (near : Nat × Nat → Nat) (p : RealPath) : List Edge :=
  match t.position? p with
  | none => []
  | some i => Order.sort ((t.edges.filter (near · = i)).filterMap t.edge?)

/-- The edges that leave a place, in order. -/
def outgoing (t : Table) (p : RealPath) : List Edge := t.edgesAt Prod.fst p

/-- The edges that arrive at a place, in order. -/
def incoming (t : Table) (p : RealPath) : List Edge := t.edgesAt Prod.snd p

/-- The vertices at the other ends of the edges with the vertex for a place at one end, in order and
each once. -/
def neighbors (t : Table) (near far : Nat × Nat → Nat) (p : RealPath) : List SourceFile :=
  match t.position? p with
  | none => []
  | some i =>
      Order.dropRepeats
        (Order.sort ((t.edges.filter (near · = i)).filterMap fun e => t.vertex? (far e)))

/-- The vertices that the vertex for a place imports, in order. -/
def dependencies (t : Table) (p : RealPath) : List SourceFile := t.neighbors Prod.fst Prod.snd p

/-- The vertices that import the vertex for a place, in order. -/
def dependents (t : Table) (p : RealPath) : List SourceFile := t.neighbors Prod.snd Prod.fst p

/-! ### Chains of imports -/

/-- The positions with an edge to a position; one is repeated for each further edge. -/
def sourcesOf (t : Table) (i : Nat) : List Nat := (t.edges.filter (·.2 = i)).map Prod.fst

/-- Follows edges backwards from a position. -/
def searchFrom (t : Table) (i : Nat) : Search Nat := .run t.sourcesOf (t.fileCount + 1) ⟨[i], []⟩

/-- The files from which a chain of one or more edges leads to the vertex for a place, in order. -/
def transitiveDependents (t : Table) (p : RealPath) : List FileRef :=
  match t.position? p with
  | none => []
  | some i => Order.sortedSet ((t.searchFrom i).seen.filterMap fun j => (t.vertex? j).map (·.path))

end Table

end Graph

end ImportAtlas
