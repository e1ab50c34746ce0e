import ImportAtlas.Analysis

/-!
# Building the graph

The graph of some files is built by loading each of them, adding the files outside the list that
they import, if these are wanted, and linking.

Main definitions:

* `ImportAtlas.Resolver.build` — the graph of some files.
-/

set_option autoImplicit false

namespace ImportAtlas.Resolver

/-- The vertices of those files that are source files. -/
def vertices (r : Resolver) (analyze : Bool) : List FileRef → Logged (List SourceFile)
  | [] => return []
  | file :: rest => do
      let vertex ← r.vertex? analyze file
      return vertex.toList ++ (← r.vertices analyze rest)

/-- The imports of some files that are none of these files. -/
def externals (files : List SourceFile) : List FileRef :=
  Order.sortedSet
    ((files.flatMap (·.imports.toList)).filter fun i => !files.any fun f => f.path.abs = i.abs)

/-- The graph of some files; with `external`, the files that they import and that are not in the list
get vertices that are not analyzed. -/
def build (r : Resolver) (external : Bool) (files : List FileRef) : Logged Graph := do
  let loaded ← r.vertices true files
  let outside := if external then externals loaded else []
  let others ← r.vertices false outside
  let (graph, edges) ← ((loaded ++ others).foldl Graph.add {}).link
  .write .info
    s!"Built source graph: {graph.fileCount} files ({outside.length} external), {edges} edges"
  return graph

end ImportAtlas.Resolver
