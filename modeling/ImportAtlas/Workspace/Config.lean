import ImportAtlas.Disk.Edit
import ImportAtlas.Json.Reader
import ImportAtlas.Json.Writer

/-!
# The configuration of a workspace

A workspace keeps its configuration as a document in a file of its directory. Fields that are not
set are not written, and members that mean nothing here are kept and written back.

Main definitions:

* `ImportAtlas.Config` — a configuration;
* `ImportAtlas.Config.text`, `ImportAtlas.Config.parse` — a configuration as a document;
* `ImportAtlas.Config.load`, `ImportAtlas.Config.save` — the file in a directory.
-/

set_option autoImplicit false

namespace ImportAtlas

/-- The configuration of a workspace. -/
structure Config where
  /-- The root directory, seen from the directory of the workspace. -/
  rootDir : Option Path := none
  /-- Names that are passed over wherever they stand. -/
  excludeFiles : List String := []
  /-- Where modules are searched, seen from the root. -/
  pythonPath : List Path := []
  /-- The files that are open in the editor, seen from the root. -/
  openFiles : List String := []
  editorOptions : Json.Fields := []
  /-- All other members of the document. -/
  extra : Json.Fields := []
deriving DecidableEq, Repr, Inhabited

namespace Config

/-! ### Documents -/

/-- A list of texts, if there are any, as a member. -/
def textsMember (key : String) (texts : List String) : List (String × Json) :=
  if texts = [] then [] else [(key, .array (texts.map .string))]

/-- The members of the document: the fields that are set, and then all others. -/
def members (c : Config) : List (String × Json) :=
  (c.rootDir.map fun p => ("root_dir", Json.string p.text)).toList ++
    textsMember "exclude_files" c.excludeFiles ++
    textsMember "python_path" (c.pythonPath.map Path.text) ++
    textsMember "open_files" c.openFiles ++
    (if c.editorOptions = [] then [] else [("editor_options", .object c.editorOptions)]) ++
    c.extra

/-- The document of a configuration. -/
def text (c : Config) : String := Json.write (.object c.members)

/-- The fields that have been read so far. -/
structure Draft where
  rootDir : Option (Option Path) := none
  excludeFiles : Option (List String) := none
  pythonPath : Option (List Path) := none
  openFiles : Option (List String) := none
  editorOptions : Option Json.Fields := none
  extra : Json.Fields := []
deriving DecidableEq, Repr

/-- The configuration of the fields that have been read; the others have their defaults. -/
def Draft.finish (d : Draft) : Config where
  rootDir := d.rootDir.getD none
  excludeFiles := d.excludeFiles.getD []
  pythonPath := d.pythonPath.getD []
  openFiles := d.openFiles.getD []
  editorOptions := d.editorOptions.getD []
  extra := d.extra

open Json in
/-- A path or nothing. -/
def readPath? : Reader (Option Path) := do
  skipBlanks
  match ← peek with
  | some 'n' => do skip 1; readWord ['u', 'l', 'l']; return none
  | _ => return some ⟨← readText "path string"⟩

open Json in
/-- Refuses a field that was read before. The document is read on to the end of the object if that
comes next. -/
def failDuplicate {α : Type} (key : String) : Reader α := do
  skipBlanks
  if (← peek) = some '\x7d' then skip 1
  failHere (.duplicateKey key)

open Json in
/-- The value of a field that may occur once. -/
def readOnce {α : Type} (key : String) (before : Option α) (reader : Reader α) :
    Reader (Option α) := do
  if before.isSome then failDuplicate key
  else
    readColon
    return some (← reader)

open Json in
/-- A member of the document. -/
def readMember (d : Draft) (key : String) : Reader Draft := do
  match key with
  | "root_dir" => return { d with rootDir := ← readOnce key d.rootDir readPath? }
  | "exclude_files" =>
      return { d with excludeFiles := ← readOnce key d.excludeFiles (readTexts "a string") }
  | "python_path" =>
      let reader := do return (← readTexts "path string").map Path.mk
      return { d with pythonPath := ← readOnce key d.pythonPath reader }
  | "open_files" =>
      return { d with openFiles := ← readOnce key d.openFiles (readTexts "a string") }
  | "editor_options" =>
      let reader := readObject (depthLimit - 2)
      return { d with editorOptions := ← readOnce key d.editorOptions reader }
  | _ =>
      readColon
      return { d with extra := d.extra.insert key (← readValue (depthLimit - 1)) }

/-- The configuration that a document holds. -/
def parse (text : String) : Except Json.Error Config :=
  Json.parseWith (do
    let d ← Json.readTyped '\x7b' "struct WorkspaceConfig"
      (Json.withFuel fun fuel => Json.readMembers readMember fuel true {})
    return d.finish) text

/-! ### The file -/

/-- Why a configuration cannot be read. -/
inductive Failure where
  | disk (error : OsError)
  | document (error : Json.Error)
deriving DecidableEq, Repr

/-- The reason in words. -/
def Failure.message : Failure → String
  | .disk e => e.message
  | .document e => e.message

/-- What came of reading a configuration. -/
inductive Load where
  | loaded (config : Config)
  /-- There is no file, which is no failure. -/
  | missing
  | failed (failure : Failure)
deriving DecidableEq, Repr

/-- The name of the file in the directory of a workspace. -/
def fileName : Path := ⟨"config"⟩

/-- Reads the configuration in a directory. -/
def load (s : Site) (dir : Path) : Load :=
  match s.readText (dir.join fileName) with
  | .error .notFound => .missing
  | .error e => .failed (.disk e)
  | .ok text =>
      match parse text with
      | .ok config => .loaded config
      | .error e => .failed (.document e)

/-- Writes the configuration in a directory. -/
def save (s : Site) (dir : Path) (c : Config) : Except OsError Disk :=
  s.writeBytes (dir.join fileName) (Text.encode c.text)

end Config

end ImportAtlas
