import ImportAtlas.Path.Basic

/-!
# Command line arguments

The arguments are options and words. The first word names a command, the others belong to it. The
options for all commands may stand before and after the name of the command; what stands after it
wins. An option may be given once on either side.

Main definitions:

* `ImportAtlas.Command` — the commands;
* `ImportAtlas.Invocation` — a command with the options for all commands;
* `ImportAtlas.Invocation.ofArguments` — what some arguments ask for;
* `ImportAtlas.Invocation.usage` — the help.
-/

set_option autoImplicit false

namespace ImportAtlas

/-- A command. -/
inductive Command where
  /-- Makes the directory of a workspace. -/
  | init (dir : Option Path)
  /-- Lists the files of a workspace that match a query. -/
  | files (query : Option String)
  /-- Reports the size of the graph. -/
  | index
  /-- Lists the files that a file imports. -/
  | deps (file : Path)
  /-- Lists the files that import a file, directly or through others. -/
  | rdeps (file : Path) (transitive : Bool)
  /-- Keeps the graph up to date until it is stopped. -/
  | watch
  /-- Shows the version. -/
  | version
deriving DecidableEq, Repr

/-- A command with the options for all commands. -/
structure Invocation where
  verbose : Bool
  workspace : Path
  command : Command
deriving DecidableEq, Repr

/-- Why arguments ask for no command. -/
inductive Refusal where
  /-- They ask for help. -/
  | help
  /-- They are not understood. -/
  | misuse
deriving DecidableEq, Repr

namespace Invocation

/-! ### Options -/

/-- The options that were given on one side of the name of a command. -/
structure Options where
  verbose : Bool := false
  workspace : Option Path := none
  transitive : Bool := false
deriving DecidableEq, Repr

/-- Sets an option that has no value and was not given before. -/
def Options.setVerbose (o : Options) : Except Refusal Options :=
  if o.verbose then .error .misuse else .ok { o with verbose := true }

/-- Sets an option that only some commands have. -/
def Options.setTransitive (allowed : Bool) (o : Options) : Except Refusal Options :=
  if o.transitive || !allowed then .error .misuse else .ok { o with transitive := true }

/-- Sets an option that has a value and was not given before. -/
def Options.setWorkspace (o : Options) (value : String) : Except Refusal Options :=
  if o.workspace.isSome || value = "" then .error .misuse
  else .ok { o with workspace := some ⟨value⟩ }

/-- Whether an argument is an option; a dash alone is a word. -/
def isOption (argument : String) : Bool :=
  match argument.toList with
  | '-' :: _ :: _ => true
  | _ => false

/-- Sets an option to the argument that follows it, and gives the arguments after that. -/
def setFromNext (o : Options) : List String → Except Refusal (Options × List String)
  | [] => .error .misuse
  | value :: rest =>
      if isOption value then .error .misuse else do return (← o.setWorkspace value, rest)

/-- Options of one letter behind one dash. The value of an option may follow its letter, with or
without an equals sign between them. -/
def readLetters (transitive : Bool) (rest : List String) :
    List Char → Options → Except Refusal (Options × List String)
  | [], o => .ok (o, rest)
  | 'v' :: letters, o => do readLetters transitive rest letters (← o.setVerbose)
  | 't' :: letters, o => do readLetters transitive rest letters (← o.setTransitive transitive)
  | 'h' :: _, _ => .error .help
  | ['w'], o => setFromNext o rest
  | 'w' :: '=' :: value, o => do return (← o.setWorkspace (String.ofList value), rest)
  | 'w' :: value, o => do return (← o.setWorkspace (String.ofList value), rest)
  | _, _ => .error .misuse

/-- An option that is a word behind two dashes. Its value may follow an equals sign. -/
def readLong (transitive : Bool) (rest : List String) (text : List Char) (o : Options) :
    Except Refusal (Options × List String) :=
  let name := String.ofList (text.takeWhile (· != '='))
  let value? := (text.dropWhile (· != '=')).tail?.map String.ofList
  match name, value? with
  | "verbose", none => do return (← o.setVerbose, rest)
  | "transitive", none => do return (← o.setTransitive transitive, rest)
  | "workspace", none => setFromNext o rest
  | "workspace", some value => do return (← o.setWorkspace value, rest)
  | "help", none => .error .help
  | _, _ => .error .misuse

/-- An option with what it takes of the arguments behind it. -/
def readOption (transitive : Bool) (argument : String) (rest : List String) (o : Options) :
    Except Refusal (Options × List String) :=
  match argument.toList with
  | '-' :: '-' :: text => readLong transitive rest text o
  | '-' :: letters => readLetters transitive rest letters o
  | _ => .error .misuse

/-- The options before the first word, that word, and the arguments behind it; `fuel` bounds the
number of arguments. -/
def readBefore : Nat → List String → Options →
    Except Refusal (Options × String × List String)
  | 0, _, _ => .error .misuse
  | _ + 1, [], _ => .error .misuse
  | fuel + 1, argument :: rest, o =>
      if argument = "--" then .error .misuse
      else if isOption argument then do
        let (o, rest) ← readOption false argument rest o
        readBefore fuel rest o
      else .ok (o, argument, rest)

/-- The options and at most `limit` words behind the name of a command. After a double dash there are
words only. -/
def readAfter (transitive : Bool) (limit : Nat) : Nat → List String → Options → List String →
    Except Refusal (Options × List String)
  | 0, _, _, _ => .error .misuse
  | _ + 1, [], o, words => .ok (o, words)
  | fuel + 1, argument :: rest, o, words =>
      if argument = "--" then
        if limit < (words ++ rest).length then .error .misuse else .ok (o, words ++ rest)
      else if isOption argument then do
        let (o, rest) ← readOption transitive argument rest o
        readAfter transitive limit fuel rest o words
      else if limit < words.length + 1 then .error .misuse
      else readAfter transitive limit fuel rest o (words ++ [argument])

/-! ### Commands -/

/-- A word that is a path, which may not be empty. -/
def pathOf (word : String) : Except Refusal Path :=
  if word = "" then .error .misuse else .ok ⟨word⟩

/-- The names of the commands. -/
def names : List String := ["init", "files", "index", "deps", "rdeps", "watch", "version"]

/-- The greatest number of words that a command takes. -/
def wordLimit (name : String) : Nat :=
  if name ∈ ["init", "files", "deps", "rdeps"] then 1 else 0

/-- The command of a name, with its words. -/
def commandOf (name : String) (transitive : Bool) : List String → Except Refusal Command
  | [] =>
      match name with
      | "init" => .ok (.init none)
      | "files" => .ok (.files none)
      | "index" => .ok .index
      | "watch" => .ok .watch
      | "version" => .ok .version
      | _ => .error .misuse
  | word :: _ =>
      match name with
      | "init" => do return .init (some (← pathOf word))
      | "files" => .ok (.files (some word))
      | "deps" => do return .deps (← pathOf word)
      | "rdeps" => do return .rdeps (← pathOf word) transitive
      | _ => .error .misuse

/-- The directory of the workspace if no other is given. -/
def defaultWorkspace : Path := ⟨".arbor"⟩

/-- Asking for help in general or about one command, if there is one of that name. -/
def helpOn : List String → Refusal
  | [] => .help
  | [name] => if name ∈ "help" :: names then .help else .misuse
  | _ => .misuse

/-- What some arguments ask for. -/
def ofArguments (arguments : List String) : Except Refusal Invocation := do
  let fuel := arguments.length + 1
  let (before, name, rest) ← readBefore fuel arguments {}
  if name = "help" then throw (helpOn rest)
  if name ∉ names then throw .misuse
  let (behind, words) ← readAfter (name = "rdeps") (wordLimit name) fuel rest {} []
  let command ← commandOf name behind.transitive words
  return {
    verbose := before.verbose || behind.verbose
    workspace := (behind.workspace <|> before.workspace).getD defaultWorkspace
    command := command }

/-- The help. -/
def usage : List String :=
  ["Python import graph for editor navigation",
   "",
   "Usage: arbor [OPTIONS] <COMMAND>",
   "",
   "Commands:",
   "  init     Create an empty workspace directory",
   "  files    List workspace files, optionally filtered by a substring",
   "  index    Build the import graph and report its size",
   "  deps     Show the files a source file imports",
   "  rdeps    Show the files that import a source file",
   "  watch    Keep the graph up to date as files change",
   "  version  Show version",
   "  help     Print this message or the help of the given subcommand(s)",
   "",
   "Options:",
   "  -v, --verbose                Enable verbose logging",
   "  -w, --workspace <WORKSPACE>  Workspace directory; the project root defaults to its parent [default: .arbor]",
   "  -h, --help                   Print help"]

end Invocation

end ImportAtlas
