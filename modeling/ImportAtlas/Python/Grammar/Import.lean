import ImportAtlas.Python.Reader

/-!
# Import statements

Every word stands for a name in an import statement except where the statement itself asks for a
word: `import` after the module, `as` after a name, and `__future__` right after `from`.

Main definitions:

* `ImportAtlas.Python.dottedName` — names between dots;
* `ImportAtlas.Python.importNames` — what is imported, names between commas;
* `ImportAtlas.Python.importStatement`, `ImportAtlas.Python.fromStatement` — the two statements.
-/

set_option autoImplicit false

namespace ImportAtlas.Python

open Reader

/-- What can be taken after an import statement: the end of the line. -/
def importEnd : Want := { newline := true }

/-- Reads names between dots; `w` says what can be taken after a name. The text of the node is that
of the source, with all that stands between the names and the dots. -/
def dottedName (w : Want) : Reader Tree := do
  let s ← get
  let first ← ident w
  let last ← loop (fun last => do
    if ← mark? .dot {} then return .inl (← ident w) else return .inr last) first
  return .leaf .dottedName s.start.pos (s.start.textTo last)

/-- Reads a dotted name with the alias that it may have. -/
def importName (w : Want) : Reader Tree := do
  let pos ← here
  let name ← dottedName w
  if ← keyword? "as" {} then
    let _ ← ident w
    return .inner .aliasedImport pos [name.withRole .name]
  else
    return name

/-- Reads names between commas; a comma may also end them. -/
def importNames (w : Want) : Reader (List Tree) := do
  let first ← importName w
  loop (fun names => do
    if ← mark? .comma w then
      match ← peek with
      | .word _ => return .inl (names ++ [(← importName w).withRole .name])
      | _ => return .inr names
    else
      return .inr names) [first.withRole .name]

/-- Reads names between commas, which may stand in brackets. -/
def importNamesOrBracketed : Reader (List Tree) := do
  if ← mark? .openParen {} then
    let names ← importNames { close := true }
    mark .closeParen importEnd
    return names
  else
    importNames importEnd

/-- Reads an `import` statement. -/
def importStatement : Reader Tree := do
  let pos ← here
  keyword "import" {}
  return .inner .importStatement pos (← importNames importEnd)

/-- Takes the dots of a relative import, which are one node. -/
def importDots : Reader Tree := do
  let s ← get
  let last ← loop (fun last => do
    if (← atMark .dot) || (← atMark .ellipsis) then
      let t ← get
      take {}
      return .inl t.next
    else
      return .inr last) s.start
  return .leaf .importDots s.start.pos (s.start.textTo last)

/-- Reads the module of a `from` statement. -/
def importSource : Reader Tree := do
  if (← atMark .dot) || (← atMark .ellipsis) then
    let pos ← here
    let dots ← importDots
    if ← atWord "import" then
      return .inner .relativeImport pos [dots]
    else
      return .inner .relativeImport pos [dots, ← dottedName {}]
  else
    dottedName {}

/-- Reads a `from` statement. -/
def fromStatement : Reader Tree := do
  let pos ← here
  keyword "from" {}
  if ← keyword? "__future__" {} then
    keyword "import" {}
    return .inner .importFuture pos (← importNamesOrBracketed)
  else
    let source ← importSource
    let source := source.withRole .source
    keyword "import" {}
    let star ← here
    if ← mark? .star importEnd then
      return .inner .importFrom pos [source, .leaf .wildcardImport star "*"]
    else
      return .inner .importFrom pos (source :: (← importNamesOrBracketed))

end ImportAtlas.Python
