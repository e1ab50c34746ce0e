import ImportAtlas.Python.Grammar.Expression
import ImportAtlas.Python.Grammar.Import

/-!
# Statements

Simple statements stand between semicolons on one logical line. A compound statement has clauses,
each of which ends in a suite: simple statements on the same line, an indented block, or nothing.

A word that a statement may start with is a name everywhere else, and the words `print`, `exec`,
`type` and `match` start a statement only if what follows cannot be read as an expression, or, for
`type` and `match`, only if what follows can be read as that statement.

Main definitions:

* `ImportAtlas.Python.simpleStatement`, `ImportAtlas.Python.simpleStatements` — one simple statement,
  and a line of them;
* `ImportAtlas.Python.suite` — the end of a clause;
* `ImportAtlas.Python.statement` — any statement;
* `ImportAtlas.Python.statements` — the rule of a whole source and of a block.
-/

set_option autoImplicit false

namespace ImportAtlas.Python

open Reader

/-! ### Simple statements -/

/-- The operators of an augmented assignment. -/
def augmentedMarks : List Mark :=
  [.plusAssign, .minusAssign, .starAssign, .slashAssign, .atAssign, .floorAssign, .percentAssign,
    .powerAssign, .rightAssign, .leftAssign, .ampAssign, .caretAssign, .barAssign]

/-- Reads what is assigned, and gives the node of the assignment that `left` begins. An assignment
may itself be assigned; `fuel` bounds how many follow each other. -/
def assignments (rules : Rules) : Nat → Position → Exprs → Reader (List Tree)
  | 0, _, _ => refuse
  | fuel + 1, pos, left => do
      let right : Reader (List Tree) := do
        take operand
        let start ← here
        if ← atWord "yield" then
          return [.inner .plain start (← yielding rules .statement)]
        else
          let es ← expressions rules .statement
          let parts := if es.single then es.parts else [.inner .plain start es.parts]
          assignments rules fuel start { es with parts := parts }
      let whole := if left.parts.isEmpty then [] else [Tree.inner .plain pos left.parts]
      match ← peek with
      | .mark .assign =>
          if left.targets then
            return [.inner .assignment pos (whole ++ (← right))]
          else refuse
      | .mark .colon =>
          if left.targets then
            take operand
            let start ← here
            let type ← rules (.typeForm .statement true)
            let type := Tree.inner .plain start type.trees
            if ← atMark .assign then
              return [.inner .assignment pos (whole ++ [type] ++ (← right))]
            else
              return [.inner .assignment pos (whole ++ [type])]
          else refuse
      | .mark m =>
          if augmentedMarks.contains m then
            if left.targets then
              return [.inner .augmentedAssignment pos (whole ++ (← right))]
            else refuse
          else return left.parts
      | _ => return left.parts

/-- Reads an expression statement or an assignment. -/
def expressionStatement (rules : Rules) : Reader Tree := do
  let pos ← here
  if ← atWord "yield" then
    return .inner .expressionStatement pos [.inner .plain pos (← yielding rules .statement)]
  else
    let es ← expressions rules .statement
    let parts ← assignments rules ((← get).start.left + 1) pos es
    return .inner .expressionStatement pos parts

/-- Reads `p` and makes sure that a simple statement may end there. -/
def complete (p : Reader Tree) : Reader Tree := do
  let t ← p
  match ← peek with
  | .newline | .mark .semicolon => return t
  | _ => refuse

/-- Reads a `print` statement, with or without a target. -/
def printStatement (rules : Rules) : Reader Tree := do
  let pos ← here
  take Context.statement.optional
  let target ←
    if ← atMark .shiftRight then do
      let start ← here
      take operand
      let file ← rules (.expression .statement)
      pure [Tree.inner .chevron start file.trees]
    else do
      let start ← here
      let first ← rules (.expression .statement)
      pure [Tree.inner .plain start first.trees]
  let parts ← loop (fun parts => do
    if ← mark? .comma Context.statement.optional then
      if (← peek).startsExpression then
        let start ← here
        let p ← rules (.expression .statement)
        return .inl (parts ++ [Tree.inner .plain start p.trees])
      else
        return .inr parts
    else
      return .inr parts) target
  return .inner .printStatement pos parts

/-- Reads a statement that starts with the word `print`. -/
def printOrExpression (rules : Rules) : Reader Tree := do
  let s ← get
  take Context.statement.optional
  let chevron ← atMark .shiftRight
  set s
  if chevron then printStatement rules
  else orElse (complete (expressionStatement rules)) (printStatement rules)

/-- Reads a statement that starts with the word `exec`: an `exec` statement if a string or a name
follows, else an expression. -/
def execOrExpression (rules : Rules) : Reader Tree := do
  let s ← get
  let pos ← here
  take Context.statement.optional
  let code ←
    match ← peek with
    | .quote _ => pure (some (← string rules Context.statement.after))
    | .word text =>
        if continuingWords.contains text then pure none
        else do
          take Context.statement.after
          pure (some [])
    | _ => pure none
  match code with
  | none => set s; expressionStatement rules
  | some trees =>
      if ← keyword? "in" operand then
        let first ← rules (.expression .statement)
        let rest ← loop (fun trees => do
          if ← mark? .comma operand then
            return .inl (trees ++ (← rules (.expression .statement)).trees)
          else
            return .inr trees) first.trees
        return .inner .execStatement pos (trees ++ [.inner .plain pos rest])
      else
        return .inner .execStatement pos trees

/-- Reads a statement that starts with the word `type`: an alias of a type if it can be read as
such, else an expression. -/
def aliasOrExpression (rules : Rules) : Reader Tree := do
  let newName : Reader Tree := do
    let pos ← here
    take Context.statement.optional
    let left ← rules (.typeForm {} true)
    mark .assign operand
    let right ← rules (.typeForm .statement true)
    return .inner .plain pos [.inner .plain pos (left.trees ++ right.trees)]
  orElse (complete newName) (expressionStatement rules)

/-- Reads the names of a `global` or `nonlocal` statement. -/
def nameList : Reader Tree := do
  let pos ← here
  take {}
  let _ ← ident Context.statement.after
  loop (fun () => do
    if ← mark? .comma {} then
      let _ ← ident Context.statement.after
      return .inl ()
    else
      return .inr ()) ()
  return .inner .plain pos []

/-- Reads an `assert` statement. -/
def assertStatement (rules : Rules) : Reader Tree := do
  let pos ← here
  take operand
  let first ← rules (.expression .statement)
  let trees ← loop (fun trees => do
    if ← mark? .comma operand then
      return .inl (trees ++ (← rules (.expression .statement)).trees)
    else
      return .inr trees) first.trees
  return .inner .plain pos [.inner .plain pos trees]

/-- Reads the expressions that a statement may have, and a `from` part where it may have one. -/
def withExpressions (rules : Rules) (cause : Bool) : Reader Tree := do
  let pos ← here
  take Context.statement.optional
  let trees ←
    if (← peek).startsExpression && !(cause && (← atWord "from")) then
      pure (← expressions rules .statement).parts
    else pure []
  let trees ←
    if cause && (← atWord "from") then do
      take operand
      pure (trees ++ (← rules (.expression .statement)).trees)
    else pure trees
  return .inner .plain pos [.inner .plain pos trees]

/-- Reads a `del` statement. -/
def deleteStatement (rules : Rules) : Reader Tree := do
  let pos ← here
  take operand
  return .inner .plain pos [.inner .plain pos (← expressions rules .statement).parts]

/-- Reads a simple statement. -/
def simpleStatement (rules : Rules) : Reader Tree := do
  match ← peek with
  | .word "import" => importStatement
  | .word "from" => fromStatement
  | .word "print" => printOrExpression rules
  | .word "exec" => execOrExpression rules
  | .word "type" => aliasOrExpression rules
  | .word "assert" => assertStatement rules
  | .word "return" => withExpressions rules false
  | .word "raise" => withExpressions rules true
  | .word "del" => deleteStatement rules
  | .word "global" | .word "nonlocal" => nameList
  | .word "pass" | .word "break" | .word "continue" =>
      let pos ← here
      take Context.statement.after
      return .inner .plain pos []
  | _ => expressionStatement rules

/-- Reads a line of simple statements; `w` says what can be taken on the next line. -/
def simpleStatements (rules : Rules) (w : Want) : Reader (List Tree) := do
  let first ← simpleStatement rules
  loop (fun trees => do
    if ← mark? .semicolon Context.statement.optional then
      if (← peek) == .newline then
        take w
        return .inr trees
      else
        return .inl (trees ++ [← simpleStatement rules])
    else
      newline w
      return .inr trees) [first]

/-! ### Compound statements -/

/-- What can be taken inside a block, between its statements. -/
def insideBlock : Want := { dedent := true, string := true }

/-- Reads a colon and the suite after it; `w` says what can be taken after the suite. -/
def suite (rules : Rules) (w : Want) : Reader (List Tree) := do
  mark .colon { newline := true, indent := true, string := true }
  match ← peek with
  | .newline => take w; return []
  | .indent =>
      take insideBlock
      let p ← rules (.statements false)
      take w
      return p.trees
  | _ => simpleStatements rules w

/-- Reads an expression and a suite, as after `if` and `while`. -/
def conditionAndSuite (rules : Rules) (w : Want) : Reader (List Tree) := do
  take operand
  let condition ← rules (.expression {})
  return condition.trees ++ (← suite rules w)

/-- Reads the `else` clause that may be next. -/
def else? (rules : Rules) (w : Want) : Reader (List Tree) := do
  if ← keyword? "else" {} then suite rules w else return []

/-- Reads an `if` statement. -/
def ifStatement (rules : Rules) (w : Want) : Reader Tree := do
  let pos ← here
  let first ← conditionAndSuite rules w
  let trees ← loop (fun trees => do
    if ← atWord "elif" then
      return .inl (trees ++ (← conditionAndSuite rules w))
    else
      return .inr trees) first
  return .inner .plain pos (trees ++ (← else? rules w))

/-- Reads a `while` statement. -/
def whileStatement (rules : Rules) (w : Want) : Reader Tree := do
  let pos ← here
  let trees ← conditionAndSuite rules w
  return .inner .plain pos (trees ++ (← else? rules w))

/-- Reads a `for` statement; the word `for` is next. -/
def forStatement (rules : Rules) (w : Want) : Reader Tree := do
  let pos ← here
  take operand
  let left ← targets rules
  keyword "in" operand
  let right ← expressions rules {}
  let body ← suite rules w
  return .inner .plain pos (left ++ [.inner .plain pos right.parts] ++ body ++ (← else? rules w))

/-- Reads a `with` statement; the word `with` is next. -/
def withStatement (rules : Rules) (w : Want) : Reader Tree := do
  let pos ← here
  take operand
  let items ← expressions rules {}
  return .inner .plain pos (.inner .plain pos items.parts :: (← suite rules w))

/-- Reads a function definition; the word `def` is next. -/
def functionDefinition (rules : Rules) (w : Want) : Reader Tree := do
  let pos ← here
  take {}
  let _ ← ident {}
  let types ← if ← atMark .openBracket then typeParameters rules {} else pure []
  mark .openParen { close := true }
  let params ← parameters rules .closeParen
  mark .closeParen {}
  let result ←
    if ← mark? .arrow operand then pure (← rules (.typeForm {} false)).trees else pure []
  return .inner .plain pos (types ++ params ++ result ++ (← suite rules w))

/-- Reads a class definition; the word `class` is next. -/
def classDefinition (rules : Rules) (w : Want) : Reader Tree := do
  let pos ← here
  take {}
  let _ ← ident {}
  let types ← if ← atMark .openBracket then typeParameters rules {} else pure []
  let bases ← if ← atMark .openParen then arguments rules false {} else pure []
  return .inner .plain pos (types ++ bases ++ (← suite rules w))

/-- Reads a `try` statement. Its body must have a handler, or a `finally` clause, or both. -/
def tryStatement (rules : Rules) (w : Want) : Reader Tree := do
  let pos ← here
  take {}
  let body ← suite rules { handler := true }
  let after : Want := { w with handler := true }
  let finally? : Reader (List Tree) := do
    if ← keyword? "finally" {} then suite rules w else return []
  -- whether the word `except` is next, and whether a star follows it directly
  let handler? : Reader (Option Bool) := do
    let s ← get
    if s.token == .word "except" then return some (s.next.rest.head? == some '*') else return none
  let plainHandler : Reader (List Tree) := do
    take operand
    let value ←
      if ← atMark .colon then pure []
      else do
        let value ← rules (.expression {})
        if ← mark? .comma operand then
          pure (value.trees ++ (← rules (.expression {})).trees)
        else pure value.trees
    return value ++ (← suite rules after)
  let groupHandler : Reader (List Tree) := do
    goTo operand (← get).next.step
    let value ← rules (.expression {})
    return value.trees ++ (← suite rules after)
  match ← handler? with
  | none =>
      if ← atWord "finally" then
        return .inner .plain pos (body ++ (← finally?))
      else refuse
  | some star =>
      let handlers ← loop (fun trees => do
        match ← handler? with
        | some next =>
            if next = star then
              return .inl (trees ++ (← if star then groupHandler else plainHandler))
            else refuse
        | none => return .inr trees) body
      let other ← else? rules w
      return .inner .plain pos (handlers ++ other ++ (← finally?))

/-- Reads a `match` statement. -/
def matchStatement (rules : Rules) (w : Want) : Reader Tree := do
  let pos ← here
  take operand
  let subjects ← expressions rules {}
  let subjects := [Tree.inner .plain pos subjects.parts]
  let insideMatch : Want := { dedent := true }
  let caseClause : Reader (List Tree) := do
    keyword "case" operand
    let first ← rules (.pattern {})
    let patterns ← loop (fun trees => do
      if ← mark? .comma operand then
        if (← atMark .colon) || (← atWord "if") then return .inr trees
        else return .inl (trees ++ (← rules (.pattern {})).trees)
      else
        return .inr trees) first.trees
    let guard ←
      if ← keyword? "if" operand then pure (← rules (.expression {})).trees else pure []
    return patterns ++ guard ++ (← suite rules insideMatch)
  mark .colon { newline := true, indent := true }
  match ← peek with
  | .newline =>
      take w
      return .inner .plain pos subjects
  | .indent =>
      take insideMatch
      let trees ← loop (fun trees => do
        if (← peek) == .dedent then
          take w
          return .inr trees
        else
          return .inl (trees ++ (← caseClause))) subjects
      return .inner .plain pos trees
  | _ => refuse

/-- Reads the definition after decorators; the next token is the first `@`. -/
def decoratedDefinition (rules : Rules) (w : Want) : Reader Tree := do
  let pos ← here
  let decorators ← loop (fun trees => do
    if ← mark? .at operand then
      let p ← rules (.expression .statement)
      newline {}
      return .inl (trees ++ p.trees)
    else
      return .inr trees) []
  let _ ← do
    if ← atWord "async" then
      take {}
      if ← atWord "def" then pure () else refuse
  match ← peek with
  | .word "def" => return .inner .plain pos (decorators ++ [← functionDefinition rules w])
  | .word "class" => return .inner .plain pos (decorators ++ [← classDefinition rules w])
  | _ => refuse

/-- Reads a statement that starts with the word `async`. -/
def asyncOrSimple (rules : Rules) (w : Want) : Reader (List Tree) := do
  let s ← get
  take Context.statement.after
  match ← peek with
  | .word "def" => return [← functionDefinition rules w]
  | .word "for" => return [← forStatement rules w]
  | .word "with" => return [← withStatement rules w]
  | _ => set s; simpleStatements rules w

/-- Reads a compound statement or a line of simple ones; `w` says what can be taken after it. -/
def statement (rules : Rules) (w : Want) : Reader (List Tree) := do
  match ← peek with
  | .word "if" => return [← ifStatement rules w]
  | .word "for" => return [← forStatement rules w]
  | .word "while" => return [← whileStatement rules w]
  | .word "try" => return [← tryStatement rules w]
  | .word "with" => return [← withStatement rules w]
  | .word "def" => return [← functionDefinition rules w]
  | .word "class" => return [← classDefinition rules w]
  | .word "async" => asyncOrSimple rules w
  | .word "match" =>
      orElse (do return [← matchStatement rules w]) (simpleStatements rules w)
  | .mark .at => return [← decoratedDefinition rules w]
  | _ => simpleStatements rules w

/-- The rule of the statements of a whole source or of a block, up to its end. -/
def statements (rules : Rules) (module : Bool) : Reader Piece := do
  let w : Want := { dedent := !module, string := true }
  let last : Token := if module then .finish else .dedent
  loop (fun trees => do
    if (← peek) == last then return .inr { trees := trees }
    else return .inl (trees ++ (← statement rules w))) []

end ImportAtlas.Python
