import ImportAtlas.Python.Grammar.Literal

/-!
# Expressions

An expression is read as operands and operators. How operators group matters only for named
expressions, so a tree is kept for those and for the openings of strings, and an expression is
otherwise no more than its shape.

Main definitions:

* `ImportAtlas.Python.simple` — names, literals and displays with their attributes, subscripts and
  calls;
* `ImportAtlas.Python.primary` — those with the arithmetic operators;
* `ImportAtlas.Python.expression` — the rule of expressions;
* `ImportAtlas.Python.targets` — what is assigned to in a loop;
* `ImportAtlas.Python.typeForm` — the rule of types.
-/

set_option autoImplicit false

namespace ImportAtlas.Python

open Reader

/-! ### First tokens -/

/-- The words that continue an expression rather than start one. -/
def continuingWords : List String :=
  ["and", "or", "not", "in", "is", "if", "as", "else", "for"]

/-- The words that are values rather than names. -/
def valueWords : List String := ["True", "False", "None"]

/-- The marks that an expression may start with. -/
def startMarks : List Mark :=
  [.openParen, .openBracket, .openBrace, .plus, .minus, .tilde, .star, .ellipsis]

/-- Whether an arithmetic expression may start with this token. -/
def Token.startsPrimary : Token → Bool
  | .quote _ | .number => true
  | .word text => !continuingWords.contains text
  | .mark m => startMarks.contains m
  | _ => false

/-- Whether an expression may start with this token. -/
def Token.startsExpression : Token → Bool
  | .quote _ | .number | .word _ => true
  | .mark m => startMarks.contains m
  | _ => false

/-- Whether this token is a name at the beginning of an expression. -/
def Token.startsName : Token → Bool
  | .word text => !(["not", "lambda", "await"] ++ valueWords).contains text
  | _ => false

/-- The arithmetic operators with two operands. -/
def binaryMarks : List Mark :=
  [.plus, .minus, .star, .at, .slash, .percent, .floorSlash, .power, .bar, .amp, .caret,
    .shiftLeft, .shiftRight]

/-- The comparisons that are marks. -/
def comparisonMarks : List Mark :=
  [.less, .lessEq, .equal, .notEqual, .greaterEq, .greater, .lessGreater]

/-! ### Lists of expressions -/

/-- Expressions between commas: the parts they are as one statement, whether there is only one and
no comma, and whether all can be assigned to. -/
structure Exprs where
  parts : List Tree := []
  single : Bool := true
  targets : Bool := true

/-- Reads expressions between commas; a comma may also end them. -/
def expressions (rules : Rules) (x : Context) : Reader Exprs := do
  let pos ← here
  let first ← rules (.expression x)
  loop (fun (es : Exprs) => do
    if ← mark? .comma x.optional then
      if (← peek).startsExpression then
        let pos ← here
        let p ← rules (.expression x)
        return .inl
          { parts := es.parts ++ p.parts pos, single := false,
            targets := es.targets && p.shape.isTarget }
      else
        return .inr { es with single := false }
    else
      return .inr es) { parts := first.parts pos, targets := first.shape.isTarget }

/-- Reads a `yield` expression. -/
def yielding (rules : Rules) (x : Context) : Reader (List Tree) := do
  keyword "yield" x.optional
  if ← keyword? "from" operand then
    let pos ← here
    return [.inner .plain pos (← rules (.expression x)).trees]
  else if (← peek).startsExpression then
    let pos ← here
    let es ← expressions rules x
    return [.inner .plain pos es.parts]
  else
    return []

/-- The rule of the inside of a replacement field. -/
def replacement (rules : Rules) : Reader Piece := do
  let pos ← here
  let trees ←
    if ← atWord "yield" then yielding rules .bracketed
    else
      let es ← expressions rules .bracketed
      pure [Tree.inner .plain pos es.parts]
  return { trees := trees ++ (← fieldEnd rules) }

/-! ### Displays and comprehensions -/

/-- Reads an expression after a star. The star may belong to its first operand alone, which makes the
whole an expression, if that operand is a name, or a place or a call with a name or place inside. -/
def starred (rules : Rules) : Reader Piece := do
  let first ← peek
  let p ← rules (.expression .bracketed)
  match p.shape with
  | .name | .place => return { p with shape := .starred }
  | .call => return { p with shape := .value }
  | .named => return { p with shape := .element }
  | _ => return { p with shape := if first.startsName then .value else .element }

/-- Reads an element of a display: an expression, a starred expression or a `yield`. -/
def element (rules : Rules) : Reader Piece := do
  match ← peek with
  | .word "yield" => return { trees := ← yielding rules .bracketed, shape := .element }
  | .mark .star => take operand; starred rules
  | .mark .power =>
      goTo operand ((← get).start.skip 1)
      starred rules
  | _ => rules (.expression .bracketed)

/-- Whether a clause of a comprehension is next. -/
def atClause : Reader Bool := do
  return (← atWord "for") || (← atWord "async")

/-- Reads some constructs between commas after the first one, up to the bracket `close`; `x` is the
context of the bracketed whole. -/
def elementsAfter (rules : Rules) (close : Mark) (x : Context) (first : Piece) : Reader Piece := do
  loop (fun (p : Piece) => do
    if ← mark? .comma Context.bracketed.optional then
      if ← mark? close x.after then return .inr p
      else
        let q ← element rules
        let shape := if p.shape = .group ∧ q.shape.isTarget then Shape.group else .value
        return .inl { trees := p.trees ++ q.trees, shape := shape }
    else
      mark close x.after
      return .inr p)
    { first with shape := if first.shape.isTarget then .group else .value }

/-! ### Names and what follows them -/

/-- Reads the dot of an attribute, which is next, and its name. -/
def member (x : Context) : Reader Unit := do
  take {}
  let _ ← ident x.after

/-- Reads what may stand after the first colon of a slice, up to the comma or bracket. -/
def sliceEnd (rules : Rules) : Reader (List Tree) := do
  let part : Reader (List Tree) := do
    if (← peek).startsExpression then return (← rules (.expression .bracketed)).trees
    else return []
  take Context.bracketed.optional
  let second ← part
  if ← mark? .colon Context.bracketed.optional then
    return second ++ (← part)
  else
    return second

/-- Reads a subscript or a slice. -/
def index (rules : Rules) : Reader (List Tree) := do
  let first ←
    if ← atMark .colon then pure []
    else pure (← rules (.expression .bracketed)).trees
  if ← atMark .colon then return first ++ (← sliceEnd rules) else return first

/-- Reads the subscripts between brackets; the opening bracket is next. -/
def subscripts (rules : Rules) (x : Context) : Reader (List Tree) := do
  take operand
  let first ← index rules
  loop (fun trees => do
    if ← mark? .comma Context.bracketed.optional then
      if ← mark? .closeBracket x.after then return .inr trees
      else return .inl (trees ++ (← index rules))
    else
      mark .closeBracket x.after
      return .inr trees) first

/-- Reads an argument of a call. -/
def argument (rules : Rules) : Reader Piece := do
  match ← peek with
  | .mark .star => take operand; starred rules
  | .mark .power =>
      take operand
      let p ← rules (.expression .bracketed)
      return { p with shape := .element }
  | _ =>
      let p ← rules (.expression .bracketed)
      if p.shape = .name ∧ (← atMark .assign) then
        take operand
        let q ← rules (.expression .bracketed)
        return { q with shape := .element }
      else
        return p

/-- Reads one target of a loop or a comprehension. -/
def target (rules : Rules) : Reader (List Tree) := do
  if ← mark? .star operand then
    let p ← rules (.simple {})
    if p.shape = .name ∨ p.shape = .place then return p.trees else refuse
  else
    let p ← rules (.simple {})
    if p.shape.isTarget then return p.trees else refuse

/-- Reads what a loop or a comprehension assigns to: one or several targets between commas. -/
def targets (rules : Rules) : Reader (List Tree) := do
  let first ← target rules
  loop (fun trees => do
    if ← mark? .comma operand then
      if ← atWord "in" then return .inr trees
      else return .inl (trees ++ (← target rules))
    else
      return .inr trees) first

/-- Reads the clauses of a comprehension. -/
def clauses (rules : Rules) : Reader (List Tree) := do
  let forClause : Reader (List Tree) := do
    let _ ← keyword? "async" {}
    keyword "for" operand
    let left ← targets rules
    keyword "in" operand
    let first ← rules (.iterand .bracketed)
    loop (fun trees => do
      if ← mark? .comma Context.bracketed.optional then
        if (← peek).startsExpression && !(← atClause) && !(← atWord "if") then
          return .inl (trees ++ (← rules (.iterand .bracketed)).trees)
        else
          return .inr trees
      else
        return .inr trees) (left ++ first.trees)
  let first ← forClause
  loop (fun trees => do
    if ← atClause then
      return .inl (trees ++ (← forClause))
    else if ← keyword? "if" operand then
      let p ← rules (.expression { close := true, conditional := false })
      return .inl (trees ++ p.trees)
    else
      return .inr trees) first

/-- Reads the arguments of a call or of a class; the opening bracket is next. A comprehension may
stand for the arguments of a call. -/
def arguments (rules : Rules) (call : Bool) (x : Context) :
    Reader (List Tree) := do
  take Context.bracketed.optional
  if ← mark? .closeParen x.after then return []
  if ← mark? .comma { close := true } then
    mark .closeParen x.after
    return []
  let first ← argument rules
  if call && first.shape != .element && (← atClause) then
    let rest ← clauses rules
    mark .closeParen x.after
    return first.trees ++ rest
  loop (fun trees => do
    if ← mark? .comma Context.bracketed.optional then
      if ← mark? .closeParen x.after then return .inr trees
      else return .inl (trees ++ (← argument rules).trees)
    else
      mark .closeParen x.after
      return .inr trees) first.trees

/-- Reads a tuple, a parenthesised expression, a list or a comprehension in such brackets; the
opening bracket is next. -/
def display (rules : Rules) (close : Mark) (x : Context) :
    Reader Piece := do
  take Context.bracketed.optional
  if ← mark? close x.after then return { shape := .group }
  let first ← element rules
  if first.shape != .element && (← atClause) then
    let rest ← clauses rules
    mark close x.after
    return { trees := first.trees ++ rest }
  elementsAfter rules close x first

/-- Reads a key, a colon and a value of a dictionary, or a dictionary that is spread into it. -/
def pair (rules : Rules) : Reader (List Tree) := do
  if ← mark? .power operand then
    return (← rules (.expression .bracketed)).trees
  else
    let key ← rules (.expression {})
    mark .colon operand
    return key.trees ++ (← rules (.expression .bracketed)).trees

/-- Reads the rest of a dictionary after its first pair. -/
def pairsAfter (rules : Rules) (x : Context) (first : List Tree) : Reader Piece := do
  loop (fun trees => do
    if ← mark? .comma Context.bracketed.optional then
      if ← mark? .closeBrace x.after then return .inr { trees := trees }
      else return .inl (trees ++ (← pair rules))
    else
      mark .closeBrace x.after
      return .inr { trees := trees }) first

/-- Reads a dictionary, a set or a comprehension in braces; the opening brace is next. -/
def braces (rules : Rules) (x : Context) : Reader Piece := do
  take Context.bracketed.optional
  if ← mark? .closeBrace x.after then return {}
  if ← mark? .comma { close := true } then
    mark .closeBrace x.after
    return {}
  if ← atMark .power then
    pairsAfter rules x (← pair rules)
  else
    let first ← element rules
    let isExpression := first.shape != .element
    if isExpression && (← atMark .colon) then
      take operand
      let value ← rules (.expression .bracketed)
      let trees := first.trees ++ value.trees
      if ← atClause then
        let rest ← clauses rules
        mark .closeBrace x.after
        return { trees := trees ++ rest }
      else
        pairsAfter rules x trees
    else if isExpression && (← atClause) then
      let rest ← clauses rules
      mark .closeBrace x.after
      return { trees := first.trees ++ rest }
    else
      let p ← elementsAfter rules .closeBrace x first
      return { p with shape := .value }

/-- Reads a name, a literal or a display. -/
def atom (rules : Rules) (x : Context) : Reader Piece := do
  match ← peek with
  | .quote _ => return { trees := ← strings rules x.after }
  | .number => take x.after; return {}
  | .word text =>
      take x.after
      return { shape := if valueWords.contains text then .value else .name }
  | .mark .ellipsis => take x.after; return {}
  | .mark .openParen => display rules .closeParen x
  | .mark .openBracket => display rules .closeBracket x
  | .mark .openBrace => braces rules x
  | _ => refuse

/-- The rule of names, literals and displays with the attributes, subscripts and calls after
them. -/
def simple (rules : Rules) (x : Context) : Reader Piece := do
  let first ← atom rules x
  loop (fun (p : Piece) => do
    match ← peek with
    | .mark .dot =>
        member x
        return .inl { p with shape := .place }
    | .mark .openBracket =>
        return .inl { trees := p.trees ++ (← subscripts rules x), shape := .place }
    | .mark .openParen =>
        let shape := if p.shape = .name ∨ p.shape = .place ∨ p.shape = .call then .call else .value
        return .inl { trees := p.trees ++ (← arguments rules true x), shape := shape }
    | _ => return .inr p) first

/-! ### Operators -/

/-- Reads an operand of an arithmetic operator: the signs before it, and the operand itself. -/
def signed (rules : Rules) (x : Context) : Reader Piece := do
  loop (fun (changed : Bool) => do
    let plain : Reader Piece := do
      let p ← rules (.simple x)
      return if changed then { p with shape := .value } else p
    match ← peek with
    | .mark .plus | .mark .minus | .mark .tilde =>
        take operand
        return .inl true
    | .mark .star =>
        take operand
        let p ← rules (.simple x)
        match p.shape with
        | .name | .place => return .inr { p with shape := if changed then .value else .starred }
        | .call => return .inr { p with shape := .value }
        | _ => refuse
    | .word "await" =>
        let s ← get
        take x.optional
        if (← peek).startsPrimary then return .inl true
        else
          set s
          return .inr (← plain)
    | _ => return .inr (← plain)) false

/-- Reads operands between arithmetic operators. -/
def primary (rules : Rules) (x : Context) : Reader Piece := do
  let first ← signed rules x
  loop (fun (p : Piece) => do
    match ← peek with
    | .mark m =>
        if binaryMarks.contains m then
          take operand
          return .inl { trees := p.trees ++ (← signed rules x).trees }
        else return .inr p
    | _ => return .inr p) first

/-- Takes a comparison operator if one is next, and tells whether it was. -/
def comparison? : Reader Bool := do
  match ← peek with
  | .mark m =>
      if comparisonMarks.contains m then
        take operand
        return true
      else return false
  | .word "in" => take operand; return true
  | .word "is" =>
      take operand
      let _ ← keyword? "not" operand
      return true
  | .word "not" =>
      take {}
      keyword "in" operand
      return true
  | _ => return false

/-- Reads arithmetic expressions between comparison operators. -/
def compared (rules : Rules) (x : Context) : Reader Piece := do
  let first ← primary rules x
  loop (fun (p : Piece) => do
    if ← comparison? then
      return .inl { trees := p.trees ++ (← primary rules x).trees }
    else
      return .inr p) first

/-- Reads a parameter list up to its closing mark, which is not taken: a colon for a lambda
expression, a bracket otherwise, where parameters may also have types. -/
def parameters (rules : Rules) (close : Mark) : Reader (List Tree) := do
  let x : Context := { close := close == .closeParen }
  let typed := close == .closeParen
  let type? : Reader (List Tree) := do
    if typed && (← atMark .colon) then
      take operand
      return (← rules (.typeForm x true)).trees
    else return []
  let default? : Reader (List Tree) := do
    if ← mark? .assign operand then
      return (← rules (.expression x)).trees
    else return []
  let spread : Reader (List Tree) := do
    let p ← rules (.simple x)
    if p.shape = .name ∨ p.shape = .place then return p.trees ++ (← type?) else refuse
  let parameter : Reader (List Tree) := do
    match ← peek with
    | .word _ =>
        take x.after
        let type ← type?
        return type ++ (← default?)
    | .mark .openParen =>
        let p ← rules (.simple x)
        if p.shape = .group then return p.trees ++ (← default?) else refuse
    | .mark .star =>
        take x.optional
        if (← atMark .comma) || (← atMark close) then return [] else spread
    | .mark .power => take operand; spread
    | .mark .slash => take x.after; return []
    | _ => refuse
  loop (fun trees => do
    if ← atMark close then return .inr trees
    else
      let trees := trees ++ (← parameter)
      if ← mark? .comma x.after then return .inl trees
      else return .inr trees) []

/-- Reads a lambda expression up to its body. -/
def lambdaHead (rules : Rules) : Reader (List Tree) := do
  keyword "lambda" {}
  let trees ← parameters rules .colon
  mark .colon operand
  return trees

/-- Reads an operand of a logical operator: a negation, a lambda expression, a named expression or a
comparison. -/
def logical (rules : Rules) (x : Context) : Reader Piece := do
  loop (fun (negated : Bool) => do
    let done (p : Piece) : Bool ⊕ Piece :=
      .inr (if negated then { p with shape := .value } else p)
    match ← peek with
    | .word "not" =>
        take operand
        return .inl true
    | .word "lambda" =>
        let head ← lambdaHead rules
        let body ← rules (.expression { x with conditional := true })
        return .inr { trees := head ++ body.trees }
    | .word text =>
        let s ← get
        take x.after
        let t ← get
        if t.token = .mark .colon ∧ t.next.rest.head? = some '=' ∧ !valueWords.contains text then
          goTo operand t.next.step
          let value ← rules (.chain x)
          return done { trees := [.inner .namedExpression s.start.pos value.trees], shape := .named }
        else
          set s
          return done (← compared rules x)
    | _ => return done (← compared rules x)) false

/-- The rule of operands between `and` and `or`. -/
def chain (rules : Rules) (x : Context) : Reader Piece := do
  let first ← logical rules x
  loop (fun (p : Piece) => do
    if (← atWord "and") || (← atWord "or") then
      take operand
      return .inl { trees := p.trees ++ (← logical rules x).trees }
    else
      return .inr p) first

/-- The rule of expressions. -/
def expression (rules : Rules) (x : Context) : Reader Piece := do
  let first ← chain rules x
  loop (fun (p : Piece) => do
    if ← keyword? "as" operand then
      return .inl { trees := p.trees ++ (← chain rules x).trees }
    else if x.conditional && (← atWord "if") then
      take operand
      let condition ← rules (.expression {})
      keyword "else" operand
      let other ← rules (.expression x)
      return .inr { trees := p.trees ++ condition.trees ++ other.trees }
    else
      return .inr p) first

/-- The rule of what a comprehension runs over: an expression that is not conditional, or a lambda
expression with such a body. -/
def iterand (rules : Rules) (x : Context) : Reader Piece := do
  if ← atWord "lambda" then
    let head ← lambdaHead rules
    let body ← rules (.iterand x)
    return { trees := head ++ body.trees }
  else
    rules (.expression { x with conditional := false })

/-! ### Types -/

/-- Reads the types between brackets; the opening bracket is next. -/
def typeParameters (rules : Rules) (x : Context) : Reader (List Tree) := do
  take operand
  let first ← rules (.typeForm .bracketed true)
  loop (fun trees => do
    if ← mark? .comma Context.bracketed.optional then
      if ← mark? .closeBracket x.after then return .inr trees
      else return .inl (trees ++ (← rules (.typeForm .bracketed true)).trees)
    else
      mark .closeBracket x.after
      return .inr trees) first.trees

/-- The words that are no names at the start of a type. -/
def typeWords : List String :=
  ["not", "lambda", "await", "print", "exec", "async", "match", "True", "False", "None"]

/-- The rule of types: an expression, where brackets after a leading name hold types, or a doubly
starred name; then members, alternatives and bounds. -/
def typeForm (rules : Rules) (x : Context) (colon : Bool) : Reader Piece := do
  let first ←
    match ← peek with
    | .mark .power => do
        take operand
        let _ ← ident x.after
        pure []
    | .word text => do
        let s ← get
        take x.after
        if (← atMark .openBracket) && !typeWords.contains text then
          typeParameters rules x
        else
          set s
          pure (← rules (.expression x)).trees
    | _ => pure (← rules (.expression x)).trees
  loop (fun trees => do
    if ← mark? .bar operand then
      return .inl (trees ++ (← rules (.typeForm x colon)).trees)
    else if ← atMark .dot then
      member x
      return .inl trees
    else if colon && (← atMark .colon) then
      take operand
      return .inl (trees ++ (← rules (.typeForm x colon)).trees)
    else
      return .inr { trees := trees }) first

end ImportAtlas.Python
