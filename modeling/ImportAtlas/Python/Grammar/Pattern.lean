import ImportAtlas.Python.Grammar.Literal

/-!
# Patterns of `case` clauses

Main definitions:

* `ImportAtlas.Python.plainPattern` — names, literals, sequences, mappings and classes, and
  alternatives of those;
* `ImportAtlas.Python.pattern` — the rule of patterns.
-/

set_option autoImplicit false

namespace ImportAtlas.Python

open Reader

/-- Reads patterns between commas up to the bracket `close`; the opening bracket is next. -/
def patternsUntil (rules : Rules) (close : Mark) (x : Context) : Reader (List Tree) := do
  take Context.bracketed.optional
  loop (fun trees => do
    if ← mark? close x.after then return .inr trees
    else
      let trees := trees ++ (← rules (.pattern .bracketed)).trees
      if ← mark? .comma Context.bracketed.optional then return .inl trees
      else
        mark close x.after
        return .inr trees) []

/-- Reads a dotted name whose first word has been taken; tells whether there was a dot. -/
def dottedRest (x : Context) : Reader Bool := do
  loop (fun dotted => do
    if ← mark? .dot {} then
      let _ ← ident x.after
      return .inl true
    else
      return .inr dotted) false

/-- Reads a number, which may be negative and may have an imaginary part. -/
def numberPattern (x : Context) : Reader Unit := do
  let number (w : Want) : Reader Unit := do
    if (← peek) == .number then take w else refuse
  let _ ← mark? .minus {}
  number x.after
  if (← atMark .plus) || (← atMark .minus) then
    take {}
    number x.after

/-- Reads a starred name. -/
def starPattern (x : Context) : Reader Unit := do
  take {}
  let _ ← ident x.after

/-- Reads a pattern without alternatives. Tells whether it was a single name. -/
def barePattern (rules : Rules) (x : Context) : Reader (List Tree × Bool) := do
  match ← peek with
  | .word text =>
      take x.after
      if ["_", "True", "False", "None"].contains text then
        return ([], false)
      else
        let dotted ← dottedRest x
        if ← atMark .openParen then
          return (← patternsUntil rules .closeParen x, false)
        else
          return ([], !dotted)
  | .quote _ => return (← strings rules x.after, false)
  | .number | .mark .minus => numberPattern x; return ([], false)
  | .mark .openParen => return (← patternsUntil rules .closeParen x, false)
  | .mark .openBracket => return (← patternsUntil rules .closeBracket x, false)
  | .mark .star | .mark .power => starPattern x; return ([], false)
  | .mark .openBrace =>
      take Context.bracketed.optional
      let trees ← loop (fun trees => do
        if ← mark? .closeBrace x.after then return .inr trees
        else
          let item ←
            if (← atMark .star) || (← atMark .power) then do
              starPattern .bracketed
              pure []
            else do
              let key ← rules .key
              mark .colon operand
              pure (key.trees ++ (← rules (.pattern .bracketed)).trees)
          let trees := trees ++ item
          if ← mark? .comma Context.bracketed.optional then return .inl trees
          else
            mark .closeBrace x.after
            return .inr trees) []
      return (trees, false)
  | _ => refuse

/-- Reads alternatives. Tells whether there was only one and it was a single name. -/
def plainPattern (rules : Rules) (x : Context) : Reader (List Tree × Bool) := do
  let first ← barePattern rules x
  loop (fun (trees, name) => do
    if ← mark? .bar operand then
      return .inl (trees ++ (← barePattern rules x).1, false)
    else
      return .inr (trees, name)) first

/-- The rule of the keys of a mapping, which a colon follows. -/
def patternKey (rules : Rules) : Reader Piece := do
  return { trees := (← plainPattern rules {}).1 }

/-- The rule of patterns. -/
def pattern (rules : Rules) (x : Context) : Reader Piece := do
  let (first, name) ← plainPattern rules x
  let first ←
    if name && (← atMark .assign) then do
      take operand
      pure (first ++ (← plainPattern rules x).1)
    else pure first
  loop (fun trees => do
    if ← keyword? "as" {} then
      let _ ← ident x.after
      return .inl trees
    else
      return .inr { trees := trees }) first

end ImportAtlas.Python
