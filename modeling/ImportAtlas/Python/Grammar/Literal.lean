import ImportAtlas.Python.Grammar.Goal

/-!
# Strings

A string is read piece by piece: runs of ordinary characters, escapes, doubled braces and, in format
strings, replacement fields, up to the closing quote. A string with a single quote may not go on
after a line end, except that a line end may be the first character of a run.

Main definitions:

* `ImportAtlas.Python.Quote.scan` — the run of ordinary characters at a place, or the closing quote;
* `ImportAtlas.Python.escapeLength` — the length of an escape;
* `ImportAtlas.Python.strings` — the rule of strings, one or several in a row;
* `ImportAtlas.Python.replacement` — the rule of the inside of a replacement field.
-/

set_option autoImplicit false

namespace ImportAtlas.Python

open Reader

/-! ### Runs of characters -/

/-- What stands at a place inside a string. -/
inductive Run where
  /-- Ordinary characters, so many. -/
  | content (length : Nat)
  /-- The closing quote, perhaps after backslashes of a raw string. -/
  | close (length : Nat)
  /-- Neither: a backslash, a brace, or a line that may not end here. -/
  | other
  /-- The end of the source. -/
  | unclosed
deriving DecidableEq, Repr

/-- How many characters after a backslash belong to it in a raw string. -/
def Quote.rawLength (q : Quote) (cs : List Char) : Nat :=
  let escaped :=
    match cs with
    | c :: _ => if c = q.char ∨ c = '\\' then 1 else 0
    | [] => 0
  let ending :=
    match cs.drop escaped with
    | '\r' :: '\n' :: _ => 2
    | '\r' :: _ => 1
    | '\n' :: _ => 1
    | _ => 0
  escaped + ending

/-- The run at the head of a text. `skip` characters are passed unseen, `filled` tells whether the
run has begun, and `length` is its length so far. -/
def Quote.scan (q : Quote) : List Char → Nat → Bool → Nat → Run
  | [], _, _, _ => .unclosed
  | _ :: cs, skip + 1, filled, length => q.scan cs skip filled (length + 1)
  | c :: cs, 0, filled, length =>
      if c = '\x00' then .unclosed
      else if q.format ∧ (c = '\x7b' ∨ c = '\x7d') then
        if filled then .content length else .other
      else if c = '\\' then
        if q.raw then q.scan cs (q.rawLength cs) filled (length + 1)
        else if q.bytes ∧ (cs.head? = some 'N' ∨ cs.head? = some 'u' ∨ cs.head? = some 'U') then
          q.scan cs 2 true (length + 1)
        else if filled then .content length else .other
      else if c = q.char then
        if q.triple then
          if cs.take 2 = [q.char, q.char] then
            if filled then .content length else .close (length + 3)
          else if cs.head? = some q.char then .content (length + 2)
          else .content (length + 1)
        else if filled then .content length
        else .close (length + 1)
      else if c = '\n' ∧ filled ∧ !q.triple then .other
      else q.scan cs 0 true (length + 1)

/-! ### Escapes -/

/-- Whether a text starts with `n` hexadecimal digits. -/
def hexDigits (n : Nat) (cs : List Char) : Bool :=
  (cs.take n).length = n && (cs.take n).all isHexDigit

/-- The length of the escape that a backslash starts; a backslash that starts none stands for
itself. The argument is the text after the backslash. -/
def escapeLength : List Char → Nat
  | 'u' :: cs => if hexDigits 4 cs then 6 else 1
  | 'U' :: cs => if hexDigits 8 cs then 10 else 1
  | 'x' :: cs => if hexDigits 2 cs then 4 else 1
  | 'N' :: '\x7b' :: cs =>
      let name := cs.takeWhile (· != '\x7d')
      if name.isEmpty then 1
      else if (cs.drop name.length).isEmpty then 1
      else name.length + 4
  | '\r' :: '\n' :: _ => 3
  | '\n' :: _ => 2
  | c :: cs =>
      if c.isDigit then ((c :: cs).take 3 |>.takeWhile Char.isDigit).length + 1
      else if ['\x27', '\x22', 'a', 'b', 'f', 'r', 'n', 't', 'v', '\\'].contains c then 2
      else 1
  | [] => 1

/-! ### The rules -/

/-- Reads the replacement field whose opening brace stands before `c`; gives its trees and the
place after its closing brace. -/
def field (rules : Rules) (c : Cursor) : Reader (List Tree × Cursor) := do
  goTo operand c
  let p ← rules .replacement
  if ← atMark .closeBrace then
    return (p.trees, (← get).next)
  else refuse

/-- What to do between two runs, at a place where neither a run nor the closing quote stands. -/
def betweenRuns (rules : Rules) (trees : List Tree) (c : Cursor) :
    Reader (List Tree × Cursor) := do
  match c.rest with
  | '\\' :: rest => return (trees, c.skip (escapeLength rest))
  | _ =>
      let d := c.skipWhile Stream.isFiller
      match d.rest with
      | '#' :: _ => return (trees, d.skipWhile (· != '\n'))
      | '\x7b' :: _ =>
          let (inner, e) ← field rules d.step
          return (trees ++ inner, e)
      | rest =>
          match Stream.joinLength rest with
          | 0 => goTo {} d; refuse
          | n => return (trees, d.skip n)

/-- Reads one string, whose opening is the next token; `w` says what can be taken after it. -/
def string (rules : Rules) (w : Want) : Reader (List Tree) := do
  let s ← get
  match s.token with
  | .quote q =>
      let opening := Tree.leaf .stringStart s.start.pos (s.start.textTo s.next)
      let (trees, c) ← loop (fun (trees, c) => do
        match c.rest, q.format with
        | '\x7b' :: '\x7b' :: _, true => return .inl (trees, c.skip 2)
        | '\x7d' :: '\x7d' :: _, true => return .inl (trees, c.skip 2)
        | '\x7b' :: _, true =>
            let (inner, d) ← field rules c.step
            return .inl (trees ++ inner, d)
        | _, _ =>
            match q.scan c.rest 0 false 0 with
            | .content n => return .inl (trees, c.skip n)
            | .close n => return .inr (trees, { c.skip n with inFormat := false })
            | .unclosed => goTo {} (c.skip c.left); refuse
            | .other => return .inl (← betweenRuns rules trees c)) ([opening], s.next)
      goTo w c
      return trees
  | _ => refuse

/-- Reads a string and the strings right after it, which are one literal. -/
def strings (rules : Rules) (w : Want) : Reader (List Tree) := do
  let first ← string rules { w with string := true }
  loop (fun trees => do
    match ← peek with
    | .quote _ => return .inl (trees ++ (← string rules { w with string := true }))
    | _ => return .inr trees) first

/-- Reads the format of a replacement field from `c` on, up to its closing brace. -/
def format (rules : Rules) (c : Cursor) : Reader (List Tree) := do
  loop (fun (trees, c) => do
    let d := c.skipWhile fun ch => ch != '\x7b' && ch != '\x7d'
    match d.rest with
    | '\x7b' :: _ =>
        let (inner, e) ← field rules d.step
        return .inl (trees ++ inner, e)
    | _ => goTo {} d; return .inr trees) ([], c)

/-- Reads the mark, conversion and format that may follow the expression of a replacement field. -/
def fieldEnd (rules : Rules) : Reader (List Tree) := do
  let _ ← mark? .assign { close := true }
  let s ← get
  match s.token, s.start.rest with
  | .stray, '!' :: c :: _ =>
      if 'a' ≤ c && c ≤ 'z' then goTo { close := true } (s.start.skip 2)
  | _, _ => pure ()
  if ← atMark .colon then
    format rules (← get).next
  else
    return []

end ImportAtlas.Python
