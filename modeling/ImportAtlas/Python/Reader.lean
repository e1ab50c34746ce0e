import ImportAtlas.Python.Token
import ImportAtlas.Python.Tree

/-!
# Readers

A reader takes tokens off a stream. Each token is taken together with what the grammar can take
after it, under which the following token is read; so every token is read once, and in the light of
everything that may stand there.

Main definitions:

* `ImportAtlas.Python.Reader` — readers, which give a value or fail at a token;
* `ImportAtlas.Python.Reader.take`, `ImportAtlas.Python.Reader.mark`,
  `ImportAtlas.Python.Reader.keyword`, `ImportAtlas.Python.Reader.ident` — taking a token;
* `ImportAtlas.Python.Reader.orElse` — a second way to read the same tokens;
* `ImportAtlas.Python.Reader.loop` — repeating a step that takes at least one character.
-/

set_option autoImplicit false

namespace ImportAtlas.Python

/-- Where reading failed: the position of a token, and how many characters remain there. -/
structure Failure where
  pos : Position
  left : Nat
deriving DecidableEq, Repr

/-- Of two failures, the one further on. -/
def Failure.later (e f : Failure) : Failure :=
  if f.left < e.left then f else e

/-- A reader: it gives a value and the stream after it, or fails. -/
abbrev Reader := StateT Stream (Except Failure)

namespace Reader

/-- The token that is next. -/
def peek : Reader Token := do
  return (← get).token

/-- The position of the token that is next. -/
def here : Reader Position := do
  return (← get).start.pos

/-- Fails at the token that is next. -/
def refuse {α : Type} : Reader α := fun s => .error ⟨s.start.pos, s.start.left⟩

/-- Goes on at a place of the source, reading the token there under `w`. -/
def goTo (w : Want) (c : Cursor) : Reader Unit := set (Stream.fetch w c)

/-- Takes the next token; `w` says what can be taken after it. -/
def take (w : Want) : Reader Unit := do
  goTo w (← get).next

/-- Whether the next token is the mark `m`. -/
def atMark (m : Mark) : Reader Bool := do
  return (← peek) == .mark m

/-- Whether the next token is the word `text`. -/
def atWord (text : String) : Reader Bool := do
  return (← peek) == .word text

/-- Takes the mark `m`. -/
def mark (m : Mark) (w : Want) : Reader Unit := do
  if ← atMark m then take w else refuse

/-- Takes the mark `m` if it is next, and tells whether it was. -/
def mark? (m : Mark) (w : Want) : Reader Bool := do
  if ← atMark m then take w; return true else return false

/-- Takes the word `text`. -/
def keyword (text : String) (w : Want) : Reader Unit := do
  if ← atWord text then take w else refuse

/-- Takes the word `text` if it is next, and tells whether it was. -/
def keyword? (text : String) (w : Want) : Reader Bool := do
  if ← atWord text then take w; return true else return false

/-- Takes a word that stands for a name, and gives the place after it. -/
def ident (w : Want) : Reader Cursor := do
  match ← peek with
  | .word _ =>
      let s ← get
      take w
      return s.next
  | _ => refuse

/-- Takes the end of a logical line. -/
def newline (w : Want) : Reader Unit := do
  if (← peek) == .newline then take w else refuse

/-- Reads by `p`, or by `q` if `p` fails; if both fail, the failure is the one further on. -/
def orElse {α : Type} (p q : Reader α) : Reader α := fun s =>
  match p s with
  | .ok r => .ok r
  | .error e =>
      match q s with
      | .ok r => .ok r
      | .error f => .error (e.later f)

/-- Repeats a step until it gives a result; fails when the fuel runs out. -/
def loopWith {σ α : Type} (step : σ → Reader (σ ⊕ α)) : Nat → σ → Reader α
  | 0, _ => refuse
  | fuel + 1, x => do
      match ← step x with
      | .inl y => loopWith step fuel y
      | .inr a => return a

/-- Repeats a step until it gives a result. Each round takes at least one character or is the last
one, so the characters that remain bound the rounds. -/
def loop {σ α : Type} (step : σ → Reader (σ ⊕ α)) (x : σ) : Reader α := do
  loopWith step ((← get).start.left + 2) x

end Reader

end ImportAtlas.Python
