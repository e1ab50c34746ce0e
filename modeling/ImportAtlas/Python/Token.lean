import ImportAtlas.Text.Blank
import ImportAtlas.Text.Identifier
import ImportAtlas.Python.Cursor

/-!
# Tokens

A Python source is read one token at a time, and what the next token is depends on what the grammar
can take there: the end of a line is a token where a statement may end and a blank elsewhere, and
the opening quote of a string is looked for only where a string may stand. `Want` says what can be
taken, and `Stream.fetch` reads the next token under it.

Layout works as follows. At the end of a line the blank lines and the comments after it are passed,
and the width of the next line is compared with that of the innermost open block. A wider line opens
a block where one may open. A narrower line closes a block where one may close, and also in the
middle of an expression, unless a closing bracket could follow; the grammar then refuses it. A
comment that belongs to the block is read before the block is closed.

Main definitions:

* `ImportAtlas.Python.Mark` — the punctuation marks;
* `ImportAtlas.Python.Quote` — the opening of a string: its quote and its flags;
* `ImportAtlas.Python.Token` — the tokens;
* `ImportAtlas.Python.Want` — what the grammar can take next;
* `ImportAtlas.Python.Sweep` — what is passed before a token: blanks, line ends and comments;
* `ImportAtlas.Python.Stream` — a token with the places before and after it.
-/

set_option autoImplicit false

namespace ImportAtlas.Python

open ImportAtlas.Text

/-! ### The alphabet -/

/-- The punctuation marks. -/
inductive Mark where
  | openParen | closeParen | openBracket | closeBracket | openBrace | closeBrace
  | comma | colon | semicolon | dot | ellipsis | arrow | assign
  | plus | minus | star | power | slash | floorSlash | percent | at
  | amp | bar | caret | tilde | shiftLeft | shiftRight
  | less | lessEq | equal | notEqual | greaterEq | greater | lessGreater
  | plusAssign | minusAssign | starAssign | slashAssign | atAssign | floorAssign | percentAssign
  | powerAssign | rightAssign | leftAssign | ampAssign | caretAssign | barAssign
deriving DecidableEq, Repr

/-- The opening of a string. -/
structure Quote where
  /-- The quote character. -/
  char : Char
  /-- Whether it is written three times. -/
  triple : Bool
  raw : Bool
  format : Bool
  bytes : Bool
deriving DecidableEq, Repr

/-- A token. The first three are the layout tokens, which have no width. -/
inductive Token where
  | newline
  | indent
  | dedent
  | quote (q : Quote)
  | word (text : String)
  | number
  | mark (m : Mark)
  | finish
  | stray
deriving DecidableEq, Repr

/-- What the grammar can take next, as far as reading a token depends on it. -/
structure Want where
  /-- The end of a logical line. -/
  newline : Bool := false
  /-- The opening of a block. -/
  indent : Bool := false
  /-- The end of a block. -/
  dedent : Bool := false
  /-- A closing bracket. -/
  close : Bool := false
  /-- The opening of a string. -/
  string : Bool := false
  /-- A handler of a `try` statement. -/
  handler : Bool := false
deriving DecidableEq, Repr

/-- Whether comments between lines are passed together with the blank lines. -/
def Want.passesComments (w : Want) : Bool :=
  w.indent || w.dedent || w.newline || w.handler

/-! ### Blanks, line ends and comments -/

/-- What stands before a token: how many characters were passed, whether a line ended among them,
the width of the last line begun, and the width of the first comment line. -/
structure Sweep where
  passed : Nat := 0
  lineEnd : Bool := false
  width : Nat := 0
  comment : Option Nat := none
deriving DecidableEq, Repr

namespace Sweep

/-- Passes blanks, line ends, joined lines and, where `comments` says so, comment lines. `inside`
tells that a comment has been begun. There is no result before a comment on the line of the
previous token, nor before a backslash that joins no lines. -/
def run (comments : Bool) : Bool → List Char → Sweep → Option Sweep
  | _, [], s => some { s with lineEnd := true, width := 0 }
  | true, ch :: rest, s =>
      if ch = '\n' ∨ ch = '\x00' then
        run comments false rest { s with passed := s.passed + 1, width := 0 }
      else
        run comments true rest { s with passed := s.passed + 1 }
  | false, ch :: rest, s =>
      if ch = '\n' then
        run comments false rest { s with passed := s.passed + 1, lineEnd := true, width := 0 }
      else if ch = ' ' then
        run comments false rest { s with passed := s.passed + 1, width := s.width + 1 }
      else if ch = '\r' ∨ ch = '\x0c' then
        run comments false rest { s with passed := s.passed + 1, width := 0 }
      else if ch = '\t' then
        run comments false rest { s with passed := s.passed + 1, width := s.width + 8 }
      else if ch = '#' ∧ comments = true then
        if s.lineEnd then
          run comments true rest
            { s with passed := s.passed + 1, comment := s.comment.or (some s.width) }
        else none
      else if ch = '\\' then
        match rest with
        | [] => some { s with passed := s.passed + 1, lineEnd := true, width := 0 }
        | '\n' :: rest' => run comments false rest' { s with passed := s.passed + 2 }
        | ['\r'] => some { s with passed := s.passed + 2, lineEnd := true, width := 0 }
        | '\r' :: '\n' :: rest' => run comments false rest' { s with passed := s.passed + 3 }
        | _ => none
      else some s

end Sweep

/-! ### The opening of a string -/

/-- The letters that may stand before a quote. -/
def isQuoteFlag (c : Char) : Bool :=
  ['f', 'F', 'r', 'R', 'b', 'B', 'u', 'U'].contains c

/-- The opening of a string at the head of a text, with its length. -/
def Quote.read? (cs : List Char) : Option (Quote × Nat) :=
  let flags := cs.takeWhile isQuoteFlag
  let quote (ch : Char) (triple : Bool) : Quote :=
    { char := ch, triple := triple,
      raw := flags.any fun c => c == 'r' || c == 'R',
      format := flags.any fun c => c == 'f' || c == 'F',
      bytes := flags.any fun c => c == 'b' || c == 'B' }
  match cs.drop flags.length with
  | '\x60' :: _ => some (quote '\x60' false, flags.length + 1)
  | '\x27' :: '\x27' :: '\x27' :: _ => some (quote '\x27' true, flags.length + 3)
  | '\x27' :: _ => some (quote '\x27' false, flags.length + 1)
  | '\x22' :: '\x22' :: '\x22' :: _ => some (quote '\x22' true, flags.length + 3)
  | '\x22' :: _ => some (quote '\x22' false, flags.length + 1)
  | _ => none

/-! ### Numbers -/

/-- The length of the longest run of digits in which single underscores may follow digits;
`joined` tells that an underscore has just been passed. -/
def digitsLength (joined : Bool) : List Char → Nat
  | [] => 0
  | c :: cs =>
      if c.isDigit then digitsLength false cs + 1
      else if c = '_' ∧ joined = false then digitsLength true cs + 1
      else 0

/-- The length of a run of decimal digits at the head of a text. -/
def decimalLength (cs : List Char) : Nat := digitsLength true cs

/-- The length of the longest run of digits of one radix in which single underscores may precede
digits. -/
def radixLength (digit : Char → Bool) : List Char → Nat
  | [] => 0
  | '_' :: c :: cs => if digit c then radixLength digit cs + 2 else 0
  | c :: cs => if digit c then radixLength digit cs + 1 else 0

/-- The length of an exponent at the head of a text. -/
def exponentLength : List Char → Nat
  | e :: s :: cs =>
      if e = 'e' ∨ e = 'E' then
        if s = '+' ∨ s = '-' then
          match decimalLength cs with
          | 0 => 0
          | n => n + 2
        else
          match decimalLength (s :: cs) with
          | 0 => 0
          | n => n + 1
      else 0
  | _ => 0

/-- One more if the text goes on with one of the letters. -/
def suffixLength (letters : List Char) (cs : List Char) : Nat :=
  match cs with
  | c :: _ => if letters.contains c then 1 else 0
  | [] => 0

/-- The length of a number in a radix other than ten, whose digits start the text. -/
def radixNumberLength (digit : Char → Bool) (cs : List Char) : Option Nat :=
  match radixLength digit cs with
  | 0 => none
  | n => some (n + 2 + suffixLength ['l', 'L'] (cs.drop n))

def isHexDigit (c : Char) : Bool :=
  c.isDigit || ('a' ≤ c && c ≤ 'f') || ('A' ≤ c && c ≤ 'F')

def isOctalDigit (c : Char) : Bool := '0' ≤ c && c ≤ '7'

def isBinaryDigit (c : Char) : Bool := c = '0' || c = '1'

/-- The length of a number that starts with decimal digits or a point. -/
def plainNumberLength (cs : List Char) : Nat :=
  let whole := decimalLength cs
  let letters := ['l', 'L', 'j', 'J']
  match cs.drop whole with
  | '.' :: rest =>
      let part := decimalLength rest
      if whole = 0 ∧ part = 0 then 0
      else
        let n := whole + 1 + part
        let n := n + exponentLength (cs.drop n)
        n + suffixLength letters (cs.drop n)
  | rest =>
      if whole = 0 then 0
      else
        let n := whole + exponentLength rest
        n + suffixLength letters (cs.drop n)

/-- The length of the longest number at the head of a text, zero if there is none. -/
def numberLength (cs : List Char) : Nat :=
  let radix :=
    match cs with
    | '0' :: r :: rest =>
        if r = 'x' ∨ r = 'X' then radixNumberLength isHexDigit rest
        else if r = 'o' ∨ r = 'O' then radixNumberLength isOctalDigit rest
        else if r = 'b' ∨ r = 'B' then radixNumberLength isBinaryDigit rest
        else none
    | _ => none
  radix.getD (plainNumberLength cs)

/-! ### Punctuation -/

/-- The longest punctuation mark at the head of a text, with its length. -/
def Mark.read? : List Char → Option (Mark × Nat)
  | '.' :: '.' :: '.' :: _ => some (.ellipsis, 3)
  | '*' :: '*' :: '=' :: _ => some (.powerAssign, 3)
  | '/' :: '/' :: '=' :: _ => some (.floorAssign, 3)
  | '>' :: '>' :: '=' :: _ => some (.rightAssign, 3)
  | '<' :: '<' :: '=' :: _ => some (.leftAssign, 3)
  | '-' :: '>' :: _ => some (.arrow, 2)
  | '*' :: '*' :: _ => some (.power, 2)
  | '/' :: '/' :: _ => some (.floorSlash, 2)
  | '<' :: '<' :: _ => some (.shiftLeft, 2)
  | '>' :: '>' :: _ => some (.shiftRight, 2)
  | '<' :: '=' :: _ => some (.lessEq, 2)
  | '>' :: '=' :: _ => some (.greaterEq, 2)
  | '=' :: '=' :: _ => some (.equal, 2)
  | '!' :: '=' :: _ => some (.notEqual, 2)
  | '<' :: '>' :: _ => some (.lessGreater, 2)
  | '+' :: '=' :: _ => some (.plusAssign, 2)
  | '-' :: '=' :: _ => some (.minusAssign, 2)
  | '*' :: '=' :: _ => some (.starAssign, 2)
  | '/' :: '=' :: _ => some (.slashAssign, 2)
  | '@' :: '=' :: _ => some (.atAssign, 2)
  | '%' :: '=' :: _ => some (.percentAssign, 2)
  | '&' :: '=' :: _ => some (.ampAssign, 2)
  | '|' :: '=' :: _ => some (.barAssign, 2)
  | '^' :: '=' :: _ => some (.caretAssign, 2)
  | '(' :: _ => some (.openParen, 1)
  | ')' :: _ => some (.closeParen, 1)
  | '[' :: _ => some (.openBracket, 1)
  | ']' :: _ => some (.closeBracket, 1)
  | '\x7b' :: _ => some (.openBrace, 1)
  | '\x7d' :: _ => some (.closeBrace, 1)
  | ',' :: _ => some (.comma, 1)
  | ':' :: _ => some (.colon, 1)
  | ';' :: _ => some (.semicolon, 1)
  | '.' :: _ => some (.dot, 1)
  | '=' :: _ => some (.assign, 1)
  | '+' :: _ => some (.plus, 1)
  | '-' :: _ => some (.minus, 1)
  | '*' :: _ => some (.star, 1)
  | '/' :: _ => some (.slash, 1)
  | '%' :: _ => some (.percent, 1)
  | '@' :: _ => some (.at, 1)
  | '&' :: _ => some (.amp, 1)
  | '|' :: _ => some (.bar, 1)
  | '^' :: _ => some (.caret, 1)
  | '~' :: _ => some (.tilde, 1)
  | '<' :: _ => some (.less, 1)
  | '>' :: _ => some (.greater, 1)
  | _ => none

/-! ### Reading a token -/

/-- A token with the places before and after it. -/
structure Stream where
  token : Token
  start : Cursor
  next : Cursor
deriving DecidableEq, Repr

namespace Stream

/-- The token of `n` characters at `c`. -/
def ofLength (token : Token) (c : Cursor) (n : Nat) : Stream :=
  { token := token, start := c, next := c.skip n }

/-- The characters that are passed between tokens: white space and three invisible characters. -/
def isFiller (c : Char) : Bool :=
  isBlank c || c == '\u200b' || c == '\u2060' || c == '\ufeff'

/-- Whether a narrower line ends a block here. -/
def closesBlock (w : Want) (s : Sweep) (c : Cursor) : Bool :=
  let atQuote :=
    match c.rest.drop s.passed with
    | ch :: _ => ch == '\x22' || ch == '\x27' || ch == '\x60'
    | [] => false
  (w.dedent || (!w.newline && !(w.string && atQuote) && !w.close)) &&
    s.width < c.indent && !c.inFormat &&
    (match s.comment with
      | some width => width < c.indent
      | none => true)

/-- The layout token or the opening of a string that is next, if one is. -/
def layout? (w : Want) (c : Cursor) : Option Stream :=
  match Sweep.run w.passesComments false c.rest {} with
  | none => none
  | some s =>
      if s.lineEnd && w.indent && c.indent < s.width then
        some { token := .indent, start := c, next := { c with indents := s.width :: c.indents } }
      else if s.lineEnd && closesBlock w s c then
        some { token := .dedent, start := c, next := { c with indents := c.indents.tail } }
      else if s.lineEnd && w.newline then
        some { token := .newline, start := c, next := c }
      else if s.comment.isNone && w.string then
        let c := c.skip s.passed
        match Quote.read? c.rest with
        | some (q, n) =>
            some { token := .quote q, start := c, next := { c.skip n with inFormat := q.format } }
        | none => none
      else none

/-- The word, number or punctuation mark at `c`. -/
def plain (c : Cursor) : Stream :=
  match c.rest with
  | [] => ofLength .finish c 0
  | ch :: _ =>
      if isIdentStart ch then
        let word := c.rest.takeWhile isIdentContinue
        ofLength (.word (String.ofList word)) c word.length
      else
        match numberLength c.rest with
        | 0 =>
            match Mark.read? c.rest with
            | some (m, n) => ofLength (.mark m) c n
            | none => ofLength .stray c 0
        | n => ofLength .number c n

/-- The length of the joining of two lines at the head of a text. -/
def joinLength : List Char → Nat
  | ['\\'] => 1
  | '\\' :: '\n' :: _ => 2
  | '\\' :: '\x00' :: _ => 2
  | '\\' :: '\r' :: '\n' :: _ => 3
  | _ => 0

/-- Reads the next token under `w`; `fuel` bounds the number of comments and joined lines before
it. -/
def fetchWith (w : Want) : Nat → Cursor → Stream
  | 0, c => ofLength .stray c 0
  | fuel + 1, c =>
      match layout? w c with
      | some s => s
      | none =>
          let c := c.skipWhile isFiller
          match c.rest with
          | '#' :: _ => fetchWith w fuel (c.skipWhile fun ch => ch != '\n' && ch != '\x00')
          | rest =>
              match joinLength rest with
              | 0 => plain c
              | n => fetchWith w fuel (c.skip n)

/-- Reads the next token under `w`. Each comment and each joining of lines takes up a character, so
the number of characters bounds their number. -/
def fetch (w : Want) (c : Cursor) : Stream := fetchWith w (c.left + 1) c

end Stream

end ImportAtlas.Python
