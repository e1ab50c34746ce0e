import ImportAtlas.Json.Error

/-!
# Reading documents

Readers consume a text from the left and count the bytes that they consume. A reader that fails
gives what is wrong and the place: for what was found in front of the reader, the place after its
first byte; for what was read and then refused, the place after it.

Main definitions:

* `ImportAtlas.Json.Reader` — readers;
* `ImportAtlas.Json.readString`, `ImportAtlas.Json.readNumber` — the simple values;
* `ImportAtlas.Json.readItems`, `ImportAtlas.Json.readMembers` — what stands in an array or object,
  given a reader for one piece of it;
* `ImportAtlas.Json.readValue` — any value;
* `ImportAtlas.Json.parseWith`, `ImportAtlas.Json.parse` — a whole document.
-/

set_option autoImplicit false

namespace ImportAtlas.Json

/-- What is left of a text, and the number of bytes before it. -/
structure Input where
  rest : List Char
  offset : Nat
deriving DecidableEq, Repr

/-- A reader. -/
abbrev Reader := StateT Input (Except Fault)

variable {α σ : Type}

/-! ### Characters -/

/-- Refuses what was read. -/
def failHere (cause : Cause) : Reader α := do throw ⟨cause, (← get).offset⟩

/-- Refuses what stands in front of the reader: a byte, or the end of the text. -/
def failNext (cause : Cause) : Reader α := do
  let input ← get
  throw ⟨cause, if input.rest = [] then input.offset else input.offset + 1⟩

/-- The next character, left in place. -/
def peek : Reader (Option Char) := do return (← get).rest.head?

/-- Goes past characters that are one byte each. -/
def skip (count : Nat) : Reader Unit :=
  modify fun input => ⟨input.rest.drop count, input.offset + count⟩

/-- Goes past the next character. -/
def advance : Reader Unit :=
  modify fun input =>
    match input.rest with
    | [] => input
    | c :: rest => ⟨rest, input.offset + c.utf8Size⟩

/-- The characters that may stand between the pieces of a document. -/
def isBlank (c : Char) : Bool := c == ' ' || c == '\n' || c == '\t' || c == '\r'

/-- Goes past blanks. -/
def skipBlanks : Reader Unit := do skip ((← get).rest.takeWhile isBlank).length

/-- The characters of a word, one by one. -/
def readWord : List Char → Reader Unit
  | [] => pure ()
  | c :: word => do
      match ← peek with
      | none => failNext .endInValue
      | some d => if d = c then do skip 1; readWord word else failNext .expectedWord

/-! ### Strings -/

/-- The value of a digit to the base sixteen. -/
def hexValue? (c : Char) : Option Nat :=
  if '0' ≤ c ∧ c ≤ '9' then some (c.toNat - '0'.toNat)
  else if 'a' ≤ c ∧ c ≤ 'f' then some (c.toNat - 'a'.toNat + 10)
  else if 'A' ≤ c ∧ c ≤ 'F' then some (c.toNat - 'A'.toNat + 10)
  else none

/-- The number of four digits to the base sixteen. -/
def hexNumber? (digits : List Char) : Option Nat := do
  let values ← digits.mapM hexValue?
  return values.foldl (fun n d => n * 16 + d) 0

/-- The number of bytes of some characters. -/
def byteCount (chars : List Char) : Nat :=
  chars.foldr (fun c n => c.utf8Size + n) 0

/-- Four digits to the base sixteen; they are refused as four bytes. -/
def readUnit : Reader Nat := do
  let input ← get
  let digits := input.rest.take 4
  if byteCount digits < 4 then throw ⟨.endInString, input.offset + byteCount digits⟩
  match hexNumber? digits with
  | some n => do skip 4; return n
  | none => throw ⟨.invalidEscape, input.offset + 4⟩

/-- One of two characters that must follow the first half of a pair of escapes. -/
def readPairMark (mark : Char) : Reader Unit := do
  match ← peek with
  | none => failNext .endInString
  | some c => if c = mark then skip 1 else failNext .endInEscape

/-- The character of an escape by number, in one or two halves. -/
def readUnicode : Reader Char := do
  let n ← readUnit
  if 0xdc00 ≤ n ∧ n ≤ 0xdfff then failHere .loneSurrogate
  else if n < 0xd800 ∨ 0xdbff < n then return Char.ofNat n
  else
    readPairMark '\\'
    readPairMark 'u'
    let m ← readUnit
    if m < 0xdc00 ∨ 0xdfff < m then failHere .loneSurrogate
    else return Char.ofNat ((n - 0xd800) * 1024 + (m - 0xdc00) + 0x10000)

/-- The character that a letter after a backslash stands for. -/
def escaped? (c : Char) : Option Char :=
  if c = '\x22' ∨ c = '\\' ∨ c = '/' then some c
  else if c = 'b' then some '\x08'
  else if c = 'f' then some '\x0c'
  else if c = 'n' then some '\n'
  else if c = 'r' then some '\r'
  else if c = 't' then some '\t'
  else none

/-- The character of an escape, after the backslash. -/
def readEscape : Reader Char := do
  match ← peek with
  | none => failNext .endInString
  | some 'u' => do skip 1; readUnicode
  | some c =>
      match escaped? c with
      | some d => do skip 1; return d
      | none => failNext .invalidEscape

/-- The characters of a string up to the quote at its end; `fuel` bounds their number. -/
def readChars : Nat → Reader (List Char)
  | 0 => failNext .endInString
  | fuel + 1 => do
      match ← peek with
      | none => failNext .endInString
      | some c =>
          if c = '\x22' then do skip 1; return []
          else if c = '\\' then do
            skip 1
            let d ← readEscape
            return d :: (← readChars fuel)
          else if c.toNat < 32 then failNext .controlCharacter
          else do advance; return c :: (← readChars fuel)

/-- A string, after the quote at its beginning. -/
def readString : Reader String := do
  return String.ofList (← readChars ((← get).rest.length + 1))

/-! ### Numbers -/

/-- The greatest significand that is kept. -/
def significandLimit : Nat := Nat.pow 2 64 - 1

/-- The greatest exponent that is kept. -/
def exponentLimit : Nat := Nat.pow 2 31 - 1

/-- Adds digits to the right of a number as long as it does not get greater than a limit. Gives the
number and how many digits were added. -/
def addDigits (limit : Nat) : Nat → List Char → Nat × Nat
  | n, [] => (n, 0)
  | n, c :: rest =>
      let m := n * 10 + (c.toNat - '0'.toNat)
      if !c.isDigit || limit < m then (n, 0)
      else
        let (k, count) := addDigits limit m rest
        (k, count + 1)

/-- Reads digits on to a number, as long as it does not get greater than a limit. -/
def readDigits (limit n : Nat) : Reader (Nat × Nat) := do
  let (m, count) := addDigits limit n (← get).rest
  skip count
  return (m, count)

/-- Goes past digits, and gives their number. -/
def skipDigits : Reader Nat := do
  let count := ((← get).rest.takeWhile Char.isDigit).length
  skip count
  return count

/-- The floating point number nearest to a significand, times a power of ten. -/
def realOf (negative : Bool) (significand : Nat) (exponent : Int) : Reader Number := do
  let scaled := do (← Magnitude.ofRatio? significand 1).scale? exponent
  match scaled with
  | some m => return .real ⟨negative, m⟩
  | none => failHere .numberOutOfRange

/-- Whether the next character marks an exponent. -/
def atExponent : Reader Bool := do
  let c ← peek
  return c = some 'e' || c = some 'E'

/-- The rest of a number from the mark of its exponent on. -/
def readExponent (negative : Bool) (significand : Nat) (start : Int) : Reader Number := do
  skip 1
  let sign ← peek
  if sign = some '+' ∨ sign = some '-' then skip 1
  match ← peek with
  | none => failNext .endInValue
  | some c =>
      if !c.isDigit then failNext .invalidNumber
      else
        let (e, _) ← readDigits exponentLimit 0
        let more ← peek
        if more.any Char.isDigit then
          if significand ≠ 0 ∧ sign ≠ some '-' then failNext .numberOutOfRange
          else
            let _ ← skipDigits
            return .real ⟨negative, .zero⟩
        else realOf negative significand (if sign = some '-' then start - e else start + e)

/-- The rest of a number from its point on. Digits that do not fit are dropped. -/
def readFraction (negative : Bool) (significand : Nat) (start : Int) : Reader Number := do
  skip 1
  let (m, count) ← readDigits significandLimit significand
  let dropped ← skipDigits
  if count = 0 ∧ dropped = 0 then
    match ← peek with
    | none => failNext .endInValue
    | some _ => failNext .invalidNumber
  else if ← atExponent then readExponent negative m (start - count)
  else realOf negative m (start - count)

/-- The number that a significand is by itself, with its sign. What is too great for an integer and
the negative zero are floating point numbers. -/
def integerOf (negative : Bool) (significand : Nat) : Reader Number :=
  if !negative then return .natural significand
  else if significand = 0 ∨ Nat.pow 2 63 < significand then realOf true significand 0
  else return .negative significand

/-- The digits at the beginning of a number. A zero stands alone. -/
def readWhole : Reader Nat := do
  match ← peek with
  | none => failNext .endInValue
  | some c =>
      if !c.isDigit then failNext .invalidNumber
      else if c = '0' then do
        skip 1
        if (← peek).any Char.isDigit then failNext .invalidNumber else return 0
      else return (← readDigits significandLimit 0).1

/-- A number, after its sign. Digits that do not fit are dropped and counted. -/
def readNumber (negative : Bool) : Reader Number := do
  let m ← readWhole
  let dropped ← skipDigits
  if (← peek) = some '.' then readFraction negative m dropped
  else if ← atExponent then readExponent negative m dropped
  else if dropped = 0 then integerOf negative m
  else realOf negative m dropped

/-! ### Arrays and objects -/

/-- The items of an array after its opening bracket, read one by one, and its closing bracket; `fuel`
bounds their number. -/
def readItems (item : Reader α) : Nat → Bool → Reader (List α)
  | 0, _ => failNext .endInArray
  | fuel + 1, first => do
      skipBlanks
      match ← peek with
      | none => failNext .endInArray
      | some ']' => do skip 1; return []
      | some c =>
          if !first then
            if c = ',' then do
              skip 1
              skipBlanks
              match ← peek with
              | none => failNext .endInValue
              | some ']' => failNext .trailingComma
              | some _ => pure ()
            else failNext .expectedCommaOrBracket
          let a ← item
          return a :: (← readItems item fuel false)

/-- The colon between a key and its value. -/
def readColon : Reader Unit := do
  skipBlanks
  match ← peek with
  | none => failNext .endInObject
  | some ':' => skip 1
  | some _ => failNext .expectedColon

/-- The members of an object after its opening brace, and its closing brace. For each key, `member`
reads on and changes what has been collected; `fuel` bounds the number of members. -/
def readMembers (member : σ → String → Reader σ) : Nat → Bool → σ → Reader σ
  | 0, _, _ => failNext .endInObject
  | fuel + 1, first, state => do
      skipBlanks
      match ← peek with
      | none => failNext .endInObject
      | some '\x7d' => do skip 1; return state
      | some c =>
          if first then
            if c ≠ '\x22' then failNext .keyNotString
          else if c = ',' then do
            skip 1
            skipBlanks
            match ← peek with
            | none => failNext .endInValue
            | some '\x22' => pure ()
            | some '\x7d' => failNext .trailingComma
            | some _ => failNext .keyNotString
          else failNext .expectedCommaOrBrace
          skip 1
          let key ← readString
          readMembers member fuel false (← member state key)

/-- Reads as many pieces as the text can hold. -/
def withFuel (reader : Nat → Reader α) : Reader α := do reader ((← get).rest.length + 1)

/-- The greatest number of arrays and objects inside each other, plus one. -/
def depthLimit : Nat := 128

/-- A value inside which arrays and objects may be less than `depth` deep. -/
def readValue : Nat → Reader Json
  | 0 => failNext .tooDeep
  | depth + 1 => do
      skipBlanks
      match ← peek with
      | none => failNext .endInValue
      | some 'n' => do skip 1; readWord ['u', 'l', 'l']; return .null
      | some 't' => do skip 1; readWord ['r', 'u', 'e']; return .bool true
      | some 'f' => do skip 1; readWord ['a', 'l', 's', 'e']; return .bool false
      | some '-' => do skip 1; return .number (← readNumber true)
      | some '\x22' => do skip 1; return .string (← readString)
      | some '[' =>
          if depth = 0 then failNext .tooDeep
          else do
            skip 1
            return .array (← withFuel fun fuel => readItems (readValue depth) fuel true)
      | some '\x7b' =>
          if depth = 0 then failNext .tooDeep
          else do
            skip 1
            let member (fields : Fields) (key : String) : Reader Fields := do
              readColon
              return fields.insert key (← readValue depth)
            return .object (← withFuel fun fuel => readMembers member fuel true [])
      | some c => if c.isDigit then return .number (← readNumber false) else failNext .expectedValue

/-! ### Values of a given type -/

/-- Refuses a value that has not the type that is expected. It is read as far as it has to be named;
arrays and objects are not read. -/
def failType (expected : String) : Reader α := do
  let found : Found ← do
    match ← peek with
    | some 'n' => do skip 1; readWord ['u', 'l', 'l']; pure .null
    | some 't' => do skip 1; readWord ['r', 'u', 'e']; pure (.bool true)
    | some 'f' => do skip 1; readWord ['a', 'l', 's', 'e']; pure (.bool false)
    | some '-' => do skip 1; pure (.number (← readNumber true))
    | some '\x22' => do skip 1; pure (.string (← readString))
    | some '[' => pure .array
    | some '\x7b' => pure .object
    | some c => if c.isDigit then pure (.number (← readNumber false)) else failNext .expectedValue
    | none => failNext .expectedValue
  failHere (.wrongType found expected)

/-- A value that starts with a given character, after which `reader` goes on. -/
def readTyped (start : Char) (expected : String) (reader : Reader α) : Reader α := do
  skipBlanks
  match ← peek with
  | none => failNext .endInValue
  | some c => if c = start then do skip 1; reader else failType expected

/-- A string. -/
def readText (expected : String) : Reader String := readTyped '\x22' expected readString

/-- A list of strings. -/
def readTexts (expected : String) : Reader (List String) :=
  readTyped '[' "a sequence" (withFuel fun fuel => readItems (readText expected) fuel true)

/-- An object whose members are values inside which arrays and objects may be less than `depth`
deep. -/
def readObject (depth : Nat) : Reader Fields :=
  let member (fields : Fields) (key : String) : Reader Fields := do
    readColon
    return fields.insert key (← readValue depth)
  readTyped '\x7b' "a map" (withFuel fun fuel => readMembers member fuel true [])

/-! ### Documents -/

/-- What a reader makes of a whole text, after which only blanks may follow. -/
def parseWith (reader : Reader α) (text : String) : Except Error α :=
  let whole : Reader α := do
    let a ← reader
    skipBlanks
    match ← peek with
    | none => return a
    | some _ => failNext .trailingCharacters
  match whole ⟨text.toList, 0⟩ with
  | .ok (a, _) => .ok a
  | .error fault => .error (fault.toError text)

/-- The value that a text holds. -/
def parse (text : String) : Except Error Json := parseWith (readValue depthLimit) text

end ImportAtlas.Json
