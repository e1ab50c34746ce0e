import ImportAtlas.Json.Error

/-!
# Writing documents

Documents are written over several lines, each level four blanks deeper than the one around it.
Empty arrays and objects stay on one line.

Main definitions:

* `ImportAtlas.Json.writeString` — a string between quotes;
* `ImportAtlas.Json.write` — a value.
-/

set_option autoImplicit false

namespace ImportAtlas.Json

/-- A digit to the base sixteen. -/
def hexDigit (n : Nat) : Char := Nat.digitChar n

/-- A character inside a string. -/
def writeChar (c : Char) : List Char :=
  if c = '\x22' ∨ c = '\\' then ['\\', c]
  else if c = '\x08' then ['\\', 'b']
  else if c = '\x0c' then ['\\', 'f']
  else if c = '\n' then ['\\', 'n']
  else if c = '\r' then ['\\', 'r']
  else if c = '\t' then ['\\', 't']
  else if c.toNat < 32 then ['\\', 'u', '0', '0', hexDigit (c.toNat / 16), hexDigit (c.toNat % 16)]
  else [c]

/-- A string between quotes. -/
def writeString (s : String) : List Char := '\x22' :: s.toList.flatMap writeChar ++ ['\x22']

/-- The beginning of a line at a level. -/
def newLine (level : Nat) : List Char := '\n' :: List.replicate (4 * level) ' '

/-- Pieces one below the other between brackets. -/
def writeBlock (level : Nat) (opening closing : Char) : List (List Char) → List Char
  | [] => [opening, closing]
  | pieces =>
      opening :: newLine (level + 1) ++ (List.intercalate (',' :: newLine (level + 1)) pieces) ++
        newLine level ++ [closing]

mutual

/-- A value at a level. -/
def writeAt (level : Nat) : Json → List Char
  | .null => ['n', 'u', 'l', 'l']
  | .bool true => ['t', 'r', 'u', 'e']
  | .bool false => ['f', 'a', 'l', 's', 'e']
  | .number n => n.text
  | .string s => writeString s
  | .array items => writeBlock level '[' ']' (writeItems (level + 1) items)
  | .object fields => writeBlock level '\x7b' '\x7d' (writeFields (level + 1) fields)

/-- The items of an array. -/
def writeItems (level : Nat) : List Json → List (List Char)
  | [] => []
  | item :: rest => writeAt level item :: writeItems level rest

/-- The members of an object. -/
def writeFields (level : Nat) : List (String × Json) → List (List Char)
  | [] => []
  | (key, value) :: rest =>
      (writeString key ++ [':', ' '] ++ writeAt level value) :: writeFields level rest

end

/-- The text of a value. -/
def write (value : Json) : String := String.ofList (writeAt 0 value)

end ImportAtlas.Json
