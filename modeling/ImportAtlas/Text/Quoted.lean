import ImportAtlas.Text.Printable

/-!
# Quoted texts

A text is shown between double quotes with what cannot be seen written as escapes. A quoted path
also escapes apostrophes, a quoted name does not.

Main definitions:

* `ImportAtlas.Text.quoted` — a text between quotes.
-/

set_option autoImplicit false

namespace ImportAtlas.Text

/-- The digits of a number to the base sixteen. -/
def hexDigits (n : Nat) : List Char := Nat.toDigits 16 n

/-- A character as it is written between quotes. -/
def quotedChar (apostrophe : Bool) (c : Char) : List Char :=
  if c = '\x00' then ['\\', '0']
  else if c = '\t' then ['\\', 't']
  else if c = '\r' then ['\\', 'r']
  else if c = '\n' then ['\\', 'n']
  else if c = '\\' ∨ c = '\x22' ∨ (apostrophe ∧ c = '\x27') then ['\\', c]
  else if isPlain c then [c]
  else ['\\', 'u', '\x7b'] ++ hexDigits c.toNat ++ ['\x7d']

/-- A text between quotes; `apostrophe` tells whether apostrophes are escaped too. -/
def quoted (apostrophe : Bool) (s : String) : String :=
  String.ofList ('\x22' :: s.toList.flatMap (quotedChar apostrophe) ++ ['\x22'])

end ImportAtlas.Text
