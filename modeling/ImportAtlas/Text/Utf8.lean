/-!
# Texts as bytes

The encoding of texts as bytes, and the two ways to read bytes as a text: refusing what is not a
text, or putting a replacement character for each longest run of bytes that begins a character and
does not complete it.

Main definitions:

* `ImportAtlas.Text.encode` — the bytes of a text;
* `ImportAtlas.Text.charAt` — the character that some bytes start with;
* `ImportAtlas.Text.decode?`, `ImportAtlas.Text.decodeLossy` — the text of some bytes.
-/

set_option autoImplicit false

namespace ImportAtlas.Text

/-- The bytes of a text. -/
def encode (s : String) : List UInt8 := s.toList.flatMap String.utf8EncodeChar

/-- Whether a byte continues a character. -/
def isContinuation (b : UInt8) : Bool := 0x80 ≤ b && b ≤ 0xbf

/-- The bytes that may follow the first byte of a character of more than two bytes. -/
def isSecond (first second : UInt8) : Bool :=
  if first == 0xe0 then 0xa0 ≤ second && second ≤ 0xbf
  else if first == 0xed then 0x80 ≤ second && second ≤ 0x9f
  else if first == 0xf0 then 0x90 ≤ second && second ≤ 0xbf
  else if first == 0xf4 then 0x80 ≤ second && second ≤ 0x8f
  else isContinuation second

/-- The payload of a byte that continues a character. -/
def payload (b : UInt8) : Nat := b.toNat % 64

/-- The character that some bytes start with, if they start with one, and the number of bytes that
it takes; without one, the number of bytes that are to be given up. -/
def charAt : List UInt8 → Option Char × Nat
  | [] => (none, 0)
  | a :: rest =>
      if a < 0x80 then (some (Char.ofNat a.toNat), 1)
      else if 0xc2 ≤ a && a ≤ 0xdf then
        match rest with
        | b :: _ =>
            if isContinuation b then
              (some (Char.ofNat (a.toNat % 32 * 64 + payload b)), 2)
            else (none, 1)
        | [] => (none, 1)
      else if 0xe0 ≤ a && a ≤ 0xef then
        match rest with
        | b :: rest =>
            if isSecond a b then
              match rest with
              | c :: _ =>
                  if isContinuation c then
                    (some (Char.ofNat (a.toNat % 16 * 4096 + payload b * 64 + payload c)), 3)
                  else (none, 2)
              | [] => (none, 2)
            else (none, 1)
        | [] => (none, 1)
      else if 0xf0 ≤ a && a ≤ 0xf4 then
        match rest with
        | b :: rest =>
            if isSecond a b then
              match rest with
              | c :: rest =>
                  if isContinuation c then
                    match rest with
                    | d :: _ =>
                        if isContinuation d then
                          (some (Char.ofNat (a.toNat % 8 * 262144 + payload b * 4096 +
                            payload c * 64 + payload d)), 4)
                        else (none, 3)
                    | [] => (none, 3)
                  else (none, 2)
              | [] => (none, 2)
            else (none, 1)
        | [] => (none, 1)
      else (none, 1)

/-- Reads bytes as characters, `none` standing for bytes that were given up; `fuel` bounds the number
of steps. -/
def decodeWith : Nat → List UInt8 → List (Option Char)
  | 0, _ => []
  | _ + 1, [] => []
  | fuel + 1, bytes =>
      let (c, n) := charAt bytes
      c :: decodeWith fuel (bytes.drop n)

/-- The text of some bytes, if they are one. -/
def decode? (bytes : List UInt8) : Option String :=
  ((decodeWith bytes.length bytes).mapM id).map String.ofList

/-- The text of some bytes, with a replacement character where they are none. -/
def decodeLossy (bytes : List UInt8) : String :=
  String.ofList ((decodeWith bytes.length bytes).map fun c => c.getD '�')

end ImportAtlas.Text
