/-!
# Binary floating point numbers

The finite numbers with a significand of 53 bits and an exponent of 11 bits, and the rounding of a
ratio to the nearest of them. Everything is exact arithmetic on natural numbers: a number is its
significand times a power of two, and a ratio that lies halfway between two numbers goes to the one
with the even significand.

Main definitions:

* `ImportAtlas.Double` — a finite number with its sign;
* `ImportAtlas.Magnitude.ofRatio?` — the number nearest to a ratio, unless it is too large;
* `ImportAtlas.Magnitude.scale?` — a number times a power of ten, rounded after each step.
-/

set_option autoImplicit false

namespace ImportAtlas

/-- The absolute value `significand * 2 ^ exponent` of a finite number. The significand has 53 bits,
or fewer at the least exponent. -/
structure Magnitude where
  significand : Nat
  exponent : Int
deriving DecidableEq, Repr

/-- A finite number with its sign; zero has one too. -/
structure Double where
  negative : Bool
  magnitude : Magnitude
deriving DecidableEq, Repr

namespace Magnitude

/-- The least exponent. -/
def leastExponent : Int := -1074

/-- The greatest exponent. -/
def greatestExponent : Int := 971

/-- The number of bits of a significand. -/
def precision : Nat := 53

/-- The power of two with an exponent that may be negative, as a ratio. -/
def powerOfTwo (e : Int) : Nat × Nat := (Nat.pow 2 e.toNat, Nat.pow 2 (-e).toNat)

/-- The quotient rounded to the nearest natural number, and to an even one if it is a tie. -/
def roundQuotient (num den : Nat) : Nat :=
  let q := num / den
  let twice := 2 * (num % den)
  if twice < den then q
  else if den < twice then q + 1
  else if q % 2 = 0 then q else q + 1

/-- The exponent of the greatest power of two that is not greater than a positive ratio. -/
def binaryOrder (num den : Nat) : Int :=
  let k : Int := (num.log2 : Int) - (den.log2 : Int)
  let (a, b) := powerOfTwo k
  if a * den ≤ num * b then k else k - 1

/-- Puts a rounded significand into its form: rounding up may have added a bit. -/
def ofRounded? (significand : Nat) (exponent : Int) : Option Magnitude :=
  let m : Magnitude :=
    if significand = Nat.pow 2 precision then ⟨Nat.pow 2 (precision - 1), exponent + 1⟩
    else ⟨significand, exponent⟩
  if greatestExponent < m.exponent then none else some m

/-- Zero. -/
def zero : Magnitude := ⟨0, leastExponent⟩

/-- The number nearest to a ratio, unless it is too large. -/
def ofRatio? (num den : Nat) : Option Magnitude :=
  if num = 0 then some zero
  else
    let exponent := max (binaryOrder num den - ((precision : Int) - 1)) leastExponent
    let (a, b) := powerOfTwo exponent
    ofRounded? (roundQuotient (num * b) (den * a)) exponent

/-- A number as a ratio. -/
def ratio (m : Magnitude) : Nat × Nat :=
  let (a, b) := powerOfTwo m.exponent
  (m.significand * a, b)

/-- The product, rounded. -/
def mul? (m n : Magnitude) : Option Magnitude :=
  let (a, b) := m.ratio
  let (c, d) := n.ratio
  ofRatio? (a * c) (b * d)

/-- The quotient, rounded. -/
def div? (m n : Magnitude) : Option Magnitude :=
  let (a, b) := m.ratio
  let (c, d) := n.ratio
  ofRatio? (a * d) (b * c)

/-- The exponent of the greatest power of ten that is a finite number. -/
def greatestPower : Nat := 308

/-- The power of ten, rounded. -/
def powerOfTen? (n : Nat) : Option Magnitude := ofRatio? (Nat.pow 10 n) 1

/-- Divides by the greatest power of ten as often as told, but not once zero is reached. -/
def shrink? : Nat → Magnitude → Option Magnitude
  | 0, m => some m
  | n + 1, m =>
      if m.significand = 0 then some m
      else do shrink? n (← m.div? (← powerOfTen? greatestPower))

/-- A number times a power of ten, rounded after each step, unless it is too large. For a power that
is itself too large the answer is zero if the number is. -/
def scale? (m : Magnitude) (exponent : Int) : Option Magnitude :=
  if 0 ≤ exponent then
    if exponent ≤ greatestPower then do m.mul? (← powerOfTen? exponent.toNat)
    else if m.significand = 0 then some m else none
  else do
    let n := (-exponent).toNat
    let steps := (n - 1) / greatestPower
    let m ← shrink? steps m
    if m.significand = 0 then return m
    m.div? (← powerOfTen? (n - steps * greatestPower))

end Magnitude

end ImportAtlas
