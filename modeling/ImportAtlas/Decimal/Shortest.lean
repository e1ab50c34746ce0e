import ImportAtlas.Decimal.Double

/-!
# The fewest digits that read back

A number is written with as few decimal digits as will still be read back as the same number, and
among those with the digits nearest to it. The texts that are read back as the number are those in
the interval of reals that round to it, so for each count of digits only the two neighbours of the
number on the grid of that many digits have to be looked at.

Main definitions:

* `ImportAtlas.Decimal` — digits and a power of ten;
* `ImportAtlas.Magnitude.shortest` — the fewest digits that read back;
* `ImportAtlas.Decimal.text` — how they are written.
-/

set_option autoImplicit false

namespace ImportAtlas

/-- The number `digits * 10 ^ exponent`. -/
structure Decimal where
  digits : Nat
  exponent : Int
deriving DecidableEq, Repr

namespace Magnitude

/-- Half the distances to the neighbours below and above, in quarters of the last place: the
neighbour below is nearer if the significand is the least one with all its bits. -/
def gapBelow (m : Magnitude) : Nat :=
  if m.significand = Nat.pow 2 (precision - 1) ∧ leastExponent < m.exponent then 1 else 2

/-- Whether the decimal `c * 10 ^ k` is read back as the number. All sides are scaled to natural
numbers: the number is `4 * significand` quarters of its last place. -/
def readsBack (m : Magnitude) (c : Nat) (k : Int) : Bool :=
  let (tens, unit) : Nat × Nat := (Nat.pow 10 k.toNat, Nat.pow 10 (-k).toNat)
  let (twos, part) := powerOfTwo m.exponent
  -- four times the decimal, and the ends of the interval, over the same denominator
  let x := 4 * c * tens * part
  let low := (4 * m.significand - m.gapBelow) * twos * unit
  let high := (4 * m.significand + 2) * twos * unit
  if m.significand % 2 = 0 then low ≤ x && x ≤ high else low < x && x < high

/-- The distance of the decimal `c * 10 ^ k` from the number, over a denominator that depends on `k`
and the number alone. -/
def distance (m : Magnitude) (c : Nat) (k : Int) : Nat :=
  let (tens, unit) : Nat × Nat := (Nat.pow 10 k.toNat, Nat.pow 10 (-k).toNat)
  let (twos, part) := powerOfTwo m.exponent
  let x := c * tens * part
  let y := m.significand * twos * unit
  max x y - min x y

/-- The greatest natural number `c` with `c * 10 ^ k` not above the number. -/
def floorAt (m : Magnitude) (k : Int) : Nat :=
  let (tens, unit) : Nat × Nat := (Nat.pow 10 k.toNat, Nat.pow 10 (-k).toNat)
  let (twos, part) := powerOfTwo m.exponent
  m.significand * twos * unit / (tens * part)

/-- The neighbour on the grid of `10 ^ k` that is read back, the nearer one if both are, and the even
one if both are as near. -/
def onGrid? (m : Magnitude) (k : Int) : Option Decimal :=
  let c := m.floorAt k
  match m.readsBack c k, m.readsBack (c + 1) k with
  | false, false => none
  | true, false => some ⟨c, k⟩
  | false, true => some ⟨c + 1, k⟩
  | true, true =>
      let below := m.distance c k
      let above := m.distance (c + 1) k
      if below < above ∨ (below = above ∧ c % 2 = 0) then some ⟨c, k⟩ else some ⟨c + 1, k⟩

/-- The exponent of the greatest power of ten that is not greater than a number, found by stepping
down from `k`. -/
def decimalOrder (m : Magnitude) : Nat → Int → Int
  | 0, k => k
  | fuel + 1, k => if m.floorAt k = 0 then m.decimalOrder fuel (k - 1) else k

/-- Tries finer and finer grids. -/
def refine (m : Magnitude) : Nat → Int → Decimal
  | 0, k => ⟨m.floorAt k, k⟩
  | fuel + 1, k =>
      match m.onGrid? k with
      | some d => d
      | none => m.refine fuel (k - 1)

/-- The digits without zeros at the end; `fuel` bounds their number. -/
def dropZeros : Nat → Decimal → Decimal
  | 0, d => d
  | fuel + 1, d =>
      if d.digits % 10 = 0 ∧ d.digits ≠ 0 then dropZeros fuel ⟨d.digits / 10, d.exponent + 1⟩ else d

/-- The fewest digits that are read back as the number. Seventeen digits always are. -/
def shortest (m : Magnitude) : Decimal :=
  dropZeros 20 (m.refine 18 (m.decimalOrder 640 309 + 1))

end Magnitude

/-- How a decimal is written. -/
structure Decimal.Format where
  /-- The greatest number of digits before the point of a number that is written without an
  exponent. -/
  whole : Nat
  /-- The greatest number of zeros that follow the point before the first digit in a number that is
  written without an exponent. -/
  zeros : Nat
deriving DecidableEq, Repr

namespace Decimal

/-- The text of a decimal. A number that is written without an exponent has a point and a digit on
either side of it; one that is written with an exponent has a point only if it has more than one
digit, and the exponent has a sign. -/
def text (f : Format) (d : Decimal) : List Char :=
  let digits := Nat.toDigits 10 d.digits
  let point : Int := (digits.length : Int) + d.exponent
  if 0 ≤ d.exponent ∧ point ≤ f.whole then
    digits ++ List.replicate d.exponent.toNat '0' ++ ['.', '0']
  else if 0 < point ∧ point ≤ f.whole then
    digits.take point.toNat ++ ['.'] ++ digits.drop point.toNat
  else if point ≤ 0 ∧ -point ≤ f.zeros then
    ['0', '.'] ++ List.replicate (-point).toNat '0' ++ digits
  else
    let fraction := digits.drop 1
    let sign := if point - 1 < 0 then '-' else '+'
    digits.take 1 ++ (if fraction = [] then [] else '.' :: fraction) ++ ['e', sign] ++
      Nat.toDigits 10 (point - 1).natAbs

end Decimal

namespace Double

/-- The text of a number: the fewest digits that are read back, after a sign if it is negative. -/
def text (f : Decimal.Format) (x : Double) : List Char :=
  let digits := if x.magnitude.significand = 0 then ['0', '.', '0'] else x.magnitude.shortest.text f
  if x.negative then '-' :: digits else digits

end Double

end ImportAtlas
