import FormFlow.Json.Binary64

/-!
# The shortest decimal that reads back

Among the decimals that round to a given magnitude the shortest is written, and of the
shortest ones the nearest to the exact value. The decimals that round to `m * 2 ^ e` fill
an interval around it, with its ends exactly when `m` is even. If a grid of `n` digits has
a point in the interval, then so has one of the two neighbours of the value on that grid;
`shortest` therefore tries the two neighbours for 1, 2, … 17 digits.

`Binary64.text` places the digits: a value `0.DIGITS * 10 ^ point` is written plainly for
`-5 < point ≤ 16`, always with a decimal, and with an exponent otherwise.
-/

set_option autoImplicit false

namespace FormFlow

/-- The decimal `0.digits * 10 ^ point`, the digits read as one number. -/
structure ShortDecimal where
  digits : Nat
  point : Int
deriving DecidableEq, Repr

namespace Magnitude

/-- The interval of values that round to a magnitude, over a common denominator. -/
structure RoundingInterval where
  low : Nat
  value : Nat
  high : Nat
  den : Nat
  closed : Bool

/-- The rounding interval of a magnitude. Below a power of two the spacing halves, so the
lower half of the interval is then half as wide. -/
def interval (x : Magnitude) : RoundingInterval :=
  let narrow := x.mantissa = Nat.pow 2 52 ∧ minExponent < x.exponent
  let below := if narrow then 1 else 2
  let num := fun quarters : Nat =>
    if 2 ≤ x.exponent then quarters * Nat.pow 2 (x.exponent - 2).toNat else quarters
  { low := num (4 * x.mantissa - below)
    value := num (4 * x.mantissa)
    high := num (4 * x.mantissa + 2)
    den := if 2 ≤ x.exponent then 1 else Nat.pow 2 (2 - x.exponent).toNat
    closed := x.mantissa % 2 = 0 }

/-- Whether `point * 10 ^ scale` lies in the interval. -/
def RoundingInterval.contains (i : RoundingInterval) (point : Nat) (scale : Int) : Bool :=
  let scaled := if 0 ≤ scale then point * Nat.pow 10 scale.toNat * i.den else point * i.den
  let unit := if 0 ≤ scale then 1 else Nat.pow 10 (-scale).toNat
  if i.closed then i.low * unit ≤ scaled && scaled ≤ i.high * unit
  else i.low * unit < scaled && scaled < i.high * unit

/-- How far `10 ^ k ≤ num / den` holds for `k = 0, 1, …` below the bound: the number of
digits in front of the decimal point. -/
def wholeDigits (num den : Nat) : Nat → Nat
  | 0 => 0
  | bound + 1 => if num < den then 0 else wholeDigits num (den * 10) bound + 1

/-- The number of zeros behind the decimal point before the first digit of `num / den`. -/
def leadingZeros (num den : Nat) : Nat → Nat
  | 0 => 0
  | bound + 1 => if den ≤ num * 10 then 0 else leadingZeros (num * 10) den bound + 1

/-- The position `p` with `10 ^ (p - 1) ≤ num / den < 10 ^ p`. -/
def decimalPoint (num den : Nat) : Int :=
  if den ≤ num then (wholeDigits num den 400 : Int) else -(leadingZeros num den 400 : Int)

/-- Removes trailing zeros, each of which moves the scale by one. -/
def stripZeros : Nat → Nat → Nat
  | 0, digits => digits
  | bound + 1, digits => if digits % 10 = 0 then stripZeros bound (digits / 10) else digits

/-- The point of the grid `10 ^ scale` in the interval that is nearest to the value, ties
to the even one. -/
def gridPoint? (i : RoundingInterval) (scale : Int) : Option Nat :=
  let num := if 0 ≤ scale then i.value else i.value * Nat.pow 10 (-scale).toNat
  let den := if 0 ≤ scale then i.den * Nat.pow 10 scale.toNat else i.den
  let below := num / den
  let above := below + 1
  match i.contains below scale && below != 0, i.contains above scale with
  | true, true => some (roundHalfEven num den)
  | true, false => some below
  | false, true => some above
  | false, false => none

/-- Searches the grids of `count`, `count + 1`, … digits. -/
def shortestFrom (i : RoundingInterval) (point : Int) : (count fuel : Nat) → ShortDecimal
  | _, 0 => ⟨0, 0⟩
  | count, fuel + 1 =>
    match gridPoint? i (point - count) with
    | some found =>
      let digits := stripZeros 20 found
      let width := (toString found).length
      ⟨digits, point - count + width⟩
    | none => shortestFrom i point (count + 1) fuel

/-- The shortest decimal that rounds to a magnitude other than zero. -/
def shortest (x : Magnitude) : ShortDecimal :=
  let i := x.interval
  shortestFrom i (decimalPoint i.value i.den) 1 17

end Magnitude

namespace Binary64

/-- Where plain notation begins and ends: `first < point ≤ last`. -/
structure PlainRange where
  first : Int
  last : Int

/-- Plain notation reaches from five places behind the decimal point to sixteen in front. -/
def plainRange : PlainRange := ⟨-5, 16⟩

/-- Writes `0.digits * 10 ^ point` without an exponent, with at least one decimal. -/
def plainText (digits : List Char) (point : Int) : List Char :=
  if point ≤ 0 then '0' :: '.' :: (List.replicate (-point).toNat '0' ++ digits)
  else if digits.length ≤ point.toNat then
    digits ++ List.replicate (point.toNat - digits.length) '0' ++ ['.', '0']
  else digits.take point.toNat ++ '.' :: digits.drop point.toNat

/-- Writes `0.digits * 10 ^ point` with one digit before the point and a signed exponent. -/
def exponentText (digits : List Char) (point : Int) : List Char :=
  let fraction := digits.drop 1
  let exponent := point - 1
  digits.take 1 ++ (if fraction.isEmpty then [] else '.' :: fraction) ++
    'e' :: (if exponent < 0 then '-' else '+') :: (toString exponent.natAbs).toList

/-- The text of a finite number. -/
def text (x : Binary64) : List Char :=
  let sign := if x.negative then ['-'] else []
  if x.magnitude.mantissa = 0 then sign ++ ['0', '.', '0']
  else
    let short := x.magnitude.shortest
    let digits := (toString short.digits).toList
    if plainRange.first < short.point ∧ short.point ≤ plainRange.last then
      sign ++ plainText digits short.point
    else sign ++ exponentText digits short.point

end Binary64

end FormFlow
