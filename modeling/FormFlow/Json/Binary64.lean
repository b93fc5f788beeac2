/-!
# Binary64 magnitudes in exact arithmetic

A finite binary64 magnitude is a mantissa times a power of two. Everything here is
computed in natural numbers: a quotient is rounded once, to the nearest magnitude with
ties to the even mantissa, so multiplication and division agree with the rounded
operations of the format.

`Magnitude.ofRatio?` is the single rounding step; `Magnitude.mul?` and `Magnitude.div?`
apply it to the exact product and quotient. `Magnitude.ofDecimal?` turns a significand
and a power of ten into a magnitude by rounding the significand and then scaling it,
which is how the reader of numbers defines the value of a decimal text.
-/

set_option autoImplicit false

namespace FormFlow

/-- The magnitude `mantissa * 2 ^ exponent`. A normal mantissa lies in `[2 ^ 52, 2 ^ 53)`;
zero and the subnormal magnitudes have exponent `-1074`. -/
structure Magnitude where
  mantissa : Nat
  exponent : Int
deriving DecidableEq, Repr, Inhabited

namespace Magnitude

/-- The quotient rounded to the nearest natural number, ties to the even one. -/
def roundHalfEven (num den : Nat) : Nat :=
  let quotient := num / den
  let twice := 2 * (num % den)
  if twice < den then quotient
  else if den < twice then quotient + 1
  else if quotient % 2 = 0 then quotient
  else quotient + 1

/-- The least exponent of the format. -/
def minExponent : Int := -1074

/-- The greatest exponent of the format. -/
def maxExponent : Int := 971

/-- Zero. -/
def zero : Magnitude := ⟨0, minExponent⟩

/-- The numerator and denominator of `num / den / 2 ^ exponent`. -/
def descale (num den : Nat) (exponent : Int) : Nat × Nat :=
  if 0 ≤ exponent then (num, den * Nat.pow 2 exponent.toNat)
  else (num * Nat.pow 2 (-exponent).toNat, den)

/-- The exponent that gives `num / den` a mantissa of 53 bits, or the least one. -/
def exponentFor (num den : Nat) : Int :=
  let guess : Int := (num.log2 : Int) - (den.log2 : Int) - 52
  let scaled := descale num den guess
  let exact := if scaled.1 < scaled.2 * Nat.pow 2 52 then guess - 1 else guess
  max exact minExponent

/-- The magnitude nearest to `num / den`; `none` when it lies beyond the format. -/
def ofRatio? (num den : Nat) : Option Magnitude :=
  let exponent := exponentFor num den
  let scaled := descale num den exponent
  let rounded := roundHalfEven scaled.1 scaled.2
  let carried : Magnitude :=
    if rounded = Nat.pow 2 53 then ⟨Nat.pow 2 52, exponent + 1⟩ else ⟨rounded, exponent⟩
  if num = 0 then some zero
  else if carried.exponent ≤ maxExponent then some carried
  else none

/-- The exact value of a magnitude as a quotient. -/
def ratio (x : Magnitude) : Nat × Nat :=
  if 0 ≤ x.exponent then (x.mantissa * Nat.pow 2 x.exponent.toNat, 1)
  else (x.mantissa, Nat.pow 2 (-x.exponent).toNat)

/-- The rounded product. -/
def mul? (x y : Magnitude) : Option Magnitude :=
  ofRatio? (x.ratio.1 * y.ratio.1) (x.ratio.2 * y.ratio.2)

/-- The rounded quotient by a magnitude other than zero. -/
def div? (x y : Magnitude) : Option Magnitude :=
  ofRatio? (x.ratio.1 * y.ratio.2) (x.ratio.2 * y.ratio.1)

/-- The greatest power of ten that the format holds. -/
def maxTenPower : Nat := 308

/-- The magnitude nearest to `10 ^ power`. -/
def tenPower (power : Nat) : Magnitude :=
  (ofRatio? (Nat.pow 10 power) 1).getD zero

/-- Scales `x` by a power of ten within the format with one rounding. A lower power is
reached in steps of `10 ^ 308`, each rounded; a higher one is out of range. After two such
steps every significand below `2 ^ 64` has become zero, which bounds `steps`. -/
def scaleByTen? (x : Magnitude) (power : Int) : (steps : Nat) → Option Magnitude
  | 0 => some zero
  | steps + 1 =>
    if power.natAbs ≤ maxTenPower then
      if 0 ≤ power then x.mul? (tenPower power.natAbs) else x.div? (tenPower power.natAbs)
    else if x.mantissa = 0 then some x
    else if 0 ≤ power then none
    else (x.div? (tenPower maxTenPower)).bind fun y => y.scaleByTen? (power + maxTenPower) steps

/-- The magnitude of `significand * 10 ^ power`: the significand is rounded first, the
scaling afterwards. -/
def ofDecimal? (significand : Nat) (power : Int) : Option Magnitude :=
  (ofRatio? significand 1).bind fun x => x.scaleByTen? power 4

end Magnitude

/-- A finite binary64 number. -/
structure Binary64 where
  negative : Bool
  magnitude : Magnitude
deriving DecidableEq, Repr, Inhabited

end FormFlow
