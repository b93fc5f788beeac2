import FormFlow.Json.Binary64

/-!
# The value of a number

An integer that fits 64 bits, signed or unsigned, keeps its value. Every other number is
real: one with a fraction or an exponent, one beyond 64 bits, and negative zero, which is no
integer. The value of a real number starts from a significand of at most 64 bits
(`Significand.extend`): digits are taken while they fit, and the first digit that does not
fit ends it.
-/

set_option autoImplicit false

namespace FormFlow

/-- A number as it is written. -/
structure DecimalText where
  negative : Bool
  whole : List Nat
  fraction : Option (List Nat)
  exponent : Option Int
deriving Repr

/-- What a written number denotes. -/
inductive Numeral where
  | integer (value : Int)
  | real (value : Binary64)
  | outOfRange
deriving Repr, DecidableEq, Inhabited

namespace Numeral

/-- The first value above an unsigned word of 64 bits. -/
def wordBound : Nat := UInt64.size

/-- Extends a significand digit by digit and counts the digits that fitted. -/
def extendSignificand : Nat → List Nat → Nat × Nat
  | significand, [] => (significand, 0)
  | significand, digit :: rest =>
    if significand * 10 + digit < wordBound then
      let extended := extendSignificand (significand * 10 + digit) rest
      (extended.1, extended.2 + 1)
    else (significand, 0)

/-- A real number, unless its magnitude lies beyond the format. -/
def ofMagnitude (negative : Bool) : Option Magnitude → Numeral
  | some magnitude => .real ⟨negative, magnitude⟩
  | none => .outOfRange

/-- The value of a number without fraction and exponent whose digits fit a word. -/
def ofWord (negative : Bool) (significand : Nat) : Numeral :=
  if !negative then .integer significand
  else if significand = 0 then .real ⟨true, .zero⟩
  else if significand ≤ Nat.pow 2 63 then .integer (-(significand : Int))
  else ofMagnitude true (Magnitude.ofRatio? significand 1)

/-- The value of a written number. -/
def ofText (text : DecimalText) : Numeral :=
  let whole := extendSignificand 0 text.whole
  let dropped := text.whole.length - whole.2
  match text.fraction, text.exponent with
  | none, none =>
    if dropped = 0 then ofWord text.negative whole.1
    else ofMagnitude text.negative (Magnitude.ofDecimal? whole.1 dropped)
  | fraction, exponent =>
    let all := extendSignificand whole.1 (fraction.getD [])
    ofMagnitude text.negative
      (Magnitude.ofDecimal? all.1 ((dropped : Int) - all.2 + exponent.getD 0))

end Numeral

end FormFlow
