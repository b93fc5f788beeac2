/-!
# Property names of producer edges

A producer edge names the property of its consumer that it fills. Formatters and the items
of iterations are told apart by an index between brackets; `parseFormatter?` reads the index
of a formatter back.
-/

set_option autoImplicit false

namespace FormFlow

namespace Property

/-- The submitted value that feeds an answer. -/
def post : String := "post"

/-- The default value that feeds an answer. -/
def defaultValue : String := "defaultValue"

/-- The load-transition that feeds an answer or data. -/
def onLoad : String := "onLoad"

/-- The source that feeds the item of a collection. -/
def source : String := "source"

/-- What stands in front of the index of a formatter. -/
def formatterOpening : String := "formatters["

/-- The property that the formatter at a position fills. -/
def formatter (index : Nat) : String := formatterOpening ++ toString index ++ "]"

/-- The property that the source fills in the item of an iteration. -/
def item (index : Nat) : String := "items[" ++ toString index ++ "]"

/-- Reads decimal digits, at least one, as a number below a bound. -/
def digitsBelow? (bound : Nat) (digits : List Char) : Option Nat :=
  if digits.isEmpty || digits.any (fun c => c < '0' || '9' < c) then none
  else
    let value := digits.foldl (fun value c => value * 10 + (c.toNat - '0'.toNat)) 0
    if value < bound then some value else none

/-- Reads an index: digits behind an optional plus sign, with any number of leading zeros. -/
def parseIndex? (bound : Nat) : List Char → Option Nat
  | '+' :: digits => digitsBelow? bound digits
  | digits => digitsBelow? bound digits

/-- What follows an opening in a text that starts with it. -/
def behind? : (opening text : List Char) → Option (List Char)
  | [], text => some text
  | _ :: _, [] => none
  | expected :: opening, c :: text => if c = expected then behind? opening text else none

/-- The index in the name of a formatter property. -/
def parseFormatter? (bound : Nat) (name : String) : Option Nat := do
  let inner ← behind? formatterOpening.toList name.toList
  match inner.getLast? with
  | some ']' => parseIndex? bound inner.dropLast
  | _ => none

end Property

end FormFlow
