import FormFlow.Json.Document

/-!
# Reading JSON text into a tree

`Document.ofText` reads a text into its tree. Every step consumes text, so the length of the
text bounds the number of steps. Strings are read twice over: `skipString` finds the closing
quote and checks only that escapes are well formed, `readString` also decodes them and
refuses surrogates that are not paired.
-/

set_option autoImplicit false

namespace FormFlow

namespace Scanner

/-- The four characters that may stand between tokens. -/
def isBlank (c : Char) : Bool := c = ' ' || c = '\n' || c = '\t' || c = '\r'

/-- The text after leading blanks. -/
def skipBlanks : List Char → List Char
  | [] => []
  | c :: rest => if isBlank c then skipBlanks rest else c :: rest

/-- The value of a hexadecimal digit. -/
def hexValue? (c : Char) : Option Nat :=
  if '0' ≤ c ∧ c ≤ '9' then some (c.toNat - '0'.toNat)
  else if 'a' ≤ c ∧ c ≤ 'f' then some (c.toNat - 'a'.toNat + 10)
  else if 'A' ≤ c ∧ c ≤ 'F' then some (c.toNat - 'A'.toNat + 10)
  else none

/-- The number of bytes that characters occupy in UTF-8. -/
def byteLength (text : List Char) : Nat := (text.map Char.utf8Size).foldl (· + ·) 0

/-- The unit that the next four bytes write in hexadecimal. With fewer than four bytes left
the text ends too early, whatever they are. -/
def hexUnit : List Char → Except TextFault (Nat × List Char)
  | a :: b :: c :: d :: rest =>
    match hexValue? a, hexValue? b, hexValue? c, hexValue? d with
    | some w, some x, some y, some z => .ok (((w * 16 + x) * 16 + y) * 16 + z, rest)
    | _, _, _, _ => .error .malformed
  | short => .error (if byteLength short < 4 then .truncated else .malformed)

/-- Whether a unit is the first half of a surrogate pair. -/
def isHighSurrogate (unit : Nat) : Bool := 0xD800 ≤ unit && unit ≤ 0xDBFF

/-- Whether a unit is the second half of a surrogate pair. -/
def isLowSurrogate (unit : Nat) : Bool := 0xDC00 ≤ unit && unit ≤ 0xDFFF

/-- The character that an escaped unit stands for, with a second unit if it takes one. -/
def unicodeEscape (text : List Char) : Except TextFault (Char × List Char) := do
  let (unit, rest) ← hexUnit text
  if isLowSurrogate unit then .error .malformed
  else if isHighSurrogate unit then
    match rest with
    | '\\' :: 'u' :: more => do
      let (second, after) ← hexUnit more
      if isLowSurrogate second then
        .ok (Char.ofNat ((unit - 0xD800) * 0x400 + (second - 0xDC00) + 0x10000), after)
      else .error .malformed
    | [] => .error .truncated
    | ['\\'] => .error .truncated
    | _ => .error .malformed
  else .ok (Char.ofNat unit, rest)

/-- The character that a letter after a backslash stands for. -/
def simpleEscape? (c : Char) : Option Char :=
  if c = '"' || c = '\\' || c = '/' then some c
  else if c = 'b' then some (Char.ofNat 8)
  else if c = 'f' then some (Char.ofNat 12)
  else if c = 'n' then some '\n'
  else if c = 'r' then some '\r'
  else if c = 't' then some '\t'
  else none

/-- Decodes the rest of a string up to its closing quote. -/
def readString : (fuel : Nat) → List Char → Except TextFault (List Char)
  | 0, _ => .error .truncated
  | _, [] => .error .truncated
  | _ + 1, '"' :: _ => .ok []
  | _ + 1, ['\\'] => .error .truncated
  | fuel + 1, '\\' :: c :: rest =>
    if c = 'u' then do
      let (decoded, after) ← unicodeEscape rest
      return decoded :: (← readString fuel after)
    else match simpleEscape? c with
      | some decoded => do return decoded :: (← readString fuel rest)
      | none => .error .malformed
  | fuel + 1, c :: rest =>
    if c.toNat < 32 then .error .malformed
    else do return c :: (← readString fuel rest)

/-- The text behind the closing quote of a string. -/
def skipString : (fuel : Nat) → List Char → Except TextFault (List Char)
  | 0, _ => .error .truncated
  | _, [] => .error .truncated
  | _ + 1, '"' :: rest => .ok rest
  | _ + 1, ['\\'] => .error .truncated
  | fuel + 1, '\\' :: c :: rest =>
    if c = 'u' then do
      let (_, after) ← hexUnit rest
      skipString fuel after
    else if (simpleEscape? c).isSome then skipString fuel rest
    else .error .malformed
  | fuel + 1, c :: rest => if c.toNat < 32 then .error .malformed else skipString fuel rest

/-- The string whose opening quote was just read, and the text behind it. -/
def scanString (text : List Char) : Document × List Char :=
  let decoded := readString (text.length + 1) text
  match skipString (text.length + 1) text with
  | .ok rest => (.string (decoded.map String.ofList), rest)
  | .error fault =>
    match decoded with
    | .error whenRead => (.broken ⟨whenRead, fault, whenRead, whenRead⟩, [])
    | .ok _ => (.broken (.plain fault), [])

/-- A decimal digit. -/
def isDigit (c : Char) : Bool := '0' ≤ c && c ≤ '9'

/-- The digits at the start of a text and what follows them. -/
def takeDigits : List Char → List Nat × List Char
  | [] => ([], [])
  | c :: rest =>
    if isDigit c then
      let more := takeDigits rest
      ((c.toNat - '0'.toNat) :: more.1, more.2)
    else ([], c :: rest)

/-- A number that is cut short by the end of the text or by another character. -/
def brokenNumber (rest : List Char) : Document :=
  .broken ⟨if rest.isEmpty then .truncated else .malformed, .malformed, .malformed, .malformed⟩

/-- The digits before the point: at least one, and nothing after a leading zero. -/
def wholePart (text : List Char) : Except Document (List Nat × List Char) :=
  let (digits, rest) := takeDigits text
  match digits with
  | [] => .error (brokenNumber rest)
  | 0 :: _ :: _ => .error (.broken (.plain .malformed))
  | _ => .ok (digits, rest)

/-- The digits behind a point, if there is one. -/
def fractionPart : List Char → Except Document (Option (List Nat) × List Char)
  | '.' :: text =>
    match takeDigits text with
    | ([], rest) => .error (brokenNumber rest)
    | (digits, rest) => .ok (some digits, rest)
  | text => .ok (none, text)

/-- A sign and the text behind it. -/
def takeSign : List Char → Bool × List Char
  | '+' :: rest => (false, rest)
  | '-' :: rest => (true, rest)
  | text => (false, text)

/-- The number that digits write. -/
def ofDigits (digits : List Nat) : Nat := digits.foldl (fun value digit => value * 10 + digit) 0

/-- The signed exponent, if there is one. -/
def exponentPart : List Char → Except Document (Option Int × List Char)
  | c :: text =>
    if c = 'e' || c = 'E' then
      let (negative, unsigned) := takeSign text
      match takeDigits unsigned with
      | ([], rest) => .error (brokenNumber rest)
      | (digits, rest) =>
        let value : Int := ofDigits digits
        .ok (some (if negative then -value else value), rest)
    else .ok (none, c :: text)
  | [] => .ok (none, [])

/-- An unsigned number with its sign already read. -/
def scanNumber (negative : Bool) (text : List Char) : Document × List Char :=
  let parts : Except Document (DecimalText × List Char) := do
    let (whole, afterWhole) ← wholePart text
    let (fraction, afterFraction) ← fractionPart afterWhole
    let (exponent, rest) ← exponentPart afterFraction
    return (⟨negative, whole, fraction, exponent⟩, rest)
  match parts with
  | .ok (number, rest) => (.number (Numeral.ofText number), rest)
  | .error document => (document, [])

/-- A word that the end of the text cuts short. -/
def cutWord : Document → Document
  | .null => .broken ⟨.truncated, .truncated, .malformed, .truncated⟩
  | _ => .broken ⟨.truncated, .truncated, .malformed, .malformed⟩

/-- A word that must go on with the given letters. -/
def scanWord (value : Document) : List Char → List Char → Document × List Char
  | [], rest => (value, rest)
  | _ :: _, [] => (cutWord value, [])
  | expected :: letters, c :: rest =>
    if c = expected then scanWord value letters rest else (.broken (.plain .malformed), [])

mutual
/-- The value at the start of a text and what follows it. -/
def scanValue : (fuel : Nat) → List Char → Document × List Char
  | 0, _ => (.broken (.plain .truncated), [])
  | fuel + 1, text =>
    match skipBlanks text with
    | [] => (.broken (.plain .truncated), [])
    | '"' :: rest => scanString rest
    | '[' :: rest =>
      match skipBlanks rest with
      | [] => (.array [] .cut, [])
      | ']' :: after => (.array [] .closed, after)
      | inner =>
        let (items, ending, after) := scanItems fuel inner
        (.array items ending, after)
    | '{' :: rest =>
      match skipBlanks rest with
      | '}' :: after => (.object [] .closed, after)
      | [] => (.object [] .cut, [])
      | inner =>
        let (members, ending, after) := scanMembers fuel inner
        (.object members ending, after)
    | 'n' :: rest => scanWord .null ['u', 'l', 'l'] rest
    | 't' :: rest => scanWord (.bool true) ['r', 'u', 'e'] rest
    | 'f' :: rest => scanWord (.bool false) ['a', 'l', 's', 'e'] rest
    | '-' :: rest => scanNumber true rest
    | c :: rest =>
      if isDigit c then scanNumber false (c :: rest) else (.broken (.plain .malformed), [])

/-- Array elements, of which at least one has to follow. -/
def scanItems : (fuel : Nat) → List Char → List Document × Ending × List Char
  | 0, _ => ([], .cut, [])
  | fuel + 1, text =>
    let (item, afterItem) := scanValue fuel text
    match skipBlanks afterItem with
    | [] => ([item], .cut, [])
    | ']' :: rest => ([item], .closed, rest)
    | ',' :: rest =>
      let (items, ending, after) := scanItems fuel rest
      (item :: items, ending, after)
    | _ => ([item], .stray, [])

/-- Object members, of which at least one has to follow. -/
def scanMembers :
    (fuel : Nat) → List Char → List (Document × Document) × Ending × List Char
  | 0, _ => ([], .cut, [])
  | fuel + 1, text =>
    match skipBlanks text with
    | [] => ([], .cutAfterComma, [])
    | '"' :: rest =>
      let (key, afterKey) := scanString rest
      match skipBlanks afterKey with
      | [] => ([(key, .broken (.plain .truncated))], .cut, [])
      | ':' :: afterColon =>
        let (value, afterValue) := scanValue fuel afterColon
        match skipBlanks afterValue with
        | [] => ([(key, value)], .cut, [])
        | '}' :: after => ([(key, value)], .closed, after)
        | ',' :: more =>
          let (members, ending, after) := scanMembers fuel more
          ((key, value) :: members, ending, after)
        | _ => ([(key, value)], .stray, [])
      | _ => ([(key, .broken (.plain .malformed))], .stray, [])
    | _ => ([], .stray, [])
end

end Scanner

/-- The tree of a text, and whether anything but blanks follows the value. -/
def Document.ofText (text : String) : Document × Bool :=
  let characters := text.toList
  let (document, rest) := Scanner.scanValue (2 * characters.length + 2) characters
  (document, !(Scanner.skipBlanks rest).isEmpty)

end FormFlow
