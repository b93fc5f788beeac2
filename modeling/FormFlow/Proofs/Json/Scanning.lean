import FormFlow.Json.Printer
import FormFlow.Json.Scanner
import FormFlow.Proofs.Except
import Mathlib.Algebra.Ring.Int.Defs

/-!
# Scanning what was written

The scanner finds in the text of a value the tree of that value, in compact and in pretty
layout alike (`Scanner.ofText_write`). This holds for values without real numbers whose
integers fit into 64 bits (`Scanner.Exact`); real numbers are rounded when they are read.

A text is cut into tokens from the left, so every lemma is about a text with something behind
it. Behind a string that may be anything, since the closing quote ends it. A number has no
end of its own: what comes next must not go on with it (`Scanner.Stops`), which a comma, a
closing bracket and a blank do not.
-/

set_option autoImplicit false

namespace FormFlow

open Json

namespace Scanner

/-! ## Strings -/

/-- Whatever is below the number of steps leaves one step to take. -/
theorem exists_eq_succ {needed fuel : Nat} (enough : needed < fuel) : ∃ rest, fuel = rest + 1 :=
  Nat.exists_eq_succ_of_ne_zero (Nat.ne_of_gt (Nat.zero_lt_of_lt enough))

theorem hexValue?_hexDigit : ∀ value < 16, hexValue? (hexDigit value) = some value := by decide

/-- A control character is escaped by its code. -/
theorem hexUnit_control {code : Nat} (low : code < 32) (rest : List Char) :
    hexUnit ('0' :: '0' :: hexDigit (code / 16) :: hexDigit (code % 16) :: rest) =
      .ok (code, rest) := by
  have zero : hexValue? '0' = some 0 := by decide
  rw [hexUnit, zero, hexValue?_hexDigit _ (by omega), hexValue?_hexDigit _ (by omega)]
  simp only [Except.ok.injEq, Prod.mk.injEq, and_true]
  omega

theorem unicodeEscape_control {c : Char} (low : c.toNat < 32) (rest : List Char) :
    unicodeEscape ('0' :: '0' :: hexDigit (c.toNat / 16) :: hexDigit (c.toNat % 16) :: rest) =
      .ok (c, rest) := by
  have lower : isLowSurrogate c.toNat = false := by simp [isLowSurrogate]; omega
  have upper : isHighSurrogate c.toNat = false := by simp [isHighSurrogate]; omega
  rw [unicodeEscape, hexUnit_control low]
  show (if isLowSurrogate c.toNat = true then _ else _) = _
  simp only [lower, upper, Bool.false_eq_true, if_false, Char.ofNat_toNat]

/-- The ways in which a character of a string is written. -/
inductive Escape (c : Char) : List Char → Prop where
  /-- By a letter of its own. -/
  | letter {name : Char} : name ≠ 'u' → simpleEscape? name = some c → Escape c ['\\', name]
  /-- By its code. -/
  | code : c.toNat < 32 →
    Escape c ['\\', 'u', '0', '0', hexDigit (c.toNat / 16), hexDigit (c.toNat % 16)]
  /-- As it is. -/
  | plain : c ≠ '"' → c ≠ '\\' → ¬c.toNat < 32 → Escape c [c]

theorem escape_escapeChar (c : Char) : Escape c (escapeChar c) := by
  unfold escapeChar
  split_ifs with quote backslash line carriage tab backspace feed control
  · subst quote
    exact .letter (by decide) rfl
  · subst backslash
    exact .letter (by decide) rfl
  · subst line
    exact .letter (by decide) rfl
  · subst carriage
    exact .letter (by decide) rfl
  · subst tab
    exact .letter (by decide) rfl
  · subst backspace
    exact .letter (by decide) rfl
  · subst feed
    exact .letter (by decide) rfl
  · exact .code control
  · exact .plain quote backslash control

theorem readString_escapeChar (fuel : Nat) (c : Char) (rest : List Char) :
    readString (fuel + 1) (escapeChar c ++ rest) = (c :: ·) <$> readString fuel rest := by
  have escape := escape_escapeChar c
  generalize escapeChar c = written at escape
  cases escape with
  | letter other known =>
    simp only [List.cons_append, List.nil_append, readString, if_neg other, known]
    rfl
  | code control =>
    simp only [List.cons_append, List.nil_append, readString, unicodeEscape_control control]
    rfl
  | plain quote backslash control =>
    rw [List.singleton_append, readString, if_neg control]
    · rfl
    · exact quote
    · exact fun same _ => backslash same
    · exact fun _ _ same => absurd same backslash

theorem skipString_escapeChar (fuel : Nat) (c : Char) (rest : List Char) :
    skipString (fuel + 1) (escapeChar c ++ rest) = skipString fuel rest := by
  have escape := escape_escapeChar c
  generalize escapeChar c = written at escape
  cases escape with
  | letter other known =>
    simp only [List.cons_append, List.nil_append, skipString, if_neg other, known]
    rfl
  | code control =>
    simp only [List.cons_append, List.nil_append, skipString, hexUnit_control control]
    rfl
  | plain quote backslash control =>
    rw [List.singleton_append, skipString, if_neg control]
    · exact quote
    · exact fun same _ => backslash same
    · exact fun _ _ same => absurd same backslash

/-- Decoding gives back the characters that were escaped. -/
theorem readString_escaped (text rest : List Char) {fuel : Nat} (enough : text.length < fuel) :
    readString fuel (text.flatMap escapeChar ++ '"' :: rest) = .ok text := by
  induction text generalizing fuel with
  | nil =>
    obtain ⟨fuel, rfl⟩ := exists_eq_succ enough
    rfl
  | cons c text ih =>
    obtain ⟨fuel, rfl⟩ := exists_eq_succ enough
    rw [List.flatMap_cons, List.append_assoc, readString_escapeChar,
      ih (Nat.lt_of_succ_lt_succ enough)]
    rfl

/-- The closing quote is found behind the escaped characters. -/
theorem skipString_escaped (text rest : List Char) {fuel : Nat} (enough : text.length < fuel) :
    skipString fuel (text.flatMap escapeChar ++ '"' :: rest) = .ok rest := by
  induction text generalizing fuel with
  | nil =>
    obtain ⟨fuel, rfl⟩ := exists_eq_succ enough
    rfl
  | cons c text ih =>
    obtain ⟨fuel, rfl⟩ := exists_eq_succ enough
    rw [List.flatMap_cons, List.append_assoc, skipString_escapeChar,
      ih (Nat.lt_of_succ_lt_succ enough)]

theorem one_le_length_escapeChar (c : Char) : 1 ≤ (escapeChar c).length := by
  unfold escapeChar
  split_ifs <;> simp

theorem length_le_escaped (text : List Char) : text.length ≤ (text.flatMap escapeChar).length := by
  induction text with
  | nil => simp
  | cons c text ih =>
    have := one_le_length_escapeChar c
    rw [List.flatMap_cons, List.length_append, List.length_cons]
    omega

/-- A written string is scanned as itself. -/
theorem scanString_escaped (s : String) (rest : List Char) :
    scanString (s.toList.flatMap escapeChar ++ '"' :: rest) = (.string (.ok s), rest) := by
  have enough : s.toList.length < (s.toList.flatMap escapeChar ++ '"' :: rest).length + 1 := by
    have := length_le_escaped s.toList
    rw [List.length_append]
    omega
  rw [scanString, readString_escaped _ _ enough, skipString_escaped _ _ enough]
  simp [Except.map]

/-! ## Numbers -/

/-- What comes next does not go on with a number. -/
def Stops : List Char → Prop
  | [] => True
  | c :: _ => isDigit c = false ∧ c ≠ '.' ∧ c ≠ 'e' ∧ c ≠ 'E'

/-- The value of a digit. -/
def digitValue (c : Char) : Nat := c.toNat - '0'.toNat

theorem digitChar_spec : ∀ digit < 10,
    isDigit digit.digitChar = true ∧ digitValue digit.digitChar = digit := by decide

theorem takeDigits_of_stops {rest : List Char} (stops : Stops rest) :
    takeDigits rest = ([], rest) := by
  cases rest with
  | nil => rfl
  | cons c rest => rw [takeDigits, if_neg (by simp [stops.1])]

theorem takeDigits_append {text rest : List Char} (digits : ∀ c ∈ text, isDigit c = true)
    (stops : Stops rest) : takeDigits (text ++ rest) = (text.map digitValue, rest) := by
  induction text with
  | nil => exact takeDigits_of_stops stops
  | cons c text ih =>
    rw [List.cons_append, takeDigits, if_pos (digits c (List.mem_cons_self ..)),
      ih fun other member => digits other (List.mem_cons_of_mem _ member)]
    rfl

theorem isDigit_of_mem_toDigits (number : Nat) :
    ∀ c ∈ Nat.toDigits 10 number, isDigit c = true := by
  induction number using Nat.strongRecOn with
  | ind number ih =>
    intro c member
    rw [Nat.toDigits_eq_if (by decide)] at member
    split at member
    · rename_i small
      rw [List.mem_singleton.1 member]
      exact (digitChar_spec number small).1
    · rcases List.mem_append.1 member with earlier | last
      · exact ih (number / 10) (by omega) c earlier
      · rw [List.mem_singleton.1 last]
        exact (digitChar_spec _ (Nat.mod_lt _ (by decide))).1

/-- The digits of a number are more than none, and the first of several is not zero. -/
theorem exists_toDigits_eq (number : Nat) : ∃ first others,
    (Nat.toDigits 10 number).map digitValue = first :: others ∧
      (first = 0 → number = 0 ∧ others = []) := by
  induction number using Nat.strongRecOn with
  | ind number ih =>
    rw [Nat.toDigits_eq_if (by decide)]
    split
    · rename_i small
      exact ⟨number, [], by simp [(digitChar_spec number small).2], fun zero => ⟨zero, rfl⟩⟩
    · obtain ⟨first, others, same, single⟩ := ih (number / 10) (by omega)
      refine ⟨first, _, by rw [List.map_append, same]; rfl, fun zero => ?_⟩
      have none := (single zero).1
      omega

/-- One more digit is taken if all digits before it were taken and it fits. -/
theorem extendSignificand_concat {start digit reached : Nat} {digits : List Nat}
    (all : Numeral.extendSignificand start digits = (reached, digits.length))
    (fits : reached * 10 + digit < Numeral.wordBound) :
    Numeral.extendSignificand start (digits ++ [digit]) =
      (reached * 10 + digit, digits.length + 1) := by
  induction digits generalizing start with
  | nil =>
    cases all
    simp only [List.nil_append, Numeral.extendSignificand, if_pos fits, List.length_nil]
  | cons first rest ih =>
    rw [Numeral.extendSignificand] at all
    split at all
    · rename_i fit
      simp only [Prod.mk.injEq, List.length_cons, Nat.add_right_cancel_iff] at all
      have shorter := ih (Prod.ext all.1 all.2)
      simp only [List.cons_append, Numeral.extendSignificand, if_pos fit, shorter, List.length_cons]
    · cases all

/-- The digits of a word are its significand, and none is dropped. -/
theorem extendSignificand_toDigits {number : Nat} (fits : number < Numeral.wordBound) :
    Numeral.extendSignificand 0 ((Nat.toDigits 10 number).map digitValue) =
      (number, ((Nat.toDigits 10 number).map digitValue).length) := by
  induction number using Nat.strongRecOn with
  | ind number ih =>
    rw [Nat.toDigits_eq_if (by decide)]
    split
    · rename_i small
      simp [Numeral.extendSignificand, (digitChar_spec number small).2, fits]
    · have last := (digitChar_spec (number % 10) (Nat.mod_lt _ (by decide))).2
      have shorter := ih (number / 10) (by omega) (by omega)
      have whole : number / 10 * 10 + number % 10 = number := by omega
      rw [List.map_append, List.map_singleton, last,
        extendSignificand_concat shorter (by omega), whole]
      simp

theorem wholePart_toDigits (number : Nat) {rest : List Char} (stops : Stops rest) :
    wholePart (Nat.toDigits 10 number ++ rest) =
      .ok ((Nat.toDigits 10 number).map digitValue, rest) := by
  rw [wholePart, takeDigits_append (isDigit_of_mem_toDigits number) stops]
  obtain ⟨first, others, same, single⟩ := exists_toDigits_eq number
  simp only [same]
  match first, others with
  | 0, [] => rfl
  | 0, _ :: _ => cases (single rfl).2
  | first + 1, _ => rfl

theorem fractionPart_of_stops {rest : List Char} (stops : Stops rest) :
    fractionPart rest = .ok (none, rest) := by
  unfold fractionPart
  split
  · exact absurd rfl stops.2.1
  · rfl

theorem exponentPart_of_stops {rest : List Char} (stops : Stops rest) :
    exponentPart rest = .ok (none, rest) := by
  cases rest with
  | nil => rfl
  | cons c rest => simp [exponentPart, stops.2.2.1, stops.2.2.2]

theorem scanNumber_toDigits (negative : Bool) {number : Nat} (fits : number < Numeral.wordBound)
    {rest : List Char} (stops : Stops rest) :
    scanNumber negative (Nat.toDigits 10 number ++ rest) =
      (.number (Numeral.ofWord negative number), rest) := by
  rw [scanNumber, wholePart_toDigits number stops]
  simp only [bind, Except.bind, fractionPart_of_stops stops, exponentPart_of_stops stops, pure,
    Except.pure]
  simp [Numeral.ofText, extendSignificand_toDigits fits]

/-! ## Blanks -/

/-- A layout that writes nothing but blanks between tokens. -/
structure Airy (layout : Layout) : Prop where
  lineBreak : ∀ level, ∀ c ∈ layout.lineBreak level, isBlank c = true
  afterColon : ∀ c ∈ layout.afterColon, isBlank c = true

theorem airy_compact : Airy .compact := ⟨nofun, nofun⟩

theorem airy_pretty : Airy .pretty where
  lineBreak level c member := by
    rcases List.mem_cons.1 member with rfl | space
    · rfl
    · rw [List.eq_of_mem_replicate space]
      rfl
  afterColon c member := by
    rw [List.mem_singleton.1 member]
    rfl

theorem skipBlanks_append {blank : List Char} (blanks : ∀ c ∈ blank, isBlank c = true)
    (text : List Char) : skipBlanks (blank ++ text) = skipBlanks text := by
  induction blank with
  | nil => rfl
  | cons c blank ih =>
    rw [List.cons_append, skipBlanks, if_pos (blanks c (List.mem_cons_self ..))]
    exact ih fun other member => blanks other (List.mem_cons_of_mem _ member)

theorem stops_of_isBlank {c : Char} (blank : isBlank c = true) (rest : List Char) :
    Stops (c :: rest) := by
  simp only [isBlank, Bool.or_eq_true, decide_eq_true_eq] at blank
  rcases blank with ((rfl | rfl) | rfl) | rfl <;> exact ⟨rfl, by decide, by decide, by decide⟩

theorem stops_append {blank text : List Char} (blanks : ∀ c ∈ blank, isBlank c = true)
    (stops : Stops text) : Stops (blank ++ text) := by
  cases blank with
  | nil => exact stops
  | cons c blank => exact stops_of_isBlank (blanks c (List.mem_cons_self ..)) _

/-- A value without real numbers whose integers fit into 64 bits. -/
inductive Exact : Json → Prop where
  | null : Exact .null
  | bool (value : Bool) : Exact (.bool value)
  | int {value : Int} : -2 ^ 63 ≤ value → value < Numeral.wordBound → Exact (.int value)
  | str (value : String) : Exact (.str value)
  | arr {items : List Json} : (∀ item ∈ items, Exact item) → Exact (.arr items)
  | obj {members : List (String × Json)} : (∀ member ∈ members, Exact member.2) →
    Exact (.obj members)

theorem not_isBlank_of_isDigit {c : Char} (digit : isDigit c = true) : isBlank c = false := by
  by_contra blank
  simp only [isBlank, Bool.or_eq_true, decide_eq_true_eq, Bool.not_eq_false] at blank
  rcases blank with ((rfl | rfl) | rfl) | rfl <;> exact absurd digit (by decide)

theorem skipBlanks_of_not {c : Char} (dark : isBlank c = false) (rest : List Char) :
    skipBlanks (c :: rest) = c :: rest := by
  rw [skipBlanks, if_neg (by simp [dark])]

theorem scanValue_of_isDigit {c : Char} (digit : isDigit c = true) (fuel : Nat)
    (rest : List Char) : scanValue (fuel + 1) (c :: rest) = scanNumber false (c :: rest) := by
  rw [scanValue, skipBlanks_of_not (not_isBlank_of_isDigit digit)]
  split
  case h_9 =>
    rename_i same
    cases same
    rw [if_pos digit]
  all_goals
    rename_i same
    cases same <;> exact absurd digit (by decide)

/-- A number is written with a first digit. -/
theorem exists_toDigits_cons (number : Nat) : ∃ c rest,
    Nat.toDigits 10 number = c :: rest ∧ isDigit c = true := by
  obtain ⟨first, others, same, -⟩ := exists_toDigits_eq number
  obtain ⟨c, rest, written, -, -⟩ := List.map_eq_cons_iff.1 same
  exact ⟨c, rest, written, isDigit_of_mem_toDigits number c (written ▸ List.mem_cons_self ..)⟩

theorem writeInt_of_neg {value : Int} (negative : value < 0) :
    writeInt value = '-' :: Nat.toDigits 10 value.natAbs := by
  simp [writeInt, negative, Nat.repr]

theorem writeInt_of_nonneg {value : Int} (positive : ¬value < 0) :
    writeInt value = Nat.toDigits 10 value.natAbs := by
  simp [writeInt, positive, Nat.repr]

/-- The text of an integer of 64 bits denotes it. -/
theorem scanValue_writeInt {value : Int} (low : -2 ^ 63 ≤ value)
    (high : value < Numeral.wordBound) (fuel : Nat) {rest : List Char} (stops : Stops rest) :
    scanValue (fuel + 1) (writeInt value ++ rest) = (.number (.integer value), rest) := by
  have bound : (Numeral.wordBound : Int) = 2 ^ 64 := rfl
  have fits : value.natAbs < Numeral.wordBound := by omega
  by_cases negative : value < 0
  · rw [writeInt_of_neg negative, List.cons_append]
    change scanNumber true _ = _
    rw [scanNumber_toDigits true fits stops]
    have small : value.natAbs ≤ Nat.pow 2 63 := by
      change value.natAbs ≤ 2 ^ 63
      omega
    rw [Numeral.ofWord, if_neg (by decide), if_neg (by omega), if_pos small]
    have same : -(value.natAbs : Int) = value := by omega
    rw [same]
  · rw [writeInt_of_nonneg negative]
    obtain ⟨c, others, written, digit⟩ := exists_toDigits_cons value.natAbs
    have scanned := scanNumber_toDigits false fits stops
    rw [written, List.cons_append] at scanned ⊢
    rw [scanValue_of_isDigit digit, scanned, Numeral.ofWord, if_pos (by decide)]
    have same : (value.natAbs : Int) = value := by omega
    rw [same]

/-- The text of a value starts with a character that is no blank and closes no array. -/
theorem exists_write_eq {value : Json} (exact : Exact value) (layout : Layout) (level : Nat) :
    ∃ c rest, value.write layout level = c :: rest ∧ isBlank c = false ∧ c ≠ ']' := by
  cases exact with
  | null => exact ⟨_, _, rfl, rfl, by decide⟩
  | bool value => cases value <;> exact ⟨_, _, rfl, rfl, by decide⟩
  | @int value =>
    by_cases negative : value < 0
    · exact ⟨_, _, by rw [write, writeInt_of_neg negative], rfl, by decide⟩
    · obtain ⟨c, others, written, digit⟩ := exists_toDigits_cons value.natAbs
      refine ⟨c, others, by rw [write, writeInt_of_nonneg negative, written],
        not_isBlank_of_isDigit digit, ?_⟩
      rintro rfl
      exact absurd digit (by decide)
  | str value => exact ⟨_, _, rfl, rfl, by decide⟩
  | @arr items => cases items <;> exact ⟨_, _, by rw [write], rfl, by decide⟩
  | @obj members =>
    cases members with
    | nil => exact ⟨_, _, by rw [write], rfl, by decide⟩
    | cons member rest =>
      cases member
      exact ⟨_, _, by rw [write], rfl, by decide⟩

/-- Blanks before a value do not matter. -/
theorem scanValue_append {blank : List Char} (blanks : ∀ c ∈ blank, isBlank c = true)
    (fuel : Nat) (text : List Char) : scanValue fuel (blank ++ text) = scanValue fuel text := by
  cases fuel with
  | zero => rfl
  | succ fuel => rw [scanValue, scanValue, skipBlanks_append blanks]

/-- The text of a value, whatever level it stands at and whatever comes next, is scanned as the
tree of the value. -/
def Scans (layout : Layout) (value : Json) : Prop :=
  ∀ level fuel rest, 2 * (value.write layout level).length < fuel → Stops rest →
    scanValue fuel (value.write layout level ++ rest) = (Document.ofJson value, rest)

/-- Blanks before the first of several elements do not matter. -/
theorem scanItems_append {blank : List Char} (blanks : ∀ c ∈ blank, isBlank c = true)
    (fuel : Nat) (text : List Char) : scanItems fuel (blank ++ text) = scanItems fuel text := by
  cases fuel with
  | zero => rfl
  | succ fuel => rw [scanItems, scanItems, scanValue_append blanks]

theorem scanMembers_append {blank : List Char} (blanks : ∀ c ∈ blank, isBlank c = true)
    (fuel : Nat) (text : List Char) : scanMembers fuel (blank ++ text) = scanMembers fuel text := by
  cases fuel with
  | zero => rfl
  | succ fuel => rw [scanMembers, scanMembers, skipBlanks_append blanks]

theorem stops_closing {closing : Char} (closes : closing = ']' ∨ closing = '}')
    (rest : List Char) : Stops (closing :: rest) := by
  rcases closes with rfl | rfl <;> exact ⟨rfl, by decide, by decide, by decide⟩

theorem stops_comma (rest : List Char) : Stops (',' :: rest) :=
  ⟨rfl, by decide, by decide, by decide⟩

section Containers

variable {layout : Layout} (airy : Airy layout)
include airy

/-- The elements up to the closing bracket, of which there is at least one. -/
theorem scanItems_write {item : Json} {items : List Json} (scans : Scans layout item)
    (each : ∀ other ∈ items, Scans layout other) (level outer fuel : Nat) (after : List Char)
    (enough : 2 * (item.write layout level ++ writeItems layout level items).length + 1 < fuel) :
    scanItems fuel (item.write layout level ++
        (writeItems layout level items ++ (layout.lineBreak outer ++ ']' :: after))) =
      (Document.ofItems (item :: items), .closed, after) := by
  induction items generalizing item fuel with
  | nil =>
    obtain ⟨fuel, rfl⟩ := exists_eq_succ enough
    rw [writeItems, List.append_nil] at enough
    rw [scanItems, writeItems, List.nil_append, scans level fuel _ (by omega)
      (stops_append (airy.lineBreak outer) (stops_closing (.inl rfl) after))]
    simp only [skipBlanks_append (airy.lineBreak outer)]
    rfl
  | cons next items ih =>
    obtain ⟨fuel, rfl⟩ := exists_eq_succ enough
    simp only [writeItems, List.length_append, List.length_cons] at enough
    have later := ih (each next (List.mem_cons_self ..))
      (fun other member => each other (List.mem_cons_of_mem _ member)) fuel
      (by rw [List.length_append]; omega)
    simp only [writeItems, List.cons_append, List.append_assoc]
    rw [scanItems, scans level fuel _ (by omega) (stops_comma _)]
    simp only [skipBlanks_of_not (show isBlank ',' = false from rfl),
      scanItems_append (airy.lineBreak level), later]
    rfl

/-- The members up to the closing bracket, of which there is at least one. -/
theorem scanMembers_write (key : String) {value : Json} {members : List (String × Json)}
    (scans : Scans layout value) (each : ∀ other ∈ members, Scans layout other.2)
    (level outer fuel : Nat) (after : List Char)
    (enough : 2 * (value.write layout level ++ writeMembers layout level members).length + 1 <
      fuel) :
    scanMembers fuel (writeString key ++ ':' :: (layout.afterColon ++ (value.write layout level ++
        (writeMembers layout level members ++ (layout.lineBreak outer ++ '}' :: after))))) =
      (Document.ofMembers ((key, value) :: members), .closed, after) := by
  induction members generalizing key value fuel with
  | nil =>
    obtain ⟨fuel, rfl⟩ := exists_eq_succ enough
    rw [writeMembers, List.append_nil] at enough
    have scanned := scans level fuel (layout.lineBreak outer ++ '}' :: after) (by omega)
      (stops_append (airy.lineBreak outer) (stops_closing (.inr rfl) after))
    simp only [writeString, List.cons_append, List.append_assoc, List.nil_append, writeMembers]
    rw [scanMembers]
    simp only [skipBlanks_of_not (show isBlank '"' = false from rfl), scanString_escaped,
      skipBlanks_of_not (show isBlank ':' = false from rfl), scanValue_append airy.afterColon,
      scanned, skipBlanks_append (airy.lineBreak outer)]
    rfl
  | cons next members ih =>
    obtain ⟨fuel, rfl⟩ := exists_eq_succ enough
    obtain ⟨nextKey, nextValue⟩ := next
    simp only [writeMembers, List.length_append, List.length_cons] at enough
    have first : Scans layout nextValue := each (nextKey, nextValue) (List.mem_cons_self ..)
    have later := ih nextKey first
      (fun other member => each other (List.mem_cons_of_mem _ member)) fuel
      (by rw [List.length_append]; omega)
    simp only [writeMembers, writeString, List.cons_append, List.append_assoc, List.nil_append]
      at later ⊢
    rw [scanMembers]
    simp only [skipBlanks_of_not (show isBlank '"' = false from rfl), scanString_escaped,
      skipBlanks_of_not (show isBlank ':' = false from rfl), scanValue_append airy.afterColon]
    rw [scans level fuel _ (by omega) (stops_comma _)]
    simp only [skipBlanks_of_not (show isBlank ',' = false from rfl),
      scanMembers_append (airy.lineBreak level), later]
    rfl

theorem Scans.arr {items : List Json} (exact : ∀ item ∈ items, Exact item)
    (each : ∀ item ∈ items, Scans layout item) : Scans layout (.arr items) := by
  intro level fuel rest enough stops
  obtain ⟨fuel, rfl⟩ := exists_eq_succ enough
  cases items with
  | nil => rfl
  | cons item items =>
    simp only [write, List.length_cons, List.length_append, List.length_nil] at enough
    have scanned := scanItems_write airy (each item (List.mem_cons_self ..))
      (fun other member => each other (List.mem_cons_of_mem _ member)) (level + 1) level fuel rest
      (by rw [List.length_append]; omega)
    -- The first element starts with something that is neither blank nor the closing bracket.
    obtain ⟨c, text, written, dark, opening⟩ :=
      exists_write_eq (exact item (List.mem_cons_self ..)) layout (level + 1)
    simp only [write, List.cons_append, List.append_assoc, List.nil_append]
    rw [written, List.cons_append] at scanned ⊢
    rw [scanValue, skipBlanks_of_not rfl]
    simp only [skipBlanks_append (airy.lineBreak (level + 1)), skipBlanks_of_not dark]
    split
    · rename_i same
      cases same
    · rename_i same
      cases same
      exact absurd rfl opening
    · simp only [scanned]
      rfl

theorem Scans.obj {members : List (String × Json)}
    (each : ∀ member ∈ members, Scans layout member.2) : Scans layout (.obj members) := by
  intro level fuel rest enough stops
  obtain ⟨fuel, rfl⟩ := exists_eq_succ enough
  cases members with
  | nil => rfl
  | cons member members =>
    obtain ⟨key, value⟩ := member
    simp only [write, List.length_cons, List.length_append, List.length_nil] at enough
    have first : Scans layout value := each (key, value) (List.mem_cons_self ..)
    have scanned := scanMembers_write airy key first
      (fun other member => each other (List.mem_cons_of_mem _ member)) (level + 1) level fuel rest
      (by rw [List.length_append]; omega)
    simp only [write, writeString, List.cons_append, List.append_assoc, List.nil_append]
      at scanned ⊢
    rw [scanValue, skipBlanks_of_not rfl]
    simp only [skipBlanks_append (airy.lineBreak (level + 1)),
      skipBlanks_of_not (show isBlank '"' = false from rfl)]
    change (Document.object (scanMembers fuel _).1 (scanMembers fuel _).2.1,
      (scanMembers fuel _).2.2) = _
    rw [scanned]
    rfl

theorem scans_exact {value : Json} (exact : Exact value) : Scans layout value := by
  induction exact with
  | null =>
    intro level fuel rest enough stops
    obtain ⟨fuel, rfl⟩ := exists_eq_succ enough
    rfl
  | bool value =>
    intro level fuel rest enough stops
    obtain ⟨fuel, rfl⟩ := exists_eq_succ enough
    cases value <;> rfl
  | int low high =>
    intro level fuel rest enough stops
    obtain ⟨fuel, rfl⟩ := exists_eq_succ enough
    exact scanValue_writeInt low high fuel stops
  | str value =>
    intro level fuel rest enough stops
    obtain ⟨fuel, rfl⟩ := exists_eq_succ enough
    simp only [write, writeString, List.cons_append, List.append_assoc, List.nil_append]
    exact scanString_escaped value rest
  | arr exact ih => exact .arr airy exact ih
  | obj exact ih => exact .obj airy ih

end Containers

/-- **What is written is scanned as the tree of the value**, in either layout, and nothing is left
over. -/
theorem ofText_write {layout : Layout} (airy : Airy layout) {value : Json} (exact : Exact value) :
    Document.ofText (String.ofList (value.write layout 0)) = (Document.ofJson value, false) := by
  have scanned := scans_exact airy exact 0 (2 * (value.write layout 0).length + 2) []
    (Nat.lt_add_of_pos_right (by decide)) trivial
  rw [List.append_nil] at scanned
  simp only [Document.ofText, String.toList_ofList, scanned]
  rfl

end Scanner

end FormFlow
