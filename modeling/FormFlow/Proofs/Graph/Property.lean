import FormFlow.Proofs.Json.Scanning
import FormFlow.Request.History

/-!
# Reading the names of properties back

A producer edge says in a text which property it fills. For a formatter that text holds the
position of the formatter in decimal digits, and reading the text gives the position back
(`Property.parseFormatter?_formatter`), as long as it is below the bound of the reader. So the
sort of producer that an edge stands for is known from the property that it fills
(`AnswerSource.bind_property?`).
-/

set_option autoImplicit false

namespace FormFlow

open Scanner

namespace Property

/-- The digits of a number are read as that number. -/
theorem foldl_toDigits (number : Nat) : (Nat.toDigits 10 number).foldl
    (fun value c => value * 10 + (c.toNat - '0'.toNat)) 0 = number := by
  induction number using Nat.strongRecOn with
  | ind number ih =>
    rw [Nat.toDigits_eq_if (by decide)]
    split
    · rename_i small
      have last := (digitChar_spec number small).2
      rw [digitValue] at last
      rw [List.foldl_cons, List.foldl_nil, last, Nat.zero_mul, Nat.zero_add]
    · have last := (digitChar_spec (number % 10) (Nat.mod_lt _ (by decide))).2
      rw [digitValue] at last
      rw [List.foldl_append, ih (number / 10) (by omega), List.foldl_cons, List.foldl_nil, last]
      omega

/-- A number is read from its digits if it is below the bound. -/
theorem digitsBelow?_toDigits (bound number : Nat) :
    digitsBelow? bound (Nat.toDigits 10 number) =
      if number < bound then some number else none := by
  obtain ⟨first, others, spelled, _⟩ := exists_toDigits_cons number
  have present : (Nat.toDigits 10 number).isEmpty = false := by rw [spelled]; rfl
  have digits : (Nat.toDigits 10 number).any (fun c => c < '0' || '9' < c) = false := by
    rw [List.any_eq_false]
    intro c member
    simpa [isDigit] using isDigit_of_mem_toDigits number c member
  rw [digitsBelow?, present, digits, foldl_toDigits]
  rfl

theorem parseIndex?_toDigits (bound number : Nat) :
    parseIndex? bound (Nat.toDigits 10 number) = if number < bound then some number else none := by
  obtain ⟨first, others, spelled, digit⟩ := exists_toDigits_cons number
  have unsigned : parseIndex? bound (Nat.toDigits 10 number) =
      digitsBelow? bound (Nat.toDigits 10 number) := by
    rw [spelled, parseIndex?]
    rintro rest ⟨⟩
    cases digit
  rw [unsigned, digitsBelow?_toDigits]

theorem behind?_append (opening text : List Char) :
    behind? opening (opening ++ text) = some text := by
  induction opening with
  | nil => rfl
  | cons c opening ih => rw [List.cons_append, behind?, if_pos rfl, ih]

theorem toList_formatter (index : Nat) : (formatter index).toList =
    formatterOpening.toList ++ (Nat.toDigits 10 index ++ [']']) := by
  rw [formatter, String.toList_append, String.toList_append, List.append_assoc]
  simp [Nat.toString_eq_repr, Nat.toList_repr]

/-- **The position of a formatter is read back from the name of its property.** -/
theorem parseFormatter?_formatter (bound index : Nat) :
    parseFormatter? bound (formatter index) = if index < bound then some index else none := by
  rw [parseFormatter?, toList_formatter, behind?_append]
  simp [parseIndex?_toDigits]

end Property

namespace AnswerSource

/-- The property that a producer of a sort fills. -/
def property? : AnswerSource → Option String
  | .load => some Property.onLoad
  | .default => some Property.defaultValue
  | .post => some Property.post
  | .formatter index => some (Property.formatter index)
  | .action => none

/-- Whether an edge can stand for a sort of producer: an action has no edge, and the position of
a formatter has to be an index. -/
def isWired : AnswerSource → Bool
  | .formatter index => index < indexBound
  | .action => false
  | _ => true

/-- An edge into the property of a formatter stands for the formatter at that position. -/
theorem ofProperty?_formatter (index : Nat) : ofProperty? (Property.formatter index) =
    if index < indexBound then some (.formatter index) else none := by
  have other : ∀ name : String, name.toList.head? ≠ some 'f' → Property.formatter index ≠ name := by
    rintro name differs rfl
    rw [Property.toList_formatter] at differs
    exact differs rfl
  rw [ofProperty?, if_neg (other _ (by decide)), if_neg (other _ (by decide)),
    if_neg (other _ (by decide)), Property.parseFormatter?_formatter]
  split <;> rfl

/-- **The sort of a producer is read back from the property that it fills.** -/
theorem bind_property? (source : AnswerSource) :
    source.property?.bind ofProperty? = if source.isWired then some source else none := by
  cases source with
  | formatter index =>
    rw [property?, Option.bind_some, ofProperty?_formatter, isWired]
    simp only [decide_eq_true_eq]
  | _ => rfl

end AnswerSource

end FormFlow
