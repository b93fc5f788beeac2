import FormFlow.Proofs.Json.Scanning

/-!
# Values with the same text

Compact text tells where a value ends: a container and a string by their last character, a
number by the first character that no number has. So a text with something behind it is the
text of one value only, up to its real numbers, of which the text keeps the spelling
(`Json.spelled_eq_of_compact`).

This needs no bounds, neither on the integers of a value nor on its depth, since nothing is
read: both values are known, and their texts are compared from the left.
-/

set_option autoImplicit false

namespace FormFlow

namespace Json

mutual
/-- A value with the text of each real number in its place. -/
def spelled : Json → Json
  | .real value => .str (String.ofList value.text)
  | .arr items => .arr (spelledItems items)
  | .obj members => .obj (spelledMembers members)
  | .null => .null
  | .bool value => .bool value
  | .int value => .int value
  | .str value => .str value

/-- The elements of an array with the text of each real number in its place. -/
def spelledItems : List Json → List Json
  | [] => []
  | item :: rest => spelled item :: spelledItems rest

/-- The members of an object with the text of each real number in its place. -/
def spelledMembers : List (String × Json) → List (String × Json)
  | [] => []
  | (key, value) :: rest => (key, spelled value) :: spelledMembers rest
end

/-! ## Numbers -/

/-- A character that the text of a number can have. -/
def isNumeric (c : Char) : Bool :=
  Scanner.isDigit c || c = '-' || c = '+' || c = '.' || c = 'e'

/-- What comes next is no part of a number. -/
def Ends (rest : List Char) : Prop := ∀ c, rest.head? = some c → isNumeric c = false

theorem ends_cons {c : Char} (other : isNumeric c = false) (rest : List Char) :
    Ends (c :: rest) := by
  rintro _ ⟨⟩
  exact other

/-- Of two numbers with something behind them, each ends where the other does. -/
theorem eq_of_numeric {text other rest more : List Char} (numeric : ∀ c ∈ text, isNumeric c = true)
    (otherNumeric : ∀ c ∈ other, isNumeric c = true) (ends : Ends rest) (moreEnds : Ends more)
    (same : text ++ rest = other ++ more) : text = other ∧ rest = more := by
  have cut : ∀ {text rest : List Char}, (∀ c ∈ text, isNumeric c = true) → Ends rest →
      (text ++ rest).takeWhile isNumeric = text := by
    intro text rest numeric ends
    rw [List.takeWhile_append_of_pos numeric]
    cases rest with
    | nil => simp
    | cons c rest => simp [ends c rfl]
  have first := cut numeric ends
  rw [same, cut otherNumeric moreEnds] at first
  subst first
  exact ⟨rfl, List.append_cancel_left same⟩

theorem isNumeric_of_isDigit {c : Char} (digit : Scanner.isDigit c = true) :
    isNumeric c = true := by
  simp [isNumeric, digit]

theorem digits_of_toString (number : Nat) :
    ∀ c ∈ (toString number).toList, Scanner.isDigit c = true := by
  simpa [Nat.repr] using Scanner.isDigit_of_mem_toDigits number

theorem numeric_writeInt (value : Int) : ∀ c ∈ writeInt value, isNumeric c = true := by
  intro c member
  have digits := fun c member => isNumeric_of_isDigit (digits_of_toString value.natAbs c member)
  rw [writeInt] at member
  split at member
  · rcases List.mem_cons.1 member with rfl | digit
    · decide
    · exact digits c digit
  · exact digits c member

theorem toDigits_inj {number other : Nat}
    (same : Nat.toDigits 10 number = Nat.toDigits 10 other) : number = other := by
  have numbers := congrArg (fun found => Nat.ofDigitChars 10 found 0) same
  simpa only [Nat.ofDigitChars_toDigits (by decide : 1 < 10) (by decide : 10 ≤ 10)] using numbers

theorem writeInt_inj {value other : Int} (same : writeInt value = writeInt other) :
    value = other := by
  have unsigned : ∀ (number rest : Nat), Nat.toDigits 10 number ≠ '-' :: Nat.toDigits 10 rest := by
    intro number rest same
    have sign : '-' ∈ Nat.toDigits 10 number := same ▸ List.mem_cons_self ..
    cases Scanner.isDigit_of_mem_toDigits number '-' sign
  by_cases negative : value < 0 <;> by_cases otherNegative : other < 0
  · rw [Scanner.writeInt_of_neg negative, Scanner.writeInt_of_neg otherNegative] at same
    have := toDigits_inj (List.cons.inj same).2
    omega
  · rw [Scanner.writeInt_of_neg negative, Scanner.writeInt_of_nonneg otherNegative] at same
    exact absurd same.symm (unsigned _ _)
  · rw [Scanner.writeInt_of_nonneg negative, Scanner.writeInt_of_neg otherNegative] at same
    exact absurd same (unsigned _ _)
  · rw [Scanner.writeInt_of_nonneg negative, Scanner.writeInt_of_nonneg otherNegative] at same
    have := toDigits_inj same
    omega

theorem numeric_plainText {digits : List Char} (numeric : ∀ c ∈ digits, isNumeric c = true)
    (point : Int) : ∀ c ∈ Binary64.plainText digits point, isNumeric c = true := by
  have zeros : ∀ count, ∀ c ∈ List.replicate count '0', isNumeric c = true := by
    intro count c member
    rw [(List.mem_replicate.1 member).2]
    rfl
  rw [Binary64.plainText]
  split_ifs
  · refine List.forall_mem_cons.2 ⟨rfl, List.forall_mem_cons.2 ⟨rfl, ?_⟩⟩
    exact List.forall_mem_append.2 ⟨zeros _, numeric⟩
  · refine List.forall_mem_append.2 ⟨List.forall_mem_append.2 ⟨numeric, zeros _⟩, ?_⟩
    exact List.all_eq_true.1 rfl
  · refine List.forall_mem_append.2 ⟨fun c member => numeric c (List.mem_of_mem_take member), ?_⟩
    exact List.forall_mem_cons.2 ⟨rfl, fun c member => numeric c (List.mem_of_mem_drop member)⟩

theorem numeric_exponentText {digits : List Char} (numeric : ∀ c ∈ digits, isNumeric c = true)
    (point : Int) : ∀ c ∈ Binary64.exponentText digits point, isNumeric c = true := by
  have sign : isNumeric (if point - 1 < 0 then '-' else '+') = true := by split <;> rfl
  have exponent : ∀ c ∈ (toString (point - 1).natAbs).toList, isNumeric c = true :=
    fun c member => isNumeric_of_isDigit (digits_of_toString _ c member)
  simp only [Binary64.exponentText]
  refine List.forall_mem_append.2 ⟨List.forall_mem_append.2
    ⟨fun c member => numeric c (List.mem_of_mem_take member), ?_⟩,
    List.forall_mem_cons.2 ⟨rfl, List.forall_mem_cons.2 ⟨sign, exponent⟩⟩⟩
  split_ifs
  · nofun
  · exact List.forall_mem_cons.2 ⟨rfl, fun c member => numeric c (List.mem_of_mem_drop member)⟩

/-- The text of a real number shows that it is no integer. -/
theorem text_spec (value : Binary64) :
    (∀ c ∈ value.text, isNumeric c = true) ∧ ('.' ∈ value.text ∨ 'e' ∈ value.text) := by
  have sign : ∀ c ∈ if value.negative then ['-'] else [], isNumeric c = true := by
    split_ifs <;> exact List.all_eq_true.1 rfl
  have digits : ∀ c ∈ (toString value.magnitude.shortest.digits).toList, isNumeric c = true :=
    fun c member => isNumeric_of_isDigit (digits_of_toString _ c member)
  simp only [Binary64.text]
  generalize (if value.negative then ['-'] else []) = mark at sign ⊢
  split_ifs with zero plain
  · exact ⟨List.forall_mem_append.2 ⟨sign, List.all_eq_true.1 rfl⟩, .inl (by simp)⟩
  · refine ⟨List.forall_mem_append.2 ⟨sign, numeric_plainText digits _⟩,
      .inl (List.mem_append_right _ ?_)⟩
    simp only [Binary64.plainText]
    split_ifs <;> simp
  · refine ⟨List.forall_mem_append.2 ⟨sign, numeric_exponentText digits _⟩,
      .inr (List.mem_append_right _ ?_)⟩
    simp [Binary64.exponentText]

theorem writeInt_ne_text (value : Int) (other : Binary64) : writeInt value ≠ other.text := by
  intro same
  have plain : ∀ c ∈ writeInt value, c ≠ '.' ∧ c ≠ 'e' := by
    intro c member
    have digit : ∀ {c}, Scanner.isDigit c = true → c ≠ '.' ∧ c ≠ 'e' := by
      rintro c digit
      constructor <;> rintro rfl <;> cases digit
    rw [writeInt] at member
    split at member
    · rcases List.mem_cons.1 member with rfl | inside
      · decide
      · exact digit (digits_of_toString _ c inside)
    · exact digit (digits_of_toString _ c member)
  rcases (text_spec other).2 with point | exponent
  · exact (plain _ (same ▸ point)).1 rfl
  · exact (plain _ (same ▸ exponent)).2 rfl

/-! ## Values -/

/-- What the first character of a text says of its value. -/
inductive Opening where
  | null
  | yes
  | no
  | number
  | text
  | array
  | object
deriving DecidableEq

/-- How the text of a value starts. -/
def opening : Json → Opening
  | .null => .null
  | .bool true => .yes
  | .bool false => .no
  | .int _ => .number
  | .real _ => .number
  | .str _ => .text
  | .arr _ => .array
  | .obj _ => .object

/-- The opening of the values whose text starts with a character. -/
def openingOf? (c : Char) : Option Opening :=
  match c with
  | 'n' => some .null
  | 't' => some .yes
  | 'f' => some .no
  | '"' => some .text
  | '[' => some .array
  | '{' => some .object
  | other => if isNumeric other then some .number else none

theorem openingOf?_of_isNumeric {c : Char} (numeric : isNumeric c = true) :
    openingOf? c = some .number := by
  unfold openingOf?
  split <;> first | cases numeric | exact if_pos numeric

theorem openingOf?_write (value : Json) (layout : Layout) (level : Nat) (rest : List Char) :
    (value.write layout level ++ rest).head?.bind openingOf? = some value.opening := by
  have number : ∀ {text : List Char}, text ≠ [] → (∀ c ∈ text, isNumeric c = true) →
      (text ++ rest).head?.bind openingOf? = some .number := by
    intro text some numeric
    cases text with
    | nil => exact absurd rfl some
    | cons c text => exact openingOf?_of_isNumeric (numeric c (List.mem_cons_self ..))
  cases value with
  | null => rfl
  | bool value => cases value <;> rfl
  | int value =>
    refine number (?_ : writeInt value ≠ []) (numeric_writeInt value)
    by_cases negative : value < 0
    · rw [Scanner.writeInt_of_neg negative]
      exact List.cons_ne_nil _ _
    · obtain ⟨c, others, written, -⟩ := Scanner.exists_toDigits_cons value.natAbs
      rw [Scanner.writeInt_of_nonneg negative, written]
      exact List.cons_ne_nil _ _
  | real value =>
    refine number ?_ (text_spec value).1
    rcases (text_spec value).2 with point | exponent
    · exact List.ne_nil_of_mem point
    · exact List.ne_nil_of_mem exponent
  | str value => rfl
  | arr items => cases items <;> rfl
  | obj members => cases members <;> rfl

/-- Values whose texts start in the same way. -/
theorem opening_eq_of_write {value other : Json} {layout : Layout} {level : Nat}
    {rest more : List Char}
    (same : value.write layout level ++ rest = other.write layout level ++ more) :
    value.opening = other.opening := by
  have here := openingOf?_write value layout level rest
  rw [same, openingOf?_write] at here
  exact (Option.some.inj here).symm

theorem writeString_inj {text other : String} {rest more : List Char}
    (same : writeString text ++ rest = writeString other ++ more) : text = other ∧ rest = more := by
  have scanned : ∀ (text : String) (rest : List Char),
      Scanner.scanString ((writeString text ++ rest).drop 1) = (.string (.ok text), rest) := by
    intro text rest
    simpa [writeString] using Scanner.scanString_escaped text rest
  have here := scanned text rest
  rw [same, scanned other more] at here
  simpa [eq_comm] using here

theorem ends_items {closing : Char} (closes : isNumeric closing = false) (layout : Layout)
    (level : Nat) (items : List Json) (rest : List Char) :
    Ends (writeItems layout level items ++ closing :: rest) := by
  cases items with
  | nil => exact ends_cons closes rest
  | cons item items => exact ends_cons rfl _

theorem ends_members {closing : Char} (closes : isNumeric closing = false) (layout : Layout)
    (level : Nat) (members : List (String × Json)) (rest : List Char) :
    Ends (writeMembers layout level members ++ closing :: rest) := by
  cases members with
  | nil => exact ends_cons closes rest
  | cons member members => exact ends_cons rfl _

/-- Behind the bracket that opens an array there is its end or a value, not both. -/
theorem write_ne_of_closing (value : Json) {closing : Char} (closes : openingOf? closing = none)
    {layout : Layout} {level : Nat} {rest more : List Char} :
    closing :: rest ≠ value.write layout level ++ more := by
  intro same
  have here := openingOf?_write value layout level more
  rw [← same] at here
  cases closes.symm.trans here

/-! ### Compact text -/

theorem write_arr_cons (item : Json) (items : List Json) (level : Nat) (rest : List Char) :
    (Json.arr (item :: items)).write .compact level ++ rest =
      '[' :: (item.write .compact (level + 1) ++
        (writeItems .compact (level + 1) items ++ ']' :: rest)) := by
  simp [write, Layout.compact]

theorem writeItems_cons (item : Json) (items : List Json) (level : Nat) (rest : List Char) :
    writeItems .compact level (item :: items) ++ rest =
      ',' :: (item.write .compact level ++ (writeItems .compact level items ++ rest)) := by
  simp [writeItems, Layout.compact]

theorem write_obj_cons (key : String) (value : Json) (members : List (String × Json))
    (level : Nat) (rest : List Char) :
    (Json.obj ((key, value) :: members)).write .compact level ++ rest =
      '{' :: (writeString key ++ ':' :: (value.write .compact (level + 1) ++
        (writeMembers .compact (level + 1) members ++ '}' :: rest))) := by
  simp [write, Layout.compact]

theorem writeMembers_cons (key : String) (value : Json) (members : List (String × Json))
    (level : Nat) (rest : List Char) :
    writeMembers .compact level ((key, value) :: members) ++ rest =
      ',' :: (writeString key ++ ':' :: (value.write .compact level ++
        (writeMembers .compact level members ++ rest))) := by
  simp [writeMembers, Layout.compact]

mutual
/-- **A text with something behind it is the text of one value**, up to the spelling of real
numbers. -/
theorem spelled_eq_of_write (value other : Json) {level : Nat} {rest more : List Char}
    (ends : Ends rest) (moreEnds : Ends more)
    (same : value.write .compact level ++ rest = other.write .compact level ++ more) :
    value.spelled = other.spelled ∧ rest = more := by
  have opening := opening_eq_of_write same
  match value, other with
  | .null, .null => exact ⟨rfl, List.append_cancel_left same⟩
  | .bool true, .bool true => exact ⟨rfl, List.append_cancel_left same⟩
  | .bool false, .bool false => exact ⟨rfl, List.append_cancel_left same⟩
  | .int value, .int other =>
    obtain ⟨text, rest⟩ :=
      eq_of_numeric (numeric_writeInt value) (numeric_writeInt other) ends moreEnds same
    exact ⟨congrArg Json.int (writeInt_inj text), rest⟩
  | .int value, .real other =>
    obtain ⟨text, -⟩ :=
      eq_of_numeric (numeric_writeInt value) (text_spec other).1 ends moreEnds same
    exact absurd text (writeInt_ne_text value other)
  | .real value, .int other =>
    obtain ⟨text, -⟩ :=
      eq_of_numeric (text_spec value).1 (numeric_writeInt other) ends moreEnds same
    exact absurd text.symm (writeInt_ne_text other value)
  | .real value, .real other =>
    obtain ⟨text, rest⟩ :=
      eq_of_numeric (text_spec value).1 (text_spec other).1 ends moreEnds same
    exact ⟨by rw [spelled, spelled, text], rest⟩
  | .str value, .str other =>
    obtain ⟨rfl, rest⟩ := writeString_inj same
    exact ⟨rfl, rest⟩
  | .arr items, .arr others =>
    obtain ⟨items, rest⟩ := spelledItems_eq_of_write items others same
    exact ⟨congrArg Json.arr items, rest⟩
  | .obj members, .obj others =>
    obtain ⟨members, rest⟩ := spelledMembers_eq_of_write members others same
    exact ⟨congrArg Json.obj members, rest⟩

/-- The elements of an array are told from its text. -/
theorem spelledItems_eq_of_write (items others : List Json) {level : Nat} {rest more : List Char}
    (same : (Json.arr items).write .compact level ++ rest =
      (Json.arr others).write .compact level ++ more) :
    spelledItems items = spelledItems others ∧ rest = more := by
  match items, others with
  | [], [] => exact ⟨rfl, List.append_cancel_left same⟩
  | [], first :: others =>
    simp only [write_arr_cons] at same
    exact absurd (List.cons.inj same).2 (write_ne_of_closing first rfl)
  | item :: items, [] =>
    simp only [write_arr_cons] at same
    exact absurd (List.cons.inj same).2.symm (write_ne_of_closing item rfl)
  | item :: items, first :: others =>
    simp only [write_arr_cons] at same
    obtain ⟨value, behind⟩ := spelled_eq_of_write item first (ends_items rfl _ _ _ _)
      (ends_items rfl _ _ _ _) (List.cons.inj same).2
    obtain ⟨rest, more⟩ := spelledItems_eq_of_writeItems items others behind
    exact ⟨by rw [spelledItems, spelledItems, value, rest], more⟩

theorem spelledItems_eq_of_writeItems (items others : List Json) {level : Nat}
    {rest more : List Char} (same : writeItems .compact level items ++ ']' :: rest =
      writeItems .compact level others ++ ']' :: more) :
    spelledItems items = spelledItems others ∧ rest = more := by
  match items, others with
  | [], [] => exact ⟨rfl, (List.cons.inj same).2⟩
  | [], first :: others => cases (List.cons.inj same).1
  | item :: items, [] => cases (List.cons.inj same).1
  | item :: items, first :: others =>
    simp only [writeItems_cons] at same
    obtain ⟨value, behind⟩ := spelled_eq_of_write item first (ends_items rfl _ _ _ _)
      (ends_items rfl _ _ _ _) (List.cons.inj same).2
    obtain ⟨rest, more⟩ := spelledItems_eq_of_writeItems items others behind
    exact ⟨by rw [spelledItems, spelledItems, value, rest], more⟩

/-- The members of an object are told from its text. -/
theorem spelledMembers_eq_of_write (members others : List (String × Json)) {level : Nat}
    {rest more : List Char} (same : (Json.obj members).write .compact level ++ rest =
      (Json.obj others).write .compact level ++ more) :
    spelledMembers members = spelledMembers others ∧ rest = more := by
  match members, others with
  | [], [] => exact ⟨rfl, List.append_cancel_left same⟩
  | [], (name, first) :: others =>
    simp only [write_obj_cons] at same
    cases (List.cons.inj (List.cons.inj same).2).1
  | (key, value) :: members, [] =>
    simp only [write_obj_cons] at same
    cases (List.cons.inj (List.cons.inj same).2).1
  | (key, value) :: members, (name, first) :: others =>
    simp only [write_obj_cons] at same
    obtain ⟨rfl, behind⟩ := writeString_inj (List.cons.inj same).2
    obtain ⟨value, behind⟩ := spelled_eq_of_write value first (ends_members rfl _ _ _ _)
      (ends_members rfl _ _ _ _) (List.cons.inj behind).2
    obtain ⟨rest, more⟩ := spelledMembers_eq_of_writeMembers members others behind
    exact ⟨by rw [spelledMembers, spelledMembers, value, rest], more⟩

theorem spelledMembers_eq_of_writeMembers (members others : List (String × Json)) {level : Nat}
    {rest more : List Char} (same : writeMembers .compact level members ++ '}' :: rest =
      writeMembers .compact level others ++ '}' :: more) :
    spelledMembers members = spelledMembers others ∧ rest = more := by
  match members, others with
  | [], [] => exact ⟨rfl, (List.cons.inj same).2⟩
  | [], (name, first) :: others => cases (List.cons.inj same).1
  | (key, value) :: members, [] => cases (List.cons.inj same).1
  | (key, value) :: members, (name, first) :: others =>
    simp only [writeMembers_cons] at same
    obtain ⟨rfl, behind⟩ := writeString_inj (List.cons.inj same).2
    obtain ⟨value, behind⟩ := spelled_eq_of_write value first (ends_members rfl _ _ _ _)
      (ends_members rfl _ _ _ _) (List.cons.inj behind).2
    obtain ⟨rest, more⟩ := spelledMembers_eq_of_writeMembers members others behind
    exact ⟨by rw [spelledMembers, spelledMembers, value, rest], more⟩
end

/-- Values with the same compact text differ at most in real numbers that are spelled alike. -/
theorem spelled_eq_of_compact {value other : Json} (same : value.compact = other.compact) :
    value.spelled = other.spelled := by
  have nothing : Ends [] := nofun
  have text : value.write .compact 0 ++ [] = other.write .compact 0 ++ [] := by
    rw [String.ofList_injective same]
  exact (spelled_eq_of_write value other nothing nothing text).1

end Json

end FormFlow
