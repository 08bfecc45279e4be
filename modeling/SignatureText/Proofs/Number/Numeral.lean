/-
**Numerals read back.**

A numeral is written as digits, perhaps a point and digits, and perhaps a power of ten, and whatever
follows that cannot go on with any of these leaves it readable: `Json.number?_text`. The mark of the
power of ten and the sign behind it do not matter for that, so one theorem serves JSON and literals.

The digits behind the point are the last digits of the mantissa with their leading zeros
(`ofDigitChars_lastDigits`), so whole part and places put together are the mantissa again.
-/

import Mathlib.Tactic.Ring
import SignatureText.Json

namespace SignatureText

/-! ### Digits -/

namespace Text

theorem isDigit_of_mem_toDigits {n : Nat} {c : Char} (member : c ∈ Nat.toDigits 10 n) :
    c.isDigit = true :=
  Nat.isDigit_of_mem_toDigits (by decide) (by decide) member

theorem isDigit_of_mem_lastDigits {places n : Nat} {c : Char} (member : c ∈ lastDigits places n) :
    c.isDigit = true := by
  induction places generalizing n with
  | zero => simp [lastDigits] at member
  | succ places ih =>
      rw [lastDigits, List.mem_append, List.mem_singleton] at member
      rcases member with member | rfl
      · exact ih member
      · rw [Nat.isDigit_digitChar]
        exact decide_eq_true (Nat.mod_lt n (by decide))

theorem ofDigitChars_lastDigits (places n start : Nat) :
    Nat.ofDigitChars 10 (lastDigits places n) start = start * 10 ^ places + n % 10 ^ places := by
  induction places generalizing n with
  | zero => simp [lastDigits, Nat.mod_one]
  | succ places ih =>
      have last : n % 10 < 10 := Nat.mod_lt n (by decide)
      rw [lastDigits, Nat.ofDigitChars_append, ih,
        Nat.ofDigitChars_cons_digitChar_of_lt_ten last, Nat.ofDigitChars_nil, pow_succ' 10 places,
        Nat.mod_mul]
      ring

/-- Whole part and places of a number, put together again. -/
theorem ofDigitChars_pointed (mantissa places : Nat) :
    Nat.ofDigitChars 10
      (Nat.toDigits 10 (mantissa / 10 ^ places) ++ lastDigits places mantissa) 0 = mantissa := by
  rw [Nat.ofDigitChars_append, Nat.ofDigitChars_ten_toDigits, ofDigitChars_lastDigits, mul_comm]
  exact Nat.div_add_mod mantissa (10 ^ places)

/-- Only zero is written with a zero in front. -/
theorem head?_toDigits_ne_zero {n : Nat} (positive : n ≠ 0) :
    (Nat.toDigits 10 n).head? ≠ some '0' := by
  induction n using Nat.strongRecOn with
  | ind n ih =>
      by_cases small : n < 10
      · rw [Nat.toDigits_of_lt_base small]
        simp [positive]
      · rw [Nat.toDigits_of_base_le (by decide) (by omega), List.head?_append]
        have inner := ih (n / 10) (by omega) (by omega)
        cases digits : (Nat.toDigits 10 (n / 10)).head? with
        | none => simp [Nat.toDigits_ne_nil] at digits
        | some c => simpa [digits] using inner

@[simp] theorem toList_sign (negative : Bool) :
    (sign negative).toList = if negative then ['-'] else [] := by
  cases negative <;> rfl

theorem toList_pointed_zero (mantissa : Nat) :
    (pointed mantissa 0).toList = Nat.toDigits 10 mantissa := by
  simp [pointed]

theorem toList_pointed_of_ne_zero {places : Nat} (some : places ≠ 0) (mantissa : Nat) :
    (pointed mantissa places).toList =
      Nat.toDigits 10 (mantissa / 10 ^ places) ++ '.' :: lastDigits places mantissa := by
  simp [pointed, some]

/-- A natural number begins with a digit. -/
theorem exists_toDigits_eq_cons (n : Nat) :
    ∃ c cs, Nat.toDigits 10 n = c :: cs ∧ c.isDigit = true := by
  cases digits : Nat.toDigits 10 n with
  | nil => exact absurd digits Nat.toDigits_ne_nil
  | cons c cs =>
      have member : c ∈ Nat.toDigits 10 n := by simp [digits]
      exact ⟨c, cs, rfl, isDigit_of_mem_toDigits member⟩

/-- So does a number with places. -/
theorem exists_pointed_eq_cons (mantissa places : Nat) :
    ∃ c cs, (pointed mantissa places).toList = c :: cs ∧ c.isDigit = true := by
  by_cases whole : places = 0
  · subst whole
    rw [toList_pointed_zero]
    exact exists_toDigits_eq_cons mantissa
  · obtain ⟨c, cs, digits, digit⟩ := exists_toDigits_eq_cons (mantissa / 10 ^ places)
    exact ⟨c, _, by rw [toList_pointed_of_ne_zero whole, digits]; rfl, digit⟩

end Text

/-- A numeral begins with its sign or a digit. -/
theorem Numeral.exists_text_eq_cons (n : Numeral) (style : ExponentStyle) :
    ∃ c cs, (n.text style).toList = c :: cs ∧ (c = '-' ∨ c.isDigit = true) := by
  obtain ⟨c, cs, digits, digit⟩ := Text.exists_pointed_eq_cons n.mantissa n.places
  cases negative : n.negative with
  | true =>
      refine ⟨'-', c :: cs ++ (exponentText style n.exponent).toList, ?_, .inl rfl⟩
      simp [text, negative, digits]
  | false =>
      refine ⟨c, cs ++ (exponentText style n.exponent).toList, ?_, .inr digit⟩
      simp [text, negative, digits]

/-! ### Scanning -/

namespace Json

/-- The text does not go on with a digit. -/
def EndsDigits (rest : List Char) : Prop :=
  ∀ c ∈ rest.head?, c.isDigit = false

/-- The text does not go on with anything that a number could go on with. -/
def EndsNumber (rest : List Char) : Prop :=
  ∀ c ∈ rest.head?, c.isDigit = false ∧ c ≠ '.' ∧ c ≠ 'e' ∧ c ≠ 'E'

theorem EndsNumber.endsDigits {rest : List Char} (ends : EndsNumber rest) : EndsDigits rest :=
  fun c member => (ends c member).1

/-- **Digits are taken as far as they go.** -/
theorem digits?_append {digits rest : List Char} (all : ∀ c ∈ digits, c.isDigit = true)
    (some : digits ≠ []) (ends : EndsDigits rest) :
    digits? (digits ++ rest) = .some (digits, rest) := by
  have stops : rest.takeWhile Char.isDigit = [] ∧ rest.dropWhile Char.isDigit = rest := by
    cases rest with
    | nil => exact ⟨rfl, rfl⟩
    | cons c others => simp [ends c rfl]
  unfold digits?
  rw [List.takeWhile_append_of_pos all, List.dropWhile_append_of_pos all, stops.1, stops.2,
    List.append_nil]
  simp [some]

theorem digits?_toDigits_append (n : Nat) {rest : List Char} (ends : EndsDigits rest) :
    digits? (Nat.toDigits 10 n ++ rest) = some (Nat.toDigits 10 n, rest) :=
  digits?_append (fun _ => Text.isDigit_of_mem_toDigits) Nat.toDigits_ne_nil ends

theorem wholeDigits?_append {n : Nat} {rest : List Char} (ends : EndsDigits rest) :
    wholeDigits? (Nat.toDigits 10 n ++ rest) = some (Nat.toDigits 10 n, rest) := by
  have noZero : ¬((Nat.toDigits 10 n).head? = some '0' ∧ (Nat.toDigits 10 n).length ≠ 1) := by
    rintro ⟨zero, long⟩
    by_cases positive : n = 0
    · subst positive
      exact long rfl
    · exact Text.head?_toDigits_ne_zero positive zero
  unfold wholeDigits?
  rw [digits?_toDigits_append n ends]
  simp only [Option.bind_eq_bind, Option.bind_some]
  rw [if_neg noZero]

theorem placeDigits?_append {places mantissa : Nat} {rest : List Char} (some : places ≠ 0)
    (ends : EndsDigits rest) :
    placeDigits? ('.' :: (Text.lastDigits places mantissa ++ rest)) =
      .some (Text.lastDigits places mantissa, rest) := by
  have nonempty : Text.lastDigits places mantissa ≠ [] := by
    rw [← List.length_pos_iff, Text.length_lastDigits]
    omega
  exact digits?_append (fun c => Text.isDigit_of_mem_lastDigits) nonempty ends

/-- Without a point there are no places. -/
theorem placeDigits?_of_ne {rest : List Char} (noPoint : '.' ∉ rest.head?) :
    placeDigits? rest = some ([], rest) := by
  unfold placeDigits?
  split
  · simp at noPoint
  · rfl

theorem exponent?_of_ne {rest : List Char} (noMark : 'e' ∉ rest.head? ∧ 'E' ∉ rest.head?) :
    exponent? rest = some (none, rest) := by
  cases rest with
  | nil => rfl
  | cons c others =>
      have : c ≠ 'e' ∧ c ≠ 'E' := by simpa using noMark
      simp [exponent?, this]

theorem exponentSign_toDigits (n : Nat) (rest : List Char) :
    exponentSign (Nat.toDigits 10 n ++ rest) = (false, Nat.toDigits 10 n ++ rest) := by
  obtain ⟨c, cs, digits, digit⟩ := Text.exists_toDigits_eq_cons n
  rw [digits, List.cons_append]
  unfold exponentSign
  split
  · simp_all
  · simp_all
  · rfl

/-- The two marks of a power of ten that are understood. -/
def IsMark (style : ExponentStyle) : Prop :=
  style.mark = "e" ∨ style.mark = "E"

theorem exponent?_text {style : ExponentStyle} (mark : IsMark style) (e : Int) {rest : List Char}
    (ends : EndsDigits rest) :
    exponent? ((Numeral.exponentText style (some e)).toList ++ rest) = some (some e, rest) := by
  have scanned := digits?_toDigits_append e.natAbs ends
  have afterMark : ∀ m : Char, m = 'e' ∨ m = 'E' →
      exponent? (m :: ((if e < 0 then "-" else if style.plus then "+" else "").toList ++
        Nat.toDigits 10 e.natAbs ++ rest)) = some (some e, rest) := by
    intro m marks
    have isMark : (decide (m = 'e') || decide (m = 'E')) = true := by simpa using marks
    simp only [exponent?, isMark, if_true]
    generalize size : e.natAbs = n at scanned
    by_cases negative : e < 0
    · have value : -(n : Int) = e := by omega
      simp [negative, exponentSign, scanned, Nat.ofDigitChars_ten_toDigits, value]
    · have value : (n : Int) = e := by omega
      by_cases plus : style.plus
      · simp [negative, plus, exponentSign, scanned, Nat.ofDigitChars_ten_toDigits, value]
      · simp [negative, plus, exponentSign_toDigits, scanned, Nat.ofDigitChars_ten_toDigits, value]
  rcases mark with mark | mark
  · simpa [Numeral.exponentText, mark] using afterMark 'e' (.inl rfl)
  · simpa [Numeral.exponentText, mark] using afterMark 'E' (.inr rfl)

/-- A power of ten ends the digits before it. -/
theorem head?_exponentText {style : ExponentStyle} (mark : IsMark style) (exponent : Option Int)
    {rest : List Char} (ends : EndsNumber rest) :
    EndsDigits ((Numeral.exponentText style exponent).toList ++ rest) ∧
      '.' ∉ ((Numeral.exponentText style exponent).toList ++ rest).head? := by
  cases exponent with
  | none =>
      refine ⟨ends.endsDigits, fun point => ?_⟩
      exact (ends '.' point).2.1 rfl
  | some e =>
      rcases mark with mark | mark <;> simp [Numeral.exponentText, mark, EndsDigits]

theorem exponent?_exponentText {style : ExponentStyle} (mark : IsMark style)
    (exponent : Option Int) {rest : List Char} (ends : EndsNumber rest) :
    exponent? ((Numeral.exponentText style exponent).toList ++ rest) = some (exponent, rest) := by
  cases exponent with
  | none => exact exponent?_of_ne ⟨fun e => (ends 'e' e).2.2.1 rfl, fun e => (ends 'E' e).2.2.2 rfl⟩
  | some e => exact exponent?_text mark e ends.endsDigits

/-- The numeral that digits behind a sign begin with. -/
def unsigned? (negative : Bool) (text : List Char) : Option (Numeral × List Char) := do
  let (whole, rest) ← wholeDigits? text
  let (places, rest) ← placeDigits? rest
  let (exponent, rest) ← exponent? rest
  return (⟨negative, Nat.ofDigitChars 10 (whole ++ places) 0, places.length, exponent⟩, rest)

theorem number?_minus (text : List Char) : number? ('-' :: text) = unsigned? true text := rfl

theorem number?_of_isDigit {c : Char} {cs : List Char} (digit : c.isDigit = true) :
    number? (c :: cs) = unsigned? false (c :: cs) := by
  have noSign : c ≠ '-' := by
    rintro rfl
    cases digit
  unfold number?
  simp [noSign, unsigned?]

/-- A number begins with its sign or a digit. -/
theorem number?_of_ne {c : Char} (noSign : c ≠ '-') (noDigit : c.isDigit = false) (cs : List Char) :
    number? (c :: cs) = none := by
  have none : wholeDigits? (c :: cs) = none := by simp [wholeDigits?, digits?, noDigit]
  unfold number?
  split
  simp_all

/-- The digits of a numeral begin with a digit, so no sign is seen where none is written. -/
theorem number?_sign (negative : Bool) (mantissa places : Nat) (tail : List Char) :
    number? ((Text.sign negative).toList ++ ((Text.pointed mantissa places).toList ++ tail)) =
      unsigned? negative ((Text.pointed mantissa places).toList ++ tail) := by
  cases negative with
  | true => exact number?_minus _
  | false =>
      obtain ⟨c, cs, digits, digit⟩ := Text.exists_pointed_eq_cons mantissa places
      rw [digits]
      exact number?_of_isDigit digit

/-- **A numeral reads back**, whatever follows that is no part of a number. -/
theorem number?_text {style : ExponentStyle} (mark : IsMark style) (n : Numeral) {rest : List Char}
    (ends : EndsNumber rest) : number? ((n.text style).toList ++ rest) = some (n, rest) := by
  obtain ⟨negative, mantissa, places, exponent⟩ := n
  obtain ⟨endsDigits, noPoint⟩ := head?_exponentText mark exponent ends
  have scanned := exponent?_exponentText mark exponent ends
  simp only [Numeral.text, String.toList_append, List.append_assoc]
  rw [number?_sign, unsigned?]
  by_cases whole : places = 0
  · subst whole
    rw [Text.toList_pointed_zero, wholeDigits?_append endsDigits]
    simp [placeDigits?_of_ne noPoint, scanned]
  · have endsWhole : EndsDigits ('.' :: Text.lastDigits places mantissa ++
        ((Numeral.exponentText style exponent).toList ++ rest)) := by
      rintro c ⟨⟩
      rfl
    rw [Text.toList_pointed_of_ne_zero whole, List.append_assoc, wholeDigits?_append endsWhole]
    simp [placeDigits?_append whole endsDigits, scanned, Text.ofDigitChars_pointed]

end Json

end SignatureText
