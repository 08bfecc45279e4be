/-
**Literals of floating-point numbers and decimals are faithful.**

* `Literal.real?` — what a floating-point literal says: perhaps a minus sign, digits, perhaps a
  point and digits, perhaps a power of ten, and a suffix. It knows no other form.
* `Literal.real?_text` — a numeral is read back from its text.
* `Literal.Faithful` — everything a literal owes to its number: the number is the nearest one to
  what the literal says, the sign is the number's even on zero, the digits are the shortest, and
  there is a power of ten only for very large and very small numbers.
* `Literal.real_faithful` — **the literals of all finite numbers of both widths are faithful.**

A decimal literal is a minus sign for a decimal with a sign, zero among them, the digits of the
whole part, a point and one digit for each place if there are places, and the suffix.

* `Literal.DecimalForm` — that form, with the digits being those of the mantissa.
* `Literal.decimal_exact` — **the literal of a decimal is the one text of this form**, and read as
  it stands it says the same sign, mantissa and scale.
-/

import SignatureText.Proofs.Literal.Said
import SignatureText.Proofs.Number.Digits
import SignatureText.Proofs.Number.Fewest

namespace SignatureText

namespace Literal

/-! ### Reading floating-point literals -/

/-- The power of ten that a text begins with, and the text behind it. -/
def power? : List Char → Option (Option Int × List Char)
  | 'E' :: '-' :: rest => do
    let (digits, rest) ← Json.digits? rest
    return (some (-Nat.ofDigitChars 10 digits 0), rest)
  | 'E' :: rest => do
    let (digits, rest) ← Json.digits? rest
    return (some (Nat.ofDigitChars 10 digits 0), rest)
  | rest => some (none, rest)

/-- What a text behind its sign says, up to the suffix. -/
def unsigned? (negative : Bool) (suffix text : List Char) : Option Numeral := do
  let (whole, rest) ← Json.digits? text
  let (places, rest) ← Json.placeDigits? rest
  let (exponent, rest) ← power? rest
  if rest = suffix then
    some ⟨negative, Nat.ofDigitChars 10 (whole ++ places) 0, places.length, exponent⟩
  else none

/-- What a floating-point literal with the given suffix says. -/
def real? (suffix text : String) : Option Numeral :=
  match text.toList with
  | '-' :: rest => unsigned? true suffix.toList rest
  | rest => unsigned? false suffix.toList rest

variable {suffix : List Char}

theorem power?_of_ne {rest : List Char} (noMark : 'E' ∉ rest.head?) :
    power? rest = some (none, rest) := by
  unfold power?
  split
  · simp at noMark
  · simp at noMark
  · rfl

/-- Digits without a sign before them. -/
theorem power?_toDigits (n : Nat) (rest : List Char) :
    power? ('E' :: (Nat.toDigits 10 n ++ rest)) = (do
      let (digits, rest) ← Json.digits? (Nat.toDigits 10 n ++ rest)
      return (some (Nat.ofDigitChars 10 digits 0 : Int), rest)) := by
  obtain ⟨c, cs, digits, digit⟩ := Text.exists_toDigits_eq_cons n
  have noSign : c ≠ '-' := by
    rintro rfl
    cases digit
  rw [digits, List.cons_append]
  unfold power?
  split <;> simp_all

/-- A power of ten reads back, and so does none. -/
theorem power?_exponentText (ends : Json.EndsNumber suffix) (exponent : Option Int) :
    power? ((Numeral.exponentText exponentStyle exponent).toList ++ suffix) =
      some (exponent, suffix) := by
  cases exponent with
  | none => exact power?_of_ne fun mark => (ends 'E' mark).2.2.2 rfl
  | some e =>
      have scanned := Json.digits?_toDigits_append e.natAbs ends.endsDigits
      simp only [Numeral.exponentText, exponentStyle, String.toList_append, Text.toList_natural,
        List.append_assoc]
      generalize size : e.natAbs = n at scanned ⊢
      by_cases negative : e < 0
      · have value : -(n : Int) = e := by omega
        rw [if_pos negative]
        show (do
          let (digits, rest) ← Json.digits? (Nat.toDigits 10 n ++ suffix)
          return (some (-Nat.ofDigitChars 10 digits 0 : Int), rest)) = some (some e, suffix)
        rw [scanned]
        simp [Nat.ofDigitChars_ten_toDigits, value]
      · have value : (n : Int) = e := by omega
        rw [if_neg negative]
        show power? ('E' :: (Nat.toDigits 10 n ++ suffix)) = some (some e, suffix)
        rw [power?_toDigits, scanned]
        simp [Nat.ofDigitChars_ten_toDigits, value]

/-- The digits, the point and the power of ten behind a sign read back. -/
theorem unsigned?_text (ends : Json.EndsNumber suffix) (negative : Bool) (mantissa places : Nat)
    (exponent : Option Int) :
    unsigned? negative suffix ((Text.pointed mantissa places).toList ++
      ((Numeral.exponentText exponentStyle exponent).toList ++ suffix)) =
        some ⟨negative, mantissa, places, exponent⟩ := by
  have mark : Json.IsMark exponentStyle := .inr rfl
  obtain ⟨endsDigits, noPoint⟩ := Json.head?_exponentText mark exponent ends
  have power := power?_exponentText ends exponent
  unfold unsigned?
  by_cases none : places = 0
  · subst none
    rw [Text.toList_pointed_zero, Json.digits?_toDigits_append mantissa endsDigits]
    simp [Json.placeDigits?_of_ne noPoint, power, Nat.ofDigitChars_ten_toDigits]
  · have point : Json.EndsDigits ('.' :: Text.lastDigits places mantissa ++
        ((Numeral.exponentText exponentStyle exponent).toList ++ suffix)) := by
      rintro c ⟨⟩
      rfl
    rw [Text.toList_pointed_of_ne_zero none, List.append_assoc,
      Json.digits?_toDigits_append _ point]
    simp [Json.placeDigits?_append none endsDigits, power, Text.ofDigitChars_pointed]

/-- **A numeral is read back from its text and a suffix.** -/
theorem real?_text (n : Numeral) {suffix : String} (ends : Json.EndsNumber suffix.toList) :
    real? suffix (n.text exponentStyle ++ suffix) = some n := by
  obtain ⟨negative, mantissa, places, exponent⟩ := n
  have unsigned := unsigned?_text ends negative mantissa places exponent
  have text : (Numeral.text exponentStyle ⟨negative, mantissa, places, exponent⟩ ++
      suffix).toList = (Text.sign negative).toList ++ ((Text.pointed mantissa places).toList ++
        ((Numeral.exponentText exponentStyle exponent).toList ++ suffix.toList)) := by
    simp only [Numeral.text, String.toList_append, List.append_assoc]
  rw [real?, text]
  cases negative with
  | true => exact unsigned
  | false =>
      obtain ⟨c, cs, digits, digit⟩ := Text.exists_pointed_eq_cons mantissa places
      have noSign : c ≠ '-' := by
        rintro rfl
        cases digit
      rw [← unsigned, digits, Text.toList_sign, if_neg Bool.false_ne_true]
      simp only [List.nil_append, List.cons_append]
      split
      · simp_all
      · rfl

/-! ### Faithful floating-point literals -/

/--
A literal `text` of the number `x` says the numeral `n` with the digits `s`, and that is faithful.
-/
structure Faithful {f : Format} (suffix : String) (x : Binary f) (text : String) (n : Numeral)
    (s : Scaled) : Prop where
  /-- The literal has the form of a floating-point literal, and this is what it says. -/
  reads : real? suffix text = some n
  /-- A minus sign is written exactly for numbers with a sign, zero among them. -/
  sign : n.negative = x.negative
  /-- No number of the format is nearer to what the literal says, nor as near but for odd ones. -/
  nearest : f.IsNearest n.magnitude x.code
  /-- So rounding to the format gives the number back, with its sign. -/
  rounds : Binary.nearest f n.negative n.magnitude = x
  /-- No fewer digits would do, and none of as few are nearer. -/
  shortest : f.IsShortest x.code s
  /-- These digits are written out, or with a power of ten and one of them before the point. -/
  form : n = if s.leadingExponent < -5 ∨ 15 < s.leadingExponent then s.scientific x.negative
    else s.plain x.negative
  /-- A power of ten is written exactly if the first digit is below `10 ^ -5` or above `10 ^ 15`. -/
  power : n.exponent.isSome = true ↔ s.leadingExponent < -5 ∨ 15 < s.leadingExponent
  /-- Without the power of ten the literal says the same number as with it. -/
  same : (s.plain x.negative).value = (s.scientific x.negative).value

theorem isPlain_realLayout (e : Int) : realLayout.isPlain e = true ↔ ¬(e < -5 ∨ 15 < e) := by
  simp only [realLayout, Bool.and_eq_true, decide_eq_true_eq]
  omega

/-- The layout of literals writes a power of ten outside of its plain range. -/
theorem numeral_realLayout {f : Format} (x : Binary f) :
    realLayout.numeral x =
      if (f.shortest .up x.code).leadingExponent < -5 ∨
          15 < (f.shortest .up x.code).leadingExponent then
        (f.shortest .up x.code).scientific x.negative
      else (f.shortest .up x.code).plain x.negative := by
  have isPlain := isPlain_realLayout (f.shortest .up x.code).leadingExponent
  have pointZero : ¬realLayout.pointZero = true := Bool.false_ne_true
  simp only [RealLayout.numeral, if_neg pointZero]
  by_cases outside : (f.shortest .up x.code).leadingExponent < -5 ∨
      15 < (f.shortest .up x.code).leadingExponent
  · rw [if_pos outside]
    exact if_neg fun plain => isPlain.mp plain outside
  · rw [if_neg outside]
    exact if_pos (isPlain.mpr outside)

/-- The two numerals of the same digits mean the same number. -/
theorem value_plain_eq_scientific (s : Scaled) (negative : Bool) :
    (s.plain negative).value = (s.scientific negative).value := by
  have sign : (s.plain negative).negative = (s.scientific negative).negative := by
    unfold Scaled.plain
    split <;> rfl
  rw [Numeral.value, Numeral.value, sign, s.magnitude_plain, s.magnitude_scientific]

/-- **The literal of a finite number is faithful** if the largest count of digits tells the numbers
of its format apart. -/
theorem faithful_real {f : Format} (fraction : 0 < f.fractionBits)
    (enough : 2 ^ (f.fractionBits + 1) < 10 ^ (Format.mostDigits - 1)) (keyword : String)
    {suffix : String} (ends : Json.EndsNumber suffix.toList) {x : Binary f}
    (finite : x.isFinite = true) :
    Faithful suffix x (real keyword suffix x) (realLayout.numeral x) (f.shortest .up x.code) := by
  have text : real keyword suffix x = (realLayout.numeral x).text exponentStyle ++ suffix := by
    rw [← text_saidReal, saidReal, if_pos finite]
    rfl
  have sign := RealLayout.negative_numeral realLayout x
  have rounds := Binary.nearest_numeral realLayout finite
  have nonneg : 0 ≤ (realLayout.numeral x).magnitude := by
    rw [RealLayout.magnitude_numeral]
    exact Scaled.value_nonneg _
  have code : f.nearest (realLayout.numeral x).magnitude = x.code := congrArg Binary.code rounds
  have form := numeral_realLayout x
  refine
    { reads := by rw [text, real?_text _ ends]
      sign
      nearest := (Format.isNearest_iff fraction nonneg).mpr code
      rounds := by rw [sign, rounds]
      shortest := Format.isShortest_shortest fraction enough .up (of_decide_eq_true finite)
      form
      power := ?_
      same := value_plain_eq_scientific _ _ }
  rw [form]
  split
  · simp_all [Scaled.scientific]
  · rename_i inside
    have noPower : ((f.shortest .up x.code).plain x.negative).exponent = none := by
      unfold Scaled.plain
      split <;> rfl
    simp [noPower, inside]

/--
**Floating-point literals are faithful.** Every finite number of 32 or 64 bits, both zeros and the
smallest and largest among them, is what its literal says.
-/
theorem real_faithful :
    (∀ x : Binary .single, x.isFinite = true → ∃ n s, Faithful "F" x (single x) n s) ∧
      ∀ x : Binary .double, x.isFinite = true → ∃ n s, Faithful "D" x (double x) n s := by
  have float : Json.EndsNumber "F".toList := by
    rintro c ⟨⟩
    decide
  have double : Json.EndsNumber "D".toList := by
    rintro c ⟨⟩
    decide
  constructor
  · intro x finite
    exact ⟨_, _, faithful_real (by decide) (by decide) "float" float finite⟩
  · intro x finite
    exact ⟨_, _, faithful_real (by decide) (by decide) "double" double finite⟩

/-- Minus zero, the smallest 32-bit number and the largest 64-bit number. -/
theorem real_faithful_extremes :
    let minusZero : Binary .single := Binary.ofBits .single 0x80000000
    let least : Binary .single := Binary.ofBits .single 0x00000001
    let greatest : Binary .double := Binary.ofBits .double 0x7FEFFFFFFFFFFFFF
    (minusZero.isFinite = true ∧ single minusZero = "-0F" ∧
        ∃ n s, Faithful "F" minusZero (single minusZero) n s) ∧
      (least.isFinite = true ∧ single least = "1E-45F" ∧
        ∃ n s, Faithful "F" least (single least) n s) ∧
      greatest.isFinite = true ∧ double greatest = "1.7976931348623157E308D" ∧
        ∃ n s, Faithful "D" greatest (double greatest) n s := by
  refine ⟨⟨by decide, ?_, real_faithful.1 _ (by decide)⟩,
    ⟨by decide, ?_, real_faithful.1 _ (by decide)⟩,
    by decide, ?_, real_faithful.2 _ (by decide)⟩
  all_goals decide +kernel

/-! ### The form of decimal literals -/

/-- A text has the form of a literal of the decimal `d`, with these digits around the point. -/
structure DecimalForm (d : Decimal) (text : String) (whole places : List Char) : Prop where
  /-- A minus sign exactly for a sign, and a point exactly where there are places. -/
  parts : text.toList = (if d.negative then ['-'] else []) ++ whole ++
    (if d.scale = 0 then [] else '.' :: places) ++ ['M']
  /-- At least one digit stands before the point, and no superfluous zero in front of it. -/
  isWhole : Text.IsWhole whole
  digits : ∀ c ∈ places, c.isDigit = true
  /-- There are as many digits behind the point as the decimal has places. -/
  scale : places.length = d.scale
  /-- All digits without the point are the mantissa. -/
  mantissa : Nat.ofDigitChars 10 (whole ++ places) 0 = d.mantissa

/-- The sign, the digits and the suffix of a literal. -/
theorem toList_decimal (d : Decimal) :
    (decimal d).toList = (if d.negative then ['-'] else []) ++
      (Text.pointed d.mantissa d.scale).toList ++ ['M'] := by
  rw [decimal, Decimal.text, String.toList_append, String.toList_append, Text.toList_sign]
  rfl

/-- The literal of a decimal has the form. -/
theorem exists_decimalForm (d : Decimal) :
    ∃ whole places, DecimalForm d (decimal d) whole places := by
  refine ⟨Nat.toDigits 10 (d.mantissa / 10 ^ d.scale), Text.lastDigits d.scale d.mantissa, ?_⟩
  exact
    { parts := by
        rw [toList_decimal]
        by_cases none : d.scale = 0
        · rw [none, Text.toList_pointed_zero]
          simp
        · rw [Text.toList_pointed_of_ne_zero none]
          simp [none]
      isWhole := Text.isWhole_toDigits _
      digits := fun _ => Text.isDigit_of_mem_lastDigits
      scale := Text.length_lastDigits _ _
      mantissa := Text.ofDigitChars_pointed _ _ }

/-- And no other text has it. -/
theorem DecimalForm.eq_decimal {d : Decimal} {text : String} {whole places : List Char}
    (form : DecimalForm d text whole places) : text = decimal d := by
  have written := Text.toList_pointed_ofDigitChars form.isWhole.all form.digits
  rw [form.mantissa, form.scale, form.isWhole.significant_eq_self, Text.withPlaces] at written
  have point : places.isEmpty = true ↔ d.scale = 0 := by
    rw [← form.scale, List.isEmpty_iff_length_eq_zero]
  rw [← String.toList_inj, form.parts, toList_decimal, written]
  by_cases none : d.scale = 0
  · simp [none, point.mpr none]
  · simp [none, point]

/-! ### Reading decimal literals -/

/-- What a decimal literal says: its sign, all its digits as mantissa, and as scale how many of them
stand behind the point. -/
def decimal? (text : String) : Option Decimal := do
  let n ← real? "M" text
  if n.exponent.isNone then Decimal.ofParts? n.negative n.mantissa n.places else none

theorem decimal?_decimal (d : Decimal) : decimal? (decimal d) = some d := by
  have ends : Json.EndsNumber "M".toList := by
    rintro c ⟨⟩
    decide
  have text : decimal d =
      Numeral.text exponentStyle ⟨d.negative, d.mantissa, d.scale, none⟩ ++ "M" := by
    rw [decimal, Decimal.text, Numeral.text, Numeral.exponentText, String.append_empty]
  rw [decimal?, text, real?_text _ ends]
  exact dif_pos ⟨d.mantissa_lt, d.scale_le⟩

/--
**Decimal literals keep sign, digits and scale.** The literal of a decimal is the one text that has
a minus sign exactly for a sign, a whole part without superfluous zeros, a point and a digit for
each place exactly where there are places, and the suffix; and it reads back as the decimal.
-/
theorem decimal_exact (d : Decimal) :
    (∀ text, text = decimal d ↔ ∃ whole places, DecimalForm d text whole places) ∧
      decimal? (decimal d) = some d := by
  refine ⟨fun text => ⟨?_, ?_⟩, decimal?_decimal d⟩
  · rintro rfl
    exact exists_decimalForm d
  · rintro ⟨whole, places, form⟩
    exact form.eq_decimal

/-- A zero with a sign, more places than digits, and the largest mantissa. -/
example :
    decimal ⟨true, 0, 28, by decide, by decide⟩ = "-0.0000000000000000000000000000M" ∧
      decimal ⟨false, 150, 5, by decide, by decide⟩ = "0.00150M" ∧
      decimal ⟨true, Decimal.greatest, 1, by decide, by decide⟩ =
        "-7922816251426433759354395033.5M" := by
  decide

end Literal

end SignatureText
