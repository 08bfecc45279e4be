/-
**Decimals read back.**

* `Progress.foldlM_next` — a run of digits that fits is taken digit by digit: the mantissa grows by
  them, and behind the point the scale grows with it.
* `read_text` — **the text of a decimal reads back with its sign and its scale**, but for the sign
  of zero, which reading drops (`settled`).

The power of ten is never looked at: the reading without one succeeds.
-/

import SignatureText.Number.Decimal
import SignatureText.Proofs.Number.Numeral

namespace SignatureText

/-- Further digits do not make a number smaller. -/
theorem Text.le_ofDigitChars (digits : List Char) (start : Nat) :
    start ≤ Nat.ofDigitChars 10 digits start := by
  induction digits generalizing start with
  | nil => exact Nat.le_refl _
  | cons c cs ih =>
      rw [Nat.ofDigitChars_cons]
      exact Nat.le_trans (by omega) (ih _)

namespace Decimal

namespace Progress

/-- A digit that fits is taken. -/
theorem next_of_isDigit {mantissa scale : Nat} {started pointed : Bool} {c : Char}
    (digit : c.isDigit = true) (small : 10 * mantissa + (c.toNat - '0'.toNat) ≤ greatest)
    (places : pointed = true → scale < mostPlaces) :
    next ⟨mantissa, scale, started, pointed, false⟩ c =
      some ⟨10 * mantissa + (c.toNat - '0'.toNat), if pointed then scale + 1 else scale, true,
        pointed, false⟩ := by
  have fits : decide (10 * mantissa + (c.toNat - '0'.toNat) ≤ greatest) &&
      !(pointed && decide (scale = mostPlaces)) := by
    rw [decide_eq_true small]
    cases pointed with
    | false => rfl
    | true => simp [Nat.ne_of_lt (places rfl)]
  simp only [next, digit, Progress.digit, if_true, Nat.mul_comm mantissa]
  rw [if_neg Bool.false_ne_true, if_pos fits]

/-- **A run of digits that fits is taken as a whole.** -/
theorem foldlM_next {digits : List Char} (all : ∀ c ∈ digits, c.isDigit = true)
    (mantissa scale : Nat) (started pointed : Bool)
    (small : Nat.ofDigitChars 10 digits mantissa ≤ greatest)
    (places : pointed = true → scale + digits.length ≤ mostPlaces) :
    digits.foldlM next ⟨mantissa, scale, started, pointed, false⟩ =
      some ⟨Nat.ofDigitChars 10 digits mantissa,
        if pointed then scale + digits.length else scale, started || !digits.isEmpty, pointed,
        false⟩ := by
  induction digits generalizing mantissa scale started with
  | nil => simp
  | cons c cs ih =>
      rw [Nat.ofDigitChars_cons] at small
      have room : pointed = true → scale + 1 + cs.length ≤ mostPlaces := fun points => by
        have := places points
        rw [List.length_cons] at this
        omega
      have head : next ⟨mantissa, scale, started, pointed, false⟩ c = _ :=
        next_of_isDigit (all c List.mem_cons_self) ((Text.le_ofDigitChars cs _).trans small)
          fun points => by
            have := room points
            omega
      have tail := ih (fun c member => all c (List.mem_cons_of_mem _ member)) _
        (if pointed then scale + 1 else scale) true small fun points => by
          simpa [points] using room points
      rw [List.foldlM_cons, head]
      refine tail.trans ?_
      cases pointed <;> simp [Nat.ofDigitChars_cons, Nat.add_assoc, Nat.add_comm 1]

theorem foldlM_toDigits {n : Nat} (small : n ≤ greatest) :
    (Nat.toDigits 10 n).foldlM next start = some ⟨n, 0, true, false, false⟩ := by
  have all : ∀ c ∈ Nat.toDigits 10 n, c.isDigit = true := fun c member =>
    Text.isDigit_of_mem_toDigits member
  have taken := foldlM_next all 0 0 false false (by simpa using small) (by simp)
  rw [start, taken]
  simp [Nat.toDigits_ne_nil]

/-- **The digits of a decimal are taken, with the point between them.** -/
theorem foldlM_pointed (d : Decimal) :
    ∃ pointed, (Text.pointed d.mantissa d.scale).toList.foldlM next start =
      some ⟨d.mantissa, d.scale, true, pointed, false⟩ := by
  have fits : d.mantissa ≤ greatest := Nat.le_sub_one_of_lt d.mantissa_lt
  by_cases whole : d.scale = 0
  · exact ⟨false, by rw [whole, Text.toList_pointed_zero, foldlM_toDigits fits]⟩
  · have joined := Text.ofDigitChars_pointed d.mantissa d.scale
    rw [Nat.ofDigitChars_append, Nat.ofDigitChars_ten_toDigits] at joined
    have places : 0 + (Text.lastDigits d.scale d.mantissa).length ≤ mostPlaces := by
      rw [Text.length_lastDigits, Nat.zero_add]
      exact d.scale_le
    have behind := foldlM_next (fun c => Text.isDigit_of_mem_lastDigits) _ 0 true true
      (by rwa [joined]) fun _ => places
    refine ⟨true, ?_⟩
    rw [Text.toList_pointed_of_ne_zero whole, List.foldlM_append,
      foldlM_toDigits ((Nat.div_le_self _ _).trans fits)]
    simpa [joined, next] using behind

end Progress

/-- A decimal begins with a digit, so no sign is seen where none is written. -/
theorem splitSign_text (d : Decimal) :
    splitSign d.text.toList = (d.negative, (Text.pointed d.mantissa d.scale).toList) := by
  obtain ⟨c, cs, digits, digit⟩ := Text.exists_pointed_eq_cons d.mantissa d.scale
  have noSign : c ≠ '-' ∧ c ≠ '+' := by
    constructor <;>
      · rintro rfl
        cases digit
  rw [text, String.toList_append, digits]
  cases d.negative with
  | true => rfl
  | false =>
      show splitSign (c :: cs) = (false, c :: cs)
      unfold splitSign
      split <;> simp_all

/-! ### The sign of zero -/

/-- The decimal without a sign if it is zero. -/
def settled (d : Decimal) : Decimal :=
  { d with negative := d.negative && d.mantissa ≠ 0 }

theorem settled_eq_self {d : Decimal} (signed : d.negative = true → d.mantissa ≠ 0) :
    d.settled = d := by
  obtain ⟨negative, mantissa, scale, small, places⟩ := d
  cases negative with
  | false => rfl
  | true => simp [settled, signed rfl]

/-- **The text of a decimal reads back**, without the sign of zero. -/
theorem read_text (d : Decimal) : read d.text = some d.settled := by
  obtain ⟨pointed, taken⟩ := Progress.foldlM_pointed d
  have plain : readPlain d.text.toList = some d.settled := by
    rw [readPlain, splitSign_text]
    simp only [taken, Option.bind_eq_bind, Option.bind_some, if_true]
    exact dif_pos ⟨d.mantissa_lt, d.scale_le⟩
  rw [read, plain]
  rfl

/-- Dropping the sign of zero leaves the number as it is. -/
theorem same_settled (d : Decimal) : d.settled.same d = true := by
  by_cases zero : d.mantissa = 0
  · simp [same, signed, settled, zero]
  · rw [settled_eq_self fun _ => zero]
    simp [same]

end Decimal

end SignatureText
