/-
**Digits determine their number and are determined by it.**

* `Text.toDigits_append` — digits put behind a positive number are put behind its digits.
* `Text.toDigits_ofDigitChars` — so digits are the digits of the number that they are, but for the
  superfluous zeros in front of them (`significant`).
* `Text.lastDigits_ofDigitChars`, `Text.ofDigitChars_div` — digits put behind a number are its last
  digits, and dividing them off leaves the number.
* `Text.toList_pointed_ofDigitChars` — **digits before and behind a point are written as they
  were**, without superfluous zeros.
-/

import Mathlib.Data.List.Induction
import SignatureText.Proofs.Number.Numeral

namespace SignatureText.Text

/-- A digit is that of its value. -/
theorem digitChar_of_isDigit {c : Char} (digit : c.isDigit = true) :
    c.toNat - '0'.toNat < 10 ∧ Nat.digitChar (c.toNat - '0'.toNat) = c := by
  obtain ⟨least, greatest⟩ := Char.isDigit_iff_toNat.mp digit
  have zero : '0'.toNat = 48 := rfl
  have nine : '9'.toNat = 57 := rfl
  have small : c.toNat - '0'.toNat < 10 := by omega
  refine ⟨small, Char.toNat_inj.mp ?_⟩
  rw [Nat.toNat_digitChar_of_lt_ten small]
  omega

/-! ### Digits in front -/

/-- Digits without the superfluous zeros in front of them; one digit stays in any case. -/
def significant (digits : List Char) : List Char :=
  match digits.dropWhile (· = '0') with
  | [] => ['0']
  | kept => kept

/-- Digits of a whole number: at least one, and no superfluous zero in front. -/
structure IsWhole (digits : List Char) : Prop where
  all : ∀ c ∈ digits, c.isDigit = true
  nonempty : digits ≠ []
  plain : digits.head? = some '0' → digits = ['0']

theorem isWhole_toDigits (n : Nat) : IsWhole (Nat.toDigits 10 n) where
  all _ member := isDigit_of_mem_toDigits member
  nonempty := Nat.toDigits_ne_nil
  plain zero := by
    by_cases positive : n = 0
    · rw [positive]
      rfl
    · exact absurd zero (head?_toDigits_ne_zero positive)

theorem IsWhole.significant_eq_self {digits : List Char} (whole : IsWhole digits) :
    significant digits = digits := by
  cases digits with
  | nil => exact absurd rfl whole.nonempty
  | cons c cs =>
      by_cases zero : c = '0'
      · subst zero
        rw [whole.plain rfl]
        rfl
      · simp [significant, zero]

/-- Digits put behind a positive number are put behind its digits. -/
theorem toDigits_append {digits : List Char} (all : ∀ c ∈ digits, c.isDigit = true) {start : Nat}
    (positive : 0 < start) :
    Nat.toDigits 10 (Nat.ofDigitChars 10 digits start) = Nat.toDigits 10 start ++ digits := by
  induction digits generalizing start with
  | nil => rw [Nat.ofDigitChars_nil, List.append_nil]
  | cons c cs ih =>
      obtain ⟨small, digit⟩ := digitChar_of_isDigit (all c List.mem_cons_self)
      rw [Nat.ofDigitChars_cons, ih (fun d member => all d (List.mem_cons_of_mem _ member))
          (by omega), ← Nat.toDigits_append_toDigits (by decide) positive small,
        Nat.toDigits_of_lt_base small, digit, List.append_assoc, List.singleton_append]

/-- **Digits are those of their number**, but for superfluous zeros in front. -/
theorem toDigits_ofDigitChars {digits : List Char} (all : ∀ c ∈ digits, c.isDigit = true) :
    Nat.toDigits 10 (Nat.ofDigitChars 10 digits 0) = significant digits := by
  induction digits with
  | nil => rfl
  | cons c cs ih =>
      have others := fun d member => all d (List.mem_cons_of_mem c member)
      rw [Nat.ofDigitChars_cons, Nat.mul_zero, Nat.zero_add]
      by_cases zero : c = '0'
      · subst zero
        exact ih others
      · obtain ⟨small, digit⟩ := digitChar_of_isDigit (all c List.mem_cons_self)
        have positive : 0 < c.toNat - '0'.toNat := by
          rw [Nat.pos_iff_ne_zero]
          intro none
          rw [none] at digit
          exact zero digit.symm
        rw [toDigits_append others positive, Nat.toDigits_of_lt_base small, digit]
        simp [significant, zero]

/-! ### Digits behind -/

theorem ofDigitChars_concat (digits : List Char) (c : Char) (start : Nat) :
    Nat.ofDigitChars 10 (digits ++ [c]) start =
      10 * Nat.ofDigitChars 10 digits start + (c.toNat - '0'.toNat) := by
  rw [Nat.ofDigitChars_append, Nat.ofDigitChars_cons, Nat.ofDigitChars_nil]

/-- **Digits put behind a number are its last digits.** -/
theorem lastDigits_ofDigitChars {digits : List Char} (all : ∀ c ∈ digits, c.isDigit = true)
    (start : Nat) : lastDigits digits.length (Nat.ofDigitChars 10 digits start) = digits := by
  induction digits using List.reverseRecOn with
  | nil => rfl
  | append_singleton digits c ih =>
      obtain ⟨small, digit⟩ := digitChar_of_isDigit (all c (by simp))
      rw [ofDigitChars_concat, List.length_append, List.length_singleton, lastDigits,
        Nat.mul_add_div (by decide), Nat.div_eq_of_lt small, Nat.add_zero,
        ih fun d member => all d (List.mem_append_left _ member), Nat.mul_add_mod,
        Nat.mod_eq_of_lt small, digit]

/-- Dividing them off leaves the number. -/
theorem ofDigitChars_div {digits : List Char} (all : ∀ c ∈ digits, c.isDigit = true)
    (start : Nat) : Nat.ofDigitChars 10 digits start / 10 ^ digits.length = start := by
  induction digits using List.reverseRecOn with
  | nil => simp
  | append_singleton digits c ih =>
      obtain ⟨small, -⟩ := digitChar_of_isDigit (all c (by simp))
      rw [ofDigitChars_concat, List.length_append, List.length_singleton, pow_succ',
        ← Nat.div_div_eq_div_mul, Nat.mul_add_div (by decide), Nat.div_eq_of_lt small, Nat.add_zero,
        ih fun d member => all d (List.mem_append_left _ member)]

/-! ### Digits around a point -/

/-- Digits, and behind a point further digits if there are any. -/
def withPlaces (whole places : List Char) : List Char :=
  whole ++ if places.isEmpty then [] else '.' :: places

/-- **Digits before and behind a point are written as they were**, without superfluous zeros. -/
theorem toList_pointed_ofDigitChars {whole places : List Char}
    (before : ∀ c ∈ whole, c.isDigit = true) (behind : ∀ c ∈ places, c.isDigit = true) :
    (pointed (Nat.ofDigitChars 10 (whole ++ places) 0) places.length).toList =
      withPlaces (significant whole) places := by
  rw [Nat.ofDigitChars_append, withPlaces]
  by_cases none : places = []
  · subst none
    simp [toList_pointed_zero, toDigits_ofDigitChars before]
  · rw [toList_pointed_of_ne_zero (by simpa using none), lastDigits_ofDigitChars behind,
      ofDigitChars_div behind, toDigits_ofDigitChars before]
    simp [none]

end SignatureText.Text
