/-
**What 64-bit arithmetic makes of a numeral.**

* `Numeral.leading_of_lt` — digits that fit 64 bits are all taken.
* `Format.abs_scaledCode_sub_le` — the number that comes out is off by four half units of the last
  place at most: one rounding is that of the power of ten, one that of the product or quotient.
* `Format.scaledCode_eq_nearest` — where the digits are few and the power of ten is one of the first
  22, only the last step rounds, and the number that comes out is the nearest.
-/

import SignatureText.Proofs.Number.Neighbours
import SignatureText.Proofs.Number.Decimal

namespace SignatureText

/-! ### Digits -/

namespace Scaled

theorem takeWhole_of_lt {cs : List Char} {digits : Nat} {exponent : Int}
    (small : Nat.ofDigitChars 10 cs digits < digitLimit) :
    takeWhole ⟨digits, exponent⟩ cs = ⟨Nat.ofDigitChars 10 cs digits, exponent⟩ := by
  induction cs generalizing digits with
  | nil => rfl
  | cons c cs ih =>
      rw [Nat.ofDigitChars_cons] at small ⊢
      have fits : digitsWith ⟨digits, exponent⟩ c < digitLimit :=
        (Text.le_ofDigitChars cs _).trans_lt small
      rw [takeWhole, if_pos fits]
      exact ih small

theorem takePlaces_of_lt {cs : List Char} {digits : Nat} {exponent : Int}
    (small : Nat.ofDigitChars 10 cs digits < digitLimit) :
    takePlaces ⟨digits, exponent⟩ cs =
      ⟨Nat.ofDigitChars 10 cs digits, exponent - cs.length⟩ := by
  induction cs generalizing digits exponent with
  | nil => simp [takePlaces]
  | cons c cs ih =>
      rw [Nat.ofDigitChars_cons] at small ⊢
      have fits : digitsWith ⟨digits, exponent⟩ c < digitLimit :=
        (Text.le_ofDigitChars cs _).trans_lt small
      have places : exponent - ((c :: cs).length : Int) = exponent - 1 - cs.length := by
        rw [List.length_cons]
        omega
      rw [takePlaces, if_pos fits, places]
      exact ih small

end Scaled

/-- **Digits that fit an unsigned integer of 64 bits are all taken.** -/
theorem Numeral.leading_of_lt {n : Numeral} (small : n.mantissa < Scaled.digitLimit) :
    n.leading = ⟨n.mantissa, n.scale⟩ := by
  have joined := Text.ofDigitChars_pointed n.mantissa n.places
  rw [Nat.ofDigitChars_append] at joined
  have whole : Nat.ofDigitChars 10 (Nat.toDigits 10 (n.mantissa / 10 ^ n.places)) 0 <
      Scaled.digitLimit := by
    rw [Nat.ofDigitChars_ten_toDigits]
    exact (Nat.div_le_self _ _).trans_lt small
  simp only [leading, Scaled.takeWhole_of_lt whole]
  rw [Scaled.takePlaces_of_lt (by rwa [joined]), joined, Text.length_lastDigits]
  rfl

namespace Format

/-! ### Errors -/

theorem magnitude_double_normal :
    double.magnitude (2 ^ double.fractionBits) = 2 ^ (-1022 : Int) := by
  have significand : double.significand (2 ^ double.fractionBits) = 2 ^ 52 := by decide
  have exponent : double.exponent (2 ^ double.fractionBits) = -1074 := by decide
  rw [magnitude, significand, exponent, Nat.cast_pow, Nat.cast_ofNat, ← zpow_natCast,
    ← zpow_add₀ (by norm_num)]
  rfl

theorem magnitude_double_infinity : double.magnitude double.infinityCode = 2 ^ (1024 : Int) := by
  have significand : double.significand double.infinityCode = 2 ^ 52 := by decide
  have exponent : double.exponent double.infinityCode = 972 := by decide
  rw [magnitude, significand, exponent, Nat.cast_pow, Nat.cast_ofNat, ← zpow_natCast,
    ← zpow_add₀ (by norm_num)]
  rfl

/-- Far from both ends of the 64-bit format. -/
def Inner (x : Rat) : Prop :=
  2 ^ (-600 : Int) ≤ x ∧ x ≤ 2 ^ (600 : Int)

theorem Inner.abs_rounded_sub_le {x : Rat} (inner : Inner x) :
    |double.rounded x - x| ≤ x / 2 ^ 53 := by
  refine Format.abs_rounded_sub_le ?_ ?_
  · rw [magnitude_double_normal]
    exact (zpow_le_zpow_right₀ (by norm_num) (by norm_num)).trans inner.1
  · rw [magnitude_double_infinity]
    exact inner.2.trans_lt (zpow_lt_zpow_right₀ (by norm_num) (by norm_num))

/-- Far from both ends nothing rounds to infinity. -/
theorem Inner.nearest_lt {x : Rat} (inner : Inner x) : double.nearest x < double.infinityCode := by
  have nonneg : 0 ≤ x := (two_zpow_pos _).le.trans inner.1
  have error := (abs_le.mp inner.abs_rounded_sub_le).2
  have part : x / 2 ^ 53 ≤ x := div_le_self nonneg (by norm_num)
  have limit : x * 2 < double.magnitude double.infinityCode := calc
    x * 2 ≤ 2 ^ (600 : Int) * 2 := mul_le_mul_of_nonneg_right inner.2 (by norm_num)
    _ = 2 ^ ((600 : Int) + 1) := (zpow_add_one₀ (by norm_num) _).symm
    _ < 2 ^ (1024 : Int) := zpow_lt_zpow_right₀ (by norm_num) (by norm_num)
    _ = double.magnitude double.infinityCode := magnitude_double_infinity.symm
  refine double.magnitude_strictMono.lt_iff_lt.mp (lt_of_le_of_lt ?_ limit)
  show double.rounded x ≤ x * 2
  linarith

/-- What is near a number of the middle range is still far from both ends, and so is rounded to
something near the number. -/
theorem abs_rounded_sub_le_of_near {x z : Rat} (low : 2 ^ (-500 : Int) ≤ x)
    (high : x ≤ 2 ^ (500 : Int)) (near : |z - x| ≤ x / 2 ^ 52) :
    double.nearest z < double.infinityCode ∧ |double.rounded z - x| ≤ x / 2 ^ 51 := by
  have positive : 0 < x := (two_zpow_pos _).trans_le low
  obtain ⟨lower, upper⟩ := abs_le.mp near
  have inner : Inner z := by
    constructor
    · calc (2 : Rat) ^ (-600 : Int) ≤ 2 ^ ((-500 : Int) - 1) :=
          zpow_le_zpow_right₀ (by norm_num) (by norm_num)
        _ = 2 ^ (-500 : Int) / 2 := zpow_sub_one₀ (by norm_num) _
        _ ≤ x / 2 := by linarith
        _ ≤ z := by linarith
    · calc z ≤ x * 2 := by linarith
        _ ≤ 2 ^ (500 : Int) * 2 := by linarith
        _ = 2 ^ ((500 : Int) + 1) := (zpow_add_one₀ (by norm_num) _).symm
        _ ≤ 2 ^ (600 : Int) := zpow_le_zpow_right₀ (by norm_num) (by norm_num)
  refine ⟨inner.nearest_lt, ?_⟩
  obtain ⟨below, above⟩ := abs_le.mp inner.abs_rounded_sub_le
  rw [abs_le]
  constructor <;> linarith

/-! ### Powers of ten -/

theorem ten_zpow_bounds {e : Int} (low : -100 ≤ e) (high : e ≤ 100) :
    (2 : Rat) ^ (-400 : Int) ≤ 10 ^ e ∧ (10 : Rat) ^ e ≤ 2 ^ (400 : Int) := by
  have hundred : (10 : Rat) ^ (100 : Int) ≤ 2 ^ (400 : Int) := calc
    (10 : Rat) ^ (100 : Int) ≤ 16 ^ (100 : Int) :=
      zpow_le_zpow_left₀ (by norm_num) (by norm_num) (by norm_num)
    _ = (2 ^ (4 : Int)) ^ (100 : Int) := by norm_num
    _ = 2 ^ (400 : Int) := (zpow_mul _ _ _).symm
  constructor
  · calc (2 : Rat) ^ (-400 : Int) = (2 ^ (400 : Int))⁻¹ := zpow_neg _ _
      _ ≤ (10 ^ (100 : Int))⁻¹ := inv_anti₀ (by positivity) hundred
      _ = 10 ^ (-100 : Int) := (zpow_neg _ _).symm
      _ ≤ 10 ^ e := zpow_le_zpow_right₀ (by norm_num) low
  · exact (zpow_le_zpow_right₀ (by norm_num) high).trans hundred

/-- The 64-bit number nearest to a power of ten. -/
theorem abs_tens_sub_le {e : Int} (low : -100 ≤ e) (high : e ≤ 100) :
    |tens e - 10 ^ e| ≤ 10 ^ e / 2 ^ 53 := by
  obtain ⟨lower, upper⟩ := ten_zpow_bounds low high
  exact Inner.abs_rounded_sub_le
    ⟨(zpow_le_zpow_right₀ (by norm_num) (by norm_num)).trans lower,
      upper.trans (zpow_le_zpow_right₀ (by norm_num) (by norm_num))⟩

/-- Multiplying by something near a number is near multiplying by the number. -/
theorem abs_mul_sub_mul_le {d p t : Rat} (nonneg : 0 ≤ d) (positive : 0 < p)
    (near : |t - p| ≤ p / 2 ^ 53) : |d * t - d * p| ≤ d * p / 2 ^ 52 := by
  rw [← mul_sub, abs_mul, abs_of_nonneg nonneg, mul_div_assoc]
  exact mul_le_mul_of_nonneg_left (near.trans (by linarith)) nonneg

/-- Dividing by something near a number is near dividing by the number. -/
theorem abs_div_sub_div_le {d p t : Rat} (nonneg : 0 ≤ d) (positive : 0 < p)
    (near : |t - p| ≤ p / 2 ^ 53) : |d / t - d / p| ≤ d / p / 2 ^ 52 := by
  obtain ⟨left, right⟩ := abs_le.mp near
  have divisor : 0 < t := by linarith
  have quotient : d / t - d / p = d / p * ((p - t) / t) := by field_simp
  rw [quotient, abs_mul, abs_of_nonneg (by positivity), abs_div, abs_of_pos divisor,
    abs_sub_comm, div_eq_mul_one_div (d / p) (2 ^ 52)]
  refine mul_le_mul_of_nonneg_left ?_ (by positivity)
  rw [div_le_div_iff₀ divisor (by norm_num)]
  linarith

theorem double_rounded_natCast {n : Nat} (few : n < 2 ^ 53) : double.rounded n = n := by
  have whole := rounded_of_integer (f := double) (k := n) (e := 0) few (by decide) (by
    rw [zpow_zero, mul_one, magnitude_double_infinity]
    calc (n : Rat) < 2 ^ 53 := by exact_mod_cast few
      _ = 2 ^ (53 : Int) := by norm_num
      _ < 2 ^ (1024 : Int) := zpow_lt_zpow_right₀ (by norm_num) (by norm_num))
  rwa [zpow_zero, mul_one] at whole

/-! ### Digits and a power of ten -/

/-- **The number that comes out is off by a few halves of a unit at most.** -/
theorem abs_scaledCode_sub_le {s : Scaled} (nonzero : s.digits ≠ 0) (few : s.digits < 2 ^ 53)
    (low : -100 ≤ s.exponent) (high : s.exponent ≤ 100) :
    scaledCode s < double.infinityCode ∧
      |double.magnitude (scaledCode s) - s.value| ≤ s.value / 2 ^ 51 := by
  have one : (1 : Rat) ≤ s.digits := by exact_mod_cast Nat.one_le_iff_ne_zero.mpr nonzero
  have limit : (s.digits : Rat) ≤ 2 ^ (53 : Int) := by exact_mod_cast few.le
  obtain ⟨lower, upper⟩ := ten_zpow_bounds low high
  have unit : (0 : Rat) < 10 ^ s.exponent := by positivity
  have above : 2 ^ (-500 : Int) ≤ s.value := calc
    (2 : Rat) ^ (-500 : Int) ≤ 2 ^ (-400 : Int) :=
      zpow_le_zpow_right₀ (by norm_num) (by norm_num)
    _ ≤ 1 * 10 ^ s.exponent := by rwa [one_mul]
    _ ≤ s.value := mul_le_mul_of_nonneg_right one unit.le
  have below : s.value ≤ 2 ^ (500 : Int) := calc
    s.value ≤ 2 ^ (53 : Int) * 2 ^ (400 : Int) :=
      mul_le_mul limit upper unit.le (by positivity)
    _ = 2 ^ ((53 : Int) + 400) := (zpow_add₀ (by norm_num) _ _).symm
    _ ≤ 2 ^ (500 : Int) := zpow_le_zpow_right₀ (by norm_num) (by norm_num)
  by_cases nonneg : 0 ≤ s.exponent
  · have code : scaledCode s = double.nearest (s.digits * tens s.exponent) := by
      have inside : ¬mostTens < s.exponent := by
        unfold mostTens
        omega
      simp only [scaledCode, if_neg inside, if_pos nonneg, double_rounded_natCast few]
    rw [code]
    refine abs_rounded_sub_le_of_near above below ?_
    exact abs_mul_sub_mul_le (Nat.cast_nonneg _) unit (abs_tens_sub_le low high)
  · have code : scaledCode s = double.nearest (s.digits / tens (-s.exponent)) := by
      have inside : ¬mostTens < s.exponent ∧ -mostTens ≤ s.exponent := by
        unfold mostTens
        omega
      simp only [scaledCode, if_neg inside.1, if_neg nonneg, if_pos inside.2,
        double_rounded_natCast few]
    rw [code]
    refine abs_rounded_sub_le_of_near above below ?_
    have value : s.value = s.digits / 10 ^ (-s.exponent) := by
      rw [Scaled.value, zpow_neg, div_inv_eq_mul]
    rw [value]
    exact abs_div_sub_div_le (Nat.cast_nonneg _) (by positivity)
      (abs_tens_sub_le (by omega) (by omega))

/-- The first powers of ten are 64-bit numbers. -/
theorem tens_eq {e : Int} (nonneg : 0 ≤ e) (high : e ≤ 22) : tens e = 10 ^ e := by
  obtain ⟨n, rfl⟩ := Int.eq_ofNat_of_zero_le nonneg
  have five : 5 ^ n < 2 ^ 53 := calc
    5 ^ n ≤ 5 ^ 22 := Nat.pow_le_pow_right (by norm_num) (by omega)
    _ < 2 ^ 53 := by norm_num
  have split : (10 : Rat) ^ (n : Int) = ((5 ^ n : Nat) : Rat) * 2 ^ (n : Int) := by
    rw [zpow_natCast, zpow_natCast]
    push_cast
    rw [← mul_pow]
    norm_num
  have finite : ((5 ^ n : Nat) : Rat) * 2 ^ (n : Int) < double.magnitude double.infinityCode := by
    rw [← split, magnitude_double_infinity]
    exact (ten_zpow_bounds (by omega) (by omega)).2.trans_lt
      (zpow_lt_zpow_right₀ (by norm_num) (by norm_num))
  have least : double.leastExponent ≤ n := by
    have : double.leastExponent = -1074 := by decide
    omega
  rw [tens, split]
  exact rounded_of_integer five least finite

/-- **Few digits with a small power of ten are rounded once**, to the nearest number. -/
theorem scaledCode_eq_nearest {s : Scaled} (few : s.digits < 2 ^ 53) (low : -22 ≤ s.exponent)
    (high : s.exponent ≤ 22) : scaledCode s = double.nearest s.value := by
  by_cases nonneg : 0 ≤ s.exponent
  · have inside : ¬mostTens < s.exponent := by
      unfold mostTens
      omega
    simp only [scaledCode, if_neg inside, if_pos nonneg, double_rounded_natCast few,
      tens_eq nonneg high]
    rfl
  · have inside : ¬mostTens < s.exponent ∧ -mostTens ≤ s.exponent := by
      unfold mostTens
      omega
    have value : s.digits / 10 ^ (-s.exponent) = s.value := by
      rw [Scaled.value, zpow_neg, div_inv_eq_mul]
    simp only [scaledCode, if_neg inside.1, if_neg nonneg, if_pos inside.2,
      double_rounded_natCast few, tens_eq (e := -s.exponent) (by omega) (by omega), value]

end Format

end SignatureText
