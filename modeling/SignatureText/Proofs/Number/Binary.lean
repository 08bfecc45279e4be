/-
**Rounding returns what a format holds.**

* `two_zpow_binaryExponent_le`, `lt_two_zpow_binaryExponent` — the exponent of a positive number is
  the one it has: the estimate from the lengths of numerator and denominator is off by one at most.
* `Format.nearest_magnitude` — **a finite magnitude is its own nearest one.** Its significand is an
  integer at its own exponent, so nothing is rounded, and the code is put together again.
* `Format.nearestScaled_eq_nearest` — the shortcut for powers of ten beyond a format's reach gives
  what rounding gives. Below the reach a number is under half the smallest magnitude
  (`Format.nearest_of_le`), above it the exponent field alone exceeds infinity's
  (`Format.nearest_of_ge`).
-/

import Mathlib.Algebra.Order.Field.Power
import Mathlib.Data.Rat.Floor
import Mathlib.Tactic.FieldSimp
import Mathlib.Tactic.Linarith
import Mathlib.Tactic.NormNum
import Mathlib.Tactic.Positivity
import Mathlib.Tactic.Ring
import SignatureText.Number.Binary

namespace SignatureText

/-! ### Exponents -/

theorem two_zpow_pos (e : Int) : (0 : Rat) < 2 ^ e := by positivity

theorem two_zpow_mul_two_pow {e : Int} {m n : Nat} (sum : e + m = n) :
    (2 : Rat) ^ e * 2 ^ m = 2 ^ n := by
  rw [← zpow_natCast, ← zpow_natCast, ← zpow_add₀ (by norm_num), sum]

/-- A number and the estimate of its exponent. -/
theorem estimate_bounds {x : Rat} (positive : 0 < x) :
    (2 : Rat) ^ ((x.num.natAbs.log2 - x.den.log2 : Int) - 1) < x ∧
      x < 2 ^ ((x.num.natAbs.log2 - x.den.log2 : Int) + 1) := by
  have numerator : (x.num.natAbs : Rat) = x * x.den := by
    have : (x.num.natAbs : Rat) = x.num := by
      rw [Nat.cast_natAbs, abs_of_pos (Rat.num_pos.mpr positive)]
    rw [this, Rat.mul_den_eq_num]
  have nonzero : x.num.natAbs ≠ 0 := by
    have := Rat.num_pos.mpr positive
    omega
  generalize x.num.natAbs = a at numerator nonzero
  have denominator : (0 : Rat) < x.den := by exact_mod_cast x.den_pos
  have aboveA : ((2 ^ a.log2 : Nat) : Rat) ≤ a := by exact_mod_cast Nat.log2_self_le nonzero
  have belowA : (a : Rat) < (2 ^ (a.log2 + 1) : Nat) := by exact_mod_cast Nat.lt_log2_self
  have aboveB : ((2 ^ x.den.log2 : Nat) : Rat) ≤ x.den := by
    exact_mod_cast Nat.log2_self_le x.den_nz
  have belowB : (x.den : Rat) < (2 ^ (x.den.log2 + 1) : Nat) := by exact_mod_cast Nat.lt_log2_self
  push_cast at aboveA belowA aboveB belowB
  constructor
  · have split : (2 : Rat) ^ ((a.log2 - x.den.log2 : Int) - 1) * 2 ^ (x.den.log2 + 1) =
        2 ^ a.log2 :=
      two_zpow_mul_two_pow (by omega)
    by_contra small
    have : x * x.den < 2 ^ ((a.log2 - x.den.log2 : Int) - 1) * 2 ^ (x.den.log2 + 1) :=
      mul_lt_mul' (not_lt.mp small) belowB denominator.le (two_zpow_pos _)
    rw [split, ← numerator] at this
    exact absurd aboveA (not_le.mpr this)
  · have split : (2 : Rat) ^ ((a.log2 - x.den.log2 : Int) + 1) * 2 ^ x.den.log2 =
        2 ^ (a.log2 + 1) :=
      two_zpow_mul_two_pow (by omega)
    by_contra large
    have : (2 : Rat) ^ ((a.log2 - x.den.log2 : Int) + 1) * 2 ^ x.den.log2 ≤ x * x.den :=
      mul_le_mul (not_lt.mp large) aboveB (by positivity) positive.le
    rw [split, ← numerator] at this
    exact absurd belowA (not_lt.mpr this)

theorem two_zpow_binaryExponent_le {x : Rat} (positive : 0 < x) : 2 ^ binaryExponent x ≤ x := by
  simp only [binaryExponent]
  split
  · assumption
  · exact (estimate_bounds positive).1.le

theorem lt_two_zpow_binaryExponent {x : Rat} (positive : 0 < x) :
    x < 2 ^ (binaryExponent x + 1) := by
  simp only [binaryExponent]
  split
  · exact (estimate_bounds positive).2
  · rename_i small
    rw [sub_add_cancel]
    exact not_le.mp small

/-- The exponent is the only one between whose powers the number lies. -/
theorem binaryExponent_eq {x : Rat} {e : Int} (above : 2 ^ e ≤ x) (below : x < 2 ^ (e + 1)) :
    binaryExponent x = e := by
  have positive : 0 < x := (two_zpow_pos e).trans_le above
  have base : (1 : Rat) < 2 := by norm_num
  have first := (zpow_lt_zpow_iff_right₀ base).mp
    ((two_zpow_binaryExponent_le positive).trans_lt below)
  have second := (zpow_lt_zpow_iff_right₀ base).mp
    (above.trans_lt (lt_two_zpow_binaryExponent positive))
  omega

/-! ### Integers -/

theorem roundHalfEven_natCast (n : Nat) : roundHalfEven n = n := by
  have floor : (n : Rat).floor.toNat = n := by
    rw [show (n : Rat) = ((n : Int) : Rat) by norm_cast, Rat.floor_intCast]
    rfl
  simp [roundHalfEven, floor]

/-- Up to a half, the half included, goes to zero. -/
theorem roundHalfEven_of_le_half {x : Rat} (nonneg : 0 ≤ x) (small : x ≤ 1 / 2) :
    roundHalfEven x = 0 := by
  have floor : x.floor = 0 := by
    have below : ((x.floor : Int) : Rat) < 1 := lt_of_le_of_lt (Rat.floor_le x) (by linarith)
    have above : (0 : Int) ≤ x.floor := Rat.le_floor_iff.mpr (by exact_mod_cast nonneg)
    have : x.floor < 1 := by exact_mod_cast below
    omega
  simp [roundHalfEven, floor]
  intro
  linarith

namespace Format

variable {f : Format}

/-! ### Magnitudes -/

theorem nearest_zero : f.nearest 0 = 0 := by
  simp [nearest]

/-- A code is put together from its significand and the steps of its exponent. -/
theorem code_eq (f : Format) (code : Nat) :
    (f.exponent code - f.leastExponent).toNat * 2 ^ f.fractionBits + f.significand code = code := by
  have steps : (f.exponent code - f.leastExponent).toNat = code / 2 ^ f.fractionBits - 1 := by
    simp [exponent]
  rw [steps, significand]
  by_cases small : code < 2 ^ f.fractionBits
  · rw [if_pos small, Nat.div_eq_of_lt small]
    omega
  · have field : 0 < code / 2 ^ f.fractionBits :=
      Nat.div_pos (not_lt.mp small) (Nat.two_pow_pos _)
    have division := Nat.div_add_mod' code (2 ^ f.fractionBits)
    rw [if_neg small, ← Nat.add_assoc, ← Nat.succ_mul, Nat.succ_eq_add_one,
      Nat.sub_add_cancel field]
    exact division

theorem significand_pos {code : Nat} (nonzero : code ≠ 0) : 0 < f.significand code := by
  have := Nat.two_pow_pos f.fractionBits
  unfold significand
  split <;> omega

theorem magnitude_pos {code : Nat} (nonzero : code ≠ 0) : 0 < f.magnitude code :=
  mul_pos (by exact_mod_cast significand_pos nonzero) (two_zpow_pos _)

/-- Up to the next magnitude, rounding works at a code's own exponent. -/
theorem exponent_of_between {code : Nat} {x : Rat} (positive : 0 < x)
    (above : f.magnitude code ≤ x) (below : x < f.magnitude code + 2 ^ f.exponent code) :
    max (binaryExponent x - f.fractionBits) f.leastExponent = f.exponent code := by
  have unit := two_zpow_pos (f.exponent code)
  have step : f.magnitude code + 2 ^ f.exponent code =
      ((f.significand code + 1 : Nat) : Rat) * 2 ^ f.exponent code := by
    rw [magnitude]
    push_cast
    ring
  rw [step] at below
  by_cases small : code < 2 ^ f.fractionBits
  · have least : f.exponent code = f.leastExponent := by
      simp [exponent, Nat.div_eq_of_lt small]
    have bound : x < 2 ^ (f.fractionBits + f.leastExponent) := by
      rw [zpow_add₀ (by norm_num), zpow_natCast, ← least]
      rw [significand, if_pos small] at below
      have : ((code + 1 : Nat) : Rat) ≤ 2 ^ f.fractionBits := by exact_mod_cast small
      exact below.trans_le (mul_le_mul_of_nonneg_right this unit.le)
    have := (zpow_lt_zpow_iff_right₀ (by norm_num : (1 : Rat) < 2)).mp
      ((two_zpow_binaryExponent_le positive).trans_lt bound)
    omega
  · have bounds : 2 ^ f.fractionBits ≤ f.significand code ∧
        f.significand code + 1 ≤ 2 ^ f.fractionBits * 2 := by
      have := Nat.mod_lt code (Nat.two_pow_pos f.fractionBits)
      rw [significand, if_neg small]
      omega
    have lower : (2 : Rat) ^ (f.fractionBits + f.exponent code) ≤ x := by
      rw [zpow_add₀ (by norm_num), zpow_natCast]
      exact (mul_le_mul_of_nonneg_right (by exact_mod_cast bounds.1) unit.le).trans above
    have upper : x < 2 ^ ((f.fractionBits + f.exponent code) + 1) := by
      rw [add_right_comm, zpow_add₀ (by norm_num), zpow_add_one₀ (by norm_num), zpow_natCast]
      exact below.trans_le (mul_le_mul_of_nonneg_right (by exact_mod_cast bounds.2) unit.le)
    rw [binaryExponent_eq lower upper, add_sub_cancel_left]
    exact max_eq_left (by simp [exponent])

/-- **A finite magnitude is its own nearest one.** -/
theorem nearest_magnitude {code : Nat} (finite : code < f.infinityCode) :
    f.nearest (f.magnitude code) = code := by
  by_cases zero : code = 0
  · subst zero
    simp [magnitude, significand, nearest]
  · have whole : f.magnitude code / 2 ^ f.exponent code = f.significand code := by
      rw [magnitude, mul_div_assoc, div_self (two_zpow_pos _).ne', mul_one]
    have own := exponent_of_between (magnitude_pos zero) le_rfl
      (lt_add_of_pos_right _ (two_zpow_pos (f.exponent code)))
    simp only [nearest, if_neg (not_le.mpr (magnitude_pos zero)), own, whole,
      roundHalfEven_natCast, code_eq]
    exact min_eq_left finite.le

/-! ### Numbers beyond the reach -/

/-- Up to half the smallest magnitude a number goes to zero. -/
theorem nearest_of_le {x : Rat} (small : x ≤ 2 ^ (f.leastExponent - 1)) : f.nearest x = 0 := by
  unfold nearest
  by_cases positive : x ≤ 0
  · rw [if_pos positive]
  · have positive := not_le.mp positive
    have exponent : binaryExponent x ≤ f.leastExponent - 1 :=
      (zpow_le_zpow_iff_right₀ (by norm_num : (1 : Rat) < 2)).mp
        ((two_zpow_binaryExponent_le positive).trans small)
    have least : max (binaryExponent x - f.fractionBits) f.leastExponent = f.leastExponent :=
      max_eq_right (by omega)
    have half : x / 2 ^ f.leastExponent ≤ 1 / 2 := by
      rw [zpow_sub_one₀ (by norm_num)] at small
      rw [div_le_iff₀ (two_zpow_pos _)]
      linarith
    have none : roundHalfEven (x / 2 ^ f.leastExponent) = 0 :=
      roundHalfEven_of_le_half (div_nonneg positive.le (two_zpow_pos _).le) half
    simp [not_le.mpr positive, least, none]

/-- A number whose exponent alone is more than the exponent field holds goes to infinity. -/
theorem nearest_of_ge {x : Rat} (large : 2 ^ f.decimalReach ≤ x) :
    f.nearest x = f.infinityCode := by
  have positive : 0 < x := lt_of_lt_of_le (by positivity) large
  have exponent : (f.decimalReach : Int) ≤ binaryExponent x := by
    rw [← zpow_natCast] at large
    have := (zpow_lt_zpow_iff_right₀ (by norm_num : (1 : Rat) < 2)).mp
      (large.trans_lt (lt_two_zpow_binaryExponent positive))
    omega
  have steps : 2 ^ f.exponentBits - 1 ≤
      (max (binaryExponent x - f.fractionBits) f.leastExponent - f.leastExponent).toNat := by
    have field : (0 : Int) < 2 ^ (f.exponentBits - 1) := by positivity
    have cast : ((2 ^ f.exponentBits : Nat) : Int) = 2 ^ f.exponentBits := by norm_cast
    simp only [decimalReach, Nat.cast_add, cast] at exponent
    have : (2 ^ f.exponentBits : Int) - 1 ≤
        max (binaryExponent x - f.fractionBits) f.leastExponent - f.leastExponent := by
      rw [leastExponent]
      omega
    omega
  simp only [nearest, if_neg (not_le.mpr positive)]
  refine min_eq_right ?_
  exact (Nat.mul_le_mul_right _ steps).trans (Nat.le_add_right _ _)

/-- A positive integer lies between the powers of ten that its number of digits gives. -/
theorem digitCount_bounds {digits : Nat} (nonzero : digits ≠ 0) :
    (10 : Rat) ^ ((Text.digitCount digits : Int) - 1) ≤ digits ∧
      (digits : Rat) < 10 ^ (Text.digitCount digits : Int) := by
  have count : 0 < Text.digitCount digits := Nat.length_toDigits_pos
  constructor
  · by_cases one : Text.digitCount digits = 1
    · have : (1 : Rat) ≤ digits := by exact_mod_cast Nat.one_le_iff_ne_zero.mpr nonzero
      simpa [one] using this
    · have above : 10 ^ (Text.digitCount digits - 1) ≤ digits := by
        by_contra below
        have := (Nat.length_toDigits_le_iff (by decide) (by omega)).mpr (not_le.mp below)
        unfold Text.digitCount at count this
        omega
      rw [show (Text.digitCount digits : Int) - 1 = (Text.digitCount digits - 1 : Nat) by omega,
        zpow_natCast]
      exact_mod_cast above
  · rw [zpow_natCast]
    exact_mod_cast (Nat.length_toDigits_le_iff (by decide) count).mp le_rfl

/-- **The shortcut for powers of ten beyond the reach gives what rounding gives.** -/
theorem nearestScaled_eq_nearest (f : Format) (digits : Nat) (exponent : Int) :
    f.nearestScaled digits exponent = f.nearest (digits * 10 ^ exponent) := by
  have unit : (0 : Rat) < 10 ^ exponent := by positivity
  have ten : (1 : Rat) ≤ 10 := by norm_num
  have twoTen : (2 : Rat) ^ f.decimalReach ≤ 10 ^ f.decimalReach :=
    pow_le_pow_left₀ (by norm_num) (by norm_num) _
  simp only [nearestScaled]
  by_cases zero : digits = 0
  · subst zero
    simp [nearest_zero]
  obtain ⟨above, below⟩ := digitCount_bounds zero
  by_cases low : (Text.digitCount digits : Int) + exponent < -f.decimalReach
  · have reach : -(f.decimalReach : Int) ≤ f.leastExponent - 1 := by
      have field : (2 : Int) ^ (f.exponentBits - 1) ≤ 2 ^ f.exponentBits :=
        pow_le_pow_right₀ (by norm_num) (Nat.sub_le _ _)
      have cast : ((2 ^ f.exponentBits : Nat) : Int) = 2 ^ f.exponentBits := by norm_cast
      rw [decimalReach, leastExponent, Nat.cast_add, cast]
      omega
    have small : (digits * 10 ^ exponent : Rat) ≤ 2 ^ (f.leastExponent - 1) := calc
      (digits * 10 ^ exponent : Rat) ≤ 10 ^ (Text.digitCount digits : Int) * 10 ^ exponent :=
        mul_le_mul_of_nonneg_right below.le unit.le
      _ = 10 ^ ((Text.digitCount digits : Int) + exponent) := (zpow_add₀ (by norm_num) _ _).symm
      _ ≤ 10 ^ (-(f.decimalReach : Int)) := zpow_le_zpow_right₀ ten low.le
      _ ≤ 2 ^ (-(f.decimalReach : Int)) := by
        rw [zpow_neg, zpow_neg, zpow_natCast, zpow_natCast]
        exact inv_anti₀ (by positivity) twoTen
      _ ≤ 2 ^ (f.leastExponent - 1) := zpow_le_zpow_right₀ (by norm_num) reach
    simp [low, nearest_of_le small]
  by_cases high : (f.decimalReach : Int) < Text.digitCount digits + exponent
  · have large : (2 : Rat) ^ f.decimalReach ≤ digits * 10 ^ exponent := calc
      (2 : Rat) ^ f.decimalReach ≤ 10 ^ f.decimalReach := twoTen
      _ = 10 ^ (f.decimalReach : Int) := (zpow_natCast _ _).symm
      _ ≤ 10 ^ (((Text.digitCount digits : Int) - 1) + exponent) :=
        zpow_le_zpow_right₀ ten (by omega)
      _ = 10 ^ ((Text.digitCount digits : Int) - 1) * 10 ^ exponent := zpow_add₀ (by norm_num) _ _
      _ ≤ digits * 10 ^ exponent := mul_le_mul_of_nonneg_right above unit.le
    simp [zero, low, high, nearest_of_ge large]
  · simp [zero, low, high]

end Format

/-- Rounding a scaled integer is rounding the number it is. -/
theorem Binary.nearestScaled_eq_nearest (f : Format) (negative : Bool) (digits : Nat)
    (exponent : Int) :
    Binary.nearestScaled f negative digits exponent =
      Binary.nearest f negative (digits * 10 ^ exponent) := by
  simp only [Binary.nearestScaled, Binary.nearest, Format.nearestScaled_eq_nearest]

end SignatureText
