/-
**Rounding between two neighbours.**

* `Format.magnitude_succ` — the next code is one unit of the last place larger, over a power of two
  as well; so magnitudes grow with their codes, and every number lies between two of them
  (`Format.exists_between`).
* `Format.nearest_of_lt_half`, `Format.nearest_of_half_lt` — below the midpoint rounding gives the
  lower neighbour, above it the upper one.
* `Format.nearest_of_near` — within a quarter of a unit around a magnitude rounding gives its code.
* `Format.nearest_eq_of_near` — **two numbers round alike if they are nearer to each other than one
  of them is to the midpoint between its neighbours.**
* `Format.eq_or_eq_succ_of_nearest` — every number rounds to one of its neighbours.
* `Format.abs_rounded_sub_le` — the relative error of rounding to a normal magnitude.
* `Format.rounded_of_integer` — few enough binary digits are not changed by rounding.
-/

import Mathlib.Algebra.Order.Archimedean.Basic
import SignatureText.Number.Rounding
import SignatureText.Proofs.Number.Binary

namespace SignatureText

/-! ### Integers -/

/-- The whole part of an integer and less than one more. -/
theorem toNat_floor_add (n : Nat) {t : Rat} (nonneg : 0 ≤ t) (small : t < 1) :
    ((n : Rat) + t).floor.toNat = n := by
  have above : (n : Int) ≤ ((n : Rat) + t).floor :=
    Rat.le_floor_iff.mpr (by push_cast; linarith)
  have below : ((n : Rat) + t).floor < (n : Int) + 1 :=
    Rat.floor_lt_iff.mpr (by push_cast; linarith)
  omega

theorem roundHalfEven_of_lt_half (n : Nat) {t : Rat} (nonneg : 0 ≤ t) (small : t < 1 / 2) :
    roundHalfEven (n + t) = n := by
  simp only [roundHalfEven, toNat_floor_add n nonneg (by linarith), add_sub_cancel_left,
    if_pos small]

theorem roundHalfEven_of_half_lt (n : Nat) {t : Rat} (large : 1 / 2 < t) (small : t < 1) :
    roundHalfEven (n + t) = n + 1 := by
  simp only [roundHalfEven, toNat_floor_add n (by linarith) small, add_sub_cancel_left,
    if_neg (not_lt.mpr large.le), if_pos large]

/-- A number is at least its whole part and less than one more. -/
theorem toNat_floor_bounds {x : Rat} (nonneg : 0 ≤ x) :
    (x.floor.toNat : Rat) ≤ x ∧ x < x.floor.toNat + 1 := by
  have whole : ((x.floor.toNat : Nat) : Rat) = x.floor := by
    have : (0 : Int) ≤ x.floor := Rat.le_floor_iff.mpr (by exact_mod_cast nonneg)
    rw [← Int.cast_natCast, Int.toNat_of_nonneg this]
  have above := Rat.lt_floor_add_one x
  push_cast at above
  rw [whole]
  exact ⟨Rat.floor_le x, above⟩

/-- Rounding to an integer moves a number by a half at most. -/
theorem abs_roundHalfEven_sub_le {x : Rat} (nonneg : 0 ≤ x) :
    |(roundHalfEven x : Rat) - x| ≤ 1 / 2 := by
  obtain ⟨below, above⟩ := toNat_floor_bounds nonneg
  simp only [roundHalfEven]
  rw [abs_le]
  split
  · constructor <;> linarith
  · split
    · push_cast
      constructor <;> linarith
    · have half : x - (x.floor.toNat : Nat) = 1 / 2 := by linarith
      rcases Nat.mod_two_eq_zero_or_one x.floor.toNat with even | odd
      · rw [even, Nat.add_zero]
        constructor <;> linarith
      · rw [odd]
        push_cast
        constructor <;> linarith

namespace Format

variable {f : Format}

/-! ### Neighbours -/

/-- A code is put together from the steps of its exponent and its significand; the next power of
two may be written with the exponent before it. -/
theorem magnitude_steps (f : Format) {steps k : Nat} (carried : k ≤ 2 ^ f.fractionBits * 2)
    (leading : steps = 0 ∨ 2 ^ f.fractionBits ≤ k) :
    f.magnitude (steps * 2 ^ f.fractionBits + k) = k * 2 ^ (f.leastExponent + steps) := by
  have base := Nat.two_pow_pos f.fractionBits
  rw [magnitude, significand, exponent]
  generalize 2 ^ f.fractionBits = b at *
  by_cases small : steps * b + k < b
  · have none : steps = 0 := by
      rcases leading with none | large
      · exact none
      · exact absurd small (not_lt.mpr (large.trans (Nat.le_add_left _ _)))
    subst none
    rw [if_pos small, Nat.div_eq_of_lt small]
    simp
  · have large : b ≤ k := by
      rcases leading with rfl | large
      · simpa using small
      · exact large
    obtain ⟨r, rfl⟩ := Nat.exists_eq_add_of_le large
    rw [if_neg small]
    by_cases carry : r < b
    · have quotient : (steps * b + (b + r)) / b = steps + 1 := by
        rw [← Nat.add_assoc, ← Nat.succ_mul, Nat.mul_comm, Nat.mul_add_div base,
          Nat.div_eq_of_lt carry, Nat.add_zero]
      have remainder : (steps * b + (b + r)) % b = r := by
        rw [← Nat.add_assoc, ← Nat.succ_mul, Nat.mul_comm, Nat.mul_add_mod,
          Nat.mod_eq_of_lt carry]
      rw [quotient, remainder]
      simp
    · obtain rfl : r = b := by omega
      have quotient : (steps * r + (r + r)) / r = steps + 2 := by
        rw [show steps * r + (r + r) = (steps + 2) * r by ring, Nat.mul_div_cancel _ base]
      have remainder : (steps * r + (r + r)) % r = 0 := by
        rw [show steps * r + (r + r) = (steps + 2) * r by ring, Nat.mul_mod_left]
      rw [quotient, remainder]
      have exponent : f.leastExponent + ((steps + 2 - 1 : Nat) : Int) =
          f.leastExponent + steps + 1 := by omega
      rw [exponent, zpow_add_one₀ (by norm_num)]
      push_cast
      ring

/-- The significand of a code, and what may be added to it. -/
theorem significand_bounds (f : Format) (code : Nat) :
    f.significand code + 1 ≤ 2 ^ f.fractionBits * 2 ∧
      ((f.exponent code - f.leastExponent).toNat = 0 ∨
        2 ^ f.fractionBits ≤ f.significand code) := by
  have base := Nat.two_pow_pos f.fractionBits
  have := Nat.mod_lt code base
  have steps : (f.exponent code - f.leastExponent).toNat = code / 2 ^ f.fractionBits - 1 := by
    simp [exponent]
  rw [significand, steps]
  split
  · rename_i small
    rw [Nat.div_eq_of_lt small]
    omega
  · omega

theorem exponent_eq_add_steps (f : Format) (code : Nat) :
    f.leastExponent + ((f.exponent code - f.leastExponent).toNat : Nat) = f.exponent code := by
  have : f.leastExponent ≤ f.exponent code := by simp [exponent]
  omega

/-- **The next magnitude is one unit of the last place larger.** -/
theorem magnitude_succ (f : Format) (code : Nat) :
    f.magnitude (code + 1) = f.magnitude code + 2 ^ f.exponent code := by
  obtain ⟨carried, leading⟩ := f.significand_bounds code
  have next : (f.exponent code - f.leastExponent).toNat * 2 ^ f.fractionBits +
      (f.significand code + 1) = code + 1 := by
    rw [← Nat.add_assoc, code_eq]
  rw [← next, magnitude_steps f carried (leading.imp_right fun large => by omega),
    exponent_eq_add_steps, magnitude]
  push_cast
  ring

theorem magnitude_strictMono (f : Format) : StrictMono f.magnitude :=
  strictMono_nat_of_lt_succ fun code => by
    rw [magnitude_succ]
    exact lt_add_of_pos_right _ (two_zpow_pos _)

theorem leastExponent_le_exponent (f : Format) (code : Nat) :
    f.leastExponent ≤ f.exponent code := by
  simp [exponent]

theorem exponent_succ_le (f : Format) (code : Nat) :
    f.exponent (code + 1) ≤ f.exponent code + 1 := by
  have base := Nat.two_pow_pos f.fractionBits
  have : (code + 1) / 2 ^ f.fractionBits ≤ code / 2 ^ f.fractionBits + 1 := by
    rw [← Nat.add_div_right _ base]
    exact Nat.div_le_div_right (by omega)
  simp only [exponent]
  omega

theorem exponent_le_exponent_succ (f : Format) (code : Nat) :
    f.exponent code ≤ f.exponent (code + 1) := by
  have : code / 2 ^ f.fractionBits ≤ (code + 1) / 2 ^ f.fractionBits :=
    Nat.div_le_div_right (Nat.le_succ code)
  simp only [exponent]
  omega

/-- **Every number lies between two neighbours.** -/
theorem exists_between (f : Format) {x : Rat} (nonneg : 0 ≤ x) :
    ∃ code, f.magnitude code ≤ x ∧ x < f.magnitude (code + 1) := by
  have grows (n : Nat) : (n : Rat) * 2 ^ f.leastExponent ≤ f.magnitude n := by
    induction n with
    | zero => simp [magnitude, significand]
    | succ n ih =>
        have unit := zpow_le_zpow_right₀ (by norm_num : (1 : Rat) ≤ 2)
          (f.leastExponent_le_exponent n)
        rw [magnitude_succ]
        push_cast
        linarith
  have beyond : ∃ n, x < f.magnitude n := by
    obtain ⟨n, large⟩ := exists_nat_gt (x / 2 ^ f.leastExponent)
    rw [div_lt_iff₀ (two_zpow_pos _)] at large
    exact ⟨n, large.trans_le (grows n)⟩
  have zero : f.magnitude 0 = 0 := by simp [magnitude, significand]
  cases first : Nat.find beyond with
  | zero =>
      have := Nat.find_spec beyond
      rw [first, zero] at this
      exact absurd nonneg (not_le.mpr this)
  | succ code =>
      refine ⟨code, not_lt.mp (Nat.find_min beyond (by omega)), ?_⟩
      rw [← first]
      exact Nat.find_spec beyond

/-- Between two neighbours rounding adds an integer to the lower code. -/
theorem nearest_of_between {code : Nat} {t : Rat} (nonneg : 0 ≤ t) (small : t < 1)
    (positive : 0 < f.magnitude code + t * 2 ^ f.exponent code) :
    f.nearest (f.magnitude code + t * 2 ^ f.exponent code) =
      min ((f.exponent code - f.leastExponent).toNat * 2 ^ f.fractionBits +
        roundHalfEven (f.significand code + t)) f.infinityCode := by
  have unit := two_zpow_pos (f.exponent code)
  have own := exponent_of_between positive (le_add_of_nonneg_right (by positivity))
    (add_lt_add_of_le_of_lt le_rfl (by nlinarith))
  have scaled : (f.magnitude code + t * 2 ^ f.exponent code) / 2 ^ f.exponent code =
      f.significand code + t := by
    rw [magnitude, ← add_mul, mul_div_assoc, div_self unit.ne', mul_one]
  simp only [nearest, if_neg (not_le.mpr positive), own, scaled]

/-- Below the midpoint rounding gives the lower neighbour. -/
theorem nearest_of_lt_half {code : Nat} {x : Rat} (finite : code ≤ f.infinityCode)
    (above : f.magnitude code ≤ x) (below : x < f.magnitude code + 2 ^ f.exponent code / 2) :
    f.nearest x = code := by
  have unit := two_zpow_pos (f.exponent code)
  by_cases positive : x ≤ 0
  · obtain rfl : code = 0 := by
      by_contra nonzero
      exact absurd (magnitude_pos (f := f) nonzero) (not_lt.mpr (above.trans positive))
    simp [nearest, positive]
  obtain ⟨t, rfl⟩ : ∃ t, x = f.magnitude code + t * 2 ^ f.exponent code :=
    ⟨(x - f.magnitude code) / 2 ^ f.exponent code, by field_simp; ring⟩
  have nonneg : 0 ≤ t := by
    by_contra negative
    nlinarith [mul_neg_of_neg_of_pos (not_le.mp negative) unit]
  have small : t < 1 / 2 := by
    by_contra large
    nlinarith [mul_le_mul_of_nonneg_right (not_lt.mp large) unit.le]
  rw [nearest_of_between nonneg (by linarith) (not_le.mp positive),
    roundHalfEven_of_lt_half _ nonneg small, code_eq]
  exact min_eq_left finite

/-- Above the midpoint rounding gives the upper neighbour. -/
theorem nearest_of_half_lt {code : Nat} {x : Rat} (finite : code < f.infinityCode)
    (above : f.magnitude code + 2 ^ f.exponent code / 2 < x) (below : x < f.magnitude (code + 1)) :
    f.nearest x = code + 1 := by
  have unit := two_zpow_pos (f.exponent code)
  have nonneg : 0 ≤ f.magnitude code := mul_nonneg (Nat.cast_nonneg _) unit.le
  rw [magnitude_succ] at below
  obtain ⟨t, rfl⟩ : ∃ t, x = f.magnitude code + t * 2 ^ f.exponent code :=
    ⟨(x - f.magnitude code) / 2 ^ f.exponent code, by field_simp; ring⟩
  have large : 1 / 2 < t := by
    by_contra small
    nlinarith [mul_le_mul_of_nonneg_right (not_lt.mp small) unit.le]
  have small : t < 1 := by
    by_contra large
    nlinarith [mul_le_mul_of_nonneg_right (not_lt.mp large) unit.le]
  rw [nearest_of_between (by linarith) small (by nlinarith),
    roundHalfEven_of_half_lt _ large small, ← Nat.add_assoc, code_eq]
  exact min_eq_left finite

/-- Within a quarter of a unit around a magnitude rounding gives its code. -/
theorem nearest_of_near {code : Nat} {x : Rat} (finite : code ≤ f.infinityCode) (nonneg : 0 ≤ x)
    (near : |x - f.magnitude code| < 2 ^ f.exponent code / 4) : f.nearest x = code := by
  have unit := two_zpow_pos (f.exponent code)
  obtain ⟨lower, upper⟩ := abs_lt.mp near
  by_cases above : f.magnitude code ≤ x
  · exact nearest_of_lt_half finite above (by linarith)
  · cases code with
    | zero =>
        have zero : f.magnitude 0 = 0 := by simp [magnitude, significand]
        rw [zero] at above
        exact absurd nonneg above
    | succ code =>
        have step : (2 : Rat) ^ f.exponent (code + 1) ≤ 2 ^ f.exponent code * 2 := by
          rw [← zpow_add_one₀ (by norm_num)]
          exact zpow_le_zpow_right₀ (by norm_num) (f.exponent_succ_le code)
        rw [magnitude_succ] at lower
        exact nearest_of_half_lt finite (by linarith) (not_le.mp above)

/--
**Two numbers round alike if they are nearer to each other than one of them is to the midpoint
between its neighbours.**
-/
theorem nearest_eq_of_near {code : Nat} {x y d : Rat} (finite : code < f.infinityCode)
    (above : f.magnitude code ≤ x) (below : x < f.magnitude (code + 1)) (nonneg : 0 ≤ y)
    (near : |y - x| ≤ d) (small : d < 2 ^ f.exponent code / 4)
    (clear : d < |x - (f.magnitude code + 2 ^ f.exponent code / 2)|) :
    f.nearest y = f.nearest x := by
  have unit := two_zpow_pos (f.exponent code)
  have next := f.magnitude_succ code
  obtain ⟨lower, upper⟩ := abs_le.mp near
  rcases lt_abs.mp clear with right | left
  · rw [nearest_of_half_lt finite (by linarith) below]
    by_cases inside : y < f.magnitude (code + 1)
    · exact nearest_of_half_lt finite (by linarith) inside
    · have wider : (2 : Rat) ^ f.exponent code ≤ 2 ^ f.exponent (code + 1) :=
        zpow_le_zpow_right₀ (by norm_num) (f.exponent_le_exponent_succ code)
      exact nearest_of_lt_half finite (not_lt.mp inside) (by linarith)
  · rw [nearest_of_lt_half finite.le above (by linarith)]
    by_cases inside : f.magnitude code ≤ y
    · exact nearest_of_lt_half finite.le inside (by linarith)
    · refine nearest_of_near finite.le nonneg (abs_lt.mpr ⟨by linarith, ?_⟩)
      have := not_le.mp inside
      linarith

/-! ### Errors -/

/-- Between two neighbours the lower significand is kept or raised by one, whichever is nearer. -/
theorem exists_nearest_eq {code : Nat} {x : Rat} (positive : 0 < x) (above : f.magnitude code ≤ x)
    (below : x < f.magnitude (code + 1)) :
    ∃ k, f.significand code ≤ k ∧ k ≤ f.significand code + 1 ∧
      |k * 2 ^ f.exponent code - x| ≤ 2 ^ f.exponent code / 2 ∧
      f.nearest x = min ((f.exponent code - f.leastExponent).toNat * 2 ^ f.fractionBits + k)
        f.infinityCode := by
  have unit := two_zpow_pos (f.exponent code)
  rw [magnitude_succ] at below
  obtain ⟨t, rfl⟩ : ∃ t, x = f.magnitude code + t * 2 ^ f.exponent code :=
    ⟨(x - f.magnitude code) / 2 ^ f.exponent code, by field_simp; ring⟩
  have nonneg : 0 ≤ t := by
    by_contra negative
    nlinarith [mul_neg_of_neg_of_pos (not_le.mp negative) unit]
  have small : t < 1 := by
    by_contra large
    nlinarith [mul_le_mul_of_nonneg_right (not_lt.mp large) unit.le]
  have round := nearest_of_between nonneg small positive
  have error := abs_roundHalfEven_sub_le (x := f.significand code + t) (by positivity)
  generalize roundHalfEven (f.significand code + t) = k at round error
  obtain ⟨lower, upper⟩ := abs_le.mp error
  refine ⟨k, ?_, ?_, ?_, round⟩
  · have : (f.significand code : Rat) < k + 1 := by linarith
    exact Nat.lt_succ_iff.mp (by exact_mod_cast this)
  · have : (k : Rat) < f.significand code + 1 + 1 := by linarith
    exact Nat.lt_succ_iff.mp (by exact_mod_cast this)
  · have difference : (k : Rat) * 2 ^ f.exponent code -
        (f.magnitude code + t * 2 ^ f.exponent code) =
          (k - (f.significand code + t)) * 2 ^ f.exponent code := by
      rw [magnitude]
      ring
    rw [difference, abs_mul, abs_of_pos unit]
    linarith [mul_le_mul_of_nonneg_right error unit.le]

/-- A number between two neighbours rounds to one of them. -/
theorem eq_or_eq_succ_of_nearest {code lower : Nat} {x : Rat} (finite : code < f.infinityCode)
    (positive : 0 < x) (above : f.magnitude lower ≤ x) (below : x < f.magnitude (lower + 1))
    (nearest : f.nearest x = code) : code = lower ∨ code = lower + 1 := by
  obtain ⟨k, atLeast, atMost, -, round⟩ := exists_nearest_eq positive above below
  have own := f.code_eq lower
  omega

/-- **Rounding moves a number by half a unit of the last place at most.** -/
theorem abs_rounded_sub_le_half {code : Nat} {x : Rat} (finite : code < f.infinityCode)
    (positive : 0 < x) (above : f.magnitude code ≤ x) (below : x < f.magnitude (code + 1)) :
    |f.rounded x - x| ≤ 2 ^ f.exponent code / 2 := by
  obtain ⟨k, atLeast, atMost, near, round⟩ := exists_nearest_eq positive above below
  obtain ⟨carried, leading⟩ := f.significand_bounds code
  have own := f.code_eq code
  rw [min_eq_left (by omega)] at round
  rwa [rounded, round, magnitude_steps f (atMost.trans carried)
    (leading.imp_right fun large => large.trans atLeast), exponent_eq_add_steps]

/-- The relative error of rounding to a magnitude with a leading one. -/
theorem abs_rounded_sub_le {x : Rat} (normal : f.magnitude (2 ^ f.fractionBits) ≤ x)
    (finite : x < f.magnitude f.infinityCode) :
    |f.rounded x - x| ≤ x / 2 ^ (f.fractionBits + 1) := by
  have base : 2 ^ f.fractionBits ≠ 0 := (Nat.two_pow_pos _).ne'
  have positive : 0 < x := (magnitude_pos base).trans_le normal
  obtain ⟨code, above, below⟩ := f.exists_between positive.le
  have inside : code < f.infinityCode :=
    f.magnitude_strictMono.lt_iff_lt.mp (above.trans_lt finite)
  have large : 2 ^ f.fractionBits ≤ code :=
    Nat.lt_succ_iff.mp (f.magnitude_strictMono.lt_iff_lt.mp (normal.trans_lt below))
  have leading : ((2 ^ f.fractionBits : Nat) : Rat) ≤ f.significand code := by
    rw [significand, if_neg (not_lt.mpr large)]
    exact_mod_cast Nat.le_add_right _ _
  refine (abs_rounded_sub_le_half inside positive above below).trans ?_
  have unit := two_zpow_pos (f.exponent code)
  have : (2 : Rat) ^ f.fractionBits * 2 ^ f.exponent code ≤ x := by
    refine le_trans ?_ above
    rw [magnitude]
    push_cast at leading
    exact mul_le_mul_of_nonneg_right leading unit.le
  rw [pow_succ, div_le_div_iff₀ (by norm_num) (by positivity)]
  linarith

/-- **A number with few enough binary digits is not changed by rounding.** -/
theorem rounded_of_integer {k : Nat} {e : Int} (few : k < 2 ^ (f.fractionBits + 1))
    (least : f.leastExponent ≤ e) (finite : (k : Rat) * 2 ^ e < f.magnitude f.infinityCode) :
    f.rounded (k * 2 ^ e) = k * 2 ^ e := by
  have unit := two_zpow_pos e
  obtain ⟨code, above, below⟩ := f.exists_between (x := k * 2 ^ e) (by positivity)
  have inside : code < f.infinityCode :=
    f.magnitude_strictMono.lt_iff_lt.mp (above.trans_lt finite)
  have coarse : f.exponent code ≤ e := by
    by_contra fine
    have shift : (2 : Rat) ^ (e + 1) ≤ 2 ^ f.exponent code :=
      zpow_le_zpow_right₀ (by norm_num) (by omega)
    have leading : ((2 ^ f.fractionBits : Nat) : Rat) ≤ f.significand code := by
      rcases (f.significand_bounds code).2 with none | large
      · have := f.exponent_eq_add_steps code
        omega
      · exact_mod_cast large
    have : (k : Rat) < 2 ^ (f.fractionBits + 1) := by exact_mod_cast few
    rw [magnitude] at above
    rw [zpow_add_one₀ (by norm_num)] at shift
    push_cast at leading
    rw [pow_succ] at this
    nlinarith [mul_le_mul leading shift (by positivity) (Nat.cast_nonneg _)]
  obtain ⟨n, rfl⟩ : ∃ n : Nat, e = f.exponent code + n := ⟨(e - f.exponent code).toNat, by omega⟩
  have own := two_zpow_pos (f.exponent code)
  have split : (k : Rat) * 2 ^ (f.exponent code + n) =
      ((k * 2 ^ n : Nat) : Rat) * 2 ^ f.exponent code := by
    rw [zpow_add₀ (by norm_num), zpow_natCast]
    push_cast
    ring
  rw [split] at above below ⊢
  have equal : f.significand code = k * 2 ^ n := by
    rw [magnitude_succ, magnitude, ← add_one_mul] at below
    rw [magnitude] at above
    have lower := le_of_mul_le_mul_right above own
    have upper := lt_of_mul_lt_mul_right below own.le
    have : k * 2 ^ n < f.significand code + 1 := by exact_mod_cast upper
    have : f.significand code ≤ k * 2 ^ n := by exact_mod_cast lower
    omega
  rw [← equal]
  exact congrArg f.magnitude (nearest_magnitude inside)

end Format

end SignatureText
