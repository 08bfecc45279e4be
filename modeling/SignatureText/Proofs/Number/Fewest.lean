/-
**The shortest digits are the fewest that read back, and of those the nearest.**

`Format.IsShortest` says of a decimal number what being shortest means, with no word on how it is
found; `Format.isShortest_shortest` is the result.

* `Format.value_le_or_le` — no number with so many digits lies between the two neighbours of a
  magnitude among them: a finer one has a smaller first digit.
* `Format.isSome_withDigits_of_reads`, `Format.abs_sub_le_of_reads` — so if any number with so many
  digits reads back, the neighbour on its side does, since rounding keeps the order; and what is
  found is at least as near.
-/

import SignatureText.Proofs.Number.FewDigits
import SignatureText.Proofs.Number.Nearest

namespace SignatureText

theorem Text.digitCount_pos (n : Nat) : 0 < Text.digitCount n :=
  Nat.length_toDigits_pos

theorem Text.digitCount_le_iff {n count : Nat} (some : 0 < count) :
    Text.digitCount n ≤ count ↔ n < 10 ^ count :=
  Nat.length_toDigits_le_iff (by decide) some

/-- The neighbour that is picked is as near as either of the two. -/
theorem Tie.abs_pick_sub_le (tie : Tie) {x : Rat} {lower : Nat} (above : (lower : Rat) ≤ x)
    (below : x < lower + 1) :
    |(tie.pick x lower : Rat) - x| ≤ x - lower ∧
      |(tie.pick x lower : Rat) - x| ≤ lower + 1 - x := by
  have atLower : |(lower : Rat) - x| = x - lower := by
    rw [abs_sub_comm, abs_of_nonneg (sub_nonneg.mpr above)]
  have atUpper : |((lower + 1 : Nat) : Rat) - x| = lower + 1 - x := by
    rw [Nat.cast_succ, abs_of_nonneg (sub_nonneg.mpr below.le)]
  by_cases less : 2 * (x - lower) < 1
  · rw [pick.eq_def, if_pos less, atLower]
    constructor <;> linarith
  by_cases more : 1 < 2 * (x - lower)
  · rw [pick.eq_def, if_neg less, if_pos more, atUpper]
    constructor <;> linarith
  · rcases tie.pick_eq_or x lower with picked | picked
    · rw [picked, atLower]
      constructor <;> linarith
    · rw [picked, atUpper]
      constructor <;> linarith

namespace Format

variable {f : Format} {tie : Tie} {code count : Nat} {s other : Scaled}

/-- A decimal number rounds to the code, with the fewest digits and as near to it as they allow. -/
structure IsShortest (f : Format) (code : Nat) (s : Scaled) : Prop where
  readsBack : f.nearest s.value = code
  fewest : ∀ other : Scaled, f.nearest other.value = code →
    Text.digitCount s.digits ≤ Text.digitCount other.digits
  nearest : ∀ other : Scaled, f.nearest other.value = code →
    Text.digitCount other.digits = Text.digitCount s.digits →
      |s.value - f.magnitude code| ≤ |other.value - f.magnitude code|

/-! ### Numbers with so many digits -/

/-- The lower neighbour has its first digit where the magnitude has it. -/
theorem le_digits_neighbour (nonzero : code ≠ 0) (some : 0 < count) :
    10 ^ (count - 1) ≤ (f.neighbour code count).digits := by
  obtain ⟨-, upper⟩ := neighbour_bounds (f := f) nonzero count
  have first := ten_zpow_decimalExponent_le (f.magnitude_pos nonzero)
  have split : decimalExponent (f.magnitude code) =
      (count - 1 : Nat) + (f.neighbour code count).exponent := by
    simp only [neighbour]
    omega
  have less := first.trans_lt upper
  rw [split, zpow_add₀ (by norm_num), zpow_natCast, Scaled.value, Scaled.exponent_next] at less
  have digits : (10 : Rat) ^ (count - 1) < (f.neighbour code count).next.digits :=
    lt_of_mul_lt_mul_right less (by positivity)
  exact Nat.lt_succ_iff.mp (by exact_mod_cast digits)

/-- **No number with so many digits lies between the two neighbours.** -/
theorem value_le_or_le (nonzero : code ≠ 0) (some : 0 < count)
    (few : Text.digitCount other.digits ≤ count) :
    other.value ≤ (f.neighbour code count).value ∨
      (f.neighbour code count).next.value ≤ other.value := by
  have small : other.digits < 10 ^ count := (Text.digitCount_le_iff some).mp few
  have first := le_digits_neighbour (f := f) nonzero some
  generalize f.neighbour code count = lower at first ⊢
  have unit : (0 : Rat) < 10 ^ lower.exponent := by positivity
  by_cases fine : other.exponent < lower.exponent
  · refine .inl ?_
    calc other.value ≤ 10 ^ count * 10 ^ other.exponent :=
          mul_le_mul_of_nonneg_right (by exact_mod_cast small.le) (by positivity)
      _ ≤ 10 ^ count * 10 ^ (lower.exponent - 1) :=
          mul_le_mul_of_nonneg_left (zpow_le_zpow_right₀ (by norm_num) (by omega)) (by positivity)
      _ = 10 ^ (count - 1) * 10 ^ lower.exponent := by
          rw [← zpow_natCast, ← zpow_natCast, ← zpow_add₀ (by norm_num), ← zpow_add₀ (by norm_num)]
          congr 1
          omega
      _ ≤ lower.value := mul_le_mul_of_nonneg_right (by exact_mod_cast first) unit.le
  · -- On the grid itself a number is an integer of its steps.
    obtain ⟨n, coarse⟩ : ∃ n : Nat, other.exponent = n + lower.exponent :=
      ⟨(other.exponent - lower.exponent).toNat, by omega⟩
    have steps : other.value = ((other.digits * 10 ^ n : Nat) : Rat) * 10 ^ lower.exponent := by
      rw [Scaled.value, coarse, zpow_add₀ (by norm_num), zpow_natCast]
      push_cast
      ring
    rw [steps]
    rcases Nat.lt_or_ge lower.digits (other.digits * 10 ^ n) with above | below
    · exact .inr (mul_le_mul_of_nonneg_right (by exact_mod_cast above) unit.le)
    · exact .inl (mul_le_mul_of_nonneg_right (by exact_mod_cast below) unit.le)

/-- What lies between a magnitude and a number that rounds to it rounds to it as well. -/
theorem nearest_of_between_reads (fraction : 0 < f.fractionBits) (finite : code < f.infinityCode)
    (reads : f.nearest other.value = code) {x : Rat}
    (between : other.value ≤ x ∧ x ≤ f.magnitude code ∨ f.magnitude code ≤ x ∧ x ≤ other.value) :
    f.nearest x = code := by
  have own := nearest_magnitude finite
  have nonneg : 0 ≤ f.magnitude code := mul_nonneg (Nat.cast_nonneg _) (two_zpow_pos _).le
  rcases between with ⟨first, second⟩ | ⟨first, second⟩
  · refine le_antisymm ?_ ?_
    · exact (nearest_mono fraction (other.value_nonneg.trans first) second).trans_eq own
    · exact reads.symm.trans_le (nearest_mono fraction other.value_nonneg first)
  · refine le_antisymm ?_ ?_
    · exact (nearest_mono fraction (nonneg.trans first) second).trans_eq reads
    · exact own.symm.trans_le (nearest_mono fraction nonneg first)

/-- **If a number with so many digits reads back, one is found.** -/
theorem isSome_withDigits_of_reads (fraction : 0 < f.fractionBits) (nonzero : code ≠ 0)
    (finite : code < f.infinityCode) (some : 0 < count)
    (few : Text.digitCount other.digits ≤ count) (reads : f.nearest other.value = code) :
    (f.withDigits tie code count).isSome = true := by
  obtain ⟨lower, upper⟩ := neighbour_bounds (f := f) nonzero count
  rw [isSome_withDigits_iff]
  rcases value_le_or_le nonzero some few with below | above
  · exact .inl (nearest_of_between_reads fraction finite reads (.inl ⟨below, lower⟩))
  · exact .inr (nearest_of_between_reads fraction finite reads (.inr ⟨upper.le, above⟩))

/-- The neighbour that is picked is as near as either of the two. -/
theorem abs_picked_sub_le (nonzero : code ≠ 0) (tie : Tie) (count : Nat) :
    let lower := f.neighbour code count
    let picked : Scaled :=
      ⟨tie.pick (f.magnitude code / 10 ^ lower.exponent) lower.digits, lower.exponent⟩
    |picked.value - f.magnitude code| ≤ f.magnitude code - lower.value ∧
      |picked.value - f.magnitude code| ≤ lower.next.value - f.magnitude code := by
  intro lower picked
  obtain ⟨below, above⟩ := neighbour_bounds (f := f) nonzero count
  have unit : (0 : Rat) < 10 ^ lower.exponent := by positivity
  have steps : f.magnitude code =
      f.magnitude code / 10 ^ lower.exponent * 10 ^ lower.exponent :=
    (div_mul_cancel₀ _ unit.ne').symm
  rw [Scaled.value, ← le_div_iff₀ unit] at below
  rw [Scaled.value, Scaled.next, Nat.cast_succ, ← div_lt_iff₀ unit] at above
  obtain ⟨left, right⟩ := tie.abs_pick_sub_le below above
  have distance : |picked.value - f.magnitude code| =
      |(picked.digits : Rat) - f.magnitude code / 10 ^ lower.exponent| * 10 ^ lower.exponent := by
    conv_lhs => rw [steps, Scaled.value, ← sub_mul, abs_mul, abs_of_pos unit]
  rw [distance]
  constructor
  · calc _ ≤ (f.magnitude code / 10 ^ lower.exponent - lower.digits) * 10 ^ lower.exponent :=
          mul_le_mul_of_nonneg_right left unit.le
      _ = f.magnitude code - lower.value := by rw [sub_mul, ← steps, Scaled.value]
  · calc _ ≤ (lower.digits + 1 - f.magnitude code / 10 ^ lower.exponent) * 10 ^ lower.exponent :=
          mul_le_mul_of_nonneg_right right unit.le
      _ = lower.next.value - f.magnitude code := by
          rw [sub_mul, ← steps, Scaled.value, Scaled.next, Nat.cast_succ]

/-- **What is found is at least as near as any number with so many digits that reads back.** -/
theorem abs_sub_le_of_reads (fraction : 0 < f.fractionBits) (nonzero : code ≠ 0)
    (finite : code < f.infinityCode) (some : 0 < count)
    (few : Text.digitCount other.digits ≤ count) (reads : f.nearest other.value = code)
    (found : f.withDigits tie code count = .some s) :
    |s.value - f.magnitude code| ≤ |other.value - f.magnitude code| := by
  obtain ⟨lower, upper⟩ := neighbour_bounds (f := f) nonzero count
  obtain ⟨left, right⟩ := abs_picked_sub_le (f := f) nonzero tie count
  rcases value_le_or_le nonzero some few with below | above
  · have hit := nearest_of_between_reads fraction finite reads (.inl ⟨below, lower⟩)
    have far : f.magnitude code - (f.neighbour code count).value ≤
        |other.value - f.magnitude code| := by
      rw [abs_sub_comm, abs_of_nonneg (by linarith)]
      linarith
    rcases withDigits_cases found with ⟨-, -, rfl⟩ | ⟨-, -, rfl⟩ | ⟨missed, -, -⟩
    · exact left.trans far
    · rwa [abs_sub_comm, abs_of_nonneg (by linarith)]
    · exact absurd hit missed
  · have hit := nearest_of_between_reads fraction finite reads (.inr ⟨upper.le, above⟩)
    have far : (f.neighbour code count).next.value - f.magnitude code ≤
        |other.value - f.magnitude code| := by
      rw [abs_of_nonneg (by linarith)]
      linarith
    rcases withDigits_cases found with ⟨-, -, rfl⟩ | ⟨-, missed, -⟩ | ⟨-, -, rfl⟩
    · exact right.trans far
    · exact absurd hit missed
    · rwa [abs_of_nonneg (by linarith)]

/-! ### The search -/

/-- Without the zeros at their end digits are no more than were asked for, after a carry as well. -/
theorem digitCount_trimmed_le (nonzero : code ≠ 0) (some : 0 < count)
    (found : f.withDigits tie code count = .some s) :
    Text.digitCount s.trimmed.digits ≤ count := by
  have few := digits_le_of_withDigits nonzero found
  have less := s.trimmed_bounds.1
  rw [Text.digitCount_le_iff some]
  rcases few.lt_or_eq with few | carry
  · exact less.trans_lt few
  · obtain ⟨n, rfl⟩ := Nat.exists_eq_succ_of_ne_zero some.ne'
    rw [Nat.pow_succ] at carry
    have positive : 0 < 10 ^ n := Nat.pow_pos (by decide)
    have tail : s.digits ≠ 0 ∧ s.digits % 10 = 0 := by omega
    have dropped : s.trimmed.digits ≤ s.digits / 10 := by
      rw [Scaled.trimmed, if_pos tail]
      exact (Scaled.trimmed_bounds _).1
    rw [Nat.pow_succ]
    omega

/-- **The shortest digits of a finite number are the fewest that round to it, and of those the
nearest**, in every format whose numbers the largest count of digits tells apart. -/
theorem isShortest_shortest (fraction : 0 < f.fractionBits)
    (enough : 2 ^ (f.fractionBits + 1) < 10 ^ (mostDigits - 1)) (tie : Tie)
    (finite : code < f.infinityCode) : f.IsShortest code (f.shortest tie code) := by
  by_cases zero : code = 0
  · subst zero
    have digits : f.shortest tie 0 = ⟨0, 0⟩ := rfl
    refine ⟨nearest_shortest tie finite, fun other _ => ?_, fun other _ _ => ?_⟩
    · rw [digits]
      exact Text.digitCount_pos other.digits
    · have exact : (f.shortest tie 0).value = f.magnitude 0 := by
        simp [digits, Scaled.value, magnitude, significand]
      rw [exact, sub_self, abs_zero]
      exact abs_nonneg _
  obtain ⟨count, s, ⟨some, -⟩, found, none, result⟩ := shortest_eq_trimmed tie zero
    (by decide : 0 < mostDigits) le_rfl (isSome_withDigits zero finite.le enough)
  have few : Text.digitCount s.trimmed.digits ≤ count := digitCount_trimmed_le zero some found
  refine ⟨nearest_shortest tie finite, fun other reads => ?_, fun other reads same => ?_⟩
  · rw [result]
    by_contra fewer
    have positive := Text.digitCount_pos other.digits
    have hit : (f.withDigits tie code (Text.digitCount other.digits)).isSome = true :=
      isSome_withDigits_of_reads fraction zero finite positive le_rfl reads
    rw [none _ (by omega) positive] at hit
    cases hit
  · rw [result] at same ⊢
    rw [Scaled.value_trimmed]
    exact abs_sub_le_of_reads fraction zero finite some (same.trans_le few) reads found

end Format

end SignatureText
