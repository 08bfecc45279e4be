/-
**Shortest digits read back.**

Whatever the tie rule and the layout, the numeral of a finite number means a number that rounds to
it again, and it has the number's sign: `Binary.nearest_numeral`. Three facts carry this.

* `Format.withDigits_cases` — digits that are found are one of the two neighbours on their grid, and
  they have been tested.
* `Format.nearest_shortest` — digits that are chosen have been tested by reading them back, and the
  full expansion that stands in for them is the magnitude itself.
* `RealLayout.magnitude_numeral` — a layout moves the point and the power of ten against each other
  and leaves the number as it is.

So a numeral determines the finite number it was made from: `Binary.eq_of_numeral_eq`.
-/

import SignatureText.Number.Shortest
import SignatureText.Proofs.Number.Binary

namespace SignatureText

/-! ### Digits -/

namespace Scaled

theorem value_trimmed (s : Scaled) : s.trimmed.value = s.value := by
  fun_induction trimmed s with
  | case1 s trims ih =>
      rw [ih]
      have digits : (s.digits : Rat) = 10 * (s.digits / 10 : Nat) := by
        exact_mod_cast (Nat.mul_div_cancel' (Nat.dvd_of_mod_eq_zero trims.2)).symm
      rw [value, value, digits, zpow_add_one₀ (by norm_num)]
      push_cast
      ring
  | case2 s => rfl

/-- The number with digits that are one more. -/
def next (s : Scaled) : Scaled :=
  ⟨s.digits + 1, s.exponent⟩

@[simp] theorem exponent_next (s : Scaled) : s.next.exponent = s.exponent := rfl

theorem value_next (s : Scaled) : s.next.value = s.value + 10 ^ s.exponent := by
  simp only [value, next, Nat.cast_succ]
  exact add_one_mul _ _

end Scaled

/-- A neighbour is picked. -/
theorem Tie.pick_eq_or (tie : Tie) (x : Rat) (lower : Nat) :
    tie.pick x lower = lower ∨ tie.pick x lower = lower + 1 := by
  unfold pick
  split
  · exact .inl rfl
  · split
    · exact .inr rfl
    · cases tie
      · exact .inr rfl
      · rcases Nat.mod_two_eq_zero_or_one lower with even | odd
        · exact .inl (by simp [even])
        · exact .inr (by simp [odd])

namespace Format

variable {f : Format} {tie : Tie} {code count : Nat} {s : Scaled}

/-- The neighbour below a magnitude among the numbers with so many digits. -/
def neighbour (f : Format) (code count : Nat) : Scaled :=
  let exponent := decimalExponent (f.magnitude code) - count + 1
  ⟨(f.magnitude code / 10 ^ exponent).floor.toNat, exponent⟩

/-- What is found depends on which of the two neighbours read back. -/
theorem withDigits_cases (found : f.withDigits tie code count = some s) :
    f.nearest (f.neighbour code count).value = code ∧
        f.nearest (f.neighbour code count).next.value = code ∧
        s = ⟨tie.pick (f.magnitude code / 10 ^ (f.neighbour code count).exponent)
          (f.neighbour code count).digits, (f.neighbour code count).exponent⟩ ∨
      f.nearest (f.neighbour code count).value = code ∧
        f.nearest (f.neighbour code count).next.value ≠ code ∧ s = f.neighbour code count ∨
      f.nearest (f.neighbour code count).value ≠ code ∧
        f.nearest (f.neighbour code count).next.value = code ∧
        s = (f.neighbour code count).next := by
  simp only [withDigits] at found
  split at found
  · next lower upper =>
      cases found
      exact .inl ⟨of_decide_eq_true lower, of_decide_eq_true upper, rfl⟩
  · next lower upper =>
      cases found
      exact .inr (.inl ⟨of_decide_eq_true lower, of_decide_eq_false upper, rfl⟩)
  · next lower upper =>
      cases found
      exact .inr (.inr ⟨of_decide_eq_false lower, of_decide_eq_true upper, rfl⟩)
  · cases found

/-- Digits that are found are one of the two neighbours of the magnitude on their grid. -/
theorem eq_or_next_of_withDigits (found : f.withDigits tie code count = some s) :
    s = f.neighbour code count ∨ s = (f.neighbour code count).next := by
  rcases withDigits_cases found with ⟨-, -, rfl⟩ | ⟨-, -, rfl⟩ | ⟨-, -, rfl⟩
  · exact (tie.pick_eq_or _ _).imp (congrArg (Scaled.mk · _)) (congrArg (Scaled.mk · _))
  · exact .inl rfl
  · exact .inr rfl

/-- Digits that are found have been read back. -/
theorem nearest_withDigits (found : f.withDigits tie code count = some s) :
    f.nearest s.value = code := by
  rcases withDigits_cases found with ⟨lower, upper, rfl⟩ | ⟨lower, -, rfl⟩ | ⟨-, upper, rfl⟩
  · rcases tie.pick_eq_or (f.magnitude code / 10 ^ (f.neighbour code count).exponent)
      (f.neighbour code count).digits with picked | picked
    · rw [picked]
      exact lower
    · rw [picked]
      exact upper
  · exact lower
  · exact upper

theorem value_expansion (code : Nat) : (f.expansion code).value = f.magnitude code := by
  simp only [expansion, magnitude]
  by_cases whole : 0 ≤ f.exponent code
  · obtain ⟨e, exponent⟩ := Int.eq_ofNat_of_zero_le whole
    simp [Scaled.value, exponent]
  · obtain ⟨e, exponent⟩ := Int.exists_eq_neg_ofNat (le_of_not_ge whole)
    have halves : (5 : Rat) ^ e * (10 ^ e)⁻¹ = (2 ^ e)⁻¹ := by
      rw [show (10 : Rat) = 5 * 2 by norm_num, mul_pow]
      field_simp
    rw [if_neg whole, Scaled.value, exponent, neg_neg, Int.toNat_natCast, zpow_neg, zpow_neg,
      zpow_natCast, zpow_natCast, ← halves]
    push_cast
    ring

/-- **The shortest digits of a finite code round to it.** -/
theorem nearest_shortest (tie : Tie) (finite : code < f.infinityCode) :
    f.nearest (f.shortest tie code).value = code := by
  by_cases zero : code = 0
  · subst zero
    simp [shortest, Scaled.value, nearest_zero]
  · simp only [shortest, if_neg zero, Scaled.value_trimmed]
    cases found : ((List.range mostDigits).map (· + 1)).findSome? (f.withDigits tie code) with
    | none => rw [Option.getD_none, value_expansion, nearest_magnitude finite]
    | some s =>
        obtain ⟨count, _, digits⟩ := List.exists_of_findSome?_eq_some found
        rw [Option.getD_some, nearest_withDigits digits]

end Format

/-! ### Numerals -/

namespace Scaled

theorem magnitude_plain (s : Scaled) (negative : Bool) :
    (s.plain negative).magnitude = s.value := by
  by_cases whole : 0 ≤ s.exponent
  · obtain ⟨e, exponent⟩ := Int.eq_ofNat_of_zero_le whole
    simp [plain, Numeral.magnitude, Numeral.scale, value, exponent]
  · have places : ((-s.exponent).toNat : Int) = -s.exponent := by omega
    simp [plain, Numeral.magnitude, Numeral.scale, value, whole, places]

theorem scale_scientific (s : Scaled) (negative : Bool) :
    (s.scientific negative).scale = s.exponent := by
  have count : 0 < Text.digitCount s.digits := Nat.length_toDigits_pos
  simp only [scientific, Numeral.scale, leadingExponent, Option.getD_some]
  omega

theorem magnitude_scientific (s : Scaled) (negative : Bool) :
    (s.scientific negative).magnitude = s.value := by
  rw [Numeral.magnitude, scale_scientific]
  rfl

end Scaled

theorem Numeral.magnitude_withPointZero (n : Numeral) :
    n.withPointZero.magnitude = n.magnitude := by
  by_cases whole : (n.places = 0 && n.exponent.isNone) = true
  · obtain ⟨places, exponent⟩ : n.places = 0 ∧ n.exponent = none := by simpa using whole
    simp [withPointZero, magnitude, scale, places, exponent]
  · simp [withPointZero, whole]

/-- **A layout leaves the number as it is.** -/
theorem RealLayout.magnitude_numeral {f : Format} (layout : RealLayout) (x : Binary f) :
    (layout.numeral x).magnitude = (f.shortest layout.tie x.code).value := by
  simp only [numeral]
  split <;> split <;>
    simp only [Numeral.magnitude_withPointZero, Scaled.magnitude_plain,
      Scaled.magnitude_scientific]

theorem RealLayout.negative_numeral {f : Format} (layout : RealLayout) (x : Binary f) :
    (layout.numeral x).negative = x.negative := by
  have pointZero (n : Numeral) : n.withPointZero.negative = n.negative := by
    unfold Numeral.withPointZero
    split <;> rfl
  have plain (s : Scaled) : (s.plain x.negative).negative = x.negative := by
    unfold Scaled.plain
    split <;> rfl
  simp only [numeral]
  split <;> split <;> simp only [pointZero, plain, Scaled.scientific]

namespace Binary

variable {f : Format}

/-- **The numeral of a finite number rounds to it.** -/
theorem nearest_numeral (layout : RealLayout) {x : Binary f} (finite : x.isFinite = true) :
    nearest f x.negative (layout.numeral x).magnitude = x := by
  have code : f.nearest (layout.numeral x).magnitude = x.code := by
    rw [RealLayout.magnitude_numeral]
    exact Format.nearest_shortest layout.tie (of_decide_eq_true finite)
  cases x
  simp only [nearest, mk.injEq, true_and]
  exact code

/-- **A numeral determines the finite number it was made from.** -/
theorem eq_of_numeral_eq (layout : RealLayout) {x y : Binary f} (finite : x.isFinite = true)
    (alsoFinite : y.isFinite = true) (same : layout.numeral x = layout.numeral y) : x = y := by
  rw [← nearest_numeral layout finite, ← nearest_numeral layout alsoFinite, same,
    ← RealLayout.negative_numeral layout x, ← RealLayout.negative_numeral layout y, same]

end Binary

end SignatureText
