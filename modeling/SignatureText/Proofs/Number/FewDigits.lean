/-
**The shortest digits are few and near.**

* `ten_zpow_decimalExponent_le`, `lt_ten_zpow_decimalExponent` — the exponent of a positive number
  is the one it has: the estimate from the lengths of numerator and denominator is off by one at
  most.
* `Format.abs_sub_le_of_withDigits` — digits that are found are off by one unit of their last place
  at most.
* `Format.isSome_withDigits` — a grid that is finer than the unit below a magnitude has a hit.
* `Format.shortest_eq_trimmed` — the search stops at the first count of digits that has one.
* `Format.shortest_single` — **nine digits tell the 32-bit numbers apart**, so the shortest digits
  are no more.
-/

import SignatureText.Proofs.Number.Neighbours
import SignatureText.Proofs.Number.Shortest

namespace SignatureText

/-! ### Exponents -/

/-- A positive number and the estimate of its exponent. -/
theorem decimalEstimate_bounds {x : Rat} (positive : 0 < x) :
    (10 : Rat) ^ ((Text.digitCount x.num.natAbs - Text.digitCount x.den : Int) - 1) < x ∧
      x < 10 ^ ((Text.digitCount x.num.natAbs - Text.digitCount x.den : Int) + 1) := by
  have numerator : (x.num.natAbs : Rat) = x * x.den := by
    rw [Nat.cast_natAbs, abs_of_pos (Rat.num_pos.mpr positive), Rat.mul_den_eq_num]
  have nonzero : x.num.natAbs ≠ 0 := by
    have := Rat.num_pos.mpr positive
    omega
  have denominator : (0 : Rat) < x.den := by exact_mod_cast x.den_pos
  obtain ⟨aboveA, belowA⟩ := Format.digitCount_bounds nonzero
  obtain ⟨aboveB, belowB⟩ := Format.digitCount_bounds x.den_nz
  rw [numerator] at aboveA belowA
  generalize (Text.digitCount x.num.natAbs : Int) = a at aboveA belowA ⊢
  generalize (Text.digitCount x.den : Int) = b at aboveB belowB ⊢
  have unit (e : Int) : (0 : Rat) < 10 ^ e := by positivity
  constructor
  · by_contra small
    have : x * x.den < 10 ^ (a - b - 1) * 10 ^ b :=
      mul_lt_mul' (not_lt.mp small) belowB denominator.le (unit _)
    rw [← zpow_add₀ (by norm_num), show a - b - 1 + b = a - 1 by ring] at this
    exact absurd aboveA (not_le.mpr this)
  · by_contra large
    have : (10 : Rat) ^ (a - b + 1) * 10 ^ (b - 1) ≤ x * x.den :=
      mul_le_mul (not_lt.mp large) aboveB (unit _).le positive.le
    rw [← zpow_add₀ (by norm_num), show a - b + 1 + (b - 1) = a by ring] at this
    exact absurd belowA (not_lt.mpr this)

theorem ten_zpow_decimalExponent_le {x : Rat} (positive : 0 < x) : 10 ^ decimalExponent x ≤ x := by
  simp only [decimalExponent]
  split
  · assumption
  · exact (decimalEstimate_bounds positive).1.le

theorem lt_ten_zpow_decimalExponent {x : Rat} (positive : 0 < x) :
    x < 10 ^ (decimalExponent x + 1) := by
  simp only [decimalExponent]
  split
  · exact (decimalEstimate_bounds positive).2
  · rename_i small
    rw [sub_add_cancel]
    exact not_le.mp small

/-! ### Trimming -/

namespace Scaled

/-- Without the zeros at their end digits are fewer and their exponent is larger. -/
theorem trimmed_bounds (s : Scaled) :
    s.trimmed.digits ≤ s.digits ∧ s.exponent ≤ s.trimmed.exponent := by
  fun_induction trimmed s with
  | case1 s trims ih =>
      obtain ⟨digits, exponent⟩ := ih
      exact ⟨digits.trans (Nat.div_le_self _ _),
        (le_add_of_nonneg_right zero_le_one).trans exponent⟩
  | case2 s => exact ⟨le_rfl, le_rfl⟩

theorem value_nonneg (s : Scaled) : 0 ≤ s.value := by
  unfold value
  positivity

end Scaled

namespace Format

variable {f : Format} {tie : Tie} {code count : Nat} {s : Scaled}

/-! ### Neighbours on a grid -/

/-- A magnitude lies between its two neighbours. -/
theorem neighbour_bounds (nonzero : code ≠ 0) (count : Nat) :
    (f.neighbour code count).value ≤ f.magnitude code ∧
      f.magnitude code < (f.neighbour code count).next.value := by
  have positive := f.magnitude_pos nonzero
  have unit : (0 : Rat) < 10 ^ (decimalExponent (f.magnitude code) - count + 1) := by positivity
  obtain ⟨lower, upper⟩ := toNat_floor_bounds
    (x := f.magnitude code / 10 ^ (decimalExponent (f.magnitude code) - count + 1)) (by positivity)
  rw [le_div_iff₀ unit] at lower
  rw [div_lt_iff₀ unit] at upper
  exact ⟨lower, by rw [Scaled.value, Scaled.next, Nat.cast_succ]; exact upper⟩

/-- The lower neighbour has as many digits as were asked for. -/
theorem digits_neighbour_lt (nonzero : code ≠ 0) (count : Nat) :
    (f.neighbour code count).digits < 10 ^ count := by
  have below := lt_ten_zpow_decimalExponent (f.magnitude_pos nonzero)
  have split : decimalExponent (f.magnitude code) + 1 =
      count + (f.neighbour code count).exponent := by
    rw [neighbour]
    ring
  have less := (neighbour_bounds (f := f) nonzero count).1.trans_lt below
  rw [split, zpow_add₀ (by norm_num), zpow_natCast, Scaled.value] at less
  exact_mod_cast lt_of_mul_lt_mul_right less (by positivity)

/-- A neighbour that reads back is found. -/
theorem isSome_withDigits_iff : (f.withDigits tie code count).isSome = true ↔
    f.nearest (f.neighbour code count).value = code ∨
      f.nearest (f.neighbour code count).next.value = code := by
  have lower : f.readsBack code (f.neighbour code count) = true ↔
      f.nearest (f.neighbour code count).value = code := decide_eq_true_iff
  have upper : f.readsBack code (f.neighbour code count).next = true ↔
      f.nearest (f.neighbour code count).next.value = code := decide_eq_true_iff
  rw [← lower, ← upper]
  simp only [withDigits, neighbour, Scaled.next]
  split <;> simp [*]

/-- **Digits that are found are off by one unit of their last place at most.** -/
theorem abs_sub_le_of_withDigits (nonzero : code ≠ 0)
    (found : f.withDigits tie code count = some s) :
    |s.value - f.magnitude code| ≤ 10 ^ s.exponent := by
  obtain ⟨lower, upper⟩ := neighbour_bounds (f := f) nonzero count
  have step := (f.neighbour code count).value_next
  rw [abs_le]
  rcases eq_or_next_of_withDigits found with rfl | rfl
  · constructor <;> linarith
  · rw [step] at upper ⊢
    rw [Scaled.exponent_next]
    constructor <;> linarith

/-- There are no more digits than were asked for, but for a carry. -/
theorem digits_le_of_withDigits (nonzero : code ≠ 0)
    (found : f.withDigits tie code count = some s) : s.digits ≤ 10 ^ count := by
  have few := digits_neighbour_lt (f := f) nonzero count
  rcases eq_or_next_of_withDigits found with rfl | rfl
  · exact few.le
  · exact few

/-- A grid may be finer than the unit below a magnitude. -/
theorem ten_zpow_neighbour_lt (code : Nat) (fine : 2 ^ (f.fractionBits + 1) < 10 ^ (count - 1)) :
    (10 : Rat) ^ (f.neighbour (code + 1) count).exponent < 2 ^ f.exponent code := by
  have unit := two_zpow_pos (f.exponent code)
  have some : 1 < count := by
    by_contra none
    rw [Nat.sub_eq_zero_of_le (not_lt.mp none), pow_zero] at fine
    have := Nat.two_pow_pos (f.fractionBits + 1)
    omega
  have few : (f.significand code + 1 : Rat) ≤ 2 ^ (f.fractionBits + 1) := by
    exact_mod_cast (f.significand_bounds code).1
  have grid : (2 : Rat) ^ (f.fractionBits + 1) < 10 ^ (count - 1) := by exact_mod_cast fine
  have split : (10 : Rat) ^ (f.neighbour (code + 1) count).exponent * 10 ^ (count - 1) =
      10 ^ decimalExponent (f.magnitude (code + 1)) := by
    simp only [neighbour]
    rw [← zpow_natCast, ← zpow_add₀ (by norm_num)]
    congr 1
    omega
  refine lt_of_mul_lt_mul_right (a := 10 ^ (count - 1)) ?_ (by positivity)
  calc (10 : Rat) ^ (f.neighbour (code + 1) count).exponent * 10 ^ (count - 1) =
        10 ^ decimalExponent (f.magnitude (code + 1)) := split
    _ ≤ f.magnitude (code + 1) := ten_zpow_decimalExponent_le (magnitude_pos (Nat.succ_ne_zero _))
    _ = (f.significand code + 1) * 2 ^ f.exponent code := by
      rw [magnitude_succ, magnitude, add_one_mul]
    _ ≤ 2 ^ (f.fractionBits + 1) * 2 ^ f.exponent code :=
      mul_le_mul_of_nonneg_right few unit.le
    _ < 10 ^ (count - 1) * 2 ^ f.exponent code := mul_lt_mul_of_pos_right grid unit
    _ = 2 ^ f.exponent code * 10 ^ (count - 1) := mul_comm _ _

/--
**A grid that is finer than the unit below a magnitude has a hit.** The unit above is no smaller, so
one of the two neighbours is within half of the unit on its side.
-/
theorem isSome_withDigits (nonzero : code ≠ 0) (finite : code ≤ f.infinityCode)
    (fine : 2 ^ (f.fractionBits + 1) < 10 ^ (count - 1)) :
    (f.withDigits tie code count).isSome = true := by
  cases code with
  | zero => exact absurd rfl nonzero
  | succ code =>
      obtain ⟨lower, upper⟩ := neighbour_bounds (f := f) nonzero count
      have step := ten_zpow_neighbour_lt code fine
      have wider := zpow_le_zpow_right₀ (by norm_num : (1 : Rat) ≤ 2)
        (f.exponent_le_exponent_succ code)
      have below := f.magnitude_succ code
      rw [isSome_withDigits_iff]
      by_cases near : f.magnitude (code + 1) - 2 ^ f.exponent code / 2 <
          (f.neighbour (code + 1) count).value
      · refine .inl ?_
        rcases lower.lt_or_eq with inside | exact
        · exact nearest_of_half_lt finite (by linarith) inside
        · exact nearest_of_lt_half finite exact.ge (by
            linarith [two_zpow_pos (f.exponent (code + 1))])
      · refine .inr (nearest_of_lt_half finite upper.le ?_)
        rw [Scaled.value_next]
        linarith

/-- **The search stops at the first count of digits with a hit.** -/
theorem shortest_eq_trimmed (tie : Tie) (nonzero : code ≠ 0) {most : Nat} (positive : 0 < most)
    (small : most ≤ mostDigits) (hit : (f.withDigits tie code most).isSome = true) :
    ∃ count s, (0 < count ∧ count ≤ most) ∧ f.withDigits tie code count = some s ∧
      (∀ fewer < count, 0 < fewer → f.withDigits tie code fewer = none) ∧
      f.shortest tie code = s.trimmed := by
  have counts : (List.range mostDigits).map (· + 1) = List.range' 1 mostDigits := by decide
  have member : most ∈ List.range' 1 mostDigits := by
    rw [List.mem_range'_1]
    omega
  obtain ⟨s, first⟩ := Option.isSome_iff_exists.mp
    (List.findSome?_isSome_iff.mpr ⟨most, member, hit⟩)
  have result : f.shortest tie code = s.trimmed := by
    simp only [shortest, if_neg nonzero, counts, first, Option.getD_some]
  obtain ⟨before, count, after, parts, found, none⟩ := List.findSome?_eq_some_iff.mp first
  obtain ⟨k, -, rfl, rest⟩ := List.range'_eq_append_iff.mp parts
  obtain ⟨start, -, -⟩ := List.range'_eq_cons_iff.mp rest.symm
  have fewest : ∀ fewer < count, 0 < fewer → f.withDigits tie code fewer = .none := by
    refine fun fewer less some => none fewer ?_
    rw [List.mem_range'_1]
    omega
  refine ⟨count, s, ⟨by omega, ?_⟩, found, fewest, result⟩
  by_contra more
  rw [fewest most (not_le.mp more) positive] at hit
  cases hit

/-! ### The 32-bit numbers -/

/-- **The shortest digits of a 32-bit number are nine at most**, and off by one unit of their last
place at most. -/
theorem shortest_single (tie : Tie) (nonzero : code ≠ 0) (finite : code ≤ single.infinityCode) :
    (single.shortest tie code).digits ≤ 10 ^ 9 ∧
      |(single.shortest tie code).value - single.magnitude code| ≤
        10 ^ (single.shortest tie code).exponent := by
  obtain ⟨count, s, ⟨-, few⟩, found, -, shortest⟩ := shortest_eq_trimmed tie nonzero
    (by decide : 0 < 9) (by decide) (isSome_withDigits nonzero finite (by decide))
  obtain ⟨digits, exponent⟩ := s.trimmed_bounds
  rw [shortest, Scaled.value_trimmed]
  constructor
  · exact digits.trans <| (digits_le_of_withDigits nonzero found).trans <|
      Nat.pow_le_pow_right (by norm_num) few
  · exact (abs_sub_le_of_withDigits nonzero found).trans
      (zpow_le_zpow_right₀ (by norm_num) exponent)

/-- What is printed for a finite number lies within the reach of the format. -/
theorem shortest_bounds (tie : Tie) (nonzero : code ≠ 0) (finite : code < single.infinityCode) :
    (2 : Rat) ^ (-150 : Int) < (single.shortest tie code).value ∧
      (single.shortest tie code).value < 2 ^ (279 : Int) := by
  have round := nearest_shortest tie finite
  constructor
  · by_contra small
    have least : single.leastExponent - 1 = -150 := by decide
    rw [← least] at small
    exact nonzero (round.symm.trans (nearest_of_le (not_lt.mp small)))
  · by_contra large
    have reach : ((single.decimalReach : Nat) : Int) = 279 := by decide
    rw [← reach, zpow_natCast] at large
    exact finite.ne (round.symm.trans (nearest_of_ge (not_lt.mp large)))

theorem shortest_digits_ne_zero (tie : Tie) (nonzero : code ≠ 0)
    (finite : code < single.infinityCode) : (single.shortest tie code).digits ≠ 0 := by
  intro none
  have above := (shortest_bounds tie nonzero finite).1
  rw [Scaled.value, none, Nat.cast_zero, zero_mul] at above
  exact absurd above (not_lt.mpr (two_zpow_pos _).le)

/-- Its power of ten is no large one. -/
theorem shortest_exponent_bounds (tie : Tie) (nonzero : code ≠ 0)
    (finite : code < single.infinityCode) :
    -60 ≤ (single.shortest tie code).exponent ∧ (single.shortest tie code).exponent ≤ 100 := by
  obtain ⟨above, below⟩ := shortest_bounds tie nonzero finite
  obtain ⟨few, -⟩ := shortest_single tie nonzero finite.le
  have some := shortest_digits_ne_zero tie nonzero finite
  generalize single.shortest tie code = s at *
  have unit : (0 : Rat) < 10 ^ s.exponent := by positivity
  have ten : (1 : Rat) < 10 := by norm_num
  constructor
  · have less : (10 : Rat) ^ (-50 : Int) < 10 ^ (9 + s.exponent) := calc
      (10 : Rat) ^ (-50 : Int) = (10 ^ (50 : Int))⁻¹ := zpow_neg _ _
      _ ≤ (2 ^ (150 : Int))⁻¹ := inv_anti₀ (by positivity) (by norm_num)
      _ = 2 ^ (-150 : Int) := (zpow_neg _ _).symm
      _ < s.digits * 10 ^ s.exponent := above
      _ ≤ 10 ^ (9 : Int) * 10 ^ s.exponent :=
        mul_le_mul_of_nonneg_right (by exact_mod_cast few) unit.le
      _ = 10 ^ (9 + s.exponent) := (zpow_add₀ (by norm_num) _ _).symm
    have := (zpow_lt_zpow_iff_right₀ ten).mp less
    omega
  · have less : (10 : Rat) ^ s.exponent < 10 ^ (100 : Int) := calc
      (10 : Rat) ^ s.exponent ≤ s.digits * 10 ^ s.exponent :=
        le_mul_of_one_le_left unit.le (by exact_mod_cast Nat.one_le_iff_ne_zero.mpr some)
      _ < 2 ^ (279 : Int) := below
      _ ≤ 2 ^ (3 * 100 : Int) := zpow_le_zpow_right₀ (by norm_num) (by norm_num)
      _ = (2 ^ (3 : Int)) ^ (100 : Int) := zpow_mul _ _ _
      _ ≤ 10 ^ (100 : Int) := zpow_le_zpow_left₀ (by norm_num) (by positivity) (by norm_num)
    exact ((zpow_lt_zpow_iff_right₀ ten).mp less).le

end Format

end SignatureText
