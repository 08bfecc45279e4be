/-
**Printed numbers near a midpoint.**

The shortest decimal number of a 32-bit number may lie next to the midpoint between two 32-bit
numbers, and a small error would then carry it across. How near it comes is a question about one
fraction for each exponent: `10 ^ e` measured in halves of the unit of the last place. A convergent
`p / r` of that fraction answers it, since all decimal numbers that are near a midpoint are
multiples of the one with `r` steps (`Grid.mul_eq_mul_of_near`). Which convergent is taken is left
to Euclid's algorithm and not proved; that it is good enough is checked for each exponent
(`Grid.all_certified`).

* `Grid.eq_or_mem_suspects` — next to a midpoint a decimal number is the midpoint itself or one of a
  short list.
* `Format.eq_midpoint_or_mem_doubtful` — the same for the number printed for a code.
* `Format.nearest_of_near_printed` — **what is within four 64-bit units of a printed number rounds
  to the number that was printed**, unless it stands on the list.
-/

import Mathlib.Data.Nat.GCD.Basic
import SignatureText.Proofs.Number.FewDigits

namespace SignatureText

/-! ### Fractions and their convergents -/

/-- A step of decimal numbers in halves of the unit of the last place of binary numbers. -/
structure Grid where
  num : Nat
  den : Nat

namespace Grid

/-- How far `r` steps are from `p` halves, in parts of the denominator. -/
def gap (g : Grid) (p r : Nat) : Nat :=
  (r * g.num - p * g.den) + (p * g.den - r * g.num)

/-- All multiples of the step that are near a midpoint within reach are multiples of `r` steps. -/
def accepts (g : Grid) (p r : Nat) : Bool :=
  0 < r && r * g.num + 2 ^ 51 * g.gap p r < 2 ^ 26 * g.num

/-- Euclid's algorithm with the convergents, up to the first that is accepted. -/
def search (g : Grid) : Nat → (a b p r p' r' : Nat) → Nat × Nat
  | 0, _, _, _, _, p', r' => (p', r')
  | fuel + 1, a, b, p, r, p', r' =>
    if g.accepts p' r' || b = 0 then (p', r')
    else g.search fuel b (a % b) p' r' (a / b * p' + p) (a / b * r' + r)

/-- The numerator and the denominator of a convergent. -/
def convergent (g : Grid) : Nat × Nat :=
  g.search 40 g.num g.den 0 1 1 0

/-- The convergent is good enough, and a step is less than ten halves. -/
def certified (g : Grid) : Bool :=
  g.accepts g.convergent.1 g.convergent.2 && Nat.gcd g.convergent.1 g.convergent.2 = 1 &&
    0 < g.den && 2 ^ 26 * g.num + 10 * g.den < 10 * 2 ^ 26 * g.den

/-- The odd numbers of halves within reach that a multiple of the step is next to. -/
def suspects (g : Grid) : List Nat :=
  let (p, r) := g.convergent
  if g.gap p r = 0 then []
  else ((List.range (g.den / (2 ^ 26 * g.gap p r) + 1)).map (· * p)).filter fun w =>
    w % 2 = 1 && w < 2 ^ 25

variable {g : Grid} {p r d w : Nat}

theorem cast_gap (g : Grid) (p r : Nat) : (g.gap p r : Int) = |(r * g.num - p * g.den : Int)| := by
  rw [gap]
  rcases Nat.le_total (r * g.num) (p * g.den) with below | above
  · rw [Nat.sub_eq_zero_of_le below, Nat.zero_add, abs_sub_comm,
      abs_of_nonneg (sub_nonneg.mpr (by exact_mod_cast below))]
    push_cast [below]
    ring
  · rw [Nat.sub_eq_zero_of_le above, Nat.add_zero,
      abs_of_nonneg (sub_nonneg.mpr (by exact_mod_cast above))]
    push_cast [above]
    ring

/-- **What is near a midpoint has the ratio of the convergent.** -/
theorem mul_eq_mul_of_near (accepted : g.accepts p r = true) (positive : 0 < g.den)
    (small : d * g.num ≤ 2 ^ 25 * g.den) (near : 2 ^ 26 * g.gap w d ≤ g.den) :
    d * p = r * w := by
  obtain ⟨-, fine⟩ : 0 < r ∧ r * g.num + 2 ^ 51 * g.gap p r < 2 ^ 26 * g.num := by
    simpa [accepts] using accepted
  have numerator : (0 : Int) < g.num := by
    have : 0 < g.num := by omega
    exact_mod_cast this
  zify at small near fine positive
  rw [cast_gap] at near fine
  have identity : (g.den : Int) * (d * p - r * w) =
      r * (d * g.num - w * g.den) - d * (r * g.num - p * g.den) := by ring
  have triangle : (g.den : Int) * |(d * p - r * w : Int)| ≤
      r * |(d * g.num - w * g.den : Int)| + d * |(r * g.num - p * g.den : Int)| := by
    have both := abs_sub (r * (d * g.num - w * g.den) : Int) (d * (r * g.num - p * g.den))
    rwa [← identity, abs_mul, abs_mul, abs_mul, Nat.abs_cast, Nat.abs_cast, Nat.abs_cast] at both
  generalize |(d * g.num - w * g.den : Int)| = x at near triangle
  have gapNonneg : (0 : Int) ≤ |(r * g.num - p * g.den : Int)| := abs_nonneg _
  generalize |(r * g.num - p * g.den : Int)| = y at fine triangle gapNonneg
  have less : (g.den : Int) * (2 ^ 26 * g.num) * |(d * p - r * w : Int)| <
      g.den * (2 ^ 26 * g.num) * 1 := calc
    (g.den : Int) * (2 ^ 26 * g.num) * |(d * p - r * w : Int)| =
        2 ^ 26 * g.num * (g.den * |(d * p - r * w : Int)|) := by ring
    _ ≤ 2 ^ 26 * g.num * (r * x + d * y) :=
      mul_le_mul_of_nonneg_left triangle (by positivity)
    _ = r * g.num * (2 ^ 26 * x) + 2 ^ 26 * y * (d * g.num) := by ring
    _ ≤ r * g.num * g.den + 2 ^ 26 * y * (2 ^ 25 * g.den) :=
      add_le_add (mul_le_mul_of_nonneg_left near (by positivity))
        (mul_le_mul_of_nonneg_left small (by positivity))
    _ = g.den * (r * g.num + 2 ^ 51 * y) := by ring
    _ < g.den * (2 ^ 26 * g.num) := mul_lt_mul_of_pos_left fine positive
    _ = g.den * (2 ^ 26 * g.num) * 1 := (mul_one _).symm
  have zero := Int.abs_lt_one_iff.mp (lt_of_mul_lt_mul_left less (by positivity))
  exact_mod_cast sub_eq_zero.mp zero

/-- **Next to a midpoint a multiple of the step is the midpoint or one of the suspects.** -/
theorem eq_or_mem_suspects (certified : g.certified = true) (small : d * g.num ≤ 2 ^ 25 * g.den)
    (near : 2 ^ 26 * g.gap w d ≤ g.den) (odd : w % 2 = 1) (reach : w < 2 ^ 25) :
    d * g.num = w * g.den ∨ w ∈ g.suspects := by
  simp only [Grid.certified, Bool.and_eq_true, decide_eq_true_eq] at certified
  obtain ⟨⟨⟨accepted, coprime⟩, positive⟩, -⟩ := certified
  rw [suspects]
  generalize g.convergent = convergent at *
  obtain ⟨p, r⟩ := convergent
  have ratio := mul_eq_mul_of_near accepted positive small near
  have denominator : 0 < r := by
    simp only [accepts, Bool.and_eq_true, decide_eq_true_eq] at accepted
    exact accepted.1
  -- `p` and `r` have no common factor, so the same multiple leads to both numbers
  obtain ⟨t, rfl⟩ : r ∣ d := (Nat.Coprime.symm coprime).dvd_of_dvd_mul_right ⟨w, ratio⟩
  obtain rfl : w = t * p := by
    rw [Nat.mul_assoc] at ratio
    exact (Nat.eq_of_mul_eq_mul_left denominator ratio).symm
  have multiple : g.gap (t * p) (r * t) = t * g.gap p r := by
    have scaled : ((r * t : Nat) * g.num - (t * p : Nat) * g.den : Int) =
        t * (r * g.num - p * g.den) := by
      push_cast
      ring
    zify
    rw [cast_gap, cast_gap, scaled, abs_mul, Nat.abs_cast]
  by_cases exact : g.gap p r = 0
  · refine .inl ?_
    have none : g.gap (t * p) (r * t) = 0 := by rw [multiple, exact, Nat.mul_zero]
    unfold gap at none
    omega
  · refine .inr ?_
    rw [multiple, Nat.mul_left_comm, ← Nat.le_div_iff_mul_le (by positivity)] at near
    simp only [if_neg exact, List.mem_filter, List.mem_map, List.mem_range, Bool.and_eq_true,
      decide_eq_true_eq]
    exact ⟨⟨t, Nat.lt_succ_of_le near, rfl⟩, odd, reach⟩

/-! ### The grids of the exponents -/

/-- The exponent of a half of the unit of the last place, `steps` above the least one. -/
def half (steps : Nat) : Int :=
  steps - 150

/-- The exponent of the least power of ten that is about as large as a half. -/
def tens (steps : Nat) : Int :=
  (half steps * 30103 - 1) / 100000 + 1

/-- The power of ten in halves. -/
def of (steps : Nat) : Grid :=
  ⟨10 ^ (tens steps).toNat * 2 ^ (-half steps).toNat,
    10 ^ (-tens steps).toNat * 2 ^ (half steps).toNat⟩

/-- **The convergents found for the exponents of the 32-bit format are good enough.** -/
theorem all_certified : ∀ steps < 254, (of steps).certified = true := by
  decide +kernel

theorem num_div_den (steps : Nat) :
    ((of steps).num : Rat) / (of steps).den = 10 ^ tens steps / 2 ^ half steps := by
  have split {b : Rat} (nonzero : b ≠ 0) (e : Int) : b ^ e = b ^ e.toNat / b ^ (-e).toNat := by
    rcases Int.le_total 0 e with above | below
    · rw [Int.toNat_eq_zero.mpr (by omega : -e ≤ 0), pow_zero, div_one, ← zpow_natCast,
        Int.toNat_of_nonneg above]
    · rw [Int.toNat_eq_zero.mpr below, pow_zero, one_div, ← zpow_natCast,
        Int.toNat_of_nonneg (by omega), zpow_neg, inv_inv]
  rw [split (by norm_num) (tens steps), split (by norm_num) (half steps)]
  simp only [of]
  push_cast
  field_simp

theorem den_pos {g : Grid} (certified : g.certified = true) : 0 < g.den := by
  simp only [Grid.certified, Bool.and_eq_true, decide_eq_true_eq] at certified
  exact certified.1.2

/-- No smaller power of ten is about as large as a half. -/
theorem tens_le {steps : Nat} (inside : steps < 254) {e : Int}
    (coarse : (1 - 1 / 2 ^ 26) * 2 ^ half steps ≤ (10 : Rat) ^ e) : tens steps ≤ e := by
  have certified := all_certified steps inside
  have positive : (0 : Rat) < (of steps).den := by exact_mod_cast den_pos certified
  simp only [Grid.certified, Bool.and_eq_true, decide_eq_true_eq] at certified
  have less : (2 : Rat) ^ 26 * (of steps).num + 10 * (of steps).den <
      10 * 2 ^ 26 * (of steps).den := by
    exact_mod_cast certified.2
  have quotient : (10 : Rat) ^ tens steps / 2 ^ half steps < 10 * (1 - 1 / 2 ^ 26) := by
    rw [← num_div_den, div_lt_iff₀ positive]
    linarith
  rw [div_lt_iff₀ (two_zpow_pos _)] at quotient
  have smaller : (10 : Rat) ^ (tens steps - 1) < 10 ^ e := by
    rw [zpow_sub_one₀ (by norm_num)]
    linarith
  have := (zpow_lt_zpow_iff_right₀ (by norm_num : (1 : Rat) < 10)).mp smaller
  omega

/-- **Next to a midpoint a decimal number is the midpoint or one of the suspects.** -/
theorem value_eq_or_mem_suspects {steps w : Nat} {s : Scaled} (inside : steps < 254)
    (odd : w % 2 = 1) (reach : w < 2 ^ 25)
    (coarse : (1 - 1 / 2 ^ 26) * 2 ^ half steps ≤ (10 : Rat) ^ s.exponent)
    (small : s.value ≤ 2 ^ 25 * 2 ^ half steps)
    (near : |s.value - w * 2 ^ half steps| ≤ 2 ^ half steps / 2 ^ 26) :
    s.value = w * 2 ^ half steps ∨ w ∈ (of steps).suspects := by
  have certified := all_certified steps inside
  have positive : (0 : Rat) < (of steps).den := by exact_mod_cast den_pos certified
  have unit := two_zpow_pos (half steps)
  obtain ⟨n, exponent⟩ := Int.eq_ofNat_of_zero_le (sub_nonneg.mpr (tens_le inside coarse))
  have value : s.value =
      ((s.digits * 10 ^ n : Nat) : Rat) * (of steps).num / (of steps).den * 2 ^ half steps := by
    rw [mul_div_assoc, num_div_den, mul_assoc, div_mul_cancel₀ _ unit.ne', Scaled.value,
      eq_add_of_sub_eq' exponent, zpow_add₀ (by norm_num), zpow_natCast]
    push_cast
    ring
  generalize s.digits * 10 ^ n = d at value
  rw [value] at small near ⊢
  have reaches : d * (of steps).num ≤ 2 ^ 25 * (of steps).den := by
    have := le_of_mul_le_mul_right small unit
    rw [div_le_iff₀ positive] at this
    exact_mod_cast this
  have close : 2 ^ 26 * (of steps).gap w d ≤ (of steps).den := by
    have cast : ((of steps).gap w d : Rat) = |(d * (of steps).num - w * (of steps).den : Rat)| := by
      exact_mod_cast congrArg (Int.cast (R := Rat)) (cast_gap (of steps) w d)
    have distance : (d : Rat) * (of steps).num / (of steps).den * 2 ^ half steps -
        w * 2 ^ half steps = (d * (of steps).num - w * (of steps).den) *
          (2 ^ half steps / (of steps).den) := by
      field_simp
    rw [distance, abs_mul, ← cast, abs_of_pos (by positivity), ← mul_div_assoc,
      div_le_div_iff₀ positive (by positivity)] at near
    have : ((of steps).gap w d : Rat) * 2 ^ 26 ≤ (of steps).den := by
      nlinarith
    rw [Nat.mul_comm]
    exact_mod_cast this
  rcases eq_or_mem_suspects certified reaches close odd reach with exact | suspect
  · refine .inl (congrArg (· * 2 ^ half steps) ?_)
    rw [div_eq_iff positive.ne']
    exact_mod_cast exact
  · exact .inr suspect

end Grid

namespace Format

/-- The codes below the midpoints that a printed number may be next to without being it. -/
def doubtful : List Nat :=
  (List.range 254).flatMap fun steps =>
    (Grid.of steps).suspects.map fun w => steps * 2 ^ 23 + w / 2

theorem doubtful_eq : doubtful =
    [120321464, 143231827, 151620435, 239248210, 363742205, 372130813, 853298129, 901062220,
      928506023, 1642525744, 1650914352, 1708115673, 1740160716] := by
  decide +kernel

/-- Half of a unit of the last place. -/
theorem half_unit (code : Nat) :
    (2 : Rat) ^ single.exponent code / 2 = 2 ^ Grid.half (code / 2 ^ 23 - 1) := by
  have least : single.leastExponent = -149 := by decide
  have exponent : single.exponent code - 1 = Grid.half (code / 2 ^ 23 - 1) := by
    rw [Format.exponent, least, Grid.half]
    show -149 + ((code / 2 ^ 23 - 1 : Nat) : Int) - 1 = _
    ring
  rw [← exponent, zpow_sub_one₀ (by norm_num)]
  rfl

/-- The midpoint above a code, in halves of the unit of the last place. -/
theorem midpoint_eq (code : Nat) :
    single.magnitude code + 2 ^ single.exponent code / 2 =
      ((2 * single.significand code + 1 : Nat) : Rat) * 2 ^ Grid.half (code / 2 ^ 23 - 1) := by
  rw [← half_unit, magnitude]
  push_cast
  ring

/-- **Next to a midpoint a decimal number is the midpoint or stands on the list.** -/
theorem eq_midpoint_or_mem_doubtful {code : Nat} {s : Scaled} (finite : code < single.infinityCode)
    (below : s.value < single.magnitude (code + 1))
    (coarse : (1 - 1 / 2 ^ 26) * (2 ^ single.exponent code / 2) ≤ (10 : Rat) ^ s.exponent)
    (near : |s.value - (single.magnitude code + 2 ^ single.exponent code / 2)| ≤
      s.value / 2 ^ 51) :
    s.value = single.magnitude code + 2 ^ single.exponent code / 2 ∨ code ∈ doubtful := by
  have inside : code / 2 ^ 23 - 1 < 254 := by
    have : single.infinityCode = 255 * 2 ^ 23 := by decide
    omega
  have together : (code / 2 ^ 23 - 1) * 2 ^ 23 + single.significand code = code := by
    have steps : (single.exponent code - single.leastExponent).toNat = code / 2 ^ 23 - 1 := by
      simp only [exponent, add_sub_cancel_left, Int.toNat_natCast]
      rfl
    have own := single.code_eq code
    rwa [steps] at own
  have few : single.significand code + 1 ≤ 2 ^ 23 * 2 := (single.significand_bounds code).1
  have next : single.magnitude (code + 1) =
      ((2 * single.significand code + 2 : Nat) : Rat) * (2 ^ single.exponent code / 2) := by
    rw [magnitude_succ, magnitude]
    push_cast
    ring
  rw [next, half_unit] at below
  rw [half_unit] at coarse
  rw [midpoint_eq] at near ⊢
  have unit := two_zpow_pos (Grid.half (code / 2 ^ 23 - 1))
  have reach : s.value ≤ 2 ^ 25 * 2 ^ Grid.half (code / 2 ^ 23 - 1) :=
    below.le.trans (mul_le_mul_of_nonneg_right (by exact_mod_cast (by omega)) unit.le)
  have close : s.value / 2 ^ 51 ≤ 2 ^ Grid.half (code / 2 ^ 23 - 1) / 2 ^ 26 := by
    rw [div_le_div_iff₀ (by norm_num) (by norm_num)]
    linarith
  refine (Grid.value_eq_or_mem_suspects inside (by omega) (by omega) coarse reach
    (near.trans close)).imp_right fun suspect => ?_
  refine List.mem_flatMap.mpr ⟨_, List.mem_range.mpr inside, List.mem_map.mpr ⟨_, suspect, ?_⟩⟩
  omega

/--
**What is within four 64-bit units of a printed number rounds to the number that was printed**, if
it is the printed number itself where that is a midpoint, and the number is not on the list.
-/
theorem nearest_of_near_printed {tie : Tie} {code : Nat} {y : Rat} (nonzero : code ≠ 0)
    (finite : code < single.infinityCode) (nonneg : 0 ≤ y)
    (clear : ∀ lower ∈ doubtful, code ≠ lower ∧ code ≠ lower + 1)
    (near : |y - (single.shortest tie code).value| ≤ (single.shortest tie code).value / 2 ^ 51)
    (midpoint : ∀ (w : Nat) (e : Int), w < 2 ^ 25 → w % 2 = 1 →
      (single.shortest tie code).value = w * 2 ^ e → y = (single.shortest tie code).value) :
    single.nearest y = code := by
  obtain ⟨-, printed⟩ := shortest_single tie nonzero finite.le
  have positive := (two_zpow_pos _).trans (shortest_bounds tie nonzero finite).1
  have round := nearest_shortest tie finite
  generalize single.shortest tie code = s at *
  obtain ⟨lower, above, below⟩ := single.exists_between positive.le
  have neighbour := eq_or_eq_succ_of_nearest finite positive above below round
  have inside : lower < single.infinityCode := by omega
  have unit := two_zpow_pos (single.exponent lower)
  have next := single.magnitude_succ lower
  have few : single.significand lower + 1 ≤ 2 ^ 23 * 2 := (single.significand_bounds lower).1
  have size : s.value < 2 ^ 24 * 2 ^ single.exponent lower := by
    refine below.trans_le ?_
    rw [next, magnitude, ← add_one_mul]
    exact mul_le_mul_of_nonneg_right (by exact_mod_cast few) unit.le
  by_cases away :
      s.value / 2 ^ 51 < |s.value - (single.magnitude lower + 2 ^ single.exponent lower / 2)|
  · rw [nearest_eq_of_near inside above below nonneg near (by linarith) away, round]
  · have coarse : (1 - 1 / 2 ^ 26) * (2 ^ single.exponent lower / 2) ≤ (10 : Rat) ^ s.exponent := by
      obtain ⟨belowMiddle, aboveMiddle⟩ := abs_le.mp (not_lt.mp away)
      obtain ⟨belowOwn, aboveOwn⟩ := abs_le.mp printed
      rcases neighbour with rfl | rfl
      · linarith
      · linarith
    rcases eq_midpoint_or_mem_doubtful inside below coarse (not_lt.mp away) with middle | doubtful
    · have few : single.significand lower + 1 ≤ 2 ^ 24 := few
      rw [midpoint_eq] at middle
      rw [midpoint _ _ (by omega) (by omega) middle, round]
    · obtain ⟨notLower, notUpper⟩ := clear lower doubtful
      omega

end Format

/-! ### Midpoints with few decimal digits -/

/-- A power of five divides no small number, however often that is doubled. -/
theorem five_pow_le {n d j : Nat} (nonzero : d ≠ 0) (divides : 5 ^ n ∣ d * 2 ^ j) : 5 ^ n ≤ d :=
  Nat.le_of_dvd (Nat.pos_of_ne_zero nonzero)
    ((Nat.Coprime.pow n j (by decide)).dvd_of_dvd_mul_right divides)

/-- **A number with few decimal digits and few binary ones has a small power of ten.** -/
theorem Scaled.exponent_bounds_of_eq {s : Scaled} {w : Nat} {e : Int} (some : s.digits ≠ 0)
    (few : s.digits ≤ 10 ^ 9) (nonzero : w ≠ 0) (reach : w < 2 ^ 25) (equal : s.value = w * 2 ^ e) :
    -22 ≤ s.exponent ∧ s.exponent ≤ 22 := by
  have bound {n : Nat} (small : 5 ^ n ≤ 10 ^ 9) : n ≤ 22 := by
    by_contra large
    have : 5 ^ 23 ≤ 5 ^ n := Nat.pow_le_pow_right (by norm_num) (by omega)
    omega
  have shift : (2 : Rat) ^ e * 2 ^ (-e).toNat = 2 ^ e.toNat := two_zpow_mul_two_pow (by omega)
  rcases Int.eq_nat_or_neg s.exponent with ⟨n, exponent | exponent⟩
  · have whole : s.digits * 10 ^ n * 2 ^ (-e).toNat = w * 2 ^ e.toNat := by
      rw [value, exponent, zpow_natCast] at equal
      have : (s.digits * 10 ^ n * 2 ^ (-e).toNat : Rat) = w * 2 ^ e.toNat := by
        rw [equal, mul_assoc, shift]
      exact_mod_cast this
    have divides : 5 ^ n ∣ w * 2 ^ e.toNat := by
      rw [← whole, show 10 = 5 * 2 by norm_num, Nat.mul_pow]
      exact ⟨s.digits * 2 ^ n * 2 ^ (-e).toNat, by ring⟩
    have := bound ((five_pow_le nonzero divides).trans (by omega))
    omega
  · have whole : s.digits * 2 ^ (-e).toNat = w * 2 ^ e.toNat * 10 ^ n := by
      rw [value, exponent, zpow_neg, zpow_natCast, ← div_eq_mul_inv,
        div_eq_iff (by positivity)] at equal
      have : (s.digits * 2 ^ (-e).toNat : Rat) = w * 2 ^ e.toNat * 10 ^ n := by
        rw [equal, ← shift]
        ring
      exact_mod_cast this
    have divides : 5 ^ n ∣ s.digits * 2 ^ (-e).toNat := by
      rw [whole, show 10 = 5 * 2 by norm_num, Nat.mul_pow]
      exact ⟨w * 2 ^ e.toNat * 2 ^ n, by ring⟩
    have := bound ((five_pow_le some divides).trans few)
    omega

end SignatureText
