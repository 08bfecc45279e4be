/-
**Rounding is to the nearest, ties to even.**

`Format.IsNearest` says what rounding is for without saying how it is done: no other code is as
near, unless it is odd and just as near. Infinity's code stands in for the magnitude that would
follow the largest finite one.

* `Format.isNearest_nearest` — the code that rounding gives is such a code: a number lies between
  two neighbours, and below, on or above their midpoint.
* `Format.isNearest_iff` — **and it is the only one.** Two codes that are equally near are next to
  each other, so they are not both even.
* `Format.nearest_mono` — rounding keeps the order, which is read off from the distances alone.
-/

import SignatureText.Proofs.Number.Neighbours

namespace SignatureText

namespace Format

variable {f : Format} {x y : Rat} {code other : Nat}

/-- No other code of a finite number or infinity is nearer, nor as near unless this one is even. -/
structure IsNearest (f : Format) (x : Rat) (code : Nat) : Prop where
  le_infinity : code ≤ f.infinityCode
  nearer : ∀ other ≤ f.infinityCode, other ≠ code →
    |f.magnitude code - x| < |f.magnitude other - x| ∨
      |f.magnitude code - x| = |f.magnitude other - x| ∧ code % 2 = 0

/-! ### Distances -/

/-- Below a number the larger code is the nearer one. -/
theorem distance_lt_of_lt (larger : other < code) (below : f.magnitude code ≤ x) :
    |f.magnitude code - x| < |f.magnitude other - x| := by
  have smaller := f.magnitude_strictMono larger
  rw [abs_sub_comm, abs_of_nonneg (sub_nonneg.mpr below), abs_sub_comm,
    abs_of_nonneg (sub_nonneg.mpr (smaller.le.trans below))]
  exact sub_lt_sub_left smaller x

/-- Above a number the smaller code is the nearer one. -/
theorem distance_lt_of_gt (smaller : code < other) (above : x ≤ f.magnitude code) :
    |f.magnitude code - x| < |f.magnitude other - x| := by
  have larger := f.magnitude_strictMono smaller
  rw [abs_of_nonneg (sub_nonneg.mpr above),
    abs_of_nonneg (sub_nonneg.mpr (above.trans larger.le))]
  exact sub_lt_sub_right larger x

/-- Of two codes the smaller one is at least as near just up to the middle between them. -/
theorem distance_le_iff (smaller : code < other) :
    |f.magnitude code - x| ≤ |f.magnitude other - x| ↔
      2 * x ≤ f.magnitude code + f.magnitude other := by
  have larger := f.magnitude_strictMono smaller
  rw [← sq_le_sq]
  constructor
  · intro near
    by_contra beyond
    nlinarith [mul_pos (sub_pos.mpr larger) (sub_pos.mpr (not_le.mp beyond))]
  · intro within
    nlinarith [mul_nonneg (sub_pos.mpr larger).le (sub_nonneg.mpr within)]

/-- And the larger one is at least as near just from there on. -/
theorem distance_ge_iff (smaller : code < other) :
    |f.magnitude other - x| ≤ |f.magnitude code - x| ↔
      f.magnitude code + f.magnitude other ≤ 2 * x := by
  have larger := f.magnitude_strictMono smaller
  rw [← sq_le_sq]
  constructor
  · intro near
    by_contra short
    nlinarith [mul_pos (sub_pos.mpr larger) (sub_pos.mpr (not_le.mp short))]
  · intro beyond
    nlinarith [mul_nonneg (sub_pos.mpr larger).le (sub_nonneg.mpr beyond)]

/-- Of two equally near codes there is none in between. -/
theorem IsNearest.le_succ (nearest : f.IsNearest x code) (alsoNearest : f.IsNearest x other)
    (smaller : code < other) : other ≤ code + 1 := by
  by_contra apart
  have inside : code + 1 ≤ f.infinityCode := (not_le.mp apart).le.trans alsoNearest.le_infinity
  have left := (nearest.nearer (code + 1) inside (by omega)).elim le_of_lt fun same => same.1.le
  have right := (alsoNearest.nearer (code + 1) inside (by omega)).elim le_of_lt fun same =>
    same.1.le
  have low := (distance_le_iff (Nat.lt_succ_self code)).mp left
  have high := (distance_ge_iff (not_le.mp apart)).mp right
  linarith [f.magnitude_strictMono smaller]

/-- **At most one code is the nearest.** -/
theorem IsNearest.unique (nearest : f.IsNearest x code) (alsoNearest : f.IsNearest x other) :
    code = other := by
  by_contra different
  have parity : code % 2 = 0 ∧ other % 2 = 0 := by
    rcases nearest.nearer other alsoNearest.le_infinity (Ne.symm different) with less | same <;>
      rcases alsoNearest.nearer code nearest.le_infinity different with more | alsoSame
    · exact absurd less more.not_gt
    · exact absurd alsoSame.1 less.ne'
    · exact absurd same.1 more.ne'
    · exact ⟨same.2, alsoSame.2⟩
  rcases Nat.lt_or_gt_of_ne different with smaller | larger
  · have := nearest.le_succ alsoNearest smaller
    omega
  · have := alsoNearest.le_succ nearest larger
    omega

/-! ### Neighbours -/

/-- The lower neighbour is the nearest if the upper one is no better. -/
theorem isNearest_lower (finite : code < f.infinityCode) (above : f.magnitude code ≤ x)
    (below : x < f.magnitude (code + 1))
    (better : |f.magnitude code - x| < |f.magnitude (code + 1) - x| ∨
      |f.magnitude code - x| = |f.magnitude (code + 1) - x| ∧ code % 2 = 0) :
    f.IsNearest x code := by
  refine ⟨finite.le, fun other _ different => ?_⟩
  rcases Nat.lt_or_gt_of_ne different with smaller | larger
  · exact .inl (distance_lt_of_lt smaller above)
  · rcases Nat.eq_or_lt_of_le larger with rfl | beyond
    · exact better
    · have far : |f.magnitude (code + 1) - x| < |f.magnitude other - x| :=
        distance_lt_of_gt beyond below.le
      exact .inl (better.elim far.trans' fun same => same.1.trans_lt far)

/-- The upper neighbour is the nearest if the lower one is no better. -/
theorem isNearest_upper (finite : code < f.infinityCode) (above : f.magnitude code ≤ x)
    (below : x < f.magnitude (code + 1))
    (better : |f.magnitude (code + 1) - x| < |f.magnitude code - x| ∨
      |f.magnitude (code + 1) - x| = |f.magnitude code - x| ∧ (code + 1) % 2 = 0) :
    f.IsNearest x (code + 1) := by
  refine ⟨finite, fun other _ different => ?_⟩
  rcases Nat.lt_or_gt_of_ne different with smaller | larger
  · rcases Nat.eq_or_lt_of_le (Nat.lt_succ_iff.mp smaller) with rfl | beyond
    · exact better
    · have far : |f.magnitude code - x| < |f.magnitude other - x| :=
        distance_lt_of_lt beyond above
      exact .inl (better.elim far.trans' fun same => same.1.trans_lt far)
  · exact .inl (distance_lt_of_gt larger below.le)

/-! ### What rounding gives -/

/-- On the midpoint rounding gives the neighbour with the even code. -/
theorem nearest_of_eq_half (fraction : 0 < f.fractionBits) (finite : code < f.infinityCode)
    (middle : x = f.magnitude code + 2 ^ f.exponent code / 2) :
    f.nearest x = code + code % 2 := by
  have unit := two_zpow_pos (f.exponent code)
  have nonneg : 0 ≤ f.magnitude code := mul_nonneg (Nat.cast_nonneg _) unit.le
  have half : x = f.magnitude code + 1 / 2 * 2 ^ f.exponent code := by
    rw [middle]
    ring
  have even : roundHalfEven ((f.significand code : Rat) + 1 / 2) =
      f.significand code + f.significand code % 2 := by
    simp only [roundHalfEven, toNat_floor_add (f.significand code) (t := 1 / 2) (by norm_num)
      (by norm_num), add_sub_cancel_left, lt_irrefl, if_false]
  have parity : code % 2 = f.significand code % 2 := by
    obtain ⟨bits, width⟩ : ∃ bits, f.fractionBits = bits + 1 := ⟨f.fractionBits - 1, by omega⟩
    have parts := f.code_eq code
    rw [width, pow_succ, ← Nat.mul_assoc] at parts
    omega
  rw [half, nearest_of_between (by norm_num) (by norm_num) (by linarith), even, ← Nat.add_assoc,
    code_eq, ← parity]
  exact min_eq_left (by omega)

/-- From infinity's magnitude on rounding gives infinity. -/
theorem nearest_of_infinity_le (positive : 0 < x) (large : f.magnitude f.infinityCode ≤ x) :
    f.nearest x = f.infinityCode := by
  obtain ⟨lower, above, below⟩ := f.exists_between positive.le
  have inside : f.infinityCode ≤ lower :=
    Nat.lt_succ_iff.mp (f.magnitude_strictMono.lt_iff_lt.mp (large.trans_lt below))
  obtain ⟨k, atLeast, -, -, round⟩ := exists_nearest_eq positive above below
  have own := f.code_eq lower
  rw [round]
  exact min_eq_right (by omega)

/-- **Rounding gives the nearest code**, and the even one of two that are equally near. -/
theorem isNearest_nearest (fraction : 0 < f.fractionBits) (nonneg : 0 ≤ x) :
    f.IsNearest x (f.nearest x) := by
  obtain ⟨lower, above, below⟩ := f.exists_between nonneg
  by_cases large : f.infinityCode ≤ lower
  · refine ⟨f.nearest_le x, fun other finite different => .inl ?_⟩
    have beyond := (f.magnitude_strictMono.monotone large).trans above
    have some : f.infinityCode ≠ 0 := by
      have := f.nearest_le x
      omega
    rw [nearest_of_infinity_le ((magnitude_pos some).trans_le beyond) beyond] at different ⊢
    exact distance_lt_of_lt (Nat.lt_of_le_of_ne finite different) beyond
  have inside : lower < f.infinityCode := not_le.mp large
  have next := f.magnitude_succ lower
  have step := Nat.lt_succ_self lower
  rcases lt_trichotomy x (f.magnitude lower + 2 ^ f.exponent lower / 2) with left | middle | right
  · rw [nearest_of_lt_half inside.le above left]
    refine isNearest_lower inside above below (.inl (not_le.mp fun near => ?_))
    exact absurd ((distance_ge_iff step).mp near) (by linarith)
  · have same : |f.magnitude lower - x| = |f.magnitude (lower + 1) - x| :=
      le_antisymm ((distance_le_iff step).mpr (by linarith))
        ((distance_ge_iff step).mpr (by linarith))
    rw [nearest_of_eq_half fraction inside middle]
    rcases Nat.mod_two_eq_zero_or_one lower with even | odd
    · rw [even, Nat.add_zero]
      exact isNearest_lower inside above below (.inr ⟨same, even⟩)
    · rw [odd]
      exact isNearest_upper inside above below (.inr ⟨same.symm, by omega⟩)
  · rw [nearest_of_half_lt inside right below]
    refine isNearest_upper inside above below (.inl (not_le.mp fun near => ?_))
    exact absurd ((distance_le_iff step).mp near) (by linarith)

/-- **The nearest code is the one that rounding gives, and no other.** -/
theorem isNearest_iff (fraction : 0 < f.fractionBits) (nonneg : 0 ≤ x) :
    f.IsNearest x code ↔ f.nearest x = code := by
  constructor
  · exact (isNearest_nearest fraction nonneg).unique
  · rintro rfl
    exact isNearest_nearest fraction nonneg

/-- **Rounding keeps the order.** -/
theorem nearest_mono (fraction : 0 < f.fractionBits) (nonneg : 0 ≤ x) (less : x ≤ y) :
    f.nearest x ≤ f.nearest y := by
  by_contra crossed
  have smaller := not_le.mp crossed
  have first := (isNearest_nearest fraction nonneg).nearer _ (f.nearest_le y) smaller.ne
  have second := (isNearest_nearest fraction (nonneg.trans less)).nearer _ (f.nearest_le x)
    smaller.ne'
  have high := (distance_ge_iff smaller).mp (first.elim le_of_lt fun same => same.1.le)
  have low := (distance_le_iff smaller).mp (second.elim le_of_lt fun same => same.1.le)
  obtain rfl : x = y := by linarith
  exact absurd rfl smaller.ne

end Format

end SignatureText
