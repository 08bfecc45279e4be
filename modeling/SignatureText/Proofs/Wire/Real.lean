/-
**Floating-point numbers in JSON.**

A reader gives a finite number back from its own numeral or not, depending on the rule by which it
rounds. The numeral is never taken for an integer, since a point or a power of ten is always
written, so a 32-bit number is read by way of 64 bits.

* `Rounding.nearest_double?_numeral` — **by the nearest number every finite 64-bit number is given
  back.**
* `Rounding.nearest_single?_numeral_iff`, `Binary.survivesDouble_iff` — **so is every finite 32-bit
  number but for one magnitude**, which goes to the wrong side of a midpoint.
* `Rounding.arithmetic_single?_numeral` — **by arithmetic every finite 32-bit number is given back.**
  The 64-bit number that comes out is near enough (`Format.nearest_of_near_printed`), and the few
  numbers for which that leaves a doubt are read one by one (`Binary.all_unclear_read`).
* `Rounding.arithmetic_round_eq_nearest` — the two rules agree where the digits are few and the last
  of them stands near the point, so finite 64-bit numbers with such numerals are given back too
  (`Rounding.arithmetic_double?_numeral`).
-/

import SignatureText.Proofs.Number.Midpoints
import SignatureText.Proofs.Number.Scaling
import SignatureText.Wire.Encoding

namespace SignatureText

/-- A numeral with a point or a power of ten is no integer. -/
theorem RealLayout.integer?_numeral {f : Format} {layout : RealLayout}
    (pointZero : layout.pointZero = true) (x : Binary f) : (layout.numeral x).integer? = none := by
  have noInteger (n : Numeral) : n.withPointZero.integer? = none := by
    unfold Numeral.withPointZero Numeral.integer?
    by_cases whole : (n.places = 0 && n.exponent.isNone) = true
    · simp [whole]
    · simp [whole]
  simp only [RealLayout.numeral, pointZero, if_true, noInteger]

/-! ### The numerals of 32-bit numbers -/

/-- An integer whose first digit stands at a known place is below the next power of ten. -/
theorem Scaled.mul_pow_lt {s : Scaled} {most : Nat} (some : s.digits ≠ 0) (whole : 0 ≤ s.exponent)
    (first : s.leadingExponent ≤ most) : s.digits * 10 ^ s.exponent.toNat < 10 ^ (most + 1) := by
  have digits : s.digits < 10 ^ Text.digitCount s.digits := by
    have := (Format.digitCount_bounds some).2
    rw [zpow_natCast] at this
    exact_mod_cast this
  have count : Text.digitCount s.digits + s.exponent.toNat ≤ most + 1 := by
    rw [leadingExponent] at first
    omega
  calc s.digits * 10 ^ s.exponent.toNat
      < 10 ^ Text.digitCount s.digits * 10 ^ s.exponent.toNat :=
        Nat.mul_lt_mul_of_pos_right digits (by positivity)
    _ = 10 ^ (Text.digitCount s.digits + s.exponent.toNat) := (Nat.pow_add _ _ _).symm
    _ ≤ 10 ^ (most + 1) := Nat.pow_le_pow_right (by norm_num) count

namespace Json

variable {x : Binary .single}

/-- The digits of a numeral and the power of ten behind its last one. -/
theorem numeral_single (nonzero : x.code ≠ 0) (finite : x.isFinite = true) :
    (singleLayout.numeral x).mantissa ≠ 0 ∧ (singleLayout.numeral x).mantissa < 2 ^ 53 ∧
      ((singleLayout.numeral x).scale = (Format.single.shortest .even x.code).exponent ∨
        (singleLayout.numeral x).scale = -1) := by
  have some := Format.shortest_digits_ne_zero .even nonzero (of_decide_eq_true finite)
  obtain ⟨few, -⟩ := Format.shortest_single .even nonzero (of_decide_eq_true finite).le
  simp only [RealLayout.numeral, show singleLayout.pointZero = true from rfl, if_true,
    show singleLayout.tie = .even from rfl]
  generalize Format.single.shortest .even x.code = s at *
  split
  · rename_i plain
    have first : s.leadingExponent ≤ 12 := by
      simp only [singleLayout, Bool.and_eq_true, decide_eq_true_eq] at plain
      exact plain.2
    rw [Scaled.plain]
    split
    · rename_i whole
      -- All digits stand before the point, and there are thirteen of them at most.
      have small : s.digits * 10 ^ s.exponent.toNat < 10 ^ (12 + 1) :=
        Scaled.mul_pow_lt some whole (by exact_mod_cast first)
      have positive : 0 < s.digits * 10 ^ s.exponent.toNat := by positivity
      simp only [Numeral.withPointZero, Option.isNone_none, decide_true, Bool.and_self, if_true,
        Numeral.scale, Option.getD_none]
      omega
    · have same : Numeral.withPointZero ⟨x.negative, s.digits, (-s.exponent).toNat, none⟩ =
          ⟨x.negative, s.digits, (-s.exponent).toNat, none⟩ :=
        if_neg (by simp; omega)
      rw [same]
      simp only [Numeral.scale, Option.getD_none]
      exact ⟨some, by omega, .inl (by omega)⟩
  · have same : (s.scientific x.negative).withPointZero = s.scientific x.negative := by
      simp [Numeral.withPointZero, Scaled.scientific]
    rw [same, Scaled.scale_scientific]
    exact ⟨some, few.trans_lt (by norm_num), .inl rfl⟩

end Json

namespace Binary

variable {x : Binary .single}

/-! ### Reading by way of 64 bits -/

/-- **A 64-bit number near the numeral of a 32-bit number rounds to that number.** -/
theorem toSingle_eq_of_near {y : Binary .double} (nonzero : x.code ≠ 0)
    (finite : x.isFinite = true)
    (clear : ∀ lower ∈ Format.doubtful, x.code ≠ lower ∧ x.code ≠ lower + 1)
    (sign : y.negative = x.negative)
    (near : |Format.double.magnitude y.code - (Json.singleLayout.numeral x).magnitude| ≤
      (Json.singleLayout.numeral x).magnitude / 2 ^ 51)
    (midpoint : ∀ (w : Nat) (e : Int), w < 2 ^ 25 → w % 2 = 1 →
      (Json.singleLayout.numeral x).magnitude = w * 2 ^ e →
        Format.double.magnitude y.code = (Json.singleLayout.numeral x).magnitude) :
    y.toSingle = x := by
  have nonneg : 0 ≤ Format.double.magnitude y.code :=
    mul_nonneg (Nat.cast_nonneg _) (two_zpow_pos _).le
  rw [RealLayout.magnitude_numeral] at near midpoint
  have code := Format.nearest_of_near_printed nonzero (of_decide_eq_true finite) nonneg clear near
    midpoint
  cases x
  simp only [toSingle, nearest, mk.injEq]
  exact ⟨sign, code⟩

/-- The 64-bit number nearest to what is printed for a 32-bit number rounds to it. -/
def SurvivesDouble (x : Binary .single) : Prop :=
  (nearest .double x.negative (Json.singleLayout.numeral x).magnitude).toSingle = x

/-- The 64-bit number that arithmetic makes of a numeral is finite and rounds to the number. -/
def SurvivesArithmetic (x : Binary .single) : Prop :=
  (ofNumeral (Json.singleLayout.numeral x)).isFinite = true ∧
    (ofNumeral (Json.singleLayout.numeral x)).toSingle = x

instance : DecidablePred SurvivesDouble := fun _ => inferInstanceAs (Decidable (_ = _))

instance : DecidablePred SurvivesArithmetic := fun _ => inferInstanceAs (Decidable (_ ∧ _))

end Binary

/-! ### Numbers without their sign -/

/-- The numeral with another sign. -/
def Numeral.withSign (n : Numeral) (negative : Bool) : Numeral :=
  { n with negative }

theorem Numeral.withPointZero_withSign (n : Numeral) (negative : Bool) :
    (n.withSign negative).withPointZero = n.withPointZero.withSign negative := by
  by_cases whole : (n.places = 0 && n.exponent.isNone) = true
  · simp only [withPointZero, withSign, if_pos whole]
    exact if_pos whole
  · simp only [withPointZero, withSign, if_neg whole]
    exact if_neg whole

theorem Scaled.plain_eq_withSign (s : Scaled) (negative : Bool) :
    s.plain negative = (s.plain false).withSign negative := by
  unfold plain
  split <;> rfl

namespace Binary

/-- The number without its sign. -/
def abs {f : Format} (x : Binary f) : Binary f :=
  { x with negative := false }

theorem abs_eq_ofBits {f : Format} (x : Binary f) : x.abs = ofBits f x.code := by
  simp [abs, ofBits, Nat.mod_eq_of_lt x.code_lt, Nat.div_eq_of_lt x.code_lt]

/-- The sign of a number is only that of its numeral. -/
theorem numeral_eq_withSign {f : Format} (layout : RealLayout) (x : Binary f) :
    layout.numeral x = (layout.numeral x.abs).withSign x.negative := by
  have scientific (s : Scaled) (negative : Bool) :
      s.scientific negative = (s.scientific false).withSign negative := rfl
  simp only [RealLayout.numeral, abs]
  rw [Scaled.plain_eq_withSign _ x.negative, scientific _ x.negative,
    ← apply_ite (Numeral.withSign · x.negative), Numeral.withPointZero_withSign,
    ← apply_ite (Numeral.withSign · x.negative)]
  rfl

theorem survivesDouble_abs (x : Binary .single) : x.abs.SurvivesDouble ↔ x.SurvivesDouble := by
  obtain ⟨negative, code, bound⟩ := x
  unfold SurvivesDouble
  rw [numeral_eq_withSign Json.singleLayout ⟨negative, code, bound⟩]
  simp only [abs, toSingle, nearest, mk.injEq, true_and]
  rfl

theorem survivesArithmetic_abs (x : Binary .single) :
    x.abs.SurvivesArithmetic ↔ x.SurvivesArithmetic := by
  obtain ⟨negative, code, bound⟩ := x
  unfold SurvivesArithmetic
  rw [numeral_eq_withSign Json.singleLayout ⟨negative, code, bound⟩]
  refine and_congr Iff.rfl ?_
  simp only [abs, toSingle, nearest, mk.injEq]
  exact and_congr (by simp [ofNumeral, Numeral.withSign, RealLayout.negative_numeral]) Iff.rfl

/-! ### The unclear cases -/

/-- The codes for which the error of 64 bits leaves a doubt, and that of zero. -/
def unclear : List Nat :=
  0 :: Format.doubtful.flatMap fun lower => [lower, lower + 1]

theorem all_unclear_read : ∀ code ∈ unclear, SurvivesArithmetic (ofBits .single code) := by
  rw [unclear, Format.doubtful_eq]
  decide +kernel

theorem all_unclear_survive :
    ∀ code ∈ unclear, SurvivesDouble (ofBits .single code) ↔ code ≠ 0x15ae43fd := by
  rw [unclear, Format.doubtful_eq]
  decide +kernel

variable {x : Binary .single}

/-- All other codes are those of numbers that are not zero and clear of the midpoints. -/
theorem clear_of_notMem_unclear {code : Nat} (other : code ∉ unclear) :
    code ≠ 0 ∧ ∀ lower ∈ Format.doubtful, code ≠ lower ∧ code ≠ lower + 1 := by
  simp only [unclear, List.mem_cons, List.mem_flatMap, List.not_mem_nil, or_false, not_or,
    not_exists, not_and] at other
  exact other

/-! ### All cases -/

/-- A midpoint that is printed is a 64-bit number. -/
theorem rounded_of_midpoint (nonzero : x.code ≠ 0) (finite : x.isFinite = true) {w : Nat} {e : Int}
    (reach : w < 2 ^ 25) (equal : (Json.singleLayout.numeral x).magnitude = w * 2 ^ e) :
    Format.double.rounded (Json.singleLayout.numeral x).magnitude =
      (Json.singleLayout.numeral x).magnitude := by
  obtain ⟨above, below⟩ :=
    Format.shortest_bounds .even nonzero (of_decide_eq_true finite)
  have printed : (Json.singleLayout.numeral x).magnitude =
      (Format.single.shortest .even x.code).value :=
    RealLayout.magnitude_numeral Json.singleLayout x
  rw [← printed, equal] at above below
  rw [equal]
  refine Format.rounded_of_integer (reach.trans (by decide)) ?_ ?_
  · have less : (2 : Rat) ^ (-150 : Int) < 2 ^ (25 + e) := calc
      (2 : Rat) ^ (-150 : Int) < w * 2 ^ e := above
      _ ≤ 2 ^ (25 : Int) * 2 ^ e :=
        mul_le_mul_of_nonneg_right (by exact_mod_cast reach.le) (two_zpow_pos e).le
      _ = 2 ^ (25 + e) := (zpow_add₀ (by norm_num) _ _).symm
    have := (zpow_lt_zpow_iff_right₀ (by norm_num : (1 : Rat) < 2)).mp less
    have least : Format.double.leastExponent = -1074 := by decide
    omega
  · rw [Format.magnitude_double_infinity]
    exact below.trans (zpow_lt_zpow_right₀ (by norm_num) (by norm_num))

/-- What is printed for a 32-bit number is far from both ends of the 64-bit format. -/
theorem inner_numeral (nonzero : x.code ≠ 0) (finite : x.isFinite = true) :
    Format.Inner (Json.singleLayout.numeral x).magnitude := by
  obtain ⟨above, below⟩ :=
    Format.shortest_bounds .even nonzero (of_decide_eq_true finite)
  have printed : (Json.singleLayout.numeral x).magnitude =
      (Format.single.shortest .even x.code).value :=
    RealLayout.magnitude_numeral Json.singleLayout x
  rw [← printed] at above below
  exact ⟨(zpow_le_zpow_right₀ (by norm_num) (by norm_num)).trans above.le,
    below.le.trans (zpow_le_zpow_right₀ (by norm_num) (by norm_num))⟩

/-- So the 64-bit number nearest to it is finite. -/
theorem isFinite_nearest_numeral (finite : x.isFinite = true) :
    (nearest .double x.negative (Json.singleLayout.numeral x).magnitude).isFinite = true := by
  apply decide_eq_true
  show Format.double.nearest (Json.singleLayout.numeral x).magnitude < _
  by_cases zero : x.code = 0
  · have printed : (Json.singleLayout.numeral x).magnitude = 0 := by
      rw [RealLayout.magnitude_numeral, zero]
      simp [Format.shortest, Scaled.value]
    rw [printed, Format.nearest_zero]
    decide
  · exact (inner_numeral zero finite).nearest_lt

/-- **A finite 32-bit number survives 64-bit arithmetic.** -/
theorem survivesArithmetic (finite : x.isFinite = true) : x.SurvivesArithmetic := by
  by_cases member : x.code ∈ unclear
  · rw [← survivesArithmetic_abs, abs_eq_ofBits]
    exact all_unclear_read _ member
  obtain ⟨nonzero, clear⟩ := clear_of_notMem_unclear member
  obtain ⟨some, few, scale⟩ := Json.numeral_single nonzero finite
  obtain ⟨low, high⟩ :=
    Format.shortest_exponent_bounds .even nonzero (of_decide_eq_true finite)
  have leading := Numeral.leading_of_lt (few.trans (by decide))
  have value : (Json.singleLayout.numeral x).leading.value =
      (Json.singleLayout.numeral x).magnitude := by
    rw [leading]
    rfl
  obtain ⟨inside, near⟩ := Format.abs_scaledCode_sub_le
    (s := ⟨(Json.singleLayout.numeral x).mantissa, (Json.singleLayout.numeral x).scale⟩) some few
    (show -100 ≤ (Json.singleLayout.numeral x).scale by omega)
    (show (Json.singleLayout.numeral x).scale ≤ 100 by omega)
  rw [← leading, value] at near
  rw [← leading] at inside
  refine ⟨decide_eq_true inside, toSingle_eq_of_near nonzero finite clear
    (RealLayout.negative_numeral _ _) near fun w e reach odd equal => ?_⟩
  have short := rounded_of_midpoint nonzero finite reach equal
  have digits := Format.shortest_single .even nonzero (of_decide_eq_true finite).le
  have nonzeroDigits := Format.shortest_digits_ne_zero .even nonzero (of_decide_eq_true finite)
  rw [RealLayout.magnitude_numeral] at equal
  have exponent := Scaled.exponent_bounds_of_eq nonzeroDigits digits.1 (by omega) reach equal
  show Format.double.magnitude (Format.scaledCode _) = _
  rw [leading, Format.scaledCode_eq_nearest few
    (show -22 ≤ (Json.singleLayout.numeral x).scale by omega)
    (show (Json.singleLayout.numeral x).scale ≤ 22 by omega)]
  exact short

/--
**A finite 32-bit number survives correct rounding to 64 bits, but for a single magnitude**, that of
`7.038531e-26`: the 64-bit number nearest to it is a midpoint of 32-bit numbers.
-/
theorem survivesDouble_iff (finite : x.isFinite = true) :
    x.SurvivesDouble ↔ x.code ≠ 0x15ae43fd := by
  by_cases member : x.code ∈ unclear
  · rw [← survivesDouble_abs, abs_eq_ofBits]
    exact all_unclear_survive _ member
  obtain ⟨nonzero, clear⟩ := clear_of_notMem_unclear member
  have other : x.code ≠ 0x15ae43fd := fun exception => member <| by
    rw [exception, unclear, Format.doubtful_eq]
    decide
  refine iff_of_true ?_ other
  have inner := inner_numeral nonzero finite
  refine toSingle_eq_of_near nonzero finite clear rfl ?_ fun w e reach _ equal =>
    rounded_of_midpoint nonzero finite reach equal
  exact inner.abs_rounded_sub_le.trans (div_le_div_of_nonneg_left
    ((two_zpow_pos _).trans_le inner.1).le (by norm_num) (by norm_num))

end Binary

/-! ### Reading by either rule -/

namespace Rounding

variable {rounding : Rounding}

theorem double?_eq_some_iff {n : Numeral} {y : Binary .double} :
    rounding.double? n = some y ↔ rounding.round n = y ∧ y.isFinite = true := by
  simp only [double?]
  split
  · rename_i finite
    rw [Option.some.injEq]
    exact ⟨fun same => ⟨same, same ▸ finite⟩, And.left⟩
  · rename_i infinite
    exact iff_of_false nofun fun ⟨same, finite⟩ => infinite (same ▸ finite)

/-- The numeral of a 32-bit number is no integer, so it is read by way of 64 bits. -/
theorem single?_numeral_eq_some_iff {x y : Binary .single} :
    rounding.single? (Json.singleLayout.numeral x) = some y ↔
      ∃ z, rounding.double? (Json.singleLayout.numeral x) = some z ∧ z.toSingle = y := by
  rw [single?, RealLayout.integer?_numeral (rfl : Json.singleLayout.pointZero = true)]
  exact Option.map_eq_some_iff

/-- Rounding leaves the sign. -/
theorem negative_round (n : Numeral) : (rounding.round n).negative = n.negative := by
  cases rounding <;> rfl

theorem negative_of_double?_numeral {x y : Binary .double}
    (found : rounding.double? (Json.doubleLayout.numeral x) = some y) :
    y.negative = x.negative := by
  obtain ⟨rfl, -⟩ := double?_eq_some_iff.mp found
  rw [negative_round, RealLayout.negative_numeral]

theorem negative_of_single?_numeral {x y : Binary .single}
    (found : rounding.single? (Json.singleLayout.numeral x) = some y) :
    y.negative = x.negative := by
  obtain ⟨z, read, rfl⟩ := single?_numeral_eq_some_iff.mp found
  obtain ⟨rfl, -⟩ := double?_eq_some_iff.mp read
  show (rounding.round _).negative = _
  rw [negative_round, RealLayout.negative_numeral]

theorem round_nearest (n : Numeral) :
    nearest.round n = Binary.nearest .double n.negative n.magnitude :=
  Binary.nearestScaled_eq_nearest _ _ _ _

/-- **By the nearest number a finite 64-bit number is read from its own numeral.** -/
theorem nearest_double?_numeral {x : Binary .double} (finite : x.isFinite = true) :
    nearest.double? (Json.doubleLayout.numeral x) = some x := by
  rw [double?_eq_some_iff, round_nearest, RealLayout.negative_numeral]
  exact ⟨Binary.nearest_numeral Json.doubleLayout finite, finite⟩

/-- **By the nearest number a finite 32-bit number is read from its own numeral if it survives
rounding to 64 bits**, so all are but for one magnitude. -/
theorem nearest_single?_numeral_iff {x : Binary .single} (finite : x.isFinite = true) :
    nearest.single? (Json.singleLayout.numeral x) = some x ↔ x.SurvivesDouble := by
  simp only [single?_numeral_eq_some_iff, double?_eq_some_iff, round_nearest,
    RealLayout.negative_numeral]
  constructor
  · rintro ⟨z, ⟨rfl, -⟩, same⟩
    exact same
  · intro survives
    exact ⟨_, ⟨rfl, Binary.isFinite_nearest_numeral finite⟩, survives⟩

/-- **By arithmetic a finite 32-bit number is read from its own numeral.** -/
theorem arithmetic_single?_numeral {x : Binary .single} (finite : x.isFinite = true) :
    arithmetic.single? (Json.singleLayout.numeral x) = some x := by
  obtain ⟨inside, same⟩ := Binary.survivesArithmetic finite
  exact single?_numeral_eq_some_iff.mpr ⟨_, double?_eq_some_iff.mpr ⟨rfl, inside⟩, same⟩

/-- **The two rules agree on numerals with few digits, the last of them near the point.** -/
theorem arithmetic_round_eq_nearest {n : Numeral} (few : n.mantissa < 2 ^ 53) (low : -22 ≤ n.scale)
    (high : n.scale ≤ 22) : arithmetic.round n = nearest.round n := by
  have leading := Numeral.leading_of_lt (few.trans (by decide))
  have code : Format.scaledCode n.leading = Format.double.nearest n.magnitude := by
    rw [leading]
    exact Format.scaledCode_eq_nearest few low high
  rw [round_nearest]
  simp only [round, Binary.ofNumeral, Binary.nearest, Binary.mk.injEq, true_and]
  exact code

/-- So by arithmetic a 64-bit number is read from its own numeral if that is one of these. -/
theorem arithmetic_double?_numeral {x : Binary .double} (finite : x.isFinite = true)
    (few : (Json.doubleLayout.numeral x).mantissa < 2 ^ 53)
    (low : -22 ≤ (Json.doubleLayout.numeral x).scale)
    (high : (Json.doubleLayout.numeral x).scale ≤ 22) :
    arithmetic.double? (Json.doubleLayout.numeral x) = some x := by
  have same := nearest_double?_numeral finite
  rw [double?_eq_some_iff] at same ⊢
  rwa [arithmetic_round_eq_nearest few low high]

end Rounding

end SignatureText
