/-
**Binary floating-point numbers and rounding to the nearest.**

A number of a binary interchange format is its sign and its code: the exponent field followed by the
fraction field, read as one natural number. Codes order the magnitudes, the next code is the next
larger magnitude, and the codes from infinity's on hold no number. A finite code stands for exactly
`significand * 2 ^ exponent`.

`Format.nearest` gives the code of the finite magnitude nearest to a rational number; of two equally
near ones the one with the even code; infinity's code where the next magnitude would lie beyond the
largest finite one. Rounding up over a power of two needs no case of its own: the code that follows
is the next exponent's first. `Format.nearestScaled` rounds `digits * 10 ^ exponent` without forming
powers of ten that no format can tell from zero or infinity.
-/

import SignatureText.Number.Numeral

namespace SignatureText

attribute [local instance] corePow

/-! ### Formats -/

/-- A binary interchange format by the widths of its two fields. -/
structure Format where
  fractionBits : Nat
  exponentBits : Nat
deriving DecidableEq, Repr

namespace Format

/-- The 32-bit format. -/
def single : Format := ⟨23, 8⟩

/-- The 64-bit format. -/
def double : Format := ⟨52, 11⟩

/-- How many codes there are; a sign bit stands above them. -/
def codeCount (f : Format) : Nat :=
  2 ^ (f.exponentBits + f.fractionBits)

/-- The code of infinity: all bits of the exponent and none of the fraction. -/
def infinityCode (f : Format) : Nat :=
  (2 ^ f.exponentBits - 1) * 2 ^ f.fractionBits

/-- The exponent of the last fraction bit of the smallest magnitudes. -/
def leastExponent (f : Format) : Int :=
  2 - 2 ^ (f.exponentBits - 1) - f.fractionBits

theorem infinityCode_lt (f : Format) : f.infinityCode < f.codeCount := by
  have positive : 0 < 2 ^ f.exponentBits := Nat.two_pow_pos _
  rw [infinityCode, codeCount, Nat.pow_add]
  exact Nat.mul_lt_mul_of_pos_right (by omega) (Nat.two_pow_pos _)

end Format

/-! ### Numbers -/

/-- A number of the format `f`, infinities and not-a-number included. -/
structure Binary (f : Format) where
  negative : Bool
  code : Nat
  code_lt : code < f.codeCount
deriving DecidableEq, Repr

namespace Binary

variable {f : Format}

/-- The number with the given bits; bits above the sign are dropped. -/
def ofBits (f : Format) (bits : Nat) : Binary f :=
  ⟨bits / f.codeCount % 2 = 1, bits % f.codeCount, Nat.mod_lt _ (Nat.two_pow_pos _)⟩

/-- The code stands for a number. -/
def isFinite (x : Binary f) : Bool :=
  x.code < f.infinityCode

/-- The code stands for an infinity. -/
def isInfinite (x : Binary f) : Bool :=
  x.code = f.infinityCode

/-- The code stands for no number at all. -/
def isNaN (x : Binary f) : Bool :=
  f.infinityCode < x.code

/-- Equality of numbers: the two zeros are equal and nothing equals not-a-number. -/
def same (x y : Binary f) : Bool :=
  !x.isNaN && x.code = y.code && (x.code = 0 || x.negative = y.negative)

end Binary

/-! ### Magnitudes -/

namespace Format

/-- The integer that a finite code scales; all but the smallest magnitudes have a leading one. -/
def significand (f : Format) (code : Nat) : Nat :=
  if code < 2 ^ f.fractionBits then code else 2 ^ f.fractionBits + code % 2 ^ f.fractionBits

/-- The power of two that a finite code scales by. -/
def exponent (f : Format) (code : Nat) : Int :=
  f.leastExponent + (code / 2 ^ f.fractionBits - 1 : Nat)

/-- The magnitude of a finite code. -/
def magnitude (f : Format) (code : Nat) : Rat :=
  f.significand code * 2 ^ f.exponent code

end Format

/-! ### Rounding to the nearest -/

/-- The integer nearest to a number that is not negative; a half goes to the even neighbour. -/
def roundHalfEven (x : Rat) : Nat :=
  let whole := x.floor.toNat
  let remainder := x - whole
  if remainder < 1 / 2 then whole
  else if 1 / 2 < remainder then whole + 1
  else whole + whole % 2

/-- The exponent of the largest power of two that does not exceed a positive number. -/
def binaryExponent (x : Rat) : Int :=
  let estimate : Int := x.num.natAbs.log2 - x.den.log2
  if 2 ^ estimate ≤ x then estimate else estimate - 1

namespace Format

/-- The code nearest to a number that is not negative. -/
def nearest (f : Format) (x : Rat) : Nat :=
  if x ≤ 0 then 0
  else
    let exponent := max (binaryExponent x - f.fractionBits) f.leastExponent
    let steps := (exponent - f.leastExponent).toNat
    min (steps * 2 ^ f.fractionBits + roundHalfEven (x / 2 ^ exponent)) f.infinityCode

theorem nearest_le (f : Format) (x : Rat) : f.nearest x ≤ f.infinityCode := by
  unfold nearest
  split
  · exact Nat.zero_le _
  · exact Nat.min_le_right _ _

/--
So many decimal places before the point put a number beyond every finite magnitude, and so many
zeros behind it put one nearer to zero than to any other magnitude.
-/
def decimalReach (f : Format) : Nat :=
  2 ^ f.exponentBits + f.fractionBits

/-- The code nearest to `digits * 10 ^ exponent`. -/
def nearestScaled (f : Format) (digits : Nat) (exponent : Int) : Nat :=
  let places := Text.digitCount digits + exponent
  if digits = 0 || places < -f.decimalReach then 0
  else if f.decimalReach < places then f.infinityCode
  else f.nearest (digits * 10 ^ exponent)

theorem nearestScaled_le (f : Format) (digits : Nat) (exponent : Int) :
    f.nearestScaled digits exponent ≤ f.infinityCode := by
  simp only [nearestScaled]
  split
  · exact Nat.zero_le _
  · split
    · exact Nat.le_refl _
    · exact f.nearest_le _

end Format

namespace Binary

/-- The number of the format nearest to a magnitude, with the sign given apart. -/
def nearest (f : Format) (negative : Bool) (x : Rat) : Binary f :=
  ⟨negative, f.nearest x, Nat.lt_of_le_of_lt (f.nearest_le x) f.infinityCode_lt⟩

/-- The number of the format nearest to `digits * 10 ^ exponent`, with the sign given apart. -/
def nearestScaled (f : Format) (negative : Bool) (digits : Nat) (exponent : Int) : Binary f :=
  ⟨negative, f.nearestScaled digits exponent,
    Nat.lt_of_le_of_lt (f.nearestScaled_le digits exponent) f.infinityCode_lt⟩

/-- The 32-bit number nearest to a finite 64-bit number. -/
def toSingle (x : Binary .double) : Binary .single :=
  nearest .single x.negative (Format.double.magnitude x.code)

end Binary

end SignatureText
