/-
**Numerals as binary floating-point numbers.**

A numeral becomes a 64-bit number by one of two rules, and one rule serves both widths: a 32-bit
number is the 64-bit number for the same numeral, rounded once more. Only for an integer of 64 bits
there is no second rounding.

* `Rounding.arithmetic` is the library's own rule. As many digits as an unsigned integer of 64 bits
  holds are rounded, and the result is multiplied with or divided by the number nearest to a power
  of ten. That is quick, but each of the steps rounds, so what comes out need not be the nearest
  number.
* `Rounding.nearest` gives the nearest number. It is the rule to assume where every 64-bit number
  that was printed has to be read back, which arithmetic does not grant.

Everything that reads numbers is given the rule, so what is said of a reader names the rule that it
holds for, or holds for both.
-/

import SignatureText.Number.Shortest

namespace SignatureText

attribute [local instance] corePow

/-! ### Digits that fit -/

namespace Scaled

/-- What the digits stay below. -/
def digitLimit : Nat := 2 ^ (64 : Nat)

/-- The digits with one more behind them. -/
def digitsWith (s : Scaled) (c : Char) : Nat :=
  10 * s.digits + (c.toNat - '0'.toNat)

/-- Takes digits before the point; from the first one that does not fit on they only count. -/
def takeWhole (s : Scaled) : List Char → Scaled
  | [] => s
  | c :: cs =>
    if s.digitsWith c < digitLimit then takeWhole ⟨s.digitsWith c, s.exponent⟩ cs
    else ⟨s.digits, s.exponent + (cs.length + 1)⟩

/-- Takes digits behind the point; from the first one that does not fit on they are dropped. -/
def takePlaces (s : Scaled) : List Char → Scaled
  | [] => s
  | c :: cs =>
    if s.digitsWith c < digitLimit then takePlaces ⟨s.digitsWith c, s.exponent - 1⟩ cs else s

end Scaled

/-- The digits of a numeral that fit an unsigned integer of 64 bits, with their power of ten. -/
def Numeral.leading (n : Numeral) : Scaled :=
  let whole := Nat.toDigits 10 (n.mantissa / 10 ^ n.places)
  (Scaled.takeWhole ⟨0, n.exponent.getD 0⟩ whole).takePlaces (Text.lastDigits n.places n.mantissa)

/-! ### Scaling in 64-bit arithmetic -/

namespace Format

/-- The number of the format nearest to a number that is not negative. -/
def rounded (f : Format) (x : Rat) : Rat :=
  f.magnitude (f.nearest x)

/-- The largest exponent of a power of ten below the infinity of the 64-bit format. -/
def mostTens : Int := 308

/-- The 64-bit number nearest to a power of ten. -/
def tens (e : Int) : Rat :=
  double.rounded (10 ^ e)

/-- The code that digits and their power of ten give in 64-bit arithmetic. -/
def scaledCode (s : Scaled) : Nat :=
  let digits := double.rounded s.digits
  if mostTens < s.exponent then if s.digits = 0 then 0 else double.infinityCode
  else if 0 ≤ s.exponent then double.nearest (digits * tens s.exponent)
  else if -mostTens ≤ s.exponent then double.nearest (digits / tens (-s.exponent))
  else if -2 * mostTens ≤ s.exponent then
    double.nearest (double.rounded (digits / tens mostTens) / tens (-s.exponent - mostTens))
  else 0

theorem scaledCode_le (s : Scaled) : scaledCode s ≤ double.infinityCode := by
  simp only [scaledCode]
  split
  · split
    · exact Nat.zero_le _
    · exact Nat.le_refl _
  · split
    · exact nearest_le _ _
    · split
      · exact nearest_le _ _
      · split
        · exact nearest_le _ _
        · exact Nat.zero_le _

end Format

/-- The 64-bit number that a numeral gives in 64-bit arithmetic. -/
def Binary.ofNumeral (n : Numeral) : Binary .double :=
  ⟨n.negative, Format.scaledCode n.leading,
    Nat.lt_of_le_of_lt (Format.scaledCode_le _) (Format.infinityCode_lt _)⟩

/-! ### Rules -/

/-- The rule by which a numeral becomes a binary floating-point number. -/
inductive Rounding where
  /-- The number nearest to the numeral, as it has to be where printed numbers come back. -/
  | nearest
  /-- What 64-bit arithmetic makes of the numeral, as the library has it. -/
  | arithmetic
deriving DecidableEq, Repr

namespace Rounding

/-- The 64-bit number for a numeral; infinity, if the numeral is too large. -/
def round : Rounding → Numeral → Binary .double
  | nearest, n => Binary.nearestScaled .double n.negative n.mantissa n.scale
  | arithmetic, n => Binary.ofNumeral n

/-- The 64-bit number for a numeral that is not too large for one. -/
def double? (rounding : Rounding) (n : Numeral) : Option (Binary .double) :=
  let x := rounding.round n
  if x.isFinite then some x else none

/--
The 32-bit number for a numeral. An integer of 64 bits is rounded once; every other numeral is first
made a finite 64-bit number and then rounded to 32 bits, infinity being allowed.
-/
def single? (rounding : Rounding) (n : Numeral) : Option (Binary .single) :=
  match n.integer?.filter fun i => -2 ^ (63 : Nat) ≤ i && i < 2 ^ (64 : Nat) with
  | some _ => some (Binary.nearestScaled .single n.negative n.mantissa 0)
  | none => (rounding.double? n).map Binary.toSingle

end Rounding

end SignatureText
