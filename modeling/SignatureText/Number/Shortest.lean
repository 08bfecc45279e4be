/-
**The shortest digits that read back, and their layout.**

`Format.shortest` gives the decimal number with the fewest digits among those that round to a finite
code, and of those the nearest to the code's magnitude. On the grid of `n`-digit numbers only the
two neighbours of the magnitude can be it: if any point of the grid rounds to the code, one of them
does. A tie between the two goes as the caller says. Should no grid up to the finest have a hit, the
magnitude's exact decimal expansion stands in.

A layout says how these digits become a numeral: which of two equally near digit strings is taken,
for which sizes the number is written out, and whether a whole number gets a place behind the point.
All other numbers get one digit before the point and a power of ten. The numeral means the same
number either way.
-/

import SignatureText.Number.Binary

namespace SignatureText

attribute [local instance] corePow

/-! ### Digits -/

/--
Which of two equally near neighbours is taken: the upper one or the one with an even last digit.
-/
inductive Tie where
  | up
  | even
deriving DecidableEq, Repr

/-- The better of the two neighbours of a number between `lower` and `lower + 1`. -/
def Tie.pick (tie : Tie) (x : Rat) (lower : Nat) : Nat :=
  if 2 * (x - lower) < 1 then lower
  else if 1 < 2 * (x - lower) then lower + 1
  else match tie with
    | .up => lower + 1
    | .even => lower + lower % 2

/-- The number `digits * 10 ^ exponent`. -/
structure Scaled where
  digits : Nat
  exponent : Int
deriving DecidableEq, Repr

namespace Scaled

/-- The number meant. -/
def value (s : Scaled) : Rat :=
  s.digits * 10 ^ s.exponent

/-- The same number without zeros at the end of its digits. -/
def trimmed (s : Scaled) : Scaled :=
  if s.digits ≠ 0 ∧ s.digits % 10 = 0 then trimmed ⟨s.digits / 10, s.exponent + 1⟩ else s
termination_by s.digits
decreasing_by omega

/-- The exponent of the first digit. -/
def leadingExponent (s : Scaled) : Int :=
  s.exponent + Text.digitCount s.digits - 1

end Scaled

/-- The exponent of the first decimal digit of a positive number. -/
def decimalExponent (x : Rat) : Int :=
  let estimate : Int := Text.digitCount x.num.natAbs - Text.digitCount x.den
  if 10 ^ estimate ≤ x then estimate else estimate - 1

namespace Format

/-- A decimal number rounds to the code. -/
def readsBack (f : Format) (code : Nat) (s : Scaled) : Bool :=
  f.nearest s.value = code

/-- The number with `count` digits that rounds to the code and is nearest to its magnitude. -/
def withDigits (f : Format) (tie : Tie) (code count : Nat) : Option Scaled :=
  let x := f.magnitude code
  let exponent := decimalExponent x - count + 1
  let steps := x / 10 ^ exponent
  let lower := steps.floor.toNat
  match f.readsBack code ⟨lower, exponent⟩, f.readsBack code ⟨lower + 1, exponent⟩ with
  | true, true => some ⟨tie.pick steps lower, exponent⟩
  | true, false => some ⟨lower, exponent⟩
  | false, true => some ⟨lower + 1, exponent⟩
  | false, false => none

/-- The magnitude of a code with all of its decimal digits. -/
def expansion (f : Format) (code : Nat) : Scaled :=
  let exponent := f.exponent code
  if 0 ≤ exponent then ⟨f.significand code * 2 ^ exponent.toNat, 0⟩
  else ⟨f.significand code * 5 ^ (-exponent).toNat, exponent⟩

/-- The most digits that are tried; seventeen tell all numbers of the 64-bit format apart. -/
def mostDigits : Nat := 17

/-- The shortest decimal number that rounds to a finite code. -/
def shortest (f : Format) (tie : Tie) (code : Nat) : Scaled :=
  if code = 0 then ⟨0, 0⟩
  else
    let counts := (List.range mostDigits).map (· + 1)
    ((counts.findSome? (f.withDigits tie code)).getD (f.expansion code)).trimmed

end Format

/-! ### Layouts -/

namespace Scaled

/-- The numeral without a power of ten. -/
def plain (s : Scaled) (negative : Bool) : Numeral :=
  if 0 ≤ s.exponent then ⟨negative, s.digits * 10 ^ s.exponent.toNat, 0, none⟩
  else ⟨negative, s.digits, (-s.exponent).toNat, none⟩

/-- The numeral with one digit before the point and a power of ten. -/
def scientific (s : Scaled) (negative : Bool) : Numeral :=
  ⟨negative, s.digits, Text.digitCount s.digits - 1, some s.leadingExponent⟩

end Scaled

/-- How finite numbers are written. -/
structure RealLayout where
  tie : Tie
  /-- Whether a number whose first digit has this exponent is written out. -/
  isPlain : Int → Bool
  /-- Whether a whole number that is written out gets `.0`. -/
  pointZero : Bool

/-- A numeral with a zero behind the point, if nothing stands there and it has no power of ten. -/
def Numeral.withPointZero (n : Numeral) : Numeral :=
  if n.places = 0 && n.exponent.isNone then { n with mantissa := n.mantissa * 10, places := 1 }
  else n

/-- The numeral of a finite number. -/
def RealLayout.numeral {f : Format} (layout : RealLayout) (x : Binary f) : Numeral :=
  let digits := f.shortest layout.tie x.code
  let numeral :=
    if layout.isPlain digits.leadingExponent then digits.plain x.negative
    else digits.scientific x.negative
  if layout.pointZero then numeral.withPointZero else numeral

end SignatureText
