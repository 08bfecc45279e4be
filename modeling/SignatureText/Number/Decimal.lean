/-
**Decimals.**

A decimal is a sign, a mantissa below `2 ^ 96` and a scale of at most 28: the number `mantissa / 10
^ scale`. The scale belongs to it, so `1.0` and `1.00` are two decimals that are the same number,
and so are the two zeros.

A decimal is read from digits with at most one point, an optional sign before them and underscores
anywhere after the first digit. Digits are taken from the left. A digit before the point that no
longer fits refuses the text; the first digit behind the point that no longer fits rounds the
mantissa, a five upwards, and later ones only have to be well written. Zero loses its sign.

Where that reading fails, a power of ten may follow, marked by `e`. A negative one adds places,
after rounding away those that would not fit; any other moves the point to the right as far as there
are places and otherwise gives an integer.
-/

import SignatureText.Number.Numeral

namespace SignatureText

attribute [local instance] corePow

/-- A number with a fixed number of decimal places. -/
structure Decimal where
  negative : Bool
  mantissa : Nat
  scale : Nat
  mantissa_lt : mantissa < 2 ^ (96 : Nat)
  scale_le : scale ≤ 28
deriving DecidableEq, Repr

namespace Decimal

/-- The largest mantissa. -/
def greatest : Nat := 2 ^ (96 : Nat) - 1

/-- The largest scale. -/
def mostPlaces : Nat := 28

/-- The decimal of the given parts, if they are small enough. -/
def ofParts? (negative : Bool) (mantissa scale : Nat) : Option Decimal :=
  if small : mantissa < 2 ^ (96 : Nat) ∧ scale ≤ 28 then
    some ⟨negative, mantissa, scale, small.1, small.2⟩
  else none

/-- The mantissa with the sign. -/
def signed (d : Decimal) : Int :=
  if d.negative then -d.mantissa else d.mantissa

/-- Two decimals are the same number. -/
def same (a b : Decimal) : Bool :=
  a.signed * 10 ^ b.scale = b.signed * 10 ^ a.scale

/-- The text of a decimal: its sign, kept on zero too, and exactly `scale` places. -/
def text (d : Decimal) : String :=
  Text.sign d.negative ++ Text.pointed d.mantissa d.scale

/-! ### Digits and point -/

/-- What has been read of a text, sign apart. -/
structure Progress where
  mantissa : Nat
  scale : Nat
  /-- A digit was read. -/
  started : Bool
  /-- The point was read. -/
  pointed : Bool
  /-- A digit behind the point did not fit, so all later ones are dropped. -/
  full : Bool
deriving DecidableEq, Repr

namespace Progress

/-- Nothing was read. -/
def start : Progress := ⟨0, 0, false, false, false⟩

/-- The mantissa raised by one. Where it is the largest already, the last place is rounded away. -/
def raise (p : Progress) : Option Progress :=
  if p.mantissa < greatest then some { p with mantissa := p.mantissa + 1 }
  else if p.scale = 0 then none
  else some { p with mantissa := (p.mantissa + 5) / 10, scale := p.scale - 1 }

/-- One more digit is read. -/
def digit (p : Progress) (d : Nat) : Option Progress :=
  let p := { p with started := true }
  let mantissa := p.mantissa * 10 + d
  if p.full then some p
  else if mantissa ≤ greatest && !(p.pointed && p.scale = mostPlaces) then
    some { p with mantissa, scale := if p.pointed then p.scale + 1 else p.scale }
  else if !p.pointed then none
  else if d < 5 then some { p with full := true }
  else raise { p with full := true }

/-- A mantissa below this limit takes one more digit within 64 bits, with a byte to spare. -/
def narrowLimit : Nat := (2 ^ (64 : Nat) - 1) / 10 - 255

/-- The last possible place was read, and the mantissa was narrow before it. -/
def isNarrowEnd (p : Progress) : Bool :=
  p.pointed && p.scale = mostPlaces && p.mantissa / 10 < narrowLimit

/--
An underscore is read. It says nothing about the number, except behind the last possible place of a
narrow mantissa: there it stands for a zero, so that later digits do not round.
-/
def underscore (p : Progress) : Option Progress :=
  if p.started then some { p with full := p.full || p.isNarrowEnd } else none

/-- One more character is read. -/
def next (p : Progress) (c : Char) : Option Progress :=
  if c.isDigit then p.digit (c.toNat - '0'.toNat)
  else if c = '.' then if p.pointed then none else some { p with pointed := true }
  else if c = '_' then p.underscore
  else none

end Progress

/-- The sign before a number and the rest of the text. -/
def splitSign : List Char → Bool × List Char
  | '-' :: rest => (true, rest)
  | '+' :: rest => (false, rest)
  | rest => (false, rest)

/-- Reads a decimal without a power of ten. -/
def readPlain (text : List Char) : Option Decimal := do
  let (negative, rest) := splitSign text
  let p ← rest.foldlM Progress.next Progress.start
  if p.started then ofParts? (negative && p.mantissa ≠ 0) p.mantissa p.scale else none

/-! ### Powers of ten -/

/-- A number of places: an optional plus sign and digits, at most 28. -/
def readPlaces (text : List Char) : Option Nat :=
  let digits := match text with
    | '+' :: rest => rest
    | rest => rest
  if !digits.isEmpty && digits.all Char.isDigit then
    let n := Nat.ofDigitChars 10 digits 0
    if n ≤ mostPlaces then some n else none
  else none

/-- The integer nearest to a quotient; a half goes to the larger neighbour. -/
def roundHalfUp (numerator denominator : Nat) : Nat :=
  (2 * numerator + denominator) / (2 * denominator)

theorem roundHalfUp_le (numerator : Nat) {denominator : Nat} (positive : 0 < denominator) :
    roundHalfUp numerator denominator ≤ numerator := by
  apply Nat.le_of_lt_succ
  apply Nat.div_lt_of_lt_mul
  have : numerator ≤ denominator * numerator := Nat.le_mul_of_pos_left _ positive
  rw [Nat.mul_succ, Nat.mul_assoc]
  omega

/-- The nearest decimal with at most `places` places; a half goes away from zero. -/
def roundTo (places : Nat) (d : Decimal) : Decimal :=
  if few : places < d.scale then
    { d with
      mantissa := roundHalfUp d.mantissa (10 ^ (d.scale - places))
      scale := places
      mantissa_lt := Nat.lt_of_le_of_lt (roundHalfUp_le _ (Nat.pow_pos (by decide))) d.mantissa_lt
      scale_le := Nat.le_trans (Nat.le_of_lt few) d.scale_le }
  else d

/-- The decimal divided by `10 ^ places`. -/
def addPlaces (d : Decimal) (places : Nat) : Option Decimal :=
  let d := if mostPlaces < d.scale + places then d.roundTo (mostPlaces - places) else d
  ofParts? d.negative d.mantissa (d.scale + places)

/-- The decimal multiplied by `10 ^ places`. -/
def dropPlaces (d : Decimal) (places : Nat) : Option Decimal :=
  if places ≤ d.scale then ofParts? d.negative d.mantissa (d.scale - places)
  else ofParts? d.negative (d.mantissa * 10 ^ (places - d.scale)) 0

/-- Reads a decimal with a power of ten after the first `e`. -/
def readScaled (text : List Char) : Option Decimal :=
  let isMark := fun c => c = 'e' || c = 'E'
  match text.dropWhile (!isMark ·) with
  | [] => none
  | _ :: exponent => do
    let d ← readPlain (text.takeWhile (!isMark ·))
    match exponent with
    | '-' :: places => d.addPlaces (← readPlaces places)
    | places => d.dropPlaces (← readPlaces places)

/-- Reads a decimal. -/
def read (text : String) : Option Decimal :=
  readPlain text.toList <|> readScaled text.toList

end Decimal

end SignatureText
