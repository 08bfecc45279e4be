/-
**Numerals.**

Decimal numbers are written without superfluous leading zeros, a fraction with a fixed number of
places; code points are written in hexadecimal with at least four digits. Every piece is a list of
characters first, so that a text can be taken apart again digit by digit.

A numeral is a number as it is written: a sign, digits of which the last `places` stand behind the
point, and perhaps a power of ten. `Numeral.text` writes it and `Numeral.value` is the number meant,
so that what a text says can be compared with the number it was made from. Minus zero is a numeral
of its own.

A power of a natural number or an integer is the core library's, whatever algebra is in scope where
it is reasoned about: modules that compute with powers make `corePow` a local instance.
-/

namespace SignatureText

/-- Powers with natural exponents, as the core library has them. -/
@[reducible] def corePow {α : Type} [NatPow α] : Pow α Nat := instPowNat

attribute [local instance] corePow

namespace Text

/-- The sign of a number: a minus sign or nothing. -/
def sign (negative : Bool) : String :=
  if negative then "-" else ""

/-! ### Decimal -/

/-- A natural number in decimal, without superfluous leading zeros. -/
def natural (n : Nat) : String :=
  String.ofList (Nat.toDigits 10 n)

/-- An integer in decimal, with a minus sign exactly when it is negative. -/
def integer (n : Int) : String :=
  sign (n < 0) ++ natural n.natAbs

/-- The number of decimal digits of a natural number; zero has one. -/
def digitCount (n : Nat) : Nat :=
  (Nat.toDigits 10 n).length

/-- The last `places` decimal digits of a number, leading zeros kept. -/
def lastDigits : (places : Nat) → Nat → List Char
  | 0, _ => []
  | places + 1, n => lastDigits places (n / 10) ++ [Nat.digitChar (n % 10)]

/--
The number `mantissa / 10 ^ places`, with exactly `places` digits behind the point and no point when
there are none.
-/
def pointed (mantissa places : Nat) : String :=
  if places = 0 then natural mantissa
  else natural (mantissa / 10 ^ places) ++ "." ++ String.ofList (lastDigits places mantissa)

@[simp] theorem length_lastDigits (places n : Nat) : (lastDigits places n).length = places := by
  induction places generalizing n with
  | zero => rfl
  | succ places ih => simp [lastDigits, ih]

@[simp] theorem toList_natural (n : Nat) : (natural n).toList = Nat.toDigits 10 n := by
  simp [natural]

/-! ### Hexadecimal -/

/-- A code point in hexadecimal with at least four lower-case digits. -/
def lowerHex (n : Nat) : List Char :=
  (Nat.toDigits 16 n).leftpad 4 '0'

/-- A code point in hexadecimal with at least four upper-case digits. -/
def upperHex (n : Nat) : List Char :=
  (lowerHex n).map Char.toUpper

end Text

/-! ### Numerals -/

/--
How the power of ten is marked, and whether an exponent that is not negative carries a plus sign.
-/
structure ExponentStyle where
  mark : String
  plus : Bool
deriving DecidableEq, Repr

/-- A decimal number as it is written. -/
structure Numeral where
  negative : Bool
  /-- All digits, read as one number without the point. -/
  mantissa : Nat
  /-- How many of the digits stand behind the point. -/
  places : Nat
  exponent : Option Int
deriving DecidableEq, Repr

namespace Numeral

/-- The text of a power of ten: mark, sign, digits. -/
def exponentText (style : ExponentStyle) : Option Int → String
  | none => ""
  | some e =>
    style.mark ++ (if e < 0 then "-" else if style.plus then "+" else "") ++ Text.natural e.natAbs

/-- The text of a numeral. -/
def text (style : ExponentStyle) (n : Numeral) : String :=
  Text.sign n.negative ++ Text.pointed n.mantissa n.places ++ exponentText style n.exponent

/-- The power of ten that scales the mantissa. -/
def scale (n : Numeral) : Int :=
  n.exponent.getD 0 - n.places

/-- The number without its sign. -/
def magnitude (n : Numeral) : Rat :=
  n.mantissa * 10 ^ n.scale

/-- The number that a numeral means. -/
def value (n : Numeral) : Rat :=
  if n.negative then -n.magnitude else n.magnitude

/-- The numeral of an integer. -/
def ofInt (n : Int) : Numeral :=
  ⟨n < 0, n.natAbs, 0, none⟩

/-- The integer that a numeral without point and power of ten means. -/
def integer? (n : Numeral) : Option Int :=
  if n.places = 0 && n.exponent.isNone then
    some (if n.negative then -n.mantissa else n.mantissa)
  else none

theorem integer?_ofInt (n : Int) : (ofInt n).integer? = some n := by
  simp only [ofInt, integer?, Option.isNone_none, decide_true, Bool.and_self, if_true,
    decide_eq_true_eq, Option.some.injEq]
  split <;> omega

theorem ofInt_injective {m n : Int} (same : ofInt m = ofInt n) : m = n := by
  rw [← Option.some.injEq, ← integer?_ofInt, same, integer?_ofInt]

end Numeral

end SignatureText
