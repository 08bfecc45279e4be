/-
**Integral types, their values, and descriptions of values.**

The eight integral types of C# are named by their keywords. A value carries its type and lies within
the type's bounds, so an integer out of range cannot be written down; `Integral.ofInt` refuses it
and says for which type. A machine integer always fits the type of its width and sign.

A value may be described by the name of its type, by a width and a sign, or by both when they agree.
`Description.resolve` checks the description in a fixed order and reports the first thing that is
wrong: half a pair, a pair that names no type, a contradiction, no type at all, a value out of
range.
-/

import SignatureText.Number.Numeral

namespace SignatureText

attribute [local instance] corePow

/-! ### Types -/

/-- An integral type of C#, named by its keyword. -/
inductive IntegralType where
  | sbyte
  | byte
  | short
  | ushort
  | int
  | uint
  | long
  | ulong
deriving DecidableEq, Repr

namespace IntegralType

/-- All integral types, narrow before wide and signed before unsigned within the small widths. -/
def all : List IntegralType :=
  [sbyte, byte, short, ushort, int, uint, long, ulong]

/-- The keyword that names the type. -/
def keyword : IntegralType → String
  | sbyte => "sbyte"
  | byte => "byte"
  | short => "short"
  | ushort => "ushort"
  | int => "int"
  | uint => "uint"
  | long => "long"
  | ulong => "ulong"

/-- How many bits a value has. -/
def width : IntegralType → Nat
  | sbyte | byte => 8
  | short | ushort => 16
  | int | uint => 32
  | long | ulong => 64

/-- Whether the type has negative values. -/
def isSigned : IntegralType → Bool
  | sbyte | short | int | long => true
  | byte | ushort | uint | ulong => false

/-- The type with a given width and sign. -/
def ofWidth? (width : Nat) (signed : Bool) : Option IntegralType :=
  all.find? fun type => type.width = width && type.isSigned = signed

/-- The smallest value. -/
def least (type : IntegralType) : Int :=
  if type.isSigned then -2 ^ (type.width - 1) else 0

/-- The largest value. -/
def greatest (type : IntegralType) : Int :=
  if type.isSigned then 2 ^ (type.width - 1) - 1 else 2 ^ type.width - 1

/-- The integer is a value of the type. -/
def Holds (type : IntegralType) (n : Int) : Prop :=
  type.least ≤ n ∧ n ≤ type.greatest

instance (type : IntegralType) (n : Int) : Decidable (type.Holds n) :=
  inferInstanceAs (Decidable (_ ∧ _))

/-- The integer that a machine integer with the width and the sign of a type is. -/
def wordValue (type : IntegralType) (word : BitVec type.width) : Int :=
  if type.isSigned then word.toInt else word.toNat

/-- Every machine integer is a value of its type. -/
theorem holds_wordValue (type : IntegralType) (word : BitVec type.width) :
    type.Holds (type.wordValue word) := by
  unfold Holds wordValue least greatest
  cases type.isSigned with
  | true => exact ⟨BitVec.le_toInt word, Int.le_sub_one_of_lt BitVec.toInt_lt⟩
  | false =>
      have below : (word.toNat : Int) < (2 ^ type.width : Nat) := Int.ofNat_lt.mpr word.isLt
      rw [Int.natCast_pow] at below
      exact ⟨Int.natCast_nonneg _, Int.le_sub_one_of_lt below⟩

end IntegralType

/-! ### Values -/

/-- An integer is no value of a type. -/
structure OutOfRange where
  type : IntegralType
  value : Int
deriving DecidableEq, Repr

/-- The wording of the refusal. -/
def OutOfRange.message (fault : OutOfRange) : String :=
  "value " ++ Text.integer fault.value ++ " does not fit in " ++ fault.type.keyword

/-- An integer together with the integral type it is a value of. -/
structure Integral where
  type : IntegralType
  value : Int
  in_range : type.Holds value
deriving DecidableEq, Repr

namespace Integral

/-- The value of a type that is a given integer. -/
def ofInt (type : IntegralType) (n : Int) : Except OutOfRange Integral :=
  if holds : type.Holds n then .ok ⟨type, n, holds⟩ else .error ⟨type, n⟩

/-- The same integer as a value of another type. -/
def convert (n : Integral) (type : IntegralType) : Except OutOfRange Integral :=
  ofInt type n.value

/-- The value of a type that is a machine integer of its width and sign; every one fits. -/
def ofWord (type : IntegralType) (word : BitVec type.width) : Integral :=
  ⟨type, type.wordValue word, type.holds_wordValue word⟩

theorem ofInt_of_holds {type : IntegralType} {n : Int} (holds : type.Holds n) :
    ofInt type n = .ok ⟨type, n, holds⟩ := by
  simp [ofInt, holds]

theorem ofInt_of_not_holds {type : IntegralType} {n : Int} (beyond : ¬type.Holds n) :
    ofInt type n = .error ⟨type, n⟩ := by
  simp [ofInt, beyond]

/-! ### Descriptions -/

/-- A value with what is said about its type. -/
structure Description where
  type : Option IntegralType
  width : Option Nat
  signed : Option Bool
  value : Int
deriving DecidableEq, Repr

/-- What is wrong with a description. -/
inductive DescriptionFault where
  /-- Only one of width and sign is given. -/
  | halfPair
  /-- No type has this width. -/
  | noType (width : Nat)
  /-- The named type is not the one that width and sign name. -/
  | contradiction (type : IntegralType) (width : Nat)
  /-- Nothing is said about the type. -/
  | missingType
  | outOfRange (fault : OutOfRange)
deriving DecidableEq, Repr

namespace DescriptionFault

/-- The wording of a fault. -/
def message : DescriptionFault → String
  | halfPair => unsupported "width and signed must be given together"
  | noType width => unsupported ("no " ++ Text.natural width ++ "-bit integer kind")
  | contradiction type width =>
    unsupported ("kind " ++ type.keyword ++ " contradicts width " ++ Text.natural width)
  | missingType => unsupported "missing integer kind"
  | outOfRange fault => fault.message
where
  unsupported (reason : String) : String :=
    "unsupported integer constant: " ++ reason

end DescriptionFault

namespace Description

/-- The type that width and sign name, if both are given. -/
def pairType (d : Description) : Except DescriptionFault (Option IntegralType) :=
  match d.width, d.signed with
  | some width, some signed =>
    match IntegralType.ofWidth? width signed with
    | some type => .ok (some type)
    | none => .error (.noType width)
  | none, none => .ok none
  | _, _ => .error .halfPair

/-- The type that a description names. -/
def resolveType (d : Description) : Except DescriptionFault IntegralType := do
  match d.type, ← d.pairType with
  | some named, some paired =>
    if named = paired then .ok named else .error (.contradiction named paired.width)
  | some named, none => .ok named
  | none, some paired => .ok paired
  | none, none => .error .missingType

/-- The value that a description gives. -/
def resolve (d : Description) : Except DescriptionFault Integral := do
  (ofInt (← d.resolveType) d.value).mapError .outOfRange

/-- The description that names the type. -/
def ofIntegral (n : Integral) : Description :=
  ⟨some n.type, none, none, n.value⟩

theorem resolve_ofIntegral (n : Integral) : (ofIntegral n).resolve = .ok n := by
  show (ofInt n.type n.value).mapError _ = _
  rw [ofInt_of_holds n.in_range]
  rfl

end Description

end Integral

end SignatureText
