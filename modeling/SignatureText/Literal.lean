/-
**Literals of constants.**

The literal of a constant reads back as the constant. Only two constants have none: a character
beyond the Basic Multilingual Plane, and an enum value that the underlying type does not hold. An
array has a literal if all of its elements have one; otherwise the first refusal among them is the
array's. Each refusal is a cause; its wording is one function of the cause.

* A number literal says its type. Wide integers carry a suffix, and `int` carries none; the narrow
  types have no suffix and are cast, with parentheses around a negative number. Floating-point
  numbers have the fewest digits that read back, a power of ten only when they are very large or
  very small, and a suffix; what is no number has a name. Decimals keep their sign and their scale.
* Characters and strings stand between quotes. The quote and the backslash are written with a
  backslash before them; zero, carriage return and line feed as `\0`, `\r` and `\n`; the three other
  characters that end a line by their code point. All other characters stand for themselves, so no
  quoted text holds a character that would end it or its line.
* The loose text stands in for a constant without a literal. Nothing is escaped, cast or marked by a
  suffix, and numbers are written out without a power of ten; the text need not be source text of
  any language.
-/

import SignatureText.Model.Parameter
import SignatureText.Number.Shortest

namespace SignatureText

/-! ### Refusals -/

/-- Why a constant has no literal where it stands. -/
inductive Unsupported where
  /-- A character literal holds one code unit of 16 bits. -/
  | charBeyondPlane (c : Char)
  /-- The integer is no value of the type that underlies the enum. -/
  | enumValue (value : Int) (underlying : IntegralType) (enumName : String)
  /-- An enum parameter takes an integer or an enum value by default, and no other shape. -/
  | enumDefault (shape : Constant.Shape) (enumName : String)
deriving DecidableEq, Repr

namespace Unsupported

/-- The shape of the constant that is refused. -/
def shape : Unsupported → Constant.Shape
  | charBeyondPlane _ => .char
  | enumValue _ _ _ => .enumMember
  | enumDefault shape _ => shape

/-- What is wrong with the constant. -/
def reason : Unsupported → String
  | charBeyondPlane c =>
    "U+" ++ String.ofList (Text.upperHex c.toNat) ++ " is outside the Basic Multilingual Plane"
  | enumValue value underlying enumName =>
    Text.integer value ++ " does not fit the underlying " ++ underlying.keyword ++ " of " ++
      enumName
  | enumDefault _ enumName => "not an integral default for enum " ++ enumName

end Unsupported

/-- Why a piece of source text cannot be made. -/
inductive Refusal where
  | unresolvedAttribute
  | unsupported (cause : Unsupported)
  | defaultNotAllowed (parameter : String) (passing : Passing)
deriving DecidableEq, Repr

/-- The wording of a refusal. -/
def Refusal.message : Refusal → String
  | unresolvedAttribute => "attribute type could not be resolved"
  | unsupported cause => "unsupported " ++ cause.shape.name ++ " constant: " ++ cause.reason
  | defaultNotAllowed parameter passing =>
    "parameter '" ++ parameter ++ "' is passed as " ++ passing.name ++
      " and cannot have a default value"

namespace Literal

/-! ### Integers -/

/-- The suffix of a wide type; all other types have none. -/
def suffix : IntegralType → String
  | .uint => "U"
  | .long => "L"
  | .ulong => "UL"
  | .sbyte | .byte | .short | .ushort | .int => ""

/-- The digits of a value with the suffix of its type, without a cast. -/
def digits (n : Integral) : String :=
  Text.integer n.value ++ suffix n.type

/-- The literal of an integral value. -/
def integer (n : Integral) : String :=
  if n.type.width < 32 then
    if n.value < 0 then "(" ++ n.type.keyword ++ ")(" ++ digits n ++ ")"
    else "(" ++ n.type.keyword ++ ")" ++ digits n
  else digits n

/-! ### Floating-point numbers -/

/-- Numbers from `0.00001` up to below `10 ^ 16` are written out. -/
def realLayout : RealLayout where
  tie := .up
  isPlain e := -5 ≤ e && e ≤ 15
  pointZero := false

/-- A power of ten is marked by a capital letter and has no plus sign. -/
def exponentStyle : ExponentStyle := ⟨"E", false⟩

/-- The literal of a number of a type with the given keyword and suffix. -/
def real {f : Format} (keyword suffix : String) (x : Binary f) : String :=
  if x.isNaN then keyword ++ ".NaN"
  else if x.isInfinite then
    keyword ++ if x.negative then ".NegativeInfinity" else ".PositiveInfinity"
  else (realLayout.numeral x).text exponentStyle ++ suffix

/-- The literal of a 32-bit number. -/
def single (x : Binary .single) : String :=
  real "float" "F" x

/-- The literal of a 64-bit number. -/
def double (x : Binary .double) : String :=
  real "double" "D" x

/-! ### Decimals -/

/-- The literal of a decimal. -/
def decimal (d : Decimal) : String :=
  d.text ++ "M"

/-! ### Quoted literals -/

/-- How a character is written between the given quotes. -/
def escape (quote c : Char) : List Char :=
  if c = '\\' then ['\\', '\\']
  else if c = '\x00' then ['\\', '0']
  else if c = '\r' then ['\\', 'r']
  else if c = '\n' then ['\\', 'n']
  else if c = '\u0085' || c = '\u2028' || c = '\u2029' then '\\' :: 'u' :: Text.upperHex c.toNat
  else if c = quote then ['\\', c]
  else [c]

/-- A text between quotes. -/
def quoted (quote : Char) (cs : List Char) : String :=
  String.ofList (quote :: cs.flatMap (escape quote) ++ [quote])

/-- The literal of a string. -/
def string (s : String) : String :=
  quoted '\x22' s.toList

/-- The literal of a character, which has to be one code unit of 16 bits. -/
def char (c : Char) : Except Refusal String :=
  if c.toNat ≤ 0xFFFF then .ok (quoted '\x27' [c])
  else .error (.unsupported (.charBeyondPlane c))

/-! ### Loose texts -/

/-- All numbers are written out. -/
def looseLayout : RealLayout where
  tie := .up
  isPlain _ := true
  pointZero := false

/-- The loose text of a floating-point number. -/
def looseReal {f : Format} (x : Binary f) : String :=
  if x.isNaN then "NaN"
  else if x.isInfinite then Text.sign x.negative ++ "inf"
  else (looseLayout.numeral x).text exponentStyle

/-- The text of a truth value. -/
def bool (b : Bool) : String :=
  if b then "true" else "false"

mutual

/-- The loose text of a constant. -/
def loose : Constant → String
  | .null => "null"
  | .bool b => bool b
  | .char c => "'" ++ String.singleton c ++ "'"
  | .string s => "\x22" ++ s ++ "\x22"
  | .integer n => Text.integer n.value
  | .single x => looseReal x
  | .double x => looseReal x
  | .decimal d => d.text
  | .enumMember type n => "(" ++ type.name ++ ")(" ++ Text.integer n.value ++ ")"
  | .typeOf type => "typeof(" ++ type.name ++ ")"
  | .array _ elements => "\x7b " ++ ", ".intercalate (looseAll elements) ++ " \x7d"

/-- The loose texts of a list of constants. -/
def looseAll : List Constant → List String
  | [] => []
  | c :: cs => loose c :: looseAll cs

end

/-! ### Constants -/

/--
An enum value: the first member with that integer, or a cast of the integer to the enum type. The
value's own integral type plays no part.
-/
def enumValue (type : EnumType) (n : Integral) : Except Refusal String :=
  match n.convert type.underlying with
  | .error _ => .error (.unsupported (.enumValue n.value type.underlying type.name))
  | .ok value =>
    match type.member? value.value with
    | some member => .ok (type.name ++ "." ++ member.name)
    | none => .ok ("(" ++ type.name ++ ")(" ++ digits value ++ ")")

/-- A type as a value. The mark of nullability is no part of a reference type, and is left out. -/
def typeOf (type : TypeRef) : String :=
  match type.shape with
  | .reference => "typeof(" ++ type.unmarkedName ++ ")"
  | .value | .enum _ => "typeof(" ++ type.name ++ ")"

/-- An array creation from the texts of its elements. -/
def array (elementType : TypeRef) (elements : List String) : String :=
  "new " ++ elementType.name ++ "[] \x7b " ++
    (if elements.isEmpty then "" else ", ".intercalate elements ++ " ") ++ "\x7d"

mutual

/-- The literal of a constant. -/
def constant : Constant → Except Refusal String
  | .null => .ok "null"
  | .bool b => .ok (bool b)
  | .char c => char c
  | .string s => .ok (string s)
  | .integer n => .ok (integer n)
  | .single x => .ok (single x)
  | .double x => .ok (double x)
  | .decimal d => .ok (decimal d)
  | .enumMember type n => enumValue type n
  | .typeOf type => .ok (typeOf type)
  | .array elementType elements => return array elementType (← constants elements)

/-- The literals of a list of constants. -/
def constants : List Constant → Except Refusal (List String)
  | [] => .ok []
  | c :: cs => return (← constant c) :: (← constants cs)

end

end Literal

end SignatureText
