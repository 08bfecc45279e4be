/-
**Types and constants.**

An enum type lists its members in declaration order. Members added one by one are values of the
underlying type; members that were read as they stand may be of any type. Looked up by its integer,
a member is the first one that has it. A type is referred to by its text and by what is known of it:
a reference type, a value type, or an enum type with its members. The text may end in the mark of
nullability, `?`.

The constants are those that attribute arguments and default arguments are made of. Arrays hold
further constants, to any depth. `Constant.same` is equality of what is meant: numbers are compared
as numbers, so the two zeros of a floating-point format are equal and decimals are equal whatever
their scale, and everything else is compared part by part.
-/

import SignatureText.Model.Integral
import SignatureText.Number.Binary
import SignatureText.Number.Decimal

namespace SignatureText

/-! ### Enum types -/

/-- A named value of an enum type. -/
structure EnumMember where
  name : String
  value : Integral
deriving DecidableEq, Repr

/-- An enum type with its members in declaration order. -/
structure EnumType where
  name : String
  underlying : IntegralType
  members : List EnumMember
deriving DecidableEq, Repr

namespace EnumType

/-- The enum type without members. -/
def empty (name : String) (underlying : IntegralType) : EnumType :=
  ⟨name, underlying, []⟩

/-- One more member at the end; its integer must be a value of the underlying type. -/
def addMember (type : EnumType) (name : String) (n : Int) : Except OutOfRange EnumType := do
  let value ← Integral.ofInt type.underlying n
  return { type with members := type.members ++ [⟨name, value⟩] }

/-- The first member with a given integer. -/
def member? (type : EnumType) (n : Int) : Option EnumMember :=
  type.members.find? (·.value.value = n)

end EnumType

/-! ### References to types -/

/-- What is known of a type. -/
inductive TypeShape where
  | reference
  | value
  | enum (type : EnumType)
deriving DecidableEq, Repr

/-- The text of a type and what is known of it. -/
structure TypeRef where
  name : String
  shape : TypeShape
deriving DecidableEq, Repr

/-- The mark of nullability at the end of a type's text. -/
def nullableMark : Char := '?'

namespace TypeRef

/-- A class, interface, delegate, array or string. -/
def reference (name : String) : TypeRef := ⟨name, .reference⟩

/-- A structure or primitive type. -/
def value (name : String) : TypeRef := ⟨name, .value⟩

/-- An enum type, under its own name. -/
def enum (type : EnumType) : TypeRef := ⟨type.name, .enum type⟩

/-- The type is a value type; enum types are. -/
def isValueType (type : TypeRef) : Bool :=
  match type.shape with
  | .reference => false
  | .value | .enum _ => true

/-- The enum type referred to. -/
def enum? (type : TypeRef) : Option EnumType :=
  match type.shape with
  | .enum enumType => some enumType
  | .reference | .value => none

/-- The text ends in the mark of nullability. -/
def isMarked (type : TypeRef) : Bool :=
  type.name.toList.getLast? = some nullableMark

/-- The text without one mark of nullability at its end. -/
def unmarkedName (type : TypeRef) : String :=
  if type.isMarked then String.ofList type.name.toList.dropLast else type.name

end TypeRef

/-! ### Constants -/

/-- A constant. -/
inductive Constant where
  | null
  | bool (value : Bool)
  | char (value : Char)
  | string (value : String)
  | integer (value : Integral)
  | single (value : Binary .single)
  | double (value : Binary .double)
  | decimal (value : Decimal)
  | enumMember (type : EnumType) (value : Integral)
  | typeOf (type : TypeRef)
  | array (elementType : TypeRef) (elements : List Constant)

namespace Constant

/-! ### Shapes -/

/-- The outermost form of a constant. -/
inductive Shape where
  | null
  | bool
  | char
  | string
  | integer
  | single
  | double
  | decimal
  | enumMember
  | typeOf
  | array
deriving DecidableEq, Repr

/-- The short name of a shape. -/
def Shape.name : Shape → String
  | null => "null"
  | bool => "bool"
  | char => "char"
  | string => "string"
  | integer => "integer"
  | single => "float"
  | double => "double"
  | decimal => "decimal"
  | enumMember => "enum"
  | typeOf => "typeof"
  | array => "array"

/-- The shape of a constant. -/
def shape : Constant → Shape
  | null => .null
  | bool _ => .bool
  | char _ => .char
  | string _ => .string
  | integer _ => .integer
  | single _ => .single
  | double _ => .double
  | decimal _ => .decimal
  | enumMember _ _ => .enumMember
  | typeOf _ => .typeOf
  | array _ _ => .array

/-! ### Equality -/

mutual

/-- Two constants mean the same. -/
def same : Constant → Constant → Bool
  | null, null => true
  | bool a, bool b => a = b
  | char a, char b => a = b
  | string a, string b => a = b
  | integer a, integer b => a = b
  | single a, single b => a.same b
  | double a, double b => a.same b
  | decimal a, decimal b => a.same b
  | enumMember s a, enumMember t b => s = t && a = b
  | typeOf s, typeOf t => s = t
  | array s as, array t bs => s = t && sameAll as bs
  | _, _ => false

/-- Two lists of constants mean the same, element by element. -/
def sameAll : List Constant → List Constant → Bool
  | [], [] => true
  | a :: as, b :: bs => same a b && sameAll as bs
  | _, _ => false

end

end Constant

end SignatureText
