/-
**Decoding the model.**

The reader of every part of the model, with the fields of each record in their order and the value
that stands for a missing one. Constants nest: an array constant opens three levels before its
elements begin, so the reader of constants goes down by the number of levels that are left. Whatever
may hold floating-point numbers is read by the rule of rounding that its reader is given.
-/

import SignatureText.Wire.Encoding
import SignatureText.Wire.Reader

namespace SignatureText.Reader

open RecordField (required withDefault nullable)

/-! ### Words -/

/-- One of several words. -/
def word {α : Type} (words : List α) (name : α → String) : Reader α :=
  choice (words.map fun w => (name w, .unit w))

/-- An integral type. -/
def integralType : Reader IntegralType :=
  word IntegralType.all IntegralType.wireName

/-- A mode. -/
def passing : Reader Passing :=
  word Passing.all Passing.wireName

/-! ### Integers and enum types -/

/-- The description of an integral value. -/
def description : Reader Integral.Description :=
  record
    (.cons (nullable "kind" integralType) <|
      .cons (nullable "width" byte) <|
      .cons (nullable "signed" bool) <|
      .cons (required "value" integer) .nil)
    fun (type, width, signed, value, ()) => ⟨type, width, signed, value⟩

/-- An integral value, by its description. -/
def integral : Reader Integral :=
  fun levels j => do (← description levels j).resolve.mapError .integral

/-- A member of an enum type. -/
def enumMember : Reader EnumMember :=
  record (.cons (required "name" string) <| .cons (required "value" integral) .nil)
    fun (name, value, ()) => ⟨name, value⟩

/-- An enum type. -/
def enumType : Reader EnumType :=
  record
    (.cons (required "name" string) <|
      .cons (required "underlying" integralType) <|
      .cons (withDefault "members" (list enumMember) []) .nil)
    fun (name, underlying, members, ()) => ⟨name, underlying, members⟩

/-! ### Types -/

/-- What is known of a type. -/
def typeShape : Reader TypeShape :=
  choice
    [("reference", .unit .reference), ("value", .unit .value),
      ("enum", .content (enumType.map .enum))]

/-- A reference to a type. -/
def typeRef : Reader TypeRef :=
  record
    (.cons (required "name" string) <| .cons (withDefault "kind" typeShape .reference) .nil)
    fun (name, shape, ()) => ⟨name, shape⟩

/-! ### Constants -/

/-- A value of an enum type. -/
def enumConstant : Reader Constant :=
  record (.cons (required "enum_type" enumType) <| .cons (required "value" integral) .nil)
    fun (type, value, ()) => .enumMember type value

/-- An array of constants, given the reader of its elements. -/
def arrayConstant (elements : Reader (List Constant)) : Reader Constant :=
  record (.cons (required "element_type" typeRef) <| .cons (required "elements" elements) .nil)
    fun (elementType, elements, ()) => .array elementType elements

variable (rounding : Rounding)

/-- A constant, given the reader of the elements of an array. -/
def constantWith (elements : Reader (List Constant)) : Reader Constant :=
  choice
    [("null", .unit .null),
      ("bool", .content (bool.map .bool)),
      ("char", .content (char.map .char)),
      ("string", .content (string.map .string)),
      ("integer", .content (integral.map .integer)),
      ("float32", .content ((single rounding).map .single)),
      ("float64", .content ((double rounding).map .double)),
      ("decimal", .content (decimal.map .decimal)),
      ("enum_member", .content enumConstant),
      ("type_literal", .content (typeRef.map .typeOf)),
      ("array", .content (arrayConstant elements))]

/-- A constant. -/
def constant : Reader Constant
  | levels + 3 => constantWith rounding (list fun _ => constant levels) (levels + 3)
  | levels => constantWith rounding (fun _ _ => .error .malformed) levels

/-! ### Attributes, parameters and callables -/

/-- An attribute. -/
def attr : Reader Attribute :=
  record
    (.cons (nullable "attribute_type" typeRef) <|
      .cons (withDefault "positional" (list (constant rounding)) []) <|
      .cons (withDefault "named" (list (pair string (constant rounding))) []) .nil)
    fun (type, positional, named, ()) => ⟨type, positional, named⟩

/-- A parameter. -/
def parameter : Reader Parameter :=
  record
    (.cons (required "name" string) <|
      .cons (required "type" typeRef) <|
      .cons (withDefault "is_nullable" bool false) <|
      .cons (withDefault "pass_mode" passing .value) <|
      .cons (withDefault "is_variadic" bool false) <|
      .cons (withDefault "attributes" (list (attr rounding)) []) <|
      .cons (withDefault "default_value" (constant rounding).optional none) .nil)
    fun (name, type, isNullable, passing, isVariadic, attributes, defaultArgument, ()) =>
      ⟨name, type, isNullable, passing, isVariadic, attributes, defaultArgument⟩

/-- A callable. -/
def callable : Reader Callable :=
  record
    (.cons (withDefault "method_name" string.optional none) <|
      .cons (withDefault "parameters" (list (parameter rounding)) []) .nil)
    fun (requestedName, parameters, ()) => ⟨requestedName, parameters⟩

end SignatureText.Reader
