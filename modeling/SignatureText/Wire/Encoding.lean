/-
**Encoding the model.**

The tree of every part of the model. Records are objects with all of their fields in order, null
where an optional one is absent; integral values name their type by its sign and width; variants
without content are strings. Numbers have the fewest digits that read back and, where written out,
at least one digit behind the point; for which sizes they are written out depends on their width.
JSON has no infinity, so null stands for it.
-/

import SignatureText.Json
import SignatureText.Model.Parameter
import SignatureText.Number.Shortest

namespace SignatureText

/-! ### Names -/

/-- The name of an integral type. -/
def IntegralType.wireName : IntegralType → String
  | sbyte => "i8"
  | byte => "u8"
  | short => "i16"
  | ushort => "u16"
  | int => "i32"
  | uint => "u32"
  | long => "i64"
  | ulong => "u64"

/-- The name of a mode. -/
def Passing.wireName : Passing → String
  | value => "by_value"
  | reference => "by_reference"
  | output => "by_output"
  | readOnly => "by_read_only_reference"

namespace Json

/-! ### Numbers -/

/-- 64-bit numbers from `0.00001` up to below `10 ^ 16` are written out. -/
def doubleLayout : RealLayout where
  tie := .even
  isPlain e := -5 ≤ e && e ≤ 15
  pointZero := true

/-- 32-bit numbers from `0.000001` up to below `10 ^ 13` are written out. -/
def singleLayout : RealLayout where
  tie := .even
  isPlain e := -6 ≤ e && e ≤ 12
  pointZero := true

/-- The tree of a floating-point number. -/
def ofBinary {f : Format} (layout : RealLayout) (x : Binary f) : Json :=
  if x.isFinite then .number (layout.numeral x) else .null

/-! ### Parts of the model -/

/-- The tree of an optional value. -/
def ofOption {α : Type} (encode : α → Json) : Option α → Json
  | none => .null
  | some value => encode value

/-- The tree of an integral value. -/
def ofIntegral (n : Integral) : Json :=
  record [("kind", ofString n.type.wireName), ("value", .number (.ofInt n.value))]

/-- The tree of a member of an enum type. -/
def ofEnumMember (member : EnumMember) : Json :=
  record [("name", ofString member.name), ("value", ofIntegral member.value)]

/-- The tree of an enum type. -/
def ofEnumType (type : EnumType) : Json :=
  record
    [("name", ofString type.name), ("underlying", ofString type.underlying.wireName),
      ("members", list (type.members.map ofEnumMember))]

/-- The tree of what is known of a type. -/
def ofTypeShape : TypeShape → Json
  | .reference => ofString "reference"
  | .value => ofString "value"
  | .enum type => record [("enum", ofEnumType type)]

/-- The tree of a reference to a type. -/
def ofTypeRef (type : TypeRef) : Json :=
  record [("name", ofString type.name), ("kind", ofTypeShape type.shape)]

mutual

/-- The tree of a constant. -/
def ofConstant : Constant → Json
  | .null => ofString "null"
  | .bool b => record [("bool", .bool b)]
  | .char c => record [("char", ofString (String.singleton c))]
  | .string s => record [("string", ofString s)]
  | .integer n => record [("integer", ofIntegral n)]
  | .single x => record [("float32", ofBinary singleLayout x)]
  | .double x => record [("float64", ofBinary doubleLayout x)]
  | .decimal d => record [("decimal", ofString d.text)]
  | .enumMember type n =>
    record [("enum_member", record [("enum_type", ofEnumType type), ("value", ofIntegral n)])]
  | .typeOf type => record [("type_literal", ofTypeRef type)]
  | .array elementType elements =>
    record
      [("array", record
        [("element_type", ofTypeRef elementType), ("elements", list (ofConstants elements))])]

/-- The trees of a list of constants. -/
def ofConstants : List Constant → List Json
  | [] => []
  | c :: cs => ofConstant c :: ofConstants cs

end

/-- The tree of a named argument: its name and its value. -/
def ofNamed (argument : String × Constant) : Json :=
  list [ofString argument.1, ofConstant argument.2]

/-- The tree of an attribute. -/
def ofAttribute (attr : Attribute) : Json :=
  record
    [("attribute_type", ofOption ofTypeRef attr.type),
      ("positional", list (attr.positional.map ofConstant)),
      ("named", list (attr.named.map ofNamed))]

/-- The tree of a mode. -/
def ofPassing (passing : Passing) : Json :=
  ofString passing.wireName

/-- The tree of a parameter. -/
def ofParameter (parameter : Parameter) : Json :=
  record
    [("name", ofString parameter.name), ("type", ofTypeRef parameter.type),
      ("is_nullable", .bool parameter.isNullable), ("pass_mode", ofPassing parameter.passing),
      ("is_variadic", .bool parameter.isVariadic),
      ("attributes", list (parameter.attributes.map ofAttribute)),
      ("default_value", ofOption ofConstant parameter.defaultArgument)]

/-- The tree of a callable. -/
def ofCallable (callable : Callable) : Json :=
  record
    [("method_name", ofOption ofString callable.requestedName),
      ("parameters", list (callable.parameters.map ofParameter))]

end Json

end SignatureText
