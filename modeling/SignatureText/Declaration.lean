/-
**Declarations of parameters and the arguments that forward them.**

A declaration is made of attributes, a modifier, the type's text, perhaps the mark of nullability,
the name of the binding and perhaps a default argument; the argument that forwards it repeats
modifier and name.

* A declared name becomes the name of a local binding: its first character, if it is a letter, goes
  to lower case and the rest stays. A binding name that is a reserved word is marked with `@`, if
  the style asks for it. Words that are reserved in some places only, such as `value` or `record`,
  are names.
* A style says what becomes of a constant without a literal. A strict style refuses such a constant;
  the other writes its loose text instead. Other refusals are not touched.
* An attribute is written in brackets, with its positional arguments before its named ones. In front
  of a parameter each attribute is followed by a blank, and those whose class could not be found are
  left out with all their arguments. Any other refusal refuses the whole list.
* Null by default is `null` where the type admits it and `default` elsewhere. The default argument
  of an enum parameter is read as a value of that enum, whatever type it has of its own.
-/

import SignatureText.Literal
import SignatureText.Text.Character

namespace SignatureText

/-! ### Names of bindings -/

namespace Declaration

/-- The reserved words in alphabetical order. -/
def keywords : List String :=
  [
    "abstract", "as", "base", "bool", "break", "byte", "case", "catch", "char", "checked", "class",
    "const", "continue", "decimal", "default", "delegate", "do", "double", "else", "enum", "event",
    "explicit", "extern", "false", "finally", "fixed", "float", "for", "foreach", "goto", "if",
    "implicit", "in", "int", "interface", "internal", "is", "lock", "long", "namespace", "new",
    "null", "object", "operator", "out", "override", "params", "private", "protected", "public",
    "readonly", "ref", "return", "sbyte", "sealed", "short", "sizeof", "stackalloc", "static",
    "string", "struct", "switch", "this", "throw", "true", "try", "typeof", "uint", "ulong",
    "unchecked", "unsafe", "ushort", "using", "virtual", "void", "volatile", "while" ]

/-- The text is a reserved word. -/
def isKeyword (word : String) : Bool :=
  keywords.contains word

/-- A name with its first letter in lower case, character by character. -/
def normalizeChars : List Char → List Char
  | [] => []
  | c :: cs => if Text.isLetter c then Text.lowerCase c ++ cs else c :: cs

/-- A name with its first letter in lower case. -/
def normalize (name : String) : String :=
  String.ofList (normalizeChars name.toList)

/-- The name of the binding for a declared name. -/
def bindingName (escape : Bool) (name : String) : String :=
  let normalized := normalize name
  if escape && isKeyword normalized then "@" ++ normalized else normalized

end Declaration

/-! ### Styles -/

/-- What becomes of a constant without a literal. -/
inductive Leniency where
  /-- It is refused. -/
  | strict
  /-- Its loose text is written. -/
  | bestEffort
deriving DecidableEq, Repr

/-- How source text is written. -/
structure Style where
  leniency : Leniency := .strict
  escapesKeywords : Bool := true
deriving DecidableEq, Repr

namespace Style

/-- The outcome for a constant, with a missing literal replaced as the style says. -/
def settle (style : Style) (c : Constant) : Except Refusal String → Except Refusal String
  | .error (.unsupported cause) =>
    match style.leniency with
    | .strict => .error (.unsupported cause)
    | .bestEffort => .ok (Literal.loose c)
  | outcome => outcome

/-- The text of a constant. -/
def constant (style : Style) (c : Constant) : Except Refusal String :=
  style.settle c (Literal.constant c)

/-- The name of the binding for a declared name. -/
def bindingName (style : Style) (name : String) : String :=
  Declaration.bindingName style.escapesKeywords name

/-! ### Attributes -/

/-- A named argument of an attribute. -/
def namedArgument (style : Style) (argument : String × Constant) : Except Refusal String :=
  return argument.1 ++ " = " ++ (← style.constant argument.2)

/-- The arguments of an attribute in written order. -/
def attributeArguments (style : Style) (attr : Attribute) : Except Refusal (List String) :=
  return (← attr.positional.mapM style.constant) ++ (← attr.named.mapM style.namedArgument)

/-- An attribute in brackets. -/
def attributeText (style : Style) (attr : Attribute) : Except Refusal String :=
  match attr.type with
  | none => .error .unresolvedAttribute
  | some type =>
    if attr.hasArguments then
      return "[" ++ type.name ++ "(" ++ ", ".intercalate (← style.attributeArguments attr) ++ ")]"
    else .ok ("[" ++ type.name ++ "]")

/-- The attributes in front of a parameter. -/
def attributes (style : Style) : List Attribute → Except Refusal String
  | [] => .ok ""
  | attr :: rest =>
    match style.attributeText attr with
    | .ok text => return text ++ " " ++ (← style.attributes rest)
    | .error .unresolvedAttribute => style.attributes rest
    | .error refusal => .error refusal

end Style

/-! ### Parameters -/

namespace Parameter

/--
The modifier of a declaration; a parameter by value that takes all further arguments has its own.
-/
def modifier (parameter : Parameter) : String :=
  if parameter.passing = .value && parameter.isVariadic then "params "
  else parameter.passing.modifier

/-- The type as it stands in a declaration. A mark that is there already is not repeated. -/
def typeText (parameter : Parameter) : String :=
  if parameter.isNullable && !parameter.type.isMarked then
    parameter.type.name.push nullableMark
  else parameter.type.name

end Parameter

namespace Style

/-- The text of a default argument that the parameter's mode allows. -/
def defaultText (style : Style) (parameter : Parameter) (value : Constant) :
    Except Refusal String :=
  match value, parameter.type.enum? with
  | .null, _ => .ok (if parameter.acceptsNull then "null" else "default")
  | .integer n, some type => style.settle value (Literal.enumValue type n)
  | .enumMember _ n, some type => style.settle value (Literal.enumValue type n)
  | _, some type => style.settle value (.error (.unsupported (.enumDefault value.shape type.name)))
  | _, none => style.constant value

/-- The default argument behind a declaration, or nothing. -/
def defaultSuffix (style : Style) (parameter : Parameter) : Except Refusal String :=
  match parameter.defaultArgument with
  | none => .ok ""
  | some value =>
    if parameter.passing.allowsDefault then
      return " = " ++ (← style.defaultText parameter value)
    else .error (.defaultNotAllowed parameter.name parameter.passing)

/-- The declaration of a parameter. -/
def parameter (style : Style) (parameter : Parameter) : Except Refusal String := do
  let attributes ← style.attributes parameter.attributes
  let suffix ← style.defaultSuffix parameter
  return attributes ++ parameter.modifier ++ parameter.typeText ++ " " ++
    style.bindingName parameter.name ++ suffix

/-- The argument that forwards a parameter. -/
def argument (style : Style) (parameter : Parameter) : String :=
  parameter.passing.modifier ++ style.bindingName parameter.name

/-- The declarations of a list of parameters. -/
def parameters (style : Style) (parameters : List Parameter) : Except Refusal String :=
  return ", ".intercalate (← parameters.mapM style.parameter)

/-- The arguments that forward a list of parameters. -/
def arguments (style : Style) (parameters : List Parameter) : String :=
  ", ".intercalate (parameters.map style.argument)

end Style

end SignatureText
