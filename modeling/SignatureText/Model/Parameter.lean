/-
**Parameters, attributes and callables.**

What is known of a callable before any text is made: its parameters with their types, modes,
attributes and default arguments, and the name that was asked for. Each `with…` function sets one
field and leaves the others; arguments and attributes are appended. Two of a kind are the `same` if
all their parts are, constants by what they mean.
-/

import SignatureText.Model.Constant

namespace SignatureText

/-! ### Attributes -/

/-- An attribute of a parameter. -/
structure Attribute where
  /-- The attribute's class; absent when it could not be found. -/
  type : Option TypeRef
  positional : List Constant
  named : List (String × Constant)

namespace Attribute

/-- An attribute without arguments. -/
def ofType (type : TypeRef) : Attribute := ⟨some type, [], []⟩

/-- An attribute whose class could not be found. -/
def unresolved : Attribute := ⟨none, [], []⟩

/-- One more positional argument. -/
def withPositional (attr : Attribute) (value : Constant) : Attribute :=
  { attr with positional := attr.positional ++ [value] }

/-- One more named argument. -/
def withNamed (attr : Attribute) (name : String) (value : Constant) : Attribute :=
  { attr with named := attr.named ++ [(name, value)] }

/-- The attribute has arguments of either kind. -/
def hasArguments (attr : Attribute) : Bool :=
  !attr.positional.isEmpty || !attr.named.isEmpty

/-- Two attributes mean the same. -/
def same (a b : Attribute) : Bool :=
  a.type = b.type && Constant.sameAll a.positional b.positional &&
    a.named.isEqv b.named fun s t => s.1 = t.1 && s.2.same t.2

end Attribute

/-! ### Parameters -/

/-- How an argument is passed. -/
inductive Passing where
  | value
  | reference
  | output
  | readOnly
deriving DecidableEq, Repr

namespace Passing

/-- All modes, the usual one first. -/
def all : List Passing :=
  [value, reference, output, readOnly]

/-- The word for a mode. -/
def name : Passing → String
  | value => "value"
  | reference => "ref"
  | output => "out"
  | readOnly => "in"

/-- The modifier before a parameter's type and before an argument, with the blank after it. -/
def modifier : Passing → String
  | value => ""
  | reference => "ref "
  | output => "out "
  | readOnly => "in "

/-- A parameter passed this way may have a default argument. -/
def allowsDefault : Passing → Bool
  | value | reference => true
  | output | readOnly => false

end Passing

/-- A parameter of a callable. -/
structure Parameter where
  /-- The declared name, before it becomes the name of a local binding. -/
  name : String
  type : TypeRef
  isNullable : Bool
  passing : Passing
  /-- The parameter takes all further arguments. -/
  isVariadic : Bool
  attributes : List Attribute
  defaultArgument : Option Constant

namespace Parameter

/-- A parameter passed by value, with nothing else known of it. -/
def ofType (name : String) (type : TypeRef) : Parameter :=
  ⟨name, type, false, .value, false, [], none⟩

def withNullable (parameter : Parameter) (isNullable : Bool) : Parameter :=
  { parameter with isNullable }

def withPassing (parameter : Parameter) (passing : Passing) : Parameter :=
  { parameter with passing }

def withVariadic (parameter : Parameter) (isVariadic : Bool) : Parameter :=
  { parameter with isVariadic }

/-- One more attribute. -/
def withAttribute (parameter : Parameter) (attr : Attribute) : Parameter :=
  { parameter with attributes := parameter.attributes ++ [attr] }

def withDefault (parameter : Parameter) (value : Constant) : Parameter :=
  { parameter with defaultArgument := some value }

/-- The parameter can be null. -/
def acceptsNull (parameter : Parameter) : Bool :=
  !parameter.type.isValueType || parameter.isNullable || parameter.type.isMarked

/-- Two parameters mean the same. -/
def same (a b : Parameter) : Bool :=
  a.name = b.name && a.type = b.type && a.isNullable = b.isNullable && a.passing = b.passing &&
    a.isVariadic = b.isVariadic && a.attributes.isEqv b.attributes Attribute.same &&
    match a.defaultArgument, b.defaultArgument with
    | none, none => true
    | some c, some d => c.same d
    | _, _ => false

end Parameter

/-! ### Callables -/

/-- A callable whose parameters are to be forwarded. -/
structure Callable where
  /-- The method name that was asked for, as it was written. -/
  requestedName : Option String
  parameters : List Parameter

namespace Callable

/-- The callable without parameters and without a requested name. -/
def empty : Callable := ⟨none, []⟩

/-- Two callables mean the same. -/
def same (a b : Callable) : Bool :=
  a.requestedName = b.requestedName && a.parameters.isEqv b.parameters Parameter.same

end Callable

end SignatureText
