/-
**Generated signatures.**

A generator turns a callable into the name, the parameter list and the argument list of a method
that forwards to it.

* The name of the method is the one that was asked for, without the white space around it. A name
  that was not given or is all white space is replaced by the default, which is taken as it is.
* A parameter that takes all further arguments is passed by value and stands last. The check goes
  through the list in order and stops at the first parameter that breaks a rule; the mode counts
  before the place. Such a fault rejects the callable before anything is written.
* A parameter that is refused either rejects the callable or is left out of both lists and named in
  the result; all others keep their order.

`Generator.signatureOfText` starts from a text: the callable is decoded and its signature is
generated, and either step may fail.
-/

import SignatureText.Declaration
import SignatureText.Wire.Decoding

namespace SignatureText

/-! ### Method names -/

/-- The name that a method has when no other is configured. -/
def usualMethodName : String := "Of"

/-- The name of a method. -/
def methodName (requested : Option String) (fallback : String) : String :=
  match requested.map Text.trim with
  | none => fallback
  | some name => if name = "" then fallback else name

/-! ### Variadic parameters -/

/-- The rule that a variadic parameter breaks. -/
inductive VariadicFault where
  | notByValue
  | notLast
deriving DecidableEq, Repr

/-- The wording of a fault. -/
def VariadicFault.message : VariadicFault → String
  | notByValue => "must be passed by value"
  | notLast => "must be the last parameter"

/-- The rule that a parameter breaks, if any. -/
def Parameter.variadicFault? (parameter : Parameter) (isLast : Bool) : Option VariadicFault :=
  if !parameter.isVariadic then none
  else if parameter.passing ≠ .value then some .notByValue
  else if !isLast then some .notLast
  else none

/-- The first parameter of a list that breaks a rule, by name, and the rule. -/
def variadicFault? : List Parameter → Option (String × VariadicFault)
  | [] => none
  | parameter :: rest =>
    match parameter.variadicFault? rest.isEmpty with
    | some fault => some (parameter.name, fault)
    | none => variadicFault? rest

/-! ### Generators -/

/-- What becomes of a parameter that is refused. -/
inductive RefusalPolicy where
  /-- The callable is rejected. -/
  | abort
  /-- The parameter is left out. -/
  | skip
deriving DecidableEq, Repr

/-- How signatures are generated. -/
structure Generator where
  style : Style := {}
  defaultMethodName : String := usualMethodName
  policy : RefusalPolicy := .abort
deriving DecidableEq, Repr

/-- The texts of a generated method. -/
structure Signature where
  methodName : String
  parameters : String
  arguments : String
  /-- The declared names of the parameters that were left out. -/
  skipped : List String
deriving DecidableEq, Repr

/-- Why a callable has no signature. -/
inductive Rejection where
  | variadic (name : String) (fault : VariadicFault)
  | parameter (name : String) (refusal : Refusal)
deriving DecidableEq, Repr

/-- The wording of a rejection. -/
def Rejection.message : Rejection → String
  | variadic name fault => "params parameter '" ++ name ++ "' " ++ fault.message
  | parameter name refusal => "parameter '" ++ name ++ "': " ++ refusal.message

namespace Generator

/-! ### Parameters one by one -/

/-- The texts made of a list of parameters, one by one. -/
structure Parts where
  declarations : List String
  arguments : List String
  skipped : List String
deriving DecidableEq, Repr

/-- The texts made of a list of parameters, or the first refusal if it may not be passed over. -/
def parts (generator : Generator) : List Parameter → Except Rejection Parts
  | [] => .ok ⟨[], [], []⟩
  | parameter :: rest =>
    match generator.style.parameter parameter with
    | .ok declaration => do
      let parts ← generator.parts rest
      return { parts with
        declarations := declaration :: parts.declarations
        arguments := generator.style.argument parameter :: parts.arguments }
    | .error refusal =>
      match generator.policy with
      | .abort => .error (.parameter parameter.name refusal)
      | .skip => do
        let parts ← generator.parts rest
        return { parts with skipped := parameter.name :: parts.skipped }

/-! ### Signatures -/

/-- The signature of a callable. -/
def signature (generator : Generator) (callable : Callable) : Except Rejection Signature :=
  match variadicFault? callable.parameters with
  | some (name, fault) => .error (.variadic name fault)
  | none => do
    let parts ← generator.parts callable.parameters
    return {
      methodName := methodName callable.requestedName generator.defaultMethodName
      parameters := ", ".intercalate parts.declarations
      arguments := ", ".intercalate parts.arguments
      skipped := parts.skipped }

end Generator

/-! ### Signatures of texts -/

/-- Why a text gives no signature. -/
inductive Failure where
  | decoding (fault : DecodeFault)
  | rejected (rejection : Rejection)
deriving DecidableEq, Repr

/-- The signature of the callable that a text holds, whose numbers are read by a given rule. -/
def Generator.signatureOfText (generator : Generator) (rounding : Rounding) (text : String) :
    Except Failure Signature := do
  let callable ← ((Reader.callable rounding).decode text).mapError .decoding
  (generator.signature callable).mapError .rejected

end SignatureText
