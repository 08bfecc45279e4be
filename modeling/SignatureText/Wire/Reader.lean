/-
**Readers of JSON trees.**

A reader turns a tree into a value or says what is wrong with it first, in the order of the text. It
is given the number of levels that may still open: every array and object that it reads into takes
one, and with none left a further one is malformed. Values that are passed over take no level.

* Faults that a reader of the text can act on carry their cause; everything else, from a missing
  bracket to a number where a string is due, is malformed and has no wording.
* A record is written as an object of its fields, in any order, or as an array of their values in
  the record's own order. In an object a field must not be repeated, members that are no fields are
  passed over, and after the last member every field that is missing must have a value of its own
  for that. In an array only the last fields may be missing, those with such a value for arrays.
* One of several variants is written by its name. A variant without content is the name as a string,
  or an object with that name and null; a variant with content is an object with the name and the
  content. The object has no other member. An unknown name is reported before anything behind it is
  looked at.

The readers of floating-point numbers are given the rule of rounding, one for both widths.
-/

import SignatureText.Json
import SignatureText.Model.Integral
import SignatureText.Number.Decimal
import SignatureText.Number.Rounding

namespace SignatureText

attribute [local instance] corePow

/-! ### Faults -/

/-- Why a text does not decode. -/
inductive DecodeFault where
  | missingField (name : String)
  | duplicateField (name : String)
  | unknownVariant (name : String) (expected : List String)
  | integral (fault : Integral.DescriptionFault)
  | malformed
deriving DecidableEq, Repr

namespace DecodeFault

/-- A name between grave accents. -/
def quotedName (name : String) : String :=
  "\x60" ++ name ++ "\x60"

/-- The wording of a fault that has one. -/
def message? : DecodeFault → Option String
  | missingField name => some ("missing field " ++ quotedName name)
  | duplicateField name => some ("duplicate field " ++ quotedName name)
  | unknownVariant name expected =>
    some ("unknown variant " ++ quotedName name ++ ", expected one of " ++
      ", ".intercalate (expected.map quotedName))
  | integral fault => some fault.message
  | malformed => none

end DecodeFault

/-! ### Readers -/

/-- Reads a value from a tree, given the number of levels that may open. -/
abbrev Reader (α : Type) := Nat → Json → Except DecodeFault α

namespace Reader

variable {α β : Type}

/-- The value, made into another one. -/
def map (make : α → β) (read : Reader α) : Reader β :=
  fun levels j => (read levels j).map make

/-- A value that one tree without levels of its own holds. -/
def leaf (value? : Json → Option α) : Reader α :=
  fun _ j => match value? j with
    | some value => .ok value
    | none => .error .malformed

/-! ### Leaves -/

/-- A truth value. -/
def bool : Reader Bool :=
  leaf fun
    | .bool b => some b
    | _ => none

/-- A string. -/
def string : Reader String :=
  leaf fun
    | .string s => s
    | _ => none

/-- A string of one character. -/
def char : Reader Char :=
  leaf fun
    | .string (some s) =>
      match s.toList with
      | [c] => some c
      | _ => none
    | _ => none

/-- An integer of 128 bits. -/
def integer : Reader Int :=
  leaf fun
    | .number n => n.integer?.filter fun i => -2 ^ (127 : Nat) ≤ i && i < 2 ^ (127 : Nat)
    | _ => none

/-- A number from 0 to 255, written without a sign. -/
def byte : Reader Nat :=
  leaf fun
    | .number n => if n.negative then none else (n.integer?.map Int.toNat).filter (· ≤ 255)
    | _ => none

/-- A number as a 64-bit number. -/
def double (rounding : Rounding) : Reader (Binary .double) :=
  leaf fun
    | .number n => rounding.double? n
    | _ => none

/-- A number as a 32-bit number. -/
def single (rounding : Rounding) : Reader (Binary .single) :=
  leaf fun
    | .number n => rounding.single? n
    | _ => none

/-- A decimal, written as a string. -/
def decimal : Reader Decimal :=
  leaf fun
    | .string s => s.bind Decimal.read
    | _ => none

/-! ### Options, lists and pairs -/

/-- A value or null. -/
def optional (read : Reader α) : Reader (Option α)
  | _, .null => .ok none
  | levels, j => (read levels j).map some

/-- An array of values. -/
def list (read : Reader α) : Reader (List α)
  | levels + 1, .array items closed => do
    let values ← items.mapM (read levels)
    if closed then return values else .error .malformed
  | _, _ => .error .malformed

/-- An array of exactly two values. -/
def pair (first : Reader α) (second : Reader β) : Reader (α × β)
  | levels + 1, .array (a :: rest) closed => do
    let x ← first levels a
    match rest with
    | [] => .error .malformed
    | b :: rest =>
      let y ← second levels b
      if rest.isEmpty && closed then return (x, y) else .error .malformed
  | _, _ => .error .malformed

/-! ### Whole texts -/

/-- The most arrays and objects that may stand within each other. -/
def mostLevels : Nat := 127

/-- Reads a text that holds one value and nothing behind it but white space. -/
def decode (read : Reader α) (text : String) : Except DecodeFault α := do
  let (tree, rest) := Json.scan text
  let value ← read mostLevels tree
  if rest.any fun rest => (Json.skipSpace rest).isEmpty then return value else .error .malformed

end Reader

/-! ### Records -/

/-! #### Fields -/

/-- A field of a record. -/
structure RecordField (β : Type) where
  name : String
  read : Reader β
  /-- The value when an object has no such member. -/
  inObject : Option β
  /-- The value when an array ends before the field. -/
  inArray : Option β

namespace RecordField

variable {β : Type}

/-- A field that must be there. -/
def required (name : String) (read : Reader β) : RecordField β :=
  ⟨name, read, none, none⟩

/-- A field with a value for its absence. -/
def withDefault (name : String) (read : Reader β) (value : β) : RecordField β :=
  ⟨name, read, some value, some value⟩

/-- A field that may be null, and that objects but not arrays may leave out. -/
def nullable (name : String) (read : Reader β) : RecordField (Option β) :=
  ⟨name, read.optional, some none, none⟩

end RecordField

/-- The fields of a record in its own order. -/
inductive Fields : List Type → Type 1 where
  | nil : Fields []
  | cons {β : Type} {βs : List Type} (field : RecordField β) (rest : Fields βs) : Fields (β :: βs)

/-- The values of all fields. -/
abbrev Row : List Type → Type
  | [] => Unit
  | β :: βs => β × Row βs

/-- The values of the fields that were read so far. -/
abbrev Draft : List Type → Type
  | [] => Unit
  | β :: βs => Option β × Draft βs

/-- Nothing was read. -/
def Draft.empty : (βs : List Type) → Draft βs
  | [] => ()
  | _ :: βs => (none, Draft.empty βs)

namespace Fields

variable {βs : List Type}

/-! #### Objects -/

/-- Puts a member into the draft; gives nothing if no field has the key. -/
def member (levels : Nat) (key : String) (j : Json) :
    {βs : List Type} → Fields βs → Draft βs → Except DecodeFault (Option (Draft βs))
  | _, .nil, () => .ok none
  | _, .cons field rest, (value, values) =>
    if field.name = key then
      match value with
      | some _ => .error (.duplicateField key)
      | none => return some (some (← field.read levels j), values)
    else return (← rest.member levels key j values).map fun values => (value, values)

/-- Puts the members of an object into the draft, one after the other. -/
def members (levels : Nat) (fields : Fields βs) :
    List (Option String × Json) → Draft βs → Except DecodeFault (Draft βs)
  | [], draft => .ok draft
  | (none, _) :: _, _ => .error .malformed
  | (some key, j) :: rest, draft => do
    match ← fields.member levels key j draft with
    | some draft => fields.members levels rest draft
    | none => if j.isWhole then fields.members levels rest draft else .error .malformed

/-- The row of a draft, with a value for every field that was not read. -/
def complete : {βs : List Type} → Fields βs → Draft βs → Except DecodeFault (Row βs)
  | _, .nil, () => .ok ()
  | _, .cons field rest, (value, values) =>
    match value.or field.inObject with
    | some value => return (value, ← rest.complete values)
    | none => .error (.missingField field.name)

/-! #### Arrays -/

/-- The row that the items of an array are. -/
def items (levels : Nat) : {βs : List Type} → Fields βs → List Json → Except DecodeFault (Row βs)
  | _, .nil, [] => .ok ()
  | _, .nil, _ :: _ => .error .malformed
  | _, .cons field rest, j :: js => do
    let value ← field.read levels j
    return (value, ← rest.items levels js)
  | _, .cons field rest, [] =>
    match field.inArray with
    | some value => return (value, ← rest.items levels [])
    | none => .error .malformed

end Fields

/-! #### Readers of records -/

/-- Reads a record. -/
def Reader.record {βs : List Type} {α : Type} (fields : Fields βs) (make : Row βs → α) : Reader α
  | levels + 1, .object members closed => do
    let draft ← fields.members levels members (Draft.empty βs)
    if closed then return make (← fields.complete draft) else .error .malformed
  | levels + 1, .array items closed => do
    let row ← fields.items levels items
    if closed then return make row else .error .malformed
  | _, _ => .error .malformed

/-! ### Choices -/

/-- What stands behind the name of a variant. -/
inductive Variant (α : Type) where
  | unit (value : α)
  | content (read : Reader α)

/-- The variant with a given name. -/
def Variant.find {α : Type} (variants : List (String × Variant α)) (name : String) :
    Except DecodeFault (Variant α) :=
  match variants.lookup name with
  | some variant => .ok variant
  | none => .error (.unknownVariant name (variants.map Prod.fst))

/-- Reads the content of a variant. -/
def Variant.read {α : Type} : Variant α → Reader α
  | unit value, _, .null => .ok value
  | unit _, _, _ => .error .malformed
  | content read, levels, j => read levels j

/-- Reads one of several variants. -/
def Reader.choice {α : Type} (variants : List (String × Variant α)) : Reader α
  | _, .string (some name) => do
    match ← Variant.find variants name with
    | .unit value => return value
    | .content _ => .error .malformed
  | levels + 1, .object ((some name, j) :: rest) closed => do
    let variant ← Variant.find variants name
    let value ← variant.read levels j
    if rest.isEmpty && closed then return value else .error .malformed
  | _, _ => .error .malformed

end SignatureText
