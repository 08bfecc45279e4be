/-
**What a text keeps of a value.**

The tree of every part of the model is read as that part, but for one thing: a decimal zero loses
its sign. `settled` drops it everywhere, and `Json.reads_callable_settled` and the lemmas before it,
one for each type and by recursion on constants, read the tree as what is settled. All that has to
be known of a value is that its floating-point numbers are held (`Constant.Held`): they are numbers,
since JSON has no others, and the rule by which the reader rounds gives each back from its numeral.
What is settled means the same (`Constant.same_settled`), and without signs on zeros nothing changes
at all (`Constant.settled_eq_self`).
-/

import SignatureText.Proofs.Number.Decimal
import SignatureText.Proofs.Wire.Reading
import SignatureText.Proofs.Wire.Real
import SignatureText.Wire.Decoding

namespace SignatureText

open Reader (Reads)

/-! ### The constants of a value -/

namespace Constant

mutual

/-- The constant and all constants within it. -/
def parts : Constant → List Constant
  | array type elements => array type elements :: allParts elements
  | null => [null]
  | bool b => [bool b]
  | char c => [char c]
  | string s => [string s]
  | integer n => [integer n]
  | single x => [single x]
  | double x => [double x]
  | decimal d => [decimal d]
  | enumMember type n => [enumMember type n]
  | typeOf type => [typeOf type]

/-- The constants of a list and all constants within them. -/
def allParts : List Constant → List Constant
  | [] => []
  | c :: cs => parts c ++ allParts cs

end

theorem allParts_eq (cs : List Constant) : allParts cs = cs.flatMap parts := by
  induction cs with
  | nil => rfl
  | cons c cs ih => rw [allParts, ih, List.flatMap_cons]

end Constant

/-- All constants in the arguments of an attribute. -/
def Attribute.parts (attr : Attribute) : List Constant :=
  attr.positional.flatMap Constant.parts ++ attr.named.flatMap fun argument => argument.2.parts

/-- All constants in the attributes and the default argument of a parameter. -/
def Parameter.parts (parameter : Parameter) : List Constant :=
  parameter.attributes.flatMap Attribute.parts ++
    parameter.defaultArgument.toList.flatMap Constant.parts

/-- All constants in the parameters of a callable. -/
def Callable.parts (callable : Callable) : List Constant :=
  callable.parameters.flatMap Parameter.parts

/-! ### Settled values -/

namespace Constant

mutual

/-- The constant without the sign of decimal zeros. -/
def settled : Constant → Constant
  | decimal d => decimal d.settled
  | array type elements => array type (allSettled elements)
  | null => null
  | bool b => bool b
  | char c => char c
  | string s => string s
  | integer n => integer n
  | single x => single x
  | double x => double x
  | enumMember type n => enumMember type n
  | typeOf type => typeOf type

/-- The constants without the sign of decimal zeros. -/
def allSettled : List Constant → List Constant
  | [] => []
  | c :: cs => settled c :: allSettled cs

end

/-- JSON holds the number, if the constant is one. -/
def Finite : Constant → Prop
  | single x => x.isFinite = true
  | double x => x.isFinite = true
  | null | bool _ | char _ | string _ | integer _ | decimal _ | enumMember _ _ | typeOf _
  | array _ _ => True

/-- The rule gives the number back from its own numeral, if the constant is one. -/
def Kept (rounding : Rounding) : Constant → Prop
  | single x => rounding.single? (Json.singleLayout.numeral x) = some x
  | double x => rounding.double? (Json.doubleLayout.numeral x) = some x
  | null | bool _ | char _ | string _ | integer _ | decimal _ | enumMember _ _ | typeOf _
  | array _ _ => True

/-- JSON holds the number, and the rule gives it back, if the constant is one. -/
structure Held (rounding : Rounding) (c : Constant) : Prop where
  finite : c.Finite
  kept : c.Kept rounding

/-- A decimal zero has no sign. -/
def Signless : Constant → Prop
  | decimal d => d.negative = true → d.mantissa ≠ 0
  | null | bool _ | char _ | string _ | integer _ | single _ | double _ | enumMember _ _ | typeOf _
  | array _ _ => True

end Constant

/-- The attribute without the sign of decimal zeros. -/
def Attribute.settled (attr : Attribute) : Attribute :=
  { attr with
    positional := attr.positional.map Constant.settled
    named := attr.named.map fun argument => (argument.1, argument.2.settled) }

/-- The parameter without the sign of decimal zeros. -/
def Parameter.settled (parameter : Parameter) : Parameter :=
  { parameter with
    attributes := parameter.attributes.map Attribute.settled
    defaultArgument := parameter.defaultArgument.map Constant.settled }

/-- The callable without the sign of decimal zeros. -/
def Callable.settled (callable : Callable) : Callable :=
  { callable with parameters := callable.parameters.map Parameter.settled }

/-! ### What settling changes -/

/-- A number is itself. -/
theorem Binary.same_self {f : Format} {x : Binary f} (finite : x.isFinite = true) :
    x.same x = true := by
  have number : ¬f.infinityCode < x.code := not_lt.mpr (of_decide_eq_true finite).le
  simp [same, isNaN, number]

/-- Items that are replaced by what means the same make a list that means the same. -/
theorem isEqv_map {α : Type} {make : α → α} {same : α → α → Bool} {items : List α}
    (each : ∀ item ∈ items, same (make item) item = true) :
    (items.map make).isEqv items same = true := by
  induction items with
  | nil => rfl
  | cons item items ih =>
      rw [List.forall_mem_cons] at each
      rw [List.map_cons, List.isEqv, each.1, ih each.2]
      rfl

/-- Items that are replaced by themselves are the same list. -/
theorem map_eq_self {α : Type} {make : α → α} {items : List α}
    (each : ∀ item ∈ items, make item = item) : items.map make = items :=
  (List.map_congr_left each).trans (List.map_id items)

namespace Constant

mutual

/-- **Where no zero has a sign nothing changes.** -/
theorem settled_eq_self : (c : Constant) → (∀ part ∈ c.parts, part.Signless) → c.settled = c
  | .decimal d, signless => by
      rw [settled, Decimal.settled_eq_self (signless (.decimal d) (by simp [parts]))]
  | .array type cs, signless => by
      rw [settled, allSettled_eq_self cs fun part member =>
        signless part (by rw [parts]; exact List.mem_cons_of_mem _ member)]
  | .null, _ | .bool _, _ | .char _, _ | .string _, _ | .integer _, _ | .single _, _ | .double _, _
  | .enumMember _ _, _ | .typeOf _, _ => by rw [settled]

theorem allSettled_eq_self : (cs : List Constant) → (∀ part ∈ allParts cs, part.Signless) →
    allSettled cs = cs
  | [], _ => rfl
  | c :: cs, signless => by
      rw [allSettled, settled_eq_self c fun part member =>
          signless part (List.mem_append_left _ member),
        allSettled_eq_self cs fun part member => signless part (List.mem_append_right _ member)]

end

mutual

/-- **What is settled means the same.** -/
theorem same_settled : (c : Constant) → (∀ part ∈ c.parts, part.Finite) → c.settled.same c = true
  | .single x, finite => Binary.same_self (finite (.single x) (by simp [parts]))
  | .double x, finite => Binary.same_self (finite (.double x) (by simp [parts]))
  | .decimal d, _ => Decimal.same_settled d
  | .array type cs, finite => by
      rw [settled, same, decide_eq_true rfl, Bool.true_and]
      exact sameAll_allSettled cs fun part member =>
        finite part (by rw [parts]; exact List.mem_cons_of_mem _ member)
  | .null, _ => rfl
  | .bool _, _ | .char _, _ | .string _, _ | .integer _, _ | .enumMember _ _, _ | .typeOf _, _ => by
      simp [settled, same]

theorem sameAll_allSettled : (cs : List Constant) → (∀ part ∈ allParts cs, part.Finite) →
    sameAll (allSettled cs) cs = true
  | [], _ => rfl
  | c :: cs, finite => by
      rw [allSettled, sameAll, same_settled c fun part member =>
          finite part (List.mem_append_left _ member),
        sameAll_allSettled cs fun part member => finite part (List.mem_append_right _ member)]
      rfl

end

theorem allSettled_eq (cs : List Constant) : allSettled cs = cs.map settled := by
  induction cs with
  | nil => rfl
  | cons c cs ih => rw [allSettled, ih, List.map_cons]

mutual

/-- **What is settled holds what the value held**, settled. -/
theorem parts_settled : (c : Constant) → c.settled.parts = c.parts.map settled
  | .array type cs => by rw [settled, parts, parts, List.map_cons, settled, allParts_allSettled cs]
  | .null | .bool _ | .char _ | .string _ | .integer _ | .single _ | .double _ | .decimal _
  | .enumMember _ _ | .typeOf _ => rfl

theorem allParts_allSettled : (cs : List Constant) →
    allParts (allSettled cs) = (allParts cs).map settled
  | [] => rfl
  | c :: cs => by
      rw [allSettled, allParts, allParts, List.map_append, parts_settled c, allParts_allSettled cs]

end

theorem signless_settled (c : Constant) : c.settled.Signless := by
  cases c with
  | decimal d => simp [settled, Signless, Decimal.settled]
  | _ => trivial

/-- Settling changes no floating-point number. -/
theorem Held.settled {rounding : Rounding} {c : Constant} (held : c.Held rounding) :
    c.settled.Held rounding := by
  cases c with
  | single x => exact held
  | double x => exact held
  | _ => exact ⟨trivial, trivial⟩

end Constant

namespace Attribute

variable {attr : Attribute}

theorem settled_eq_self (signless : ∀ part ∈ attr.parts, part.Signless) : attr.settled = attr := by
  have positional : attr.positional.map Constant.settled = attr.positional :=
    map_eq_self fun c member => Constant.settled_eq_self c fun part inside =>
      signless part (List.mem_append_left _ (List.mem_flatMap.mpr ⟨c, member, inside⟩))
  have named : attr.named.map (fun argument => (argument.1, argument.2.settled)) = attr.named :=
    map_eq_self fun argument member => congrArg (argument.1, ·) <|
      Constant.settled_eq_self _ fun part inside =>
        signless part (List.mem_append_right _ (List.mem_flatMap.mpr ⟨argument, member, inside⟩))
  rw [settled, positional, named]

theorem same_settled (finite : ∀ part ∈ attr.parts, part.Finite) :
    attr.settled.same attr = true := by
  have positional :
      Constant.sameAll (attr.positional.map Constant.settled) attr.positional = true := by
    rw [← Constant.allSettled_eq]
    refine Constant.sameAll_allSettled _ fun part member => finite part ?_
    rw [Constant.allParts_eq] at member
    exact List.mem_append_left _ member
  have named : (attr.named.map fun argument => (argument.1, argument.2.settled)).isEqv attr.named
      (fun s t => s.1 = t.1 && s.2.same t.2) = true :=
    isEqv_map fun argument member => by
      rw [decide_eq_true rfl, Bool.true_and]
      exact Constant.same_settled _ fun part inside =>
        finite part (List.mem_append_right _ (List.mem_flatMap.mpr ⟨argument, member, inside⟩))
  simp only [same, settled, decide_true, Bool.true_and, positional, named]

theorem parts_settled (attr : Attribute) :
    attr.settled.parts = attr.parts.map Constant.settled := by
  simp only [parts, settled, List.map_append, List.flatMap_map, List.map_flatMap,
    Constant.parts_settled]

end Attribute

namespace Parameter

variable {parameter : Parameter}

theorem settled_eq_self (signless : ∀ part ∈ parameter.parts, part.Signless) :
    parameter.settled = parameter := by
  have attributes : parameter.attributes.map Attribute.settled = parameter.attributes :=
    map_eq_self fun attr member => Attribute.settled_eq_self fun part inside =>
      signless part (List.mem_append_left _ (List.mem_flatMap.mpr ⟨attr, member, inside⟩))
  have default : parameter.defaultArgument.map Constant.settled = parameter.defaultArgument := by
    refine (Option.map_congr fun c member => ?_).trans Option.map_id'
    exact Constant.settled_eq_self c fun part inside => signless part
      (List.mem_append_right _ (List.mem_flatMap.mpr ⟨c, Option.mem_toList.mpr member, inside⟩))
  rw [settled, attributes, default]

theorem same_settled (finite : ∀ part ∈ parameter.parts, part.Finite) :
    parameter.settled.same parameter = true := by
  have attributes : (parameter.attributes.map Attribute.settled).isEqv parameter.attributes
      Attribute.same = true :=
    isEqv_map fun attr member => Attribute.same_settled fun part inside =>
      finite part (List.mem_append_left _ (List.mem_flatMap.mpr ⟨attr, member, inside⟩))
  simp only [same, settled, decide_true, Bool.true_and, attributes]
  cases default : parameter.defaultArgument with
  | none => rfl
  | some c =>
      exact Constant.same_settled c fun part inside => finite part (List.mem_append_right _
        (List.mem_flatMap.mpr ⟨c, Option.mem_toList.mpr default, inside⟩))

theorem parts_settled (parameter : Parameter) :
    parameter.settled.parts = parameter.parts.map Constant.settled := by
  cases default : parameter.defaultArgument <;>
    simp [parts, settled, List.flatMap_map, List.map_flatMap, Attribute.parts_settled,
      Constant.parts_settled, default]

end Parameter

namespace Callable

variable {callable : Callable}

theorem settled_eq_self (signless : ∀ part ∈ callable.parts, part.Signless) :
    callable.settled = callable := by
  have parameters : callable.parameters.map Parameter.settled = callable.parameters :=
    map_eq_self fun parameter member => Parameter.settled_eq_self fun part inside =>
      signless part (List.mem_flatMap.mpr ⟨parameter, member, inside⟩)
  rw [settled, parameters]

theorem same_settled (finite : ∀ part ∈ callable.parts, part.Finite) :
    callable.settled.same callable = true := by
  have parameters : (callable.parameters.map Parameter.settled).isEqv callable.parameters
      Parameter.same = true :=
    isEqv_map fun parameter member => Parameter.same_settled fun part inside =>
      finite part (List.mem_flatMap.mpr ⟨parameter, member, inside⟩)
  simp only [same, settled, decide_true, Bool.true_and, parameters]

theorem parts_settled (callable : Callable) :
    callable.settled.parts = callable.parts.map Constant.settled := by
  simp only [parts, settled, List.flatMap_map, List.map_flatMap, Parameter.parts_settled]

end Callable

namespace Json

variable {rounding : Rounding}

/-! ### Leaves -/

theorem reads_bool (b : Bool) : Reads Reader.bool (bool b) b :=
  .leaf (by rw [isWhole]) rfl

theorem reads_string (s : String) : Reads Reader.string (ofString s) s :=
  .leaf (by rw [ofString, isWhole]) rfl

theorem reads_char (c : Char) : Reads Reader.char (ofString (String.singleton c)) c :=
  .leaf (by rw [ofString, isWhole]) (by simp [ofString])

theorem reads_single {x : Binary .single} (held : (Constant.single x).Held rounding) :
    Reads (Reader.single rounding) (ofBinary singleLayout x) x := by
  have finite : x.isFinite = true := held.finite
  rw [ofBinary, if_pos finite]
  exact .leaf (by rw [isWhole]) held.kept

theorem reads_double {x : Binary .double} (held : (Constant.double x).Held rounding) :
    Reads (Reader.double rounding) (ofBinary doubleLayout x) x := by
  have finite : x.isFinite = true := held.finite
  rw [ofBinary, if_pos finite]
  exact .leaf (by rw [isWhole]) held.kept

theorem reads_decimal_settled (d : Decimal) : Reads Reader.decimal (ofString d.text) d.settled :=
  .leaf (by rw [ofString, isWhole]) (Decimal.read_text d)

theorem reads_integralType (type : IntegralType) :
    Reads Reader.integralType (ofString type.wireName) type :=
  .unit (by cases type <;> rfl)

theorem reads_passing (passing : Passing) : Reads Reader.passing (ofPassing passing) passing :=
  .unit (by cases passing <;> rfl)

/-! ### Integers and enum types -/

/-- All integral types are within 128 bits. -/
theorem bounds_of_holds {type : IntegralType} {n : Int} (holds : type.Holds n) :
    -2 ^ 127 ≤ n ∧ n < 2 ^ 127 := by
  obtain ⟨least, greatest⟩ := holds
  cases type <;>
    · simp [IntegralType.least, IntegralType.greatest, IntegralType.isSigned, IntegralType.width]
        at least greatest
      omega

theorem reads_integer {n : Int} (bounds : -2 ^ 127 ≤ n ∧ n < 2 ^ 127) :
    Reads Reader.integer (number (.ofInt n)) n :=
  .leaf (by rw [isWhole]) (by
    simp only [Numeral.integer?_ofInt, Option.filter_some, bounds, decide_true, Bool.and_self,
      if_true])

theorem reads_description (n : Integral) :
    Reads Reader.description (ofIntegral n) (.ofIntegral n) := by
  have kind := (reads_integralType n.type).present (by simp [ofString])
  have value := reads_integer (bounds_of_holds n.in_range)
  exact .record (.present kind <| .absent rfl <| .absent rfl <| .present value .nil) (by decide) _

theorem reads_integral (n : Integral) : Reads Reader.integral (ofIntegral n) n := by
  have described := reads_description n
  refine ⟨described.whole, fun levels enough => ?_⟩
  rw [Reader.integral, described.result levels enough, ok_bind,
    Integral.Description.resolve_ofIntegral]
  rfl

theorem reads_enumMember (member : EnumMember) :
    Reads Reader.enumMember (ofEnumMember member) member :=
  .record (.present (reads_string _) <| .present (reads_integral _) .nil) (by decide) _

theorem reads_enumType (type : EnumType) : Reads Reader.enumType (ofEnumType type) type := by
  have members : Reads (Reader.list Reader.enumMember) (list (type.members.map ofEnumMember))
      (type.members.map id) :=
    Reads.map_list fun member _ => reads_enumMember member
  rw [List.map_id] at members
  exact .record (.present (reads_string _) <| .present (reads_integralType _) <|
    .present members .nil) (by decide) _

/-! ### Types -/

theorem reads_typeShape (shape : TypeShape) : Reads Reader.typeShape (ofTypeShape shape) shape := by
  cases shape with
  | reference => exact .unit rfl
  | value => exact .unit rfl
  | enum type => exact .content rfl ((reads_enumType type).map _)

theorem reads_typeRef (type : TypeRef) : Reads Reader.typeRef (ofTypeRef type) type :=
  .record (.present (reads_string _) <| .present (reads_typeShape _) .nil) (by decide) _

/-! ### Constants -/

theorem reads_enumConstant (type : EnumType) (n : Integral) :
    Reads Reader.enumConstant (record [("enum_type", ofEnumType type), ("value", ofIntegral n)])
      (.enumMember type n) :=
  .record (.present (reads_enumType _) <| .present (reads_integral _) .nil) (by decide) _

/-- Whatever reads the elements, an array constant is read with them. -/
theorem reads_arrayConstant {elements : Reader (List Constant)} {js : List Json}
    {cs : List Constant} (reads : Reads elements (list js) cs) (type : TypeRef) :
    Reads (Reader.arrayConstant elements)
      (record [("element_type", ofTypeRef type), ("elements", list js)]) (.array type cs) :=
  .record (.present (reads_typeRef _) <| .present reads .nil)
    (by simp) _

/-- What is read whatever reads the elements of arrays is read as a constant. -/
theorem reads_constant_of {j : Json} {c : Constant}
    (reads : ∀ elements, Reads (Reader.constantWith rounding elements) j c) :
    Reads (Reader.constant rounding) j c := by
  refine ⟨(reads fun _ _ => .error .malformed).whole, fun levels enough => ?_⟩
  rw [Reader.constant.eq_def]
  split
  · exact (reads _).result _ enough
  · exact (reads _).result _ enough

/-- An array constant is read with the levels that are left behind its own three. -/
theorem reads_array {js : List Json} {cs : List Constant}
    (elements : List.Forall₂ (Reads (Reader.constant rounding)) js cs) (type : TypeRef) :
    Reads (Reader.constant rounding)
      (record [("array", record [("element_type", ofTypeRef type), ("elements", list js)])])
      (.array type cs) := by
  have reads {levels : Nat} (room : itemNesting js ≤ levels) :
      Reads (Reader.constantWith rounding (Reader.list fun _ => Reader.constant rounding levels))
        (record [("array", record [("element_type", ofTypeRef type), ("elements", list js)])])
        (.array type cs) :=
    .content rfl (reads_arrayConstant (.list (Reads.fixed elements room)) type)
  refine ⟨(reads le_rfl).whole, fun levels enough => ?_⟩
  have deep : itemNesting js + 3 ≤ levels := by
    simp only [nesting_record, named_cons, named_nil, memberNesting, nesting_list] at enough
    omega
  obtain ⟨levels, rfl⟩ := Nat.exists_eq_add_of_le' (by omega : 3 ≤ levels)
  rw [Reader.constant]
  exact (reads (by omega)).result _ enough

mutual

/-- **A constant is read from its tree**, settled. -/
theorem reads_constant_settled : (c : Constant) → (∀ part ∈ c.parts, part.Held rounding) →
    Reads (Reader.constant rounding) (ofConstant c) c.settled
  | .null, _ => reads_constant_of fun _ => .unit rfl
  | .bool b, _ => reads_constant_of fun _ => .content rfl ((reads_bool b).map _)
  | .char c, _ => reads_constant_of fun _ => .content rfl ((reads_char c).map _)
  | .string s, _ => reads_constant_of fun _ => .content rfl ((reads_string s).map _)
  | .integer n, _ => reads_constant_of fun _ => .content rfl ((reads_integral n).map _)
  | .single x, held => reads_constant_of fun _ =>
      .content rfl ((reads_single (held (.single x) (by simp [Constant.parts]))).map _)
  | .double x, held => reads_constant_of fun _ =>
      .content rfl ((reads_double (held (.double x) (by simp [Constant.parts]))).map _)
  | .decimal d, _ => reads_constant_of fun _ => .content rfl ((reads_decimal_settled d).map _)
  | .enumMember type n, _ => reads_constant_of fun _ => .content rfl (reads_enumConstant type n)
  | .typeOf type, _ => reads_constant_of fun _ => .content rfl ((reads_typeRef type).map _)
  | .array type cs, held =>
      reads_array (reads_constants_settled cs fun part member =>
        held part (by rw [Constant.parts]; exact List.mem_cons_of_mem _ member)) type

/-- The constants of a list are read from their trees, settled. -/
theorem reads_constants_settled : (cs : List Constant) →
    (∀ part ∈ Constant.allParts cs, part.Held rounding) →
      List.Forall₂ (Reads (Reader.constant rounding)) (ofConstants cs) (Constant.allSettled cs)
  | [], _ => .nil
  | c :: cs, held =>
      .cons
        (reads_constant_settled c fun part member => held part (List.mem_append_left _ member))
        (reads_constants_settled cs fun part member => held part (List.mem_append_right _ member))

end

/-! ### Attributes, parameters and callables -/

theorem reads_option {α β : Type} {read : Reader β} {encode : α → Json} {make : α → β}
    {v : Option α} (reads : ∀ a ∈ v, Reads read (encode a) (make a))
    (some : ∀ a ∈ v, encode a ≠ .null) :
    Reads read.optional (ofOption encode v) (v.map make) := by
  cases v with
  | none => exact .null
  | some a => exact (reads a rfl).present (some a rfl)

theorem ofConstant_ne_null (c : Constant) : ofConstant c ≠ .null := by
  cases c <;> simp [ofConstant, ofString, record]

theorem reads_attribute_settled {attr : Attribute}
    (held : ∀ part ∈ attr.parts, part.Held rounding) :
    Reads (Reader.attr rounding) (ofAttribute attr) attr.settled := by
  have type : Reads Reader.typeRef.optional (ofOption ofTypeRef attr.type) (attr.type.map id) :=
    reads_option (fun type _ => reads_typeRef type) fun type _ => by simp [ofTypeRef, record]
  rw [Option.map_id_apply] at type
  have positional := Reads.map_list fun c member => reads_constant_settled c fun part inside =>
    held part (List.mem_append_left _ (List.mem_flatMap.mpr ⟨c, member, inside⟩))
  have named := Reads.map_list fun argument member =>
    (reads_string argument.1).pair (reads_constant_settled argument.2 fun part inside =>
      held part (List.mem_append_right _ (List.mem_flatMap.mpr ⟨argument, member, inside⟩)))
  exact .record (.present type <| .present positional <| .present named .nil) (by simp) _

theorem reads_parameter_settled {parameter : Parameter}
    (held : ∀ part ∈ parameter.parts, part.Held rounding) :
    Reads (Reader.parameter rounding) (ofParameter parameter) parameter.settled := by
  have attributes := Reads.map_list fun attr member => reads_attribute_settled fun part inside =>
    held part (List.mem_append_left _ (List.mem_flatMap.mpr ⟨attr, member, inside⟩))
  have default := reads_option (v := parameter.defaultArgument)
    (fun c member => reads_constant_settled c fun part inside => held part
      (List.mem_append_right _ (List.mem_flatMap.mpr ⟨c, Option.mem_toList.mpr member, inside⟩)))
    fun c _ => ofConstant_ne_null c
  exact .record
    (.present (reads_string _) <| .present (reads_typeRef _) <| .present (reads_bool _) <|
      .present (reads_passing _) <| .present (reads_bool _) <| .present attributes <|
      .present default .nil)
    (by simp) _

theorem reads_callable_settled {callable : Callable}
    (held : ∀ part ∈ callable.parts, part.Held rounding) :
    Reads (Reader.callable rounding) (ofCallable callable) callable.settled := by
  have name : Reads Reader.string.optional (ofOption ofString callable.requestedName)
      (callable.requestedName.map id) :=
    reads_option (fun s _ => reads_string s) fun s _ => by simp [ofString]
  rw [Option.map_id_apply] at name
  have parameters := Reads.map_list fun parameter member =>
    reads_parameter_settled fun part inside =>
      held part (List.mem_flatMap.mpr ⟨parameter, member, inside⟩)
  exact .record (.present name <| .present parameters .nil) (by simp) _

end Json

end SignatureText
