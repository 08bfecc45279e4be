/-
**The text of what was decoded.**

A value that comes from a text is written in one way only, however the text was spelled.

* `Reader.Ensures` — what holds of every value that a reader gives, with a rule for each way of
  putting readers together.
* `Reader.callable_ensures` — **what is decoded holds numbers only**: a 64-bit number is finite and
  a 32-bit number is at most infinite.
* `Reader.decode_toText` — **the text of what was decoded gives the same value again**, and the
  text of that value stays as it is. JSON has no infinity, a rule of rounding need not give a number
  back from its numeral, and a reader opens only so many levels, so all three are asked for; a
  decimal zero may lose its sign on the way. Which numbers a rule gives back is part of the theorem.
* `Reader.restores_single_iff`, `Reader.restores_double_iff` — no other floating-point number comes
  back as it was.
* `Reader.not_decode_toText` — none of the conditions can be left out.
-/

import SignatureText.Proofs.Wire.Settled
import SignatureText.Proofs.Wire.Sources

namespace SignatureText

namespace Reader

variable {α β : Type}

/-! ### What a reader ensures -/

/-- Whatever the reader gives satisfies the property. -/
def Ensures (read : Reader α) (P : α → Prop) : Prop :=
  ∀ levels j v, read levels j = .ok v → P v

end Reader

namespace Variant

variable {α : Type} {P : α → Prop}

/-- Whatever the variant stands for satisfies the property. -/
def Ensures : Variant α → (α → Prop) → Prop
  | unit value, P => P value
  | content read, P => read.Ensures P

end Variant

namespace Reader

variable {α β : Type}

namespace Ensures

variable {read : Reader α} {P : α → Prop}

theorem leaf {value? : Json → Option α} (values : ∀ j v, value? j = some v → P v) :
    (leaf value?).Ensures P :=
  fun _ j v result => values j v (value_of_leaf_eq_ok result)

theorem map {make : β → α} {other : Reader β} (ensures : other.Ensures fun b => P (make b)) :
    (other.map make).Ensures P := by
  intro levels j v result
  obtain ⟨b, found, rfl⟩ := map_eq_ok_iff.mp result
  exact ensures levels j b found

theorem optional (ensures : read.Ensures P) : read.optional.Ensures fun v => ∀ a ∈ v, P a :=
  fun levels j _ result a present =>
    ensures levels j a (exists_of_optional_eq_ok result a present)

theorem list (ensures : read.Ensures P) : (list read).Ensures fun v => ∀ a ∈ v, P a := by
  intro levels j v result a member
  obtain ⟨below, items⟩ := exists_of_list_eq_ok result
  obtain ⟨item, -, given⟩ := items a member
  exact ensures below item a given

theorem pair {first : Reader β} (ensures : read.Ensures P) :
    (pair first read).Ensures fun v => P v.2 := by
  intro levels j v result
  obtain ⟨below, item, -, given⟩ := exists_of_pair_eq_ok result
  exact ensures below item v.2 given

theorem choice {variants : List (String × Variant α)}
    (ensures : ∀ variant ∈ variants, variant.2.Ensures P) : (choice variants).Ensures P := by
  intro levels j v result
  obtain ⟨name, unit | ⟨read, content, below, part, -, given⟩⟩ := exists_of_choice_eq_ok result
  · exact ensures _ unit
  · exact ensures _ content below part v given

theorem record {βs : List Type} {fields : Fields βs} {make : Row βs → α}
    (distinct : fields.names.Nodup)
    (ensures : ∀ levels sources row, fields.Gives levels sources row → P (make row)) :
    (record fields make).Ensures P := by
  intro levels j v result
  obtain ⟨below, row, rfl, gives⟩ := exists_row_of_record_eq_ok distinct result
  exact ensures below _ row gives

end Ensures

end Reader

/-! ### What texts give -/

namespace Constant

/-- A text can hold the number, if the constant is one. -/
def Decodable : Constant → Prop
  | single x => x.isNaN = false
  | double x => x.isFinite = true
  | null | bool _ | char _ | string _ | integer _ | decimal _ | enumMember _ _ | typeOf _
  | array _ _ => True

/-- The constant is no infinite 32-bit number. -/
def Bounded : Constant → Prop
  | single x => x.isInfinite = false
  | null | bool _ | char _ | string _ | integer _ | double _ | decimal _ | enumMember _ _ | typeOf _
  | array _ _ => True

theorem Decodable.finite {c : Constant} (decodable : c.Decodable) (bounded : c.Bounded) :
    c.Finite := by
  cases c with
  | single x =>
      simp only [Decodable, Binary.isNaN, decide_eq_false_iff_not] at decodable
      simp only [Bounded, Binary.isInfinite, decide_eq_false_iff_not] at bounded
      simp only [Finite, Binary.isFinite, decide_eq_true_eq]
      omega
  | double x => exact decodable
  | _ => trivial

end Constant

namespace Reader

open Constant (Decodable)

variable {rounding : Rounding}

theorem double_ensures : (double rounding).Ensures fun x => x.isFinite = true := by
  refine .leaf fun j x found => ?_
  cases j with
  | number n => exact (Rounding.double?_eq_some_iff.mp found).2
  | _ => cases found

/-- A 32-bit number comes out of rounding, so it is at most infinite. -/
theorem single_ensures : (single rounding).Ensures fun x => x.isNaN = false := by
  refine .leaf fun j x found => ?_
  cases j with
  | number n =>
      simp only [Rounding.single?] at found
      split at found
      · cases found
        exact decide_eq_false (Nat.not_lt.mpr (Format.nearestScaled_le _ _ _))
      · obtain ⟨y, -, rfl⟩ := Option.map_eq_some_iff.mp found
        exact decide_eq_false (Nat.not_lt.mpr (Format.nearest_le _ _))
  | _ => cases found

/-- A constant that holds no other is all that has to be looked at. -/
theorem decodable_of_alone {c : Constant} (alone : c.parts = [c]) (decodable : c.Decodable) :
    ∀ part ∈ c.parts, part.Decodable := by
  rw [alone]
  exact List.forall_mem_singleton.mpr decodable

theorem Ensures.alone {β : Type} {read : Reader β} {make : β → Constant}
    (alone : ∀ b, (make b).parts = [make b]) (ensures : read.Ensures fun b => (make b).Decodable) :
    (read.map make).Ensures fun c => ∀ part ∈ c.parts, part.Decodable :=
  .map fun levels j b given => decodable_of_alone (alone b) (ensures levels j b given)

/-- An array constant holds itself and what its elements hold. -/
theorem arrayConstant_ensures {elements : Reader (List Constant)}
    (ensures : elements.Ensures fun cs => ∀ c ∈ cs, ∀ part ∈ c.parts, part.Decodable) :
    (arrayConstant elements).Ensures fun c => ∀ part ∈ c.parts, part.Decodable := by
  refine .record (by simp) ?_
  rintro levels sources ⟨type, cs, ⟨⟩⟩ ⟨-, ⟨j, -, given⟩ | absent | absent, -⟩
  · intro part member
    rw [Constant.parts, Constant.allParts_eq, List.mem_cons, List.mem_flatMap] at member
    obtain rfl | ⟨c, inside, member⟩ := member
    · trivial
    · exact ensures _ _ _ given c inside part member
  · cases absent
  · cases absent

/-- **A constant holds what texts give**, if its elements do. -/
theorem constantWith_ensures {elements : Reader (List Constant)}
    (ensures : elements.Ensures fun cs => ∀ c ∈ cs, ∀ part ∈ c.parts, part.Decodable) :
    (constantWith rounding elements).Ensures fun c => ∀ part ∈ c.parts, part.Decodable := by
  have enums : enumConstant.Ensures fun c => ∀ part ∈ c.parts, part.Decodable := by
    refine .record (by decide) ?_
    rintro levels sources ⟨type, n, ⟨⟩⟩ -
    exact decodable_of_alone rfl trivial
  -- Only numbers have anything to be looked at, and only arrays hold other constants.
  refine .choice ?_
  simp only [List.forall_mem_cons, List.not_mem_nil, false_imp_iff, implies_true, and_true]
  refine ⟨?_, .alone (fun _ => rfl) ?_, .alone (fun _ => rfl) ?_, .alone (fun _ => rfl) ?_,
    .alone (fun _ => rfl) ?_, .alone (fun _ => rfl) single_ensures,
    .alone (fun _ => rfl) double_ensures, .alone (fun _ => rfl) ?_, enums,
    .alone (fun _ => rfl) ?_, arrayConstant_ensures ensures⟩
  · exact decodable_of_alone rfl trivial
  all_goals exact fun _ _ _ _ => trivial

/-- **A constant holds what texts give.** -/
theorem constant_ensures :
    (constant rounding).Ensures fun c => ∀ part ∈ c.parts, part.Decodable := by
  intro levels
  -- The elements of an array are read with three levels less than the array.
  induction levels using Nat.strongRecOn with
  | ind levels ih =>
      rw [constant.eq_def]
      split
      · rename_i below
        exact constantWith_ensures (.list fun _ => ih below (by omega)) _
      · refine constantWith_ensures (fun _ _ _ given => ?_) _
        cases given

/-! ### Attributes, parameters and callables -/

/-- A field that stands for its default where it is absent has what both have. -/
theorem Ensures.withDefault {β : Type} {read : Reader β} {P : β → Prop} (ensures : read.Ensures P)
    {name : String} {default value : β} (usual : P default) {levels : Nat} {sources : List Json}
    (given : (RecordField.withDefault name read default).Gives levels sources value) : P value := by
  rcases given with ⟨j, -, given⟩ | absent | absent
  · exact ensures _ _ _ given
  · exact Option.some.inj absent ▸ usual
  · exact Option.some.inj absent ▸ usual

theorem attr_ensures :
    (attr rounding).Ensures fun attr => ∀ part ∈ attr.parts, part.Decodable := by
  refine .record (by simp) ?_
  rintro levels sources ⟨type, positional, named, ⟨⟩⟩ ⟨-, positionals, nameds, -⟩
  have positionals := constant_ensures.list.withDefault (by simp) positionals
  have nameds := (Ensures.pair constant_ensures).list.withDefault (by simp) nameds
  intro part member
  rcases List.mem_append.mp member with member | member
  · obtain ⟨c, inside, member⟩ := List.mem_flatMap.mp member
    exact positionals c inside part member
  · obtain ⟨argument, inside, member⟩ := List.mem_flatMap.mp member
    exact nameds argument inside part member

theorem parameter_ensures :
    (parameter rounding).Ensures fun parameter => ∀ part ∈ parameter.parts, part.Decodable := by
  refine .record (by simp) ?_
  rintro levels sources ⟨name, type, isNullable, passing, isVariadic, attributes, default, ⟨⟩⟩
    ⟨-, -, -, -, -, given, defaults, -⟩
  have given := attr_ensures.list.withDefault (by simp) given
  have defaults := constant_ensures.optional.withDefault (by simp) defaults
  intro part member
  rcases List.mem_append.mp member with member | member
  · obtain ⟨attr, inside, member⟩ := List.mem_flatMap.mp member
    exact given attr inside part member
  · obtain ⟨c, inside, member⟩ := List.mem_flatMap.mp member
    exact defaults c (Option.mem_toList.mp inside) part member

/-- **A callable holds what texts give.** -/
theorem callable_ensures :
    (callable rounding).Ensures fun callable => ∀ part ∈ callable.parts, part.Decodable := by
  refine .record (by simp) ?_
  rintro levels sources ⟨name, parameters, ⟨⟩⟩ ⟨-, given, -⟩
  have given := parameter_ensures.list.withDefault (by simp) given
  intro part member
  obtain ⟨parameter, inside, member⟩ := List.mem_flatMap.mp member
  exact given parameter inside part member

end Reader

/-! ### Nesting -/

namespace Json

theorem itemNesting_map_congr {α : Type} {f g : α → Json} (items : List α)
    (same : ∀ item, (f item).nesting = (g item).nesting) :
    itemNesting (items.map f) = itemNesting (items.map g) := by
  induction items with
  | nil => rfl
  | cons item items ih => rw [List.map_cons, List.map_cons, itemNesting, itemNesting, same, ih]

theorem itemNesting_map_le {α : Type} {f : α → Json} {most : Nat} {items : List α}
    (each : ∀ item, (f item).nesting ≤ most) : itemNesting (items.map f) ≤ most := by
  induction items with
  | nil => exact Nat.zero_le _
  | cons item items ih => exact Nat.max_le.mpr ⟨each item, ih⟩

mutual

/-- What is settled nests as the value did. -/
theorem nesting_ofConstant_settled : (c : Constant) →
    (ofConstant c.settled).nesting = (ofConstant c).nesting
  | .array type cs => by
      simp only [Constant.settled, ofConstant, nesting_record, named_cons, memberNesting,
        nesting_list, itemNesting_ofConstants_settled cs]
  | .null | .bool _ | .char _ | .string _ | .integer _ | .single _ | .double _ | .decimal _
  | .enumMember _ _ | .typeOf _ => rfl

theorem itemNesting_ofConstants_settled : (cs : List Constant) →
    itemNesting (ofConstants (Constant.allSettled cs)) = itemNesting (ofConstants cs)
  | [] => rfl
  | c :: cs => by
      rw [Constant.allSettled, ofConstants, ofConstants, itemNesting, itemNesting,
        nesting_ofConstant_settled c, itemNesting_ofConstants_settled cs]

end

theorem nesting_ofAttribute_settled (attr : Attribute) :
    (ofAttribute attr.settled).nesting = (ofAttribute attr).nesting := by
  have positional := itemNesting_map_congr attr.positional nesting_ofConstant_settled
  have named := itemNesting_map_congr attr.named
    (f := fun argument => ofNamed (argument.1, argument.2.settled)) (g := ofNamed)
    fun argument => by simp only [ofNamed, nesting_list, itemNesting, nesting_ofConstant_settled]
  simp only [ofAttribute, Attribute.settled, nesting_record, named_cons, memberNesting,
    nesting_list, List.map_map, Function.comp_def, positional, named]

theorem nesting_ofParameter_settled (parameter : Parameter) :
    (ofParameter parameter.settled).nesting = (ofParameter parameter).nesting := by
  have attributes := itemNesting_map_congr parameter.attributes
    nesting_ofAttribute_settled
  have default : (ofOption ofConstant (parameter.defaultArgument.map Constant.settled)).nesting =
      (ofOption ofConstant parameter.defaultArgument).nesting := by
    cases parameter.defaultArgument with
    | none => rfl
    | some c => exact nesting_ofConstant_settled c
  simp only [ofParameter, Parameter.settled, nesting_record, named_cons, memberNesting,
    nesting_list, List.map_map, Function.comp_def, attributes, default]

theorem nesting_ofCallable_settled (callable : Callable) :
    (ofCallable callable.settled).nesting = (ofCallable callable).nesting := by
  have parameters := itemNesting_map_congr callable.parameters
    nesting_ofParameter_settled
  simp only [ofCallable, Callable.settled, nesting_record, named_cons, memberNesting,
    nesting_list, List.map_map, Function.comp_def, parameters]

/-! Types and integral values hold no constants, so there is a bound to how deep they go. -/

theorem nesting_ofString (s : String) : (ofString s).nesting = 0 := by
  rw [ofString, nesting]

theorem nesting_ofIntegral (n : Integral) : (ofIntegral n).nesting = 1 := by
  simp [ofIntegral, nesting_record, memberNesting, nesting_ofString, nesting]

theorem nesting_ofEnumType_le (type : EnumType) : (ofEnumType type).nesting ≤ 4 := by
  have members : itemNesting (type.members.map ofEnumMember) ≤ 2 :=
    itemNesting_map_le fun member => by
      simp [ofEnumMember, nesting_record, memberNesting, nesting_ofString, nesting_ofIntegral]
  simp only [ofEnumType, nesting_record, named_cons, named_nil, memberNesting, nesting_ofString,
    nesting_list]
  omega

theorem nesting_ofTypeRef_le (type : TypeRef) : (ofTypeRef type).nesting ≤ 6 := by
  have shape : (ofTypeShape type.shape).nesting ≤ 5 := by
    cases type.shape with
    | reference => simp [ofTypeShape, nesting_ofString]
    | value => simp [ofTypeShape, nesting_ofString]
    | enum type =>
        have := nesting_ofEnumType_le type
        simp only [ofTypeShape, nesting_record, named_cons, named_nil, memberNesting]
        omega
  simp only [ofTypeRef, nesting_record, named_cons, named_nil, memberNesting, nesting_ofString]
  omega

end Json

/-! ### The text of what was decoded -/

namespace Reader

variable {α : Type}

/-- The text of a value decodes to a value that is the same and has the same text. -/
def Restores (read : Reader α) (encode : α → Json) (same : α → α → Bool) (v : α) : Prop :=
  ∃ w, decode read (encode v).toText = .ok w ∧ same w v = true ∧
    (encode w).toText = (encode v).toText

/-- The text of a value decodes to a value that is the same and that is restored itself. -/
def Settles (read : Reader α) (encode : α → Json) (same : α → α → Bool) (v : α) : Prop :=
  ∃ w, decode read (encode v).toText = .ok w ∧ same w v = true ∧ read.Restores encode same w

/--
What is decoded, with no infinite 32-bit number, with numbers that the rule gives back, and with a
text that nests no deeper than a reader goes, settles; and it is restored if no decimal zero has a
sign.
-/
def Normalizes (rounding : Rounding) (read : Reader α) (encode : α → Json) (same : α → α → Bool)
    (parts : α → List Constant) : Prop :=
  ∀ text v, decode read text = .ok v → (∀ part ∈ parts v, part.Bounded) →
    (∀ part ∈ parts v, part.Kept rounding) → (encode v).nesting ≤ 127 →
      read.Settles encode same v ∧
        ((∀ part ∈ parts v, part.Signless) → read.Restores encode same v)

variable {rounding : Rounding} {read : Reader α} {encode : α → Json} {same : α → α → Bool} {v w : α}

/-- What comes back as it was is restored, if it is the same as itself. -/
theorem Restores.of_reads (reads : Reads read (encode v) v) (equal : same v v = true)
    (shallow : (encode v).nesting ≤ 127) : read.Restores encode same v :=
  ⟨v, reads.decode shallow, equal, rfl⟩

section Reads

variable {parts : α → List Constant} {settled : α → α}
  (reads : ∀ v, (∀ part ∈ parts v, part.Held rounding) → Reads read (encode v) (settled v))
  (equal : ∀ v, (∀ part ∈ parts v, part.Finite) → same (settled v) v = true)
  (unchanged : ∀ v, (∀ part ∈ parts v, part.Signless) → settled v = v)

include reads equal unchanged

/-- What comes back settled is restored if it has no signs on decimal zeros. -/
theorem Restores.of_held (held : ∀ part ∈ parts v, part.Held rounding)
    (signless : ∀ part ∈ parts v, part.Signless) (shallow : (encode v).nesting ≤ 127) :
    read.Restores encode same v := by
  have reads := reads v held
  have equal := equal v fun part member => (held part member).finite
  rw [unchanged v signless] at reads equal
  exact .of_reads reads equal shallow

/-- What comes back settled settles: the settled value has no signs on decimal zeros. -/
theorem normalizes_of_reads (ensures : read.Ensures fun v => ∀ part ∈ parts v, part.Decodable)
    (parts_settled : ∀ v, parts (settled v) = (parts v).map Constant.settled)
    (nesting_settled : ∀ v, (encode (settled v)).nesting = (encode v).nesting) :
    Normalizes rounding read encode same parts := by
  intro text v decoded bounded kept shallow
  have held : ∀ part ∈ parts v, part.Held rounding := by
    obtain ⟨j, -, given⟩ := decode_eq_ok_iff.mp decoded
    exact fun part member =>
      ⟨(ensures _ _ _ given part member).finite (bounded part member), kept part member⟩
  refine ⟨⟨settled v, (reads v held).decode shallow,
    equal v fun part member => (held part member).finite,
    .of_held reads equal unchanged ?_ ?_ ((nesting_settled v).trans_le shallow)⟩,
    fun signless => .of_held reads equal unchanged held signless shallow⟩
  · rw [parts_settled]
    exact List.forall_mem_map.mpr fun part member => (held part member).settled
  · rw [parts_settled]
    exact List.forall_mem_map.mpr fun part _ => part.signless_settled

end Reads

/-! The parts of the model that hold constants, and those that hold none. -/

theorem constant_normalizes :
    Normalizes rounding (constant rounding) Json.ofConstant Constant.same Constant.parts :=
  normalizes_of_reads Json.reads_constant_settled Constant.same_settled Constant.settled_eq_self
    constant_ensures Constant.parts_settled Json.nesting_ofConstant_settled

theorem attr_normalizes :
    Normalizes rounding (attr rounding) Json.ofAttribute Attribute.same Attribute.parts :=
  normalizes_of_reads (fun _ => Json.reads_attribute_settled) (fun _ => Attribute.same_settled)
    (fun _ => Attribute.settled_eq_self) attr_ensures Attribute.parts_settled
    Json.nesting_ofAttribute_settled

theorem parameter_normalizes :
    Normalizes rounding (parameter rounding) Json.ofParameter Parameter.same Parameter.parts :=
  normalizes_of_reads (fun _ => Json.reads_parameter_settled) (fun _ => Parameter.same_settled)
    (fun _ => Parameter.settled_eq_self) parameter_ensures Parameter.parts_settled
    Json.nesting_ofParameter_settled

theorem callable_normalizes :
    Normalizes rounding (callable rounding) Json.ofCallable Callable.same Callable.parts :=
  normalizes_of_reads (fun _ => Json.reads_callable_settled) (fun _ => Callable.same_settled)
    (fun _ => Callable.settled_eq_self) callable_ensures Callable.parts_settled
    Json.nesting_ofCallable_settled

theorem typeRef_restores (type : TypeRef) : typeRef.Restores Json.ofTypeRef (· = ·) type :=
  .of_reads (Json.reads_typeRef type) (decide_eq_true rfl)
    ((Json.nesting_ofTypeRef_le type).trans (by decide))

theorem enumType_restores (type : EnumType) : enumType.Restores Json.ofEnumType (· = ·) type :=
  .of_reads (Json.reads_enumType type) (decide_eq_true rfl)
    ((Json.nesting_ofEnumType_le type).trans (by decide))

theorem integral_restores (n : Integral) : integral.Restores Json.ofIntegral (· = ·) n :=
  .of_reads (Json.reads_integral n) (decide_eq_true rfl)
    ((Json.nesting_ofIntegral n).trans_le (by decide))

theorem passing_restores (mode : Passing) : passing.Restores Json.ofPassing (· = ·) mode :=
  .of_reads (Json.reads_passing mode) (decide_eq_true rfl)
    ((Json.nesting_ofString _).trans_le (by decide))

/-- By the nearest number all finite 32-bit numbers are given back but for those of one magnitude.
-/
theorem kept_single_iff {x : Binary .single} (finite : x.isFinite = true) :
    (Constant.single x).Kept .nearest ↔ x.code ≠ 0x15ae43fd :=
  (Rounding.nearest_single?_numeral_iff finite).trans (Binary.survivesDouble_iff finite)

/--
**The text of what was decoded gives the same value again**, for every part of the model and by
either rule of rounding. Types, integral values and modes are restored whatever they are. By the
nearest number all finite numbers are given back but for the 32-bit ones of a single magnitude; by
arithmetic all finite 32-bit numbers are, and the 64-bit ones whose numerals have few digits, the
last of them near the point.
-/
theorem decode_toText :
    (∀ rounding,
      Normalizes rounding (callable rounding) Json.ofCallable Callable.same Callable.parts ∧
      Normalizes rounding (parameter rounding) Json.ofParameter Parameter.same Parameter.parts ∧
      Normalizes rounding (attr rounding) Json.ofAttribute Attribute.same Attribute.parts ∧
      Normalizes rounding (constant rounding) Json.ofConstant Constant.same Constant.parts) ∧
    (∀ text v, decode typeRef text = .ok v → typeRef.Restores Json.ofTypeRef (· = ·) v) ∧
    (∀ text v, decode enumType text = .ok v → enumType.Restores Json.ofEnumType (· = ·) v) ∧
    (∀ text v, decode integral text = .ok v → integral.Restores Json.ofIntegral (· = ·) v) ∧
    (∀ text v, decode passing text = .ok v → passing.Restores Json.ofPassing (· = ·) v) ∧
    (∀ x : Binary .double, x.isFinite = true → (Constant.double x).Kept .nearest) ∧
    (∀ x : Binary .single, x.isFinite = true →
      ((Constant.single x).Kept .nearest ↔ x.code ≠ 0x15ae43fd)) ∧
    (∀ x : Binary .single, x.isFinite = true → (Constant.single x).Kept .arithmetic) ∧
    ∀ x : Binary .double, x.isFinite = true → (Json.doubleLayout.numeral x).mantissa < 2 ^ 53 →
      -22 ≤ (Json.doubleLayout.numeral x).scale → (Json.doubleLayout.numeral x).scale ≤ 22 →
      (Constant.double x).Kept .arithmetic :=
  ⟨fun _ => ⟨callable_normalizes, parameter_normalizes, attr_normalizes, constant_normalizes⟩,
    fun _ v _ => typeRef_restores v, fun _ v _ => enumType_restores v,
    fun _ v _ => integral_restores v, fun _ v _ => passing_restores v,
    fun _ => Rounding.nearest_double?_numeral, fun _ => kept_single_iff,
    fun _ => Rounding.arithmetic_single?_numeral, fun _ => Rounding.arithmetic_double?_numeral⟩

/-- A callable in arrays, with an attribute whose argument has its type described by a width. -/
theorem decode_toText_arrays :
    let digits : Json := .number (.ofInt 200)
    let byte := Json.record [("integer", .list [.null, .number (.ofInt 8), .bool false, digits])]
    let text := (Json.list [.null, .list [.list [.ofString "n", .list [.ofString "T"], .bool true,
      .ofString "by_value", .bool false,
      .list [.list [.list [.ofString "Range"], .list [byte]]],
      .record [("decimal", .ofString "-1.50e1")]]]]).toText
    let range : Attribute :=
      ⟨some (.reference "Range"), [.integer ⟨.byte, 200, by decide⟩], []⟩
    let v : Callable := ⟨none, [⟨"n", .reference "T", true, .value, false, [range],
      some (.decimal ⟨true, 150, 1, by decide, by decide⟩)⟩]⟩
    let read := callable .arithmetic
    (decode read text = .ok v ∧ (∀ part ∈ v.parts, part.Bounded) ∧
      (∀ part ∈ v.parts, part.Kept .arithmetic) ∧
      (Json.ofCallable v).nesting ≤ 127 ∧ ∀ part ∈ v.parts, part.Signless) ∧
    read.Settles Json.ofCallable Callable.same v ∧
      read.Restores Json.ofCallable Callable.same v := by
  intro digits byte text range v read
  have decoded : decode read text = .ok v := (holds_toText (by decide)).decode.mpr rfl
  have bounded : ∀ part ∈ v.parts, part.Bounded := by
    simp [v, range, Callable.parts, Parameter.parts, Attribute.parts, Constant.parts,
      Constant.Bounded]
  have kept : ∀ part ∈ v.parts, part.Kept .arithmetic := by
    simp [v, range, Callable.parts, Parameter.parts, Attribute.parts, Constant.parts,
      Constant.Kept]
  have shallow : (Json.ofCallable v).nesting ≤ 127 := by decide
  have signless : ∀ part ∈ v.parts, part.Signless := by
    simp [v, range, Callable.parts, Parameter.parts, Attribute.parts, Constant.parts,
      Constant.Signless]
  obtain ⟨settles, restores⟩ :=
    (decode_toText.1 .arithmetic).1 text v decoded bounded kept shallow
  exact ⟨⟨decoded, bounded, kept, shallow, signless⟩, settles, restores signless⟩

/-! ### What does not come back -/

/-- What is restored is read from its tree as something that is the same. -/
theorem Restores.exists_read (whole : (encode v).isWhole = true)
    (restores : read.Restores encode same v) :
    ∃ w, read mostLevels (encode v) = .ok w ∧ same w v = true := by
  obtain ⟨w, decoded, equal, -⟩ := restores
  exact ⟨w, (holds_toText whole).decode.mp decoded, equal⟩

theorem not_restores_of_refused {fault : DecodeFault} (whole : (encode v).isWhole = true)
    (refused : read mostLevels (encode v) = .error fault) : ¬read.Restores encode same v := by
  intro restores
  obtain ⟨w, given, -⟩ := restores.exists_read whole
  rw [refused] at given
  cases given

/-- The object of a variant with content is read as the content. -/
theorem choice_record {variants : List (String × Variant α)} {name : String}
    (found : variants.lookup name = some (.content read)) (levels : Nat) (j : Json) :
    choice variants (levels + 1) (.record [(name, j)]) = read levels j := by
  simp only [choice, Json.record, List.map_cons, List.map_nil, Variant.find, found, ok_bind,
    Variant.read]
  cases read levels j <;> rfl

/-- A constant that is an object is restored only if its content is read as that of one that is the
same. -/
theorem Restores.exists_content {β : Type} {content : Reader β} {make : β → Constant}
    {name : String} {j : Json} {c : Constant}
    (tree : Json.ofConstant c = .record [(name, j)]) (whole : j.isWhole = true)
    (found : ∀ elements,
      constantWith rounding elements mostLevels (.record [(name, j)]) = (content.map make) 126 j)
    (restores : (constant rounding).Restores Json.ofConstant Constant.same c) :
    ∃ y, content 126 j = .ok y ∧ (make y).same c = true := by
  have wholeTree : (Json.ofConstant c).isWhole = true := by
    rw [tree]
    simp [Json.record, Json.isWhole, Json.allMembersWhole, whole]
  obtain ⟨w, given, equal⟩ := restores.exists_read wholeTree
  have read : constant rounding mostLevels (.record [(name, j)]) = (content.map make) 126 j := by
    rw [constant.eq_def]
    exact found _
  rw [tree, read] at given
  obtain ⟨y, inside, rfl⟩ := map_eq_ok_iff.mp given
  exact ⟨y, inside, equal⟩

/-- Numbers that are the same and have one sign are one number. -/
theorem eq_of_same {f : Format} {x y : Binary f} (same : y.same x = true)
    (sign : y.negative = x.negative) : y = x := by
  simp only [Binary.same, Bool.and_eq_true, decide_eq_true_eq] at same
  cases x
  cases y
  rw [Binary.mk.injEq]
  exact ⟨sign, same.1.2⟩

/-- **A finite 32-bit number comes back exactly if the rule gives it back from its numeral.** -/
theorem restores_single_iff {x : Binary .single} (finite : x.isFinite = true) :
    (constant rounding).Restores Json.ofConstant Constant.same (.single x) ↔
      (Constant.single x).Kept rounding := by
  have tree : Json.ofConstant (.single x) =
      .record [("float32", .number (Json.singleLayout.numeral x))] := by
    rw [Json.ofConstant, Json.ofBinary, if_pos finite]
  constructor
  · intro restores
    obtain ⟨y, read, equal⟩ := restores.exists_content tree (by rw [Json.isWhole])
      fun _ => choice_record rfl 126 _
    have found : rounding.single? (Json.singleLayout.numeral x) = some y :=
      value_of_leaf_eq_ok read
    have back : y = x := eq_of_same equal (Rounding.negative_of_single?_numeral found)
    rwa [back] at found
  · intro kept
    refine .of_held Json.reads_constant_settled Constant.same_settled Constant.settled_eq_self
      (List.forall_mem_singleton.mpr ⟨finite, kept⟩) (List.forall_mem_singleton.mpr trivial) ?_
    rw [tree]
    simp [Json.nesting_record, Json.memberNesting, Json.nesting]

/-- **And so does a finite 64-bit number.** -/
theorem restores_double_iff {x : Binary .double} (finite : x.isFinite = true) :
    (constant rounding).Restores Json.ofConstant Constant.same (.double x) ↔
      (Constant.double x).Kept rounding := by
  have tree : Json.ofConstant (.double x) =
      .record [("float64", .number (Json.doubleLayout.numeral x))] := by
    rw [Json.ofConstant, Json.ofBinary, if_pos finite]
  constructor
  · intro restores
    obtain ⟨y, read, equal⟩ := restores.exists_content tree (by rw [Json.isWhole])
      fun _ => choice_record rfl 126 _
    have found : rounding.double? (Json.doubleLayout.numeral x) = some y :=
      value_of_leaf_eq_ok read
    have back : y = x := eq_of_same equal (Rounding.negative_of_double?_numeral found)
    rwa [back] at found
  · intro kept
    refine .of_held Json.reads_constant_settled Constant.same_settled Constant.settled_eq_self
      (List.forall_mem_singleton.mpr ⟨finite, kept⟩) (List.forall_mem_singleton.mpr trivial) ?_
    rw [tree]
    simp [Json.nesting_record, Json.memberNesting, Json.nesting]

set_option maxRecDepth 4000 in
/--
**Each of the conditions matters.** By either rule, a number too large for 32 bits is read as an
infinity, whose text is refused; a power of ten can leave a decimal zero with a sign, which its text
loses; and where the members of an enum type are left out, the list of none that is written instead
may be too deep. By the nearest number, digits next to a midpoint give a 32-bit number whose own
digits are read as the next one; and by arithmetic a power of ten is missed by one, so that the
number that is read instead is read as yet another.
-/
theorem not_decode_toText :
    let infinite : Constant := .single (.ofBits .single 0x7f800000)
    let close : Constant := .single (.ofBits .single 0x15ae43fd)
    let coarse : Constant := .double (.ofBits .double 0x04585d003f6488ae)
    let zero : Constant := .decimal ⟨true, 0, 28, by decide, by decide⟩
    let type : TypeRef := .reference "T"
    let array (c : Constant) : Constant := .array type [c]
    let deep : Constant := array^[41] (.typeOf ⟨"E", .enum ⟨"E", .int, []⟩⟩)
    let large : Json := .record [("float32", .number ⟨false, 1, 0, some 39⟩)]
    let long : Json := .record [("float32", .number ⟨false, 70385306, 7, some (-26)⟩)]
    let power : Json := .record [("float64", .number ⟨false, 1, 0, some (-287)⟩)]
    let tiny : Json := .record [("decimal", .ofString "-0.1e-28")]
    let enum : Json := .record [("name", .ofString "E"), ("underlying", .ofString "i32")]
    let inner : Json := .record
      [("type_literal", .record [("name", .ofString "E"), ("kind", .record [("enum", enum)])])]
    let outer (j : Json) : Json := .record
      [("array", .record [("element_type", Json.ofTypeRef type), ("elements", .list [j])])]
    (∀ rounding,
      (decode (constant rounding) large.toText = .ok infinite ∧
        ¬(constant rounding).Restores Json.ofConstant Constant.same infinite) ∧
      (decode (constant rounding) tiny.toText = .ok zero ∧
        ¬(constant rounding).Restores Json.ofConstant Constant.same zero) ∧
      decode (constant rounding) (outer^[41] inner).toText = .ok deep ∧
        ¬(constant rounding).Restores Json.ofConstant Constant.same deep) ∧
    (decode (constant .nearest) long.toText = .ok close ∧
      ¬(constant .nearest).Restores Json.ofConstant Constant.same close) ∧
    decode (constant .arithmetic) power.toText = .ok coarse ∧
      ¬(constant .arithmetic).Restores Json.ofConstant Constant.same coarse := by
  intro infinite close coarse zero type array deep large long power tiny enum inner outer
  refine ⟨fun rounding => ⟨⟨?_, ?_⟩, ⟨?_, ?_⟩, ?_, ?_⟩, ⟨?_, ?_⟩, ?_, ?_⟩
  · have rounded : rounding.single? ⟨false, 1, 0, some 39⟩ = some (.ofBits .single 0x7f800000) := by
      cases rounding <;> decide +kernel
    have reads : Reads (constant rounding) large infinite :=
      Json.reads_constant_of fun _ => .content rfl (.map (.leaf (by decide) rounded) _)
    exact reads.decode (by decide)
  · exact not_restores_of_refused (by decide) rfl
  · exact (holds_toText (by decide)).decode.mpr rfl
  · have back : decode (constant rounding) (Json.ofConstant zero).toText = .ok zero.settled :=
      (holds_toText (by decide)).decode.mpr rfl
    rintro ⟨w, decoded, -, unchanged⟩
    cases decoded.symm.trans back
    have trees := Json.toText_injective (by decide) (by decide) unchanged
    simp only [zero, Constant.settled, Json.ofConstant, Json.record, Json.ofString, List.map_cons,
      List.map_nil, Json.object.injEq, List.cons.injEq, Prod.mk.injEq, Json.string.injEq,
      Option.some.injEq, and_true, true_and] at trees
    revert trees
    decide
  · exact (holds_toText (by decide)).decode.mpr rfl
  · exact not_restores_of_refused (by decide) rfl
  · have rounded : Rounding.nearest.single? ⟨false, 70385306, 7, some (-26)⟩ =
        some (.ofBits .single 0x15ae43fd) := by
      decide +kernel
    have reads : Reads (constant .nearest) long close :=
      Json.reads_constant_of fun _ => .content rfl (.map (.leaf (by decide) rounded) _)
    exact reads.decode (by decide)
  · have finite : (Binary.ofBits .single 0x15ae43fd).isFinite = true := by decide
    rw [restores_single_iff finite, kept_single_iff finite]
    exact fun other => other rfl
  · have rounded : Rounding.arithmetic.double? ⟨false, 1, 0, some (-287)⟩ =
        some (.ofBits .double 0x04585d003f6488ae) := by
      decide +kernel
    have reads : Reads (constant .arithmetic) power coarse :=
      Json.reads_constant_of fun _ => .content rfl (.map (.leaf (by decide) rounded) _)
    exact reads.decode (by decide)
  · have finite : (Binary.ofBits .double 0x04585d003f6488ae).isFinite = true := by decide
    rw [restores_double_iff finite]
    show ¬Rounding.arithmetic.double? _ = _
    decide +kernel

end Reader

end SignatureText
