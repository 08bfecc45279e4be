/-
**Where integral values come from.**

* `Constant.integrals` and its siblings — all integral values in a part of the model, at any depth:
  arguments, defaults, elements of arrays, and the members of all enum types that are referred to.
* `Reader.Traces` — every integral value in what a reader gives is described somewhere in the tree
  that was read, with a rule for each way of putting readers together.
* `Reader.callable_traces` — **so it is for everything that is decoded**, level by level; constants
  by the number of levels that are left.
* `integrals_exact` — **no integral value is out of range, however it was made**, and none was made
  to fit.
-/

import SignatureText.Proofs.Model.Integral
import SignatureText.Proofs.Wire.NormalForm

namespace SignatureText

/-! ### Integral values at any depth -/

/-- The integral values of the members of an enum type. -/
def EnumType.integrals (type : EnumType) : List Integral :=
  type.members.map EnumMember.value

/-- The integral values of the enum type that is referred to, if it is one. -/
def TypeRef.integrals (type : TypeRef) : List Integral :=
  type.enum?.toList.flatMap EnumType.integrals

namespace Constant

mutual

/-- All integral values in a constant. -/
def integrals : Constant → List Integral
  | integer n => [n]
  | enumMember type n => type.integrals ++ [n]
  | typeOf type => type.integrals
  | array type elements => type.integrals ++ allIntegrals elements
  | null | bool _ | char _ | string _ | single _ | double _ | decimal _ => []

/-- All integral values in a list of constants. -/
def allIntegrals : List Constant → List Integral
  | [] => []
  | c :: cs => integrals c ++ allIntegrals cs

end

theorem allIntegrals_eq (cs : List Constant) : allIntegrals cs = cs.flatMap integrals := by
  induction cs with
  | nil => rfl
  | cons c cs ih => rw [allIntegrals, ih, List.flatMap_cons]

end Constant

/-- All integral values in an attribute. -/
def Attribute.integrals (attr : Attribute) : List Integral :=
  attr.type.toList.flatMap TypeRef.integrals ++ attr.positional.flatMap Constant.integrals ++
    attr.named.flatMap fun argument => argument.2.integrals

/-- All integral values in a parameter. -/
def Parameter.integrals (parameter : Parameter) : List Integral :=
  parameter.type.integrals ++ parameter.attributes.flatMap Attribute.integrals ++
    parameter.defaultArgument.toList.flatMap Constant.integrals

/-- All integral values in a callable. -/
def Callable.integrals (callable : Callable) : List Integral :=
  callable.parameters.flatMap Parameter.integrals

/-! ### Descriptions in trees -/

namespace Json

/-- A tree stands within a tree: it is the tree itself or stands within one of its parts. -/
inductive Within (part : Json) : Json → Prop where
  | self : Within part part
  | child {below whole : Json} (inside : below ∈ whole.children) (within : Within part below) :
      Within part whole

/-- Somewhere in the tree a description stands that names the type and holds the integer. -/
def Describes (j : Json) (n : Integral) : Prop :=
  ∃ part, Within part j ∧ ∃ levels d, Reader.description levels part = .ok d ∧
    d.resolveType = .ok n.type ∧ d.value = n.value

/-- What a part describes, the whole does. -/
theorem Describes.child {below whole : Json} {n : Integral} (inside : below ∈ whole.children)
    (describes : below.Describes n) : whole.Describes n := by
  obtain ⟨part, within, given⟩ := describes
  exact ⟨part, within.child inside, given⟩

end Json

namespace Reader

variable {α β : Type}

/-! ### What a reader traces -/

/-- Every integral value in what the reader gives is described in the tree. -/
def Traces (read : Reader α) (integrals : α → List Integral) : Prop :=
  ∀ levels j v, read levels j = .ok v → ∀ n ∈ integrals v, j.Describes n

end Reader

namespace Variant

variable {α : Type}

/-- Every integral value in what the variant stands for is described in the tree behind its name. -/
def Traces : Variant α → (α → List Integral) → Prop
  | unit value, integrals => integrals value = []
  | content read, integrals => read.Traces integrals

end Variant

namespace Reader

variable {α β : Type}

namespace Traces

variable {read : Reader α} {integrals : α → List Integral}

/-- Where there are no integral values there is nothing to be described. -/
theorem of_nil (none : ∀ v, integrals v = []) : read.Traces integrals := by
  intro levels j v _ n member
  rw [none] at member
  cases member

theorem map {make : β → α} {other : Reader β}
    (traces : other.Traces fun b => integrals (make b)) : (other.map make).Traces integrals := by
  intro levels j v result
  obtain ⟨b, found, rfl⟩ := map_eq_ok_iff.mp result
  exact traces levels j b found

theorem optional (traces : read.Traces integrals) :
    read.optional.Traces fun v => v.toList.flatMap integrals := by
  intro levels j v result n member
  obtain ⟨a, present, inside⟩ := List.mem_flatMap.mp member
  have read := exists_of_optional_eq_ok result a (Option.mem_toList.mp present)
  exact traces levels j a read n inside

theorem list (traces : read.Traces integrals) :
    (list read).Traces fun v => v.flatMap integrals := by
  intro levels j v result n member
  obtain ⟨a, present, inside⟩ := List.mem_flatMap.mp member
  obtain ⟨below, items⟩ := exists_of_list_eq_ok result
  obtain ⟨item, standing, given⟩ := items a present
  exact (traces below item a given n inside).child standing

theorem pair {first : Reader β} (traces : read.Traces integrals) :
    (pair first read).Traces fun v => integrals v.2 := by
  intro levels j v result n member
  obtain ⟨below, item, standing, given⟩ := exists_of_pair_eq_ok result
  exact (traces below item v.2 given n member).child standing

theorem choice {variants : List (String × Variant α)}
    (traces : ∀ variant ∈ variants, variant.2.Traces integrals) :
    (choice variants).Traces integrals := by
  intro levels j v result n member
  obtain ⟨name, unit | ⟨read, content, below, part, standing, given⟩⟩ :=
    exists_of_choice_eq_ok result
  · have none : integrals v = [] := traces _ unit
    rw [none] at member
    cases member
  · exact (traces _ content below part v given n member).child standing

/-- A record traces what each of its fields does. -/
theorem record {βs : List Type} {fields : Fields βs} {make : Row βs → α}
    (distinct : fields.names.Nodup)
    (traces : ∀ levels sources row, fields.Gives levels sources row →
      ∀ n ∈ integrals (make row), ∃ j ∈ sources, j.Describes n) :
    (record fields make).Traces integrals := by
  intro levels j v result
  obtain ⟨below, row, rfl, gives⟩ := exists_row_of_record_eq_ok distinct result
  intro n member
  obtain ⟨source, inside, describes⟩ := traces below _ row gives n member
  exact describes.child inside

/-! Fields, by what stands for their absence. -/

variable {name : String} {levels : Nat} {sources : List Json}

theorem required (traces : read.Traces integrals) {value : α}
    (given : (RecordField.required name read).Gives levels sources value) :
    ∀ n ∈ integrals value, ∃ j ∈ sources, j.Describes n := by
  rcases given with ⟨j, inside, read⟩ | absent | absent
  · exact fun n member => ⟨j, inside, traces levels j value read n member⟩
  · cases absent
  · cases absent

theorem withDefault (traces : read.Traces integrals) {value default : α}
    (none : integrals default = [])
    (given : (RecordField.withDefault name read default).Gives levels sources value) :
    ∀ n ∈ integrals value, ∃ j ∈ sources, j.Describes n := by
  have usual (absent : some default = some value) : integrals value = [] :=
    Option.some.inj absent ▸ none
  rcases given with ⟨j, inside, read⟩ | absent | absent
  · exact fun n member => ⟨j, inside, traces levels j value read n member⟩
  · simp [usual absent]
  · simp [usual absent]

theorem nullable (traces : read.Traces integrals) {value : Option α}
    (given : (RecordField.nullable name read).Gives levels sources value) :
    ∀ n ∈ value.toList.flatMap integrals, ∃ j ∈ sources, j.Describes n := by
  rcases given with ⟨j, inside, read⟩ | absent | absent
  · exact fun n member => ⟨j, inside, traces.optional levels j value read n member⟩
  · obtain rfl := Option.some.inj absent
    simp
  · cases absent

end Traces

/-! ### The readers of the model -/

theorem integral_traces : integral.Traces fun n => [n] := by
  intro levels j v result n member
  obtain rfl := List.mem_singleton.mp member
  obtain ⟨d, described, resolved⟩ := bind_eq_ok_iff.mp result
  refine ⟨j, .self, levels, d, described, Integral.Description.resolve_eq_ok_iff.mp ?_⟩
  cases outcome : d.resolve with
  | error fault =>
      rw [outcome] at resolved
      cases resolved
  | ok m =>
      rw [outcome] at resolved
      cases resolved
      rfl

theorem enumMember_traces : enumMember.Traces fun member => [member.value] := by
  refine .record (by decide) ?_
  rintro levels sources ⟨name, value, ⟨⟩⟩ ⟨-, given, -⟩
  exact integral_traces.required given

theorem enumType_traces : enumType.Traces EnumType.integrals := by
  refine .record (by decide) ?_
  rintro levels sources ⟨name, underlying, members, ⟨⟩⟩ ⟨-, -, given, -⟩
  have traced := enumMember_traces.list.withDefault rfl given
  rwa [← List.map_eq_flatMap] at traced

theorem typeShape_traces : typeShape.Traces fun shape => (TypeRef.mk "" shape).integrals := by
  refine .choice ?_
  simp only [List.forall_mem_cons, List.not_mem_nil, false_imp_iff, implies_true, and_true]
  refine ⟨rfl, rfl, .map ?_⟩
  simpa [TypeRef.integrals, TypeRef.enum?] using enumType_traces

theorem typeRef_traces : typeRef.Traces TypeRef.integrals := by
  refine .record (by decide) ?_
  rintro levels sources ⟨name, shape, ⟨⟩⟩ ⟨-, given, -⟩
  exact typeShape_traces.withDefault rfl given

theorem enumConstant_traces : enumConstant.Traces Constant.integrals := by
  refine .record (by decide) ?_
  rintro levels sources ⟨type, value, ⟨⟩⟩ ⟨types, values, -⟩
  have types := enumType_traces.required types
  have values := integral_traces.required values
  rw [Constant.integrals, List.forall_mem_append]
  exact ⟨types, values⟩

theorem arrayConstant_traces {elements : Reader (List Constant)}
    (traces : elements.Traces fun cs => cs.flatMap Constant.integrals) :
    (arrayConstant elements).Traces Constant.integrals := by
  refine .record (by simp) ?_
  rintro levels sources ⟨type, cs, ⟨⟩⟩ ⟨types, items, -⟩
  have types := typeRef_traces.required types
  have items := traces.required items
  rw [Constant.integrals, Constant.allIntegrals_eq, List.forall_mem_append]
  exact ⟨types, items⟩

variable {rounding : Rounding}

theorem constantWith_traces {elements : Reader (List Constant)}
    (traces : elements.Traces fun cs => cs.flatMap Constant.integrals) :
    (constantWith rounding elements).Traces Constant.integrals := by
  refine .choice ?_
  simp only [List.forall_mem_cons, List.not_mem_nil, false_imp_iff, implies_true, and_true]
  -- Integers, enum members, types and arrays hold integral values, all other constants hold none.
  refine ⟨rfl, .map ?_, .map ?_, .map ?_, .map ?_, .map ?_, .map ?_, .map ?_, enumConstant_traces,
    .map ?_, arrayConstant_traces traces⟩
  · exact .of_nil fun _ => rfl
  · exact .of_nil fun _ => rfl
  · exact .of_nil fun _ => rfl
  · exact integral_traces
  · exact .of_nil fun _ => rfl
  · exact .of_nil fun _ => rfl
  · exact .of_nil fun _ => rfl
  · exact typeRef_traces

/-- **The integral values of a constant are described in its tree.** -/
theorem constant_traces : (constant rounding).Traces Constant.integrals := by
  intro levels
  -- The elements of an array are read with three levels less than the array.
  induction levels using Nat.strongRecOn with
  | ind levels ih =>
      rw [constant.eq_def]
      split
      · rename_i below
        exact constantWith_traces (.list fun _ => ih below (by omega)) _
      · refine constantWith_traces (fun _ _ _ given => ?_) _
        cases given

theorem attr_traces : (attr rounding).Traces Attribute.integrals := by
  refine .record (by simp) ?_
  rintro levels sources ⟨type, positional, named, ⟨⟩⟩ ⟨types, positionals, nameds, -⟩
  have types := typeRef_traces.nullable types
  have positionals := constant_traces.list.withDefault rfl positionals
  have nameds := (Traces.pair constant_traces).list.withDefault rfl nameds
  rw [Attribute.integrals, List.forall_mem_append, List.forall_mem_append]
  exact ⟨⟨types, positionals⟩, nameds⟩

theorem parameter_traces : (parameter rounding).Traces Parameter.integrals := by
  refine .record (by simp) ?_
  rintro levels sources ⟨name, type, isNullable, passing, isVariadic, attributes, default, ⟨⟩⟩
    ⟨-, types, -, -, -, attrs, defaults, -⟩
  have types := typeRef_traces.required types
  have attrs := attr_traces.list.withDefault rfl attrs
  have defaults := constant_traces.optional.withDefault rfl defaults
  rw [Parameter.integrals, List.forall_mem_append, List.forall_mem_append]
  exact ⟨⟨types, attrs⟩, defaults⟩

/-- **The integral values of a callable are described in its tree.** -/
theorem callable_traces : (callable rounding).Traces Callable.integrals := by
  refine .record (by simp) ?_
  rintro levels sources ⟨name, parameters, ⟨⟩⟩ ⟨-, given, -⟩
  exact parameter_traces.list.withDefault rfl given

/-! ### Decoding -/

/-- What is decoded holds only integral values in range, and each is described in the text. -/
def Attests (read : Reader α) (integrals : α → List Integral) : Prop :=
  ∀ text v, read.decode text = .ok v → ∀ n ∈ integrals v,
    n.type.Holds n.value ∧ (Json.scan text).1.Describes n

theorem Traces.attests {read : Reader α} {integrals : α → List Integral}
    (traces : read.Traces integrals) : read.Attests integrals := by
  intro text v decoded n member
  unfold decode at decoded
  generalize Json.scan text = scanned at decoded ⊢
  obtain ⟨tree, rest⟩ := scanned
  obtain ⟨value, result, ended⟩ := bind_eq_ok_iff.mp decoded
  split at ended
  · cases ended
    exact ⟨n.in_range, traces mostLevels tree _ result n member⟩
  · cases ended

end Reader

/-! ### No way around the bounds -/

/--
**An integer out of range is nowhere.** Every integral value at any depth of any part of the model
lies within the bounds of its type. Whatever makes one, from an integer, a machine integer, a
description or as a member of an enum type, keeps the integer as it is or refuses it as out of
range, and machine integers are just what is in range; what is decoded is described in the text; and
a chain of conversions gives the integer as a value of the last type if all types hold it, and
otherwise names the first that does not.
-/
theorem integrals_exact :
    ((∀ v : Callable, ∀ n ∈ v.integrals, n.type.Holds n.value) ∧
      (∀ v : Parameter, ∀ n ∈ v.integrals, n.type.Holds n.value) ∧
      (∀ v : Attribute, ∀ n ∈ v.integrals, n.type.Holds n.value) ∧
      (∀ v : Constant, ∀ n ∈ v.integrals, n.type.Holds n.value) ∧
      (∀ v : TypeRef, ∀ n ∈ v.integrals, n.type.Holds n.value) ∧
      ∀ v : EnumType, ∀ n ∈ v.integrals, n.type.Holds n.value) ∧
    ((∀ type i n, Integral.ofInt type i = .ok n ↔ type.Holds i ∧ n.type = type ∧ n.value = i) ∧
      (∀ type i fault, Integral.ofInt type i = .error fault ↔
        ¬type.Holds i ∧ fault = ⟨type, i⟩) ∧
      (∀ type word, Integral.ofInt type (type.wordValue word) = .ok (.ofWord type word)) ∧
      (∀ (type : IntegralType) i, type.Holds i ↔ ∃ word, type.wordValue word = i) ∧
      (∀ (d : Integral.Description) n, d.resolve = .ok n ↔
        d.resolveType = .ok n.type ∧ d.value = n.value) ∧
      (∀ (d : Integral.Description) fault, d.resolve = .error (.outOfRange fault) ↔
        d.resolveType = .ok fault.type ∧ d.value = fault.value ∧
          ¬fault.type.Holds fault.value) ∧
      (∀ (type : EnumType) name i type', type.addMember name i = .ok type' ↔
        ∃ holds : type.underlying.Holds i, type' =
          { type with members := type.members ++ [⟨name, ⟨type.underlying, i, holds⟩⟩] }) ∧
      ∀ (type : EnumType) name i fault, type.addMember name i = .error fault ↔
        ¬type.underlying.Holds i ∧ fault = ⟨type.underlying, i⟩) ∧
    ((∀ rounding, (Reader.callable rounding).Attests Callable.integrals ∧
        (Reader.parameter rounding).Attests Parameter.integrals ∧
        (Reader.attr rounding).Attests Attribute.integrals ∧
        (Reader.constant rounding).Attests Constant.integrals) ∧
      Reader.typeRef.Attests TypeRef.integrals ∧ Reader.enumType.Attests EnumType.integrals ∧
      Reader.integral.Attests fun n => [n]) ∧
    (∀ (n m : Integral) (types : List IntegralType), types.foldlM Integral.convert n = .ok m ↔
      (∀ type ∈ types, type.Holds n.value) ∧ m.type = types.getLastD n.type ∧
        m.value = n.value) ∧
    ∀ (n : Integral) (types : List IntegralType) fault,
      types.foldlM Integral.convert n = .error fault ↔
        types.find? (fun type => ¬type.Holds n.value) = some fault.type ∧ fault.value = n.value :=
  ⟨⟨fun _ n _ => n.in_range, fun _ n _ => n.in_range, fun _ n _ => n.in_range,
      fun _ n _ => n.in_range, fun _ n _ => n.in_range, fun _ n _ => n.in_range⟩,
    ⟨fun _ _ _ => Integral.ofInt_eq_ok_iff, fun _ _ _ => Integral.ofInt_eq_error_iff,
      Integral.ofInt_wordValue, fun _ _ => IntegralType.holds_iff_exists_word,
      fun _ _ => Integral.Description.resolve_eq_ok_iff,
      fun _ _ => Integral.Description.resolve_eq_outOfRange_iff,
      fun _ _ _ _ => EnumType.addMember_eq_ok_iff,
      fun _ _ _ _ => EnumType.addMember_eq_error_iff⟩,
    ⟨fun _ => ⟨Reader.callable_traces.attests, Reader.parameter_traces.attests,
        Reader.attr_traces.attests, Reader.constant_traces.attests⟩,
      Reader.typeRef_traces.attests, Reader.enumType_traces.attests,
      Reader.integral_traces.attests⟩,
    fun _ _ _ => Integral.foldlM_convert_eq_ok_iff,
    fun _ _ _ => Integral.foldlM_convert_eq_error_iff⟩

/-- An element of a nested array, described by its width and its sign, and then converted. -/
theorem integrals_exact_nested :
    let bytes := Json.record [("element_type", .list [.ofString "byte"]), ("elements", .list
      [.record [("integer", .list [.null, .number (.ofInt 8), .bool false,
        .number (.ofInt 200)])]])]
    let text := (Json.record [("array", .list [.list [.ofString "byte[]"], .list
      [.record [("array", bytes)]]])]).toText
    let n : Integral := ⟨.byte, 200, by decide⟩
    let v : Constant := .array (.reference "byte[]") [.array (.reference "byte") [.integer n]]
    ((Reader.constant .arithmetic).decode text = .ok v ∧ n ∈ v.integrals) ∧
      n.type.Holds n.value ∧
      (Json.scan text).1.Describes n ∧
      [IntegralType.ushort, .sbyte, .int].foldlM Integral.convert n = .error ⟨.sbyte, 200⟩ := by
  intro bytes text n v
  have decoded : (Reader.constant .arithmetic).decode text = .ok v :=
    (Reader.holds_toText (by decide)).decode.mpr rfl
  have member : n ∈ v.integrals := by
    simp [v, Constant.integrals, Constant.allIntegrals, TypeRef.integrals, TypeRef.enum?,
      TypeRef.reference]
  obtain ⟨-, -, ⟨decoding, -⟩, -, first⟩ := integrals_exact
  obtain ⟨-, -, -, constant⟩ := decoding .arithmetic
  obtain ⟨holds, described⟩ := constant text v decoded n member
  exact ⟨⟨decoded, member⟩, holds, described, (first n _ _).mpr ⟨by decide, rfl⟩⟩

end SignatureText
