/-
**Decoding undoes encoding.**

The tree of every part of the model is read as that part, settled, so its text decodes to the part
itself where settling changes nothing: `Reads.undoes`. Numerals are taken to be read as the nearest
number of 64 bits, which is what gives all numbers of 64 bits back. What could be lost on the way is
left out by `Faithful`: numbers that are no numbers, numbers of 32 bits that a reader by way of the
nearest number of 64 bits would change, and the sign of a decimal zero.
-/

import SignatureText.Proofs.Wire.Settled

namespace SignatureText

open Reader (Reads)

/-! ### What JSON can hold -/

namespace Constant

mutual

/-- JSON holds all of the constant. -/
def Faithful : Constant → Prop
  | single x => x.isFinite = true ∧ x.SurvivesDouble
  | double x => x.isFinite = true
  | decimal d => d.negative = true → d.mantissa ≠ 0
  | array _ elements => AllFaithful elements
  | null | bool _ | char _ | string _ | integer _ | enumMember _ _ | typeOf _ => True

/-- JSON holds all of the constants. -/
def AllFaithful : List Constant → Prop
  | [] => True
  | c :: cs => Faithful c ∧ AllFaithful cs

end

end Constant

/-- JSON holds all arguments of the attribute. -/
def Attribute.Faithful (attr : Attribute) : Prop :=
  (∀ c ∈ attr.positional, c.Faithful) ∧ ∀ argument ∈ attr.named, argument.2.Faithful

/-- JSON holds all constants of the parameter. -/
def Parameter.Faithful (parameter : Parameter) : Prop :=
  (∀ attr ∈ parameter.attributes, attr.Faithful) ∧ ∀ c ∈ parameter.defaultArgument, c.Faithful

/-- JSON holds all constants of the callable. -/
def Callable.Faithful (callable : Callable) : Prop :=
  ∀ parameter ∈ callable.parameters, parameter.Faithful

/-! ### Faithful values are settled -/

namespace Constant

mutual

/-- JSON holds all of each part. -/
theorem Faithful.of_mem_parts : (c : Constant) → c.Faithful → ∀ part ∈ c.parts, part.Faithful
  | .array type cs, faithful, part, member => by
      rw [parts, List.mem_cons] at member
      rcases member with rfl | inside
      · exact faithful
      · exact AllFaithful.of_mem_allParts cs faithful part inside
  | .null, faithful, part, member | .bool _, faithful, part, member
  | .char _, faithful, part, member | .string _, faithful, part, member
  | .integer _, faithful, part, member | .single _, faithful, part, member
  | .double _, faithful, part, member | .decimal _, faithful, part, member
  | .enumMember _ _, faithful, part, member | .typeOf _, faithful, part, member => by
      rw [parts, List.mem_singleton] at member
      rwa [member]

theorem AllFaithful.of_mem_allParts : (cs : List Constant) → AllFaithful cs →
    ∀ part ∈ allParts cs, part.Faithful
  | [], _, _, member => by cases member
  | c :: cs, faithful, part, member => by
      rw [allParts, List.mem_append] at member
      rcases member with own | other
      · exact Faithful.of_mem_parts c faithful.1 part own
      · exact AllFaithful.of_mem_allParts cs faithful.2 part other

end

/-- By the nearest number a reader gives back what JSON holds. -/
theorem Faithful.held {c : Constant} (faithful : c.Faithful) : c.Held .nearest := by
  cases c with
  | single x =>
      obtain ⟨finite, survives⟩ := faithful
      exact ⟨finite, (Rounding.nearest_single?_numeral_iff finite).mpr survives⟩
  | double x => exact ⟨faithful, Rounding.nearest_double?_numeral faithful⟩
  | _ => exact ⟨trivial, trivial⟩

theorem Faithful.signless {c : Constant} (faithful : c.Faithful) : c.Signless := by
  cases c with
  | decimal d => exact faithful
  | _ => trivial

end Constant

theorem Attribute.Faithful.of_mem_parts {attr : Attribute} (faithful : attr.Faithful) :
    ∀ part ∈ attr.parts, part.Faithful := by
  intro part member
  rw [parts, List.mem_append, List.mem_flatMap, List.mem_flatMap] at member
  rcases member with ⟨c, positional, inside⟩ | ⟨argument, named, inside⟩
  · exact Constant.Faithful.of_mem_parts c (faithful.1 c positional) part inside
  · exact Constant.Faithful.of_mem_parts _ (faithful.2 argument named) part inside

theorem Parameter.Faithful.of_mem_parts {parameter : Parameter} (faithful : parameter.Faithful) :
    ∀ part ∈ parameter.parts, part.Faithful := by
  intro part member
  rw [parts, List.mem_append, List.mem_flatMap, List.mem_flatMap] at member
  rcases member with ⟨attr, attached, inside⟩ | ⟨c, default, inside⟩
  · exact (faithful.1 attr attached).of_mem_parts part inside
  · exact Constant.Faithful.of_mem_parts c (faithful.2 c (Option.mem_toList.mp default)) part inside

theorem Callable.Faithful.of_mem_parts {callable : Callable} (faithful : callable.Faithful) :
    ∀ part ∈ callable.parts, part.Faithful := by
  intro part member
  obtain ⟨parameter, inside, within⟩ := List.mem_flatMap.mp member
  exact (faithful parameter inside).of_mem_parts part within

namespace Json

theorem reads_constant (c : Constant) (faithful : c.Faithful) :
    Reads (Reader.constant .nearest) (ofConstant c) c := by
  have each := Constant.Faithful.of_mem_parts c faithful
  have reads := reads_constant_settled c fun part member => (each part member).held
  rwa [Constant.settled_eq_self c fun part member => (each part member).signless] at reads

theorem reads_attribute {attr : Attribute} (faithful : attr.Faithful) :
    Reads (Reader.attr .nearest) (ofAttribute attr) attr := by
  have each := faithful.of_mem_parts
  have reads := reads_attribute_settled fun part member => (each part member).held
  rwa [Attribute.settled_eq_self fun part member => (each part member).signless] at reads

theorem reads_parameter {parameter : Parameter} (faithful : parameter.Faithful) :
    Reads (Reader.parameter .nearest) (ofParameter parameter) parameter := by
  have each := faithful.of_mem_parts
  have reads := reads_parameter_settled fun part member => (each part member).held
  rwa [Parameter.settled_eq_self fun part member => (each part member).signless] at reads

theorem reads_callable {callable : Callable} (faithful : callable.Faithful) :
    Reads (Reader.callable .nearest) (ofCallable callable) callable := by
  have each := faithful.of_mem_parts
  have reads := reads_callable_settled fun part member => (each part member).held
  rwa [Callable.settled_eq_self fun part member => (each part member).signless] at reads

end Json

/-! ### Texts -/

/--
The text of a value decodes to the value, if no more arrays and objects stand within each other in
it than a reader opens.
-/
def Reader.Undoes {α : Type} (read : Reader α) (encode : α → Json) (v : α) : Prop :=
  (encode v).nesting ≤ 127 → decode read (encode v).toText = .ok v

theorem Reader.Reads.undoes {α : Type} {read : Reader α} {encode : α → Json} {v : α}
    (reads : Reads read (encode v) v) : read.Undoes encode v :=
  fun shallow => reads.decode shallow

/--
**Decoding undoes encoding**, for every part of the model whose constants JSON can hold, with
numerals read as the nearest numbers. The value comes back as it was: an absent default as absent,
and the default null as null.
-/
theorem Reader.decode_encode :
    (∀ v : Callable, v.Faithful → (Reader.callable .nearest).Undoes Json.ofCallable v) ∧
    (∀ v : Parameter, v.Faithful → (Reader.parameter .nearest).Undoes Json.ofParameter v) ∧
    (∀ v : Attribute, v.Faithful → (Reader.attr .nearest).Undoes Json.ofAttribute v) ∧
    (∀ v : TypeRef, Reader.typeRef.Undoes Json.ofTypeRef v) ∧
    (∀ v : EnumType, Reader.enumType.Undoes Json.ofEnumType v) ∧
    (∀ v : Constant, v.Faithful → (Reader.constant .nearest).Undoes Json.ofConstant v) ∧
    (∀ v : Integral, Reader.integral.Undoes Json.ofIntegral v) ∧
    ∀ v : Passing, Reader.passing.Undoes Json.ofPassing v :=
  ⟨fun _ faithful => (Json.reads_callable faithful).undoes,
    fun _ faithful => (Json.reads_parameter faithful).undoes,
    fun _ faithful => (Json.reads_attribute faithful).undoes,
    fun v => (Json.reads_typeRef v).undoes,
    fun v => (Json.reads_enumType v).undoes,
    fun v faithful => (Json.reads_constant v faithful).undoes,
    fun v => (Json.reads_integral v).undoes,
    fun v => (Json.reads_passing v).undoes⟩

/-- An attribute with a nested argument, a default that is null, and a default that is a number. -/
theorem Reader.decode_encode_glyph :
    let range : Attribute :=
      ⟨some (.reference "Range"), [.double (.ofBits .double 0x8000000000000000),
        .decimal ⟨true, 10, 2, by decide, by decide⟩],
        [("Names", .array (.reference "string") [.null, .string "a\x22\n"])]⟩
    let glyph : Callable :=
      ⟨some "Draw", [⟨"glyph", .reference "Glyph", true, .value, false, [range], some .null⟩,
        ⟨"scale", .value "float", false, .value, false, [],
          some (.single (.ofBits .single 0x3dcccccd))⟩,
        ⟨"rest", .reference "int[]", false, .value, true, [], none⟩]⟩
    (glyph.Faithful ∧ (Json.ofCallable glyph).nesting ≤ 127) ∧
      decode (callable .nearest) (Json.ofCallable glyph).toText = .ok glyph := by
  intro range glyph
  have survives : Binary.SurvivesDouble (.ofBits .single 0x3dcccccd) := by
    unfold Binary.SurvivesDouble
    decide +kernel
  have faithful : glyph.Faithful := by
    have finite : Binary.isFinite (.ofBits .double 0x8000000000000000) = true ∧
        Binary.isFinite (.ofBits .single 0x3dcccccd) = true := by decide
    simp [glyph, range, Callable.Faithful, Parameter.Faithful, Attribute.Faithful,
      Constant.Faithful, Constant.AllFaithful, survives, finite]
  have shallow : (Json.ofCallable glyph).nesting ≤ 127 := by decide
  exact ⟨⟨faithful, shallow⟩, Reader.decode_encode.1 glyph faithful shallow⟩

end SignatureText
