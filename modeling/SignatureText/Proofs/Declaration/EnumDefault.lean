/-
**Default arguments of enum parameters.**

The default argument of an enum parameter is read as a value of the parameter's own enum type. Only
its integer counts: whether it is an integer or an enum value, and of which types, is not looked at.

* `Constant.integral?` — what is taken from a default argument, if it has an integer.
* `Style.defaultLiteral_of_integral`, `Style.defaultLiteral_of_other` — **the literal is that of the
  enum value, or there is none.**
* `Style.defaultSuffix_of_enum` — the theorem: what stands behind the declaration. A missing literal
  is replaced by the loose text of the argument as it was given, and not of what it was read as.
-/

import SignatureText.Proofs.Declaration.Parameter
import SignatureText.Proofs.Literal.EnumValue

namespace SignatureText

/-- The value of an integer, and of an enum value whatever its type is. -/
def Constant.integral? : Constant → Option Integral
  | integer n => some n
  | enumMember _ n => some n
  | null | bool _ | char _ | string _ | single _ | double _ | decimal _ | typeOf _ | array _ _ =>
      none

theorem TypeRef.enum?_of_shape {type : TypeRef} {enumType : EnumType}
    (shape : type.shape = .enum enumType) : type.enum? = some enumType := by
  rw [enum?, shape]

namespace Style

variable {parameter : Parameter} {type : EnumType} {value : Constant}

/-- **A default argument with an integer is the enum value of that integer.** -/
theorem defaultLiteral_of_integral (enum : parameter.type.shape = .enum type) {n : Integral}
    (number : value.integral? = some n) :
    defaultLiteral parameter value = Literal.constant (.enumMember type n) := by
  unfold defaultLiteral
  rw [TypeRef.enum?_of_shape enum, Literal.constant]
  cases value with
  | integer | enumMember =>
      cases number
      rfl
  | _ => cases number

/-- **A default argument without an integer has no literal**, unless it is null. -/
theorem defaultLiteral_of_other (enum : parameter.type.shape = .enum type)
    (other : value.integral? = none) (notNull : value ≠ .null) :
    defaultLiteral parameter value =
      .error (.unsupported (.enumDefault value.shape type.name)) := by
  unfold defaultLiteral
  rw [TypeRef.enum?_of_shape enum]
  cases value with
  | null => exact absurd rfl notNull
  | integer | enumMember => cases other
  | _ => rfl

/--
**The default argument of an enum parameter.** One with an integer that the underlying type holds is
written as the enum value of that integer is, whatever types the argument has of its own. If the
underlying type does not hold it, the strict style refuses it as it refuses that enum value, and
best effort writes the loose text of the argument as it was given. Any other default argument but
null has no literal here, and is refused for its shape, whatever its own literal is.
-/
theorem defaultSuffix_of_enum (style : Style) {parameter : Parameter} {type : EnumType}
    {value : Constant} (enum : parameter.type.shape = .enum type)
    (given : parameter.defaultArgument = some value)
    (allowed : parameter.passing.allowsDefault = true) :
    (∀ n m : Integral, value.integral? = some n → m.value = n.value →
      (type.underlying.Holds n.value →
        ∃ text, style.constant (.enumMember type m) = .ok text ∧
          style.defaultSuffix parameter = .ok (" = " ++ text)) ∧
      (¬type.underlying.Holds n.value →
        ∃ refusal, Literal.constant (.enumMember type m) = .error refusal ∧
          (style.leniency = .strict → style.defaultSuffix parameter = .error refusal) ∧
          (style.leniency = .bestEffort →
            style.defaultSuffix parameter = .ok (" = " ++ Literal.loose value)))) ∧
    (value.integral? = none → value ≠ .null →
      ∃ cause : Unsupported, cause.shape = value.shape ∧
        cause.reason = "not an integral default for enum " ++ type.name ∧
        (style.leniency = .strict →
          style.defaultSuffix parameter = .error (.unsupported cause)) ∧
        (style.leniency = .bestEffort →
          style.defaultSuffix parameter = .ok (" = " ++ Literal.loose value))) := by
  refine ⟨fun n m number same => ?_, fun other notNull => ?_⟩
  · have read : defaultLiteral parameter value = Literal.constant (.enumMember type m) := by
      rw [defaultLiteral_of_integral enum number, Literal.constant, Literal.constant,
        Literal.enumValue_congr type same]
    cases written : Literal.constant (.enumMember type m) with
    | ok text =>
        have holds : type.underlying.Holds m.value := by
          rw [Literal.constant] at written
          exact (Literal.enumValue_eq_ok_iff.mp written).1
        refine ⟨fun _ => ⟨text, ?_, ?_⟩, fun beyond => absurd (same ▸ holds) beyond⟩
        · rw [constant, written]
          rfl
        · exact style.defaultSuffix_of_literal given allowed (read.trans written)
    | error refusal =>
        obtain ⟨cause, rfl⟩ := Literal.refusal_of_constant written
        have beyond : ¬type.underlying.Holds m.value := by
          rw [Literal.constant] at written
          exact (Literal.enumValue_eq_error_iff.mp written).1
        refine ⟨fun holds => absurd (same ▸ holds) beyond, fun _ => ⟨_, rfl, ?_⟩⟩
        exact style.defaultSuffix_of_cause given allowed (read.trans written)
  · exact ⟨_, rfl, rfl,
      style.defaultSuffix_of_cause given allowed (defaultLiteral_of_other enum other notNull)⟩

/--
The default argument is a value of another enum type, of another integral type. As long as `Color`
holds its integer, that type does not show; beyond it only the loose text has it. A text has no
literal here, though it has one elsewhere.
-/
theorem defaultSuffix_of_enum_color :
    let strict : Style := {}
    let lenient : Style := { leniency := .bestEffort }
    let color : EnumType := ⟨"Color", .sbyte, [⟨"Red", ⟨.sbyte, 1, by decide⟩⟩]⟩
    let tint := Parameter.ofType "Tint" (.enum color)
    let other (n : Integral) := Constant.enumMember (.empty "Other" .ulong) n
    let one := other ⟨.ulong, 1, by decide⟩
    let wide := other ⟨.ulong, 300, by decide⟩
    tint.type.shape = .enum color ∧ tint.passing.allowsDefault = true ∧
      strict.defaultSuffix (tint.withDefault one) = .ok " = Color.Red" ∧
      strict.defaultSuffix (tint.withDefault wide) =
        .error (.unsupported (.enumValue 300 .sbyte "Color")) ∧
      lenient.defaultSuffix (tint.withDefault wide) = .ok " = (Other)(300)" ∧
      Literal.constant (.string "Red") = .ok "\x22Red\x22" ∧
      ∃ cause, cause.shape = .string ∧
        strict.defaultSuffix (tint.withDefault (.string "Red")) = .error (.unsupported cause) := by
  intro strict lenient color tint other one wide
  have small : color.underlying.Holds 1 := by decide
  have beyond : ¬color.underlying.Holds 300 := by decide
  have ofOne := (@defaultSuffix_of_enum strict (tint.withDefault one) color one rfl rfl rfl).1
  have ofWide := (@defaultSuffix_of_enum strict (tint.withDefault wide) color wide rfl rfl rfl).1
  have ofLenient :=
    (@defaultSuffix_of_enum lenient (tint.withDefault wide) color wide rfl rfl rfl).1
  have ofText := (@defaultSuffix_of_enum strict (tint.withDefault (.string "Red")) color
    (.string "Red") rfl rfl rfl).2
  obtain ⟨text, literal, written⟩ := (ofOne _ _ rfl rfl).1 small
  obtain ⟨refusal, missing, refused, _⟩ := (ofWide _ _ rfl rfl).2 beyond
  obtain ⟨_, _, _, loose⟩ := (ofLenient _ _ rfl rfl).2 beyond
  obtain ⟨cause, shape, _, refusedText, _⟩ := ofText rfl Constant.noConfusion
  obtain rfl : "Color.Red" = text := Except.ok.inj literal
  obtain rfl : _ = refusal := Except.error.inj missing
  exact ⟨rfl, rfl, written, refused rfl, (loose rfl).trans (by decide), by decide, cause, shape,
    refusedText rfl⟩

end Style

end SignatureText
