/-
**Two ways to say that a parameter can be null.**

A parameter can be null by a flag of its own or by a mark at the end of its type's text. A
declaration shows the mark in either case and never shows it twice, so the two cannot be told apart
in what is written.

* `Parameter.flagAsMark` — the parameter with its flag turned into a mark.
* `Style.parameter_flagAsMark`, `Style.defaultSuffix_flagAsMark` — **nothing that is written of a
  parameter changes**: the declaration looks at the type's text with its mark only, and a default
  argument of null at whether there is one.
* `Generator.signature_map_flagAsMark` — so no signature does, by induction on the parameters.
* `Parameter.NullableForm.flagAsMark_eq` — the flag, the mark and both become the same parameter.
* `Generator.nullable_forms_agree` — the theorem, with what null is by default.
-/

import Mathlib.Data.List.Forall2
import SignatureText.Proofs.Declaration.Parameter
import SignatureText.Signature

namespace SignatureText

namespace Parameter

variable (parameter : Parameter)

/-- The parameter with one more mark at the end of its type's text. -/
def marked : Parameter :=
  { parameter with type := { parameter.type with name := parameter.type.name.push nullableMark } }

/-- The parameter with the type's text as it is declared, and no flag. -/
def flagAsMark : Parameter :=
  { parameter with
    type := { parameter.type with name := parameter.typeText }
    isNullable := false }

/-- The ways to say that a parameter can be null: by a flag, by a mark and by both. -/
inductive NullableForm : Parameter → Prop where
  | flag : NullableForm (parameter.withNullable true)
  | mark : NullableForm (parameter.marked.withNullable false)
  | both : NullableForm (parameter.marked.withNullable true)

/-! ### The type's text -/

/-- **A declared type ends in a mark** exactly if the parameter has the flag or the mark. -/
theorem isMarked_typeText :
    (⟨parameter.typeText, parameter.type.shape⟩ : TypeRef).isMarked =
      (parameter.isNullable || parameter.type.isMarked) := by
  unfold typeText
  by_cases added : parameter.isNullable && !parameter.type.isMarked
  · obtain ⟨flag, -⟩ := Bool.and_eq_true_iff.mp added
    rw [if_pos added, flag]
    simp [TypeRef.isMarked]
  · rw [if_neg added]
    show parameter.type.isMarked = _
    cases flag : parameter.isNullable <;> cases mark : parameter.type.isMarked <;>
      simp [flag, mark] at added ⊢

theorem typeText_flagAsMark : parameter.flagAsMark.typeText = parameter.typeText :=
  if_neg Bool.false_ne_true

theorem acceptsNull_eq :
    parameter.acceptsNull = (!parameter.type.isValueType ||
      (⟨parameter.typeText, parameter.type.shape⟩ : TypeRef).isMarked) := by
  rw [isMarked_typeText, acceptsNull, Bool.or_assoc]

theorem acceptsNull_flagAsMark : parameter.flagAsMark.acceptsNull = parameter.acceptsNull := by
  rw [acceptsNull_eq, acceptsNull_eq, typeText_flagAsMark]
  rfl

variable {parameter}

/-- What admits null can be read off the declared type, if it is not a reference type. -/
theorem acceptsNull_iff :
    parameter.acceptsNull = true ↔
      parameter.type.shape = .reference ∨ ∃ stem, parameter.typeText = stem ++ "?" := by
  rw [acceptsNull_eq, Bool.or_eq_true, TypeRef.isMarked_iff, TypeRef.isValueType]
  cases parameter.type.shape <;> simp

/-- **All three forms are the marked one**, once the flag is turned into a mark. -/
theorem NullableForm.flagAsMark_eq {written : Parameter}
    (unmarked : parameter.type.isMarked = false) (form : parameter.NullableForm written) :
    written.flagAsMark = parameter.marked.withNullable false := by
  have mark : parameter.marked.type.isMarked = true := by simp [marked, TypeRef.isMarked]
  cases form with
  | flag => simp [flagAsMark, typeText, withNullable, marked, unmarked]
  | mark => simp [flagAsMark, typeText, withNullable]
  | both => simp [flagAsMark, typeText, withNullable, mark]

/-- Two parameters are the same, or they say in two ways of one parameter that it can be null. -/
inductive Interchangeable : Parameter → Parameter → Prop where
  | same (parameter : Parameter) : Interchangeable parameter parameter
  | forms {plain first second : Parameter} (unmarked : ¬∃ stem, plain.type.name = stem ++ "?")
      (one : plain.NullableForm first) (other : plain.NullableForm second) :
      Interchangeable first second

theorem Interchangeable.flagAsMark_eq {first second : Parameter}
    (alike : Interchangeable first second) : first.flagAsMark = second.flagAsMark := by
  cases alike with
  | same => rfl
  | forms unmarked one other =>
      rw [← TypeRef.isMarked_iff, Bool.not_eq_true] at unmarked
      rw [one.flagAsMark_eq unmarked, other.flagAsMark_eq unmarked]

end Parameter

theorem map_flagAsMark_eq {parameters others : List Parameter}
    (alike : List.Forall₂ Parameter.Interchangeable parameters others) :
    parameters.map Parameter.flagAsMark = others.map Parameter.flagAsMark := by
  induction alike with
  | nil => rfl
  | cons head _ ih => rw [List.map_cons, List.map_cons, head.flagAsMark_eq, ih]

/-! ### Declarations -/

namespace Style

variable (style : Style) (parameter : Parameter)

theorem defaultText_flagAsMark (value : Constant) :
    style.defaultText parameter.flagAsMark value = style.defaultText parameter value := by
  unfold defaultText
  rw [parameter.acceptsNull_flagAsMark]
  rfl

theorem defaultSuffix_flagAsMark :
    style.defaultSuffix parameter.flagAsMark = style.defaultSuffix parameter := by
  unfold defaultSuffix
  simp only [defaultText_flagAsMark]
  rfl

/-- **A declaration is the same with the flag turned into a mark.** -/
theorem parameter_flagAsMark :
    style.parameter parameter.flagAsMark = style.parameter parameter := by
  unfold Style.parameter
  rw [defaultSuffix_flagAsMark, parameter.typeText_flagAsMark]
  rfl

theorem argument_flagAsMark : style.argument parameter.flagAsMark = style.argument parameter := rfl

variable {parameter}

/-- A default argument of null has two spellings. -/
theorem defaultSuffix_null (given : parameter.defaultArgument = some .null)
    (allowed : parameter.passing.allowsDefault = true) :
    style.defaultSuffix parameter =
      .ok (if parameter.acceptsNull then " = null" else " = default") := by
  have literal : defaultLiteral parameter .null =
      .ok (if parameter.acceptsNull then "null" else "default") := rfl
  rw [style.defaultSuffix_of_literal given allowed literal]
  cases parameter.acceptsNull <;> rfl

/-- A declaration has the declared type between its modifier and its name. -/
theorem parameter_eq_ok_iff {suffix declaration : String}
    (default : style.defaultSuffix parameter = .ok suffix) :
    style.parameter parameter = .ok declaration ↔
      ∃ front, style.attributes parameter.attributes = .ok front ∧
        declaration = front ++ parameter.modifier ++ parameter.typeText ++ " " ++
          style.bindingName parameter.name ++ suffix := by
  unfold Style.parameter
  rw [bind_eq_ok_iff, default]
  simp [eq_comm]

end Style

/-! ### Signatures -/

theorem variadicFault?_map_flagAsMark (parameters : List Parameter) :
    variadicFault? (parameters.map Parameter.flagAsMark) = variadicFault? parameters := by
  induction parameters with
  | nil => rfl
  | cons parameter rest ih =>
      rw [List.map_cons, variadicFault?, variadicFault?, ih, List.isEmpty_map]
      rfl

namespace Generator

variable (generator : Generator)

theorem parts_map_flagAsMark (parameters : List Parameter) :
    generator.parts (parameters.map Parameter.flagAsMark) = generator.parts parameters := by
  induction parameters with
  | nil => rfl
  | cons parameter rest ih =>
      rw [List.map_cons, parts, parts, ih, Style.parameter_flagAsMark, Style.argument_flagAsMark]
      rfl

/-- **A signature is the same with all flags turned into marks.** -/
theorem signature_map_flagAsMark (requested : Option String) (parameters : List Parameter) :
    generator.signature ⟨requested, parameters.map Parameter.flagAsMark⟩ =
      generator.signature ⟨requested, parameters⟩ := by
  unfold signature
  simp only [variadicFault?_map_flagAsMark, parts_map_flagAsMark]

/--
**The flag and the mark are interchangeable.** Whether a parameter whose type has no mark can be
null is said by the flag, by the mark or by both; the declaration, the default argument, the
argument that forwards it and every signature with such parameters are the same in all three cases,
refusals included. A default argument of null is written `null` exactly for reference types and
where the type ends in a mark as it stands in the declaration, and `default` for all others.
-/
theorem nullable_forms_agree :
    (∀ first second, Parameter.Interchangeable first second → ∀ style : Style,
      style.parameter first = style.parameter second ∧
        style.defaultSuffix first = style.defaultSuffix second ∧
        style.argument first = style.argument second) ∧
    (∀ (generator : Generator) requested parameters others,
      List.Forall₂ Parameter.Interchangeable parameters others →
      generator.signature ⟨requested, parameters⟩ = generator.signature ⟨requested, others⟩) ∧
    ∀ (style : Style) (parameter : Parameter),
      parameter.defaultArgument = some .null → parameter.passing.allowsDefault = true →
      ∃ suffix, style.defaultSuffix parameter = .ok suffix ∧
        (suffix = " = null" ∨ suffix = " = default") ∧
        (suffix = " = null" ↔
          parameter.type.shape = .reference ∨ ∃ stem, parameter.typeText = stem ++ "?") ∧
        ∀ declaration, style.parameter parameter = .ok declaration ↔
          ∃ front, style.attributes parameter.attributes = .ok front ∧
            declaration = front ++ parameter.modifier ++ parameter.typeText ++ " " ++
              style.bindingName parameter.name ++ suffix := by
  refine ⟨fun first second alike style => ?_, fun generator requested parameters others alike => ?_,
    fun style parameter given allowed => ?_⟩
  · rw [← style.parameter_flagAsMark first, ← style.defaultSuffix_flagAsMark first,
      ← style.argument_flagAsMark first, alike.flagAsMark_eq, style.parameter_flagAsMark,
      style.defaultSuffix_flagAsMark, style.argument_flagAsMark]
    exact ⟨rfl, rfl, rfl⟩
  · rw [← generator.signature_map_flagAsMark, map_flagAsMark_eq alike,
      generator.signature_map_flagAsMark]
  · have default := style.defaultSuffix_null given allowed
    refine ⟨_, default, ?_, ?_, fun declaration => style.parameter_eq_ok_iff default⟩
    · cases parameter.acceptsNull <;> simp
    · rw [← Parameter.acceptsNull_iff]
      cases parameter.acceptsNull <;> simp

/--
A marked `int?`, a flagged `int` and one with both are declared alike and null by default; without
flag and mark the default of the same parameter is not null. In a callable the three can be
exchanged one by one.
-/
theorem nullable_forms_agree_size :
    let style : Style := {}
    let generator : Generator := {}
    let size := (Parameter.ofType "Size" (.value "int")).withDefault .null
    let flag := size.withNullable true
    let mark := size.marked.withNullable false
    let both := size.marked.withNullable true
    (¬∃ stem, size.type.name = stem ++ "?") ∧ style.parameter flag = style.parameter mark ∧
      style.parameter both = style.parameter mark ∧
      generator.signature ⟨none, [flag, both, mark, size]⟩ =
        generator.signature ⟨none, [mark, flag, both, size]⟩ ∧
      style.defaultSuffix flag = .ok " = null" ∧ style.defaultSuffix size = .ok " = default" := by
  intro style generator size flag mark both
  have unmarked : ¬∃ stem, size.type.name = stem ++ "?" := by
    rw [← TypeRef.isMarked_iff]
    decide
  obtain ⟨alike, signatures, null⟩ := nullable_forms_agree
  obtain ⟨suffix, flagged, _, spelled, _⟩ := null style flag rfl rfl
  obtain ⟨other, plain, either, spelledPlain, _⟩ := null style size rfl rfl
  obtain rfl : suffix = " = null" := spelled.mpr (.inr ⟨"int", by decide⟩)
  have notNull : other ≠ " = null" := by
    intro same
    rcases spelledPlain.mp same with reference | marked
    · cases reference
    · exact unmarked marked
  obtain rfl : other = " = default" := either.resolve_left notNull
  exact ⟨unmarked, (alike _ _ (.forms unmarked .flag .mark) style).1,
    (alike _ _ (.forms unmarked .both .mark) style).1,
    signatures _ _ _ _ (.cons (.forms unmarked .flag .mark) (.cons (.forms unmarked .both .flag)
      (.cons (.forms unmarked .mark .both) (.cons (.same size) .nil)))), flagged, plain⟩

end Generator

end SignatureText
