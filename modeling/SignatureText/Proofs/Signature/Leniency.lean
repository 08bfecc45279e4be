/-
**Best effort extends the strict style.**

The two styles part only where a constant has no literal: there the strict one refuses and the other
writes the constant's loose text. Every text of the strict style is therefore a text of the other,
at each of the four levels.

* `Style.constant_bestEffort`, `Style.exists_attributes_bestEffort` — its constants and its
  attribute lists are never refused: literals are refused for one kind of cause only, and best
  effort settles that kind.
* `Style.parameter_bestEffort_eq_error_iff` — a parameter is refused exactly for a default argument
  that its mode forbids; nothing settles that refusal.
* `Generator.parts_bestEffort` — over a whole list best effort leaves out no parameter that the
  strict style keeps, and where the strict style leaves out none, the texts agree.
* `Generator.skipped_signature_escapes` — marks on keywords change texts and never an outcome.
-/

import Mathlib.Data.List.Basic
import SignatureText.Proofs.Declaration.Parameter
import SignatureText.Proofs.Signature.Rejected

namespace SignatureText

namespace Style

/-! ### Two styles side by side -/

/-- The style that refuses a constant without a literal. -/
abbrev strict (escapes : Bool) : Style := ⟨.strict, escapes⟩

/-- The style that writes its loose text instead. -/
abbrev bestEffort (escapes : Bool) : Style := ⟨.bestEffort, escapes⟩

section BestEffort

variable {escapes : Bool}

/-- **Best effort never refuses a constant**: it has the literal or else the loose text. -/
theorem constant_bestEffort (c : Constant) :
    (bestEffort escapes).constant c =
      .ok (match (strict escapes).constant c with
        | .ok text => text
        | .error _ => Literal.loose c) := by
  unfold constant
  cases outcome : Literal.constant c with
  | ok text => rfl
  | error refusal =>
      obtain ⟨cause, rfl⟩ := Literal.refusal_of_constant outcome
      rfl

/-- A text that the strict style settles on is the text of best effort too. -/
theorem settle_bestEffort_of_strict {c : Constant} {outcome : Except Refusal String} {text : String}
    (settled : (strict escapes).settle c outcome = .ok text) :
    (bestEffort escapes).settle c outcome = .ok text := by
  cases outcome with
  | ok other => exact settled
  | error refusal => cases refusal <;> cases settled

theorem constant_bestEffort_of_strict {c : Constant} {text : String}
    (made : (strict escapes).constant c = .ok text) :
    (bestEffort escapes).constant c = .ok text :=
  settle_bestEffort_of_strict made

theorem namedArgument_bestEffort_of_strict {argument : String × Constant} {text : String}
    (made : (strict escapes).namedArgument argument = .ok text) :
    (bestEffort escapes).namedArgument argument = .ok text := by
  obtain ⟨value, literal, made⟩ := bind_eq_ok_iff.mp made
  exact bind_eq_ok_iff.mpr ⟨value, constant_bestEffort_of_strict literal, made⟩

theorem attributeArguments_bestEffort_of_strict {attr : Attribute} {texts : List String}
    (made : (strict escapes).attributeArguments attr = .ok texts) :
    (bestEffort escapes).attributeArguments attr = .ok texts := by
  obtain ⟨positional, first, made⟩ := bind_eq_ok_iff.mp made
  obtain ⟨named, second, made⟩ := bind_eq_ok_iff.mp made
  have positionalKept := mapM_eq_ok_of_imp constant_bestEffort_of_strict first
  have namedKept := mapM_eq_ok_of_imp namedArgument_bestEffort_of_strict second
  exact bind_eq_ok_iff.mpr ⟨positional, positionalKept, bind_eq_ok_iff.mpr ⟨named, namedKept, made⟩⟩

theorem attributeText_bestEffort_of_strict {attr : Attribute} {text : String}
    (made : (strict escapes).attributeText attr = .ok text) :
    (bestEffort escapes).attributeText attr = .ok text := by
  cases resolved : attr.type with
  | none =>
      rw [attributeText, resolved] at made
      cases made
  | some type =>
      rw [attributeText_of_type _ resolved, map_eq_ok_iff] at made ⊢
      obtain ⟨texts, arguments, written⟩ := made
      exact ⟨texts, attributeArguments_bestEffort_of_strict arguments, written⟩

theorem attributes_bestEffort_of_strict {attrs : List Attribute} {text : String}
    (made : (strict escapes).attributes attrs = .ok text) :
    (bestEffort escapes).attributes attrs = .ok text := by
  rw [attributes_eq_mapM, map_eq_ok_iff] at made ⊢
  obtain ⟨texts, written, joined⟩ := made
  exact ⟨texts, mapM_eq_ok_of_imp attributeText_bestEffort_of_strict written, joined⟩

/-- **Best effort never refuses a list of attributes.** -/
theorem exists_attributes_bestEffort (escapes : Bool) (attrs : List Attribute) :
    ∃ text, (bestEffort escapes).attributes attrs = .ok text := by
  rw [← refusal?_eq_none_iff, refusal?_attributes, List.findSome?_eq_none_iff]
  intro c _
  rw [constant_bestEffort]
  rfl

/-! ### Parameters -/

theorem defaultText_bestEffort_of_strict {parameter : Parameter} {value : Constant} {text : String}
    (made : (strict escapes).defaultText parameter value = .ok text) :
    (bestEffort escapes).defaultText parameter value = .ok text := by
  rw [defaultText_eq_settle] at made ⊢
  exact settle_bestEffort_of_strict made

theorem defaultSuffix_bestEffort_of_strict {parameter : Parameter} {text : String}
    (made : (strict escapes).defaultSuffix parameter = .ok text) :
    (bestEffort escapes).defaultSuffix parameter = .ok text := by
  unfold defaultSuffix at made ⊢
  cases present : parameter.defaultArgument with
  | none =>
      rw [present] at made
      exact made
  | some value =>
      simp only [present] at made ⊢
      by_cases allowed : parameter.passing.allowsDefault
      · rw [if_pos allowed] at made ⊢
        obtain ⟨value, literal, made⟩ := bind_eq_ok_iff.mp made
        exact bind_eq_ok_iff.mpr ⟨value, defaultText_bestEffort_of_strict literal, made⟩
      · rw [if_neg allowed] at made
        cases made

/-- **A declaration of the strict style is one of best effort.** -/
theorem parameter_bestEffort_of_strict {parameter : Parameter} {text : String}
    (made : (strict escapes).parameter parameter = .ok text) :
    (bestEffort escapes).parameter parameter = .ok text := by
  obtain ⟨attributes, first, made⟩ := bind_eq_ok_iff.mp made
  obtain ⟨suffix, second, made⟩ := bind_eq_ok_iff.mp made
  exact bind_eq_ok_iff.mpr ⟨attributes, attributes_bestEffort_of_strict first,
    bind_eq_ok_iff.mpr ⟨suffix, defaultSuffix_bestEffort_of_strict second, made⟩⟩

/-- Best effort has a text for every default argument that the mode allows. -/
theorem exists_defaultText_bestEffort (escapes : Bool) (parameter : Parameter) (value : Constant) :
    ∃ text, (bestEffort escapes).defaultText parameter value = .ok text := by
  rw [defaultText_eq_settle]
  cases outcome : defaultLiteral parameter value with
  | ok text => exact ⟨text, rfl⟩
  | error refusal =>
      obtain ⟨cause, rfl⟩ := refusal_of_defaultLiteral outcome
      exact ⟨Literal.loose value, rfl⟩

theorem defaultSuffix_bestEffort_eq_error_iff (escapes : Bool) {parameter : Parameter}
    {refusal : Refusal} :
    (bestEffort escapes).defaultSuffix parameter = .error refusal ↔
      parameter.defaultArgument.isSome ∧ parameter.passing.allowsDefault = false ∧
        refusal = .defaultNotAllowed parameter.name parameter.passing := by
  unfold defaultSuffix
  cases present : parameter.defaultArgument with
  | none => simp
  | some value =>
      obtain ⟨text, written⟩ := exists_defaultText_bestEffort escapes parameter value
      by_cases allowed : parameter.passing.allowsDefault
      · simp [allowed, written]
      · simp [allowed, eq_comm]

/-- **Best effort refuses a parameter exactly for a default argument that its mode forbids.** -/
theorem parameter_bestEffort_eq_error_iff {parameter : Parameter} {refusal : Refusal} :
    (bestEffort escapes).parameter parameter = .error refusal ↔
      parameter.defaultArgument.isSome ∧
        (parameter.passing = .output ∨ parameter.passing = .readOnly) ∧
        refusal = .defaultNotAllowed parameter.name parameter.passing := by
  obtain ⟨attributes, made⟩ := exists_attributes_bestEffort escapes parameter.attributes
  rw [← Passing.allowsDefault_eq_false_iff, ← defaultSuffix_bestEffort_eq_error_iff escapes,
    Style.parameter, made, ok_bind]
  cases (bestEffort escapes).defaultSuffix parameter <;> simp

end BestEffort

/-! ### Marks on keywords -/

section Escapes

variable (leniency : Leniency) (first second : Bool)

theorem attributes_escapes (attrs : List Attribute) :
    (⟨leniency, first⟩ : Style).attributes attrs =
      (⟨leniency, second⟩ : Style).attributes attrs := by
  induction attrs with
  | nil => rfl
  | cons attr rest ih =>
      rw [attributes, attributes, ih]
      rfl

/-- **A mark on a keyword refuses nothing and lets nothing pass.** -/
theorem parameter_escapes (parameter : Parameter) (refusal : Refusal) :
    (⟨leniency, first⟩ : Style).parameter parameter = .error refusal ↔
      (⟨leniency, second⟩ : Style).parameter parameter = .error refusal := by
  have suffixes : (⟨leniency, first⟩ : Style).defaultSuffix parameter =
      (⟨leniency, second⟩ : Style).defaultSuffix parameter := rfl
  rw [Style.parameter, Style.parameter, attributes_escapes leniency first second, suffixes]
  simp only [bind_eq_error_iff, pure_eq_ok, reduceCtorEq, and_false, exists_false, or_false]

end Escapes

/-- **Best effort refuses no parameter that the strict style has a declaration for.** -/
theorem refused_bestEffort_sublist (escapes : Bool) (parameters : List Parameter) :
    ((bestEffort escapes).refused parameters).Sublist ((strict escapes).refused parameters) := by
  refine List.monotone_filter_right parameters fun parameter refused => ?_
  unfold accepts at refused ⊢
  cases outcome : (strict escapes).parameter parameter with
  | error refusal => rfl
  | ok declaration =>
      rw [parameter_bestEffort_of_strict outcome] at refused
      cases refused

end Style

/-! ### Callables -/

namespace Generator

section Callables

variable {escapes : Bool} {fallback : String} {policy : RefusalPolicy}

/-- **One pass in both styles.** Best effort leaves out no more, and where nothing is left out the
texts agree. -/
theorem parts_bestEffort {parameters : List Parameter} {parts : Parts}
    (made : (⟨.strict escapes, fallback, policy⟩ : Generator).parts parameters = .ok parts) :
    ∃ lenient,
      (⟨.bestEffort escapes, fallback, policy⟩ : Generator).parts parameters = .ok lenient ∧
      lenient.skipped.Sublist parts.skipped ∧ (parts.skipped = [] → lenient = parts) := by
  induction parameters generalizing parts with
  | nil =>
      cases made
      exact ⟨_, rfl, .slnil, fun _ => rfl⟩
  | cons parameter rest ih =>
      rw [Generator.parts] at made ⊢
      cases outcome : (Style.strict escapes).parameter parameter with
      | ok declaration =>
          simp only [outcome] at made
          obtain ⟨others, tail, made⟩ := bind_eq_ok_iff.mp made
          obtain ⟨lenient, tailMade, fewer, agree⟩ := ih tail
          simp only [Style.parameter_bestEffort_of_strict outcome, tailMade]
          cases made
          refine ⟨_, rfl, fewer, fun none => ?_⟩
          rw [agree none]
          rfl
      | error refusal =>
          simp only [outcome] at made
          cases policy with
          | abort => cases made
          | skip =>
              obtain ⟨others, tail, made⟩ := bind_eq_ok_iff.mp made
              obtain ⟨lenient, tailMade, fewer, _⟩ := ih tail
              cases made
              cases settled : (Style.bestEffort escapes).parameter parameter with
              | ok declaration =>
                  simp only [tailMade]
                  exact ⟨_, rfl, fewer.cons _, fun none => by cases none⟩
              | error refusal =>
                  simp only [tailMade]
                  exact ⟨_, rfl, fewer.cons_cons _, fun none => by cases none⟩

/-- What is left out, or which refusal stops the pass, does not hang on marks on keywords. -/
theorem parts_escapes (fallback : String) (policy : RefusalPolicy) (leniency : Leniency)
    (first second : Bool) (parameters : List Parameter) :
    ((⟨⟨leniency, first⟩, fallback, policy⟩ : Generator).parts parameters).map Parts.skipped =
      ((⟨⟨leniency, second⟩, fallback, policy⟩ : Generator).parts parameters).map
        Parts.skipped := by
  induction parameters with
  | nil => rfl
  | cons parameter rest ih =>
      have same := Style.parameter_escapes leniency first second parameter
      rw [Generator.parts, Generator.parts]
      cases left : (⟨leniency, first⟩ : Style).parameter parameter with
      | ok declaration =>
          cases right : (⟨leniency, second⟩ : Style).parameter parameter with
          | error refusal =>
              rw [(same refusal).mpr right] at left
              cases left
          | ok other =>
              revert ih
              cases (⟨⟨leniency, first⟩, fallback, policy⟩ : Generator).parts rest <;>
                cases (⟨⟨leniency, second⟩, fallback, policy⟩ : Generator).parts rest <;> simp
      | error refusal =>
          simp only [(same refusal).mp left]
          cases policy with
          | abort => rfl
          | skip =>
              revert ih
              cases (⟨⟨leniency, first⟩, fallback, .skip⟩ : Generator).parts rest <;>
                cases (⟨⟨leniency, second⟩, fallback, .skip⟩ : Generator).parts rest <;> simp

/-! ### Signatures -/

/-- **Best effort keeps every signature**: no parameter is left out that was not left out before,
and with none left out nothing changes. -/
theorem signature_bestEffort {callable : Callable} {signature : Signature}
    (made : (⟨.strict escapes, fallback, policy⟩ : Generator).signature callable =
      .ok signature) :
    ∃ lenient,
      (⟨.bestEffort escapes, fallback, policy⟩ : Generator).signature callable = .ok lenient ∧
      lenient.skipped.Sublist signature.skipped ∧
      (signature.skipped = [] → lenient = signature) := by
  obtain ⟨legal, parts, partsMade, rfl⟩ := signature_eq_ok_iff.mp made
  obtain ⟨lenient, lenientMade, fewer, agree⟩ := parts_bestEffort partsMade
  refine ⟨_, signature_of_parts legal lenientMade, fewer, fun none => ?_⟩
  rw [agree none]

/-- What best effort leaves out, the strict style leaves out too. -/
theorem skipped_bestEffort_sublist {callable : Callable} {lenient : Signature}
    (made : (⟨.bestEffort escapes, fallback, policy⟩ : Generator).signature callable =
      .ok lenient) :
    lenient.skipped = [] ∨ ∃ signature,
      (⟨.strict escapes, fallback, policy⟩ : Generator).signature callable = .ok signature ∧
      lenient.skipped.Sublist signature.skipped := by
  obtain ⟨legal, parts, partsMade, given⟩ := signature_eq_ok_iff.mp made
  cases policy with
  | abort => exact .inl (by rw [given, skipped_of_abort rfl partsMade])
  | skip =>
      obtain ⟨_, _, strictMade⟩ :=
        parts_skip ⟨.strict escapes, fallback, .skip⟩ rfl callable.parameters
      have signed := signature_of_parts legal strictMade
      obtain ⟨other, otherMade, fewer, _⟩ := signature_bestEffort signed
      cases made.symm.trans otherMade
      exact .inr ⟨_, signed, fewer⟩

/-- **Marks on keywords change texts only**: the rejection stays, and so do the names left out. -/
theorem skipped_signature_escapes (leniency : Leniency) (first second : Bool)
    (callable : Callable) :
    ((⟨⟨leniency, first⟩, fallback, policy⟩ : Generator).signature callable).map
        Signature.skipped =
      ((⟨⟨leniency, second⟩, fallback, policy⟩ : Generator).signature callable).map
        Signature.skipped := by
  have same := parts_escapes fallback policy leniency first second callable.parameters
  unfold signature
  cases variadicFault? callable.parameters with
  | some found => rfl
  | none =>
      revert same
      cases (⟨⟨leniency, first⟩, fallback, policy⟩ : Generator).parts callable.parameters <;>
        cases (⟨⟨leniency, second⟩, fallback, policy⟩ : Generator).parts callable.parameters <;>
        simp

end Callables

/--
**Best effort is a conservative extension of the strict style**, for constants, attributes,
parameters and callables in turn: it keeps every text, it has one for every constant and every
attribute list, it refuses a parameter for a forbidden default argument only, and it leaves out no
parameter that the strict style keeps. Whether keywords are marked has no bearing on any refusal.
-/
theorem bestEffort_extends_strict (escapes : Bool) :
    (∀ c, (Style.bestEffort escapes).constant c =
      .ok (match (Style.strict escapes).constant c with
        | .ok text => text
        | .error _ => Literal.loose c)) ∧
    (∀ attrs text, (Style.strict escapes).attributes attrs = .ok text →
      (Style.bestEffort escapes).attributes attrs = .ok text) ∧
    (∀ attrs, ∃ text, (Style.bestEffort escapes).attributes attrs = .ok text) ∧
    (∀ parameter text, (Style.strict escapes).parameter parameter = .ok text →
      (Style.bestEffort escapes).parameter parameter = .ok text) ∧
    (∀ parameter refusal, (Style.bestEffort escapes).parameter parameter = .error refusal ↔
      parameter.defaultArgument.isSome ∧
        (parameter.passing = .output ∨ parameter.passing = .readOnly) ∧
        refusal = .defaultNotAllowed parameter.name parameter.passing) ∧
    (∀ parameters, ((Style.bestEffort escapes).refused parameters).Sublist
      ((Style.strict escapes).refused parameters)) ∧
    (∀ fallback policy callable,
      (∀ name fault,
        (⟨.bestEffort escapes, fallback, policy⟩ : Generator).signature callable =
            .error (.variadic name fault) ↔
          (⟨.strict escapes, fallback, policy⟩ : Generator).signature callable =
            .error (.variadic name fault)) ∧
      ∀ signature, (⟨.strict escapes, fallback, policy⟩ : Generator).signature callable =
          .ok signature →
        ∃ lenient,
          (⟨.bestEffort escapes, fallback, policy⟩ : Generator).signature callable = .ok lenient ∧
          lenient.skipped.Sublist signature.skipped ∧
          (signature.skipped = [] → lenient = signature)) ∧
    (∀ fallback policy callable lenient,
      (⟨.bestEffort escapes, fallback, policy⟩ : Generator).signature callable = .ok lenient →
        lenient.skipped = [] ∨ ∃ signature,
          (⟨.strict escapes, fallback, policy⟩ : Generator).signature callable = .ok signature ∧
          lenient.skipped.Sublist signature.skipped) ∧
    ∀ leniency,
      (∀ parameter refusal,
        (⟨leniency, escapes⟩ : Style).parameter parameter = .error refusal ↔
          (⟨leniency, !escapes⟩ : Style).parameter parameter = .error refusal) ∧
      ∀ fallback policy callable,
        ((⟨⟨leniency, escapes⟩, fallback, policy⟩ : Generator).signature callable).map
            Signature.skipped =
          ((⟨⟨leniency, !escapes⟩, fallback, policy⟩ : Generator).signature callable).map
            Signature.skipped := by
  refine ⟨Style.constant_bestEffort, fun _ _ => Style.attributes_bestEffort_of_strict,
    Style.exists_attributes_bestEffort escapes, fun _ _ => Style.parameter_bestEffort_of_strict,
    fun _ _ => Style.parameter_bestEffort_eq_error_iff, Style.refused_bestEffort_sublist escapes,
    fun fallback policy callable => ⟨fun name fault => ?_, fun _ => signature_bestEffort⟩,
    fun _ _ _ _ => skipped_bestEffort_sublist,
    fun leniency => ⟨Style.parameter_escapes leniency escapes (!escapes),
      fun _ _ callable => skipped_signature_escapes leniency escapes (!escapes) callable⟩⟩
  rw [signature_eq_variadic_iff, signature_eq_variadic_iff]

/-- The loose text of the whole array stands in for the one element without a literal. -/
theorem bestEffort_extends_strict_glyph :
    let glyphs := Constant.array (.value "char") [.char 'a', .char '😀']
    (Style.strict true).constant glyphs = .error (.unsupported (.charBeyondPlane '😀')) ∧
      (Style.bestEffort true).constant glyphs = .ok "\x7b 'a', '😀' \x7d" := by
  intro glyphs
  exact ⟨by cbv, ((bestEffort_extends_strict true).1 glyphs).trans (by cbv)⟩

end Generator

end SignatureText
