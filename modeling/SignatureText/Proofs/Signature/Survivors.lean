/-
**Leaving out refused parameters.**

A generator that leaves refused parameters out makes the signature that an aborting generator makes
of the others alone.

* `Generator.parts_skip` — **one pass.** The texts are those of the survivors, declarations and
  arguments in step, and the names are those of all other parameters. The three lists grow in one
  recursion, so one induction gives all three.
* `Generator.parts_of_declarations` — where nothing is refused the policy plays no part.
* `Generator.signature_skip_eq_abort` — the theorem about whole signatures.
-/

import SignatureText.Proofs.Outcome
import SignatureText.Proofs.Signature.Variadic
import SignatureText.Signature

namespace SignatureText

/-! ### Survivors -/

namespace Style

variable (style : Style)

/-- The parameter has a declaration. -/
def accepts (parameter : Parameter) : Bool :=
  (style.parameter parameter).isOk

/-- The parameters that have a declaration, in their order. -/
def survivors (parameters : List Parameter) : List Parameter :=
  parameters.filter style.accepts

/-- The parameters that have none, in their order. -/
def refused (parameters : List Parameter) : List Parameter :=
  parameters.filter (!style.accepts ·)

variable {style} {parameter : Parameter} {rest : List Parameter}

theorem accepts_iff : style.accepts parameter = true ↔
    ∃ declaration, style.parameter parameter = .ok declaration := by
  unfold accepts
  cases style.parameter parameter <;> simp [Except.isOk, Except.toBool]

theorem survivors_cons_of_ok {declaration : String}
    (declared : style.parameter parameter = .ok declaration) :
    style.survivors (parameter :: rest) = parameter :: style.survivors rest := by
  simp [survivors, accepts, declared, Except.isOk, Except.toBool]

theorem survivors_cons_of_error {refusal : Refusal}
    (failed : style.parameter parameter = .error refusal) :
    style.survivors (parameter :: rest) = style.survivors rest := by
  simp [survivors, accepts, failed, Except.isOk, Except.toBool]

/-- Where every parameter has a declaration, all survive. -/
theorem survivors_of_declarations {parameters : List Parameter} {declarations : List String}
    (declared : parameters.mapM style.parameter = .ok declarations) :
    style.survivors parameters = parameters := by
  induction mapM_eq_ok_iff.mp declared with
  | nil => rfl
  | cons head tail ih => rw [survivors_cons_of_ok head, ih (mapM_eq_ok_iff.mpr tail)]

theorem refused_cons_of_ok {declaration : String}
    (declared : style.parameter parameter = .ok declaration) :
    style.refused (parameter :: rest) = style.refused rest := by
  simp [refused, accepts, declared, Except.isOk, Except.toBool]

theorem refused_cons_of_error {refusal : Refusal}
    (failed : style.parameter parameter = .error refusal) :
    style.refused (parameter :: rest) = parameter :: style.refused rest := by
  simp [refused, accepts, failed, Except.isOk, Except.toBool]

end Style

/-! ### Parameters one by one -/

namespace Generator

variable {generator : Generator}

/-- **Where every parameter has a declaration, none is left out**, whatever the policy. -/
theorem parts_of_declarations {parameters : List Parameter} {declarations : List String}
    (declared : parameters.mapM generator.style.parameter = .ok declarations) :
    generator.parts parameters =
      .ok ⟨declarations, parameters.map generator.style.argument, []⟩ := by
  induction mapM_eq_ok_iff.mp declared with
  | nil => rfl
  | cons head tail ih => simp only [parts, head, ih (mapM_eq_ok_iff.mpr tail)]; rfl

/-- **One pass that leaves out what is refused.** -/
theorem parts_skip (generator : Generator) (skip : generator.policy = .skip)
    (parameters : List Parameter) :
    ∃ declarations,
      (generator.style.survivors parameters).mapM generator.style.parameter = .ok declarations ∧
      generator.parts parameters = .ok
        ⟨declarations, (generator.style.survivors parameters).map generator.style.argument,
          (generator.style.refused parameters).map Parameter.name⟩ := by
  induction parameters with
  | nil => exact ⟨[], rfl, rfl⟩
  | cons parameter rest ih =>
      obtain ⟨declarations, declared, made⟩ := ih
      cases outcome : generator.style.parameter parameter with
      | ok declaration =>
          rw [Style.survivors_cons_of_ok outcome, Style.refused_cons_of_ok outcome]
          refine ⟨declaration :: declarations, ?_, ?_⟩
          · rw [List.mapM_cons, outcome, declared]
            rfl
          · simp only [parts, outcome, made]
            rfl
      | error refusal =>
          rw [Style.survivors_cons_of_error outcome, Style.refused_cons_of_error outcome]
          refine ⟨declarations, declared, ?_⟩
          simp only [parts, outcome, skip, made]
          rfl

/-! ### Whole signatures -/

/-- The signature of a legal callable from its parts. -/
theorem signature_of_parts {callable : Callable} {parts : Parts}
    (legal : variadicFault? callable.parameters = none)
    (made : generator.parts callable.parameters = .ok parts) :
    generator.signature callable = .ok
      ⟨methodName callable.requestedName generator.defaultMethodName,
        ", ".intercalate parts.declarations, ", ".intercalate parts.arguments, parts.skipped⟩ := by
  simp only [signature, legal, made]
  rfl

/-- **A signature is made of a legal callable's parts**, and of nothing else. -/
theorem signature_eq_ok_iff {callable : Callable} {result : Signature} :
    generator.signature callable = .ok result ↔
      variadicFault? callable.parameters = none ∧
        ∃ parts, generator.parts callable.parameters = .ok parts ∧
          result = ⟨methodName callable.requestedName generator.defaultMethodName,
            ", ".intercalate parts.declarations, ", ".intercalate parts.arguments,
            parts.skipped⟩ := by
  unfold signature
  cases variadicFault? callable.parameters with
  | none => simp [bind_eq_ok_iff, @eq_comm _ result]
  | some found => simp

/--
**Leaving out is aborting on the survivors.** The signature exists; its lists are those of the
survivors in step and order, the names left out are those of all others, and an aborting generator
makes the same of the survivors alone, which are again a legal list without a refusal. None of them
but the last is declared with `params`.
-/
theorem signature_skip_eq_abort (generator : Generator) (callable : Callable)
    (skip : generator.policy = .skip) (legal : variadicFault? callable.parameters = none) :
    ∃ declarations result,
      (generator.style.survivors callable.parameters).mapM generator.style.parameter =
        .ok declarations ∧
      generator.signature callable = .ok result ∧
      result.methodName = methodName callable.requestedName generator.defaultMethodName ∧
      result.parameters = ", ".intercalate declarations ∧
      result.arguments = ", ".intercalate
        ((generator.style.survivors callable.parameters).map generator.style.argument) ∧
      result.skipped = (generator.style.refused callable.parameters).map Parameter.name ∧
      variadicFault? (generator.style.survivors callable.parameters) = none ∧
      { generator with policy := .abort }.signature
          { callable with parameters := generator.style.survivors callable.parameters } =
        .ok { result with skipped := [] } ∧
      ∀ parameter ∈ (generator.style.survivors callable.parameters).dropLast,
        parameter.modifier ≠ "params " := by
  obtain ⟨declarations, declared, made⟩ := parts_skip generator skip callable.parameters
  have stillLegal : variadicFault? (generator.style.survivors callable.parameters) = none :=
    variadicFault?_of_sublist List.filter_sublist legal
  have alone :
      { generator with policy := .abort }.parts
          (generator.style.survivors callable.parameters) =
        .ok ⟨declarations,
          (generator.style.survivors callable.parameters).map generator.style.argument, []⟩ :=
    parts_of_declarations declared
  refine ⟨declarations, _, declared, signature_of_parts legal made, rfl, rfl, rfl, rfl, stillLegal,
    ?_, fun parameter member => modifier_ne_of_mem_dropLast stillLegal member⟩
  rw [signature_of_parts stillLegal alone]

/-- A character without a literal is left out between two parameters that stay. -/
theorem signature_skip_eq_abort_glyph :
    let generator : Generator := { policy := .skip }
    let glyph := (Parameter.ofType "Glyph" (.value "char")).withDefault (.char '😀')
    let others := (Parameter.ofType "Others" (.reference "int[]")).withVariadic true
    let callable : Callable := ⟨none, [.ofType "Name" (.reference "string"), glyph, others]⟩
    generator.policy = .skip ∧ variadicFault? callable.parameters = none ∧
      ∃ result,
        generator.signature callable = .ok result ∧
        result.skipped = ["Glyph"] ∧
        { generator with policy := .abort }.signature
            { callable with parameters := generator.style.survivors callable.parameters } =
          .ok { result with skipped := [] } := by
  intro generator glyph others callable
  have legal : variadicFault? callable.parameters = none := by decide
  obtain ⟨_, result, _, made, _, _, _, skipped, _, alone, _⟩ :=
    signature_skip_eq_abort generator callable rfl legal
  exact ⟨rfl, legal, result, made, skipped.trans (by decide), alone⟩

end Generator

end SignatureText
