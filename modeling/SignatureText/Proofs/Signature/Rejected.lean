/-
**Which callables are rejected.**

A callable is rejected for its list of parameters before any of them is written. After that only an
aborting generator rejects it, and it does what the style does with the list as a whole.

* `Generator.declare` — the declaration of one parameter, with a refusal blamed on its name.
* `Generator.parts_abort` — **one pass that aborts**: what the generator collects parameter by
  parameter is what the style writes for the list, and it stops where the style stops.
* `Generator.signature_eq_variadic_iff` — a rejection for the list is that of the check, under
  either policy, for the pass over the parameters has no such rejection of its own.
* `Generator.signature_abort_exact` — the theorem about whole signatures.
-/

import SignatureText.Proofs.Signature.Survivors

namespace SignatureText

namespace Generator

/-! ### One pass that aborts -/

/-- The declaration of a parameter; a refusal is blamed on the parameter. -/
def declare (generator : Generator) (parameter : Parameter) : Except Rejection String :=
  (generator.style.parameter parameter).mapError (.parameter parameter.name)

variable {generator : Generator} {parameter : Parameter}

theorem declare_eq_ok_iff {declaration : String} :
    generator.declare parameter = .ok declaration ↔
      generator.style.parameter parameter = .ok declaration := by
  unfold declare
  cases generator.style.parameter parameter <;> simp [Except.mapError]

theorem declare_eq_error_iff {rejection : Rejection} :
    generator.declare parameter = .error rejection ↔
      ∃ refusal, generator.style.parameter parameter = .error refusal ∧
        rejection = .parameter parameter.name refusal := by
  unfold declare
  cases generator.style.parameter parameter <;> simp [Except.mapError, eq_comm]

/-- **One pass that aborts.** The three lists are filled in step, or the first refusal ends it. -/
theorem parts_abort (abort : generator.policy = .abort) (parameters : List Parameter) :
    generator.parts parameters = (parameters.mapM generator.declare).map fun declarations =>
      ⟨declarations, parameters.map generator.style.argument, []⟩ := by
  induction parameters with
  | nil => rfl
  | cons parameter rest ih =>
      rw [Generator.parts, List.mapM_cons]
      cases outcome : generator.style.parameter parameter with
      | error refusal =>
          rw [declare_eq_error_iff.mpr ⟨refusal, outcome, rfl⟩]
          simp only [abort]
          rfl
      | ok declaration =>
          rw [declare_eq_ok_iff.mpr outcome]
          simp only [ih]
          cases rest.mapM generator.declare <;> rfl

/-- The declarations of a list are those of the style, under either name. -/
theorem mapM_declare_eq_ok_iff {parameters : List Parameter} {declarations : List String} :
    parameters.mapM generator.declare = .ok declarations ↔
      parameters.mapM generator.style.parameter = .ok declarations := by
  rw [mapM_eq_ok_iff, mapM_eq_ok_iff]
  simp only [declare_eq_ok_iff]

/-- **Both stop at the same parameter**: the first whose declaration is refused. -/
theorem mapM_declare_eq_error_iff {parameters : List Parameter} {rejection : Rejection} :
    parameters.mapM generator.declare = .error rejection ↔
      ∃ before parameter after refusal, parameters = before ++ parameter :: after ∧
        generator.style.parameter parameter = .error refusal ∧
        (∀ earlier ∈ before, ∃ text, generator.style.parameter earlier = .ok text) ∧
        parameters.mapM generator.style.parameter = .error refusal ∧
        rejection = .parameter parameter.name refusal := by
  rw [mapM_eq_error_iff]
  simp only [declare_eq_ok_iff, declare_eq_error_iff]
  constructor
  · rintro ⟨before, parameter, after, split, ⟨refusal, refused, rfl⟩, written⟩
    exact ⟨before, parameter, after, refusal, split, refused, written,
      mapM_eq_error_iff.mpr ⟨before, parameter, after, split, refused, written⟩, rfl⟩
  · rintro ⟨before, parameter, after, refusal, split, refused, written, _, rfl⟩
    exact ⟨before, parameter, after, split, ⟨refusal, refused, rfl⟩, written⟩

/-- A generator that aborts leaves nothing out. -/
theorem skipped_of_abort (abort : generator.policy = .abort) {parameters : List Parameter}
    {parts : Parts} (made : generator.parts parameters = .ok parts) : parts.skipped = [] := by
  rw [parts_abort abort, map_eq_ok_iff] at made
  obtain ⟨declarations, _, rfl⟩ := made
  rfl

/-! ### The check before the pass -/

/-- No parameter is blamed for a variadic fault but by the check of the whole list. -/
theorem parts_ne_variadic (generator : Generator) (parameters : List Parameter) (name : String)
    (fault : VariadicFault) : generator.parts parameters ≠ .error (.variadic name fault) := by
  induction parameters with
  | nil => simp [Generator.parts]
  | cons parameter rest ih =>
      rw [Generator.parts]
      cases generator.style.parameter parameter with
      | ok declaration => simpa [bind_eq_error_iff] using ih
      | error refusal =>
          cases generator.policy with
          | abort => simp
          | skip => simpa [bind_eq_error_iff] using ih

theorem signature_eq_variadic_iff {generator : Generator} {callable : Callable} {name : String}
    {fault : VariadicFault} :
    generator.signature callable = .error (.variadic name fault) ↔
      variadicFault? callable.parameters = some (name, fault) := by
  unfold signature
  cases checked : variadicFault? callable.parameters with
  | none => simp [bind_eq_error_iff, parts_ne_variadic]
  | some found => simp [Prod.ext_iff]

/-! ### Whole signatures -/

/-- The list that a style writes from the declarations one by one. -/
theorem parameters_eq_map (style : Style) (parameters : List Parameter) :
    style.parameters parameters =
      (parameters.mapM style.parameter).map fun declarations => ", ".intercalate declarations := by
  unfold Style.parameters
  cases parameters.mapM style.parameter <;> rfl

/-- An aborting generator makes a signature of a legal callable in the same way. -/
theorem signature_abort {callable : Callable} (abort : generator.policy = .abort)
    (legal : variadicFault? callable.parameters = none) :
    generator.signature callable =
      (callable.parameters.mapM generator.declare).map fun declarations =>
        ⟨methodName callable.requestedName generator.defaultMethodName,
          ", ".intercalate declarations, generator.style.arguments callable.parameters, []⟩ := by
  unfold signature
  simp only [legal, parts_abort abort]
  cases callable.parameters.mapM generator.declare <;> rfl

/--
**Which callables are rejected, and what the others are written as.** A callable whose list breaks a
rule is rejected for that, whatever the policy is and whatever else is wrong. A legal one is
rejected by an aborting generator exactly if the style refuses its list: with the same refusal,
blamed on the first parameter that has no declaration. Otherwise both lists are those that the style
writes, and nothing is left out.
-/
theorem signature_abort_exact (generator : Generator) (callable : Callable) :
    (∀ name fault, generator.signature callable = .error (.variadic name fault) ↔
      variadicFault? callable.parameters = some (name, fault)) ∧
    (generator.policy = .abort → variadicFault? callable.parameters = none →
      (∀ result, generator.signature callable = .ok result ↔
        ∃ text, generator.style.parameters callable.parameters = .ok text ∧
          result = ⟨methodName callable.requestedName generator.defaultMethodName, text,
            generator.style.arguments callable.parameters, []⟩) ∧
      ∀ rejection, generator.signature callable = .error rejection ↔
        ∃ before parameter after refusal,
          callable.parameters = before ++ parameter :: after ∧
          generator.style.parameter parameter = .error refusal ∧
          (∀ earlier ∈ before, ∃ text, generator.style.parameter earlier = .ok text) ∧
          generator.style.parameters callable.parameters = .error refusal ∧
          rejection = .parameter parameter.name refusal) := by
  refine ⟨fun name fault => signature_eq_variadic_iff, fun abort legal => ⟨?_, ?_⟩⟩
  · intro result
    rw [signature_abort abort legal, parameters_eq_map, map_eq_ok_iff]
    simp only [mapM_declare_eq_ok_iff, map_eq_ok_iff]
    constructor
    · rintro ⟨declarations, declared, rfl⟩
      exact ⟨_, ⟨declarations, declared, rfl⟩, rfl⟩
    · rintro ⟨_, ⟨declarations, declared, rfl⟩, rfl⟩
      exact ⟨declarations, declared, rfl⟩
  · intro rejection
    rw [signature_abort abort legal, parameters_eq_map, map_eq_error_iff,
      mapM_declare_eq_error_iff]
    simp only [map_eq_error_iff]

/--
Two parameters have no declaration, and the callable is rejected for the first of them, with the
refusal of the whole list. With a list that breaks a rule it is rejected for that instead.
-/
theorem signature_abort_exact_glyphs :
    let generator : Generator := {}
    let name := Parameter.ofType "Name" (.reference "string")
    let glyph := (Parameter.ofType "Glyph" (.value "char")).withDefault (.char '😀')
    let count := ((Parameter.ofType "Count" (.value "int")).withPassing .output).withDefault .null
    let refusal := Refusal.unsupported (.charBeyondPlane '😀')
    generator.policy = .abort ∧ variadicFault? [name, glyph, count] = none ∧
      generator.signature ⟨none, [name, glyph, count]⟩ = .error (.parameter "Glyph" refusal) ∧
      generator.signature ⟨none, [name.withVariadic true, glyph]⟩ =
        .error (.variadic "Name" .notLast) := by
  intro generator name glyph count refusal
  obtain ⟨_, aborted⟩ := signature_abort_exact generator ⟨none, [name, glyph, count]⟩
  obtain ⟨broken, _⟩ := signature_abort_exact generator ⟨none, [name.withVariadic true, glyph]⟩
  have legal : variadicFault? [name, glyph, count] = none := rfl
  refine ⟨rfl, legal, ?_, (broken _ _).mpr rfl⟩
  refine ((aborted rfl legal).2 _).mpr ⟨[name], glyph, [count], refusal, rfl, rfl, ?_, rfl, rfl⟩
  intro earlier member
  rw [List.mem_singleton.mp member]
  exact ⟨_, rfl⟩

end Generator

end SignatureText
