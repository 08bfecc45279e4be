/-
**Declarations of parameters.**

A declaration is refused for the first thing that is wrong with the parameter, and otherwise it is
made of its parts in a fixed order.

* `Parameter.checks` — what is looked at, in order: the arguments of each attribute whose class is
  known, then whether the mode allows the default argument, then the default argument itself.
* `Style.fault?` — what one of these is refused with, whatever comes before it.
* `Style.refusal?_parameter` — **a declaration is refused with the first fault in the scan**, put
  together from its two halves: no step looks at the text that an earlier one has made.
* `Style.parameter_refused_or_written` — the theorem about declarations.
-/

import SignatureText.Proofs.Declaration.Attribute

namespace SignatureText

/-! ### What is looked at -/

/-- What is looked at before a parameter is written. -/
inductive Check where
  /-- An argument of an attribute. -/
  | argument (c : Constant)
  /-- The mode, where there is a default argument. -/
  | mode
  /-- The default argument. -/
  | defaultArgument (c : Constant)

namespace Parameter

/-- What is looked at in a default argument. -/
def defaultChecks (parameter : Parameter) : List Check :=
  match parameter.defaultArgument with
  | none => []
  | some value => [.mode, .defaultArgument value]

/-- What is looked at in a parameter, in order. -/
def checks (parameter : Parameter) : List Check :=
  (parameter.attributes.flatMap Attribute.writtenArguments).map .argument ++
    parameter.defaultChecks

end Parameter

theorem Passing.allowsDefault_eq_false_iff {passing : Passing} :
    passing.allowsDefault = false ↔ passing = .output ∨ passing = .readOnly := by
  cases passing <;> simp [allowsDefault]

/-- A type is marked exactly if its text is another one with the mark behind it. -/
theorem TypeRef.isMarked_iff {type : TypeRef} :
    type.isMarked = true ↔ ∃ stem, type.name = stem ++ "?" := by
  rw [isMarked, decide_eq_true_iff, List.getLast?_eq_some_iff]
  constructor
  · rintro ⟨stem, split⟩
    refine ⟨String.ofList stem, String.toList_inj.mp ?_⟩
    rw [split, String.toList_append, String.toList_ofList]
    rfl
  · rintro ⟨stem, split⟩
    refine ⟨stem.toList, ?_⟩
    rw [split, String.toList_append]
    rfl

namespace Style

/-! ### Default arguments -/

/-- The literal of a default argument, before the style says what becomes of a missing one. -/
def defaultLiteral (parameter : Parameter) (value : Constant) : Except Refusal String :=
  match value, parameter.type.enum? with
  | .null, _ => .ok (if parameter.acceptsNull then "null" else "default")
  | .integer n, some type => Literal.enumValue type n
  | .enumMember _ n, some type => Literal.enumValue type n
  | _, some type => .error (.unsupported (.enumDefault value.shape type.name))
  | _, none => Literal.constant value

theorem defaultText_eq_settle (style : Style) (parameter : Parameter) (value : Constant) :
    style.defaultText parameter value = style.settle value (defaultLiteral parameter value) := by
  unfold defaultText defaultLiteral
  cases value <;> cases parameter.type.enum? <;> rfl

theorem refusal_of_defaultLiteral {parameter : Parameter} {value : Constant} {refusal : Refusal}
    (failed : defaultLiteral parameter value = .error refusal) :
    ∃ cause, refusal = .unsupported cause := by
  unfold defaultLiteral at failed
  split at failed
  · cases failed
  · exact Literal.refusal_of_enumValue failed
  · exact Literal.refusal_of_enumValue failed
  · cases failed
    exact ⟨_, rfl⟩
  · exact Literal.refusal_of_constant failed

variable (style : Style)

section Suffixes

variable {parameter : Parameter} {value : Constant}

/-- A default argument that the mode allows stands behind an equals sign. -/
theorem defaultSuffix_eq_settle (given : parameter.defaultArgument = some value)
    (allowed : parameter.passing.allowsDefault = true) :
    style.defaultSuffix parameter =
      (style.settle value (defaultLiteral parameter value)).map (" = " ++ ·) := by
  rw [← defaultText_eq_settle]
  unfold defaultSuffix
  simp only [given, allowed, if_true]
  cases style.defaultText parameter value <;> rfl

theorem defaultSuffix_of_literal (given : parameter.defaultArgument = some value)
    (allowed : parameter.passing.allowsDefault = true) {text : String}
    (literal : defaultLiteral parameter value = .ok text) :
    style.defaultSuffix parameter = .ok (" = " ++ text) := by
  rw [style.defaultSuffix_eq_settle given allowed, literal]
  rfl

/-- Without a literal, the strict style refuses and the other writes the argument loosely. -/
theorem defaultSuffix_of_cause (given : parameter.defaultArgument = some value)
    (allowed : parameter.passing.allowsDefault = true) {cause : Unsupported}
    (missing : defaultLiteral parameter value = .error (.unsupported cause)) :
    (style.leniency = .strict → style.defaultSuffix parameter = .error (.unsupported cause)) ∧
      (style.leniency = .bestEffort →
        style.defaultSuffix parameter = .ok (" = " ++ Literal.loose value)) := by
  rw [style.defaultSuffix_eq_settle given allowed, missing, settle]
  constructor <;>
    · intro leniency
      rw [leniency]
      rfl

end Suffixes

theorem refusal_of_defaultText {parameter : Parameter} {value : Constant} {refusal : Refusal}
    (failed : style.defaultText parameter value = .error refusal) :
    ∃ cause, refusal = .unsupported cause := by
  rw [defaultText_eq_settle] at failed
  exact refusal_of_defaultLiteral (style.error_of_settle failed)

/-! ### The scan -/

/-- What is wrong at one point of the scan, if anything is. -/
def fault? (parameter : Parameter) : Check → Option Refusal
  | .argument c => refusal? (style.constant c)
  | .mode =>
    if parameter.passing = .output ∨ parameter.passing = .readOnly then
      some (.defaultNotAllowed parameter.name parameter.passing)
    else none
  | .defaultArgument value => refusal? (style.defaultText parameter value)

variable {parameter : Parameter}

/-- A missing class is no fault anywhere. -/
theorem fault?_ne_unresolved (check : Check) :
    style.fault? parameter check ≠ some .unresolvedAttribute := by
  intro faulty
  cases check with
  | argument c =>
      obtain ⟨cause, impossible⟩ := style.refusal_of_constant (refusal?_eq_some_iff.mp faulty)
      cases impossible
  | mode =>
      unfold fault? at faulty
      by_cases forbidden : parameter.passing = .output ∨ parameter.passing = .readOnly
      · cases (if_pos forbidden).symm.trans faulty
      · cases (if_neg forbidden).symm.trans faulty
  | defaultArgument value =>
      obtain ⟨cause, impossible⟩ := style.refusal_of_defaultText (refusal?_eq_some_iff.mp faulty)
      cases impossible

theorem refusal?_defaultSuffix :
    refusal? (style.defaultSuffix parameter) =
      parameter.defaultChecks.findSome? (style.fault? parameter) := by
  unfold defaultSuffix Parameter.defaultChecks
  cases parameter.defaultArgument with
  | none => rfl
  | some value =>
      dsimp only
      rw [List.findSome?_cons, fault?]
      by_cases allowed : parameter.passing.allowsDefault
      · have passes : ¬(parameter.passing = .output ∨ parameter.passing = .readOnly) := by
          rw [← Passing.allowsDefault_eq_false_iff, allowed]
          exact Bool.noConfusion
        rw [if_pos allowed, if_neg passes, refusal?_bind_pure]
        exact List.findSome?_singleton.symm
      · have forbidden := Passing.allowsDefault_eq_false_iff.mp (Bool.eq_false_iff.mpr allowed)
        rw [if_neg allowed, if_pos forbidden]
        rfl

/-- **A declaration is refused with the first fault in the scan.** -/
theorem refusal?_parameter :
    refusal? (style.parameter parameter) =
      parameter.checks.findSome? (style.fault? parameter) := by
  have front : ((parameter.attributes.flatMap Attribute.writtenArguments).map .argument).findSome?
      (style.fault? parameter) = refusal? (style.attributes parameter.attributes) := by
    rw [refusal?_attributes, List.findSome?_map]
    rfl
  unfold Style.parameter Parameter.checks
  rw [List.findSome?_append, front, ← refusal?_defaultSuffix]
  -- The suffix is made without the text in front, so its refusal is the same behind any of them.
  apply refusal?_bind
  intro attributes
  exact refusal?_bind_pure

/-! ### What is written -/

/-- The type's text with the mark that stands behind it, which is not written twice. -/
theorem exists_mark (parameter : Parameter) :
    ∃ mark, parameter.typeText = parameter.type.name ++ mark ∧ (mark = "" ∨ mark = "?") ∧
      (mark = "?" ↔ parameter.isNullable = true ∧ ¬∃ stem, parameter.type.name = stem ++ "?") := by
  rw [← TypeRef.isMarked_iff]
  unfold Parameter.typeText
  by_cases added : parameter.isNullable && !parameter.type.isMarked
  · refine ⟨"?", ?_, .inr rfl, ?_⟩
    · rw [if_pos added]
      rfl
    · simpa using added
  · refine ⟨"", ?_, .inl rfl, ?_⟩
    · rw [if_neg added, String.append_empty]
    · simpa using added

/--
**What a parameter is refused for, and what it is written as.** The first fault in the scan is what
its declaration is refused with. Without a fault the declaration is made of the attributes, the
modifier, the type's text with its mark, the name that the argument has too, and the default
argument. A missing class never refuses a parameter.
-/
theorem parameter_refused_or_written (parameter : Parameter) :
    (∀ refusal, style.parameter parameter = .error refusal ↔
      ∃ before check after, parameter.checks = before ++ check :: after ∧
        style.fault? parameter check = some refusal ∧
        ∀ earlier ∈ before, style.fault? parameter earlier = none) ∧
    ((∀ check ∈ parameter.checks, style.fault? parameter check = none) →
      ∃ front mark name suffix,
        style.attributes parameter.attributes = .ok front ∧ (mark = "" ∨ mark = "?") ∧
        (mark = "?" ↔
          parameter.isNullable = true ∧ ¬∃ stem, parameter.type.name = stem ++ "?") ∧
        style.argument parameter = parameter.passing.modifier ++ name ∧
        style.defaultSuffix parameter = .ok suffix ∧
        style.parameter parameter =
          .ok (front ++ parameter.modifier ++ parameter.type.name ++ mark ++ " " ++ name ++
            suffix)) ∧
    style.parameter parameter ≠ .error .unresolvedAttribute := by
  refine ⟨fun refusal => ?_, fun clear => ?_, fun failed => ?_⟩
  · rw [← refusal?_eq_some_iff, refusal?_parameter, List.findSome?_eq_some_iff]
  · rw [← List.findSome?_eq_none_iff, ← refusal?_parameter, refusal?_eq_none_iff] at clear
    obtain ⟨declaration, declared⟩ := clear
    obtain ⟨front, attributes, written⟩ := bind_eq_ok_iff.mp declared
    obtain ⟨suffix, default, written⟩ := bind_eq_ok_iff.mp written
    obtain ⟨mark, typed, either, marked⟩ := exists_mark parameter
    refine ⟨front, mark, style.bindingName parameter.name, suffix, attributes, either, marked, rfl,
      default, ?_⟩
    rw [declared, ← written, typed, ← String.append_assoc]
    rfl
  · rw [← refusal?_eq_some_iff, refusal?_parameter, List.findSome?_eq_some_iff] at failed
    obtain ⟨before, check, after, split, faulty, none⟩ := failed
    exact style.fault?_ne_unresolved check faulty

/--
Of four faults the one in a named argument counts: the attribute before it has no class, and the
mode is looked at later. With only the attribute without a class, the parameter is written.
-/
theorem parameter_refused_or_written_glyph :
    let style : Style := {}
    let glyph := Constant.char '😀'
    let unknown := Attribute.unresolved.withPositional glyph
    let range := ((Attribute.ofType (.reference "Range")).withNamed "Least" glyph).withPositional
      (.bool true)
    let clear := (((Parameter.ofType "Event" (.value "char")).withNullable true).withPassing
      .output).withAttribute unknown
    let faulty := (clear.withAttribute range).withDefault glyph
    style.parameter faulty = .error (.unsupported (.charBeyondPlane '😀')) ∧
      (∀ check ∈ clear.checks, style.fault? clear check = none) ∧
      ∃ name, style.argument clear = "out " ++ name ∧
        style.parameter clear = .ok ("out char? " ++ name) := by
  intro style glyph unknown range clear faulty
  obtain ⟨refused, _, _⟩ := style.parameter_refused_or_written faulty
  obtain ⟨_, written, _⟩ := style.parameter_refused_or_written clear
  have noFault : ∀ check ∈ clear.checks, style.fault? clear check = none :=
    fun _ member => by cases member
  refine ⟨?_, noFault, ?_⟩
  · refine (refused _).mpr ⟨[.argument (.bool true)], .argument glyph,
      [.mode, .defaultArgument glyph], rfl, rfl, fun earlier member => ?_⟩
    rw [List.mem_singleton.mp member]
    rfl
  · obtain ⟨front, mark, name, suffix, attributes, _, marked, argument, default, declared⟩ :=
      written noFault
    have unmarked : ¬∃ stem, clear.type.name = stem ++ "?" := by
      rw [← TypeRef.isMarked_iff]
      decide
    obtain rfl : "" = front := Except.ok.inj attributes
    obtain rfl : "" = suffix := Except.ok.inj default
    rw [marked.mpr ⟨rfl, unmarked⟩, String.append_empty] at declared
    exact ⟨name, argument, declared⟩

end Style

end SignatureText
