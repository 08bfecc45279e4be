/-
**Parameters and attributes built step by step.**

A parameter is built by steps that bring a value to one field each, in any order and as often as one
likes, and an attribute by steps that add an argument of one of two kinds. What a run of steps leads
to depends on what it brings to each field, and not on how the steps for different fields are mixed.

* `Parameter.apply_eq` — **one step changes its own field** and leaves all others as they were.
* `Parameter.after_eq` — so after a run each field holds the last value brought to it, and the
  attributes are all that were added, in order; by induction on the run.
* `Attribute.after_eq` — the two lists of arguments grow without regard to each other.
* `Style.attributeText_eq_ok_iff`, `Style.attributeText_eq_error_iff` — **positional arguments stand
  in front**, whatever was added first, and are the first that an attribute is refused for.
* `after_order_free` — the theorem about any two runs.
-/

import SignatureText.Proofs.Declaration.Parameter

namespace SignatureText

/-- What is picked from a list, with its head told apart. -/
theorem filterMap_cons_eq_append {α β : Type} (pick : α → Option β) (item : α) (rest : List α) :
    (item :: rest).filterMap pick = (pick item).toList ++ rest.filterMap pick := by
  rw [List.filterMap_cons]
  cases pick item <;> rfl

/-! ### Parameters -/

namespace Parameter

/-- The fields of a parameter that steps bring values to. -/
inductive Field where
  | nullable
  | passing
  | variadic
  | attributes
  | defaultArgument
deriving DecidableEq, Repr

/-- What one step brings to a field. All fields but the list of attributes are overwritten. -/
abbrev Field.Value : Field → Type
  | nullable => Bool
  | passing => Passing
  | variadic => Bool
  | attributes => Attribute
  | defaultArgument => Constant

/-- One step: a value for a field. -/
structure Step where
  field : Field
  value : field.Value

/-- What a step brings to a field, if it is that field's step. -/
def Step.value? (field : Field) (step : Step) : Option field.Value :=
  if own : step.field = field then some (own ▸ step.value) else none

/-- What a run brings to a field, in order. -/
def given (field : Field) (steps : List Step) : List field.Value :=
  steps.filterMap (Step.value? field)

/-- What a run brings to a field last. -/
def last? (field : Field) (steps : List Step) : Option field.Value :=
  (given field steps).getLast?

/-- The parameter after one step. -/
def apply (parameter : Parameter) : Step → Parameter
  | ⟨.nullable, isNullable⟩ => parameter.withNullable isNullable
  | ⟨.passing, passing⟩ => parameter.withPassing passing
  | ⟨.variadic, isVariadic⟩ => parameter.withVariadic isVariadic
  | ⟨.attributes, attr⟩ => parameter.withAttribute attr
  | ⟨.defaultArgument, value⟩ => parameter.withDefault value

/-- The parameter after a run of steps. -/
def after (start : Parameter) (steps : List Step) : Parameter :=
  steps.foldl apply start

variable {field : Field} {step : Step} {steps : List Step}

theorem given_cons :
    given field (step :: steps) = (step.value? field).toList ++ given field steps :=
  filterMap_cons_eq_append (Step.value? field) step steps

/-- A step counts only where no later one is for the same field. -/
theorem last?_cons :
    last? field (step :: steps) = (last? field steps).or (step.value? field) := by
  rw [last?, given_cons, List.getLast?_append]
  cases step.value? field <;> rfl

/-- **One step changes its own field**, and no other. -/
theorem apply_eq (parameter : Parameter) (step : Step) :
    parameter.apply step = { parameter with
      isNullable := (step.value? .nullable).getD parameter.isNullable
      passing := (step.value? .passing).getD parameter.passing
      isVariadic := (step.value? .variadic).getD parameter.isVariadic
      attributes := parameter.attributes ++ (step.value? .attributes).toList
      defaultArgument := (step.value? .defaultArgument).or parameter.defaultArgument } := by
  obtain ⟨field, value⟩ := step
  cases field with
  | nullable => simp [apply, withNullable, Step.value?]
  | passing => simp [apply, withPassing, Step.value?]
  | variadic => simp [apply, withVariadic, Step.value?]
  | attributes => simp [apply, withAttribute, Step.value?]
  | defaultArgument => simp [apply, withDefault, Step.value?]

/-- **After a run, each field holds the last value brought to it**, and all attributes are kept. -/
theorem after_eq (start : Parameter) (steps : List Step) :
    start.after steps = { start with
      isNullable := (last? .nullable steps).getD start.isNullable
      passing := (last? .passing steps).getD start.passing
      isVariadic := (last? .variadic steps).getD start.isVariadic
      attributes := start.attributes ++ given .attributes steps
      defaultArgument := (last? .defaultArgument steps).or start.defaultArgument } := by
  unfold after
  induction steps generalizing start with
  | nil => simp [last?, given]
  | cons step rest ih =>
      rw [List.foldl_cons, ih, apply_eq]
      -- What the first step brought counts behind all the rest, just as the start does behind it.
      simp only [last?_cons, given_cons, Option.getD_or, Option.or_assoc, List.append_assoc]

/-- Two runs that bring the same in the end lead to the same parameter. -/
theorem after_congr (start : Parameter) {first second : List Step}
    (last : ∀ field ≠ .attributes, last? field first = last? field second)
    (attributes : given .attributes first = given .attributes second) :
    start.after first = start.after second := by
  rw [after_eq, after_eq, attributes, last .nullable nofun, last .passing nofun,
    last .variadic nofun, last .defaultArgument nofun]

end Parameter

/-! ### Attributes -/

namespace Attribute

/-- One step: an argument of one of the two kinds. -/
inductive Step where
  | positional (value : Constant)
  | named (name : String) (value : Constant)

def Step.positional? : Step → Option Constant
  | positional value => some value
  | named _ _ => none

def Step.named? : Step → Option (String × Constant)
  | positional _ => none
  | named name value => some (name, value)

/-- The attribute after one step. -/
def apply (attr : Attribute) : Step → Attribute
  | .positional value => attr.withPositional value
  | .named name value => attr.withNamed name value

/-- The attribute after a run of steps. -/
def after (start : Attribute) (steps : List Step) : Attribute :=
  steps.foldl apply start

/-- **One step adds to the list of its own kind**, and not to the other one. -/
theorem apply_eq (attr : Attribute) (step : Step) :
    attr.apply step = { attr with
      positional := attr.positional ++ step.positional?.toList
      named := attr.named ++ step.named?.toList } := by
  cases step with
  | positional value => simp [apply, withPositional, Step.positional?, Step.named?]
  | named name value => simp [apply, withNamed, Step.positional?, Step.named?]

/-- **After a run, each list is longer by the arguments of its kind**, in the order of the run. -/
theorem after_eq (start : Attribute) (steps : List Step) :
    start.after steps = { start with
      positional := start.positional ++ steps.filterMap Step.positional?
      named := start.named ++ steps.filterMap Step.named? } := by
  unfold after
  induction steps generalizing start with
  | nil => simp
  | cons step rest ih =>
      rw [List.foldl_cons, ih, apply_eq]
      simp only [filterMap_cons_eq_append, List.append_assoc]

/-- Two runs that lead from one attribute to the same one have added the same of each kind. -/
theorem after_eq_after_iff {start : Attribute} {first second : List Step} :
    start.after first = start.after second ↔
      first.filterMap Step.positional? = second.filterMap Step.positional? ∧
        first.filterMap Step.named? = second.filterMap Step.named? := by
  rw [after_eq, after_eq, Attribute.mk.injEq, List.append_cancel_left_eq,
    List.append_cancel_left_eq]
  exact and_iff_right rfl

/-- Every step adds an argument, so only the empty run leaves an attribute without any. -/
theorem hasArguments_after (start : Attribute) (steps : List Step) :
    (start.after steps).hasArguments = (start.hasArguments || !steps.isEmpty) := by
  cases steps with
  | nil => exact (Bool.or_false _).symm
  | cons step rest => cases step <;> simp [after_eq, hasArguments, Step.positional?, Step.named?]

end Attribute

namespace Style

variable (style : Style) {attr : Attribute}

/-- The texts of arguments of both kinds, with all positional ones in front. -/
def ArgumentTexts (positional : List Constant) (named : List (String × Constant))
    (texts : List String) : Prop :=
  ∃ front back,
    List.Forall₂ (fun value written => style.constant value = .ok written) positional front ∧
    List.Forall₂ (fun argument written => ∃ value, style.constant argument.2 = .ok value ∧
      written = argument.1 ++ " = " ++ value) named back ∧
    texts = front ++ back

theorem namedArgument_eq_ok_iff {argument : String × Constant} {written : String} :
    style.namedArgument argument = .ok written ↔
      ∃ value, style.constant argument.2 = .ok value ∧ written = argument.1 ++ " = " ++ value := by
  unfold namedArgument
  rw [bind_eq_ok_iff]
  simp only [pure_eq_ok, Except.ok.injEq, @eq_comm _ written]

theorem attributeArguments_eq_ok_iff {texts : List String} :
    style.attributeArguments attr = .ok texts ↔
      style.ArgumentTexts attr.positional attr.named texts := by
  unfold attributeArguments ArgumentTexts
  simp only [bind_eq_ok_iff, mapM_eq_ok_iff, namedArgument_eq_ok_iff, pure_eq_ok,
    Except.ok.injEq, exists_and_left, @eq_comm _ texts]

/-- **Positional arguments are written in front of named ones.** -/
theorem attributeText_eq_ok_iff {type : TypeRef} (known : attr.type = some type) {text : String} :
    style.attributeText attr = .ok text ↔ ∃ texts,
      style.ArgumentTexts attr.positional attr.named texts ∧ text = bracketed attr type texts := by
  rw [style.attributeText_of_type known, map_eq_ok_iff]
  simp only [attributeArguments_eq_ok_iff, @eq_comm _ text]

/-- **An attribute is refused for a positional argument first.** -/
theorem attributeText_eq_error_iff {type : TypeRef} (known : attr.type = some type)
    {refusal : Refusal} :
    style.attributeText attr = .error refusal ↔ ∃ before value after,
      attr.positional ++ attr.named.map Prod.snd = before ++ value :: after ∧
      style.constant value = .error refusal ∧
      ∀ earlier ∈ before, ∃ text, style.constant earlier = .ok text := by
  rw [style.attributeText_of_type known, map_eq_error_iff, ← refusal?_eq_some_iff,
    style.refusal?_attributeArguments known, Attribute.writtenArguments, known,
    List.findSome?_eq_some_iff]
  simp only [refusal?_eq_some_iff, refusal?_eq_none_iff]

theorem bracketed_after_ofType (type : TypeRef) (steps : List Attribute.Step)
    (texts : List String) :
    bracketed ((Attribute.ofType type).after steps) type texts =
      if steps = [] then "[" ++ type.name ++ "]"
      else "[" ++ type.name ++ "(" ++ ", ".intercalate texts ++ ")]" := by
  rw [bracketed, Attribute.hasArguments_after]
  cases steps <;> rfl

end Style

/-! ### Any two runs -/

/--
**The order of steps for different fields does not matter.** Two runs that start from one parameter,
bring the same value last to each field that is overwritten, or none, and add the same attributes in
the same order, lead to the same parameter, and so to the same declaration, default argument and
forwarding argument in every style. Each field then holds the last value brought to it, or what it
held at first, and the attributes are all there. Two runs lead from one attribute to the same one
exactly if they add the same positional arguments and the same named ones, however the two are
mixed: it is written with all positional arguments in front of the named ones, or refused for the
first argument in that order that is refused.
-/
theorem after_order_free :
    (∀ (start : Parameter) (first second : List Parameter.Step),
      (∀ field ≠ .attributes, Parameter.last? field first = Parameter.last? field second) →
      Parameter.given .attributes first = Parameter.given .attributes second →
      start.after first = start.after second ∧ ∀ style : Style,
        style.parameter (start.after first) = style.parameter (start.after second) ∧
        style.defaultSuffix (start.after first) = style.defaultSuffix (start.after second) ∧
        style.argument (start.after first) = style.argument (start.after second)) ∧
    (∀ (start : Parameter) (steps : List Parameter.Step), start.after steps = { start with
      isNullable := (Parameter.last? .nullable steps).getD start.isNullable
      passing := (Parameter.last? .passing steps).getD start.passing
      isVariadic := (Parameter.last? .variadic steps).getD start.isVariadic
      attributes := start.attributes ++ Parameter.given .attributes steps
      defaultArgument := (Parameter.last? .defaultArgument steps).or start.defaultArgument }) ∧
    (∀ (start : Attribute) (first second : List Attribute.Step),
      start.after first = start.after second ↔
        first.filterMap Attribute.Step.positional? = second.filterMap Attribute.Step.positional? ∧
        first.filterMap Attribute.Step.named? = second.filterMap Attribute.Step.named?) ∧
    ∀ (style : Style) (type : TypeRef) (steps : List Attribute.Step),
      let attr := (Attribute.ofType type).after steps
      let positional := steps.filterMap Attribute.Step.positional?
      let named := steps.filterMap Attribute.Step.named?
      (∀ text, style.attributeText attr = .ok text ↔ ∃ texts,
        style.ArgumentTexts positional named texts ∧
        text = if steps = [] then "[" ++ type.name ++ "]"
          else "[" ++ type.name ++ "(" ++ ", ".intercalate texts ++ ")]") ∧
      ∀ refusal, style.attributeText attr = .error refusal ↔ ∃ before value after,
        positional ++ named.map Prod.snd = before ++ value :: after ∧
        style.constant value = .error refusal ∧
        ∀ earlier ∈ before, ∃ text, style.constant earlier = .ok text := by
  refine ⟨fun start first second last attributes => ?_, Parameter.after_eq,
    fun start first second => Attribute.after_eq_after_iff, fun style type steps => ?_⟩
  · rw [start.after_congr last attributes]
    exact ⟨rfl, fun style => ⟨rfl, rfl, rfl⟩⟩
  · have known : ((Attribute.ofType type).after steps).type = some type := by
      rw [Attribute.after_eq]
      rfl
    constructor
    · intro text
      rw [style.attributeText_eq_ok_iff known]
      simp only [Style.bracketed_after_ofType]
      rw [Attribute.after_eq]
      rfl
    · intro refusal
      rw [style.attributeText_eq_error_iff known, Attribute.after_eq]
      rfl

/--
Of the values that are overwritten, the character without a literal and the mode that allows no
default argument are forgotten, and both runs lead to one parameter. A named argument that was added
first is written behind a positional one, and is not the one that is refused.
-/
theorem after_order_free_range :
    let style : Style := {}
    let range := Attribute.ofType (.reference "Range")
    let notNull := Attribute.ofType (.reference "NotNull")
    let level := Parameter.ofType "Level" (.value "int")
    let first : List Parameter.Step :=
      [⟨.defaultArgument, .char '😀'⟩, ⟨.attributes, range⟩, ⟨.passing, .output⟩,
        ⟨.nullable, false⟩, ⟨.passing, .reference⟩, ⟨.attributes, notNull⟩, ⟨.nullable, true⟩,
        ⟨.defaultArgument, .null⟩]
    let second : List Parameter.Step :=
      [⟨.nullable, true⟩, ⟨.attributes, range⟩, ⟨.attributes, notNull⟩, ⟨.defaultArgument, .null⟩,
        ⟨.passing, .reference⟩]
    (∀ field ≠ .attributes, Parameter.last? field first = Parameter.last? field second) ∧
      Parameter.given .attributes first = Parameter.given .attributes second ∧
      level.after first = level.after second ∧
      style.parameter (level.after first) = style.parameter (level.after second) ∧
      style.defaultSuffix (level.after second) = .ok " = null" ∧
      style.attributeText
          (range.after [.named "Message" (.string "no"), .positional (.bool true)]) =
        .ok "[Range(true, Message = \x22no\x22)]" ∧
      style.attributeText (range.after [.named "Least" (.char '😀'), .positional (.char '🚀')]) =
        .error (.unsupported (.charBeyondPlane '🚀')) := by
  intro style range notNull level first second
  have last :
      ∀ field ≠ .attributes, Parameter.last? field first = Parameter.last? field second := by
    intro field overwritten
    cases field with
    | attributes => exact absurd rfl overwritten
    | _ => rfl
  obtain ⟨runs, fields, _, attributes⟩ := after_order_free
  obtain ⟨same, written⟩ := runs level first second last rfl
  refine ⟨last, rfl, same, (written style).1, ?_, ?_, ?_⟩
  · rw [fields]
    rfl
  · exact ((attributes style (.reference "Range") _).1 _).mpr
      ⟨_, ⟨["true"], ["Message = \x22no\x22"], .cons rfl .nil, .cons ⟨_, rfl, rfl⟩ .nil, rfl⟩, rfl⟩
  · exact ((attributes style (.reference "Range") _).2 _).mpr
      ⟨[], .char '🚀', [.char '😀'], rfl, rfl, fun _ member => by cases member⟩

end SignatureText
