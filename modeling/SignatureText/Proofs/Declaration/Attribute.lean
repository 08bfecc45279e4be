/-
**Attributes before a parameter.**

What stands before a parameter is made attribute by attribute. One whose class is known leaves its
brackets and a blank or refuses the whole; one whose class could not be found leaves nothing.

* `Style.attributeText_eq_unresolved_iff` — **only a missing class is taken for one**: all else that
  an attribute can be refused for comes from its arguments, and a constant is never refused that
  way.
* `Style.attributes_eq_mapM` — so a list is what its resolved attributes are, one after the other.
* `Style.refusal?_attributes` — and it is refused for the first of their arguments that is refused.
* `Style.attributes_exact` — the theorem about lists: put together, thinned out, and one by one.
-/

import SignatureText.Declaration
import SignatureText.Proofs.Literal.Refused

namespace SignatureText

namespace Attribute

/-- The class of the attribute is known. -/
def isResolved (attr : Attribute) : Bool :=
  attr.type.isSome

/-- The constants that are written for an attribute: its arguments in order, and none at all if its
class is missing. -/
def writtenArguments (attr : Attribute) : List Constant :=
  match attr.type with
  | none => []
  | some _ => attr.positional ++ attr.named.map Prod.snd

end Attribute

namespace Style

variable (style : Style)

/-! ### One attribute -/

/-- What a style refuses was refused before; it only lets more pass. -/
theorem error_of_settle {c : Constant} {outcome : Except Refusal String} {refusal : Refusal}
    (failed : style.settle c outcome = .error refusal) : outcome = .error refusal := by
  unfold settle at failed
  split at failed
  · cases leniency : style.leniency <;> rw [leniency] at failed <;> cases failed
    rfl
  · exact failed

theorem refusal_of_constant {c : Constant} {refusal : Refusal}
    (failed : style.constant c = .error refusal) : ∃ cause, refusal = .unsupported cause :=
  Literal.refusal_of_constant (style.error_of_settle failed)

theorem refusal_of_attributeArguments {attr : Attribute} {refusal : Refusal}
    (failed : style.attributeArguments attr = .error refusal) :
    ∃ cause, refusal = .unsupported cause := by
  rcases bind_eq_error_iff.mp failed with positional | ⟨texts, _, failed⟩
  · obtain ⟨c, _, refused⟩ := exists_of_mapM_eq_error positional
    exact style.refusal_of_constant refused
  · rcases bind_eq_error_iff.mp failed with named | ⟨others, _, failed⟩
    · obtain ⟨argument, _, refused⟩ := exists_of_mapM_eq_error named
      rcases bind_eq_error_iff.mp refused with refused | ⟨text, _, refused⟩
      · exact style.refusal_of_constant refused
      · cases refused
    · cases failed

/-- The text of an attribute of a given class from the texts of its arguments. -/
def bracketed (attr : Attribute) (type : TypeRef) (texts : List String) : String :=
  if attr.hasArguments then "[" ++ type.name ++ "(" ++ ", ".intercalate texts ++ ")]"
  else "[" ++ type.name ++ "]"

/-- With its class known, an attribute is refused exactly where one of its arguments is. -/
theorem attributeText_of_type {attr : Attribute} {type : TypeRef} (known : attr.type = some type) :
    style.attributeText attr = (style.attributeArguments attr).map (bracketed attr type) := by
  unfold attributeText bracketed
  simp only [known]
  by_cases withArguments : attr.hasArguments
  · simp only [withArguments, if_true]
    cases style.attributeArguments attr <;> rfl
  · have none : attr.positional = [] ∧ attr.named = [] := by
      simpa [Attribute.hasArguments] using withArguments
    simp [withArguments, attributeArguments, none.1, none.2, Except.map]

/-- **Only a missing class is taken for a missing class**, whatever the arguments are. -/
theorem attributeText_eq_unresolved_iff {attr : Attribute} :
    style.attributeText attr = .error .unresolvedAttribute ↔ attr.type = none := by
  constructor
  · intro failed
    cases resolved : attr.type with
    | none => rfl
    | some type =>
        rw [style.attributeText_of_type resolved, map_eq_error_iff] at failed
        obtain ⟨cause, impossible⟩ := style.refusal_of_attributeArguments failed
        cases impossible
  · intro unknown
    rw [attributeText, unknown]

/-! ### Lists of attributes -/

theorem attributes_cons_of_none {attr : Attribute} {rest : List Attribute}
    (unknown : attr.type = none) : style.attributes (attr :: rest) = style.attributes rest := by
  rw [attributes, attributeText, unknown]

/-- An attribute whose class is known is never passed over: it stands in front or refuses all. -/
theorem attributes_cons_of_type {attr : Attribute} {rest : List Attribute} {type : TypeRef}
    (known : attr.type = some type) :
    style.attributes (attr :: rest) = do
      let texts ← style.attributeArguments attr
      return bracketed attr type texts ++ " " ++ (← style.attributes rest) := by
  rw [attributes, style.attributeText_of_type known]
  cases outcome : style.attributeArguments attr with
  | ok texts => rfl
  | error refusal =>
      -- The one refusal that is passed over is not among those of the arguments.
      obtain ⟨cause, rfl⟩ := style.refusal_of_attributeArguments outcome
      rfl

/-- **A list is what its resolved attributes are**, each with a blank behind it. -/
theorem attributes_eq_mapM (attrs : List Attribute) :
    style.attributes attrs =
      ((attrs.filter Attribute.isResolved).mapM style.attributeText).map
        fun texts => String.join (texts.map (· ++ " ")) := by
  induction attrs with
  | nil => rfl
  | cons attr rest ih =>
      cases resolved : attr.type with
      | none =>
          have dropped : ¬attr.isResolved := by simp [Attribute.isResolved, resolved]
          rw [style.attributes_cons_of_none resolved, List.filter_cons_of_neg dropped, ih]
      | some type =>
          have kept : attr.isResolved := by simp [Attribute.isResolved, resolved]
          rw [style.attributes_cons_of_type resolved, List.filter_cons_of_pos kept,
            List.mapM_cons, style.attributeText_of_type resolved, ih]
          cases style.attributeArguments attr with
          | error refusal => rfl
          | ok texts =>
              cases (rest.filter Attribute.isResolved).mapM style.attributeText with
              | error refusal => rfl
              | ok others => simp

/-- Two lists put together are refused with the first refusal, and else their texts are. -/
theorem attributes_append (first second : List Attribute) :
    style.attributes (first ++ second) = do
      return (← style.attributes first) ++ (← style.attributes second) := by
  rw [attributes_eq_mapM, attributes_eq_mapM, attributes_eq_mapM, List.filter_append,
    List.mapM_append]
  cases (first.filter Attribute.isResolved).mapM style.attributeText with
  | error refusal => rfl
  | ok front =>
      cases (second.filter Attribute.isResolved).mapM style.attributeText with
      | error refusal => rfl
      | ok back => simp [String.join_append]

theorem attributes_filter (attrs : List Attribute) :
    style.attributes (attrs.filter Attribute.isResolved) = style.attributes attrs := by
  rw [attributes_eq_mapM, attributes_eq_mapM, List.filter_filter]
  simp only [Bool.and_self]

theorem refusal?_attributeArguments {attr : Attribute} {type : TypeRef}
    (known : attr.type = some type) :
    refusal? (style.attributeArguments attr) =
      attr.writtenArguments.findSome? fun c => refusal? (style.constant c) := by
  have named : refusal? (attr.named.mapM style.namedArgument) =
      (attr.named.map Prod.snd).findSome? fun c => refusal? (style.constant c) := by
    rw [refusal?_mapM, List.findSome?_map]
    congr 1
    funext argument
    exact refusal?_bind_pure
  have after (texts : List String) :
      refusal? (do return texts ++ (← attr.named.mapM style.namedArgument)) =
        (attr.named.map Prod.snd).findSome? fun c => refusal? (style.constant c) := by
    rw [refusal?_bind_pure, named]
  unfold attributeArguments Attribute.writtenArguments
  rw [known, refusal?_bind after, refusal?_mapM, List.findSome?_append]

/-- **A list is refused for the first argument that is refused**, of the attributes in order. -/
theorem refusal?_attributes (attrs : List Attribute) :
    refusal? (style.attributes attrs) =
      (attrs.flatMap Attribute.writtenArguments).findSome? fun c =>
        refusal? (style.constant c) := by
  induction attrs with
  | nil => rfl
  | cons attr rest ih =>
      rw [List.flatMap_cons, List.findSome?_append, ← ih]
      cases resolved : attr.type with
      | none =>
          rw [style.attributes_cons_of_none resolved, Attribute.writtenArguments, resolved]
          rfl
      | some type =>
          rw [style.attributes_cons_of_type resolved, ← style.refusal?_attributeArguments resolved]
          apply refusal?_bind
          intro texts
          exact refusal?_bind_pure

/--
**What stands before a parameter.** The texts of two lists are put together; if one is refused, so
is the whole, with the first refusal. Attributes whose class could not be found can be left out of
the list. All others are written in order, each with a blank behind it, or the first that is refused
refuses the list; none of them is passed over, whatever its arguments.
-/
theorem attributes_exact :
    (∀ first second, style.attributes (first ++ second) =
      match style.attributes first, style.attributes second with
      | .ok front, .ok back => .ok (front ++ back)
      | .ok _, .error refusal => .error refusal
      | .error refusal, _ => .error refusal) ∧
    (∀ attrs, style.attributes (attrs.filter Attribute.isResolved) = style.attributes attrs) ∧
    (∀ attrs text, style.attributes attrs = .ok text ↔
      ∃ texts, List.Forall₂ (fun attr written => style.attributeText attr = .ok written)
          (attrs.filter Attribute.isResolved) texts ∧
        text = String.join (texts.map (· ++ " "))) ∧
    (∀ attrs refusal, style.attributes attrs = .error refusal ↔
      ∃ before attr after, attrs.filter Attribute.isResolved = before ++ attr :: after ∧
        style.attributeText attr = .error refusal ∧
        ∀ earlier ∈ before, ∃ text, style.attributeText earlier = .ok text) ∧
    ∀ attr, style.attributeText attr = .error .unresolvedAttribute ↔ attr.isResolved = false := by
  refine ⟨fun first second => ?_, style.attributes_filter, fun attrs text => ?_,
    fun attrs refusal => ?_, fun attr => ?_⟩
  · rw [attributes_append]
    cases style.attributes first <;> cases style.attributes second <;> rfl
  · rw [attributes_eq_mapM, map_eq_ok_iff]
    simp only [mapM_eq_ok_iff, @eq_comm _ text]
  · rw [attributes_eq_mapM, map_eq_error_iff, mapM_eq_error_iff]
  · rw [attributeText_eq_unresolved_iff, Attribute.isResolved, Option.isSome_eq_false_iff,
      Option.isNone_iff_eq_none]

/--
A character without a literal does nothing in an attribute whose class is missing, and refuses the
list in one whose class is known; what stands before that attribute does not help.
-/
theorem attributes_exact_glyph :
    let style : Style := {}
    let missing := Attribute.unresolved.withPositional (.char '😀')
    let notNull := Attribute.ofType (.reference "NotNull")
    let glyph := (Attribute.ofType (.reference "Glyph")).withNamed "Value" (.char '😀')
    style.attributes [missing, notNull] = .ok "[NotNull] " ∧
      style.attributes ([missing, notNull] ++ [glyph, missing]) =
        .error (.unsupported (.charBeyondPlane '😀')) := by
  intro style missing notNull glyph
  obtain ⟨append, _, written, refused, _⟩ := style.attributes_exact
  have front : style.attributes [missing, notNull] = .ok "[NotNull] " :=
    (written _ _).mpr ⟨["[NotNull]"], .cons rfl .nil, rfl⟩
  have back : style.attributes [glyph, missing] = .error (.unsupported (.charBeyondPlane '😀')) :=
    (refused _ _).mpr ⟨[], glyph, [], rfl, rfl, fun _ member => by cases member⟩
  refine ⟨front, ?_⟩
  rw [append, front, back]

end Style

end SignatureText
