/-
**Which name a method has, and which parameters share one.**

A method is named by the core of the text that was asked for, and by the default where nothing but
white space was. Nothing else of a callable or of how it is written plays a part.

* `methodName_of_visible`, `methodName_of_allBlank` — the two cases.
* `methodName_exact` — the theorem about names: the core is the only one there is, a name that was
  asked for is not changed by asking for it, and every signature has the name of its request.

With reserved words marked, two parameters of a signature have the same name exactly if their
declared names merge: they are the same after normalization, or one is a reserved word and the other
that word with the mark.

* `Generator.parts_eq_ok` — under either policy the texts are those of the survivors, one for each.
* `Style.exists_of_parameter_eq_ok` — the name of the binding stands in every declaration.
* `Declaration.nodup_bindingName_iff` — names of a list are distinct if no two of them merge.
* `Generator.shared_names` — the theorem about signatures.
-/

import SignatureText.Proofs.Declaration.Name
import SignatureText.Proofs.Signature.Rejected

namespace SignatureText

/-! ### Names of methods -/

section Methods

open Text (AllBlank IsCore)

variable {requested : Option String} {s core fallback : String}

theorem methodName_of_visible (visible : ¬AllBlank s) :
    methodName (some s) fallback = Text.trim s :=
  if_neg (mt Text.trim_eq_empty_iff.mp visible)

theorem methodName_of_isCore (isCore : IsCore s core) : methodName (some s) fallback = core := by
  rw [methodName_of_visible isCore.visible, isCore.trim_eq]

/-- **Where nothing is to be seen of a request, the default stands in for it**, as it is. -/
theorem methodName_of_allBlank (blank : ∀ s, requested = some s → AllBlank s) :
    methodName requested fallback = fallback := by
  cases requested with
  | none => rfl
  | some s => exact if_pos (Text.trim_of_allBlank (blank s rfl))

/--
**Which name a method has.** If the text that was asked for holds anything but white space, its name
is the one text that the request is with white space around it, and asking for the name itself gives
it again. Otherwise it is the default as it stands. So a name is white space alone only where the
default is. A signature is named by the request and the default alone, whatever its parameters, the
style and the policy are.
-/
theorem methodName_exact (requested : Option String) (fallback : String) :
    (∀ s, requested = some s → ¬AllBlank s →
      (∀ core, IsCore s core ↔ core = methodName requested fallback) ∧
        methodName (some (methodName requested fallback)) fallback =
          methodName requested fallback) ∧
    ((∀ s, requested = some s → AllBlank s) → methodName requested fallback = fallback) ∧
    (AllBlank (methodName requested fallback) → AllBlank fallback) ∧
    ∀ (generator : Generator) (callable : Callable) (signature : Signature),
      callable.requestedName = requested → generator.defaultMethodName = fallback →
      generator.signature callable = .ok signature →
      signature.methodName = methodName requested fallback := by
  refine ⟨?_, methodName_of_allBlank, fun blank => ?_, ?_⟩
  · rintro s rfl visible
    rw [methodName_of_visible visible]
    exact ⟨fun core => Text.isCore_iff visible,
      methodName_of_isCore (Text.isCore_trim visible).self⟩
  · by_cases absent : ∀ s, requested = some s → AllBlank s
    · rwa [methodName_of_allBlank absent] at blank
    · simp only [not_forall] at absent
      obtain ⟨s, rfl, visible⟩ := absent
      rw [methodName_of_visible visible] at blank
      exact absurd blank (Text.isCore_trim visible).not_allBlank
  · rintro generator callable signature rfl rfl made
    obtain ⟨-, parts, -, rfl⟩ := Generator.signature_eq_ok_iff.mp made
    rfl

/-- White space of several kinds is taken away around a name but not inside it; a request of white
space alone leaves the default with its own. -/
theorem methodName_exact_padded :
    let request := "\u00a0\tMake It\u3000"
    let generator : Generator := { defaultMethodName := " Of ", policy := .skip }
    ¬AllBlank request ∧ IsCore request "Make It" ∧
      methodName (some request) " Of " = "Make It" ∧
      methodName (some "Make It") " Of " = "Make It" ∧
      methodName (some "\u2003") " Of " = " Of " ∧
      ∃ signature, generator.signature ⟨some request, []⟩ = .ok signature ∧
        signature.methodName = "Make It" := by
  intro request generator
  obtain ⟨named, -, -, signatures⟩ := methodName_exact (some request) " Of "
  obtain ⟨-, absent, -, -⟩ := methodName_exact (some "\u2003") " Of "
  have visible : ¬AllBlank request := by decide
  obtain ⟨core, again⟩ := named request rfl visible
  have isCore : IsCore request "Make It" :=
    ⟨⟨'M', _, rfl, rfl⟩, ⟨"Make I".toList, 't', rfl, rfl⟩, "\u00a0\t", "\u3000", rfl, by decide,
      by decide⟩
  have name := (core _).mp isCore
  rw [← name] at again signatures
  have blank : ∀ s, some "\u2003" = some s → AllBlank s := by
    rintro _ ⟨⟩
    decide
  exact ⟨visible, isCore, name.symm, again, absent blank, _, rfl,
    signatures generator ⟨some request, []⟩ _ rfl rfl rfl⟩

end Methods

/-! ### Names of bindings in texts -/

/-- A declaration ends with the name of the binding, up to the default argument. -/
theorem Style.exists_of_parameter_eq_ok {style : Style} {parameter : Parameter}
    {declaration : String} (declared : style.parameter parameter = .ok declaration) :
    ∃ front suffix, style.defaultSuffix parameter = .ok suffix ∧
      declaration = front ++ " " ++ style.bindingName parameter.name ++ suffix := by
  obtain ⟨_, _, written⟩ := bind_eq_ok_iff.mp declared
  obtain ⟨suffix, default, written⟩ := bind_eq_ok_iff.mp written
  cases written
  exact ⟨_, suffix, default, rfl⟩

theorem Style.bindingName_of_escapes {style : Style} (escapes : style.escapesKeywords = true)
    (name : String) : style.bindingName name = Declaration.bindingName true name := by
  rw [Style.bindingName, escapes]

/-- The names of a list's bindings are distinct exactly if no two declared names merge. -/
theorem Declaration.nodup_bindingName_iff {parameters : List Parameter} :
    (parameters.map fun parameter => bindingName true parameter.name).Nodup ↔
      parameters.Pairwise fun p q => ¬Merge p.name q.name := by
  rw [List.Nodup, List.pairwise_map]
  simp only [ne_eq, bindingName_eq_iff]

/-! ### Names of bindings in signatures -/

namespace Generator

/-- **The texts are those of the survivors**, whatever becomes of the others. -/
theorem parts_eq_ok {generator : Generator} {parameters : List Parameter} {parts : Parts}
    (made : generator.parts parameters = .ok parts) :
    (generator.style.survivors parameters).mapM generator.style.parameter =
        .ok parts.declarations ∧
      parts.arguments = (generator.style.survivors parameters).map generator.style.argument := by
  cases policy : generator.policy with
  | skip =>
      obtain ⟨declarations, declared, given⟩ := parts_skip generator policy parameters
      cases given.symm.trans made
      exact ⟨declared, rfl⟩
  | abort =>
      rw [parts_abort policy, map_eq_ok_iff] at made
      obtain ⟨declarations, declared, rfl⟩ := made
      rw [mapM_declare_eq_ok_iff] at declared
      rw [Style.survivors_of_declarations declared]
      exact ⟨declared, rfl⟩

/--
**Which names become one, and which parameters share a name.** With reserved words marked, two names
give the same name of a binding exactly if they merge. A signature has one declaration and one
argument for each parameter that is written, in order, and both hold the name of its binding; so two
of these parameters share their name exactly if the declared names merge, and all names are distinct
exactly if no two merge.
-/
theorem shared_names :
    (∀ a b, Declaration.bindingName true a = Declaration.bindingName true b ↔
      Declaration.Merge a b) ∧
    ∀ (generator : Generator) (callable : Callable) (signature : Signature),
      generator.style.escapesKeywords = true → generator.signature callable = .ok signature →
      ∃ emitted declarations,
        emitted = generator.style.survivors callable.parameters ∧
        emitted.mapM generator.style.parameter = .ok declarations ∧
        signature.parameters = ", ".intercalate declarations ∧
        signature.arguments = ", ".intercalate (emitted.map generator.style.argument) ∧
        (∀ p ∈ emitted, ∃ front suffix,
          generator.style.parameter p =
            .ok (front ++ " " ++ Declaration.bindingName true p.name ++ suffix) ∧
          generator.style.defaultSuffix p = .ok suffix ∧
          generator.style.argument p =
            p.passing.modifier ++ Declaration.bindingName true p.name) ∧
        (∀ p ∈ emitted, ∀ q ∈ emitted,
          Declaration.bindingName true p.name = Declaration.bindingName true q.name ↔
            Declaration.Merge p.name q.name) ∧
        ((emitted.map fun p => Declaration.bindingName true p.name).Nodup ↔
          emitted.Pairwise fun p q => ¬Declaration.Merge p.name q.name) := by
  refine ⟨fun a b => Declaration.bindingName_eq_iff,
    fun generator callable signature escapes made => ?_⟩
  obtain ⟨_, parts, parted, rfl⟩ := signature_eq_ok_iff.mp made
  obtain ⟨declared, arguments⟩ := parts_eq_ok parted
  refine ⟨_, parts.declarations, rfl, declared, rfl, by rw [arguments], fun p member => ?_,
    fun _ _ _ _ => Declaration.bindingName_eq_iff, Declaration.nodup_bindingName_iff⟩
  obtain ⟨declaration, written⟩ := Style.accepts_iff.mp (List.mem_filter.mp member).2
  obtain ⟨front, suffix, default, rfl⟩ := Style.exists_of_parameter_eq_ok written
  rw [Style.bindingName_of_escapes escapes] at written
  exact ⟨front, suffix, written, default, by
    rw [Style.argument, Style.bindingName_of_escapes escapes]⟩

/-- A reserved word and its marked form share a name, though a third parameter between them, which
would share it too, is left out. -/
theorem shared_names_class :
    let generator : Generator := { policy := .skip }
    let word := Parameter.ofType "Class" (.reference "Type")
    let glyph := (Parameter.ofType "class" (.value "char")).withDefault (.char '😀')
    let marked := Parameter.ofType "@class" (.reference "string")
    let callable : Callable := ⟨none, [word, glyph, marked]⟩
    generator.style.escapesKeywords = true ∧
      ∃ signature, generator.signature callable = .ok signature ∧
        signature.skipped = ["class"] ∧
        Declaration.bindingName true word.name = Declaration.bindingName true marked.name ∧
        signature.arguments = ", ".intercalate
          ([word, marked].map fun p => p.passing.modifier ++ Declaration.bindingName true p.name) ∧
        ¬([word, marked].map fun p => Declaration.bindingName true p.name).Nodup := by
  intro generator word glyph marked callable
  obtain ⟨names, signatures⟩ := shared_names
  have merge : Declaration.Merge "Class" "@class" :=
    .inr ⟨"class", by decide, .inl ⟨by decide +kernel, by decide +kernel⟩⟩
  have survive : generator.style.survivors callable.parameters = [word, marked] := rfl
  obtain ⟨_, _, rfl, _, _, arguments, _, _, distinct⟩ :=
    signatures generator callable _ rfl rfl
  rw [survive] at arguments distinct
  refine ⟨rfl, _, rfl, rfl, (names _ _).mpr merge, arguments, fun nodup => ?_⟩
  have apart := List.rel_of_pairwise_cons (distinct.mp nodup) List.mem_cons_self
  exact apart merge

end Generator

end SignatureText
