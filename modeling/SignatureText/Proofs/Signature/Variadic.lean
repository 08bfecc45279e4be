/-
**Lists with a parameter that takes all further arguments.**

The check goes through the list once and counts nothing: whatever stands behind such a parameter
already puts it in the wrong place, and that is what makes it the only one.

* `Parameter.IsMisplaced`, `NoneMisplaced` — a parameter with what stands behind it, and a list of
  them with what stands behind all, said without the check.
* `variadicFault?_eq_none_iff`, `variadicFault?_eq_some_iff` — **the check finds the first misplaced
  parameter**, by induction on the list: the head is looked at with all of the tail behind it.
* `variadicFault?_exact` — the theorem: which lists are legal, and which parameter and which rule
  the others are blamed for.
* `variadicFault?_of_sublist`, `modifier_ne_of_mem_dropLast` — what follows for lists that
  parameters are left out of, and for the modifiers that are written.
-/

import Mathlib.Data.List.Basic
import SignatureText.Signature

namespace SignatureText

/-! ### Misplaced parameters -/

namespace Parameter

/-- The parameter takes all further arguments, but not by value, or others stand behind it. -/
def IsMisplaced (parameter : Parameter) (behind : List Parameter) : Prop :=
  parameter.isVariadic = true ∧ (parameter.passing ≠ .value ∨ behind ≠ [])

/-- What a misplaced parameter is blamed for; the mode counts before the place. -/
def blame (parameter : Parameter) : VariadicFault :=
  if parameter.passing = .value then .notLast else .notByValue

variable {parameter : Parameter} {behind : List Parameter}

theorem not_isMisplaced_iff :
    ¬parameter.IsMisplaced behind ↔
      (parameter.isVariadic = true → behind = [] ∧ parameter.passing = .value) := by
  unfold IsMisplaced
  tauto

theorem variadicFault?_eq_some_iff {fault : VariadicFault} :
    parameter.variadicFault? behind.isEmpty = some fault ↔
      parameter.IsMisplaced behind ∧ fault = parameter.blame := by
  unfold variadicFault? IsMisplaced blame
  by_cases variadic : parameter.isVariadic
  · by_cases byValue : parameter.passing = .value
    · cases behind <;> simp [variadic, byValue, eq_comm]
    · simp [variadic, byValue, eq_comm]
  · simp [variadic]

theorem variadicFault?_eq_none_iff :
    parameter.variadicFault? behind.isEmpty = none ↔ ¬parameter.IsMisplaced behind := by
  rw [Option.eq_none_iff_forall_ne_some]
  simp [variadicFault?_eq_some_iff]

end Parameter

/-- None of these parameters is misplaced, with others behind all of them. -/
def NoneMisplaced (parameters others : List Parameter) : Prop :=
  ∀ before parameter behind, parameters = before ++ parameter :: behind →
    ¬parameter.IsMisplaced (behind ++ others)

theorem noneMisplaced_nil {others : List Parameter} : NoneMisplaced [] others := by
  intro before parameter behind split
  cases before <;> cases split

/-- The head of a list has all of the tail behind it. -/
theorem noneMisplaced_cons_iff {parameter : Parameter} {rest others : List Parameter} :
    NoneMisplaced (parameter :: rest) others ↔
      ¬parameter.IsMisplaced (rest ++ others) ∧ NoneMisplaced rest others := by
  constructor
  · intro all
    refine ⟨all [] parameter rest rfl, fun before later behind split => ?_⟩
    apply all (parameter :: before) later behind
    rw [split, List.cons_append]
  · rintro ⟨first, tail⟩ before later behind split
    cases before with
    | nil =>
        obtain ⟨rfl, rfl⟩ := List.cons.inj split
        exact first
    | cons _ before => exact tail before later behind (List.cons.inj split).2

/-- With nothing behind the list, each that takes all further arguments is last, and by value. -/
theorem noneMisplaced_iff {parameters : List Parameter} :
    NoneMisplaced parameters [] ↔
      ∀ before parameter behind, parameters = before ++ parameter :: behind →
        parameter.isVariadic = true → behind = [] ∧ parameter.passing = .value := by
  unfold NoneMisplaced
  simp only [List.append_nil, Parameter.not_isMisplaced_iff]

/-! ### The check -/

theorem variadicFault?_cons_eq_none_iff {parameter : Parameter} {rest : List Parameter} :
    variadicFault? (parameter :: rest) = none ↔
      ¬parameter.IsMisplaced rest ∧ variadicFault? rest = none := by
  rw [variadicFault?, ← Parameter.variadicFault?_eq_none_iff]
  cases parameter.variadicFault? rest.isEmpty <;> simp

/-- **A list passes exactly if none of its parameters is misplaced.** -/
theorem variadicFault?_eq_none_iff {parameters : List Parameter} :
    variadicFault? parameters = none ↔ NoneMisplaced parameters [] := by
  induction parameters with
  | nil => exact iff_of_true rfl noneMisplaced_nil
  | cons head rest ih =>
      rw [variadicFault?_cons_eq_none_iff, noneMisplaced_cons_iff, ih, List.append_nil]

/-- **A list that does not pass is blamed on its first misplaced parameter.** -/
theorem variadicFault?_eq_some_iff {parameters : List Parameter} {name : String}
    {fault : VariadicFault} :
    variadicFault? parameters = some (name, fault) ↔
      ∃ before parameter behind, parameters = before ++ parameter :: behind ∧
        parameter.IsMisplaced behind ∧ name = parameter.name ∧ fault = parameter.blame ∧
        NoneMisplaced before (parameter :: behind) := by
  induction parameters with
  | nil => simp [variadicFault?]
  | cons head rest ih =>
      rw [variadicFault?]
      cases found : head.variadicFault? rest.isEmpty with
      | some found =>
          obtain ⟨misplaced, rfl⟩ := Parameter.variadicFault?_eq_some_iff.mp found
          constructor
          · rintro ⟨⟩
            exact ⟨[], head, rest, rfl, misplaced, rfl, rfl, noneMisplaced_nil⟩
          · rintro ⟨before, parameter, behind, split, _, rfl, rfl, clear⟩
            cases before with
            | nil =>
                obtain ⟨rfl, rfl⟩ := List.cons.inj split
                rfl
            | cons _ before =>
                -- The head is misplaced itself, so none behind it is the first.
                obtain ⟨rfl, rfl⟩ := List.cons.inj split
                exact absurd misplaced (noneMisplaced_cons_iff.mp clear).1
      | none =>
          have passes : ¬head.IsMisplaced rest := Parameter.variadicFault?_eq_none_iff.mp found
          rw [ih]
          constructor
          · rintro ⟨before, parameter, behind, rfl, misplaced, named, blamed, clear⟩
            exact ⟨head :: before, parameter, behind, rfl, misplaced, named, blamed,
              noneMisplaced_cons_iff.mpr ⟨passes, clear⟩⟩
          · rintro ⟨before, parameter, behind, split, misplaced, named, blamed, clear⟩
            cases before with
            | nil =>
                obtain ⟨rfl, rfl⟩ := List.cons.inj split
                exact absurd misplaced passes
            | cons _ before =>
                obtain ⟨rfl, rfl⟩ := List.cons.inj split
                exact ⟨before, parameter, behind, rfl, misplaced, named, blamed,
                  (noneMisplaced_cons_iff.mp clear).2⟩

/-- The place alone makes it one: a second one would stand behind the first. -/
theorem countP_isVariadic_le_one {parameters : List Parameter}
    (legal : variadicFault? parameters = none) : parameters.countP (·.isVariadic) ≤ 1 := by
  induction parameters with
  | nil => exact Nat.zero_le 1
  | cons head rest ih =>
      obtain ⟨first, others⟩ := variadicFault?_cons_eq_none_iff.mp legal
      rw [List.countP_cons]
      by_cases variadic : head.isVariadic
      · rw [(Parameter.not_isMisplaced_iff.mp first variadic).1]
        simp [variadic]
      · simpa [variadic] using ih others

/--
**Which lists are legal.** At most one parameter takes all further arguments, it is the last, and it
is by value. Any other list is blamed on the first of its parameters that takes all further
arguments and is not by value or not the last: for its mode if that is wrong, and for its place
otherwise.
-/
theorem variadicFault?_exact (parameters : List Parameter) :
    (variadicFault? parameters = none ↔
      parameters.countP (·.isVariadic) ≤ 1 ∧
        ∀ before parameter behind, parameters = before ++ parameter :: behind →
          parameter.isVariadic = true → behind = [] ∧ parameter.passing = .value) ∧
    ∀ name fault, variadicFault? parameters = some (name, fault) ↔
      ∃ before parameter behind, parameters = before ++ parameter :: behind ∧
        parameter.IsMisplaced behind ∧ name = parameter.name ∧ fault = parameter.blame ∧
        ∀ first earlier between, before = first ++ earlier :: between →
          ¬earlier.IsMisplaced (between ++ parameter :: behind) := by
  refine ⟨⟨fun legal => ?_, fun ⟨_, placed⟩ => ?_⟩, fun _ _ => variadicFault?_eq_some_iff⟩
  · exact ⟨countP_isVariadic_le_one legal,
      noneMisplaced_iff.mp (variadicFault?_eq_none_iff.mp legal)⟩
  · exact variadicFault?_eq_none_iff.mpr (noneMisplaced_iff.mpr placed)

/-- Two parameters take all further arguments: the first is blamed, and for its mode, though it is
not the last either. Without it the list is legal. -/
theorem variadicFault?_exact_two :
    let name := Parameter.ofType "Name" (.reference "string")
    let rest := (Parameter.ofType "Rest" (.reference "int[]")).withVariadic true
    let refs := ((Parameter.ofType "Refs" (.reference "int[]")).withVariadic true).withPassing
      .reference
    variadicFault? [name, refs, rest] = some ("Refs", .notByValue) ∧
      variadicFault? [name, rest] = none ∧ [name, rest].countP (·.isVariadic) ≤ 1 := by
  intro name rest refs
  obtain ⟨_, blamed⟩ := variadicFault?_exact [name, refs, rest]
  obtain ⟨legal, _⟩ := variadicFault?_exact [name, rest]
  have passes : variadicFault? [name, rest] = none := rfl
  refine ⟨(blamed _ _).mpr ⟨[name], refs, [rest], rfl, ⟨rfl, .inl (by decide)⟩, rfl, rfl, ?_⟩,
    passes, (legal.mp passes).1⟩
  intro first earlier between split misplaced
  have member : earlier ∈ [name] := by simp [split]
  rw [List.mem_singleton.mp member] at misplaced
  cases misplaced.1

/-! ### Legal lists -/

/-- What is misplaced with fewer parameters behind it is so with more. -/
theorem Parameter.IsMisplaced.mono {parameter : Parameter} {fewer more : List Parameter}
    (misplaced : parameter.IsMisplaced fewer) (sublist : fewer.Sublist more) :
    parameter.IsMisplaced more := by
  refine ⟨misplaced.1, misplaced.2.imp_right fun followed empty => followed ?_⟩
  rw [empty] at sublist
  exact List.sublist_nil.mp sublist

/-- **Leaving parameters out of a legal list leaves a legal list.** -/
theorem variadicFault?_of_sublist {some all : List Parameter} (sublist : some.Sublist all)
    (legal : variadicFault? all = none) : variadicFault? some = none := by
  induction sublist with
  | slnil => rfl
  | cons parameter _ ih => exact ih (variadicFault?_cons_eq_none_iff.mp legal).2
  | cons_cons parameter sublist ih =>
      obtain ⟨head, tail⟩ := variadicFault?_cons_eq_none_iff.mp legal
      exact variadicFault?_cons_eq_none_iff.mpr
        ⟨fun misplaced => head (misplaced.mono sublist), ih tail⟩

/-- A parameter declared with `params` takes all further arguments. -/
theorem Parameter.isVariadic_of_modifier {parameter : Parameter}
    (marked : parameter.modifier = "params ") : parameter.isVariadic = true := by
  unfold modifier at marked
  by_cases variadic : parameter.isVariadic
  · exact variadic
  · cases passing : parameter.passing <;> simp [variadic, passing, Passing.modifier] at marked

/-- In a legal list only the last parameter can be declared with `params`. -/
theorem modifier_ne_of_mem_dropLast {parameters : List Parameter}
    (legal : variadicFault? parameters = none) {parameter : Parameter}
    (member : parameter ∈ parameters.dropLast) : parameter.modifier ≠ "params " := by
  intro marked
  have some : parameters ≠ [] := by
    rintro rfl
    cases member
  obtain ⟨before, between, split⟩ := List.append_of_mem member
  have whole : parameters = before ++ parameter :: (between ++ [parameters.getLast some]) := by
    rw [← List.cons_append, ← List.append_assoc, ← split, List.dropLast_append_getLast]
  have placed := noneMisplaced_iff.mp (variadicFault?_eq_none_iff.mp legal) _ _ _ whole
    (Parameter.isVariadic_of_modifier marked)
  simp at placed

end SignatureText
