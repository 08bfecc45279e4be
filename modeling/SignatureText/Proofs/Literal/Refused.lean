/-
**Which constants have no literal.**

Two constants are refused for themselves: a character beyond the plane that a literal reaches, and
an enum value that the underlying type does not hold. An array is refused for what it holds.

* `Constant.fault?` — why a constant is refused for itself; of an enum value only the integer, and
  of its type only the name and the underlying type are looked at.
* `Constant.leaves` — what a constant holds at any depth of arrays, from left to right.
* `Literal.constant_eq_error_iff` — **a constant is refused for the first fault among its leaves**,
  by recursion on constants and lists of constants.
* `Literal.constant_refused` — **so it is refused exactly if a leaf is**, with what the first such
  leaf is refused with, whatever the integral types of values and members are.
-/

import Mathlib.Data.List.Forall2
import SignatureText.Literal
import SignatureText.Proofs.Model.Integral

namespace SignatureText

namespace Constant

/-! ### Leaves -/

mutual

/-- What a constant holds that is no array, from left to right; what is no array holds itself. -/
def leaves : Constant → List Constant
  | array _ elements => allLeaves elements
  | null => [null]
  | bool b => [bool b]
  | char c => [char c]
  | string s => [string s]
  | integer n => [integer n]
  | single x => [single x]
  | double x => [double x]
  | decimal d => [decimal d]
  | enumMember type n => [enumMember type n]
  | typeOf type => [typeOf type]

/-- What the constants of a list hold, from left to right. -/
def allLeaves : List Constant → List Constant
  | [] => []
  | c :: cs => leaves c ++ allLeaves cs

end

/-- The constant is refused for itself. -/
inductive HasNoLiteral : Constant → Prop where
  | char {c : Char} (beyond : 0xFFFF < c.toNat) : HasNoLiteral (char c)
  | enumMember {type : EnumType} {n : Integral} (beyond : ¬type.underlying.Holds n.value) :
      HasNoLiteral (enumMember type n)

/-- What the constant is refused with for itself, if it is. -/
def fault? : Constant → Option Unsupported
  | char c => if 0xFFFF < c.toNat then some (.charBeyondPlane c) else none
  | enumMember type n =>
    if type.underlying.Holds n.value then none
    else some (.enumValue n.value type.underlying type.name)
  | null | bool _ | string _ | integer _ | single _ | double _ | decimal _ | typeOf _
  | array _ _ => none

theorem hasNoLiteral_iff {c : Constant} : c.HasNoLiteral ↔ ∃ cause, c.fault? = some cause := by
  constructor
  · rintro (beyond | beyond)
    · exact ⟨_, if_pos beyond⟩
    · exact ⟨_, if_neg beyond⟩
  · rintro ⟨cause, fault⟩
    cases c with
    | char c =>
        by_cases beyond : 0xFFFF < c.toNat
        · exact .char beyond
        · simp [fault?, beyond] at fault
    | enumMember type n =>
        by_cases holds : type.underlying.Holds n.value
        · simp [fault?, holds] at fault
        · exact .enumMember holds
    | null | bool _ | string _ | integer _ | single _ | double _ | decimal _ | typeOf _
    | array _ _ => cases fault

theorem fault?_eq_none_iff {c : Constant} : c.fault? = none ↔ ¬c.HasNoLiteral := by
  rw [hasNoLiteral_iff, ← Option.isSome_iff_exists, Option.not_isSome_iff_eq_none]

/-- A list has a fault exactly if one of its constants is refused for itself. -/
theorem exists_findSome?_fault? {cs : List Constant} :
    (∃ cause, cs.findSome? fault? = some cause) ↔ ∃ c ∈ cs, c.HasNoLiteral := by
  rw [← Option.isSome_iff_exists, List.findSome?_isSome_iff]
  simp only [Option.isSome_iff_exists, hasNoLiteral_iff]

/-- Two constants are the same, but for the integral type of an integer or of an enum value and for
the members of the enum type. -/
inductive Alike : Constant → Constant → Prop where
  | same (c : Constant) : Alike c c
  | integer {m n : Integral} (value : m.value = n.value) : Alike (integer m) (integer n)
  | enumMember {s t : EnumType} {m n : Integral} (name : s.name = t.name)
      (underlying : s.underlying = t.underlying) (value : m.value = n.value) :
      Alike (enumMember s m) (enumMember t n)

theorem Alike.fault?_eq {c d : Constant} (alike : Alike c d) : c.fault? = d.fault? := by
  cases alike with
  | same => rfl
  | integer => rfl
  | enumMember name underlying value => rw [fault?, fault?, name, underlying, value]

theorem findSome?_fault?_eq {cs ds : List Constant} (alike : List.Forall₂ Alike cs ds) :
    cs.findSome? fault? = ds.findSome? fault? := by
  induction alike with
  | nil => rfl
  | cons head _ ih => rw [List.findSome?_cons, List.findSome?_cons, head.fault?_eq, ih]

end Constant

namespace Literal

/-! ### Refusals -/

theorem char_eq_error_iff {c : Char} {refusal : Refusal} :
    char c = .error refusal ↔ 0xFFFF < c.toNat ∧ refusal = .unsupported (.charBeyondPlane c) := by
  rw [char]
  by_cases small : c.toNat ≤ 0xFFFF
  · simp [small, Nat.not_lt.mpr small]
  · simp [small, Nat.lt_of_not_le small, eq_comm]

/-- What an enum value is written as, if the underlying type holds it. -/
theorem enumValue_of_holds {type : EnumType} {n : Integral}
    (holds : type.underlying.Holds n.value) :
    enumValue type n = .ok (match type.member? n.value with
      | some member => type.name ++ "." ++ member.name
      | none => "(" ++ type.name ++ ")(" ++ digits ⟨type.underlying, n.value, holds⟩ ++ ")") := by
  have converted : n.convert type.underlying = .ok ⟨type.underlying, n.value, holds⟩ :=
    Integral.ofInt_of_holds holds
  rw [enumValue, converted]
  cases found : type.member? n.value <;> simp only [found]

/-- **An enum value is refused for its integer only**; no member saves it. -/
theorem enumValue_eq_error_iff {type : EnumType} {n : Integral} {refusal : Refusal} :
    enumValue type n = .error refusal ↔ ¬type.underlying.Holds n.value ∧
      refusal = .unsupported (.enumValue n.value type.underlying type.name) := by
  by_cases holds : type.underlying.Holds n.value
  · simp [enumValue_of_holds holds, holds]
  · have beyond : n.convert type.underlying = .error ⟨type.underlying, n.value⟩ :=
      Integral.ofInt_of_not_holds holds
    rw [enumValue, beyond]
    simp [holds, eq_comm]

mutual

/-- **A constant is refused for the first fault among its leaves.** -/
theorem constant_eq_error_iff : {c : Constant} → {refusal : Refusal} →
    (constant c = .error refusal ↔
      ∃ cause, c.leaves.findSome? Constant.fault? = some cause ∧ refusal = .unsupported cause)
  | .char c, refusal => by
      rw [constant, char_eq_error_iff, Constant.leaves, List.findSome?_singleton]
      by_cases beyond : 0xFFFF < c.toNat <;> simp [Constant.fault?, beyond]
  | .enumMember type n, refusal => by
      rw [constant, enumValue_eq_error_iff, Constant.leaves, List.findSome?_singleton]
      by_cases holds : type.underlying.Holds n.value <;> simp [Constant.fault?, holds]
  | .array type elements, refusal => by
      rw [constant, bind_eq_error_iff, Constant.leaves, constants_eq_error_iff]
      simp
  | .null, _ | .bool _, _ | .string _, _ | .integer _, _ | .single _, _ | .double _, _
  | .decimal _, _ | .typeOf _, _ => by
      simp [constant, Constant.leaves, Constant.fault?]

/-- So is a list of constants. -/
theorem constants_eq_error_iff : {cs : List Constant} → {refusal : Refusal} →
    (constants cs = .error refusal ↔
      ∃ cause, (Constant.allLeaves cs).findSome? Constant.fault? = some cause ∧
        refusal = .unsupported cause)
  | [], refusal => by
      simp [constants, Constant.allLeaves]
  | c :: cs, refusal => by
      rw [constants, Constant.allLeaves, List.findSome?_append]
      cases fault : c.leaves.findSome? Constant.fault? with
      | some cause =>
          have head : constant c = .error (.unsupported cause) :=
            constant_eq_error_iff.mpr ⟨cause, fault, rfl⟩
          simp [head, eq_comm]
      | none =>
          cases head : constant c with
          | error other =>
              obtain ⟨cause, found, _⟩ := constant_eq_error_iff.mp head
              rw [fault] at found
              cases found
          | ok text =>
              rw [ok_bind, bind_eq_error_iff, constants_eq_error_iff]
              simp

end

/-- What is refused for itself is refused with its fault. -/
theorem leaf_eq_error_iff {leaf : Constant} (refused : leaf.HasNoLiteral) {refusal : Refusal} :
    constant leaf = .error refusal ↔
      ∃ cause, leaf.fault? = some cause ∧ refusal = .unsupported cause := by
  have alone : leaf.leaves = [leaf] := by
    cases refused <;> rw [Constant.leaves]
  rw [constant_eq_error_iff, alone, List.findSome?_singleton]

/-- A constant is refused exactly if one of its leaves is refused for itself. -/
theorem exists_error_iff {c : Constant} :
    (∃ refusal, constant c = .error refusal) ↔ ∃ leaf ∈ c.leaves, leaf.HasNoLiteral := by
  rw [← Constant.exists_findSome?_fault?]
  constructor
  · rintro ⟨refusal, failed⟩
    obtain ⟨cause, found, _⟩ := constant_eq_error_iff.mp failed
    exact ⟨cause, found⟩
  · rintro ⟨cause, found⟩
    exact ⟨_, constant_eq_error_iff.mpr ⟨cause, found, rfl⟩⟩

/-- The first leaf that is refused for itself decides what the constant is refused with. -/
theorem error_iff_first_leaf {c : Constant} {refusal : Refusal} :
    constant c = .error refusal ↔
      ∃ before leaf after, c.leaves = before ++ leaf :: after ∧
        (∀ other ∈ before, ¬other.HasNoLiteral) ∧ leaf.HasNoLiteral ∧
        constant leaf = .error refusal := by
  constructor
  · intro failed
    obtain ⟨cause, found, rfl⟩ := constant_eq_error_iff.mp failed
    obtain ⟨before, leaf, after, split, fault, none⟩ := List.findSome?_eq_some_iff.mp found
    have refused : leaf.HasNoLiteral := Constant.hasNoLiteral_iff.mpr ⟨cause, fault⟩
    refine ⟨before, leaf, after, split, fun other inside => ?_, refused, ?_⟩
    · exact Constant.fault?_eq_none_iff.mp (none other inside)
    · exact (leaf_eq_error_iff refused).mpr ⟨cause, fault, rfl⟩
  · rintro ⟨before, leaf, after, split, none, refused, alone⟩
    obtain ⟨cause, fault, rfl⟩ := (leaf_eq_error_iff refused).mp alone
    refine constant_eq_error_iff.mpr ⟨cause, ?_, rfl⟩
    refine List.findSome?_eq_some_iff.mpr ⟨before, leaf, after, split, fault, ?_⟩
    exact fun other inside => Constant.fault?_eq_none_iff.mpr (none other inside)

/-- A constant is refused as one without a literal, and for no other reason. -/
theorem refusal_of_constant {c : Constant} {refusal : Refusal}
    (failed : constant c = .error refusal) : ∃ cause, refusal = .unsupported cause := by
  obtain ⟨cause, _, rfl⟩ := constant_eq_error_iff.mp failed
  exact ⟨cause, rfl⟩

/-- So is an enum value. -/
theorem refusal_of_enumValue {type : EnumType} {n : Integral} {refusal : Refusal}
    (failed : enumValue type n = .error refusal) : ∃ cause, refusal = .unsupported cause :=
  ⟨_, (enumValue_eq_error_iff.mp failed).2⟩

/--
**What has no literal, and what it is refused with.** A constant is refused exactly if one of its
leaves is refused for itself, and then with what the first such leaf alone is refused with. That is
always a constant without a literal, and it is the same for every constant whose leaves are alike:
no integral type of a value and no member of an enum type plays a part.
-/
theorem constant_refused (c : Constant) :
    ((∃ refusal, constant c = .error refusal) ↔ ∃ leaf ∈ c.leaves, leaf.HasNoLiteral) ∧
    (∀ refusal, constant c = .error refusal ↔
      ∃ before leaf after, c.leaves = before ++ leaf :: after ∧
        (∀ other ∈ before, ¬other.HasNoLiteral) ∧ leaf.HasNoLiteral ∧
        constant leaf = .error refusal) ∧
    (∀ refusal, constant c = .error refusal → ∃ cause, refusal = .unsupported cause) ∧
    ∀ d : Constant, List.Forall₂ Constant.Alike c.leaves d.leaves →
      ∀ refusal, constant c = .error refusal ↔ constant d = .error refusal := by
  refine ⟨exists_error_iff, fun _ => error_iff_first_leaf, fun _ => refusal_of_constant, ?_⟩
  intro d alike refusal
  rw [constant_eq_error_iff, constant_eq_error_iff, Constant.findSome?_fault?_eq alike]

/--
The enum value in an inner array is refused, and not the character behind it; neither another
integral type nor a member with the same integer helps.
-/
theorem constant_refused_nested :
    let object := TypeRef.reference "object"
    let flags := EnumType.empty "Flags" .byte
    let listed : EnumType := ⟨"Flags", .byte, [⟨"Wide", ⟨.int, 300, by decide⟩⟩]⟩
    let c := Constant.array object [
      .array object [.char 'x', .enumMember flags ⟨.int, 1, by decide⟩],
      .array object [.enumMember flags ⟨.int, 300, by decide⟩, .char '😀'], .null]
    let d := Constant.array object [.char 'x', .enumMember flags ⟨.byte, 1, by decide⟩,
      .enumMember listed ⟨.ulong, 300, by decide⟩, .char '😀', .null]
    let refusal := Refusal.unsupported (.enumValue 300 .byte "Flags")
    List.Forall₂ Constant.Alike c.leaves d.leaves ∧ constant c = .error refusal ∧
      (∃ leaf ∈ c.leaves, leaf.HasNoLiteral) ∧ (∃ cause, refusal = .unsupported cause) ∧
      constant d = .error refusal := by
  intro object flags listed c d refusal
  have alike : List.Forall₂ Constant.Alike c.leaves d.leaves :=
    .cons (.same _) (.cons (.enumMember rfl rfl rfl) (.cons (.enumMember rfl rfl rfl)
      (.cons (.same _) (.cons (.same _) .nil))))
  have failed : constant c = .error refusal := rfl
  obtain ⟨exactly, _, unsupported, unchanged⟩ := constant_refused c
  exact ⟨alike, failed, exactly.mp ⟨_, failed⟩, unsupported _ failed,
    (unchanged d alike refusal).mp failed⟩

end Literal

end SignatureText
