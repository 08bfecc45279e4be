/-
**Integral values are made exactly or not at all.**

Whatever makes an integral value keeps the integer as it is, and refuses it exactly if it is out of
range; no maker wraps around or stops at a bound.

* `IntegralType.holds_iff_exists_word` — the bounds of a type are those of the machine integers of
  its width and sign.
* `Integral.ofInt_eq_ok_iff`, `Integral.ofInt_eq_error_iff` — a given integer.
* `Integral.foldlM_convert_eq_ok_iff`, `Integral.foldlM_convert_eq_error_iff` — **one conversion
  after the other**: all types on the way have to hold the integer, and the first that does not is
  reported.
* `Integral.Description.resolve_eq_ok_iff`, `Integral.Description.resolve_eq_outOfRange_iff` — an
  integer with a description of its type.
* `EnumType.addMember_eq_ok_iff`, `EnumType.addMember_eq_error_iff` — a member of an enum type.
-/

import SignatureText.Model.Constant
import SignatureText.Proofs.Outcome

namespace SignatureText

/-! ### Bounds -/

namespace IntegralType

theorem width_pos (type : IntegralType) : 0 < type.width := by
  cases type <;> decide

/-- **A type holds just the machine integers** of its width and sign. -/
theorem holds_iff_exists_word {type : IntegralType} {n : Int} :
    type.Holds n ↔ ∃ word, type.wordValue word = n := by
  constructor
  · intro holds
    refine ⟨BitVec.ofInt type.width n, ?_⟩
    unfold Holds least greatest at holds
    unfold wordValue
    cases sign : type.isSigned with
    | true =>
        rw [sign, if_pos rfl, if_pos rfl] at holds
        rw [if_pos rfl]
        exact BitVec.toInt_ofInt_eq_self type.width_pos holds.1 (Int.lt_of_le_sub_one holds.2)
    | false =>
        rw [sign, if_neg Bool.false_ne_true, if_neg Bool.false_ne_true] at holds
        have below : n < (2 ^ type.width : Nat) := by
          rw [Int.natCast_pow]
          exact Int.lt_of_le_sub_one holds.2
        rw [if_neg Bool.false_ne_true, BitVec.toNat_ofInt, Int.emod_eq_of_lt holds.1 below]
        exact Int.toNat_of_nonneg holds.1
  · rintro ⟨word, rfl⟩
    exact type.holds_wordValue word

end IntegralType

namespace Integral

variable {type : IntegralType} {i : Int} {n m : Integral} {fault : OutOfRange}

/-! ### One integer -/

theorem ofInt_eq_ok_iff :
    ofInt type i = .ok m ↔ type.Holds i ∧ m.type = type ∧ m.value = i := by
  constructor
  · intro made
    by_cases holds : type.Holds i
    · rw [ofInt_of_holds holds] at made
      cases made
      exact ⟨holds, rfl, rfl⟩
    · rw [ofInt_of_not_holds holds] at made
      cases made
  · rintro ⟨holds, rfl, rfl⟩
    exact ofInt_of_holds holds

theorem ofInt_eq_error_iff : ofInt type i = .error fault ↔ ¬type.Holds i ∧ fault = ⟨type, i⟩ := by
  by_cases holds : type.Holds i
  · simp [ofInt_of_holds holds, holds]
  · simp [ofInt_of_not_holds holds, holds, eq_comm]

/-- A machine integer gives what checking it gives. -/
theorem ofInt_wordValue (type : IntegralType) (word : BitVec type.width) :
    ofInt type (type.wordValue word) = .ok (ofWord type word) :=
  ofInt_of_holds (type.holds_wordValue word)

/-! ### Conversions -/

/-- **A chain of conversions succeeds if all of its types hold the integer**, and gives the same
integer as a value of the last type. -/
theorem foldlM_convert_eq_ok_iff {types : List IntegralType} :
    types.foldlM convert n = .ok m ↔
      (∀ type ∈ types, type.Holds n.value) ∧ m.type = types.getLastD n.type ∧
        m.value = n.value := by
  induction types generalizing n with
  | nil =>
      obtain ⟨type, value, holds⟩ := n
      obtain ⟨type', value', holds'⟩ := m
      simp [eq_comm]
  | cons type rest ih =>
      rw [List.foldlM_cons, List.forall_mem_cons, List.getLastD_cons, bind_eq_ok_iff]
      constructor
      · rintro ⟨next, converted, made⟩
        obtain ⟨holds, rfl, value⟩ := ofInt_eq_ok_iff.mp converted
        obtain ⟨all, last, same⟩ := ih.mp made
        rw [value] at all same
        exact ⟨⟨holds, all⟩, last, same⟩
      · rintro ⟨⟨holds, all⟩, last, same⟩
        exact ⟨⟨type, n.value, holds⟩, ofInt_of_holds holds, ih.mpr ⟨all, last, same⟩⟩

/-- **Otherwise the first type that does not hold the integer is reported.** -/
theorem foldlM_convert_eq_error_iff {types : List IntegralType} :
    types.foldlM convert n = .error fault ↔
      types.find? (fun type => ¬type.Holds n.value) = some fault.type ∧
        fault.value = n.value := by
  induction types generalizing n with
  | nil => simp
  | cons type rest ih =>
      rw [List.foldlM_cons, List.find?_cons]
      by_cases holds : type.Holds n.value
      · have first : n.convert type = .ok ⟨type, n.value, holds⟩ := ofInt_of_holds holds
        rw [first, ok_bind, ih]
        simp [holds]
      · have first : n.convert type = .error ⟨type, n.value⟩ := ofInt_of_not_holds holds
        obtain ⟨faultType, faultValue⟩ := fault
        rw [first, error_bind]
        simp [holds, eq_comm]

/-! ### Descriptions -/

namespace Description

variable {d : Description}

/-- **A description gives the integer that it holds**, if it names a type that holds it. -/
theorem resolve_eq_ok_iff :
    d.resolve = .ok n ↔ d.resolveType = .ok n.type ∧ d.value = n.value := by
  rw [resolve, bind_eq_ok_iff]
  constructor
  · rintro ⟨type, named, made⟩
    cases result : ofInt type d.value with
    | error fault =>
        rw [result] at made
        cases made
    | ok m =>
        rw [result] at made
        cases made
        obtain ⟨-, rfl, value⟩ := ofInt_eq_ok_iff.mp result
        exact ⟨named, value.symm⟩
  · rintro ⟨named, value⟩
    refine ⟨n.type, named, ?_⟩
    rw [value, ofInt_of_holds n.in_range]
    rfl

/-- As long as the type of a description is looked for, no range is asked about. -/
theorem resolveType_ne_outOfRange : d.resolveType ≠ .error (.outOfRange fault) := by
  have pair : d.pairType ≠ .error (.outOfRange fault) := by
    unfold pairType
    split
    · split <;> simp
    · simp
    · simp
  intro failed
  rcases bind_eq_error_iff.mp failed with failed | ⟨paired, -, failed⟩
  · exact pair failed
  · split at failed
    · split at failed <;> cases failed
    all_goals cases failed

/-- **And it is refused as out of range** exactly if it names a type that does not hold it. -/
theorem resolve_eq_outOfRange_iff :
    d.resolve = .error (.outOfRange fault) ↔
      d.resolveType = .ok fault.type ∧ d.value = fault.value ∧
        ¬fault.type.Holds fault.value := by
  obtain ⟨type, value⟩ := fault
  rw [resolve, bind_eq_error_iff]
  constructor
  · rintro (failed | ⟨other, named, made⟩)
    · exact absurd failed resolveType_ne_outOfRange
    · by_cases holds : other.Holds d.value
      · rw [ofInt_of_holds holds] at made
        cases made
      · rw [ofInt_of_not_holds holds] at made
        cases made
        exact ⟨named, rfl, holds⟩
  · rintro ⟨named, rfl, beyond⟩
    refine .inr ⟨type, named, ?_⟩
    rw [ofInt_of_not_holds beyond]
    rfl

end Description

end Integral

/-! ### Members of enum types -/

namespace EnumType

variable {type type' : EnumType} {name : String} {i : Int} {fault : OutOfRange}

/-- **A member is added with its integer** if the underlying type holds it. -/
theorem addMember_eq_ok_iff :
    type.addMember name i = .ok type' ↔
      ∃ holds : type.underlying.Holds i,
        type' = { type with members := type.members ++ [⟨name, ⟨type.underlying, i, holds⟩⟩] } := by
  by_cases holds : type.underlying.Holds i
  · simp [addMember, Integral.ofInt_of_holds holds, holds, eq_comm]
  · simp [addMember, Integral.ofInt_of_not_holds holds, holds]

/-- Otherwise the enum type is refused, and with it the integer. -/
theorem addMember_eq_error_iff :
    type.addMember name i = .error fault ↔
      ¬type.underlying.Holds i ∧ fault = ⟨type.underlying, i⟩ := by
  rw [addMember, ← Integral.ofInt_eq_error_iff]
  cases Integral.ofInt type.underlying i <;> simp

end EnumType

end SignatureText
