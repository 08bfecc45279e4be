/-
**Enum types built step by step, and the texts of their values.**

An enum type is built by adding members one by one; a member whose integer the underlying type does
not hold is refused and leaves the type as it was. A value is written with the first member that has
its integer, or cast to the type if there is none.

* `EnumType.step_eq`, `EnumType.built_eq` — **the members are the accepted steps in order**: what
  one step adds, and by induction what all of them do.
* `Chosen` — what a value is written as, by the names and the integers of the members alone.
* `enumValue_eq_ok_iff` — **a value that the underlying type holds is written as what is chosen**,
  for any enum type, built or read as it stands.
* `chosen_fitting_iff`, `chosen_append` — members of other integers play no part: neither those that
  the underlying type does not hold, nor those added behind one that has the integer.
* `enumValue_built` — the theorem about all runs and all enum types.
* `member_ne_cast` — the two forms of a text never meet, although both hold the name of the type.
* `enumValue_text_eq_iff` — **with distinct names of members, a text determines the integer.**
-/

import Mathlib.Data.List.Nodup
import SignatureText.Proofs.Literal.Refused
import SignatureText.Proofs.Literal.Said

namespace SignatureText

namespace IntegralType

/-- The names with integers that the type holds, in their order. -/
def fitting (type : IntegralType) (entries : List (String × Int)) : List (String × Int) :=
  entries.filter fun entry => type.Holds entry.2

variable {type : IntegralType} {entries more : List (String × Int)}

theorem fitting_append :
    type.fitting (entries ++ more) = type.fitting entries ++ type.fitting more :=
  List.filter_append entries more

theorem holds_of_mem_fitting {entry : String × Int} (inside : entry ∈ type.fitting entries) :
    type.Holds entry.2 :=
  of_decide_eq_true (List.mem_filter.mp inside).2

end IntegralType

/-- The member of a name and an integer, if the type holds it. -/
def EnumMember.ofEntry? (type : IntegralType) (entry : String × Int) : Option EnumMember :=
  if holds : type.Holds entry.2 then some ⟨entry.1, ⟨type, entry.2, holds⟩⟩ else none

namespace EnumType

/-! ### Steps -/

/-- The members by name and integer, in declaration order. -/
def entries (type : EnumType) : List (String × Int) :=
  type.members.map fun member => (member.name, member.value.value)

theorem map_fst_entries (type : EnumType) :
    type.entries.map Prod.fst = type.members.map EnumMember.name := by
  rw [entries, List.map_map]
  rfl

/-- The type with one more member, or as it is if the member is refused. -/
def step (type : EnumType) (entry : String × Int) : EnumType :=
  match type.addMember entry.1 entry.2 with
  | .ok next => next
  | .error _ => type

/-- The type that adding members one by one leads to. -/
def built (name : String) (underlying : IntegralType) (steps : List (String × Int)) : EnumType :=
  steps.foldl step (empty name underlying)

variable {name : String} {underlying : IntegralType} {steps : List (String × Int)}

/-- **One step adds its member at the end, or nothing.** -/
theorem step_eq (type : EnumType) (entry : String × Int) :
    type.step entry = { type with
      members := type.members ++ (EnumMember.ofEntry? type.underlying entry).toList } := by
  unfold step EnumMember.ofEntry?
  by_cases holds : type.underlying.Holds entry.2
  · rw [addMember_eq_ok_iff.mpr ⟨holds, rfl⟩, dif_pos holds]
    rfl
  · rw [addMember_eq_error_iff.mpr ⟨holds, rfl⟩, dif_neg holds, Option.toList_none, List.append_nil]

theorem foldl_step (type : EnumType) (steps : List (String × Int)) :
    steps.foldl step type = { type with
      members := type.members ++ steps.filterMap (EnumMember.ofEntry? type.underlying) } := by
  induction steps generalizing type with
  | nil => rw [List.foldl_nil, List.filterMap_nil, List.append_nil]
  | cons entry rest ih =>
      rw [List.foldl_cons, step_eq, ih, List.append_assoc]
      cases made : EnumMember.ofEntry? type.underlying entry with
      | none => rw [List.filterMap_cons_none made]; rfl
      | some member => rw [List.filterMap_cons_some made]; rfl

/-- **All steps together add the accepted ones**, each as a member of the underlying type. -/
theorem built_eq (name : String) (underlying : IntegralType) (steps : List (String × Int)) :
    built name underlying steps =
      ⟨name, underlying, steps.filterMap (EnumMember.ofEntry? underlying)⟩ :=
  foldl_step (empty name underlying) steps

@[simp] theorem name_built : (built name underlying steps).name = name := by
  rw [built_eq]

@[simp] theorem underlying_built : (built name underlying steps).underlying = underlying := by
  rw [built_eq]

@[simp] theorem entries_built (name : String) (underlying : IntegralType)
    (steps : List (String × Int)) :
    (built name underlying steps).entries = underlying.fitting steps := by
  rw [built_eq, entries, IntegralType.fitting, List.map_filterMap, ← List.filterMap_eq_filter]
  congr 1
  funext entry
  by_cases holds : underlying.Holds entry.2 <;> simp [EnumMember.ofEntry?, Option.guard, holds]

theorem type_of_mem_built {member : EnumMember}
    (inside : member ∈ (built name underlying steps).members) : member.value.type = underlying := by
  rw [built_eq] at inside
  obtain ⟨entry, _, made⟩ := List.mem_filterMap.mp inside
  by_cases holds : underlying.Holds entry.2
  · rw [EnumMember.ofEntry?, dif_pos holds] at made
    cases made
    rfl
  · rw [EnumMember.ofEntry?, dif_neg holds] at made
    cases made

end EnumType

namespace Literal

/-! ### The chosen text -/

/-- What an enum value is written as, by the names and the integers of the members in order. -/
inductive Chosen (name : String) (underlying : IntegralType) (entries : List (String × Int))
    (i : Int) : String → Prop where
  /-- The first member with the integer. -/
  | member {before after : List (String × Int)} {own : String}
      (split : entries = before ++ (own, i) :: after) (first : ∀ entry ∈ before, entry.2 ≠ i) :
      Chosen name underlying entries i (name ++ "." ++ own)
  /-- Without such a member, a cast of the digits of the underlying type. -/
  | cast (none : ∀ entry ∈ entries, entry.2 ≠ i) :
      Chosen name underlying entries i
        ("(" ++ name ++ ")(" ++ (Text.integer i ++ suffix underlying) ++ ")")

variable {name : String} {underlying : IntegralType} {entries : List (String × Int)} {i : Int}
  {text : String}

/-- The chosen text is found by looking for the integer. -/
theorem chosen_iff :
    Chosen name underlying entries i text ↔
      text = match entries.find? (·.2 = i) with
        | some entry => name ++ "." ++ entry.1
        | none => "(" ++ name ++ ")(" ++ (Text.integer i ++ suffix underlying) ++ ")" := by
  constructor
  · intro chosen
    cases chosen with
    | @member before after own split first =>
        have found : entries.find? (·.2 = i) = some (own, i) :=
          List.find?_eq_some_iff_append.mpr
            ⟨decide_eq_true rfl, before, after, split, by simpa using first⟩
        rw [found]
    | cast none => rw [List.find?_eq_none.mpr (by simpa using none)]
  · rintro rfl
    cases found : entries.find? (·.2 = i) with
    | none => exact .cast (by simpa using List.find?_eq_none.mp found)
    | some entry =>
        obtain ⟨value, before, after, split, first⟩ := List.find?_eq_some_iff_append.mp found
        obtain rfl : entry.2 = i := of_decide_eq_true value
        exact .member split (by simpa using first)

/-- What the underlying type does not hold is never chosen for what it holds. -/
theorem chosen_fitting_iff (holds : underlying.Holds i) :
    Chosen name underlying (underlying.fitting entries) i text ↔
      Chosen name underlying entries i text := by
  have same : (underlying.fitting entries).find? (·.2 = i) = entries.find? (·.2 = i) := by
    rw [IntegralType.fitting, List.find?_filter]
    congr 1
    funext entry
    by_cases value : entry.2 = i <;> simp [value, holds]
  rw [chosen_iff, chosen_iff, same]

/-- Where a member has the integer, nothing behind it counts. -/
theorem chosen_append {more : List (String × Int)} (present : ∃ entry ∈ entries, entry.2 = i) :
    Chosen name underlying (entries ++ more) i text ↔ Chosen name underlying entries i text := by
  have found : (entries.find? (·.2 = i)).isSome = true := by
    simpa [List.find?_isSome] using present
  rw [chosen_iff, chosen_iff, List.find?_append, Option.or_of_isSome found]

/-! ### Texts of values -/

/-- **An enum value is refused, or it is written as what is chosen** among the members. -/
theorem enumValue_eq_ok_iff {type : EnumType} {n : Integral} :
    enumValue type n = .ok text ↔ type.underlying.Holds n.value ∧
      Chosen type.name type.underlying type.entries n.value text := by
  by_cases holds : type.underlying.Holds n.value
  · have found : type.entries.find? (·.2 = n.value) =
        (type.member? n.value).map fun member => (member.name, member.value.value) := by
      rw [EnumType.entries, List.find?_map]
      rfl
    rw [enumValue_of_holds holds, chosen_iff, found, Except.ok.injEq, eq_comm]
    cases type.member? n.value <;> simp [holds, digits]
  · have refused := enumValue_eq_error_iff.mpr ⟨holds, rfl⟩
    simp [refused, holds]

/-- The integral type of a value plays no part. -/
theorem enumValue_congr (type : EnumType) {m n : Integral} (value : m.value = n.value) :
    enumValue type m = enumValue type n := by
  rw [enumValue, enumValue, Integral.convert, Integral.convert, value]

/-- A value of a type that is built step by step is written as the accepted steps say. -/
theorem enumValue_built_eq_ok_iff {steps : List (String × Int)} {n : Integral} :
    enumValue (EnumType.built name underlying steps) n = .ok text ↔
      underlying.Holds n.value ∧
        Chosen name underlying (underlying.fitting steps) n.value text := by
  rw [enumValue_eq_ok_iff, EnumType.name_built, EnumType.underlying_built, EnumType.entries_built]

/-- **Further steps change no text that names a member.** -/
theorem enumValue_built_append {steps more : List (String × Int)} {n : Integral}
    (present : ∃ entry ∈ underlying.fitting steps, entry.2 = n.value) :
    enumValue (EnumType.built name underlying (steps ++ more)) n =
      enumValue (EnumType.built name underlying steps) n := by
  cases written : enumValue (EnumType.built name underlying steps) n with
  | error refusal =>
      obtain ⟨entry, inside, value⟩ := present
      rw [enumValue_eq_error_iff, EnumType.underlying_built, ← value] at written
      exact absurd (IntegralType.holds_of_mem_fitting inside) written.1
  | ok text =>
      rw [enumValue_built_eq_ok_iff] at written ⊢
      rwa [IntegralType.fitting_append, chosen_append present]

/--
**What enum types are built of, and what their values are written as.** The members of a type that
is built step by step are the accepted steps in order, as values of the underlying type. A value is
refused exactly if the underlying type does not hold its integer; otherwise it is written with the
first member that has the integer, or cast if there is none, and further steps change nothing where
there is one. The same choice is made among members that were not added one by one, whatever their
types are; those that the underlying type does not hold could as well be missing. The type that a
value has of its own never counts.
-/
theorem enumValue_built :
    (∀ (name : String) (underlying : IntegralType) (steps : List (String × Int)),
      let type := EnumType.built name underlying steps
      type.entries = underlying.fitting steps ∧
      (∀ member ∈ type.members,
        member.value.type = underlying ∧ underlying.Holds member.value.value) ∧
      (∀ n refusal, enumValue type n = .error refusal ↔
        ¬underlying.Holds n.value ∧
          refusal = .unsupported (.enumValue n.value underlying name)) ∧
      (∀ n text, enumValue type n = .ok text ↔
        underlying.Holds n.value ∧
          Chosen name underlying (underlying.fitting steps) n.value text) ∧
      ∀ n more, (∃ entry ∈ underlying.fitting steps, entry.2 = n.value) →
        enumValue (EnumType.built name underlying (steps ++ more)) n = enumValue type n) ∧
    ∀ (type : EnumType) (n : Integral),
      (∀ refusal, enumValue type n = .error refusal ↔
        ¬type.underlying.Holds n.value ∧
          refusal = .unsupported (.enumValue n.value type.underlying type.name)) ∧
      (∀ text, enumValue type n = .ok text ↔ type.underlying.Holds n.value ∧
        Chosen type.name type.underlying type.entries n.value text) ∧
      (∀ text, enumValue type n = .ok text ↔ type.underlying.Holds n.value ∧
        Chosen type.name type.underlying (type.underlying.fitting type.entries) n.value text) ∧
      ∀ m : Integral, m.value = n.value → enumValue type m = enumValue type n := by
  constructor
  · intro name underlying steps type
    refine ⟨EnumType.entries_built name underlying steps, fun member inside => ?_,
      fun n refusal => ?_, fun n text => enumValue_built_eq_ok_iff,
      fun n more => enumValue_built_append⟩
    · have entry : (member.name, member.value.value) ∈ underlying.fitting steps := by
        rw [← EnumType.entries_built name]
        exact List.mem_map_of_mem inside
      exact ⟨EnumType.type_of_mem_built inside, IntegralType.holds_of_mem_fitting entry⟩
    · rw [enumValue_eq_error_iff, EnumType.name_built, EnumType.underlying_built]
  · intro type n
    refine ⟨fun refusal => enumValue_eq_error_iff, fun text => enumValue_eq_ok_iff,
      fun text => ?_, fun m => enumValue_congr type⟩
    rw [enumValue_eq_ok_iff]
    exact and_congr_right fun holds => (chosen_fitting_iff holds).symm

/--
Three of four steps are accepted, and the first of two members with one integer is chosen, also for
a value of another type and after a further step. A member that was read as it stands does not lend
its name to an integer that the underlying type does not hold.
-/
theorem enumValue_built_access :
    let steps : List (String × Int) := [("None", 0), ("Wide", 300), ("Read", 1), ("Default", 1)]
    let type := EnumType.built "Access" .byte steps
    let listed : EnumType :=
      ⟨"Access", .byte, [⟨"Wide", ⟨.int, 300, by decide⟩⟩, ⟨"Read", ⟨.long, 1, by decide⟩⟩]⟩
    let one : Integral := ⟨.ulong, 1, by decide⟩
    let wide : Integral := ⟨.short, 300, by decide⟩
    type.entries = [("None", 0), ("Read", 1), ("Default", 1)] ∧
      enumValue type one = .ok "Access.Read" ∧
      enumValue (EnumType.built "Access" .byte (steps ++ [("One", 1)])) one = .ok "Access.Read" ∧
      enumValue type ⟨.sbyte, 7, by decide⟩ = .ok "(Access)(7)" ∧
      enumValue listed one = .ok "Access.Read" ∧
      enumValue listed wide = .error (.unsupported (.enumValue 300 .byte "Access")) := by
  intro steps type listed one wide
  obtain ⟨entries, _, _, written, further⟩ := enumValue_built.1 "Access" .byte steps
  obtain ⟨_, listedWritten, _, _⟩ := enumValue_built.2 listed one
  obtain ⟨listedRefused, _, _, _⟩ := enumValue_built.2 listed wide
  have chosen : enumValue type one = .ok "Access.Read" :=
    (written _ _).mpr ⟨by decide, chosen_iff.mpr rfl⟩
  have later : enumValue (EnumType.built "Access" .byte (steps ++ [("One", 1)])) one =
      enumValue type one :=
    further one [("One", 1)] ⟨("Read", 1), by decide, rfl⟩
  refine ⟨entries.trans (by decide), chosen, later.trans chosen, ?_, ?_, ?_⟩
  · exact (written _ _).mpr ⟨by decide, chosen_iff.mpr rfl⟩
  · exact (listedWritten _).mpr ⟨by decide, chosen_iff.mpr rfl⟩
  · exact (listedRefused _).mpr ⟨by decide, rfl⟩

/-! ### Texts determine integers -/

/-- A word with `a` behind it does not begin as the word with `b` in front does: where they overlap,
every letter would be `b`, and the `a` too. -/
theorem append_cons_ne_cons_append {α : Type} {a b : α} (different : a ≠ b) (xs ys zs : List α) :
    xs ++ a :: ys ≠ b :: (xs ++ zs) := by
  intro same
  induction xs with
  | nil => exact different (List.cons.inj same).1
  | cons x rest ih =>
      obtain ⟨rfl, tail⟩ := List.cons.inj same
      exact ih tail

/-- **No member's text is a cast**, whatever the names are. -/
theorem member_ne_cast (name own digits : String) :
    name ++ "." ++ own ≠ "(" ++ name ++ ")(" ++ digits ++ ")" := by
  intro same
  have lists := congrArg String.toList same
  simp only [String.toList_append, List.append_assoc] at lists
  -- The name of the type stands first in one text and behind a parenthesis in the other.
  exact append_cons_ne_cons_append (by decide : '.' ≠ '(') _ _ _ lists

/-- **The chosen texts of two integers differ**, if no two members have the same name. -/
theorem Chosen.value_eq {i j : Int} {s t : String} (distinct : (entries.map Prod.fst).Nodup)
    (first : Chosen name underlying entries i s) (second : Chosen name underlying entries j t)
    (same : s = t) : i = j := by
  cases first with
  | @member before after own split _ =>
      cases second with
      | @member before' after' other split' _ =>
          obtain rfl : own = other := (String.append_right_inj _).mp same
          have here : (own, i) ∈ entries := split ▸ List.mem_append_right _ List.mem_cons_self
          have there : (own, j) ∈ entries := split' ▸ List.mem_append_right _ List.mem_cons_self
          exact (Prod.mk.inj (List.inj_on_of_nodup_map distinct here there rfl)).2
      | cast _ => exact absurd same (member_ne_cast name own _)
  | cast _ =>
      cases second with
      | @member _ _ other _ _ => exact absurd same.symm (member_ne_cast name other _)
      | cast _ =>
          simp only [String.append_left_inj, String.append_right_inj] at same
          exact text_integer_injective same

/--
**With distinct names of members, a text determines the integer.** Two values of an enum type that
are written at all are written alike exactly if they have the same integer, whatever the names of
the type and of its members are, and however often an integer occurs among them.
-/
theorem enumValue_text_eq_iff {type : EnumType} {m n : Integral} {s t : String}
    (distinct : (type.members.map EnumMember.name).Nodup) (first : enumValue type m = .ok s)
    (second : enumValue type n = .ok t) : s = t ↔ m.value = n.value := by
  rw [← type.map_fst_entries] at distinct
  constructor
  · exact (enumValue_eq_ok_iff.mp first).2.value_eq distinct (enumValue_eq_ok_iff.mp second).2
  · intro value
    rw [enumValue_congr type value, second] at first
    exact (Except.ok.inj first).symm

/--
The name of the type begins like a cast, and two members share an integer; still the text of a
member is no cast, and only values with the member's integer have it.
-/
theorem enumValue_text_eq_iff_parenthesis :
    let type : EnumType :=
      ⟨"(", .sbyte, [⟨"(.", ⟨.sbyte, 5, by decide⟩⟩, ⟨"((", ⟨.sbyte, 5, by decide⟩⟩]⟩
    let five : Integral := ⟨.sbyte, 5, by decide⟩
    let wide : Integral := ⟨.ulong, 5, by decide⟩
    let other : Integral := ⟨.int, -5, by decide⟩
    (type.members.map EnumMember.name).Nodup ∧ enumValue type five = .ok "(.(." ∧
      enumValue type wide = .ok "(.(." ∧ enumValue type other = .ok "(()(-5)" ∧
      ("(.(." = "(.(." ↔ five.value = wide.value) ∧
      ("(.(." = "(()(-5)" ↔ five.value = other.value) := by
  intro type five wide other
  have distinct : (type.members.map EnumMember.name).Nodup := by decide
  have first : enumValue type five = .ok "(.(." := rfl
  have second : enumValue type wide = .ok "(.(." := rfl
  have third : enumValue type other = .ok "(()(-5)" :=
    enumValue_eq_ok_iff.mpr ⟨by decide, chosen_iff.mpr (by decide)⟩
  exact ⟨distinct, first, second, third, enumValue_text_eq_iff distinct first second,
    enumValue_text_eq_iff distinct first third⟩

end Literal

end SignatureText
