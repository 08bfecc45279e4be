/-
**What a value was read from.**

Where a reader that is put together from others gives a value, the parts of the value were read from
parts of the tree. Each way of putting readers together says so once, and what holds of all values
is derived from that without looking into the readers again.

* `Reader.exists_of_optional_eq_ok` — a value that is there.
* `Reader.exists_of_list_eq_ok`, `Reader.exists_of_pair_eq_ok` — items of arrays.
* `Reader.exists_of_choice_eq_ok` — a variant without content, or the content behind its name.
* `Reader.exists_row_of_record_eq_ok` — **the fields of a record**, each read or absent
  (`Fields.Gives`).
-/

import SignatureText.Proofs.Wire.Records

namespace SignatureText

/-- The trees that a tree is made of, one level down. -/
def Json.children : Json → List Json
  | array items _ => items
  | object members _ => members.map Prod.snd
  | null | bool _ | number _ | string _ | cut => []

theorem Variant.mem_of_find {α : Type} {variants : List (String × Variant α)} {name : String}
    {variant : Variant α} (found : find variants name = .ok variant) :
    (name, variant) ∈ variants := by
  rw [find] at found
  split at found
  · rename_i known
    cases found
    obtain ⟨before, after, rfl, -⟩ := List.lookup_eq_some_iff.mp known
    simp
  · cases found

/-! ### Fields -/

/-- The field's value was read from one of the trees or stands for its absence. -/
def RecordField.Gives {β : Type} (field : RecordField β) (levels : Nat) (sources : List Json)
    (value : β) : Prop :=
  (∃ j ∈ sources, field.read levels j = .ok value) ∨ field.inObject = some value ∨
    field.inArray = some value

namespace Fields

variable {βs : List Type} {levels : Nat}

/-- Every value of the row was read from one of the trees or stands for an absence. -/
def Gives (levels : Nat) (sources : List Json) : {βs : List Type} → Fields βs → Row βs → Prop
  | _, .nil, () => True
  | _, .cons field rest, (value, row) =>
      field.Gives levels sources value ∧ rest.Gives levels sources row

theorem Finds.gives {fields : Fields βs} {members : List (Option String × Json)} {row : Row βs}
    (finds : fields.Finds levels members row) :
    fields.Gives levels (members.map Prod.snd) row := by
  induction fields with
  | nil => trivial
  | cons field rest ih =>
      refine ⟨finds.1.imp ?_ fun ⟨_, absent⟩ => .inl absent, ih finds.2⟩
      rintro ⟨j, alone, read⟩
      have member : j ∈ Json.membersOf field.name members := alone ▸ List.mem_singleton_self j
      exact ⟨j, List.map_subset Prod.snd (List.filter_subset_self _) member, read⟩

theorem Lists.gives {fields : Fields βs} {js sources : List Json} {row : Row βs}
    (lists : fields.Lists levels js row) (inside : js ⊆ sources) :
    fields.Gives levels sources row := by
  induction fields generalizing js with
  | nil => trivial
  | cons field rest ih =>
      cases js with
      | nil => exact ⟨.inr (.inr lists.1), ih lists.2 inside⟩
      | cons j js =>
          obtain ⟨first, others⟩ := List.cons_subset.mp inside
          exact ⟨.inl ⟨j, first, lists.1⟩, ih lists.2 others⟩

end Fields

/-! ### Readers -/

namespace Reader

variable {α β : Type} {read : Reader α} {levels : Nat} {j : Json}

/-- A leaf takes its value from the tree. -/
theorem value_of_leaf_eq_ok {value? : Json → Option α} {v : α}
    (result : leaf value? levels j = .ok v) : value? j = some v := by
  rw [leaf] at result
  split at result
  · rename_i found
    cases result
    exact found
  · cases result

/-- An optional value that is there was read from the same tree. -/
theorem exists_of_optional_eq_ok {v : Option α} (result : read.optional levels j = .ok v) :
    ∀ a ∈ v, read levels j = .ok a := by
  intro a present
  cases j with
  | null =>
      cases result
      cases present
  | _ =>
      obtain ⟨b, found, rfl⟩ := map_eq_ok_iff.mp result
      cases present
      exact found

/-- **Each value of a list was read from an item.** -/
theorem exists_of_list_eq_ok {vs : List α} (result : list read levels j = .ok vs) :
    ∃ below, ∀ v ∈ vs, ∃ item ∈ j.children, read below item = .ok v := by
  unfold list at result
  split at result
  · obtain ⟨values, found, ended⟩ := bind_eq_ok_iff.mp result
    split at ended
    · cases ended
      exact ⟨_, exists_of_mem_mapM_ok found⟩
    · cases ended
  · cases result

/-- The second value of a pair was read from an item. -/
theorem exists_of_pair_eq_ok {first : Reader β} {v : β × α}
    (result : pair first read levels j = .ok v) :
    ∃ below, ∃ item ∈ j.children, read below item = .ok v.2 := by
  unfold pair at result
  split at result
  · obtain ⟨x, -, result⟩ := bind_eq_ok_iff.mp result
    split at result
    · cases result
    · obtain ⟨y, found, ended⟩ := bind_eq_ok_iff.mp result
      split at ended
      · cases ended
        exact ⟨_, _, List.mem_cons_of_mem _ List.mem_cons_self, found⟩
      · cases ended
  · cases result

/-- **A choice is a variant without content, or its content was read from a part of the tree.** -/
theorem exists_of_choice_eq_ok {variants : List (String × Variant α)} {v : α}
    (result : choice variants levels j = .ok v) :
    ∃ name, (name, Variant.unit v) ∈ variants ∨
      ∃ read, (name, Variant.content read) ∈ variants ∧
        ∃ below, ∃ part ∈ j.children, read below part = .ok v := by
  unfold choice at result
  split at result
  · rename_i name
    obtain ⟨variant, found, given⟩ := bind_eq_ok_iff.mp result
    cases variant with
    | unit value =>
        cases given
        exact ⟨name, .inl (Variant.mem_of_find found)⟩
    | content read => cases given
  · rename_i below name part rest closed
    obtain ⟨variant, found, result⟩ := bind_eq_ok_iff.mp result
    obtain ⟨value, given, ended⟩ := bind_eq_ok_iff.mp result
    split at ended
    · cases ended
      refine ⟨name, ?_⟩
      cases variant with
      | unit value =>
          cases part with
          | null =>
              cases given
              exact .inl (Variant.mem_of_find found)
          | _ => cases given
      | content read =>
          exact .inr ⟨read, Variant.mem_of_find found, below, part, List.mem_cons_self, given⟩
    · cases ended
  · cases result

/-- **A record is made from values that were read from its parts or stand for an absence.** -/
theorem exists_row_of_record_eq_ok {βs : List Type} {fields : Fields βs} {make : Row βs → α}
    {v : α} (distinct : fields.names.Nodup) (result : record fields make levels j = .ok v) :
    ∃ below row, make row = v ∧ fields.Gives below j.children row := by
  cases levels with
  | zero => cases j <;> cases result
  | succ below =>
      cases j with
      | object members closed =>
          obtain ⟨-, row, made, finds, -⟩ := (record_object_eq_ok_iff distinct).mp result
          exact ⟨below, row, made, finds.gives⟩
      | array items closed =>
          obtain ⟨-, row, made, lists⟩ := record_array_eq_ok_iff.mp result
          exact ⟨below, row, made, lists.gives (List.Subset.refl items)⟩
      | _ => cases result

end Reader

end SignatureText
