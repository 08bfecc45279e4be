/-
**The surface form of a text does not matter.**

A record may be spelled in several ways: its members in any order, with further members among them,
without those that say what their absence says, or as the array of their values; and a variant
without content may be an object with null. `Reader.Respells` is one such change, at any depth below
the reader that the tree is for.

* `Reader.Respells.preserves` — **one change leaves the value as it is.** A record has a lemma for
  each of its spellings (`Reader.record_perm` and the next ones), from what the change does to the
  members of one name (`Fields.Finds.change`); below a record, a list, a choice and so on the change
  goes through the reader of the part that it is in.
* `Reader.Respelled.preserves` — so do any number of them.
* `Generator.signatureOfText_respelled` — **a text decodes to the same value, and a callable's text
  gives the same signature, after any number of changes.**
-/

import Mathlib.Logic.Relation
import SignatureText.Proofs.Wire.Records
import SignatureText.Signature

namespace SignatureText

open Json (membersOf)

/-! ### The reader of constants -/

namespace Fields

variable {βs : List Type} {levels : Nat}

/-- The fields, read with a fixed number of levels. -/
def fixed (levels : Nat) : {βs : List Type} → Fields βs → Fields βs
  | _, .nil => .nil
  | _, .cons field rest =>
      .cons { field with read := fun _ => field.read levels } (rest.fixed levels)

theorem member_fixed (fields : Fields βs) (key : String) (j : Json) (draft : Draft βs) :
    (fields.fixed levels).member levels key j draft = fields.member levels key j draft := by
  induction fields with
  | nil => rfl
  | cons field rest ih => simp only [fixed, member, ih]

theorem members_fixed (fields : Fields βs) (ms : List (Option String × Json)) (draft : Draft βs) :
    (fields.fixed levels).members levels ms draft = fields.members levels ms draft := by
  induction ms generalizing draft with
  | nil => rfl
  | cons first ms ih =>
      obtain ⟨key, j⟩ := first
      cases key with
      | none => rfl
      | some key => simp only [members, member_fixed, ih]

theorem complete_fixed (fields : Fields βs) (draft : Draft βs) :
    (fields.fixed levels).complete draft = fields.complete draft := by
  induction fields with
  | nil => rfl
  | cons field rest ih => simp only [fixed, complete, ih]

theorem items_fixed (fields : Fields βs) (js : List Json) :
    (fields.fixed levels).items levels js = fields.items levels js := by
  induction fields generalizing js with
  | nil => cases js <;> rfl
  | cons field rest ih => cases js <;> simp only [fixed, items, ih]

end Fields

namespace Reader

variable {α : Type} {levels : Nat}

/-- A record reads its fields one level further down. -/
theorem record_fixed {βs : List Type} (fields : Fields βs) (make : Row βs → α) :
    record (fields.fixed levels) make (levels + 1) = record fields make (levels + 1) := by
  funext j
  cases j <;> simp only [record, Fields.members_fixed, Fields.complete_fixed, Fields.items_fixed]

/-- The last of several variants is read by its own reader, one level further down. -/
theorem choice_congr (variants : List (String × Variant α)) {name : String} {read read' : Reader α}
    (same : ∀ below, levels = below + 1 → read below = read' below) :
    choice (variants ++ [(name, .content read)]) levels =
      choice (variants ++ [(name, .content read')]) levels := by
  have names : (variants ++ [(name, Variant.content read)]).map Prod.fst =
      (variants ++ [(name, Variant.content read')]).map Prod.fst := by simp
  have found (key : String) :
      Variant.find (variants ++ [(name, .content read)]) key =
        Variant.find (variants ++ [(name, .content read')]) key ∨
      Variant.find (variants ++ [(name, .content read)]) key = .ok (.content read) ∧
        Variant.find (variants ++ [(name, .content read')]) key = .ok (.content read') := by
    simp only [Variant.find, List.lookup_append, names]
    cases variants.lookup key with
    | some variant => exact .inl rfl
    | none => by_cases own : (key == name) = true <;> simp [List.lookup_cons, own]
  funext j
  cases j with
  | string key =>
      cases key with
      | none => rfl
      | some key =>
          rcases found key with equal | ⟨own, own'⟩
          · simp only [choice, equal]
          · simp only [choice, own, own', ok_bind]
  | object ms closed =>
      rcases ms with _ | ⟨⟨_ | key, j⟩, ms⟩
      · rfl
      · rfl
      · cases levels with
        | zero => rfl
        | succ levels =>
            rcases found key with equal | ⟨own, own'⟩
            · simp only [choice, equal]
            · simp only [choice, own, own', ok_bind, Variant.read, same levels rfl]
  | _ => rfl

variable {elements elements' : Reader (List Constant)} {rounding : Rounding}

theorem arrayConstant_congr
    (same : ∀ below, levels = below + 1 → elements below = elements' below) :
    arrayConstant elements levels = arrayConstant elements' levels := by
  cases levels with
  | zero => funext j; cases j <;> rfl
  | succ levels =>
      rw [arrayConstant, arrayConstant, ← record_fixed, ← record_fixed (.cons _ (.cons _ _))]
      simp only [Fields.fixed, RecordField.required, same levels rfl]

/-- An array constant reads its elements two levels further down. -/
theorem constantWith_congr (same : ∀ below, levels = below + 2 → elements below = elements' below) :
    constantWith rounding elements levels = constantWith rounding elements' levels :=
  choice_congr [_, _, _, _, _, _, _, _, _, _] fun _ above =>
    arrayConstant_congr fun _ further => same _ (by omega)

/-- **A constant is read with the reader of constants for the elements of an array.** -/
theorem constant_eq : constant rounding = constantWith rounding (list (constant rounding)) := by
  -- Behind the two levels of an array the list of its elements opens a third, so the elements are
  -- read with just the levels that `constant` has left for them.
  funext levels
  rw [constant.eq_def]
  split
  · rename_i levels
    refine constantWith_congr fun below more => ?_
    obtain rfl : below = levels + 1 := by omega
    funext j
    cases j <;> rfl
  · rename_i few
    refine constantWith_congr fun below more => ?_
    obtain rfl : below = 0 := by
      by_contra deep
      exact few (below - 1) (by omega)
    funext j
    cases j <;> rfl

end Reader

/-! ### Members around a place -/

namespace Json

variable {key other : String} {j : Json} {before after : List (Option String × Json)}

theorem membersOf_around :
    membersOf key (before ++ (some key, j) :: after) =
      membersOf key before ++ j :: membersOf key after := by
  rw [membersOf_append, membersOf_cons_self]

theorem membersOf_around_of_ne (different : other ≠ key) :
    membersOf key (before ++ (some other, j) :: after) = membersOf key (before ++ after) := by
  rw [membersOf_append, membersOf_cons_of_ne different, membersOf_append]

/-- Where a name has one member at most, the order of members does not matter to it. -/
theorem membersOf_eq_of_perm {members members' : List (Option String × Json)}
    (perm : members.Perm members') (few : (membersOf key members).length ≤ 1) :
    membersOf key members' = membersOf key members := by
  have same : (membersOf key members).Perm (membersOf key members') := (perm.filter _).map _
  rcases own : membersOf key members with _ | ⟨j, _ | ⟨_, _⟩⟩
  · rw [own] at same
    exact same.nil_eq.symm
  · rw [own] at same
    exact List.perm_singleton.mp same.symm
  · simp [own] at few

end Json

/-! ### Changes of one field -/

namespace RecordField

variable {β : Type} {field : RecordField β} {levels : Nat} {value : β} {j j' : Json}
  {before after members members' : List (Option String × Json)}

theorem Finds.length_le (finds : field.Finds levels members value) :
    (membersOf field.name members).length ≤ 1 := by
  rcases finds with ⟨_, own, _⟩ | ⟨own, _⟩ <;> simp [own]

/-- The member of a field may be read in another form. -/
theorem Finds.replace
    (finds : field.Finds levels (before ++ (some field.name, j) :: after) value)
    (same : ∀ value, field.read levels j = .ok value → field.read levels j' = .ok value) :
    field.Finds levels (before ++ (some field.name, j') :: after) value := by
  rw [Finds, Json.membersOf_around] at finds ⊢
  rcases finds with ⟨k, own, read⟩ | ⟨own, _⟩
  · obtain ⟨first, rest⟩ | ⟨-, rest⟩ := List.append_eq_singleton_iff.mp own
    · rw [List.cons.injEq] at rest
      obtain ⟨rfl, last⟩ := rest
      exact .inl ⟨j', by rw [first, last]; rfl, same value read⟩
    · cases rest
  · simp at own

/-- The member of a field that is read as the value for its absence may be absent. -/
theorem Finds.drop (finds : field.Finds levels (before ++ (some field.name, j) :: after) value)
    {default : β} (absent : field.inObject = some default)
    (read : field.read levels j = .ok default) :
    field.Finds levels (before ++ after) value := by
  rw [Finds, Json.membersOf_around] at finds
  rw [Finds, Json.membersOf_append]
  rcases finds with ⟨k, own, found⟩ | ⟨own, _⟩
  · obtain ⟨first, rest⟩ | ⟨-, rest⟩ := List.append_eq_singleton_iff.mp own
    · rw [List.cons.injEq] at rest
      obtain ⟨rfl, last⟩ := rest
      rw [read, Except.ok.injEq] at found
      exact .inr ⟨by rw [first, last]; rfl, by rw [absent, found]⟩
    · cases rest
  · simp at own

end RecordField

/-! ### Changes of a record -/

namespace Fields

variable {βs : List Type} {fields : Fields βs} {levels : Nat} {row : Row βs}
  {before after members members' : List (Option String × Json)}

theorem Finds.perm (finds : fields.Finds levels members row) (perm : members.Perm members') :
    fields.Finds levels members' row := by
  induction fields with
  | nil => trivial
  | cons field rest ih =>
      have own := Json.membersOf_eq_of_perm perm finds.1.length_le
      exact ⟨by rw [RecordField.Finds, own]; exact finds.1, ih finds.2⟩

theorem passes_around {key : String} {j : Json} :
    fields.Passes (before ++ (some key, j) :: after) ↔
      (key ∉ fields.names → j.isWhole = true) ∧ fields.Passes (before ++ after) := by
  have own : (∃ name, some key = some name ∧ (name ∉ fields.names → j.isWhole = true)) ↔
      (key ∉ fields.names → j.isWhole = true) := by simp
  simp only [Passes, List.forall_mem_append, List.forall_mem_cons, own]
  exact and_left_comm

/-- An item of an array may be read in another form. -/
theorem Lists.change {n : Nat} {β : Type} {field : RecordField β} (place : fields.At n field)
    {front back : List Json} {j j' : Json} (position : front.length = n)
    (lists : fields.Lists levels (front ++ j :: back) row)
    (same : ∀ value, field.read levels j = .ok value → field.read levels j' = .ok value) :
    fields.Lists levels (front ++ j' :: back) row := by
  induction place generalizing front with
  | head =>
      obtain rfl := List.length_eq_zero_iff.mp position
      exact ⟨same _ lists.1, lists.2⟩
  | tail place ih =>
      obtain ⟨first, front, rfl⟩ := List.exists_cons_of_length_eq_add_one position
      exact ⟨lists.1, ih (by simpa using position) lists.2 same⟩

end Fields

/-! ### Other spellings of a record -/

namespace Reader

section Records

variable {α β : Type} {βs : List Type} {fields : Fields βs} {make : Row βs → α} {levels n : Nat}
  {members members' before after : List (Option String × Json)} {closed : Bool} {v : α}
  {field : RecordField β} {j j' : Json}

theorem record_perm (distinct : fields.names.Nodup) (perm : members.Perm members')
    (read : record fields make (levels + 1) (.object members closed) = .ok v) :
    record fields make (levels + 1) (.object members' closed) = .ok v := by
  rw [record_object_eq_ok_iff distinct] at read ⊢
  obtain ⟨closed, row, made, finds, passes⟩ := read
  exact ⟨closed, row, made, finds.perm perm, fun member inside =>
    passes member (perm.mem_iff.mpr inside)⟩

theorem record_insert {key : String} (distinct : fields.names.Nodup) (unknown : key ∉ fields.names)
    (whole : j.isWhole = true)
    (read : record fields make (levels + 1) (.object (before ++ after) closed) = .ok v) :
    record fields make (levels + 1)
      (.object (before ++ (some key, j) :: after) closed) = .ok v := by
  rw [record_object_eq_ok_iff distinct] at read ⊢
  obtain ⟨closed, row, made, finds, passes⟩ := read
  refine ⟨closed, row, made, (Fields.finds_congr fun name known => ?_).mpr finds,
    Fields.passes_around.mpr ⟨fun _ => whole, passes⟩⟩
  exact Json.membersOf_around_of_ne fun same => unknown (same ▸ known)

theorem record_drop {default : β} (distinct : fields.names.Nodup) (place : fields.At n field)
    (absent : field.inObject = some default) (usual : field.read levels j = .ok default)
    (read : record fields make (levels + 1)
      (.object (before ++ (some field.name, j) :: after) closed) = .ok v) :
    record fields make (levels + 1) (.object (before ++ after) closed) = .ok v := by
  rw [record_object_eq_ok_iff distinct] at read ⊢
  obtain ⟨closed, row, made, finds, passes⟩ := read
  exact ⟨closed, row, made, finds.change place distinct
    (fun name other => (Json.membersOf_around_of_ne other.symm).symm)
    (fun value finds => finds.drop absent usual), (Fields.passes_around.mp passes).2⟩

theorem record_spread {items : List Json} (distinct : fields.names.Nodup)
    (spells : fields.Spells members items)
    (read : record fields make (levels + 1) (.object members closed) = .ok v) :
    record fields make (levels + 1) (.array items closed) = .ok v := by
  rw [record_object_eq_ok_iff distinct] at read
  rw [record_array_eq_ok_iff]
  obtain ⟨closed, row, made, finds, -⟩ := read
  exact ⟨closed, row, made, finds.lists spells⟩

theorem record_member (distinct : fields.names.Nodup) (place : fields.At n field)
    (same : ∀ value, field.read levels j = .ok value → field.read levels j' = .ok value)
    (read : record fields make (levels + 1)
      (.object (before ++ (some field.name, j) :: after) closed) = .ok v) :
    record fields make (levels + 1)
      (.object (before ++ (some field.name, j') :: after) closed) = .ok v := by
  rw [record_object_eq_ok_iff distinct] at read ⊢
  obtain ⟨closed, row, made, finds, passes⟩ := read
  refine ⟨closed, row, made, finds.change place distinct (fun name other => ?_)
    (fun value finds => finds.replace same), ?_⟩
  · rw [Json.membersOf_around_of_ne other.symm, Json.membersOf_around_of_ne other.symm]
  · exact Fields.passes_around.mpr
      ⟨fun unknown => absurd place.mem_names unknown, (Fields.passes_around.mp passes).2⟩

theorem record_value {front back : List Json} (place : fields.At front.length field)
    (same : ∀ value, field.read levels j = .ok value → field.read levels j' = .ok value)
    (read : record fields make (levels + 1) (.array (front ++ j :: back) closed) = .ok v) :
    record fields make (levels + 1) (.array (front ++ j' :: back) closed) = .ok v := by
  rw [record_array_eq_ok_iff] at read ⊢
  obtain ⟨closed, row, made, lists⟩ := read
  exact ⟨closed, row, made, lists.change place rfl same⟩

end Records

/-! ### One change -/

/-- One change of a tree that makes no difference to a reader with a number of levels left. -/
inductive Respells : {α : Type} → Reader α → Nat → Json → Json → Prop where
  /-- The members of an object stand in another order. -/
  | permute {α : Type} {βs : List Type} {fields : Fields βs} {make : Row βs → α} {levels : Nat}
      {members members' : List (Option String × Json)} {closed : Bool}
      (distinct : fields.names.Nodup) (perm : members.Perm members') :
      Respells (record fields make) (levels + 1) (.object members closed) (.object members' closed)
  /-- An object has one more member, under a name that no field has. -/
  | insert {α : Type} {βs : List Type} {fields : Fields βs} {make : Row βs → α} {levels : Nat}
      (before : List (Option String × Json)) {after : List (Option String × Json)} {closed : Bool}
      {key : String} {j : Json}
      (distinct : fields.names.Nodup) (unknown : key ∉ fields.names) (whole : j.isWhole = true) :
      Respells (record fields make) (levels + 1) (.object (before ++ after) closed)
        (.object (before ++ (some key, j) :: after) closed)
  /-- An object is without the member of a field that is read as the value for its absence. -/
  | drop {α β : Type} {βs : List Type} {fields : Fields βs} {make : Row βs → α} {levels n : Nat}
      (before : List (Option String × Json)) {after : List (Option String × Json)} {closed : Bool}
      {field : RecordField β} {j : Json} {default : β} (distinct : fields.names.Nodup)
      (place : fields.At n field) (absent : field.inObject = some default)
      (read : field.read levels j = .ok default) :
      Respells (record fields make) (levels + 1)
        (.object (before ++ (some field.name, j) :: after) closed)
        (.object (before ++ after) closed)
  /-- An object with a member for every field is the array of their values. -/
  | spread {α : Type} {βs : List Type} {fields : Fields βs} {make : Row βs → α} {levels : Nat}
      {members : List (Option String × Json)} {closed : Bool} {items : List Json}
      (distinct : fields.names.Nodup) (spells : fields.Spells members items) :
      Respells (record fields make) (levels + 1) (.object members closed) (.array items closed)
  /-- The name of a variant without content is an object with null, if one level more is left. -/
  | unit {α : Type} {variants : List (String × Variant α)} {levels : Nat} {name : String}
      {value : α} (found : variants.lookup name = some (.unit value)) :
      Respells (choice variants) (levels + 1) (.ofString name) (.record [(name, .null)])
  /-- A change of the member of a field. -/
  | member {α β : Type} {βs : List Type} {fields : Fields βs} {make : Row βs → α} {levels n : Nat}
      (before : List (Option String × Json)) {after : List (Option String × Json)} {closed : Bool}
      {field : RecordField β} {j j' : Json} (distinct : fields.names.Nodup)
      (place : fields.At n field) (inside : Respells field.read levels j j') :
      Respells (record fields make) (levels + 1)
        (.object (before ++ (some field.name, j) :: after) closed)
        (.object (before ++ (some field.name, j') :: after) closed)
  /-- A change of the value of a field in an array. -/
  | value {α β : Type} {βs : List Type} {fields : Fields βs} {make : Row βs → α} {levels : Nat}
      (front : List Json) {back : List Json} {closed : Bool} {field : RecordField β} {j j' : Json}
      (place : fields.At front.length field) (inside : Respells field.read levels j j') :
      Respells (record fields make) (levels + 1) (.array (front ++ j :: back) closed)
        (.array (front ++ j' :: back) closed)
  /-- A change of the content of a variant. -/
  | content {α : Type} {variants : List (String × Variant α)} {levels : Nat} {name : String}
      {read : Reader α} {rest : List (Option String × Json)} {closed : Bool} {j j' : Json}
      (found : variants.lookup name = some (.content read)) (inside : Respells read levels j j') :
      Respells (choice variants) (levels + 1) (.object ((some name, j) :: rest) closed)
        (.object ((some name, j') :: rest) closed)
  /-- A change of an item of a list. -/
  | item {α : Type} {read : Reader α} {levels : Nat} (front : List Json) {back : List Json}
      {closed : Bool} {j j' : Json} (inside : Respells read levels j j') :
      Respells (list read) (levels + 1) (.array (front ++ j :: back) closed)
        (.array (front ++ j' :: back) closed)
  /-- A change of the second of two values. -/
  | second {α β : Type} {read : Reader α} {other : Reader β} {levels : Nat} {i j j' : Json}
      {rest : List Json} {closed : Bool} (inside : Respells other levels j j') :
      Respells (pair read other) (levels + 1) (.array (i :: j :: rest) closed)
        (.array (i :: j' :: rest) closed)
  /-- A change of a value that may be null and is not. -/
  | optional {α : Type} {read : Reader α} {levels : Nat} {j j' : Json}
      (inside : Respells read levels j j') : Respells read.optional levels j j'
  /-- A change of what another value is made from. -/
  | map {α β : Type} {make : α → β} {read : Reader α} {levels : Nat} {j j' : Json}
      (inside : Respells read levels j j') : Respells (read.map make) levels j j'
  /-- A change of the description of an integral value. -/
  | integral {levels : Nat} {j j' : Json} (inside : Respells description levels j j') :
      Respells integral levels j j'
  /-- A change of a constant. -/
  | constant {rounding : Rounding} {levels : Nat} {j j' : Json}
      (inside : Respells (constantWith rounding (list (constant rounding))) levels j j') :
      Respells (constant rounding) levels j j'

namespace Respells

variable {α : Type} {read : Reader α} {levels : Nat} {j j' : Json}

/-- What is changed is never null, and does not become null. -/
theorem ne_null (change : Respells read levels j j') : j ≠ .null ∧ j' ≠ .null := by
  induction change with
  | optional _ ih | map _ ih | integral _ ih | constant _ ih => exact ih
  | _ => exact ⟨by rintro ⟨⟩, by rintro ⟨⟩⟩

/-- **One change leaves the value as it is.** -/
theorem preserves (change : Respells read levels j j') {v : α} (before : read levels j = .ok v) :
    read levels j' = .ok v := by
  -- A change further down is one for the reader there, which the induction takes care of.
  induction change with
  | permute distinct perm => exact record_perm distinct perm before
  | insert _ distinct unknown whole => exact record_insert distinct unknown whole before
  | drop _ distinct place absent usual => exact record_drop distinct place absent usual before
  | spread distinct spells => exact record_spread distinct spells before
  | unit found =>
      simp only [choice, Json.ofString, Variant.find, found] at before
      simpa [choice, Json.record, Variant.find, found, Variant.read] using before
  | member _ distinct place _ ih => exact record_member distinct place (fun _ => ih) before
  | value _ place _ ih => exact record_value place (fun _ => ih) before
  | content found _ ih =>
      simp only [choice, Variant.find, found, ok_bind, Variant.read, bind_eq_ok_iff] at before ⊢
      obtain ⟨value, read, rest⟩ := before
      exact ⟨value, ih read, rest⟩
  | item _ _ ih =>
      simp only [Reader.list, List.mapM_append, List.mapM_cons, bind_eq_ok_iff] at before ⊢
      obtain ⟨_, ⟨ahead, front, _, ⟨value, read, behind, back, made⟩, joined⟩, rest⟩ := before
      exact ⟨_, ⟨ahead, front, _, ⟨value, ih read, behind, back, made⟩, joined⟩, rest⟩
  | second _ ih =>
      simp only [pair, bind_eq_ok_iff] at before ⊢
      obtain ⟨x, first, y, second, rest⟩ := before
      exact ⟨x, first, y, ih second, rest⟩
  | optional inside ih =>
      obtain ⟨some, some'⟩ := inside.ne_null
      rw [Reader.optional.eq_2 _ _ _ some] at before
      rw [Reader.optional.eq_2 _ _ _ some']
      obtain ⟨value, read, rfl⟩ := map_eq_ok_iff.mp before
      exact map_eq_ok_iff.mpr ⟨value, ih read, rfl⟩
  | map _ ih =>
      obtain ⟨value, read, rfl⟩ := map_eq_ok_iff.mp before
      exact map_eq_ok_iff.mpr ⟨value, ih read, rfl⟩
  | integral _ ih =>
      rw [Reader.integral, bind_eq_ok_iff] at before ⊢
      obtain ⟨description, read, resolved⟩ := before
      exact ⟨description, ih read, resolved⟩
  | constant _ ih =>
      rw [constant_eq] at before ⊢
      exact ih before

end Respells

/-! ### Any number of changes -/

/-- Any number of changes that make no difference to a reader. -/
def Respelled {α : Type} (read : Reader α) (levels : Nat) : Json → Json → Prop :=
  Relation.ReflTransGen (Respells read levels)

/-- **No number of changes makes a difference to the value.** -/
theorem Respelled.preserves {α : Type} {read : Reader α} {levels : Nat} {j j' : Json} {v : α}
    (changes : Respelled read levels j j') (before : read levels j = .ok v) :
    read levels j' = .ok v := by
  induction changes with
  | refl => exact before
  | tail _ change ih => exact change.preserves ih

theorem Respelled.decode {α : Type} {read : Reader α} {text text' : String} {j j' : Json} {v : α}
    (changes : Respelled read mostLevels j j') (holds : Holds text j) (holds' : Holds text' j')
    (decoded : decode read text = .ok v) : decode read text' = .ok v :=
  holds'.decode.mpr (changes.preserves (holds.decode.mp decoded))

end Reader

namespace Generator

open Json (record list ofString)
open Reader (Holds Respelled Respells decode mostLevels)

/-- The text of a callable has the outcome of the callable. -/
theorem signatureOfText_of_decode {generator : Generator} {rounding : Rounding} {text : String}
    {v : Callable} (decoded : decode (Reader.callable rounding) text = .ok v) :
    generator.signatureOfText rounding text = (generator.signature v).mapError .rejected := by
  rw [signatureOfText, decoded]
  rfl

/--
**The surface form of a text does not matter.** A text that decodes to a value decodes to the same
one after any number of changes at any depth, whatever it is decoded as; and if it decodes as a
callable, both texts have the outcome that the callable has, its signature or its rejection.
-/
theorem signatureOfText_respelled (generator : Generator) {text text' : String} {j j' : Json}
    (holds : Holds text j) (holds' : Holds text' j') :
    (∀ {α : Type} (read : Reader α) (v : α), Respelled read mostLevels j j' →
      decode read text = .ok v → decode read text' = .ok v) ∧
    ∀ (rounding : Rounding) (v : Callable),
      Respelled (Reader.callable rounding) mostLevels j j' →
      decode (Reader.callable rounding) text = .ok v →
      generator.signatureOfText rounding text = (generator.signature v).mapError .rejected ∧
        generator.signatureOfText rounding text' = (generator.signature v).mapError .rejected := by
  refine ⟨fun read v changes decoded => changes.decode holds holds' decoded,
    fun rounding v changes decoded => ⟨signatureOfText_of_decode decoded, ?_⟩⟩
  exact signatureOfText_of_decode (changes.decode holds holds' decoded)

/--
A note before the parameters, a parameter with two members swapped and one dropped, and in it the
kind of a type as an object and a number as a list.
-/
theorem signatureOfText_respelled_note :
    let name := ("name", ofString "n")
    let type (kind : Json) := ("type", record [("name", ofString "byte"), ("kind", kind)])
    let flag := ("is_variadic", Json.bool false)
    let default (n : Json) := ("default_value", record [("integer", n)])
    let width : Json := .number (.ofInt 8)
    let value : Json := .number (.ofInt 7)
    let spelled := record
      [("kind", .null), ("width", width), ("signed", .bool false), ("value", value)]
    let listed := list [.null, width, .bool false, value]
    let before := record [("parameters", list [record
      [name, type (ofString "value"), flag, default spelled]])]
    let after := record [("note", .null), ("parameters", list [record
      [type (record [("value", .null)]), name, default listed]])]
    let seven : Integral := ⟨.byte, 7, by decide⟩
    let callable : Callable :=
      ⟨none, [⟨"n", .value "byte", false, .value, false, [], some (.integer seven)⟩]⟩
    let read := Reader.callable .arithmetic
    (Holds before.toText before ∧ Holds after.toText after ∧
      Respelled read mostLevels before after ∧ decode read before.toText = .ok callable) ∧
    decode read after.toText = .ok callable ∧
    ∀ generator : Generator,
      generator.signatureOfText .arithmetic before.toText =
          (generator.signature callable).mapError .rejected ∧
        generator.signatureOfText .arithmetic after.toText =
          (generator.signature callable).mapError .rejected := by
  intro name type flag default width value spelled listed before after seven callable read
  have holds : Holds before.toText before := Reader.holds_toText (by decide)
  have holds' : Holds after.toText after := Reader.holds_toText (by decide)
  let nested (members : List (String × Json)) := record [("parameters", list [record members])]
  have inside {members members' : List (String × Json)}
      (change : Respells (Reader.parameter .arithmetic) 125 (record members) (record members')) :
      Respells read mostLevels (nested members) (nested members') :=
    .member [] (by decide) (.tail .head) (.item [] change)
  have changes : Respelled read mostLevels before after := by
    have listing : Respells Reader.integral 123 spelled listed :=
      .integral (.spread (by decide)
        ⟨_, _, rfl, rfl, _, _, rfl, rfl, _, _, rfl, rfl, _, _, rfl, rfl, rfl⟩)
    have first : Respells read mostLevels before
        (nested [name, type (ofString "value"), flag, default listed]) :=
      inside (.member [_, _, _] (by decide)
        (.tail <| .tail <| .tail <| .tail <| .tail <| .tail .head)
        (.optional (.constant (.content rfl (.map listing)))))
    have second : Respells read mostLevels
        (nested [name, type (ofString "value"), flag, default listed])
        (nested [name, type (ofString "value"), default listed]) :=
      inside (.drop [_, _] (by decide) (.tail <| .tail <| .tail <| .tail .head) rfl rfl)
    have third : Respells read mostLevels
        (nested [name, type (ofString "value"), default listed])
        (nested [name, type (record [("value", .null)]), default listed]) :=
      inside (.member [_] (by decide) (.tail .head)
        (.member [_] (by decide) (.tail .head) (.unit rfl)))
    have fourth : Respells read mostLevels
        (nested [name, type (record [("value", .null)]), default listed])
        (nested [type (record [("value", .null)]), name, default listed]) :=
      inside (.permute (by decide) (.swap _ _ _))
    have fifth : Respells read mostLevels
        (nested [type (record [("value", .null)]), name, default listed]) after :=
      .insert [] (by decide) (by decide) (by decide)
    exact .tail (.tail (.tail (.tail (.single first) second) third) fourth) fifth
  have decoded : decode read before.toText = .ok callable := holds.decode.mpr rfl
  exact ⟨⟨holds, holds', changes, decoded⟩,
    (signatureOfText_respelled {} holds holds').1 _ _ changes decoded,
    fun generator => (generator.signatureOfText_respelled holds holds').2 _ _ changes decoded⟩

end Generator

end SignatureText
