/-
**What a record is read from.**

* `Fields.members_eq_ok_iff` — an object gives a row if each field finds its value: exactly one
  member has the field's name and is read as the value, or none has and the value is the one for
  that (`RecordField.Finds`). All other members only have to be well-formed. The order of the
  members plays no part in this.
* `Fields.Finds.change` — what becomes of the members of one name concerns the field of that name
  only.
* `Fields.items_eq_ok_iff` — an array gives a row if its items are read as the first fields one by
  one and the others have a value for their absence (`Fields.Lists`).
-/

import SignatureText.Proofs.Wire.Reading

namespace SignatureText

/-! ### Members of one name -/

namespace Json

/-- The values of all members with a key. -/
def membersOf (key : String) (members : List (Option String × Json)) : List Json :=
  (members.filter fun member => member.1 = some key).map Prod.snd

/-- The members with other keys. -/
def othersOf (key : String) (members : List (Option String × Json)) : List (Option String × Json) :=
  members.filter fun member => member.1 ≠ some key

variable {key other : String} {j : Json} {members : List (Option String × Json)}

@[simp] theorem membersOf_nil : membersOf key [] = [] := rfl

@[simp] theorem membersOf_cons_self :
    membersOf key ((some key, j) :: members) = j :: membersOf key members := by
  simp [membersOf]

theorem membersOf_cons_of_ne (different : other ≠ key) :
    membersOf key ((some other, j) :: members) = membersOf key members := by
  simp [membersOf, different]

@[simp] theorem othersOf_cons_self :
    othersOf key ((some key, j) :: members) = othersOf key members := by
  simp [othersOf]

theorem othersOf_cons_of_ne (different : other ≠ key) :
    othersOf key ((some other, j) :: members) = (some other, j) :: othersOf key members := by
  simp [othersOf, different]

theorem membersOf_append (members members' : List (Option String × Json)) :
    membersOf key (members ++ members') = membersOf key members ++ membersOf key members' := by
  simp [membersOf]

/-- Taking the members of one name out does not touch those of another. -/
theorem membersOf_othersOf (different : key ≠ other) :
    membersOf key (othersOf other members) = membersOf key members := by
  rw [membersOf, othersOf, List.filter_filter, membersOf]
  congr 1
  refine List.filter_congr fun member _ => ?_
  by_cases own : member.1 = some key <;> simp [own, different]

end Json

open Json (membersOf othersOf)

/-! ### Fields in objects -/

/-- The field finds its value among members: one that is read as it, or none. -/
def RecordField.Finds {β : Type} (field : RecordField β) (levels : Nat)
    (members : List (Option String × Json)) (value : β) : Prop :=
  (∃ j, membersOf field.name members = [j] ∧ field.read levels j = .ok value) ∨
    membersOf field.name members = [] ∧ field.inObject = some value

namespace Fields

/-- Every field finds its value among members. -/
def Finds (levels : Nat) (members : List (Option String × Json)) :
    {βs : List Type} → Fields βs → Row βs → Prop
  | _, .nil, () => True
  | _, .cons field rest, (value, row) => field.Finds levels members value ∧
      rest.Finds levels members row

/-- What a field has after some members with its name. -/
def Takes {β : Type} (read : Json → Except DecodeFault β) :
    List Json → Option β → Option β → Prop
  | [], value, value' => value' = value
  | j :: js, value, value' => js = [] ∧ value = none ∧ ∃ v, read j = .ok v ∧ value' = some v

variable {βs : List Type} {levels : Nat}

/-- A member is a field's, or no field's and well-formed. -/
theorem members_cons_some_eq_ok_iff {fields : Fields βs} {key : String} {j : Json}
    {members : List (Option String × Json)} {draft draft' : Draft βs} :
    fields.members levels ((some key, j) :: members) draft = .ok draft' ↔
      (∃ next, fields.member levels key j draft = .ok (some next) ∧
        fields.members levels members next = .ok draft') ∨
      fields.member levels key j draft = .ok none ∧ j.isWhole = true ∧
        fields.members levels members draft = .ok draft' := by
  rw [Fields.members]
  cases fields.member levels key j draft with
  | error fault => simp
  | ok found =>
      cases found with
      | some next => simp
      | none => by_cases whole : j.isWhole = true <;> simp [whole]

/-- **The first field takes the members with its name, and the others are left to the rest.** -/
theorem members_cons_eq_ok_iff {β : Type} {field : RecordField β} {rest : Fields βs}
    {members : List (Option String × Json)} {value value' : Option β} {draft draft' : Draft βs} :
    (Fields.cons field rest).members levels members (value, draft) = .ok (value', draft') ↔
      Takes (field.read levels) (membersOf field.name members) value value' ∧
        rest.members levels (othersOf field.name members) draft = .ok draft' := by
  induction members generalizing value draft with
  | nil => simp [Fields.members, Takes, othersOf, eq_comm]
  | cons first members ih =>
      obtain ⟨key, j⟩ := first
      cases key with
      | none => simp [Fields.members, othersOf]
      | some key =>
          by_cases own : field.name = key
          · subst own
            rw [Json.membersOf_cons_self, Json.othersOf_cons_self, members_cons_some_eq_ok_iff]
            cases value with
            | some value => simp [member, Takes]
            | none =>
                cases read : field.read levels j with
                | error fault => simp [member, Takes, read]
                | ok v =>
                    have now : Takes (field.read levels) (j :: membersOf field.name members) none
                        value' ↔ Takes (field.read levels) (membersOf field.name members) (some v)
                          value' := by
                      cases membersOf field.name members <;> simp [Takes, read]
                    rw [now, ← ih]
                    simp [member, read]
          · rw [Json.membersOf_cons_of_ne (Ne.symm own), Json.othersOf_cons_of_ne (Ne.symm own),
              members_cons_some_eq_ok_iff, members_cons_some_eq_ok_iff]
            cases read : rest.member levels key j draft with
            | error fault => simp [member, own, read]
            | ok found => cases found <;> simp [member, own, read, ih, and_left_comm]

/-- Only the members with the names of fields count. -/
theorem finds_congr {fields : Fields βs} {row : Row βs}
    {members members' : List (Option String × Json)}
    (same : ∀ name ∈ fields.names, membersOf name members' = membersOf name members) :
    fields.Finds levels members' row ↔ fields.Finds levels members row := by
  induction fields with
  | nil => exact Iff.rfl
  | cons field rest ih =>
      rw [names, List.forall_mem_cons] at same
      rw [Finds, Finds, RecordField.Finds, RecordField.Finds, same.1, ih same.2]

/-- The keys of members are texts, and what is no field's is well-formed. -/
def Passes (fields : Fields βs) (members : List (Option String × Json)) : Prop :=
  ∀ member ∈ members, ∃ key, member.1 = some key ∧ (key ∉ fields.names → member.2.isWhole = true)

theorem members_nil_eq_ok_iff {members : List (Option String × Json)} :
    Fields.nil.members levels members () = .ok () ↔ Fields.nil.Passes members := by
  induction members with
  | nil => simp [Fields.members, Passes]
  | cons first members ih =>
      obtain ⟨key, j⟩ := first
      cases key with
      | none => simp [Fields.members, Passes]
      | some key =>
          rw [members_cons_some_eq_ok_iff, ih, Passes, Passes, List.forall_mem_cons]
          simp [member, names]

/-- What is left of the members passes the other fields if all pass all fields. -/
theorem passes_cons_iff {β : Type} {field : RecordField β} {rest : Fields βs}
    {members : List (Option String × Json)} :
    (Fields.cons field rest).Passes members ↔ rest.Passes (othersOf field.name members) := by
  simp only [Passes, othersOf, List.mem_filter, names, List.mem_cons, decide_eq_true_eq]
  constructor
  · rintro passes member ⟨inside, other⟩
    obtain ⟨key, text, whole⟩ := passes member inside
    refine ⟨key, text, fun unknown => whole fun known => ?_⟩
    rcases known with own | known
    · exact other (by rw [text, own])
    · exact unknown known
  · intro passes member inside
    by_cases own : member.1 = some field.name
    · exact ⟨field.name, own, fun unknown => absurd (.inl rfl) unknown⟩
    · obtain ⟨key, text, whole⟩ := passes member ⟨inside, own⟩
      exact ⟨key, text, fun unknown => whole fun known => unknown (.inr known)⟩

/-- What a field has not taken is its value for that. -/
theorem complete_cons_eq_ok_iff {β : Type} {field : RecordField β} {rest : Fields βs}
    {taken : Option β} {draft : Draft βs} {value : β} {row : Row βs} :
    (Fields.cons field rest).complete (taken, draft) = .ok (value, row) ↔
      taken.or field.inObject = some value ∧ rest.complete draft = .ok row := by
  rw [complete]
  cases taken.or field.inObject with
  | none => simp
  | some v => simp [bind_eq_ok_iff, and_comm]

/-- **An object gives a row if every field finds its value in it.** -/
theorem members_eq_ok_iff {fields : Fields βs} (distinct : fields.names.Nodup)
    {members : List (Option String × Json)} {row : Row βs} :
    (∃ draft, fields.members levels members (Draft.empty βs) = .ok draft ∧
      fields.complete draft = .ok row) ↔
      fields.Finds levels members row ∧ fields.Passes members := by
  induction fields generalizing members with
  | nil =>
      rw [Finds, true_and]
      constructor
      · rintro ⟨⟨⟩, filled, -⟩
        exact members_nil_eq_ok_iff.mp filled
      · exact fun passes => ⟨(), members_nil_eq_ok_iff.mpr passes, rfl⟩
  | @cons β βs field rest ih =>
      obtain ⟨value, row⟩ := row
      rw [names, List.nodup_cons] at distinct
      have others : rest.Finds levels (othersOf field.name members) row ↔
          rest.Finds levels members row :=
        finds_congr fun name known =>
          Json.membersOf_othersOf fun same => distinct.1 (same ▸ known)
      have found : (∃ value', Takes (field.read levels) (membersOf field.name members) none value' ∧
          value'.or field.inObject = some value) ↔ field.Finds levels members value := by
        unfold RecordField.Finds
        cases membersOf field.name members with
        | nil => simp [Takes]
        | cons j js => cases js <;> simp [Takes]
      rw [Finds, passes_cons_iff, ← others, ← found, and_assoc, ← ih distinct.2]
      constructor
      · rintro ⟨⟨value', draft⟩, filled, completed⟩
        obtain ⟨taken, filled⟩ := members_cons_eq_ok_iff.mp filled
        obtain ⟨own, completed⟩ := complete_cons_eq_ok_iff.mp completed
        exact ⟨⟨value', taken, own⟩, draft, filled, completed⟩
      · rintro ⟨⟨value', taken, own⟩, draft, filled, completed⟩
        exact ⟨(value', draft), members_cons_eq_ok_iff.mpr ⟨taken, filled⟩,
          complete_cons_eq_ok_iff.mpr ⟨own, completed⟩⟩

/-! ### One field of a record -/

/-- The field with the given number, in the record's order. -/
inductive At : {βs : List Type} → Fields βs → Nat → {β : Type} → RecordField β → Prop where
  | head {β : Type} {βs : List Type} {field : RecordField β} {rest : Fields βs} :
      At (.cons field rest) 0 field
  | tail {β γ : Type} {βs : List Type} {other : RecordField γ} {rest : Fields βs} {n : Nat}
      {field : RecordField β} (place : At rest n field) : At (.cons other rest) (n + 1) field

theorem At.mem_names {fields : Fields βs} {n : Nat} {β : Type} {field : RecordField β}
    (place : fields.At n field) : field.name ∈ fields.names := by
  induction place with
  | head => exact List.mem_cons_self
  | tail _ ih => exact List.mem_cons_of_mem _ ih

/-- **Members of one name concern the field of that name only.** -/
theorem Finds.change {fields : Fields βs} {n : Nat} {β : Type} {field : RecordField β}
    (place : fields.At n field) (distinct : fields.names.Nodup)
    {members members' : List (Option String × Json)} {row : Row βs}
    (finds : fields.Finds levels members row)
    (others : ∀ name ≠ field.name, membersOf name members' = membersOf name members)
    (own : ∀ value, field.Finds levels members value → field.Finds levels members' value) :
    fields.Finds levels members' row := by
  induction place with
  | head =>
      rw [names, List.nodup_cons] at distinct
      exact ⟨own _ finds.1, (finds_congr fun name known =>
        others name fun same => distinct.1 (same ▸ known)).mpr finds.2⟩
  | @tail _ _ _ other _ _ _ place ih =>
      rw [names, List.nodup_cons] at distinct
      have head := others other.name fun same => distinct.1 (same ▸ place.mem_names)
      refine ⟨?_, ih distinct.2 finds.2 others own⟩
      have first := finds.1
      rwa [RecordField.Finds, ← head] at first

/-! ### Fields in arrays -/

/-- Items are the values of the first fields, and the others have a value for their absence. -/
def Lists (levels : Nat) : {βs : List Type} → Fields βs → List Json → Row βs → Prop
  | _, .nil, js, () => js = []
  | _, .cons field rest, j :: js, (value, row) =>
      field.read levels j = .ok value ∧ rest.Lists levels js row
  | _, .cons field rest, [], (value, row) =>
      field.inArray = some value ∧ rest.Lists levels [] row

/-- **An array gives a row if its items are the values of the fields.** -/
theorem items_eq_ok_iff {fields : Fields βs} {js : List Json} {row : Row βs} :
    fields.items levels js = .ok row ↔ fields.Lists levels js row := by
  induction fields generalizing js with
  | nil => cases js <;> simp [items, Lists]
  | cons field rest ih =>
      obtain ⟨value, row⟩ := row
      cases js with
      | nil =>
          rw [items, Lists, ← ih]
          cases field.inArray <;> simp [bind_eq_ok_iff, and_comm]
      | cons j js =>
          rw [items, Lists, ← ih]
          simp [bind_eq_ok_iff, and_comm]

/-- The items are the only members with the names of the fields, in the record's order. -/
def Spells (members : List (Option String × Json)) : {βs : List Type} → Fields βs → List Json → Prop
  | _, .nil, js => js = []
  | _, .cons field rest, js =>
      ∃ j others, js = j :: others ∧ membersOf field.name members = [j] ∧ rest.Spells members others

/-- **The values of members that spell out all fields list the same row.** -/
theorem Finds.lists {fields : Fields βs} {members : List (Option String × Json)} {js : List Json}
    {row : Row βs} (finds : fields.Finds levels members row) (spells : fields.Spells members js) :
    fields.Lists levels js row := by
  induction fields generalizing js with
  | nil => exact spells
  | cons field rest ih =>
      obtain ⟨j, others, rfl, own, spells⟩ := spells
      obtain ⟨value, finds⟩ := finds
      refine ⟨?_, ih finds spells⟩
      rcases value with ⟨k, same, read⟩ | ⟨none, _⟩
      · rw [own, List.singleton_inj] at same
        rwa [same]
      · rw [own] at none
        cases none

end Fields

/-! ### Records -/

namespace Reader

variable {α : Type} {βs : List Type} {fields : Fields βs} {make : Row βs → α} {levels : Nat}
  {closed : Bool} {v : α}

theorem record_object_eq_ok_iff (distinct : fields.names.Nodup)
    {members : List (Option String × Json)} :
    record fields make (levels + 1) (.object members closed) = .ok v ↔
      closed = true ∧ ∃ row, make row = v ∧ fields.Finds levels members row ∧
        fields.Passes members := by
  simp only [record, bind_eq_ok_iff, ← Fields.members_eq_ok_iff distinct]
  cases closed with
  | false => simp
  | true =>
      simp only [if_true, bind_eq_ok_iff, pure_eq_ok, Except.ok.injEq, true_and]
      constructor
      · rintro ⟨draft, filled, row, completed, rfl⟩
        exact ⟨row, rfl, draft, filled, completed⟩
      · rintro ⟨row, rfl, draft, filled, completed⟩
        exact ⟨draft, filled, row, completed, rfl⟩

theorem record_array_eq_ok_iff {items : List Json} :
    record fields make (levels + 1) (.array items closed) = .ok v ↔
      closed = true ∧ ∃ row, make row = v ∧ fields.Lists levels items row := by
  simp only [record, bind_eq_ok_iff, Fields.items_eq_ok_iff]
  cases closed with
  | false => simp
  | true =>
      simp only [if_true, pure_eq_ok, Except.ok.injEq, true_and]
      exact exists_congr fun row => and_comm

end Reader

end SignatureText
