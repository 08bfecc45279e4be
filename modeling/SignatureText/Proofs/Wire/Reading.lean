/-
**Trees that are read as values.**

`Reader.Reads read j v`: the tree is whole, and with as many levels left as it nests in, it is read
as the value. Every reader that is put together from others has its own rule.

* `Reads.list`, `Reads.pair` — items one by one.
* `Reads.unit`, `Reads.content` — a variant by its name, without and with content.
* `Reads.record` — **a record whose members are its fields in order**, where a field that has a
  value for its absence may be left out (`Fields.Written`). A member passes all fields before its
  own untouched (`Fields.members_cons`).
* `Reads.decode` — the text of the tree decodes to the value.
-/

import Mathlib.Data.List.Forall2
import SignatureText.Proofs.Json.Scanner
import SignatureText.Proofs.Outcome
import SignatureText.Wire.Reader

namespace SignatureText

/-! ### Nesting -/

namespace Json

mutual

/-- How many arrays and objects of a tree stand within each other. -/
def nesting : Json → Nat
  | array items _ => itemNesting items + 1
  | object members _ => memberNesting members + 1
  | null | bool _ | number _ | string _ | cut => 0

/-- The most that one of some trees nests. -/
def itemNesting : List Json → Nat
  | [] => 0
  | item :: rest => max (nesting item) (itemNesting rest)

/-- The most that the tree of one of some members nests. -/
def memberNesting : List (Option String × Json) → Nat
  | [] => 0
  | (_, value) :: rest => max (nesting value) (memberNesting rest)

end

/-- Members with their keys as strings. -/
def named (members : List (String × Json)) : List (Option String × Json) :=
  members.map fun member => (some member.1, member.2)

@[simp] theorem named_nil : named [] = [] := rfl

@[simp] theorem named_cons (key : String) (j : Json) (members : List (String × Json)) :
    named ((key, j) :: members) = (some key, j) :: named members := rfl

theorem nesting_list (items : List Json) : (list items).nesting = itemNesting items + 1 := by
  rw [list, nesting]

theorem nesting_record (members : List (String × Json)) :
    (record members).nesting = memberNesting (named members) + 1 := by
  rw [record, nesting, named]

end Json

namespace Reader

variable {α β : Type} {j : Json}

/-! ### Texts and trees -/

/-- A text holds a tree and nothing behind it but white space. -/
def Holds (text : String) (j : Json) : Prop :=
  ∃ rest, Json.scan text = (j, some rest) ∧ (Json.skipSpace rest).isEmpty = true

theorem holds_toText (whole : j.isWhole = true) : Holds j.toText j :=
  ⟨[], Json.scan_toText whole, rfl⟩

/-- A text decodes to a value if it holds a tree that is read as the value. -/
theorem decode_eq_ok_iff {read : Reader α} {text : String} {v : α} :
    decode read text = .ok v ↔ ∃ j, Holds text j ∧ read mostLevels j = .ok v := by
  rw [decode]
  rcases scanned : Json.scan text with ⟨j, _ | rest⟩
  · simp [Holds, scanned, bind_eq_ok_iff]
  · by_cases ended : Json.skipSpace rest = [] <;>
      simp [Holds, scanned, bind_eq_ok_iff, ended]

theorem Holds.decode {read : Reader α} {text : String} (holds : Holds text j) {v : α} :
    decode read text = .ok v ↔ read mostLevels j = .ok v := by
  refine decode_eq_ok_iff.trans ⟨fun ⟨k, same, read⟩ => ?_, fun read => ⟨j, holds, read⟩⟩
  obtain ⟨_, scanned, -⟩ := holds
  obtain ⟨_, scanned', -⟩ := same
  obtain ⟨rfl, -⟩ := Prod.mk.inj (scanned.symm.trans scanned')
  exact read

/-! ### Trees and values -/

/-- The tree is whole and, with enough levels left, it is read as the value. -/
structure Reads (read : Reader α) (j : Json) (v : α) : Prop where
  whole : j.isWhole = true
  result : ∀ levels, j.nesting ≤ levels → read levels j = .ok v

namespace Reads

variable {read : Reader α} {v : α}

/-- **The text of a tree decodes to the value that the tree is read as.** -/
theorem decode (reads : Reads read j v) (shallow : j.nesting ≤ mostLevels) :
    decode read j.toText = .ok v :=
  (holds_toText reads.whole).decode.mpr (reads.result mostLevels shallow)

theorem map (reads : Reads read j v) (make : α → β) : Reads (read.map make) j (make v) := by
  refine ⟨reads.whole, fun levels enough => ?_⟩
  rw [Reader.map, reads.result levels enough, map_ok]

theorem leaf {value? : Json → Option α} (whole : j.isWhole = true) (value : value? j = some v) :
    Reads (leaf value?) j v := by
  refine ⟨whole, fun levels _ => ?_⟩
  simp only [Reader.leaf, value]

/-! ### Options, lists and pairs -/

theorem null : Reads read.optional .null none :=
  ⟨by rw [Json.isWhole], fun _ _ => rfl⟩

theorem present (reads : Reads read j v) (some : j ≠ .null) : Reads read.optional j (.some v) := by
  refine ⟨reads.whole, fun levels enough => ?_⟩
  have read := reads.result levels enough
  cases j with
  | null => exact absurd rfl some
  | _ => simp only [optional, read, map_ok]

theorem allWhole {js : List Json} {vs : List α} (reads : List.Forall₂ (Reads read) js vs) :
    Json.allWhole js = true := by
  induction reads with
  | nil => rw [Json.allWhole]
  | cons head _ ih => rw [Json.allWhole, head.whole, ih, Bool.and_self]

/-- With enough levels left for each item, the items are read at that depth. -/
theorem fixed {js : List Json} {vs : List α} (reads : List.Forall₂ (Reads read) js vs)
    {levels : Nat} (enough : Json.itemNesting js ≤ levels) :
    List.Forall₂ (Reads fun _ => read levels) js vs := by
  induction reads with
  | nil => exact .nil
  | cons head _ ih =>
      rw [Json.itemNesting, max_le_iff] at enough
      exact .cons ⟨head.whole, fun _ _ => head.result levels enough.1⟩ (ih enough.2)

theorem list {js : List Json} {vs : List α} (reads : List.Forall₂ (Reads read) js vs) :
    Reads (list read) (.list js) vs := by
  refine ⟨?_, fun levels enough => ?_⟩
  · rw [Json.list, Json.isWhole, allWhole reads, Bool.and_self]
  · rw [Json.nesting_list] at enough
    obtain ⟨levels, rfl⟩ := Nat.exists_eq_add_one_of_ne_zero (by omega : levels ≠ 0)
    have values : js.mapM (read levels) = .ok vs := mapM_eq_ok_iff.mpr
      ((fixed reads (by omega)).imp fun _ _ item => item.result _ le_rfl)
    simp only [Json.list, Reader.list, values, ok_bind, if_true, pure_eq_ok]

/-- A list that is written item by item is read item by item. -/
theorem map_list {γ : Type} {encode : γ → Json} {make : γ → α} {us : List γ}
    (reads : ∀ u ∈ us, Reads read (encode u) (make u)) :
    Reads (Reader.list read) (.list (us.map encode)) (us.map make) :=
  list (List.forall₂_map_left_iff.mpr (List.forall₂_map_right_iff.mpr
    (List.forall₂_same.mpr reads)))

theorem pair {other : Reader β} {k : Json} {w : β} (first : Reads read j v)
    (second : Reads other k w) : Reads (pair read other) (.list [j, k]) (v, w) := by
  refine ⟨?_, fun levels enough => ?_⟩
  · simp only [Json.list, Json.isWhole, Json.allWhole, first.whole, second.whole, Bool.and_self]
  · rw [Json.nesting_list] at enough
    simp only [Json.itemNesting] at enough
    obtain ⟨levels, rfl⟩ := Nat.exists_eq_add_one_of_ne_zero (by omega : levels ≠ 0)
    have v := first.result levels (by omega)
    have w := second.result levels (by omega)
    simp [Json.list, Reader.pair, v, w]

/-! ### Choices -/

variable {variants : List (String × Variant α)} {name : String}

theorem unit (found : variants.lookup name = some (.unit v)) :
    Reads (choice variants) (.ofString name) v := by
  refine ⟨by rw [Json.ofString, Json.isWhole], fun levels _ => ?_⟩
  simp [choice, Json.ofString, Variant.find, found]

theorem content (found : variants.lookup name = some (.content read)) (reads : Reads read j v) :
    Reads (choice variants) (.record [(name, j)]) v := by
  refine ⟨?_, fun levels enough => ?_⟩
  · simp only [Json.record, List.map_cons, List.map_nil, Json.isWhole, Json.allMembersWhole,
      reads.whole, Bool.and_self]
  · simp only [Json.nesting_record, Json.named_cons, Json.named_nil, Json.memberNesting] at enough
    obtain ⟨levels, rfl⟩ := Nat.exists_eq_add_one_of_ne_zero (by omega : levels ≠ 0)
    have value := reads.result levels (by omega)
    simp [choice, Json.record, Variant.find, found, Variant.read, value]

end Reads

end Reader

/-! ### Records -/

open Reader (Reads)

namespace RecordField

variable {β : Type} (name : String) (read : Reader β)

@[simp] theorem name_required : (required name read).name = name := rfl

@[simp] theorem name_withDefault (value : β) : (withDefault name read value).name = name := rfl

@[simp] theorem name_nullable : (nullable name read).name = name := rfl

end RecordField

namespace Fields

/-- The names of the fields. -/
def names : {βs : List Type} → Fields βs → List String
  | _, .nil => []
  | _, .cons field rest => field.name :: rest.names

@[simp] theorem names_nil : Fields.nil.names = [] := rfl

@[simp] theorem names_cons {β : Type} {βs : List Type} (field : RecordField β) (rest : Fields βs) :
    (Fields.cons field rest).names = field.name :: rest.names := rfl

/-- Members that are the fields in order, but for some that have a value for their absence. -/
inductive Written : {βs : List Type} → Fields βs → List (String × Json) → Row βs → Prop where
  | nil : Written .nil [] ()
  | present {β : Type} {βs : List Type} {field : RecordField β} {rest : Fields βs} {j : Json}
      {members : List (String × Json)} {value : β} {row : Row βs} (reads : Reads field.read j value)
      (others : Written rest members row) :
      Written (.cons field rest) ((field.name, j) :: members) (value, row)
  | absent {β : Type} {βs : List Type} {field : RecordField β} {rest : Fields βs}
      {members : List (String × Json)} {value : β} {row : Row βs}
      (missing : field.inObject = some value) (others : Written rest members row) :
      Written (.cons field rest) members (value, row)

/-- A field that no member is for keeps what it has. -/
theorem members_cons {β : Type} {βs : List Type} {field : RecordField β} (rest : Fields βs)
    {members : List (String × Json)} (fresh : field.name ∉ members.map Prod.fst) (levels : Nat)
    (value : Option β) (draft : Draft βs) :
    (Fields.cons field rest).members levels (Json.named members) (value, draft) =
      (rest.members levels (Json.named members) draft).map fun draft => (value, draft) := by
  induction members generalizing draft with
  | nil => rfl
  | cons first members ih =>
      obtain ⟨key, j⟩ := first
      obtain ⟨other, fresh⟩ : field.name ≠ key ∧ field.name ∉ members.map Prod.fst := by
        simpa using fresh
      have ih := ih fresh
      simp only [Json.named_cons, Fields.members, member, if_neg other]
      cases read : rest.member levels key j draft with
      | error fault => simp
      | ok found =>
          cases found with
          | some draft => simpa using ih draft
          | none =>
              by_cases whole : j.isWhole = true
              · simpa [whole] using ih draft
              · simp [whole]

namespace Written

variable {βs : List Type} {fields : Fields βs} {members : List (String × Json)} {row : Row βs}

theorem whole (written : Written fields members row) :
    Json.allMembersWhole (Json.named members) = true := by
  induction written with
  | nil => rw [Json.named_nil, Json.allMembersWhole]
  | present reads _ ih =>
      simp only [Json.named_cons, Json.allMembersWhole, reads.whole, ih, Bool.and_self]
  | absent _ _ ih => exact ih

theorem keys_subset (written : Written fields members row) :
    members.map Prod.fst ⊆ fields.names := by
  induction written with
  | nil => exact List.nil_subset _
  | present _ _ ih =>
      rw [List.map_cons, names]
      exact List.cons_subset_cons _ ih
  | absent _ _ ih => exact List.subset_cons_of_subset _ ih

/-- **Members that are the fields give the row.** -/
theorem result (written : Written fields members row) (distinct : fields.names.Nodup)
    {levels : Nat} (enough : Json.memberNesting (Json.named members) ≤ levels) :
    ∃ draft, fields.members levels (Json.named members) (Draft.empty βs) = .ok draft ∧
      fields.complete draft = .ok row := by
  induction written with
  | nil => exact ⟨(), rfl, rfl⟩
  | @present β βs field rest j members value row reads others ih =>
      rw [names, List.nodup_cons] at distinct
      have fresh := fun member => distinct.1 (others.keys_subset member)
      simp only [Json.named_cons, Json.memberNesting, max_le_iff] at enough
      obtain ⟨draft, filled, complete⟩ := ih distinct.2 enough.2
      refine ⟨(some value, draft), ?_, ?_⟩
      · have passed := members_cons rest fresh levels (some value) (Draft.empty βs)
        rw [filled, map_ok] at passed
        simp only [Json.named_cons, Fields.members, member, Draft.empty, if_true,
          reads.result levels enough.1, ok_bind, pure_eq_ok]
        exact passed
      · simp only [Fields.complete, Option.some_or, complete, ok_bind, pure_eq_ok]
  | @absent β βs field rest members value row missing others ih =>
      rw [names, List.nodup_cons] at distinct
      have fresh := fun member => distinct.1 (others.keys_subset member)
      obtain ⟨draft, filled, complete⟩ := ih distinct.2 enough
      refine ⟨(none, draft), ?_, ?_⟩
      · exact (members_cons rest fresh levels none (Draft.empty βs)).trans (by rw [filled, map_ok])
      · simp only [Fields.complete, Option.none_or, missing, complete, ok_bind, pure_eq_ok]

end Written

end Fields

/-- **A record whose members are its fields is read as their values.** -/
theorem Reader.Reads.record {α : Type} {βs : List Type} {fields : Fields βs}
    {members : List (String × Json)} {row : Row βs} (written : Fields.Written fields members row)
    (distinct : fields.names.Nodup) (make : Row βs → α) :
    Reads (Reader.record fields make) (.record members) (make row) := by
  refine ⟨?_, fun levels enough => ?_⟩
  · rw [Json.record, Json.isWhole]
    exact Bool.and_eq_true_iff.mpr ⟨written.whole, rfl⟩
  · rw [Json.nesting_record] at enough
    obtain ⟨levels, rfl⟩ := Nat.exists_eq_add_one_of_ne_zero (by omega : levels ≠ 0)
    obtain ⟨draft, filled, complete⟩ := written.result distinct (by omega : _ ≤ levels)
    rw [Json.named] at filled
    simp only [Json.record, Reader.record, filled, complete, ok_bind, if_true, pure_eq_ok]

end SignatureText
