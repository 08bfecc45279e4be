/-
**Outcomes.**

A step that may be refused is followed by another one only where it was not: so a result of the two
is a result of each (`bind_eq_ok_iff`), and a list has results exactly where each item has one
(`mapM_eq_ok_iff`). All other modules take outcomes apart through these two.

What a step was refused with, apart from its result, is `refusal?`. Of two steps and of a list it is
the first refusal there is (`refusal?_bind`, `refusal?_mapM`), so steps that do not look at each
other's results are scanned in order.
-/

import Mathlib.Data.List.Forall2

namespace SignatureText

variable {α β ε : Type}

@[simp] theorem ok_bind (a : α) (next : α → Except ε β) : (Except.ok a >>= next) = next a := rfl

@[simp] theorem error_bind (fault : ε) (next : α → Except ε β) :
    (Except.error fault >>= next) = .error fault := rfl

@[simp] theorem map_ok (make : α → β) (a : α) :
    (Except.ok a : Except ε α).map make = .ok (make a) := rfl

@[simp] theorem map_error (make : α → β) (fault : ε) :
    (Except.error fault : Except ε α).map make = .error fault := rfl

@[simp] theorem pure_eq_ok (a : α) : (pure a : Except ε α) = .ok a := rfl

theorem bind_eq_ok_iff {first : Except ε α} {next : α → Except ε β} {b : β} :
    (first >>= next) = .ok b ↔ ∃ a, first = .ok a ∧ next a = .ok b := by
  cases first <;> simp

theorem map_eq_ok_iff {make : α → β} {first : Except ε α} {b : β} :
    first.map make = .ok b ↔ ∃ a, first = .ok a ∧ make a = b := by
  cases first <;> simp

theorem map_eq_error_iff {make : α → β} {first : Except ε α} {fault : ε} :
    first.map make = .error fault ↔ first = .error fault := by
  cases first <;> simp

theorem bind_eq_error_iff {first : Except ε α} {next : α → Except ε β} {fault : ε} :
    (first >>= next) = .error fault ↔
      first = .error fault ∨ ∃ a, first = .ok a ∧ next a = .error fault := by
  cases first <;> simp

/-- **A list has results exactly where each item has one**, and then in the same order. -/
theorem mapM_eq_ok_iff {f : α → Except ε β} {items : List α} {results : List β} :
    items.mapM f = .ok results ↔
      List.Forall₂ (fun item result => f item = .ok result) items results := by
  induction items generalizing results with
  | nil => simp [eq_comm]
  | cons item rest ih =>
      simp only [List.mapM_cons, bind_eq_ok_iff, ih, pure_eq_ok, Except.ok.injEq,
        List.forall₂_cons_left_iff]
      constructor
      · rintro ⟨result, head, others, tail, rfl⟩
        exact ⟨result, others, head, tail, rfl⟩
      · rintro ⟨result, others, head, tail, rfl⟩
        exact ⟨result, head, others, tail, rfl⟩

/-- A step that keeps the results of another one keeps those of a list. -/
theorem mapM_eq_ok_of_imp {f g : α → Except ε β} {items : List α} {results : List β}
    (kept : ∀ {item result}, f item = .ok result → g item = .ok result)
    (made : items.mapM f = .ok results) : items.mapM g = .ok results :=
  mapM_eq_ok_iff.mpr ((mapM_eq_ok_iff.mp made).imp fun _ _ => kept)

/-- Each result of a list is the result of an item. -/
theorem exists_of_mem_mapM_ok {f : α → Except ε β} {items : List α} {results : List β}
    (made : items.mapM f = .ok results) :
    ∀ result ∈ results, ∃ item ∈ items, f item = .ok result := by
  rw [mapM_eq_ok_iff] at made
  induction made with
  | nil => simp
  | cons head _ ih =>
      intro result member
      rcases List.mem_cons.mp member with rfl | member
      · exact ⟨_, List.mem_cons_self, head⟩
      · obtain ⟨item, inside, given⟩ := ih result member
        exact ⟨item, List.mem_cons_of_mem _ inside, given⟩

/-! ### Refusals in order -/

/-- What a step was refused with; nothing where it has a result. -/
def refusal? : Except ε α → Option ε
  | .ok _ => none
  | .error fault => some fault

@[simp] theorem refusal?_ok (a : α) : refusal? (.ok a : Except ε α) = none := rfl

@[simp] theorem refusal?_error (fault : ε) :
    refusal? (.error fault : Except ε α) = some fault :=
  rfl

theorem refusal?_eq_some_iff {outcome : Except ε α} {fault : ε} :
    refusal? outcome = some fault ↔ outcome = .error fault := by
  cases outcome <;> simp

theorem refusal?_eq_none_iff {outcome : Except ε α} :
    refusal? outcome = none ↔ ∃ a, outcome = .ok a := by
  cases outcome <;> simp

/-- **The first refusal counts**, where the second step is refused alike after any result. -/
theorem refusal?_bind {first : Except ε α} {next : α → Except ε β} {later : Option ε}
    (alike : ∀ a, refusal? (next a) = later) :
    refusal? (first >>= next) = (refusal? first).or later := by
  cases first with
  | ok a => exact alike a
  | error fault => rfl

theorem refusal?_bind_pure {first : Except ε α} {make : α → β} :
    refusal? (first >>= fun a => pure (make a)) = refusal? first := by
  cases first <;> rfl

/-- **A list is refused with the first refusal among its items.** -/
theorem refusal?_mapM {f : α → Except ε β} {items : List α} :
    refusal? (items.mapM f) = items.findSome? fun item => refusal? (f item) := by
  induction items with
  | nil => rfl
  | cons item rest ih =>
      have tail (result : β) : refusal? (do return result :: (← rest.mapM f)) =
          rest.findSome? fun item => refusal? (f item) := by
        rw [refusal?_bind_pure, ih]
      rw [List.mapM_cons, refusal?_bind tail, List.findSome?_cons]
      cases f item <;> rfl

theorem mapM_eq_error_iff {f : α → Except ε β} {items : List α} {fault : ε} :
    items.mapM f = .error fault ↔ ∃ before item after, items = before ++ item :: after ∧
      f item = .error fault ∧ ∀ earlier ∈ before, ∃ result, f earlier = .ok result := by
  rw [← refusal?_eq_some_iff, refusal?_mapM, List.findSome?_eq_some_iff]
  simp only [refusal?_eq_some_iff, refusal?_eq_none_iff]

/-- A list is refused with the refusal of one of its items. -/
theorem exists_of_mapM_eq_error {f : α → Except ε β} {items : List α} {fault : ε}
    (failed : items.mapM f = .error fault) : ∃ item ∈ items, f item = .error fault := by
  obtain ⟨before, item, after, rfl, refused, _⟩ := mapM_eq_error_iff.mp failed
  exact ⟨item, List.mem_append_right before List.mem_cons_self, refused⟩

end SignatureText
