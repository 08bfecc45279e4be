/-
**Names of bindings.**

The name of a binding is settled: made again from itself it is the same, and where reserved words
are marked it is none of them. Marking keeps names apart, but for a reserved word and its marked
form.

* `Declaration.normalize_eq_append` — only the first character is looked at and changed.
* `Declaration.normalize_eq_self_iff` — a name stays as it is exactly if its first character is no
  letter or its own lower case. Lower case begins with such a character, so
  `Declaration.normalize_normalize`.
* `Declaration.isKeyword_marked` — no reserved word begins with the mark, so marking is done once.
* `Declaration.bindingName_settled` — the theorem about one name.
* `Declaration.bindingName_eq_iff` — **two names share a binding's name** exactly if they are the
  same after normalization, or one is a reserved word and the other that word with the mark.
-/

import SignatureText.Declaration
import SignatureText.Proofs.Text.Character

namespace SignatureText.Declaration

/-! ### The first character -/

/-- A character that stays as it is at the head of a name. -/
def Stays (c : Char) : Prop :=
  Text.isLetter c = false ∨ Text.lowerCase c = [c]

theorem toList_normalize (name : String) :
    (normalize name).toList = normalizeChars name.toList :=
  String.toList_ofList

theorem normalizeChars_eq_append (cs : List Char) :
    normalizeChars cs = normalizeChars (cs.take 1) ++ cs.drop 1 := by
  cases cs with
  | nil => rfl
  | cons c cs =>
      simp only [List.take_succ_cons, List.take_zero, List.drop_succ_cons, List.drop_zero,
        normalizeChars]
      split
      · rw [List.append_nil]
      · rfl

/-- **Only the first character changes**, and what it becomes does not depend on the others. -/
theorem normalize_eq_append (name : String) :
    normalize name =
      normalize (String.ofList (name.toList.take 1)) ++ String.ofList (name.toList.drop 1) := by
  rw [← String.toList_inj, String.toList_append, toList_normalize, toList_normalize,
    String.toList_ofList, String.toList_ofList]
  exact normalizeChars_eq_append name.toList

theorem normalizeChars_eq_self_iff {cs : List Char} :
    normalizeChars cs = cs ↔ ∀ c ∈ cs.head?, Stays c := by
  cases cs with
  | nil => simp [normalizeChars]
  | cons c cs =>
      simp only [normalizeChars, List.head?_cons, Option.mem_def, Option.some.injEq, forall_eq']
      by_cases letter : Text.isLetter c
      · rw [if_pos letter, ← List.singleton_append, List.append_cancel_right_eq]
        simp [Stays, letter]
      · rw [if_neg letter]
        simp [Stays, letter]

theorem normalize_eq_self_iff {name : String} :
    normalize name = name ↔ ∀ c ∈ name.toList.head?, Stays c := by
  rw [← String.toList_inj, toList_normalize, normalizeChars_eq_self_iff]

/-- What a normalized name begins with stays. -/
theorem stays_of_mem_head? {name : String} : ∀ c ∈ (normalize name).toList.head?, Stays c := by
  rw [toList_normalize]
  cases name.toList with
  | nil => simp [normalizeChars]
  | cons c cs =>
      rw [normalizeChars]
      by_cases letter : Text.isLetter c
      · obtain ⟨d, ds, lowered, same⟩ := Text.exists_lowerCase_eq_cons c
        rw [if_pos letter, lowered]
        rintro _ ⟨⟩
        exact .inr same
      · rw [if_neg letter]
        rintro _ ⟨⟩
        exact .inl (Bool.eq_false_iff.mpr letter)

/-- **Normalization is done once.** -/
theorem normalize_normalize (name : String) : normalize (normalize name) = normalize name :=
  normalize_eq_self_iff.mpr stays_of_mem_head?

/-! ### Reserved words -/

theorem isKeyword_iff {word : String} : isKeyword word = true ↔ word ∈ keywords :=
  List.contains_iff_mem

/-- **A marked name is no reserved word**, whatever is marked. -/
theorem isKeyword_marked (name : String) : isKeyword ("@" ++ name) = false := by
  have unmarked : ∀ word ∈ keywords, word.toList.head? ≠ some '@' := by decide +kernel
  rw [Bool.eq_false_iff, Ne, isKeyword_iff]
  intro member
  exact unmarked _ member (by rw [String.toList_append]; rfl)

theorem normalize_marked (name : String) : normalize ("@" ++ name) = "@" ++ name := by
  rw [normalize_eq_self_iff, String.toList_append]
  rintro _ ⟨⟩
  exact .inl (by decide +kernel)

variable {a b name : String}

theorem bindingName_false (name : String) : bindingName false name = normalize name := rfl

theorem bindingName_of_keyword (reserved : isKeyword (normalize name) = true) :
    bindingName true name = "@" ++ normalize name := by
  simp [bindingName, reserved]

theorem bindingName_of_not_keyword (free : isKeyword (normalize name) = false) :
    bindingName true name = normalize name := by
  simp [bindingName, free]

theorem isKeyword_bindingName (name : String) : isKeyword (bindingName true name) = false := by
  cases reserved : isKeyword (normalize name) with
  | true => rw [bindingName_of_keyword reserved, isKeyword_marked]
  | false => rw [bindingName_of_not_keyword reserved, reserved]

/-- A name that is already that of a binding keeps it. -/
theorem bindingName_eq_self (free : isKeyword name = false) (same : normalize name = name) :
    bindingName true name = name := by
  rw [bindingName_of_not_keyword (by rw [same, free]), same]

theorem bindingName_normalize (name : String) :
    bindingName true (normalize name) = bindingName true name := by
  simp only [bindingName, normalize_normalize]

theorem normalize_bindingName (escape : Bool) (name : String) :
    normalize (bindingName escape name) = bindingName escape name := by
  simp only [bindingName]
  split
  · exact normalize_marked _
  · exact normalize_normalize name

/--
**The name of a binding is settled and no reserved word.** Whether or not reserved words were marked
in making it, made again with marks it is what it would have been with marks at once. Normalization
is done once, it looks at the first character alone and keeps the rest, and a name stays as it is
exactly if that character is no letter or its own lower case.
-/
theorem bindingName_settled (name : String) :
    isKeyword (bindingName true name) = false ∧
    (∀ escape, bindingName true (bindingName escape name) = bindingName true name) ∧
    normalize (normalize name) = normalize name ∧
    normalize name =
      normalize (String.ofList (name.toList.take 1)) ++ String.ofList (name.toList.drop 1) ∧
    (normalize name = name ↔
      ∀ c ∈ name.toList.head?, Text.isLetter c = false ∨ Text.lowerCase c = [c]) := by
  refine ⟨isKeyword_bindingName name, fun escape => ?_, normalize_normalize name,
    normalize_eq_append name, normalize_eq_self_iff⟩
  cases escape with
  | false => rw [bindingName_false, bindingName_normalize]
  | true => exact bindingName_eq_self (isKeyword_bindingName name) (normalize_bindingName true name)

/-- A word that is reserved only in lower case is marked once, and the one letter whose lower case
has two characters is put in lower case once. -/
theorem bindingName_settled_class :
    bindingName true "Class" = "@class" ∧ isKeyword "@class" = false ∧
      bindingName true "@class" = "@class" ∧ bindingName true "class" = "@class" ∧
      normalize "\u0130s" = "i\u0307s" ∧ normalize "i\u0307s" = "i\u0307s" := by
  have marked : bindingName true "Class" = "@class" := by decide +kernel
  have plain : bindingName false "Class" = "class" := by decide +kernel
  have lowered : normalize "\u0130s" = "i\u0307s" := by decide +kernel
  obtain ⟨free, again, -⟩ := bindingName_settled "Class"
  obtain ⟨-, -, once, -⟩ := bindingName_settled "\u0130s"
  have afterMarks := again true
  have afterNone := again false
  rw [marked] at free afterMarks afterNone
  rw [plain] at afterNone
  rw [lowered] at once
  exact ⟨marked, free, afterMarks, afterNone, lowered, once⟩

/-! ### Two names -/

/-- Two names become one: they are the same after normalization, or one is a reserved word and the
other that word with the mark. -/
def Merge (a b : String) : Prop :=
  normalize a = normalize b ∨
    ∃ word, isKeyword word = true ∧
      (normalize a = word ∧ normalize b = "@" ++ word ∨
        normalize b = word ∧ normalize a = "@" ++ word)

theorem bindingName_of_marked {word : String} (marked : normalize name = "@" ++ word) :
    bindingName true name = "@" ++ word := by
  rw [bindingName_of_not_keyword (by rw [marked, isKeyword_marked]), marked]

/-- **Marking keeps names apart**, but for a reserved word and its marked form. -/
theorem bindingName_eq_iff : bindingName true a = bindingName true b ↔ Merge a b := by
  constructor
  · intro same
    cases first : isKeyword (normalize a) <;> cases second : isKeyword (normalize b)
    · rw [bindingName_of_not_keyword first, bindingName_of_not_keyword second] at same
      exact .inl same
    · rw [bindingName_of_not_keyword first, bindingName_of_keyword second] at same
      exact .inr ⟨_, second, .inr ⟨rfl, same⟩⟩
    · rw [bindingName_of_keyword first, bindingName_of_not_keyword second] at same
      exact .inr ⟨_, first, .inl ⟨rfl, same.symm⟩⟩
    · rw [bindingName_of_keyword first, bindingName_of_keyword second] at same
      exact .inl ((String.append_right_inj "@").mp same)
  · rintro (same | ⟨_, reserved, ⟨rfl, marked⟩ | ⟨rfl, marked⟩⟩)
    · rw [← bindingName_normalize a, same, bindingName_normalize]
    · rw [bindingName_of_keyword reserved, bindingName_of_marked marked]
    · rw [bindingName_of_keyword reserved, bindingName_of_marked marked]

end SignatureText.Declaration
