/-
**Trees read back.**

* `value_chars` — **a whole tree is scanned back from its characters**, whatever follows that cannot
  go on with a number, and nothing of what follows is taken.
* `scan_toText` — so the text of a whole tree scans to that tree.

The steps are counted on the way: a tree takes two for each of its characters, its items and its
members one more.
-/

import SignatureText.Proofs.Json.Quoted
import SignatureText.Proofs.Number.Numeral

namespace SignatureText.Json

/-! ### First characters -/

/-- A character that white space and the end of an array are not. -/
def Begins (text : List Char) : Prop :=
  ∃ c cs, text = c :: cs ∧ isSpace c = false ∧ c ≠ ']'

theorem Begins.skipSpace_append {text : List Char} (begins : Begins text) (rest : List Char) :
    skipSpace (text ++ rest) = text ++ rest := by
  obtain ⟨c, cs, rfl, noSpace, _⟩ := begins
  simp [skipSpace, noSpace]

theorem begins_cons {c : Char} (noSpace : isSpace c = false) (noEnd : c ≠ ']') (cs : List Char) :
    Begins (c :: cs) :=
  ⟨c, cs, rfl, noSpace, noEnd⟩

theorem begins_number (style : ExponentStyle) (n : Numeral) : Begins (n.text style).toList := by
  obtain ⟨c, cs, digits, first⟩ := n.exists_text_eq_cons style
  rw [digits]
  rcases first with rfl | digit
  · exact begins_cons rfl (by decide) cs
  · have notDigit {d : Char} (other : d.isDigit = false) : c ≠ d := by
      rintro rfl
      rw [other] at digit
      cases digit
    refine begins_cons ?_ (notDigit rfl) cs
    simp [isSpace, notDigit (rfl : ' '.isDigit = false), notDigit (rfl : '\t'.isDigit = false),
      notDigit (rfl : '\n'.isDigit = false), notDigit (rfl : '\r'.isDigit = false)]

theorem begins_chars {j : Json} (whole : j.isWhole = true) : Begins j.chars := by
  cases j with
  | null =>
      rw [chars]
      exact begins_cons rfl (by decide) "ull".toList
  | bool b =>
      cases b
      · rw [chars]
        exact begins_cons rfl (by decide) "alse".toList
      · rw [chars]
        exact begins_cons rfl (by decide) "rue".toList
  | number n =>
      rw [chars]
      exact begins_number exponentStyle n
  | string s =>
      rw [chars_string]
      exact begins_cons rfl (by decide) _
  | array items closed =>
      rw [chars, List.cons_append]
      exact begins_cons rfl (by decide) _
  | object members closed =>
      rw [chars, List.cons_append]
      exact begins_cons rfl (by decide) _
  | cut => cases whole

/-! ### Scalars -/

theorem word_append (j : Json) (expected rest : List Char) :
    word j expected (expected ++ rest) = (j, some rest) := by
  simp [word]

/-- Nothing but a bracket or a brace opens further trees. -/
theorem value_of_ne {c : Char} (noSpace : isSpace c = false) (noArray : c ≠ '[')
    (noObject : c ≠ '\x7b') (steps : Nat) (cs : List Char) :
    value (steps + 1) (c :: cs) = scalar (c :: cs) := by
  have skip : skipSpace (c :: cs) = c :: cs := by simp [skipSpace, noSpace]
  rw [value, skip]
  split
  · exact absurd (List.cons.inj ‹_›).1 noArray
  · exact absurd (List.cons.inj ‹_›).1 noObject
  · rfl

theorem value_null (steps : Nat) (rest : List Char) :
    value (steps + 1) (chars null ++ rest) = (null, some rest) := by
  rw [chars]
  exact (value_of_ne rfl (by decide) (by decide) steps _).trans (word_append null _ rest)

theorem value_bool (b : Bool) (steps : Nat) (rest : List Char) :
    value (steps + 1) (chars (bool b) ++ rest) = (bool b, some rest) := by
  cases b with
  | true =>
      rw [chars]
      exact (value_of_ne rfl (by decide) (by decide) steps _).trans
        (word_append (bool true) _ rest)
  | false =>
      rw [chars]
      exact (value_of_ne rfl (by decide) (by decide) steps _).trans
        (word_append (bool false) _ rest)

theorem value_string (s : Option String) (steps : Nat) (rest : List Char) :
    value (steps + 1) (chars (string s) ++ rest) = (string s, some rest) := by
  have read := string?_stringChars s rest
  rw [chars_string, List.cons_append, value_of_ne rfl (by decide) (by decide), scalar]
  simp only [read]

theorem value_number (n : Numeral) (steps : Nat) {rest : List Char} (ends : EndsNumber rest) :
    value (steps + 1) (chars (number n) ++ rest) = (number n, some rest) := by
  have read := number?_text (.inl rfl : IsMark exponentStyle) n ends
  obtain ⟨c, cs, digits, first⟩ := n.exists_text_eq_cons exponentStyle
  have other {d : Char} (neither : ¬(d = '-' ∨ d.isDigit = true)) : c ≠ d := by
    rintro rfl
    exact neither first
  have noSpace : isSpace c = false := by
    simp [isSpace, other (by decide : ¬(' ' = '-' ∨ _)), other (by decide : ¬('\t' = '-' ∨ _)),
      other (by decide : ¬('\n' = '-' ∨ _)), other (by decide : ¬('\r' = '-' ∨ _))]
  rw [chars, digits, List.cons_append,
    value_of_ne noSpace (other (by decide)) (other (by decide))]
  rw [digits, List.cons_append] at read
  unfold scalar
  split
  · exact absurd (List.cons.inj ‹_›).1 (other (by decide))
  · exact absurd (List.cons.inj ‹_›).1 (other (by decide))
  · exact absurd (List.cons.inj ‹_›).1 (other (by decide))
  · exact absurd (List.cons.inj ‹_›).1 (other (by decide))
  · simp only [read]

/-! ### Trees -/

theorem endsNumber_cons (c : Char) (ends : c.isDigit = false ∧ c ≠ '.' ∧ c ≠ 'e' ∧ c ≠ 'E')
    (cs : List Char) : EndsNumber (c :: cs) := by
  rintro d ⟨⟩
  exact ends

theorem begins_itemChars {j : Json} (js : List Json) (whole : j.isWhole = true) :
    Begins (itemChars (j :: js)) := by
  obtain ⟨c, cs, first, noSpace, noEnd⟩ := begins_chars whole
  cases js with
  | nil =>
      rw [itemChars, first]
      exact begins_cons noSpace noEnd cs
  | cons next js =>
      rw [itemChars, first, List.cons_append]
      exact begins_cons noSpace noEnd _
      exact List.cons_ne_nil next js

theorem exists_memberChars_eq_cons (key : Option String) (j : Json)
    (js : List (Option String × Json)) : ∃ cs, memberChars ((key, j) :: js) = '\x22' :: cs := by
  cases js <;> simp [memberChars, chars_string]

/-- One more tree, and a comma behind it. -/
theorem items_comma {steps : Nat} {text rest : List Char} {item : Json}
    (first : value steps text = (item, some (',' :: rest))) :
    items (steps + 1) text = (item :: (items steps rest).1, (items steps rest).2) := by
  have skip : skipSpace (',' :: rest) = ',' :: rest := rfl
  simp only [items, first, Option.map_some, skip]

theorem items_end {steps : Nat} {text rest : List Char} {item : Json}
    (last : value steps text = (item, some (']' :: rest))) :
    items (steps + 1) text = ([item], some rest) := by
  have skip : skipSpace (']' :: rest) = ']' :: rest := rfl
  simp only [items, last, Option.map_some, skip]

theorem value_array {steps : Nat} {text : List Char} (begins : Begins text) (rest : List Char) :
    value (steps + 1) ('[' :: (text ++ rest)) =
      (.array (items steps (text ++ rest)).1 (items steps (text ++ rest)).2.isSome,
        (items steps (text ++ rest)).2) := by
  have skip : skipSpace ('[' :: (text ++ rest)) = '[' :: (text ++ rest) := rfl
  have inner := begins.skipSpace_append rest
  have noEnd (others : List Char) : text ++ rest ≠ ']' :: others := by
    obtain ⟨c, cs, rfl, _, noEnd⟩ := begins
    simp [noEnd]
  rw [value, skip]
  simp only [inner]

/-- One more member, and a comma behind it. -/
theorem members_comma {steps : Nat} {text rest : List Char} {item : Json} (key : Option String)
    (first : value steps text = (item, some (',' :: rest))) :
    members (steps + 1) ('\x22' :: (stringChars key ++ ':' :: text)) =
      ((key, item) :: (members steps rest).1, (members steps rest).2) := by
  have skip : skipSpace ('\x22' :: (stringChars key ++ ':' :: text)) =
    '\x22' :: (stringChars key ++ ':' :: text) := rfl
  have colon : skipSpace (':' :: text) = ':' :: text := rfl
  have comma : skipSpace (',' :: rest) = ',' :: rest := rfl
  simp only [members, skip, string?_stringChars, colon, first, Option.map_some, comma]

theorem members_end {steps : Nat} {text rest : List Char} {item : Json} (key : Option String)
    (last : value steps text = (item, some ('\x7d' :: rest))) :
    members (steps + 1) ('\x22' :: (stringChars key ++ ':' :: text)) =
      ([(key, item)], some rest) := by
  have skip : skipSpace ('\x22' :: (stringChars key ++ ':' :: text)) =
    '\x22' :: (stringChars key ++ ':' :: text) := rfl
  have colon : skipSpace (':' :: text) = ':' :: text := rfl
  have brace : skipSpace ('\x7d' :: rest) = '\x7d' :: rest := rfl
  simp only [members, skip, string?_stringChars, colon, last, Option.map_some, brace]

theorem value_object (steps : Nat) (text : List Char) :
    value (steps + 1) ('\x7b' :: '\x22' :: text) =
      (.object (members steps ('\x22' :: text)).1 (members steps ('\x22' :: text)).2.isSome,
        (members steps ('\x22' :: text)).2) := by
  have skip : skipSpace ('\x7b' :: '\x22' :: text) = '\x7b' :: '\x22' :: text := rfl
  have inner : skipSpace ('\x22' :: text) = '\x22' :: text := rfl
  rw [value, skip]
  simp only [inner]
  rfl

mutual

/-- **A whole tree is scanned back from its characters.** -/
theorem value_chars (j : Json) (whole : j.isWhole = true) (steps : Nat)
    (enough : 2 * j.chars.length ≤ steps) {rest : List Char} (ends : EndsNumber rest) :
    value steps (j.chars ++ rest) = (j, some rest) := by
  obtain ⟨c, cs, first, noSpace, _⟩ := begins_chars whole
  have step : steps ≠ 0 := by
    rw [first, List.length_cons] at enough
    omega
  obtain ⟨steps, rfl⟩ := Nat.exists_eq_add_one_of_ne_zero step
  cases j with
  | null => exact value_null steps rest
  | bool b => exact value_bool b steps rest
  | number n => exact value_number n steps ends
  | string s => exact value_string s steps rest
  | array js closed =>
      obtain ⟨all, rfl⟩ : allWhole js = true ∧ closed = true := by simpa [isWhole] using whole
      cases js with
      | nil => simp [chars, itemChars, value, skipSpace, isSpace]
      | cons j js =>
          have room : 2 * (itemChars (j :: js)).length + 1 ≤ steps := by
            simp [chars] at enough
            omega
          have scanned := items_itemChars j js all steps room rest
          have begins := begins_itemChars js (Bool.and_eq_true_iff.mp all).1
          have written : (array (j :: js) true).chars ++ rest =
              '[' :: (itemChars (j :: js) ++ ']' :: rest) := by simp [chars]
          rw [written, value_array begins, scanned]
          rfl
  | object js closed =>
      obtain ⟨all, rfl⟩ : allMembersWhole js = true ∧ closed = true := by
        simpa [isWhole] using whole
      cases js with
      | nil => simp [chars, memberChars, value, skipSpace, isSpace]
      | cons member js =>
          obtain ⟨key, j⟩ := member
          have room : 2 * (memberChars ((key, j) :: js)).length + 1 ≤ steps := by
            simp [chars] at enough
            omega
          have scanned := members_memberChars key j js all steps room rest
          obtain ⟨cs, begins⟩ := exists_memberChars_eq_cons key j js
          have written : (object ((key, j) :: js) true).chars ++ rest =
              '\x7b' :: (memberChars ((key, j) :: js) ++ '\x7d' :: rest) := by simp [chars]
          rw [begins, List.cons_append] at scanned written
          rw [written, value_object, scanned]
          rfl
  | cut => cases whole
termination_by steps

/-- The items of a closed array are scanned back. -/
theorem items_itemChars (j : Json) (js : List Json) (whole : allWhole (j :: js) = true)
    (steps : Nat) (enough : 2 * (itemChars (j :: js)).length + 1 ≤ steps) (rest : List Char) :
    items steps (itemChars (j :: js) ++ ']' :: rest) = (j :: js, some rest) := by
  obtain ⟨head, tail⟩ : j.isWhole = true ∧ allWhole js = true := by simpa [allWhole] using whole
  obtain ⟨steps, rfl⟩ := Nat.exists_eq_add_one_of_ne_zero (by omega : steps ≠ 0)
  cases js with
  | nil =>
      simp only [itemChars] at enough ⊢
      exact items_end (value_chars j head steps (by omega) (endsNumber_cons ']' (by decide) rest))
  | cons next js =>
      have written : itemChars (j :: next :: js) = j.chars ++ ',' :: itemChars (next :: js) := by
        simp [itemChars]
      rw [written, List.length_append, List.length_cons] at enough
      rw [written, List.append_assoc, List.cons_append]
      have first := value_chars j head steps (by omega)
        (endsNumber_cons ',' (by decide) (itemChars (next :: js) ++ ']' :: rest))
      have others := items_itemChars next js tail steps (by omega) rest
      rw [items_comma first, others]
termination_by steps

/-- The members of a closed object are scanned back. -/
theorem members_memberChars (key : Option String) (j : Json) (js : List (Option String × Json))
    (whole : allMembersWhole ((key, j) :: js) = true) (steps : Nat)
    (enough : 2 * (memberChars ((key, j) :: js)).length + 1 ≤ steps) (rest : List Char) :
    members steps (memberChars ((key, j) :: js) ++ '\x7d' :: rest) =
      ((key, j) :: js, some rest) := by
  obtain ⟨head, tail⟩ : j.isWhole = true ∧ allMembersWhole js = true := by
    simpa [allMembersWhole] using whole
  obtain ⟨steps, rfl⟩ := Nat.exists_eq_add_one_of_ne_zero (by omega : steps ≠ 0)
  cases js with
  | nil =>
      have written : memberChars [(key, j)] = '\x22' :: (stringChars key ++ ':' :: j.chars) := by
        simp [memberChars, chars_string]
      rw [written, List.length_cons, List.length_append, List.length_cons] at enough
      have last := value_chars j head steps (by omega)
        (endsNumber_cons '\x7d' (by decide) rest)
      rw [written, List.cons_append, List.append_assoc, List.cons_append]
      exact members_end key last
  | cons next js =>
      obtain ⟨nextKey, next⟩ := next
      have written : memberChars ((key, j) :: (nextKey, next) :: js) =
          '\x22' :: (stringChars key ++ ':' :: (j.chars ++ ',' ::
            memberChars ((nextKey, next) :: js))) := by
        simp [memberChars, chars_string]
      rw [written, List.length_cons, List.length_append, List.length_cons, List.length_append,
        List.length_cons] at enough
      have first := value_chars j head steps (by omega) (endsNumber_cons ',' (by decide)
        (memberChars ((nextKey, next) :: js) ++ '\x7d' :: rest))
      have others := members_memberChars nextKey next js tail steps (by omega) rest
      rw [written, List.cons_append, List.append_assoc, List.cons_append, List.append_assoc,
        List.cons_append, members_comma key first, others]
termination_by steps

end

/-- **The text of a whole tree scans to the tree**, and nothing is left. -/
theorem scan_toText {j : Json} (whole : j.isWhole = true) : scan j.toText = (j, some []) := by
  have ends : EndsNumber [] := by rintro c ⟨⟩
  have room : 2 * j.chars.length ≤ 2 * j.toText.length + 2 := by
    rw [toText, String.length_ofList]
    omega
  have scanned := value_chars j whole _ room ends
  rw [List.append_nil] at scanned
  rw [scan, ← scanned, toText, String.toList_ofList]

/-- **Different trees have different texts**, unless one holds a fault. -/
theorem toText_injective {j k : Json} (whole : j.isWhole = true) (whole' : k.isWhole = true)
    (same : j.toText = k.toText) : j = k := by
  have scanned := scan_toText whole
  rw [same, scan_toText whole'] at scanned
  exact (Prod.mk.inj scanned).1.symm

end SignatureText.Json
