/-
**The text of a literal determines the constant.**

`Constant.Agrees` relates constants that are the same but for what no literal says: which code a
number that is no number has, and what is known of an array's element type besides its name.

* `agrees_of_said` — literals without quotes that say the same are those of one constant.
* `Determined` — a literal determines its constant and where it ends in a longer text. It holds of
  every constant (`determined`), by recursion: a quoted literal ends at its quote, one without
  quotes at the next comma or blank, and an array where its elements do.
* `constant_agrees` — so constants with one literal agree.
-/

import Mathlib.Data.List.Forall2
import SignatureText.Proofs.Literal.Quoted
import SignatureText.Proofs.Literal.Said
import SignatureText.Proofs.Outcome

namespace SignatureText

namespace Constant

/-- The constants are the same but for the codes of numbers that are no numbers and for what is
known of the element types of arrays besides their names. -/
inductive Agrees : Constant → Constant → Prop where
  | refl (c : Constant) : Agrees c c
  | single {x y : Binary .single} (left : x.isNaN = true) (right : y.isNaN = true) :
      Agrees (single x) (single y)
  | double {x y : Binary .double} (left : x.isNaN = true) (right : y.isNaN = true) :
      Agrees (double x) (double y)
  | array {s t : TypeRef} {cs ds : List Constant} (name : s.name = t.name)
      (elements : List.Forall₂ Agrees cs ds) : Agrees (array s cs) (array t ds)

mutual

/-- The constant holds neither enum values nor types, and no element type with a brace. -/
def Scannable : Constant → Prop
  | array type elements => '\x7b' ∉ type.name.toList ∧ AllScannable elements
  | null | bool _ | char _ | string _ | integer _ | single _ | double _ | decimal _ => True
  | enumMember _ _ | typeOf _ => False

/-- So do the constants. -/
def AllScannable : List Constant → Prop
  | [] => True
  | c :: cs => Scannable c ∧ AllScannable cs

end

end Constant

namespace Literal

open Constant (Agrees Scannable AllScannable)

/-! ### Without quotes -/

theorem saidInteger_injective {a b : Integral} (same : saidInteger a = saidInteger b) : a = b := by
  obtain ⟨s, m, left⟩ := a
  obtain ⟨t, n, right⟩ := b
  have type : s = t ∧ Numeral.ofInt m = Numeral.ofInt n := by
    cases s <;> cases t <;>
      simp [saidInteger, IntegralType.width, IntegralType.keyword, suffix] at same ⊢ <;>
      exact same
  obtain ⟨rfl, numeral⟩ := type
  obtain rfl := Numeral.ofInt_injective numeral
  rfl

/-- The name of an infinity says which of the two it is. -/
theorem specialName_eq {f : Format} {x y : Binary f} (left : x.isFinite = false)
    (right : y.isFinite = false) (same : specialName x = specialName y) :
    x = y ∨ x.isNaN = true ∧ y.isNaN = true := by
  rw [Binary.isFinite_eq] at left right
  cases noX : x.isNaN <;> cases noY : y.isNaN
  · have negative : x.negative = y.negative := by
      cases signX : x.negative <;> cases signY : y.negative <;>
        simp [specialName, noX, noY, signX, signY] at same ⊢
    have codeX : x.code = f.infinityCode := by simpa [noX, Binary.isInfinite] using left
    have codeY : y.code = f.infinityCode := by simpa [noY, Binary.isInfinite] using right
    left
    cases x
    cases y
    simp_all
  · cases sign : x.negative <;> simp [specialName, noX, noY, sign] at same
  · cases sign : y.negative <;> simp [specialName, noX, noY, sign] at same
  · exact .inr ⟨rfl, rfl⟩

theorem saidReal_eq {f : Format} {keyword suffix : String} {x y : Binary f}
    (same : saidReal keyword suffix x = saidReal keyword suffix y) :
    x = y ∨ x.isNaN = true ∧ y.isNaN = true := by
  unfold saidReal at same
  cases left : x.isFinite <;> cases right : y.isFinite
  · rw [left, right, if_neg Bool.false_ne_true, if_neg Bool.false_ne_true, Said.word.injEq,
      String.append_right_inj] at same
    exact specialName_eq left right same
  · rw [left, right] at same
    cases same
  · rw [left, right] at same
    cases same
  · rw [left, right, if_pos rfl, if_pos rfl, Said.number.injEq] at same
    exact .inl (Binary.eq_of_numeral_eq realLayout left right same.1)

/-- The kind of constant that a literal without quotes is of. -/
def Said.shape : Said → Constant.Shape
  | word text =>
    if text = "null" then .null
    else if text = "true" ∨ text = "false" then .bool
    else if text ∈ ["float.NaN", "float.PositiveInfinity", "float.NegativeInfinity"] then .single
    else .double
  | number _ suffix =>
    if suffix = "F" then .single else if suffix = "D" then .double
    else if suffix = "M" then .decimal else .integer
  | cast _ _ => .integer

theorem shape_of_said {c : Constant} {s : Said} (meaning : said c = some s) :
    s.shape = c.shape := by
  cases c with
  | null => cases meaning; rfl
  | bool b => cases meaning; cases b <;> rfl
  | integer n =>
      cases meaning
      unfold saidInteger
      cases n.type <;> rfl
  | single x =>
      cases meaning
      unfold saidReal specialName
      cases x.isFinite <;> cases x.isNaN <;> cases x.negative <;> rfl
  | double x =>
      cases meaning
      unfold saidReal specialName
      cases x.isFinite <;> cases x.isNaN <;> cases x.negative <;> rfl
  | decimal d => cases meaning; rfl
  | char _ | string _ | enumMember _ _ | typeOf _ | array _ _ => cases meaning

/-- **Literals without quotes that say the same are those of one constant.** -/
theorem agrees_of_said {c d : Constant} {s : Said} (left : said c = some s)
    (right : said d = some s) : Agrees c d := by
  have shapes : c.shape = d.shape := (shape_of_said left).symm.trans (shape_of_said right)
  have same : said c = said d := left.trans right.symm
  cases c with
  | null => cases d with
    | null => exact .refl _
    | _ => cases shapes
  | bool a => cases d with
    | bool b =>
        have equal : a = b := by
          cases a <;> cases b <;> simp [said, bool] at same ⊢
        exact equal ▸ .refl _
    | _ => cases shapes
  | integer m => cases d with
    | integer n =>
        obtain rfl := saidInteger_injective (Option.some.inj same)
        exact .refl _
    | _ => cases shapes
  | single x => cases d with
    | single y =>
        rcases saidReal_eq (Option.some.inj same) with rfl | ⟨noX, noY⟩
        · exact .refl _
        · exact .single noX noY
    | _ => cases shapes
  | double x => cases d with
    | double y =>
        rcases saidReal_eq (Option.some.inj same) with rfl | ⟨noX, noY⟩
        · exact .refl _
        · exact .double noX noY
    | _ => cases shapes
  | decimal a => cases d with
    | decimal b =>
        have equal : a = b := by
          cases a
          cases b
          cases same
          rfl
        exact equal ▸ .refl _
    | _ => cases shapes
  | char _ | string _ | enumMember _ _ | typeOf _ | array _ _ => cases left

/-! ### How literals begin -/

/-- The four ways in which literals begin and end. -/
inductive Opening where
  | bare
  | char
  | string
  | array
deriving DecidableEq

/-- How a text begins. -/
def opening : List Char → Opening
  | '\x22' :: _ => .string
  | '\x27' :: _ => .char
  | text => if text.takeWhile (!isDelimiter ·) = "new".toList then .array else .bare

/-- How the literal of a constant begins. -/
def openingOf : Constant → Opening
  | .char _ => .char
  | .string _ => .string
  | .array _ _ => .array
  | .null | .bool _ | .integer _ | .single _ | .double _ | .decimal _ | .enumMember _ _
  | .typeOf _ => .bare

/-- The text goes on with what stands between literals, or ends. -/
def Ends (rest : List Char) : Prop :=
  ∀ c ∈ rest.head?, isDelimiter c = true

theorem ends_nil : Ends [] := by
  rintro c ⟨⟩

/-- A literal without quotes says something, in words and suffixes that are known. -/
theorem exists_said {c : Constant} {t : String} (scannable : c.Scannable)
    (bare : openingOf c = .bare) (made : constant c = .ok t) :
    ∃ s, said c = some s ∧ s.Legal ∧ s.text = t := by
  have meaning : ∃ s, said c = some s := by
    cases c with
    | null | bool _ | integer _ | single _ | double _ | decimal _ => exact ⟨_, rfl⟩
    | char _ | string _ | array _ _ => cases bare
    | enumMember _ _ | typeOf _ => exact scannable.elim
  obtain ⟨s, meaning⟩ := meaning
  exact ⟨s, meaning, legal_of_said meaning,
    Except.ok.inj ((constant_of_said meaning).symm.trans made)⟩

/-- What stands behind the brace that opens an array. -/
def elementChars : List String → List Char
  | [] => [' ', '\x7d']
  | t :: ts => ',' :: ' ' :: (t.toList ++ elementChars ts)

/-- What stands behind the brace and the blank that open an array. -/
def bodyChars : List String → List Char
  | [] => ['\x7d']
  | t :: ts => t.toList ++ elementChars ts

theorem toList_intercalate (t : String) (ts : List String) :
    (", ".intercalate (t :: ts)).toList ++ [' ', '\x7d'] = t.toList ++ elementChars ts := by
  induction ts generalizing t with
  | nil => rw [String.intercalate_singleton, elementChars]
  | cons u us ih =>
      rw [String.intercalate_cons_cons, String.toList_append, String.toList_append,
        List.append_assoc, List.append_assoc, ih]
      rfl

theorem toList_array_append (type : TypeRef) (ts : List String) (rest : List Char) :
    (array type ts).toList ++ rest =
      "new ".toList ++
        (type.name.toList ++ "[] ".toList ++ '\x7b' :: ' ' :: (bodyChars ts ++ rest)) := by
  have open_ : "[] \x7b ".toList = "[] ".toList ++ ['\x7b', ' '] := rfl
  have close : "\x7d".toList = ['\x7d'] := rfl
  unfold array
  cases ts with
  | nil =>
      simp only [String.toList_append, open_, close, bodyChars, List.append_assoc]
      rfl
  | cons t ts =>
      have blank : " ".toList ++ ['\x7d'] = [' ', '\x7d'] := rfl
      have elements := toList_intercalate t ts
      simp only [List.isEmpty_cons, Bool.false_eq_true, if_false, String.toList_append, open_,
        close, bodyChars, List.append_assoc, blank, elements]
      rfl

theorem eq_quoted_of_char {a : Char} {t : String} (made : char a = .ok t) :
    t = quoted '\x27' [a] := by
  unfold char at made
  split at made
  · exact (Except.ok.inj made).symm
  · cases made

/-- **A literal begins as the form of its constant says.** -/
theorem opening_append {c : Constant} {t : String} {rest : List Char} (scannable : c.Scannable)
    (made : constant c = .ok t) (ends : Ends rest) :
    opening (t.toList ++ rest) = openingOf c := by
  have quotedChars (quote : Char) (cs : List Char) :
      (quoted quote cs).toList ++ rest =
        quote :: (cs.flatMap (escape quote) ++ [quote] ++ rest) := by
    rw [quoted, String.toList_ofList]
    simp
  by_cases bare : openingOf c = .bare
  · obtain ⟨s, _, legal, rfl⟩ := exists_said scannable bare made
    have cut := takeWhile_append_of_stops (Said.isDelimiter_eq_false legal) ends
    obtain ⟨c, cs, first, noString, noChar, _⟩ := Said.exists_text_eq_cons legal
    rw [bare, opening]
    · rw [cut, if_neg (Said.text_ne_new legal)]
    · rw [first]
      simp [noString]
    · rw [first]
      simp [noChar]
  · cases c with
    | null | bool _ | integer _ | single _ | double _ | decimal _ => exact absurd rfl bare
    | enumMember _ _ | typeOf _ => exact absurd rfl bare
    | char a =>
        rw [eq_quoted_of_char made, quotedChars]
        rfl
    | string a =>
        cases made
        rw [string, quotedChars]
        rfl
    | array type cs =>
        obtain ⟨ts, _, made⟩ := bind_eq_ok_iff.mp made
        cases made
        rw [toList_array_append]
        rfl

/-- No literal begins as the end of an array does. -/
theorem exists_constant_eq_cons {c : Constant} {t : String} (scannable : c.Scannable)
    (made : constant c = .ok t) : ∃ a as, t.toList = a :: as ∧ a ≠ '\x7d' := by
  by_cases bare : openingOf c = .bare
  · obtain ⟨s, _, legal, rfl⟩ := exists_said scannable bare made
    obtain ⟨a, as, first, _, _, noEnd⟩ := Said.exists_text_eq_cons legal
    exact ⟨a, as, first, noEnd⟩
  · have openings := opening_append scannable made ends_nil
    rw [List.append_nil] at openings
    cases letters : t.toList with
    | nil =>
        rw [letters] at openings
        exact absurd openings.symm bare
    | cons a as =>
        refine ⟨a, as, rfl, ?_⟩
        rintro rfl
        have brace : opening ('\x7d' :: as) = .bare := by simp [opening, isDelimiter]
        rw [letters, brace] at openings
        exact bare openings.symm

/-! ### Unique readability -/

/-- A literal determines its constant and where it ends in a longer text. -/
def Determined (c : Constant) : Prop :=
  c.Scannable → ∀ (d : Constant) (t u : String) (rest others : List Char), d.Scannable →
    constant c = .ok t → constant d = .ok u → Ends rest → Ends others →
    t.toList ++ rest = u.toList ++ others → c.Agrees d ∧ rest = others

theorem determined_of_ne_array {c : Constant} (leaf : openingOf c ≠ .array) : Determined c := by
  intro scannable d t u rest others known made written ends stops same
  have openings : openingOf c = openingOf d := by
    rw [← opening_append scannable made ends, same, opening_append known written stops]
  by_cases bare : openingOf c = .bare
  · obtain ⟨s, meaning, legal, rfl⟩ := exists_said scannable bare made
    obtain ⟨other, otherMeaning, otherLegal, rfl⟩ :=
      exists_said known (openings.symm.trans bare) written
    obtain ⟨texts, rests⟩ := append_inj_of_stops (Said.isDelimiter_eq_false legal)
      (Said.isDelimiter_eq_false otherLegal) ends stops same
    obtain rfl := Said.text_injective legal otherLegal (String.toList_inj.mp texts)
    exact ⟨agrees_of_said meaning otherMeaning, rests⟩
  · cases c with
    | null | bool _ | integer _ | single _ | double _ | decimal _ => exact absurd rfl bare
    | enumMember _ _ | typeOf _ => exact absurd rfl bare
    | array _ _ => exact absurd rfl leaf
    | char a => cases d with
      | char b =>
          rw [eq_quoted_of_char made, eq_quoted_of_char written] at same
          obtain ⟨texts, rests⟩ := quoted_append_inj (.inr rfl) same
          cases texts
          exact ⟨.refl _, rests⟩
      | _ => cases openings
    | string a => cases d with
      | string b =>
          cases made
          cases written
          obtain ⟨texts, rests⟩ := quoted_append_inj (.inl rfl) same
          rw [String.toList_inj.mp texts]
          exact ⟨.refl _, rests⟩
      | _ => cases openings

theorem exists_of_constants_cons {c : Constant} {cs : List Constant} {ts : List String}
    (made : constants (c :: cs) = .ok ts) :
    ∃ u us, constant c = .ok u ∧ constants cs = .ok us ∧ ts = u :: us := by
  obtain ⟨u, head, made⟩ := bind_eq_ok_iff.mp made
  obtain ⟨us, tail, made⟩ := bind_eq_ok_iff.mp made
  exact ⟨u, us, head, tail, (Except.ok.inj made).symm⟩

theorem ends_elementChars (ts : List String) (rest : List Char) :
    Ends (elementChars ts ++ rest) := by
  cases ts <;>
    · rintro c ⟨⟩
      rfl

/-- **The elements of an array end where the array does.** -/
theorem elements_agree {cs : List Constant} (all : ∀ c ∈ cs, Determined c)
    (scannable : AllScannable cs) {ds : List Constant} (known : AllScannable ds)
    {ts us : List String} (made : constants cs = .ok ts) (written : constants ds = .ok us)
    {rest others : List Char} (same : elementChars ts ++ rest = elementChars us ++ others) :
    List.Forall₂ Agrees cs ds ∧ rest = others := by
  induction cs generalizing ds ts us with
  | nil =>
      cases made
      cases ds with
      | nil =>
          cases written
          exact ⟨.nil, List.append_cancel_left same⟩
      | cons d ds =>
          obtain ⟨u, us, _, _, rfl⟩ := exists_of_constants_cons written
          cases same
  | cons c cs ih =>
      obtain ⟨t, ts, head, tail, rfl⟩ := exists_of_constants_cons made
      cases ds with
      | nil =>
          cases written
          cases same
      | cons d ds =>
          obtain ⟨u, us, first, behind, rfl⟩ := exists_of_constants_cons written
          simp only [elementChars, List.cons_append, List.append_assoc, List.cons.injEq,
            true_and] at same
          obtain ⟨agrees, same⟩ := all c List.mem_cons_self scannable.1 d t u _ _ known.1 head
            first (ends_elementChars ts rest) (ends_elementChars us others) same
          obtain ⟨agree, rests⟩ := ih (fun c member => all c (List.mem_cons_of_mem _ member))
            scannable.2 known.2 tail behind same
          exact ⟨.cons agrees agree, rests⟩

/-- The same for what stands behind the brace of an array, where no comma comes first. -/
theorem body_agrees {cs : List Constant} (all : ∀ c ∈ cs, Determined c)
    (scannable : AllScannable cs) {ds : List Constant} (known : AllScannable ds)
    {ts us : List String} (made : constants cs = .ok ts) (written : constants ds = .ok us)
    {rest others : List Char} (same : bodyChars ts ++ rest = bodyChars us ++ others) :
    List.Forall₂ Agrees cs ds ∧ rest = others := by
  have noEnd {c : Constant} {t : String} (scannable : c.Scannable) (made : constant c = .ok t)
      (as bs : List Char) : t.toList ++ as ≠ '\x7d' :: bs := by
    obtain ⟨a, letters, first, noEnd⟩ := exists_constant_eq_cons scannable made
    rw [first]
    intro same
    exact noEnd (List.cons.inj same).1
  cases cs with
  | nil =>
      cases made
      cases ds with
      | nil =>
          cases written
          exact ⟨.nil, List.append_cancel_left same⟩
      | cons d ds =>
          obtain ⟨u, us, first, _, rfl⟩ := exists_of_constants_cons written
          rw [bodyChars, bodyChars, List.append_assoc] at same
          exact absurd same.symm (noEnd known.1 first _ _)
  | cons c cs =>
      obtain ⟨t, ts, head, tail, rfl⟩ := exists_of_constants_cons made
      cases ds with
      | nil =>
          cases written
          rw [bodyChars, bodyChars, List.append_assoc] at same
          exact absurd same (noEnd scannable.1 head _ _)
      | cons d ds =>
          obtain ⟨u, us, first, behind, rfl⟩ := exists_of_constants_cons written
          rw [bodyChars, bodyChars, List.append_assoc, List.append_assoc] at same
          obtain ⟨agrees, same⟩ := all c List.mem_cons_self scannable.1 d t u _ _ known.1 head
            first (ends_elementChars ts rest) (ends_elementChars us others) same
          obtain ⟨agree, rests⟩ := elements_agree
            (fun c member => all c (List.mem_cons_of_mem _ member)) scannable.2 known.2 tail behind
            same
          exact ⟨.cons agrees agree, rests⟩

/-- **An array is determined if its elements are.** Its name ends at the brace. -/
theorem determined_array (s : TypeRef) {cs : List Constant} (all : ∀ c ∈ cs, Determined c) :
    Determined (.array s cs) := by
  intro scannable d t u rest others known made written ends stops same
  have openings : Opening.array = openingOf d := by
    rw [← opening_append known written stops, ← same, opening_append scannable made ends]
    rfl
  cases d with
  | array r ds =>
      obtain ⟨ts, texts, rfl⟩ : ∃ ts, constants cs = .ok ts ∧ array s ts = t := by
        simpa [constant, bind_eq_ok_iff] using made
      obtain ⟨us, otherTexts, rfl⟩ : ∃ us, constants ds = .ok us ∧ array r us = u := by
        simpa [constant, bind_eq_ok_iff] using written
      have noBrace {type : TypeRef} (plain : '\x7b' ∉ type.name.toList) :
          ∀ c ∈ type.name.toList ++ "[] ".toList, decide (c = '\x7b') = false := by
        intro c member
        rw [List.mem_append] at member
        rcases member with member | member
        · refine decide_eq_false ?_
          rintro rfl
          exact plain member
        · have all : ∀ c ∈ "[] ".toList, decide (c = '\x7b') = false := by simp
          exact all c member
      have brace (cs : List Char) : ∀ c ∈ ('\x7b' :: cs).head?, decide (c = '\x7b') = true := by
        rintro c ⟨⟩
        rfl
      rw [toList_array_append, toList_array_append] at same
      obtain ⟨names, bodies⟩ := append_inj_of_stops (noBrace scannable.1) (noBrace known.1)
        (brace _) (brace _) (List.append_cancel_left same)
      simp only [List.cons.injEq, true_and] at bodies
      obtain ⟨elements, rests⟩ := body_agrees all scannable.2 known.2 texts otherTexts bodies
      exact ⟨.array (String.toList_inj.mp (List.append_cancel_right names)) elements, rests⟩
  | _ => cases openings

mutual

/-- **A literal determines its constant and where it ends.** -/
theorem determined : (c : Constant) → Determined c
  | .array s cs => determined_array s (determined_of_mem cs)
  | .null | .bool _ | .char _ | .string _ | .integer _ | .single _ | .double _ | .decimal _
  | .enumMember _ _ | .typeOf _ => determined_of_ne_array nofun

theorem determined_of_mem : (cs : List Constant) → ∀ c ∈ cs, Determined c
  | [] => nofun
  | c :: cs => List.forall_mem_cons.mpr ⟨determined c, determined_of_mem cs⟩

end

/--
**The text of a literal determines the constant.** Two constants without enum values and types, and
without a brace in the name of an element type, have the same literal only if they agree.
-/
theorem constant_agrees {c d : Constant} (scannable : c.Scannable) (known : d.Scannable)
    {t : String} (made : constant c = .ok t) (written : constant d = .ok t) : c.Agrees d := by
  obtain ⟨agrees, _⟩ :=
    determined c scannable d t t [] [] known made written ends_nil ends_nil rfl
  exact agrees

/-- Two arrays that differ in the code of not-a-number and in what is known of the element type. -/
theorem constant_agrees_objects :
    let c : Constant := .array (.reference "object")
      [.single (.ofBits .single 0x7fc00000), .string ", \x7d\x22", .array (.value "int") []]
    let d : Constant := .array (.value "object")
      [.single (.ofBits .single 0xffc00001), .string ", \x7d\x22", .array (.value "int") []]
    let text := "new object[] \x7b float.NaN, \x22, \x7d\\\x22\x22, new int[] \x7b \x7d \x7d"
    (c.Scannable ∧ d.Scannable ∧ constant c = .ok text ∧ constant d = .ok text) ∧ c.Agrees d := by
  intro c d text
  have scannable : c.Scannable ∧ d.Scannable := by
    simp [c, d, Scannable, AllScannable, TypeRef.reference, TypeRef.value]
  have made : constant c = .ok text := rfl
  have written : constant d = .ok text := rfl
  exact ⟨⟨scannable.1, scannable.2, made, written⟩,
    constant_agrees scannable.1 scannable.2 made written⟩

end Literal

end SignatureText
