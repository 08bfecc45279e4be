/-
**Literals without quotes.**

A literal without quotes is a word, a number with a suffix, or a number with a cast before it
(`Said`); `said` is what the literal of a constant says.

* `Said.text_injective` — **the text of a literal without quotes determines what it says.** Numbers
  are read back with what follows them, words do not begin as a number does, and a cast ends at its
  first closing parenthesis.
* `Said.isDelimiter_eq_false` — the text holds neither comma nor blank, so a list of literals can be
  taken apart again.
* `legal_of_said` — the words and the suffixes are a few known ones.
-/

import SignatureText.Literal
import SignatureText.Proofs.Number.Shortest
import SignatureText.Proofs.Number.Numeral

namespace SignatureText

theorem Binary.isFinite_eq {f : Format} (x : Binary f) :
    x.isFinite = (!x.isNaN && !x.isInfinite) := by
  rw [Bool.eq_iff_iff]
  simp only [isFinite, isNaN, isInfinite, Bool.and_eq_true, Bool.not_eq_true', decide_eq_true_eq,
    decide_eq_false_iff_not]
  omega

namespace Literal

/-- What a literal without quotes says. -/
inductive Said where
  | word (text : String)
  | number (n : Numeral) (suffix : String)
  | cast (keyword : String) (n : Numeral)
deriving DecidableEq

/-- A number behind a cast, in parentheses if it is negative. -/
def operand (n : Numeral) : String :=
  if n.negative then "(" ++ n.text exponentStyle ++ ")" else n.text exponentStyle

namespace Said

/-- The text of the literal. -/
def text : Said → String
  | word text => text
  | number n suffix => n.text exponentStyle ++ suffix
  | cast keyword n => "(" ++ keyword ++ ")" ++ operand n

/-- All words. -/
def words : List String :=
  ["null", "true", "false", "float.NaN", "float.PositiveInfinity", "float.NegativeInfinity",
    "double.NaN", "double.PositiveInfinity", "double.NegativeInfinity"]

/-- All suffixes. -/
def suffixes : List String :=
  ["", "U", "L", "UL", "F", "D", "M"]

/-- All types that a number is cast to. -/
def casts : List String :=
  ["sbyte", "byte", "short", "ushort"]

/-- Only known words, suffixes and casts are used. -/
def Legal : Said → Prop
  | word text => text ∈ words
  | number _ suffix => suffix ∈ suffixes
  | cast keyword _ => keyword ∈ casts

end Said

/-- How a floating-point number that is not finite is called. -/
def specialName {f : Format} (x : Binary f) : String :=
  if x.isNaN then ".NaN" else if x.negative then ".NegativeInfinity" else ".PositiveInfinity"

/-- What the literal of a floating-point number says. -/
def saidReal {f : Format} (keyword suffix : String) (x : Binary f) : Said :=
  if x.isFinite then .number (realLayout.numeral x) suffix else .word (keyword ++ specialName x)

/-- What the literal of an integral value says. -/
def saidInteger (n : Integral) : Said :=
  if n.type.width < 32 then .cast n.type.keyword (.ofInt n.value)
  else .number (.ofInt n.value) (suffix n.type)

/-- What the literal of a constant says, if it has no quotes and is no other form. -/
def said : Constant → Option Said
  | .null => some (.word "null")
  | .bool b => some (.word (bool b))
  | .integer n => some (saidInteger n)
  | .single x => some (saidReal "float" "F" x)
  | .double x => some (saidReal "double" "D" x)
  | .decimal d => some (.number ⟨d.negative, d.mantissa, d.scale, none⟩ "M")
  | .char _ | .string _ | .enumMember _ _ | .typeOf _ | .array _ _ => none

/-! ### The literals say it -/

theorem text_saidReal {f : Format} (keyword suffix : String) (x : Binary f) :
    (saidReal keyword suffix x).text = real keyword suffix x := by
  unfold saidReal real specialName
  rw [x.isFinite_eq]
  cases x.isNaN <;> cases x.isInfinite <;> rfl

theorem text_ofInt (n : Int) : (Numeral.ofInt n).text exponentStyle = Text.integer n := by
  simp [Numeral.text, Numeral.ofInt, Numeral.exponentText, Text.integer, Text.pointed]

theorem text_saidInteger (n : Integral) : (saidInteger n).text = integer n := by
  unfold saidInteger integer digits
  by_cases narrow : n.type.width < 32
  · have none : suffix n.type = "" := by
      cases type : n.type <;> simp [type, IntegralType.width, suffix] at narrow ⊢
    rw [if_pos narrow, if_pos narrow, none, String.append_empty, Said.text]
    by_cases negative : n.value < 0
    · have joint : ")(" = ")" ++ "(" := rfl
      have sign : (Numeral.ofInt n.value).negative = true := decide_eq_true negative
      rw [operand, if_pos sign, if_pos negative, text_ofInt, joint]
      simp only [String.append_assoc]
    · have sign : ¬(Numeral.ofInt n.value).negative = true := by simp [Numeral.ofInt, negative]
      rw [operand, if_neg sign, if_neg negative, text_ofInt]
  · rw [if_neg narrow, if_neg narrow, Said.text, text_ofInt]

theorem constant_of_said {c : Constant} {s : Said} (meaning : said c = some s) :
    constant c = .ok s.text := by
  cases c with
  | null => cases meaning; rfl
  | bool b => cases meaning; rfl
  | integer n => cases meaning; rw [constant, text_saidInteger]
  | single x => cases meaning; rw [constant, text_saidReal]; rfl
  | double x => cases meaning; rw [constant, text_saidReal]; rfl
  | decimal d =>
      cases meaning
      rw [constant, decimal, Decimal.text, Said.text, Numeral.text, Numeral.exponentText,
        String.append_empty]
  | char _ | string _ | enumMember _ _ | typeOf _ | array _ _ => cases meaning

theorem legal_of_said {c : Constant} {s : Said} (meaning : said c = some s) : s.Legal := by
  have ofReal {f : Format} {keyword suffix : String} (x : Binary f)
      (known : keyword = "float" ∨ keyword = "double")
      (legal : suffix ∈ Said.suffixes) :
      (saidReal keyword suffix x).Legal := by
    unfold saidReal specialName
    split
    · exact legal
    · rcases known with rfl | rfl <;> cases x.isNaN <;> cases x.negative <;>
        simp [Said.Legal, Said.words]
  cases c with
  | null => cases meaning; simp [Said.Legal, Said.words]
  | bool b => cases meaning; cases b <;> simp [Said.Legal, Said.words, bool]
  | integer n =>
      cases meaning
      unfold saidInteger
      cases n.type <;> simp [IntegralType.width, Said.Legal, Said.suffixes, Said.casts,
        IntegralType.keyword, suffix]
  | single x => cases meaning; exact ofReal x (.inl rfl) (by simp [Said.suffixes])
  | double x => cases meaning; exact ofReal x (.inr rfl) (by simp [Said.suffixes])
  | decimal d => cases meaning; simp [Said.Legal, Said.suffixes]
  | char _ | string _ | enumMember _ _ | typeOf _ | array _ _ => cases meaning

/-! ### Cutting -/

/-- What goes on with a stop is cut there. -/
theorem takeWhile_append_of_stops {stops : Char → Bool} {xs us : List Char}
    (none : ∀ c ∈ xs, stops c = false) (stop : ∀ c ∈ us.head?, stops c = true) :
    (xs ++ us).takeWhile (!stops ·) = xs := by
  have ends : us.takeWhile (!stops ·) = [] := by
    cases us with
    | nil => rfl
    | cons c others => simp [stop c rfl]
  rw [List.takeWhile_append_of_pos fun c member => by simp [none c member], ends, List.append_nil]

/-- Two texts without a stop, each followed by one or by nothing, end at the same place. -/
theorem append_inj_of_stops {stops : Char → Bool} {xs ys us vs : List Char}
    (noneX : ∀ c ∈ xs, stops c = false) (noneY : ∀ c ∈ ys, stops c = false)
    (stopU : ∀ c ∈ us.head?, stops c = true) (stopV : ∀ c ∈ vs.head?, stops c = true)
    (same : xs ++ us = ys ++ vs) : xs = ys ∧ us = vs := by
  have first : xs = ys := by
    rw [← takeWhile_append_of_stops noneX stopU, same, takeWhile_append_of_stops noneY stopV]
  subst first
  exact ⟨rfl, List.append_cancel_left same⟩

/-- What stands between the literals of a list. -/
def isDelimiter (c : Char) : Bool :=
  c = ',' || c = ' '

theorem isDelimiter_of_isDigit {c : Char} (digit : c.isDigit = true) : isDelimiter c = false := by
  simp only [isDelimiter, Bool.or_eq_false_iff, decide_eq_false_iff_not]
  constructor <;>
    · rintro rfl
      cases digit

/-- **A numeral is made of digits, minus signs, a point and the mark of a power of ten.** -/
theorem isDigit_or_of_mem_numeral {n : Numeral} {c : Char}
    (member : c ∈ (n.text exponentStyle).toList) :
    c.isDigit = true ∨ c = '-' ∨ c = '.' ∨ c = 'E' := by
  obtain ⟨negative, mantissa, places, exponent⟩ := n
  rw [Numeral.text, String.toList_append, String.toList_append, List.mem_append,
    List.mem_append] at member
  rcases member with (sign | pointed) | power
  · cases negative with
    | false => simp at sign
    | true =>
        rw [Text.toList_sign, if_pos rfl, List.mem_singleton] at sign
        exact .inr (.inl sign)
  · by_cases whole : places = 0
    · subst whole
      rw [Text.toList_pointed_zero] at pointed
      exact .inl (Text.isDigit_of_mem_toDigits pointed)
    · rw [Text.toList_pointed_of_ne_zero whole, List.mem_append, List.mem_cons] at pointed
      rcases pointed with digit | point | digit
      · exact .inl (Text.isDigit_of_mem_toDigits digit)
      · exact .inr (.inr (.inl point))
      · exact .inl (Text.isDigit_of_mem_lastDigits digit)
  · cases exponent with
    | none => simp [Numeral.exponentText] at power
    | some e =>
        simp only [Numeral.exponentText, exponentStyle, String.toList_append, List.mem_append,
          Text.toList_natural] at power
        rcases power with (mark | sign) | digit
        · exact .inr (.inr (.inr (List.mem_singleton.mp mark)))
        · split at sign
          · exact .inr (.inl (List.mem_singleton.mp sign))
          · cases sign
        · exact .inl (Text.isDigit_of_mem_toDigits digit)

theorem isDelimiter_of_mem_numeral {n : Numeral} {c : Char}
    (member : c ∈ (n.text exponentStyle).toList) : isDelimiter c = false := by
  rcases isDigit_or_of_mem_numeral member with digit | rfl | rfl | rfl
  · exact isDelimiter_of_isDigit digit
  all_goals rfl

theorem isDelimiter_of_mem_operand {n : Numeral} {c : Char}
    (member : c ∈ (operand n).toList) : isDelimiter c = false := by
  unfold operand at member
  split at member
  · simp only [String.toList_append, List.mem_append] at member
    rcases member with (member | member) | member
    · cases List.mem_singleton.mp member
      rfl
    · exact isDelimiter_of_mem_numeral member
    · cases List.mem_singleton.mp member
      rfl
  · exact isDelimiter_of_mem_numeral member

namespace Said

/-- **A literal without quotes holds neither comma nor blank.** -/
theorem isDelimiter_eq_false {s : Said} (legal : s.Legal) :
    ∀ c ∈ s.text.toList, isDelimiter c = false := by
  cases s with
  | word w =>
      have all : ∀ w ∈ words, ∀ c ∈ w.toList, isDelimiter c = false := by
        simp [words, isDelimiter]
      exact all w legal
  | number n suffix =>
      have all : ∀ suffix ∈ suffixes, ∀ c ∈ suffix.toList, isDelimiter c = false := by
        simp [suffixes, isDelimiter]
      intro c member
      rw [text, String.toList_append, List.mem_append] at member
      rcases member with member | member
      · exact isDelimiter_of_mem_numeral member
      · exact all suffix legal c member
  | cast keyword n =>
      have all : ∀ keyword ∈ casts, ∀ c ∈ keyword.toList, isDelimiter c = false := by
        simp [casts, isDelimiter]
      intro c member
      simp only [text, String.toList_append, List.mem_append] at member
      rcases member with ((member | member) | member) | member
      · cases List.mem_singleton.mp member
        rfl
      · exact all keyword legal c member
      · cases List.mem_singleton.mp member
        rfl
      · exact isDelimiter_of_mem_operand member

/-! ### Reading back -/

theorem number?_word {w : String} (legal : (word w).Legal) :
    Json.number? (word w).text.toList = none := by
  have all : ∀ w ∈ words, Json.number? w.toList = none := by decide
  exact all w legal

theorem toList_cast (keyword : String) (n : Numeral) :
    (cast keyword n).text.toList = '(' :: (keyword.toList ++ ')' :: (operand n).toList) := by
  simp only [text, String.toList_append, List.append_assoc]
  rfl

theorem number?_cast (keyword : String) (n : Numeral) :
    Json.number? (cast keyword n).text.toList = none := by
  rw [toList_cast]
  exact Json.number?_of_ne (by decide) rfl _

theorem number?_number {n : Numeral} {suffix : String} (legal : (number n suffix).Legal) :
    Json.number? (number n suffix).text.toList = some (n, suffix.toList) := by
  have ends : Json.EndsNumber suffix.toList := by
    have all : ∀ suffix ∈ suffixes, ∀ c ∈ suffix.toList.head?,
        c.isDigit = false ∧ c ≠ '.' ∧ c ≠ 'e' ∧ c ≠ 'E' := by simp [suffixes]
    exact all suffix legal
  rw [text, String.toList_append]
  exact Json.number?_text (.inr rfl) n ends

/-- A literal without quotes begins as neither a quoted literal nor the end of an array does. -/
theorem exists_text_eq_cons {s : Said} (legal : s.Legal) :
    ∃ c cs, s.text.toList = c :: cs ∧ c ≠ '\x22' ∧ c ≠ '\x27' ∧ c ≠ '\x7d' := by
  cases s with
  | word w =>
      have all : ∀ w ∈ words, w.toList ≠ [] ∧
          ∀ c ∈ w.toList.head?, c ≠ '\x22' ∧ c ≠ '\x27' ∧ c ≠ '\x7d' := by simp [words]
      obtain ⟨some, first⟩ := all w legal
      rw [text]
      cases letters : w.toList with
      | nil => exact absurd letters some
      | cons c cs => exact ⟨c, cs, rfl, first c (by rw [letters]; rfl)⟩
  | number n suffix =>
      obtain ⟨c, cs, digits, first⟩ := n.exists_text_eq_cons exponentStyle
      refine ⟨c, cs ++ suffix.toList, by rw [text, String.toList_append, digits]; rfl, ?_⟩
      refine ⟨?_, ?_, ?_⟩ <;>
        · rintro rfl
          revert first
          decide
  | cast keyword n => exact ⟨'(', _, toList_cast keyword n, by decide⟩

/-- The word that array creations begin with is no literal. -/
theorem text_ne_new {s : Said} (legal : s.Legal) : s.text.toList ≠ "new".toList := by
  intro same
  have read : Json.number? s.text.toList = none := by
    rw [same]
    decide
  cases s with
  | word w =>
      have all : ∀ w ∈ words, w.toList ≠ "new".toList := by decide
      exact all w legal same
  | number n suffix =>
      rw [number?_number legal] at read
      cases read
  | cast keyword n =>
      rw [toList_cast] at same
      cases same

end Said

/-- Parentheses are no part of a number, so what stands behind a cast determines the number. -/
theorem operand_injective {m n : Numeral} (same : operand m = operand n) : m = n := by
  have read (n : Numeral) {rest : List Char} (ends : Json.EndsNumber rest) :
      Json.number? ((n.text exponentStyle).toList ++ rest) = some (n, rest) :=
    Json.number?_text (.inr rfl) n ends
  have bare {n : Numeral} (positive : ¬n.negative = true) :
      (operand n).toList = (n.text exponentStyle).toList ++ [] := by
    rw [operand, if_neg positive, List.append_nil]
  have wrapped {n : Numeral} (negative : n.negative = true) :
      (operand n).toList = '(' :: ((n.text exponentStyle).toList ++ [')']) := by
    rw [operand, if_pos negative, String.toList_append, String.toList_append]
    rfl
  have open_ (cs : List Char) : Json.number? ('(' :: cs) = none :=
    Json.number?_of_ne (by decide) rfl cs
  have noRest : Json.EndsNumber [] := by rintro c ⟨⟩
  have close : Json.EndsNumber [')'] := by
    rintro c ⟨⟩
    decide
  have lists := congrArg String.toList same
  by_cases left : m.negative = true
  · by_cases right : n.negative = true
    · rw [wrapped left, wrapped right, List.cons.injEq] at lists
      have found := congrArg Json.number? lists.2
      rw [read m close, read n close] at found
      simpa using found
    · have found := congrArg Json.number? lists
      rw [wrapped left, bare right, open_, read n noRest] at found
      cases found
  · by_cases right : n.negative = true
    · have found := congrArg Json.number? lists
      rw [bare left, wrapped right, open_, read m noRest] at found
      cases found
    · have found := congrArg Json.number? lists
      rw [bare left, bare right, read m noRest, read n noRest] at found
      simpa using found

/-- **The text of a literal without quotes determines what it says.** -/
theorem Said.text_injective {s t : Said} (legal : s.Legal) (known : t.Legal)
    (same : s.text = t.text) : s = t := by
  have read : Json.number? s.text.toList = Json.number? t.text.toList := by rw [same]
  have noCast {w keyword : String} {n : Numeral} (legal : (word w).Legal) :
      (word w).text ≠ (cast keyword n).text := by
    have all : ∀ w ∈ words, w.toList.head? ≠ some '(' := by decide
    intro same
    refine all w legal ?_
    rw [show w = (cast keyword n).text from same, toList_cast]
    rfl
  cases s with
  | word v =>
      cases t with
      | word w => exact congrArg word same
      | number n suffix => rw [number?_word legal, number?_number known] at read; cases read
      | cast keyword n => exact absurd same (noCast legal)
  | number m suffix =>
      cases t with
      | word w => rw [number?_number legal, number?_word known] at read; cases read
      | number n ending =>
          rw [number?_number legal, number?_number known, Option.some.injEq, Prod.mk.injEq,
            String.toList_inj] at read
          rw [read.1, read.2]
      | cast keyword n => rw [number?_number legal, number?_cast] at read; cases read
  | cast keyword m =>
      cases t with
      | word w => exact absurd same.symm (noCast known)
      | number n suffix => rw [number?_cast, number?_number known] at read; cases read
      | cast other n =>
          have all : ∀ keyword ∈ casts, ∀ c ∈ keyword.toList, decide (c = ')') = false := by
            simp [casts]
          have close (cs : List Char) : ∀ c ∈ (')' :: cs).head?, decide (c = ')') = true := by
            rintro c ⟨⟩
            rfl
          have apart := congrArg String.toList same
          rw [toList_cast, toList_cast, List.cons.injEq] at apart
          obtain ⟨keywords, operands⟩ := append_inj_of_stops (all keyword legal) (all other known)
            (close _) (close _) apart.2
          rw [List.cons.injEq, String.toList_inj] at operands
          rw [String.toList_inj.mp keywords, operand_injective operands.2]

/-- So integers are written apart. -/
theorem text_integer_injective {m n : Int} (same : Text.integer m = Text.integer n) : m = n := by
  have legal (n : Int) : (Said.number (.ofInt n) "").Legal := List.mem_cons_self
  have text (n : Int) : (Said.number (.ofInt n) "").text = Text.integer n := by
    rw [Said.text, text_ofInt, String.append_empty]
  have numbers := Said.text_injective (legal m) (legal n) (by rw [text, text, same])
  exact Numeral.ofInt_injective (Said.number.inj numbers).1

end Literal

end SignatureText
