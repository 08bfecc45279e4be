/-
**Decimals are read as they are spelled.**

A decimal may be spelled with superfluous zeros, with no digit on one side of the point, and with
underscores anywhere behind the first digit (`Decimal.Spelled`). As long as its digits fit, none of
the rules for digits that do not fit ever applies:

* `Progress.Reached` — what has been read of a text is its digits as a mantissa and the digits
  behind the point as a scale, and nothing is dropped as long as there is place.
* `Progress.Reached.next` — one more character that fits keeps it so.
* `Progress.reached` — **so does a whole text**, by induction on what was read, since all that a
  text has to be is inherited by its beginnings.
* `Decimal.read_spelled` — **the text is read without rounding**, whatever stands in front of it as
  a sign.
-/

import Mathlib.Data.List.TakeWhile
import SignatureText.Proofs.Number.Digits
import SignatureText.Proofs.Number.Decimal

namespace SignatureText.Decimal

/-! ### Spellings -/

/-- The digits of a text. -/
def digitsOf (text : List Char) : List Char :=
  text.filter Char.isDigit

/-- The digits before the point. -/
def wholeOf (text : List Char) : List Char :=
  digitsOf (text.takeWhile (· ≠ '.'))

/-- The digits behind the point. -/
def placesOf (text : List Char) : List Char :=
  digitsOf (text.dropWhile (· ≠ '.'))

/-- Digits with at most one point, and underscores behind the first digit. -/
structure Spelled (text : List Char) : Prop where
  legal : ∀ c ∈ text, c.isDigit = true ∨ c = '_' ∨ c = '.'
  onePoint : text.count '.' ≤ 1
  inside : '_' ∉ text.takeWhile (!·.isDigit)

/-- A spelling with digits that fit. -/
structure Fits (text : List Char) : Prop extends Spelled text where
  small : Nat.ofDigitChars 10 (digitsOf text) 0 ≤ greatest
  short : (placesOf text).length ≤ mostPlaces

theorem isDigit_of_mem_digitsOf {text : List Char} : ∀ c ∈ digitsOf text, c.isDigit = true :=
  fun _ member => (List.mem_filter.mp member).2

theorem digitsOf_append (text rest : List Char) :
    digitsOf (text ++ rest) = digitsOf text ++ digitsOf rest :=
  List.filter_append _ _

/-- All digits stand on one side of the point. -/
theorem wholeOf_append_placesOf (text : List Char) :
    wholeOf text ++ placesOf text = digitsOf text := by
  rw [wholeOf, placesOf, ← digitsOf_append, List.takeWhile_append_dropWhile]

theorem dropWhile_eq_nil {text : List Char} (whole : '.' ∉ text) :
    text.dropWhile (· ≠ '.') = [] := by
  rw [List.dropWhile_eq_nil_iff]
  rintro c member
  simpa using ne_of_mem_of_not_mem member whole

theorem placesOf_eq_nil {text : List Char} (whole : '.' ∉ text) : placesOf text = [] := by
  rw [placesOf, dropWhile_eq_nil whole]
  rfl

/-- Behind the point one more digit is one more place. -/
theorem placesOf_concat {text : List Char} (pointed : '.' ∈ text) (c : Char) :
    placesOf (text ++ [c]) = placesOf text ++ digitsOf [c] := by
  have stays : text.dropWhile (· ≠ '.') ≠ [] := by
    rw [ne_eq, List.dropWhile_eq_nil_iff]
    intro all
    simpa using all '.' pointed
  rw [placesOf, List.dropWhile_append, if_neg (by simpa using stays), digitsOf_append, placesOf]

/-- Before the point it is none. -/
theorem placesOf_concat_of_notMem {text : List Char} (whole : '.' ∉ text) (c : Char) :
    placesOf (text ++ [c]) = [] := by
  by_cases point : c = '.'
  · rw [placesOf, List.dropWhile_append, dropWhile_eq_nil whole, point]
    rfl
  · exact placesOf_eq_nil (by simp [whole, Ne.symm point])

/-- A beginning of what fits fits. -/
theorem Fits.of_concat {text : List Char} {c : Char} (fits : Fits (text ++ [c])) : Fits text where
  legal d member := fits.legal d (List.mem_append_left _ member)
  onePoint := by
    have all := fits.onePoint
    rw [List.count_append] at all
    omega
  inside early := by
    refine fits.inside ?_
    rw [List.takeWhile_append]
    split
    · exact List.mem_append_left _ ((List.takeWhile_sublist _).mem early)
    · exact early
  small := by
    have all := fits.small
    rw [digitsOf_append, Nat.ofDigitChars_append] at all
    exact (Text.le_ofDigitChars _ _).trans all
  short := by
    by_cases pointed : '.' ∈ text
    · have all := fits.short
      rw [placesOf_concat pointed, List.length_append] at all
      omega
    · rw [placesOf_eq_nil pointed]
      exact Nat.zero_le _

namespace Progress

/-- What has been read of a text is its digits, and none was dropped where there is place. -/
structure Reached (text : List Char) (p : Progress) : Prop where
  mantissa : p.mantissa = Nat.ofDigitChars 10 (digitsOf text) 0
  scale : p.scale = (placesOf text).length
  started : p.started = true ↔ ∃ c ∈ text, c.isDigit = true
  pointed : p.pointed = true ↔ '.' ∈ text
  full : p.full = true → p.pointed = true ∧ p.scale = mostPlaces

variable {text : List Char} {p : Progress}

theorem reached_start : Reached [] start := by
  constructor <;> simp [start, digitsOf, placesOf]

/-- Before the point the scale stays. -/
theorem Reached.scale_of_notMem (reached : Reached text p) (whole : '.' ∉ text) (c : Char) :
    p.scale = (placesOf (text ++ [c])).length := by
  rw [placesOf_concat_of_notMem whole, reached.scale, placesOf_eq_nil whole]

/-- A digit that fits is taken. -/
theorem Reached.digit {c : Char} (reached : Reached text p) (fits : Fits (text ++ [c]))
    (digit : c.isDigit = true) : ∃ p', p.next c = some p' ∧ Reached (text ++ [c]) p' := by
  obtain ⟨mantissa, scale, started, pointed, full⟩ := p
  have single : digitsOf [c] = [c] := List.filter_cons_of_pos digit
  have taken : Nat.ofDigitChars 10 (digitsOf (text ++ [c])) 0 =
      10 * mantissa + (c.toNat - '0'.toNat) := by
    rw [digitsOf_append, single, Text.ofDigitChars_concat, ← reached.mantissa]
  have small : 10 * mantissa + (c.toNat - '0'.toNat) ≤ greatest := by
    rw [← taken]
    exact fits.small
  have longer : pointed = true → (placesOf (text ++ [c])).length = scale + 1 := fun point => by
    rw [placesOf_concat (reached.pointed.mp point), single, List.length_append, ← reached.scale]
    rfl
  have places : pointed = true → scale < mostPlaces := fun point => by
    have := fits.short
    rw [longer point] at this
    omega
  have notFull : full = false := by
    rw [Bool.eq_false_iff]
    intro isFull
    obtain ⟨point, last⟩ := reached.full isFull
    exact absurd last (places point).ne
  subst notFull
  refine ⟨_, next_of_isDigit digit small places, ?_⟩
  constructor
  · exact taken.symm
  · cases pointed with
    | true => exact (longer rfl).symm
    | false =>
        have whole : '.' ∉ text := fun point => by cases reached.pointed.mpr point
        exact reached.scale_of_notMem whole c
  · simp [digit]
  · have noPoint : '.' ≠ c := by
      rintro rfl
      cases digit
    simpa [noPoint] using reached.pointed
  · simp

/-- An underscore behind a digit is passed over. -/
theorem Reached.underscore (reached : Reached text p) (fits : Fits (text ++ ['_'])) :
    ∃ p', p.next '_' = some p' ∧ Reached (text ++ ['_']) p' := by
  have started : ∃ c ∈ text, c.isDigit = true := by
    by_contra none
    refine fits.inside ?_
    rw [List.takeWhile_append_of_pos fun c member => ?_]
    · simp
    · simpa using fun digit => none ⟨c, member, digit⟩
  have noDigit : digitsOf ['_'] = [] := rfl
  refine ⟨{ p with full := p.full || p.isNarrowEnd }, ?_, ?_⟩
  · show p.underscore = _
    rw [Progress.underscore, if_pos (reached.started.mpr started)]
  · constructor
    · rw [digitsOf_append, noDigit, List.append_nil]
      exact reached.mantissa
    · by_cases point : '.' ∈ text
      · rw [placesOf_concat point, noDigit, List.append_nil]
        exact reached.scale
      · exact reached.scale_of_notMem point _
    · simpa using reached.started
    · simpa using reached.pointed
    · intro full
      rcases Bool.or_eq_true_iff.mp full with full | narrow
      · exact reached.full full
      · simp only [isNarrowEnd, Bool.and_eq_true, decide_eq_true_eq] at narrow
        exact narrow.1

/-- The point is taken where none was read. -/
theorem Reached.point (reached : Reached text p) (fits : Fits (text ++ ['.'])) :
    ∃ p', p.next '.' = some p' ∧ Reached (text ++ ['.']) p' := by
  have whole : '.' ∉ text := by
    have := fits.onePoint
    rw [List.count_append] at this
    rw [← List.count_eq_zero]
    simpa using this
  have notPointed : p.pointed = false := by
    rw [Bool.eq_false_iff]
    exact fun point => whole (reached.pointed.mp point)
  refine ⟨{ p with pointed := true }, ?_, ?_⟩
  · show (if p.pointed then none else some { p with pointed := true }) = _
    rw [notPointed]
    rfl
  · constructor
    · rw [digitsOf_append]
      exact reached.mantissa.trans (by simp [digitsOf])
    · exact reached.scale_of_notMem whole _
    · simpa using reached.started
    · simp
    · intro full
      exact ⟨rfl, (reached.full full).2⟩

/-- **One more character that fits is taken.** -/
theorem Reached.next {c : Char} (reached : Reached text p) (fits : Fits (text ++ [c])) :
    ∃ p', p.next c = some p' ∧ Reached (text ++ [c]) p' := by
  rcases fits.legal c (by simp) with digit | rfl | rfl
  · exact reached.digit fits digit
  · exact reached.underscore fits
  · exact reached.point fits

/-- **A whole text that fits is taken.** -/
theorem reached (fits : Fits text) :
    ∃ p, text.foldlM Progress.next start = some p ∧ Reached text p := by
  -- From the end, since a beginning of what fits fits and the rest of it need not.
  induction text using List.reverseRecOn with
  | nil => exact ⟨start, rfl, reached_start⟩
  | append_singleton text c ih =>
      obtain ⟨p, before, reached⟩ := ih fits.of_concat
      obtain ⟨p', step, reached'⟩ := reached.next fits
      refine ⟨p', ?_, reached'⟩
      rw [List.foldlM_append, before]
      simp [step]

end Progress

/-! ### Whole texts -/

/-- A sign that may stand in front of a number. -/
def IsSign (sign : List Char) : Prop :=
  sign = [] ∨ sign = ['+'] ∨ sign = ['-']

theorem splitSign_spelled {sign text : List Char} (legal : IsSign sign) (spelled : Spelled text) :
    splitSign (sign ++ text) = (decide (sign = ['-']), text) := by
  rcases legal with rfl | rfl | rfl
  · cases text with
    | nil => rfl
    | cons c cs =>
        have noSign : c ≠ '-' ∧ c ≠ '+' := by
          constructor <;>
            · rintro rfl
              have := spelled.legal _ List.mem_cons_self
              revert this
              decide
        show splitSign (c :: cs) = (false, c :: cs)
        unfold splitSign
        split <;> simp_all
  · rfl
  · rfl

/-- **A text that fits is read without rounding**: its digits are the mantissa, those behind the
point the scale, and the minus sign stays unless all digits are zero. -/
theorem read_spelled {sign text : List Char} (legal : IsSign sign) (fits : Fits text)
    (started : ∃ c ∈ text, c.isDigit = true) :
    ∃ d, read (String.ofList (sign ++ text)) = some d ∧
      d.negative = (decide (sign = ['-']) && decide (d.mantissa ≠ 0)) ∧
      d.mantissa = Nat.ofDigitChars 10 (digitsOf text) 0 ∧ d.scale = (placesOf text).length := by
  obtain ⟨p, taken, reached⟩ := Progress.reached fits
  have small : p.mantissa < 2 ^ (96 : Nat) := by
    have := fits.small
    rw [← reached.mantissa, greatest] at this
    omega
  have short : p.scale ≤ 28 := by
    rw [reached.scale]
    exact fits.short
  refine ⟨⟨decide (sign = ['-']) && decide (p.mantissa ≠ 0), p.mantissa, p.scale, small, short⟩,
    ?_, rfl, reached.mantissa, reached.scale⟩
  have plain : readPlain (sign ++ text) = some ⟨decide (sign = ['-']) && decide (p.mantissa ≠ 0),
      p.mantissa, p.scale, small, short⟩ := by
    rw [readPlain, splitSign_spelled legal fits.toSpelled]
    simp only [taken, Option.bind_eq_bind, Option.bind_some, reached.started.mpr started, if_true]
    exact dif_pos ⟨small, short⟩
  rw [read, String.toList_ofList, plain]
  rfl

end SignatureText.Decimal
