/-
**Integer literals keep their value and their type.**

An integer literal is read by the rules of the language: digits with a suffix are of the first type
that the suffix admits and that holds the number, a minus sign in front of them is applied to that,
but for the two numbers that fit with the sign only, and a cast has to hold what it is applied to.
No minus sign may follow a cast, unless in parentheses.

* `IntegerToken.value?_tokenOf` — digits with the suffix of a wide type are of that type, with a
  minus sign too.
* `signed?_digits`, `integer?_integer` — a literal is read as far as it goes, whatever follows it.
* `Exact` — everything a literal owes to its value.
* `integer_exact` — **the literals of all integral values are exact**, and so is the number that a
  cast to an enum type is applied to.
-/

import Mathlib.Data.List.Chain
import SignatureText.Proofs.Literal.Refused
import SignatureText.Proofs.Literal.Said
import SignatureText.Proofs.Number.Digits

namespace SignatureText.Literal

/-! ### The value of a literal -/

/-- A literal without a cast: digits, perhaps behind a minus sign, and the letters of a suffix. -/
structure IntegerToken where
  negative : Bool
  digits : List Char
  unsigned : Bool
  long : Bool
deriving DecidableEq, Repr

namespace IntegerToken

/-- The number that the digits are. -/
def magnitude (t : IntegerToken) : Nat :=
  Nat.ofDigitChars 10 t.digits 0

/-- The suffix. -/
def suffix (t : IntegerToken) : String :=
  (if t.unsigned then "U" else "") ++ if t.long then "L" else ""

/-- The types that a suffix admits: one letter rules out the signed types, the other those of 32
bits. -/
def admits (t : IntegerToken) (type : IntegralType) : Bool :=
  (!t.unsigned || !type.isSigned) && (!t.long || type.width = 64)

/-- The type of the digits with their suffix. -/
def plainType? (t : IntegerToken) : Option IntegralType :=
  [IntegralType.int, .uint, .long, .ulong].find? fun type =>
    t.admits type && type.Holds t.magnitude

/--
The type behind a minus sign. Two numbers are too large for their type without the sign, so the sign
belongs to them; otherwise it turns a number without a sign into one of the next type with a sign,
which the widest does not have.
-/
def negatedType? (t : IntegerToken) : Option IntegralType :=
  if t.magnitude = 2147483648 && !t.unsigned && !t.long then some .int
  else if t.magnitude = 9223372036854775808 && !t.unsigned then some .long
  else
    match t.plainType? with
    | some .int => some .int
    | some .uint | some .long => some .long
    | _ => none

/-- The value of the literal. -/
def value? (t : IntegerToken) : Option Integral :=
  if t.negative then do (Integral.ofInt (← t.negatedType?) (-t.magnitude)).toOption
  else do (Integral.ofInt (← t.plainType?) t.magnitude).toOption

end IntegerToken

/-- A literal, perhaps behind a cast. -/
structure IntegerConstant where
  cast : Option IntegralType
  token : IntegerToken
deriving DecidableEq, Repr

/-- The value of the constant; a cast has to hold what it is applied to. -/
def IntegerConstant.value? (c : IntegerConstant) : Option Integral :=
  match c.cast with
  | none => c.token.value?
  | some type => do ((← c.token.value?).convert type).toOption

/-! ### Scanning -/

/-- A character that a literal would go on with. -/
def goesOn (c : Char) : Bool :=
  c.isAlphanum || c = '_' || c = '.'

/-- The text does not go on with the literal before it. -/
def EndsToken (rest : List Char) : Prop :=
  ∀ c ∈ rest.head?, goesOn c = false

/-- The letters of the suffix that a text begins with, and the text behind it. -/
def takeSuffix : List Char → Bool × Bool × List Char
  | 'U' :: 'L' :: rest => (true, true, rest)
  | 'U' :: rest => (true, false, rest)
  | 'L' :: rest => (false, true, rest)
  | rest => (false, false, rest)

/-- Digits with a suffix, and the text behind them. -/
def token? (negative : Bool) (text : List Char) : Option (IntegerToken × List Char) := do
  let (digits, rest) ← Json.digits? text
  let (unsigned, long, rest) := takeSuffix rest
  if rest.head?.any goesOn then none else some (⟨negative, digits, unsigned, long⟩, rest)

/-- Digits with a suffix, perhaps behind a minus sign. -/
def signed? : List Char → Option (IntegerToken × List Char)
  | '-' :: rest => token? true rest
  | rest => token? false rest

/-- What a cast is applied to: a literal in parentheses, or one without a minus sign. -/
def operand? : List Char → Option (IntegerToken × List Char)
  | '(' :: rest =>
    match signed? rest with
    | some (token, ')' :: rest) => some (token, rest)
    | _ => none
  | rest => token? false rest

/-- The cast to an integral type that a text begins with, and the text behind it. -/
def cast? : List Char → Option (IntegralType × List Char)
  | '(' :: rest => do
    let word := rest.takeWhile (· ≠ ')')
    let type ← IntegralType.all.find? (·.keyword.toList = word)
    return (type, rest.drop (word.length + 1))
  | _ => none

/-- The integer constant that a text begins with, and the text behind it. -/
def integer? (text : List Char) : Option (IntegerConstant × List Char) :=
  match cast? text with
  | some (type, rest) => (operand? rest).map fun p => (⟨some type, p.1⟩, p.2)
  | none => (signed? text).map fun p => (⟨none, p.1⟩, p.2)

/-! ### Wide types -/

theorem holds_int_iff {n : Int} :
    IntegralType.int.Holds n ↔ -2147483648 ≤ n ∧ n ≤ 2147483647 := by
  simp [IntegralType.Holds, IntegralType.least, IntegralType.greatest, IntegralType.width,
    IntegralType.isSigned]

theorem holds_long_iff {n : Int} :
    IntegralType.long.Holds n ↔ -9223372036854775808 ≤ n ∧ n ≤ 9223372036854775807 := by
  simp [IntegralType.Holds, IntegralType.least, IntegralType.greatest, IntegralType.width,
    IntegralType.isSigned]

/-- The type of a literal without a cast: the type itself, or `int` if it has no literals. -/
def wideType (type : IntegralType) : IntegralType :=
  if type.width < 32 then .int else type

theorem width_wideType (type : IntegralType) : 32 ≤ (wideType type).width := by
  cases type <;> decide

/-- Whatever a type holds, its wide type holds. -/
theorem holds_wideType {type : IntegralType} {n : Int} (holds : type.Holds n) :
    (wideType type).Holds n := by
  cases type with
  | int | uint | long | ulong => exact holds
  | sbyte | byte | short | ushort =>
      refine holds_int_iff.mpr ?_
      simp [IntegralType.Holds, IntegralType.least, IntegralType.greatest, IntegralType.width,
        IntegralType.isSigned] at holds
      omega

/-- The literal that an integer has as a value of a wide type. -/
def tokenOf (type : IntegralType) (n : Int) : IntegerToken :=
  ⟨n < 0, Nat.toDigits 10 n.natAbs, !type.isSigned, type.width = 64⟩

namespace IntegerToken

variable {type : IntegralType} {n : Int}

@[simp] theorem negative_tokenOf : (tokenOf type n).negative = decide (n < 0) := rfl

@[simp] theorem unsigned_tokenOf : (tokenOf type n).unsigned = !type.isSigned := rfl

@[simp] theorem long_tokenOf : (tokenOf type n).long = decide (type.width = 64) := rfl

@[simp] theorem magnitude_tokenOf : (tokenOf type n).magnitude = n.natAbs :=
  Nat.ofDigitChars_ten_toDigits

/-- The literal has the suffix of its type. -/
theorem suffix_tokenOf : (tokenOf (wideType type) n).suffix = Literal.suffix type := by
  cases type <;> rfl

/-- **Digits with the suffix of a wide type are of that type**, if it holds them. -/
theorem plainType?_tokenOf (wide : 32 ≤ type.width) (holds : type.Holds n.natAbs) :
    (tokenOf type n).plainType? = some type := by
  cases type with
  | sbyte | byte | short | ushort => exact absurd wide (by decide)
  | int | uint | long | ulong =>
      rw [plainType?, magnitude_tokenOf]
      generalize n.natAbs = size at holds
      simp [admits, IntegralType.isSigned, IntegralType.width, holds]

/-- **So are digits behind a minus sign**, if it holds them with the sign. -/
theorem negatedType?_tokenOf (wide : 32 ≤ type.width) (negative : n < 0) (holds : type.Holds n) :
    (tokenOf type n).negatedType? = some type := by
  have plain := plainType?_tokenOf (n := n) wide
  cases type with
  | sbyte | byte | short | ushort => exact absurd wide (by decide)
  | uint | ulong => exact absurd negative (not_lt.mpr holds.1)
  | int =>
      obtain ⟨least, -⟩ := holds_int_iff.mp holds
      by_cases extreme : n.natAbs = 2147483648
      · simp [negatedType?, extreme, IntegralType.isSigned, IntegralType.width]
      · have small : IntegralType.int.Holds n.natAbs := holds_int_iff.mpr (by omega)
        have notLong : n.natAbs ≠ 9223372036854775808 := by omega
        simp [negatedType?, extreme, notLong, plain small]
  | long =>
      obtain ⟨least, -⟩ := holds_long_iff.mp holds
      by_cases extreme : n.natAbs = 9223372036854775808
      · simp [negatedType?, extreme, IntegralType.isSigned]
      · have small : IntegralType.long.Holds n.natAbs := holds_long_iff.mpr (by omega)
        simp [negatedType?, extreme, plain small, IntegralType.width]

/-- **The literal of an integer as a value of a wide type is that value.** -/
theorem value?_tokenOf (wide : 32 ≤ type.width) (holds : type.Holds n) :
    (tokenOf type n).value? = some ⟨type, n, holds⟩ := by
  by_cases negative : n < 0
  · have value : -(n.natAbs : Int) = n := by omega
    rw [value?, negative_tokenOf, if_pos (decide_eq_true negative),
      negatedType?_tokenOf wide negative holds, magnitude_tokenOf, value]
    simp [Integral.ofInt_of_holds holds, Except.toOption]
  · have value : (n.natAbs : Int) = n := by omega
    rw [value?, negative_tokenOf, if_neg (by simpa using negative),
      plainType?_tokenOf wide (by rwa [value]), magnitude_tokenOf, value]
    simp [Integral.ofInt_of_holds holds, Except.toOption]

end IntegerToken

/-! ### Literals without a cast -/

section Reading

variable {rest : List Char}

theorem EndsToken.ne (ends : EndsToken rest) {c : Char} (more : goesOn c = true) :
    c ∉ rest.head? := fun first => by
  rw [ends c first] at more
  cases more

theorem EndsToken.endsDigits (ends : EndsToken rest) : Json.EndsDigits rest := fun c first => by
  rw [Bool.eq_false_iff]
  intro digit
  exact ends.ne (by simp [goesOn, Char.isAlphanum, digit]) first

/-- The text behind a suffix is not taken for a part of it. -/
theorem takeSuffix_append (type : IntegralType) (ends : EndsToken rest) :
    takeSuffix ((suffix type).toList ++ rest) =
      (!(wideType type).isSigned, decide ((wideType type).width = 64), rest) := by
  have noU : 'U' ∉ rest.head? := ends.ne (by decide)
  have noL : 'L' ∉ rest.head? := ends.ne (by decide)
  cases type with
  | uint =>
      show takeSuffix ('U' :: rest) = (true, false, rest)
      unfold takeSuffix
      split <;> simp_all
  | long => rfl
  | ulong => rfl
  | sbyte | byte | short | ushort | int =>
      show takeSuffix rest = (false, false, rest)
      unfold takeSuffix
      split <;> simp_all

theorem endsDigits_suffix (type : IntegralType) (ends : EndsToken rest) :
    Json.EndsDigits ((suffix type).toList ++ rest) := by
  cases type with
  | uint | long | ulong =>
      rintro c ⟨⟩
      rfl
  | sbyte | byte | short | ushort | int => exact ends.endsDigits

/-- Digits with a suffix are taken as they are. -/
theorem token?_digits (negative : Bool) (n : Nat) (type : IntegralType) (ends : EndsToken rest) :
    token? negative (Nat.toDigits 10 n ++ ((suffix type).toList ++ rest)) =
      some (⟨negative, Nat.toDigits 10 n, !(wideType type).isSigned,
        decide ((wideType type).width = 64)⟩, rest) := by
  have stops : ¬rest.head?.any goesOn = true := by
    rw [Option.any_eq_true]
    rintro ⟨c, first, more⟩
    exact ends.ne more first
  rw [token?, Json.digits?_toDigits_append n (endsDigits_suffix type ends)]
  simp only [Option.bind_eq_bind, Option.bind_some, takeSuffix_append type ends]
  exact if_neg stops

theorem toList_digits_append (n : Integral) (rest : List Char) :
    (digits n).toList ++ rest = (Text.sign (n.value < 0)).toList ++
      (Nat.toDigits 10 n.value.natAbs ++ ((suffix n.type).toList ++ rest)) := by
  simp [digits, Text.integer]

theorem signed?_of_ne {c : Char} (noSign : c ≠ '-') (cs : List Char) :
    signed? (c :: cs) = token? false (c :: cs) := by
  unfold signed?
  split <;> simp_all

theorem operand?_of_ne {c : Char} (noParenthesis : c ≠ '(') (cs : List Char) :
    operand? (c :: cs) = token? false (c :: cs) := by
  unfold operand?
  split <;> simp_all

theorem cast?_of_ne {c : Char} (noParenthesis : c ≠ '(') (cs : List Char) :
    cast? (c :: cs) = none := by
  unfold cast?
  split <;> simp_all

/-- A literal without a cast begins with its sign or a digit. -/
theorem exists_digits_eq_cons (n : Integral) :
    ∃ c cs, (digits n).toList = c :: cs ∧ c ≠ '(' ∧ (¬n.value < 0 → c ≠ '-') := by
  obtain ⟨c, cs, written, digit⟩ := Text.exists_toDigits_eq_cons n.value.natAbs
  have noMark : c ≠ '(' ∧ c ≠ '-' := by
    constructor <;>
      · rintro rfl
        cases digit
  have text := toList_digits_append n []
  rw [List.append_nil, List.append_nil, written, Text.toList_sign] at text
  by_cases negative : n.value < 0
  · refine ⟨'-', c :: cs ++ (suffix n.type).toList, by simpa [negative] using text, by decide, ?_⟩
    exact fun positive => absurd negative positive
  · exact ⟨c, cs ++ (suffix n.type).toList, by simpa [negative] using text, noMark.1,
      fun _ => noMark.2⟩

/-- Without a sign in front, the digits and the suffix are the literal. -/
theorem token?_digits_of_nonneg {n : Integral} (positive : ¬n.value < 0) (ends : EndsToken rest) :
    token? false ((digits n).toList ++ rest) =
      some (tokenOf (wideType n.type) n.value, rest) := by
  rw [toList_digits_append, decide_eq_false positive]
  exact (token?_digits false n.value.natAbs n.type ends).trans (by simp [tokenOf, positive])

/-- **A literal without a cast is read as it was made**, whatever follows it. -/
theorem signed?_digits (n : Integral) (ends : EndsToken rest) :
    signed? ((digits n).toList ++ rest) = some (tokenOf (wideType n.type) n.value, rest) := by
  by_cases negative : n.value < 0
  · rw [toList_digits_append, decide_eq_true negative]
    exact (token?_digits true n.value.natAbs n.type ends).trans (by simp [tokenOf, negative])
  · obtain ⟨c, cs, written, -, noSign⟩ := exists_digits_eq_cons n
    have token := token?_digits_of_nonneg negative ends
    rw [written] at token ⊢
    exact (signed?_of_ne (noSign negative) _).trans token

/-! ### Literals with a cast -/

/-- A cast begins no literal without one. -/
theorem cast?_digits (n : Integral) (rest : List Char) :
    cast? ((digits n).toList ++ rest) = none := by
  obtain ⟨c, cs, written, noParenthesis, -⟩ := exists_digits_eq_cons n
  rw [written]
  exact cast?_of_ne noParenthesis _

/-- Behind a cast parentheses belong to the operand. -/
theorem operand?_parentheses (n : Integral) (rest : List Char) :
    operand? ('(' :: ((digits n).toList ++ ')' :: rest)) =
      some (tokenOf (wideType n.type) n.value, rest) := by
  have ends : EndsToken (')' :: rest) := by
    rintro c ⟨⟩
    rfl
  rw [operand?, signed?_digits n ends]
  rfl

theorem operand?_digits {n : Integral} (positive : ¬n.value < 0) (ends : EndsToken rest) :
    operand? ((digits n).toList ++ rest) = some (tokenOf (wideType n.type) n.value, rest) := by
  obtain ⟨c, cs, written, noParenthesis, -⟩ := exists_digits_eq_cons n
  have token := token?_digits_of_nonneg positive ends
  rw [written] at token ⊢
  exact (operand?_of_ne noParenthesis _).trans token

/-- The keyword in parentheses is a cast to its type. -/
theorem cast?_keyword (type : IntegralType) (rest : List Char) :
    cast? ('(' :: (type.keyword.toList ++ ')' :: rest)) = some (type, rest) := by
  have noStop : ∀ c ∈ type.keyword.toList, decide (c = ')') = false := by
    intro c inside
    refine decide_eq_false ?_
    rintro rfl
    revert inside
    cases type <;> decide
  have stop : ∀ c ∈ (')' :: rest).head?, decide (c = ')') = true := by
    rintro c ⟨⟩
    rfl
  have found : IntegralType.all.find? (·.keyword.toList = type.keyword.toList) = some type := by
    cases type <;> decide
  have word : (type.keyword.toList ++ ')' :: rest).takeWhile (· ≠ ')') = type.keyword.toList := by
    simpa using takeWhile_append_of_stops noStop stop
  simp only [cast?, word, found]
  simp

end Reading

/-- A literal is a cast of its digits for the narrow types, and its digits for the others. -/
theorem toList_integer (n : Integral) :
    (integer n).toList =
      if n.type.width < 32 then
        '(' :: (n.type.keyword.toList ++ ')' ::
          if n.value < 0 then '(' :: ((digits n).toList ++ [')']) else (digits n).toList)
      else (digits n).toList := by
  unfold integer
  split
  · split <;> simp
  · rfl

theorem integer?_of_cast {text rest : List Char} {type : IntegralType}
    (cast : cast? text = some (type, rest)) :
    integer? text = (operand? rest).map fun p => (⟨some type, p.1⟩, p.2) := by
  rw [integer?, cast]

theorem integer?_of_no_cast {text : List Char} (noCast : cast? text = none) :
    integer? text = (signed? text).map fun p => (⟨none, p.1⟩, p.2) := by
  rw [integer?, noCast]

/-- The constant that the literal of an integral value is. -/
def constantOf (n : Integral) : IntegerConstant :=
  ⟨if n.type.width < 32 then some n.type else none, tokenOf (wideType n.type) n.value⟩

/-- **A literal is read as it was made**, whatever follows it. -/
theorem integer?_integer (n : Integral) {rest : List Char} (ends : EndsToken rest) :
    integer? ((integer n).toList ++ rest) = some (constantOf n, rest) := by
  rw [toList_integer, constantOf]
  by_cases narrow : n.type.width < 32
  · rw [if_pos narrow, if_pos narrow, List.cons_append, List.append_assoc, List.cons_append,
      integer?_of_cast (cast?_keyword _ _)]
    by_cases negative : n.value < 0
    · rw [if_pos negative, List.cons_append, List.append_assoc, List.singleton_append,
        operand?_parentheses]
      rfl
    · rw [if_neg negative, operand?_digits negative ends]
      rfl
  · rw [if_neg narrow, if_neg narrow, integer?_of_no_cast (cast?_digits n rest),
      signed?_digits n ends]
    rfl

/-- **And it is the value that it was made from.** -/
theorem value?_constantOf (n : Integral) : (constantOf n).value? = some n := by
  have token := IntegerToken.value?_tokenOf (width_wideType n.type) (holds_wideType n.in_range)
  unfold constantOf IntegerConstant.value?
  by_cases narrow : n.type.width < 32
  · have back : n.convert n.type = .ok n := Integral.ofInt_of_holds n.in_range
    rw [if_pos narrow]
    simp only [token, Option.bind_eq_bind, Option.bind_some]
    exact congrArg Except.toOption back
  · have wide : wideType n.type = n.type := if_neg narrow
    rw [if_neg narrow]
    refine token.trans (congrArg some ?_)
    simp only [wide]

/-! ### Minus signs -/

/-- No minus sign stands directly behind a closing parenthesis. -/
def SignsInside (text : List Char) : Prop :=
  text.IsChain fun a b => a = ')' → b ≠ '-'

theorem signsInside_of_notMem {text : List Char} (none : ')' ∉ text) : SignsInside text := by
  induction text with
  | nil => exact .nil
  | cons c cs ih =>
      refine List.isChain_cons.mpr ⟨fun _ _ close => ?_, ih fun member => none (.tail _ member)⟩
      exact absurd List.mem_cons_self (close ▸ none)

/-- What stands behind a closing parenthesis is looked at apart. -/
theorem signsInside_close {text rest : List Char} (none : ')' ∉ text) (noSign : '-' ∉ rest.head?)
    (inside : SignsInside rest) : SignsInside (text ++ ')' :: rest) := by
  refine List.isChain_append.mpr ⟨signsInside_of_notMem none, ?_, ?_⟩
  · exact List.isChain_cons.mpr ⟨fun c first _ sign => noSign (sign ▸ first), inside⟩
  · intro c last d first close
    exact absurd (List.mem_of_getLast? last) (close ▸ none)

/-- No parenthesis closes within the digits and the suffix. -/
theorem notMem_digits (n : Integral) : ')' ∉ (digits n).toList := by
  have text := toList_digits_append n []
  rw [List.append_nil, List.append_nil] at text
  rw [text, Text.toList_sign]
  simp only [List.mem_append, not_or]
  refine ⟨?_, fun digit => ?_, ?_⟩
  · split <;> simp
  · cases Text.isDigit_of_mem_toDigits digit
  · cases n.type <;> decide

/-- **A minus sign behind a cast stands in parentheses.** -/
theorem signsInside_integer (n : Integral) : SignsInside (integer n).toList := by
  have keyword : ')' ∉ '(' :: n.type.keyword.toList := by cases n.type <;> decide
  have digits := notMem_digits n
  rw [toList_integer]
  split
  · refine signsInside_close keyword ?_ ?_
    · split
      · simp
      · rename_i positive
        obtain ⟨c, cs, written, -, noSign⟩ := exists_digits_eq_cons n
        rw [written]
        simpa using noSign positive
    · split
      · have operand : ')' ∉ '(' :: (Literal.digits n).toList := by simpa using digits
        exact signsInside_close operand (by simp) .nil
      · exact signsInside_of_notMem digits
  · exact signsInside_of_notMem digits

/-! ### Exact literals -/

/-- A text is the literal of an integral value as the constant `c`, and that is exact. -/
structure Exact (n : Integral) (text : String) (c : IntegerConstant) : Prop where
  /-- Wherever the text stands, this is what is read there, up to the end of the text. -/
  reads : ∀ rest, EndsToken rest → integer? (text.toList ++ rest) = some (c, rest)
  /-- What is read has the type and the value of `n`. -/
  value : c.value? = some n
  /-- No superfluous zero stands in front of the digits. -/
  whole : Text.IsWhole c.token.digits
  /-- No minus sign directly follows a cast. -/
  signs : SignsInside text.toList

theorem exact_integer (n : Integral) : Exact n (integer n) (constantOf n) where
  reads _ ends := integer?_integer n ends
  value := value?_constantOf n
  whole := Text.isWhole_toDigits _
  signs := signsInside_integer n

/-- The digits and the suffix of a value are a literal of its wide type. -/
theorem exact_digits (n : Integral) :
    Exact ⟨wideType n.type, n.value, holds_wideType n.in_range⟩ (digits n)
      ⟨none, tokenOf (wideType n.type) n.value⟩ where
  reads rest ends := by
    rw [integer?_of_no_cast (cast?_digits n rest), signed?_digits n ends]
    rfl
  value := IntegerToken.value?_tokenOf (width_wideType n.type) (holds_wideType n.in_range)
  whole := Text.isWhole_toDigits _
  signs := signsInside_of_notMem (notMem_digits n)

/-- Without a member for it, an integer that the underlying type holds is cast to the enum type. -/
theorem enumValue_of_no_member {type : EnumType} {n : Integral}
    (holds : type.underlying.Holds n.value) (noMember : type.member? n.value = none) :
    enumValue type n =
      .ok ("(" ++ type.name ++ ")(" ++ digits ⟨type.underlying, n.value, holds⟩ ++ ")") := by
  rw [enumValue_of_holds holds, noMember]

/--
**Integer literals keep value and type.** The literal of every integral value is exact. Where an
enum value is a cast to its type, what stands in the parentheses behind the cast is an exact literal
without a cast of its own: it has the number that is cast and the suffix of the underlying type, and
so that type, or `int` if the type has no literals.
-/
theorem integer_exact :
    (∀ n : Integral, ∃ c, Exact n (integer n) c) ∧
    ∀ (type : EnumType) (n : Integral), type.underlying.Holds n.value →
      type.member? n.value = none →
      ∃ inner token m, enumValue type n = .ok ("(" ++ type.name ++ ")(" ++ inner ++ ")") ∧
        Exact m inner ⟨none, token⟩ ∧ m.value = n.value ∧
        m.type = (if type.underlying.width < 32 then .int else type.underlying) ∧
        token.suffix = suffix type.underlying := by
  refine ⟨fun n => ⟨_, exact_integer n⟩, fun type n holds noMember => ?_⟩
  exact ⟨_, _, _, enumValue_of_no_member holds noMember, exact_digits _, rfl, rfl,
    IntegerToken.suffix_tokenOf⟩

/-- The smallest values of three types, and one of them cast to an enum type. -/
theorem integer_exact_least :
    let sbyte : Integral := ⟨.sbyte, -128, by decide⟩
    let int : Integral := ⟨.int, -2147483648, by decide⟩
    let long : Integral := ⟨.long, -9223372036854775808, by decide⟩
    let type := EnumType.empty "Big" .long
    (integer sbyte = "(sbyte)(-128)" ∧ ∃ c, Exact sbyte (integer sbyte) c) ∧
      (integer int = "-2147483648" ∧ ∃ c, Exact int (integer int) c) ∧
      (integer long = "-9223372036854775808L" ∧ ∃ c, Exact long (integer long) c) ∧
      (type.underlying.Holds int.value ∧ type.member? int.value = none) ∧
      ∃ inner token m, enumValue type int = .ok ("(Big)(" ++ inner ++ ")") ∧
        Exact m inner ⟨none, token⟩ ∧ m.value = -2147483648 ∧ m.type = .long ∧
        token.suffix = "L" := by
  intro sbyte int long type
  have holds : type.underlying.Holds int.value := by decide
  obtain ⟨inner, token, m, written, rest⟩ := integer_exact.2 type int holds rfl
  exact ⟨⟨by decide, integer_exact.1 sbyte⟩, ⟨by decide, integer_exact.1 int⟩,
    ⟨by decide, integer_exact.1 long⟩, ⟨holds, rfl⟩, inner, token, m, written, rest⟩

end SignatureText.Literal
