/-
**Strings read back.**

* `hexUnit?_lowerHex` — four hexadecimal digits are read as the code unit they were written for.
* `string?_stringChars` — **a string reads back behind its opening quote, character by character**,
  and the text behind its closing quote is left. A string that is no text reads back as none.

Both go through the pieces: an escaped character is one piece (`pieces?_escape`), and putting the
pieces together gives the characters (`characters?_map_piece`).
-/

import SignatureText.Json

namespace SignatureText

/-! ### Hexadecimal digits -/

namespace Text

theorem lowerHex_eq {n : Nat} (unit : n < 0x10000) :
    lowerHex n = [Nat.digitChar (n / 16 / 16 / 16), Nat.digitChar (n / 16 / 16 % 16),
      Nat.digitChar (n / 16 % 16), Nat.digitChar (n % 16)] := by
  have step {m : Nat} (large : 16 ≤ m) :
      Nat.toDigits 16 m = Nat.toDigits 16 (m / 16) ++ [Nat.digitChar (m % 16)] :=
    Nat.toDigits_of_base_le (by decide) large
  have last {m : Nat} (small : m < 16) : Nat.toDigits 16 m = [Nat.digitChar m] :=
    Nat.toDigits_of_lt_base small
  by_cases one : n < 16
  · have : n / 16 = 0 := by omega
    simp [lowerHex, last one, List.leftpad, List.replicate, this, Nat.mod_eq_of_lt one]
  by_cases two : n / 16 < 16
  · have : n / 16 / 16 = 0 := by omega
    simp [lowerHex, step (by omega : 16 ≤ n), last two, List.leftpad, List.replicate, this,
      Nat.mod_eq_of_lt two]
  by_cases three : n / 16 / 16 < 16
  · have : n / 16 / 16 / 16 = 0 := by omega
    simp [lowerHex, step (by omega : 16 ≤ n), step (by omega : 16 ≤ n / 16), last three,
      List.leftpad, this, Nat.mod_eq_of_lt three]
  · have four : n / 16 / 16 / 16 < 16 := by omega
    simp [lowerHex, step (by omega : 16 ≤ n), step (by omega : 16 ≤ n / 16),
      step (by omega : 16 ≤ n / 16 / 16), last four, List.leftpad]

end Text

namespace Json

theorem hexDigit?_digitChar {d : Nat} (digit : d < 16) : hexDigit? (Nat.digitChar d) = some d := by
  have all : ∀ d : Fin 16, hexDigit? (Nat.digitChar d) = some d.val := by decide
  exact all ⟨d, digit⟩

/-- **Four hexadecimal digits are read as the code unit they were written for.** -/
theorem hexUnit?_lowerHex {n : Nat} (unit : n < 0x10000) :
    hexUnit? (Nat.digitChar (n / 16 / 16 / 16)) (Nat.digitChar (n / 16 / 16 % 16))
      (Nat.digitChar (n / 16 % 16)) (Nat.digitChar (n % 16)) = some n := by
  have digit (m : Nat) : m % 16 < 16 := Nat.mod_lt m (by decide)
  have first : n / 16 / 16 / 16 < 16 := by omega
  simp only [hexUnit?, hexDigit?_digitChar (digit _), hexDigit?_digitChar first,
    Option.bind_eq_bind, Option.bind_some, Option.pure_def, Option.some.injEq]
  omega

/-! ### Pieces -/

/-- The piece that an escaped character is read as. -/
def piece (c : Char) : Piece :=
  if c = '\x08' ∨ c = '\x0c' ∨ c = '\n' ∨ c = '\r' ∨ c = '\t' then .char c
  else if c.toNat < 0x20 then .unit c.toNat
  else .char c

theorem pieces?_unit {a b c d : Char} {n : Nat} (unit : hexUnit? a b c d = some n)
    (text : List Char) :
    pieces? ('\\' :: 'u' :: a :: b :: c :: d :: text) =
      (pieces? text).map fun p => (.unit n :: p.1, p.2) := by
  rw [pieces?, unit]
  cases pieces? text <;> rfl

theorem pieces?_short {e c : Char} (letter : e ≠ 'u') (means : unescape? e = some c)
    (text : List Char) :
    pieces? ('\\' :: e :: text) = (pieces? text).map fun p => (.char c :: p.1, p.2) := by
  rw [pieces?, means]
  · cases pieces? text <;> rfl
  · simp [letter]

theorem pieces?_plain {c : Char} (quote : c ≠ '\x22') (backslash : c ≠ '\\')
    (control : ¬c.toNat < 0x20) (text : List Char) :
    pieces? (c :: text) = (pieces? text).map fun p => (.char c :: p.1, p.2) := by
  have plain : (decide (c.toNat < 0x20) || decide (c = '\\')) = false := by
    simp [control, backslash]
  rw [pieces?, plain]
  · cases pieces? text <;> rfl
  · simp [quote]
  · simp [backslash]
  · simp [backslash]

/-- **An escaped character is one piece.** -/
theorem pieces?_escape (c : Char) (text : List Char) :
    pieces? (escape c ++ text) = (pieces? text).map fun p => (piece c :: p.1, p.2) := by
  by_cases quote : c = '\x22'
  · subst quote
    exact pieces?_short (by decide) rfl text
  by_cases backslash : c = '\\'
  · subst backslash
    exact pieces?_short (by decide) rfl text
  by_cases named : c = '\x08' ∨ c = '\x0c' ∨ c = '\n' ∨ c = '\r' ∨ c = '\t'
  · rcases named with rfl | rfl | rfl | rfl | rfl <;>
      exact pieces?_short (by decide) rfl text
  have other : c ≠ '\x08' ∧ c ≠ '\x0c' ∧ c ≠ '\n' ∧ c ≠ '\r' ∧ c ≠ '\t' := by simpa using named
  by_cases control : c.toNat < 0x20
  · have unit : c.toNat < 0x10000 := by omega
    have written : escape c = '\\' :: 'u' :: Text.lowerHex c.toNat := by
      simp [escape, quote, backslash, other, control]
    have read : piece c = .unit c.toNat := by simp [piece, other, control]
    rw [written, read, Text.lowerHex_eq unit]
    exact pieces?_unit (hexUnit?_lowerHex unit) text
  · have written : escape c = [c] := by simp [escape, quote, backslash, other, control]
    have read : piece c = .char c := by simp [piece, other, control]
    rw [written, read]
    exact pieces?_plain quote backslash control text

theorem characters?_unit {n : Nat} (control : n < 0x20) (pieces : List Piece) :
    characters? (.unit n :: pieces) = (characters? pieces).map (Char.ofNat n :: ·) := by
  have high : isHighUnit n = false := by simp [isHighUnit]; omega
  have low : isLowUnit n = false := by simp [isLowUnit]; omega
  have bind (read : Option (List Char)) :
      (do return Char.ofNat n :: (← read)) = read.map (Char.ofNat n :: ·) := by
    cases read <;> rfl
  rw [← bind]
  cases pieces with
  | nil => simp [characters?, high, low]
  | cons next pieces => cases next <;> simp [characters?, high, low]

/-- **Put together, the pieces of some characters are the characters.** -/
theorem characters?_map_piece (cs : List Char) : characters? (cs.map piece) = some cs := by
  induction cs with
  | nil => rfl
  | cons c cs ih =>
      rw [List.map_cons, piece]
      split
      · simp [characters?, ih]
      · split
        · next control => rw [characters?_unit control, ih, Option.map_some, Char.ofNat_toNat]
        · simp [characters?, ih]

/-! ### Strings -/

/-- What stands behind the opening quote of a string. -/
def stringChars : Option String → List Char
  | some s => s.toList.flatMap escape ++ ['\x22']
  | none => ['\\', 'u', 'd', '8', '0', '0', '\x22']

theorem chars_string (s : Option String) : chars (.string s) = '\x22' :: stringChars s := by
  cases s with
  | some s =>
      rw [chars]
      rfl
  | none =>
      have written : "\x22\\ud800\x22".toList = '\x22' :: stringChars none := by decide
      rw [← written, chars]

theorem pieces?_flatMap_escape (cs rest : List Char) :
    pieces? (cs.flatMap escape ++ '\x22' :: rest) = some (cs.map piece, rest) := by
  induction cs with
  | nil =>
      show pieces? ('\x22' :: rest) = _
      rw [pieces?]
      rfl
  | cons c cs ih => rw [List.flatMap_cons, List.append_assoc, pieces?_escape, ih]; rfl

/-- **A string reads back behind its opening quote.** -/
theorem string?_stringChars (s : Option String) (rest : List Char) :
    string? (stringChars s ++ rest) = some (s, rest) := by
  cases s with
  | some s =>
      have pieces := pieces?_flatMap_escape s.toList rest
      simp [string?, stringChars, pieces, characters?_map_piece]
  | none =>
      have pieces : pieces? (stringChars none ++ rest) = some ([.unit 0xD800], rest) := by
        refine (pieces?_unit (by decide : hexUnit? 'd' '8' '0' '0' = some 0xD800) _).trans ?_
        show Option.map _ (pieces? ('\x22' :: rest)) = _
        rw [pieces?]
        rfl
      rw [string?, pieces]
      rfl

end Json

end SignatureText
