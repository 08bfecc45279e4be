/-
**JSON: trees, texts and scanning.**

A tree holds what a text says as far as it is JSON. An array or object keeps its items in written
order, repeated keys included, and knows whether it was closed; where the text stops being JSON
stands `cut`. So the items before a fault can still be read in order. A string is absent when it
escapes half a surrogate pair, which is no text. `Json.isWhole` says that a tree holds no fault.

* A number is read into a numeral, which keeps how it was written as far as that matters: `1`, `1.0`
  and `1e0` are three numerals.
* A string is read in two steps: the quoted text is cut into pieces, characters and code units of 16
  bits, up to the closing quote; then the units are put together. Half a surrogate pair has no
  character, so the pieces then are no text, although the string is well written.
* `toText` writes a tree without white space, members and items in their order. A tree with a fault
  is written as far as it goes: what was not closed stays open.
* `scan` reads a text into a tree from the left. Every scanner gives what it found and the text
  behind it, or no text behind it where the input stops being JSON.
-/

import SignatureText.Number.Numeral

namespace SignatureText

/-- A JSON value as far as it could be read. -/
inductive Json where
  | null
  | bool (value : Bool)
  | number (value : Numeral)
  | string (value : Option String)
  | array (items : List Json) (closed : Bool)
  | object (members : List (Option String × Json)) (closed : Bool)
  | cut

namespace Json

/-- The string with a given text. -/
def ofString (s : String) : Json := .string (some s)

/-- The array of some values. -/
def list (items : List Json) : Json := .array items true

/-- The object with some members. -/
def record (members : List (String × Json)) : Json :=
  .object (members.map fun member => (some member.1, member.2)) true

mutual

/-- The tree holds no fault. -/
def isWhole : Json → Bool
  | null | bool _ | number _ | string _ => true
  | array items closed => allWhole items && closed
  | object members closed => allMembersWhole members && closed
  | cut => false

/-- The trees hold no fault. -/
def allWhole : List Json → Bool
  | [] => true
  | item :: rest => isWhole item && allWhole rest

/-- The trees of some members hold no fault. -/
def allMembersWhole : List (Option String × Json) → Bool
  | [] => true
  | (_, value) :: rest => isWhole value && allMembersWhole rest

end

/-! ### Numbers -/

/-- A power of ten is marked by a small letter and always has a sign. -/
def exponentStyle : ExponentStyle := ⟨"e", true⟩

/-- The digits a text begins with, at least one, and the text behind them. -/
def digits? (text : List Char) : Option (List Char × List Char) :=
  let digits := text.takeWhile Char.isDigit
  if digits.isEmpty then none else some (digits, text.dropWhile Char.isDigit)

/-- The digits before the point. -/
def wholeDigits? (text : List Char) : Option (List Char × List Char) := do
  let (digits, rest) ← digits? text
  if digits.head? = some '0' ∧ digits.length ≠ 1 then none else some (digits, rest)

/-- The digits behind the point, none if there is no point. -/
def placeDigits? : List Char → Option (List Char × List Char)
  | '.' :: rest => digits? rest
  | rest => some ([], rest)

/-- The sign of an exponent and the text behind it. -/
def exponentSign : List Char → Bool × List Char
  | '-' :: rest => (true, rest)
  | '+' :: rest => (false, rest)
  | rest => (false, rest)

/-- The power of ten, if there is one. -/
def exponent? : List Char → Option (Option Int × List Char)
  | c :: rest =>
    if c = 'e' || c = 'E' then do
      let (negative, rest) := exponentSign rest
      let (digits, rest) ← digits? rest
      let exponent : Int := Nat.ofDigitChars 10 digits 0
      return (some (if negative then -exponent else exponent), rest)
    else some (none, c :: rest)
  | [] => some (none, [])

/-- The number that a text begins with, and the text behind it. -/
def number? (text : List Char) : Option (Numeral × List Char) := do
  let (negative, rest) := match text with
    | '-' :: rest => (true, rest)
    | rest => (false, rest)
  let (whole, rest) ← wholeDigits? rest
  let (places, rest) ← placeDigits? rest
  let (exponent, rest) ← exponent? rest
  return (⟨negative, Nat.ofDigitChars 10 (whole ++ places) 0, places.length, exponent⟩, rest)

/-! ### Writing strings -/

/-- How a character is written between quotes. -/
def escape (c : Char) : List Char :=
  if c = '\x22' then ['\\', '\x22']
  else if c = '\\' then ['\\', '\\']
  else if c = '\x08' then ['\\', 'b']
  else if c = '\x0c' then ['\\', 'f']
  else if c = '\n' then ['\\', 'n']
  else if c = '\r' then ['\\', 'r']
  else if c = '\t' then ['\\', 't']
  else if c.toNat < 0x20 then '\\' :: 'u' :: Text.lowerHex c.toNat
  else [c]

/-- A text between quotes. -/
def quoted (cs : List Char) : List Char :=
  '\x22' :: cs.flatMap escape ++ ['\x22']

/-! ### Reading strings -/

/-- A part of a quoted text: a character, or a code unit written by its four digits. -/
inductive Piece where
  | char (c : Char)
  | unit (n : Nat)
deriving DecidableEq, Repr

/-- The value of a hexadecimal digit. -/
def hexDigit? (c : Char) : Option Nat :=
  if c.isDigit then some (c.toNat - '0'.toNat)
  else if 'a' ≤ c ∧ c ≤ 'f' then some (c.toNat - 'a'.toNat + 10)
  else if 'A' ≤ c ∧ c ≤ 'F' then some (c.toNat - 'A'.toNat + 10)
  else none

/-- The value of four hexadecimal digits. -/
def hexUnit? (a b c d : Char) : Option Nat :=
  return (((← hexDigit? a) * 16 + (← hexDigit? b)) * 16 + (← hexDigit? c)) * 16 + (← hexDigit? d)

/-- The character that a backslash and one more character stand for. -/
def unescape? (c : Char) : Option Char :=
  if c = '\x22' ∨ c = '\\' ∨ c = '/' then some c
  else if c = 'b' then some '\x08'
  else if c = 'f' then some '\x0c'
  else if c = 'n' then some '\n'
  else if c = 'r' then some '\r'
  else if c = 't' then some '\t'
  else none

/-- The pieces of a quoted text up to its closing quote, and the text behind it. -/
def pieces? : List Char → Option (List Piece × List Char)
  | [] => none
  | '\x22' :: rest => some ([], rest)
  | '\\' :: 'u' :: a :: b :: c :: d :: rest => do
    let unit ← hexUnit? a b c d
    let (pieces, rest) ← pieces? rest
    return (.unit unit :: pieces, rest)
  | '\\' :: c :: rest => do
    let character ← unescape? c
    let (pieces, rest) ← pieces? rest
    return (.char character :: pieces, rest)
  | c :: rest => do
    if c.toNat < 0x20 || c = '\\' then none
    else
      let (pieces, rest) ← pieces? rest
      return (.char c :: pieces, rest)

/-- The first half of a surrogate pair. -/
def isHighUnit (n : Nat) : Bool := 0xD800 ≤ n && n < 0xDC00

/-- The second half of a surrogate pair. -/
def isLowUnit (n : Nat) : Bool := 0xDC00 ≤ n && n < 0xE000

/-- The characters that some pieces are, unless half a surrogate pair is among them. -/
def characters? : List Piece → Option (List Char)
  | [] => some []
  | .char c :: rest => return c :: (← characters? rest)
  | .unit high :: .unit low :: rest =>
    if isHighUnit high then
      if isLowUnit low then
        return Char.ofNat (0x10000 + (high - 0xD800) * 0x400 + (low - 0xDC00)) ::
          (← characters? rest)
      else none
    else if isLowUnit high then none
    else return Char.ofNat high :: (← characters? (.unit low :: rest))
  | .unit n :: rest =>
    if isHighUnit n || isLowUnit n then none else return Char.ofNat n :: (← characters? rest)

/-- The string behind an opening quote, and the text behind its closing one. -/
def string? (text : List Char) : Option (Option String × List Char) := do
  let (pieces, rest) ← pieces? text
  return ((characters? pieces).map String.ofList, rest)

/-! ### Compact texts -/

mutual

/-- The characters of a tree. -/
def chars : Json → List Char
  | null => "null".toList
  | bool true => "true".toList
  | bool false => "false".toList
  | number n => (n.text exponentStyle).toList
  | string (some s) => quoted s.toList
  | string none => "\x22\\ud800\x22".toList
  | array items closed => '[' :: itemChars items ++ if closed then [']'] else []
  | object members closed => '\x7b' :: memberChars members ++ if closed then ['\x7d'] else []
  | cut => []

/-- The characters of some items, with commas between them. -/
def itemChars : List Json → List Char
  | [] => []
  | [item] => chars item
  | item :: rest => chars item ++ ',' :: itemChars rest

/-- The characters of some members, with commas between them. -/
def memberChars : List (Option String × Json) → List Char
  | [] => []
  | [(key, value)] => chars (.string key) ++ ':' :: chars value
  | (key, value) :: rest => chars (.string key) ++ ':' :: chars value ++ ',' :: memberChars rest

end

/-- The text of a tree. -/
def toText (j : Json) : String :=
  String.ofList j.chars

/-!
### Scanning

A comma must be followed by a further item, and white space is blank, tabulator, line feed and
carriage return only. The number of steps is bounded by the length of the text: two steps take at
least one character.
-/

/-- White space between the parts of a text. -/
def isSpace (c : Char) : Bool :=
  c = ' ' || c = '\t' || c = '\n' || c = '\r'

/-- A text without the white space in front. -/
def skipSpace (text : List Char) : List Char :=
  text.dropWhile isSpace

/-- A word that has to stand at the beginning of a text. -/
def word (value : Json) (expected text : List Char) : Json × Option (List Char) :=
  if expected.isPrefixOf text then (value, some (text.drop expected.length)) else (.cut, none)

/-- A value that is no array and no object. -/
def scalar (text : List Char) : Json × Option (List Char) :=
  match text with
  | 'n' :: _ => word .null "null".toList text
  | 't' :: _ => word (.bool true) "true".toList text
  | 'f' :: _ => word (.bool false) "false".toList text
  | '\x22' :: rest =>
    match string? rest with
    | some (s, rest) => (.string s, some rest)
    | none => (.cut, none)
  | _ =>
    match number? text with
    | some (n, rest) => (.number n, some rest)
    | none => (.cut, none)

mutual

/-- The value a text begins with. -/
def value : (steps : Nat) → List Char → Json × Option (List Char)
  | 0, _ => (.cut, none)
  | steps + 1, text =>
    match skipSpace text with
    | '[' :: rest =>
      match skipSpace rest with
      | ']' :: rest => (.array [] true, some rest)
      | rest =>
        let (items, rest) := items steps rest
        (.array items rest.isSome, rest)
    | '\x7b' :: rest =>
      match skipSpace rest with
      | '\x7d' :: rest => (.object [] true, some rest)
      | rest =>
        let (members, rest) := members steps rest
        (.object members rest.isSome, rest)
    | rest => scalar rest

/-- The items of an array up to its closing bracket; there is at least one. -/
def items : (steps : Nat) → List Char → List Json × Option (List Char)
  | 0, _ => ([], none)
  | steps + 1, text =>
    let (item, rest) := value steps text
    match rest.map skipSpace with
    | some (',' :: rest) =>
      let (others, rest) := items steps rest
      (item :: others, rest)
    | some (']' :: rest) => ([item], some rest)
    | _ => ([item], none)

/-- The members of an object up to its closing brace; there is at least one. -/
def members : (steps : Nat) → List Char → List (Option String × Json) × Option (List Char)
  | 0, _ => ([], none)
  | steps + 1, text =>
    match skipSpace text with
    | '\x22' :: rest =>
      match string? rest with
      | none => ([], none)
      | some (key, rest) =>
        match skipSpace rest with
        | ':' :: rest =>
          let (item, rest) := value steps rest
          match rest.map skipSpace with
          | some (',' :: rest) =>
            let (others, rest) := members steps rest
            ((key, item) :: others, rest)
          | some ('\x7d' :: rest) => ([(key, item)], some rest)
          | _ => ([(key, item)], none)
        | _ => ([(key, .cut)], none)
    | _ => ([], none)

end

/-- The value a text begins with, and the text behind it. -/
def scan (text : String) : Json × Option (List Char) :=
  value (2 * text.length + 2) text.toList

end Json

end SignatureText
