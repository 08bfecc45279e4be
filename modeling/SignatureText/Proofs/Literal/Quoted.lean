/-
**Quoted literals read back.**

A quoted literal is scanned as a compiler does it: from the opening quote to the first quote that no
backslash stands before, with every escape decoded, and not at all if a character that ends a line
stands in it as it is, or behind a backslash something that is no escape.

* `escape_cases` — a character is written as a short escape, as a code, or as itself; as itself only
  if it is neither quote nor backslash and does not end a line.
* `scanBody?_quoted` — so a quoted text is scanned as the text, whatever follows it, and determines
  its characters and where it ends (`quoted_append_inj`).
* `scan_literal` — **strings and characters read back exactly**, and the literal ends where it ends.
-/

import SignatureText.Json
import SignatureText.Literal

namespace SignatureText.Literal

/-! ### Scanning -/

/-- A character that ends a line, which no literal holds as it is. -/
def endsLine (c : Char) : Bool :=
  c = '\r' || c = '\n' || c = '\u0085' || c = '\u2028' || c = '\u2029'

/-- The character that a backslash and one more character stand for. -/
def unescape? (c : Char) : Option Char :=
  if c = '\\' ∨ c = '\x22' ∨ c = '\x27' then some c
  else if c = '0' then some '\x00'
  else if c = 'r' then some '\r'
  else if c = 'n' then some '\n'
  else none

/-- The character of a code unit of 16 bits, unless it is half a surrogate pair. -/
def ofUnit? (unit : Nat) : Option Char :=
  if unit.isValidChar then some (Char.ofNat unit) else none

/-- The characters behind an opening quote, and the text behind the closing one. -/
def scanBody? (quote : Char) : List Char → Option (List Char × List Char)
  | [] => none
  | '\\' :: 'u' :: a :: b :: c :: d :: rest => do
    let character ← ofUnit? (← Json.hexUnit? a b c d)
    let (cs, rest) ← scanBody? quote rest
    return (character :: cs, rest)
  | '\\' :: c :: rest => do
    let character ← unescape? c
    let (cs, rest) ← scanBody? quote rest
    return (character :: cs, rest)
  | c :: rest =>
    if c = quote then some ([], rest)
    else if c = '\\' || endsLine c then none
    else do
      let (cs, rest) ← scanBody? quote rest
      return (c :: cs, rest)

/-- The characters of the quoted literal that a text begins with, and the text behind it. -/
def scan? (quote : Char) : List Char → Option (List Char × List Char)
  | [] => none
  | c :: rest => if c = quote then scanBody? quote rest else none

/-- The string whose literal a text begins with, and the text behind it. -/
def scanString? (text : String) : Option (String × String) :=
  (scan? '\x22' text.toList).map fun p => (String.ofList p.1, String.ofList p.2)

/-- The character whose literal a text begins with, and the text behind it. -/
def scanChar? (text : String) : Option (Char × String) :=
  match scan? '\x27' text.toList with
  | some ([c], rest) => some (c, String.ofList rest)
  | _ => none

/-! ### Escapes -/

/-- The two characters that literals stand between. -/
def IsQuote (quote : Char) : Prop :=
  quote = '\x22' ∨ quote = '\x27'

variable {quote : Char}

/-- **The three ways to write a character**: as a short escape, by its code, as itself. -/
theorem escape_cases (legal : IsQuote quote) (c : Char) :
    (∃ e, escape quote c = ['\\', e] ∧ unescape? e = some c) ∨
      (c = '\u0085' ∨ c = '\u2028' ∨ c = '\u2029') ∧
        escape quote c = '\\' :: 'u' :: Text.upperHex c.toNat ∨
      escape quote c = [c] ∧ c ≠ quote ∧ c ≠ '\\' ∧ c ≠ '\x00' ∧ endsLine c = false := by
  have own : unescape? quote = some quote := by
    rcases legal with rfl | rfl <;> decide
  by_cases backslash : c = '\\'
  · exact .inl ⟨'\\', by simp [escape, backslash], by rw [backslash]; decide⟩
  by_cases zero : c = '\x00'
  · exact .inl ⟨'0', by simp [escape, zero], by rw [zero]; decide⟩
  by_cases return_ : c = '\r'
  · exact .inl ⟨'r', by simp [escape, return_], by rw [return_]; decide⟩
  by_cases feed : c = '\n'
  · exact .inl ⟨'n', by simp [escape, feed], by rw [feed]; decide⟩
  by_cases line : c = '\u0085' ∨ c = '\u2028' ∨ c = '\u2029'
  · refine .inr (.inl ⟨line, ?_⟩)
    have coded : (c = '\u0085' || c = '\u2028' || c = '\u2029') = true := by
      simpa [or_assoc] using line
    rw [escape, if_neg backslash, if_neg zero, if_neg return_, if_neg feed, if_pos coded]
  have uncoded : (c = '\u0085' || c = '\u2028' || c = '\u2029') = false := by
    simpa [and_assoc] using line
  by_cases ends : c = quote
  · refine .inl ⟨quote, ?_, by rw [ends]; exact own⟩
    rw [escape, if_neg backslash, if_neg zero, if_neg return_, if_neg feed, uncoded,
      if_neg Bool.false_ne_true, if_pos ends, ends]
  · refine .inr (.inr ⟨?_, ends, backslash, zero, ?_⟩)
    · rw [escape, if_neg backslash, if_neg zero, if_neg return_, if_neg feed, uncoded,
        if_neg Bool.false_ne_true, if_neg ends]
    · simpa [endsLine, return_, feed] using uncoded

/-! ### One step -/

theorem scanBody?_unit {a b c d character : Char}
    (means : (Json.hexUnit? a b c d).bind ofUnit? = some character) (text : List Char) :
    scanBody? quote ('\\' :: 'u' :: a :: b :: c :: d :: text) =
      (scanBody? quote text).map fun p => (character :: p.1, p.2) := by
  obtain ⟨unit, digits, means⟩ := Option.bind_eq_some_iff.mp means
  rw [scanBody?, digits]
  show (ofUnit? unit).bind _ = _
  rw [means]
  cases scanBody? quote text <;> rfl

theorem scanBody?_short {e c : Char} (means : unescape? e = some c) (text : List Char) :
    scanBody? quote ('\\' :: e :: text) =
      (scanBody? quote text).map fun p => (c :: p.1, p.2) := by
  have letter : e ≠ 'u' := by
    rintro rfl
    cases means
  rw [scanBody?, means]
  · cases scanBody? quote text <;> rfl
  · simp [letter]

theorem scanBody?_plain {c : Char} (plain : c ≠ quote) (backslash : c ≠ '\\')
    (inside : endsLine c = false) (text : List Char) :
    scanBody? quote (c :: text) = (scanBody? quote text).map fun p => (c :: p.1, p.2) := by
  have stays : ¬(decide (c = '\\') || endsLine c) = true := by simp [backslash, inside]
  rw [scanBody?, if_neg plain, if_neg stays]
  · cases scanBody? quote text <;> rfl
  · simp [backslash]
  · simp [backslash]

theorem scanBody?_end (legal : IsQuote quote) (text : List Char) :
    scanBody? quote (quote :: text) = some ([], text) := by
  have backslash : quote ≠ '\\' := by rcases legal with rfl | rfl <;> decide
  rw [scanBody?, if_pos rfl]
  · simp [backslash]
  · simp [backslash]

/-- **An escaped character is scanned as the character**, and ends nothing. -/
theorem scanBody?_escape (legal : IsQuote quote) (c : Char) (text : List Char) :
    scanBody? quote (escape quote c ++ text) =
      (scanBody? quote text).map fun p => (c :: p.1, p.2) := by
  obtain ⟨e, written, means⟩ | ⟨line, written⟩ | ⟨written, plain, backslash, -, inside⟩ :=
    escape_cases legal c
  · rw [written]
    exact scanBody?_short means text
  · rw [written]
    rcases line with rfl | rfl | rfl
    · exact scanBody?_unit (by decide : (Json.hexUnit? '0' '0' '8' '5').bind ofUnit? = _) text
    · exact scanBody?_unit (by decide : (Json.hexUnit? '2' '0' '2' '8').bind ofUnit? = _) text
    · exact scanBody?_unit (by decide : (Json.hexUnit? '2' '0' '2' '9').bind ofUnit? = _) text
  · rw [written]
    exact scanBody?_plain plain backslash inside text

/-! ### Whole literals -/

/-- **A quoted text is scanned as the text, whatever follows it.** -/
theorem scanBody?_quoted (legal : IsQuote quote) (cs rest : List Char) :
    scanBody? quote (cs.flatMap (escape quote) ++ quote :: rest) = some (cs, rest) := by
  induction cs with
  | nil => exact scanBody?_end legal rest
  | cons c cs ih =>
      rw [List.flatMap_cons, List.append_assoc, scanBody?_escape legal, ih]
      rfl

theorem toList_quoted_append (cs rest : List Char) :
    (quoted quote cs).toList ++ rest = quote :: (cs.flatMap (escape quote) ++ quote :: rest) := by
  simp [quoted]

theorem scan?_quoted (legal : IsQuote quote) (cs rest : List Char) :
    scan? quote ((quoted quote cs).toList ++ rest) = some (cs, rest) := by
  rw [toList_quoted_append, scan?, if_pos rfl, scanBody?_quoted legal]

/-- A quoted literal determines its characters and where it ends. -/
theorem quoted_append_inj (legal : IsQuote quote) {cs ds rest others : List Char}
    (same : (quoted quote cs).toList ++ rest = (quoted quote ds).toList ++ others) :
    cs = ds ∧ rest = others := by
  have read := scan?_quoted legal cs rest
  rw [same, scan?_quoted legal ds others] at read
  simpa [eq_comm] using read

/--
**Strings and characters read back exactly.** Whatever text follows a string's literal, scanning
stops where it begins and gives the string; so with a character of 16 bits, and only a character
beyond them has no literal.
-/
theorem scan_literal :
    (∀ s t : String, scanString? (string s ++ t) = some (s, t)) ∧
    (∀ c : Char, c.toNat ≤ 0xFFFF →
      ∃ text, char c = .ok text ∧ ∀ t, scanChar? (text ++ t) = some (c, t)) ∧
    ∀ c : Char, 0xFFFF < c.toNat → char c = .error (.unsupported (.charBeyondPlane c)) := by
  refine ⟨fun s t => ?_, fun c narrow => ⟨quoted '\x27' [c], if_pos narrow, fun t => ?_⟩,
    fun c wide => if_neg (Nat.not_le.mpr wide)⟩
  · rw [scanString?, string, String.toList_append, scan?_quoted (.inl rfl), Option.map_some,
      String.ofList_toList, String.ofList_toList]
  · rw [scanChar?, String.toList_append, scan?_quoted (.inr rfl)]
    exact congrArg (fun rest => some (c, rest)) String.ofList_toList

/-- Backslashes before the closing quote, a digit behind a zero and a quote of the other kind. -/
theorem scan_literal_backslashes :
    let s := "a'\x22\\\\\x001\u2028\\"
    scanString? (string s ++ "\x22;") = some (s, "\x22;") ∧
    ('\x27'.toNat ≤ 0xFFFF ∧
      ∃ text, char '\x27' = .ok text ∧ scanChar? (text ++ "'") = some ('\x27', "'")) ∧
    0xFFFF < '😀'.toNat ∧ char '😀' = .error (.unsupported (.charBeyondPlane '😀')) := by
  intro s
  obtain ⟨strings, chars, beyond⟩ := scan_literal
  obtain ⟨text, written, read⟩ := chars '\x27' (by decide)
  exact ⟨strings s _, ⟨by decide, text, written, read _⟩, by decide, beyond _ (by decide)⟩

end SignatureText.Literal
