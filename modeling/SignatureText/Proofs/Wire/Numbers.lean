/-
**Numbers through JSON.**

* `Reader.decode_single` — **every finite 32-bit number comes back bit by bit**, though its digits
  are the shortest for 32 bits and are read with arithmetic of 64. The numbers whose digits lie next
  to a midpoint of the format are the reason to doubt it; how these are told apart is in
  `Format.doubtful`, and by the nearest number of 64 bits one magnitude would not come back.
* `Reader.decode_decimal` — **a decimal comes back with its mantissa and its scale**, and with its
  sign if it is not zero. So its literal stays, but for the minus sign of a zero.
* `Reader.decode_minusZero` — that sign is indeed lost.
* `Reader.decode_spelled` — **a decimal is decoded as it is spelled**, without rounding as long as
  its digits fit, and its literal has the digits of the spelling.
-/

import SignatureText.Literal
import SignatureText.Proofs.Literal.Real
import SignatureText.Proofs.Number.Spelling
import SignatureText.Proofs.Wire.Settled

namespace SignatureText.Reader

/-! ### 32-bit numbers -/

/-- **By arithmetic every finite 32-bit number comes back as it was, and so has the same literal.**
-/
theorem decode_single (x : Binary .single) (finite : x.isFinite = true) :
    decode (constant .arithmetic) (Json.ofConstant (.single x)).toText = .ok (.single x) ∧
      (decode (constant .arithmetic) (Json.ofConstant (.single x)).toText).map Literal.constant =
        .ok (Literal.constant (.single x)) := by
  have kept := Rounding.arithmetic_single?_numeral finite
  have reads : Reads (constant .arithmetic) (Json.ofConstant (.single x)) (.single x) :=
    Json.reads_constant_of fun _ => .content rfl ((Json.reads_single ⟨finite, kept⟩).map _)
  have shallow : (Json.ofConstant (.single x)).nesting ≤ mostLevels := by
    simp [Json.ofConstant, Json.ofBinary, finite, Json.nesting_record, Json.memberNesting,
      Json.nesting, mostLevels]
  have same := reads.decode shallow
  exact ⟨same, by rw [same]; rfl⟩

/-- The number whose shortest digits the nearest 64-bit number would lose. -/
theorem decode_single_midpoint :
    (Binary.ofBits .single 0x15ae43fd).isFinite = true ∧
      decode (constant .arithmetic)
        (Json.ofConstant (.single (.ofBits .single 0x15ae43fd))).toText =
          .ok (.single (.ofBits .single 0x15ae43fd)) := by
  have finite : (Binary.ofBits .single 0x15ae43fd).isFinite = true := by decide
  exact ⟨finite, (decode_single _ finite).1⟩

/-! ### Decimals -/

variable (rounding : Rounding)

/-- The text of a decimal decodes to the decimal, settled. -/
theorem decode_decimal_settled (d : Decimal) :
    decode (constant rounding) (Json.ofConstant (.decimal d)).toText =
      .ok (.decimal d.settled) := by
  have held : ∀ part ∈ (Constant.decimal d).parts, part.Held rounding :=
    List.forall_mem_singleton.mpr ⟨trivial, trivial⟩
  have reads := Json.reads_constant_settled (.decimal d) held
  have shallow : (Json.ofConstant (.decimal d)).nesting ≤ mostLevels := by
    simp [Json.ofConstant, Json.ofString, Json.nesting_record, Json.memberNesting, Json.nesting,
      mostLevels]
  exact reads.decode shallow

/--
**A decimal comes back with its mantissa, its scale and the sign of what is not zero**, so its
literal stays. A zero with a sign comes back as the zero of the same scale without one, and its
literal is that of the other behind a minus sign.
-/
theorem decode_decimal (d : Decimal) :
    ∃ back : Decimal,
      decode (constant rounding) (Json.ofConstant (.decimal d)).toText = .ok (.decimal back) ∧
      back.mantissa = d.mantissa ∧ back.scale = d.scale ∧
      (¬(d.negative = true ∧ d.mantissa = 0) → Literal.decimal back = Literal.decimal d) ∧
      (d.negative = true ∧ d.mantissa = 0 →
        Literal.decimal d = "-" ++ Literal.decimal back) := by
  refine ⟨d.settled, decode_decimal_settled rounding d, rfl, rfl, fun signed => ?_, fun zero => ?_⟩
  · rw [Decimal.settled_eq_self fun negative zero => signed ⟨negative, zero⟩]
  · obtain ⟨negative, mantissa⟩ := zero
    simp [Literal.decimal, Decimal.text, Decimal.settled, negative, mantissa, Text.sign,
      String.append_assoc]

/-- The literal of the negative zero with two places is not that of what its text decodes to. -/
theorem decode_minusZero :
    let zero : Decimal := ⟨true, 0, 2, by decide, by decide⟩
    ¬∃ v, decode (constant .arithmetic) (Json.ofConstant (.decimal zero)).toText = .ok v ∧
      Literal.constant v = Literal.constant (.decimal zero) := by
  rintro zero ⟨v, decoded, same⟩
  rw [decode_decimal_settled] at decoded
  cases decoded
  revert same
  decide

/-! ### Spellings -/

/--
**A decimal is decoded as it is spelled.** Wherever a text holds a decimal constant with digits that
fit, the digits are the mantissa, those behind the point count as the scale, and the minus sign
stays unless all digits are zero. The literal has the same digits on both sides of the point but for
superfluous zeros in front, and neither plus sign nor underscore.
-/
theorem decode_spelled {sign digits : List Char} (legal : Decimal.IsSign sign)
    (spelled : Decimal.Spelled digits) (started : ∃ c ∈ digits, c.isDigit = true)
    (short : (Decimal.placesOf digits).length ≤ Decimal.mostPlaces)
    (small : Nat.ofDigitChars 10 (Decimal.digitsOf digits) 0 ≤ Decimal.greatest) {text : String}
    (holds : Holds text (.record [("decimal", .ofString (String.ofList (sign ++ digits)))])) :
    ∃ d, decode (constant rounding) text = .ok (.decimal d) ∧
      d.mantissa = Nat.ofDigitChars 10 (Decimal.digitsOf digits) 0 ∧
      d.scale = (Decimal.placesOf digits).length ∧
      (d.negative = true ↔ sign = ['-'] ∧ d.mantissa ≠ 0) ∧
      (Literal.decimal d).toList = (if d.negative then ['-'] else []) ++
        Text.withPlaces (Text.significant (Decimal.wholeOf digits)) (Decimal.placesOf digits) ++
          ['M'] := by
  obtain ⟨d, read, negative, mantissa, scale⟩ :=
    Decimal.read_spelled legal { spelled with small, short } started
  have reads : Reads (constant rounding)
      (.record [("decimal", .ofString (String.ofList (sign ++ digits)))]) (.decimal d) :=
    Json.reads_constant_of fun _ =>
      .content rfl (Reads.map (.leaf (by rw [Json.ofString, Json.isWhole]) read) _)
  have shallow : (Json.record [("decimal",
      .ofString (String.ofList (sign ++ digits)))]).nesting ≤ mostLevels := by
    simp [Json.ofString, Json.nesting_record, Json.memberNesting, Json.nesting, mostLevels]
  have written : (Text.pointed (Nat.ofDigitChars 10 (Decimal.wholeOf digits ++
      Decimal.placesOf digits) 0) (Decimal.placesOf digits).length).toList = _ :=
    Text.toList_pointed_ofDigitChars Decimal.isDigit_of_mem_digitsOf
      Decimal.isDigit_of_mem_digitsOf
  rw [Decimal.wholeOf_append_placesOf, ← mantissa, ← scale] at written
  refine ⟨d, holds.decode.mpr (reads.result mostLevels shallow), mantissa, scale, ?_, ?_⟩
  · rw [negative, Bool.and_eq_true, decide_eq_true_eq, decide_eq_true_eq]
  · rw [Literal.toList_decimal, written]

/-- The largest mantissa with all places, spelled with superfluous zeros and underscores. -/
theorem decode_spelled_limit :
    let digits := "00_7.9_228162514264337593543950335_".toList
    let tree := Json.record [("decimal", .ofString (String.ofList (['-'] ++ digits)))]
    (Decimal.IsSign ['-'] ∧ Decimal.Spelled digits ∧ (∃ c ∈ digits, c.isDigit = true) ∧
        (Decimal.placesOf digits).length ≤ Decimal.mostPlaces ∧
        Nat.ofDigitChars 10 (Decimal.digitsOf digits) 0 ≤ Decimal.greatest ∧
        Holds tree.toText tree) ∧
      ∃ d, decode (constant .arithmetic) tree.toText = .ok (.decimal d) ∧
        d.mantissa = Decimal.greatest ∧
        d.scale = 28 ∧ Literal.decimal d = "-7.9228162514264337593543950335M" := by
  intro digits tree
  have legal : digits.all (fun c => c.isDigit ∨ c = '_' ∨ c = '.') = true := by decide
  have spelled : Decimal.Spelled digits :=
    ⟨fun c inside => of_decide_eq_true (List.all_eq_true.mp legal c inside), by decide, by decide⟩
  have started : ∃ c ∈ digits, c.isDigit = true := ⟨'7', by decide, rfl⟩
  have holds : Holds tree.toText tree := holds_toText (by decide)
  obtain ⟨d, decoded, mantissa, scale, negative, literal⟩ := decode_spelled .arithmetic
    (.inr (.inr rfl)) spelled started (by decide) (by decide) holds
  refine ⟨⟨.inr (.inr rfl), spelled, started, by decide, by decide, holds⟩, d, decoded,
    mantissa.trans (by decide), scale.trans (by decide), ?_⟩
  have minus : d.negative = true := negative.mpr ⟨rfl, by rw [mantissa]; decide⟩
  rw [← String.toList_inj, literal, minus]
  decide

end SignatureText.Reader
