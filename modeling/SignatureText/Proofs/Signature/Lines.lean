/-
**Constants never break a line.**

Whatever characters and strings a callable holds, the strict style writes its parameters and
arguments on one line, as long as its names are on one line themselves.

* `Text.Unbroken` — the text holds neither zero nor a character that ends a line. Texts put together
  from unbroken ones are unbroken.
* `Callable.names` — the names that are written as they are: of parameters, types, enum members and
  named arguments, at any depth of a constant.
* `Literal.unbroken_quoted` — quoted literals are unbroken: a character that breaks a line is always
  escaped (`Literal.escape_cases`), and no escape holds one.
* `Declaration.unbroken_bindingName` — lower case keeps a name unbroken.
* `Generator.signature_unbroken` — **so both lists of a signature stay on their line**, level by
  level: constants by recursion, arguments, attributes, declarations, and all parameters that stay.
-/

import SignatureText.Proofs.Literal.EnumValue
import SignatureText.Proofs.Literal.Quoted
import SignatureText.Proofs.Literal.Said
import SignatureText.Proofs.Signature.Leniency
import SignatureText.Proofs.Text.Character

namespace SignatureText

/-! ### Texts on one line -/

namespace Text

/-- A character that a line of source text cannot hold: zero, or one that ends the line. -/
def breaksLine (c : Char) : Bool :=
  c = '\x00' || Literal.endsLine c

/-- The text stays on its line. -/
def Unbroken (s : String) : Prop :=
  ∀ c ∈ s.toList, breaksLine c = false

-- Only the characters of the text are looked at, though there are finitely many in all.
instance (s : String) : Decidable (Unbroken s) :=
  List.decidableBAll (fun c => breaksLine c = false) s.toList

@[simp] theorem unbroken_append {s t : String} : Unbroken (s ++ t) ↔ Unbroken s ∧ Unbroken t := by
  simp only [Unbroken, String.toList_append, List.forall_mem_append]

theorem unbroken_join {texts : List String} (each : ∀ text ∈ texts, Unbroken text) :
    Unbroken (String.join texts) := by
  induction texts with
  | nil => decide
  | cons text rest ih =>
      rw [List.forall_mem_cons] at each
      rw [String.join_cons]
      exact unbroken_append.mpr ⟨each.1, ih each.2⟩

theorem unbroken_intercalate {separator : String} (between : Unbroken separator)
    {texts : List String} (each : ∀ text ∈ texts, Unbroken text) :
    Unbroken (separator.intercalate texts) := by
  induction texts with
  | nil =>
      intro c member
      simp at member
  | cons text rest ih =>
      rw [List.forall_mem_cons] at each
      cases rest with
      | nil => simpa using each.1
      | cons next others =>
          rw [String.intercalate_cons_cons]
          exact unbroken_append.mpr ⟨unbroken_append.mpr ⟨each.1, between⟩, ih each.2⟩

theorem breaksLine_eq_false_iff {c : Char} :
    breaksLine c = false ↔
      c ≠ '\x00' ∧ c ≠ '\r' ∧ c ≠ '\n' ∧ c ≠ '\u0085' ∧ c ≠ '\u2028' ∧ c ≠ '\u2029' := by
  simp [breaksLine, Literal.endsLine, and_assoc]

theorem breaksLine_of_isDigit {c : Char} (digit : c.isDigit = true) : breaksLine c = false := by
  refine breaksLine_eq_false_iff.mpr ⟨?_, ?_, ?_, ?_, ?_, ?_⟩ <;>
    · rintro rfl
      cases digit

/-! Letters go to letters: no run of lower-case letters holds a character that breaks a line. -/

/-- The code point is a character's that stays on its line. -/
def IsInner (n : Nat) : Prop :=
  n.isValidChar ∧ n ≠ 0 ∧ n ≠ 0xA ∧ n ≠ 0xD ∧ n ≠ 0x85 ∧ n ≠ 0x2028 ∧ n ≠ 0x2029

theorem breaksLine_ofNat {n : Nat} (inner : IsInner n) : breaksLine (Char.ofNat n) = false := by
  obtain ⟨valid, others⟩ := inner
  have code : (Char.ofNat n).toNat = n := by
    rw [Char.ofNat, dif_pos valid]
    exact UInt32.toNat_ofNatLT
  have other {c : Char} (different : n ≠ c.toNat) : Char.ofNat n ≠ c := by
    rintro rfl
    exact different code.symm
  obtain ⟨zero, feed, return_, next, line, paragraph⟩ := others
  exact breaksLine_eq_false_iff.mpr
    ⟨other zero, other return_, other feed, other next, other line, other paragraph⟩

/-- A run's lower-case letters lie between characters that break lines. -/
theorem all_caseRuns_inner : ∀ run ∈ caseRuns,
    0xD < run.lowered ∧
    (run.lowered + (run.last - run.first) < 0x85 ∨ 0x85 < run.lowered) ∧
    (run.lowered + (run.last - run.first) < 0x2028 ∨ 0x2029 < run.lowered) := by
  decide +kernel

theorem breaksLine_lowerCase {c : Char} (inside : breaksLine c = false) :
    ∀ d ∈ lowerCase c, breaksLine d = false := by
  intro d member
  obtain dotted | ⟨run, known, e, lowered, covered, code⟩ | same := lowerCase_cases c
  · simp only [dotted, List.mem_cons, List.not_mem_nil, or_false] at member
    rcases member with rfl | rfl <;> rfl
  · obtain ⟨low, latin, separators⟩ := all_caseRuns_inner run known
    obtain ⟨_, _, _⟩ := CaseRun.covers_iff.mp covered
    rw [lowered] at member
    rw [List.mem_singleton.mp member, ← Char.ofNat_toNat e]
    refine breaksLine_ofNat ⟨e.valid, ?_⟩
    simp only [code, CaseRun.lower]
    omega
  · rw [same] at member
    rwa [List.mem_singleton.mp member]

end Text

open Text (Unbroken)

/-! ### Names -/

/-- The names of an enum type and its members. -/
def EnumType.names (type : EnumType) : List String :=
  type.name :: type.members.map EnumMember.name

/-- The name of a type, and those of the enum type that it is. -/
def TypeRef.names (type : TypeRef) : List String :=
  type.name :: type.enum?.toList.flatMap EnumType.names

namespace Constant

mutual

/-- All names in a constant. -/
def names : Constant → List String
  | enumMember type _ => type.names
  | typeOf type => type.names
  | array type elements => type.names ++ allNames elements
  | null | bool _ | char _ | string _ | integer _ | single _ | double _ | decimal _ => []

/-- All names in a list of constants. -/
def allNames : List Constant → List String
  | [] => []
  | c :: cs => names c ++ allNames cs

end

end Constant

/-- All names in an attribute: of its class, of its named arguments and in their values. -/
def Attribute.names (attr : Attribute) : List String :=
  attr.type.toList.flatMap TypeRef.names ++ attr.positional.flatMap Constant.names ++
    attr.named.flatMap fun argument => argument.1 :: argument.2.names

/-- All names in a parameter, its own among them. -/
def Parameter.names (parameter : Parameter) : List String :=
  parameter.name :: parameter.type.names ++ parameter.attributes.flatMap Attribute.names ++
    parameter.defaultArgument.toList.flatMap Constant.names

/-- All names in the parameters of a callable. -/
def Callable.names (callable : Callable) : List String :=
  callable.parameters.flatMap Parameter.names

/-! ### Literals -/

namespace Literal

variable {quote : Char}

/-- No escape holds a character that breaks a line. -/
theorem breaksLine_of_mem_escape (legal : IsQuote quote) {c d : Char}
    (member : d ∈ escape quote c) : Text.breaksLine d = false := by
  obtain ⟨e, written, means⟩ | ⟨line, written⟩ | ⟨written, -, -, zero, inside⟩ :=
    escape_cases legal c
  · have letter : Text.breaksLine e = false := by
      refine Text.breaksLine_eq_false_iff.mpr ⟨?_, ?_, ?_, ?_, ?_, ?_⟩ <;>
        · rintro rfl
          cases means
    rw [written] at member
    simp only [List.mem_cons, List.not_mem_nil, or_false] at member
    rcases member with rfl | rfl
    · rfl
    · exact letter
  · have digits : ('\\' :: 'u' :: Text.upperHex c.toNat).any Text.breaksLine = false := by
      rcases line with rfl | rfl | rfl <;> decide
    rw [written] at member
    exact Bool.eq_false_iff.mpr (List.any_eq_false.mp digits d member)
  · rw [written] at member
    rw [List.mem_singleton.mp member, Text.breaksLine, inside, decide_eq_false zero]
    rfl

/-- **A quoted literal stays on its line**, whatever is quoted. -/
theorem unbroken_quoted (legal : IsQuote quote) (cs : List Char) :
    Unbroken (quoted quote cs) := by
  have delimiter : Text.breaksLine quote = false := by
    rcases legal with rfl | rfl <;> rfl
  intro d member
  rw [quoted, String.toList_ofList, List.mem_append, List.mem_cons, List.mem_flatMap,
    List.mem_singleton] at member
  rcases member with (rfl | ⟨c, -, written⟩) | rfl
  · exact delimiter
  · exact breaksLine_of_mem_escape legal written
  · exact delimiter

theorem unbroken_numeral (n : Numeral) : Unbroken (n.text exponentStyle) := by
  intro c member
  rcases isDigit_or_of_mem_numeral member with digit | rfl | rfl | rfl
  · exact Text.breaksLine_of_isDigit digit
  all_goals rfl

theorem unbroken_operand (n : Numeral) : Unbroken (operand n) := by
  unfold operand
  split
  · exact Text.unbroken_append.mpr
      ⟨Text.unbroken_append.mpr ⟨by decide, unbroken_numeral n⟩, by decide⟩
  · exact unbroken_numeral n

/-- **So does a literal without quotes.** -/
theorem unbroken_said {s : Said} (legal : s.Legal) : Unbroken s.text := by
  cases s with
  | word w =>
      have all : ∀ w ∈ Said.words, Unbroken w := by decide
      exact all w legal
  | number n suffix =>
      have all : ∀ suffix ∈ Said.suffixes, Unbroken suffix := by decide
      exact Text.unbroken_append.mpr ⟨unbroken_numeral n, all suffix legal⟩
  | cast keyword n =>
      have all : ∀ keyword ∈ Said.casts, Unbroken keyword := by decide
      have type : Unbroken ("(" ++ keyword ++ ")") := by
        simp only [Text.unbroken_append]
        exact ⟨⟨by decide, all keyword legal⟩, by decide⟩
      exact Text.unbroken_append.mpr ⟨type, unbroken_operand n⟩

theorem unbroken_digits (n : Integral) : Unbroken (digits n) := by
  have known : Unbroken (suffix n.type) := by
    cases n.type <;> decide
  rw [digits, ← text_ofInt]
  exact Text.unbroken_append.mpr ⟨unbroken_numeral _, known⟩

theorem unbroken_enumValue {type : EnumType} {n : Integral} {text : String}
    (names : ∀ name ∈ type.names, Unbroken name) (made : enumValue type n = .ok text) :
    Unbroken text := by
  rw [EnumType.names, List.forall_mem_cons, ← type.map_fst_entries] at names
  obtain ⟨own, members⟩ := names
  obtain ⟨holds, chosen⟩ := enumValue_eq_ok_iff.mp made
  cases chosen with
  | @member before after name split _ =>
      have inside : (name, n.value) ∈ type.entries :=
        split ▸ List.mem_append_right before List.mem_cons_self
      simp only [Text.unbroken_append]
      exact ⟨⟨own, by decide⟩, members _ (List.mem_map_of_mem inside)⟩
  | cast _ =>
      have number := unbroken_digits ⟨type.underlying, n.value, holds⟩
      unfold digits at number
      simp only [Text.unbroken_append] at number ⊢
      exact ⟨⟨⟨⟨by decide, own⟩, by decide⟩, number⟩, by decide⟩

theorem unbroken_typeOf {type : TypeRef} (name : Unbroken type.name) :
    Unbroken (typeOf type) := by
  have unmarked : Unbroken type.unmarkedName := by
    unfold TypeRef.unmarkedName
    split
    · intro c member
      rw [String.toList_ofList] at member
      exact name c (List.mem_of_mem_dropLast member)
    · exact name
  unfold typeOf
  split <;> simp only [Text.unbroken_append]
  · exact ⟨⟨by decide, unmarked⟩, by decide⟩
  all_goals exact ⟨⟨by decide, name⟩, by decide⟩

theorem unbroken_array {type : TypeRef} {texts : List String} (name : Unbroken type.name)
    (each : ∀ text ∈ texts, Unbroken text) : Unbroken (array type texts) := by
  have elements :
      Unbroken (if texts.isEmpty then "" else ", ".intercalate texts ++ " ") := by
    split
    · decide
    · exact Text.unbroken_append.mpr
        ⟨Text.unbroken_intercalate (by decide) each, by decide⟩
  simp only [array, Text.unbroken_append]
  exact ⟨⟨⟨⟨by decide, name⟩, by decide⟩, elements⟩, by decide⟩

theorem unbroken_of_said {c : Constant} {s : Said} {text : String} (meaning : said c = some s)
    (made : constant c = .ok text) : Unbroken text := by
  obtain rfl : s.text = text := Except.ok.inj ((constant_of_said meaning).symm.trans made)
  exact unbroken_said (legal_of_said meaning)

mutual

/-- **The literal of a constant stays on its line**, if its names do. -/
theorem unbroken_constant : (c : Constant) → {text : String} →
    (∀ name ∈ c.names, Unbroken name) → constant c = .ok text → Unbroken text
  | .null, _, _, made => unbroken_of_said rfl made
  | .bool _, _, _, made => unbroken_of_said rfl made
  | .integer _, _, _, made => unbroken_of_said rfl made
  | .single _, _, _, made => unbroken_of_said rfl made
  | .double _, _, _, made => unbroken_of_said rfl made
  | .decimal _, _, _, made => unbroken_of_said rfl made
  | .char c, text, _, made => by
      rw [constant, char] at made
      split at made
      · cases made
        exact unbroken_quoted (.inr rfl) [c]
      · cases made
  | .string s, text, _, made => by
      rw [constant] at made
      cases made
      exact unbroken_quoted (.inl rfl) s.toList
  | .enumMember type n, text, names, made => by
      rw [constant] at made
      exact unbroken_enumValue names made
  | .typeOf type, text, names, made => by
      rw [constant] at made
      cases made
      exact unbroken_typeOf (names _ List.mem_cons_self)
  | .array type elements, text, names, made => by
      rw [constant] at made
      obtain ⟨texts, inner, made⟩ := bind_eq_ok_iff.mp made
      cases made
      rw [Constant.names, List.forall_mem_append] at names
      exact unbroken_array (names.1 _ List.mem_cons_self)
        (unbroken_constants elements names.2 inner)

/-- So do the literals of a list of constants. -/
theorem unbroken_constants : (cs : List Constant) → {texts : List String} →
    (∀ name ∈ Constant.allNames cs, Unbroken name) → constants cs = .ok texts →
      ∀ text ∈ texts, Unbroken text
  | [], texts, _, made => by
      rw [constants] at made
      cases made
      intro text member
      cases member
  | c :: cs, texts, names, made => by
      rw [constants] at made
      obtain ⟨text, head, made⟩ := bind_eq_ok_iff.mp made
      obtain ⟨others, tail, made⟩ := bind_eq_ok_iff.mp made
      cases made
      rw [Constant.allNames, List.forall_mem_append] at names
      exact List.forall_mem_cons.mpr
        ⟨unbroken_constant c names.1 head, unbroken_constants cs names.2 tail⟩

end

end Literal

/-! ### Declarations -/

namespace Declaration

/-- **A binding's name stays on its line**, if the declared name does. -/
theorem unbroken_bindingName (escape : Bool) {name : String} (inside : Unbroken name) :
    Unbroken (bindingName escape name) := by
  have normalized : Unbroken (normalize name) := by
    intro c member
    rw [normalize, String.toList_ofList] at member
    unfold Unbroken at inside
    generalize name.toList = cs at inside member
    cases cs with
    | nil => cases member
    | cons first rest =>
        obtain ⟨initial, others⟩ := List.forall_mem_cons.mp inside
        rw [normalizeChars] at member
        split at member
        · rcases List.mem_append.mp member with lowered | member
          · exact Text.breaksLine_lowerCase initial c lowered
          · exact others c member
        · exact inside c member
  simp only [bindingName]
  split
  · exact Text.unbroken_append.mpr ⟨by decide, normalized⟩
  · exact normalized

end Declaration

namespace Style

variable {style : Style}

/-- The strict style takes an outcome as it is. -/
theorem settle_of_strict (strict : style.leniency = .strict) (c : Constant)
    (outcome : Except Refusal String) : style.settle c outcome = outcome := by
  unfold settle
  split
  · rw [strict]
  · rfl

theorem unbroken_constant (strict : style.leniency = .strict) {c : Constant} {text : String}
    (names : ∀ name ∈ c.names, Unbroken name) (made : style.constant c = .ok text) :
    Unbroken text := by
  rw [constant, settle_of_strict strict] at made
  exact Literal.unbroken_constant c names made

theorem unbroken_attributeArguments (strict : style.leniency = .strict) {attr : Attribute}
    {texts : List String} (names : ∀ name ∈ attr.names, Unbroken name)
    (made : style.attributeArguments attr = .ok texts) : ∀ text ∈ texts, Unbroken text := by
  simp only [Attribute.names, List.forall_mem_append, List.forall_mem_flatMap] at names
  obtain ⟨⟨-, positionalNames⟩, namedNames⟩ := names
  obtain ⟨positional, first, made⟩ := bind_eq_ok_iff.mp made
  obtain ⟨named, second, made⟩ := bind_eq_ok_iff.mp made
  cases made
  refine List.forall_mem_append.mpr ⟨fun text member => ?_, fun text member => ?_⟩
  · obtain ⟨c, inside, given⟩ := exists_of_mem_mapM_ok first text member
    exact unbroken_constant strict (positionalNames c inside) given
  · obtain ⟨argument, inside, given⟩ := exists_of_mem_mapM_ok second text member
    obtain ⟨own, valueNames⟩ := List.forall_mem_cons.mp (namedNames argument inside)
    obtain ⟨value, literal, given⟩ := bind_eq_ok_iff.mp given
    cases given
    simp only [Text.unbroken_append]
    exact ⟨⟨own, by decide⟩, unbroken_constant strict valueNames literal⟩

theorem unbroken_bracketed {attr : Attribute} {type : TypeRef} {texts : List String}
    (name : Unbroken type.name) (each : ∀ text ∈ texts, Unbroken text) :
    Unbroken (bracketed attr type texts) := by
  have arguments := Text.unbroken_intercalate (by decide : Unbroken ", ") each
  unfold bracketed
  split <;> simp only [Text.unbroken_append]
  · exact ⟨⟨⟨⟨by decide, name⟩, by decide⟩, arguments⟩, by decide⟩
  · exact ⟨⟨by decide, name⟩, by decide⟩

theorem unbroken_attributeText (strict : style.leniency = .strict) {attr : Attribute}
    {text : String} (names : ∀ name ∈ attr.names, Unbroken name)
    (made : style.attributeText attr = .ok text) : Unbroken text := by
  cases resolved : attr.type with
  | none =>
      rw [attributeText, resolved] at made
      cases made
  | some type =>
      have name : Unbroken type.name := names _ (by simp [Attribute.names, resolved, TypeRef.names])
      rw [attributeText_of_type _ resolved, map_eq_ok_iff] at made
      obtain ⟨texts, arguments, rfl⟩ := made
      exact unbroken_bracketed name (unbroken_attributeArguments strict names arguments)

/-- **The attributes of a parameter stay on their line**; those that are left out play no part. -/
theorem unbroken_attributes (strict : style.leniency = .strict) {attrs : List Attribute}
    {text : String} (names : ∀ attr ∈ attrs, ∀ name ∈ attr.names, Unbroken name)
    (made : style.attributes attrs = .ok text) : Unbroken text := by
  rw [attributes_eq_mapM, map_eq_ok_iff] at made
  obtain ⟨texts, written, rfl⟩ := made
  apply Text.unbroken_join
  rw [List.forall_mem_map]
  intro text member
  obtain ⟨attr, inside, given⟩ := exists_of_mem_mapM_ok written text member
  exact Text.unbroken_append.mpr ⟨unbroken_attributeText strict
    (names attr (List.mem_of_mem_filter inside)) given, by decide⟩

theorem unbroken_defaultLiteral {parameter : Parameter} {value : Constant} {text : String}
    (typeNames : ∀ name ∈ parameter.type.names, Unbroken name)
    (valueNames : ∀ name ∈ value.names, Unbroken name)
    (made : defaultLiteral parameter value = .ok text) : Unbroken text := by
  have enumNames {type : EnumType} (known : parameter.type.enum? = some type) :
      ∀ name ∈ type.names, Unbroken name := fun name member =>
    typeNames name (by simp [TypeRef.names, known, member])
  unfold defaultLiteral at made
  split at made
  · cases made
    split <;> decide
  · exact Literal.unbroken_enumValue (enumNames ‹_›) made
  · exact Literal.unbroken_enumValue (enumNames ‹_›) made
  · cases made
  · exact Literal.unbroken_constant _ valueNames made

theorem unbroken_defaultSuffix (strict : style.leniency = .strict) {parameter : Parameter}
    {text : String} (names : ∀ name ∈ parameter.names, Unbroken name)
    (made : style.defaultSuffix parameter = .ok text) : Unbroken text := by
  unfold defaultSuffix at made
  split at made
  · cases made
    decide
  · rename_i value present
    split at made
    · obtain ⟨literal, written, made⟩ := bind_eq_ok_iff.mp made
      cases made
      rw [defaultText_eq_settle, settle_of_strict strict] at written
      refine Text.unbroken_append.mpr
        ⟨by decide, unbroken_defaultLiteral (fun name member => ?_) (fun name member => ?_) written⟩
      · exact names name (by simp [Parameter.names, member])
      · exact names name (by simp [Parameter.names, present, member])
    · cases made

/-- **A declaration stays on its line.** -/
theorem unbroken_parameter (strict : style.leniency = .strict) {parameter : Parameter}
    {text : String} (names : ∀ name ∈ parameter.names, Unbroken name)
    (made : style.parameter parameter = .ok text) : Unbroken text := by
  have own : Unbroken parameter.name := names _ (by simp [Parameter.names])
  have typeName : Unbroken parameter.type.name := names _ (by simp [Parameter.names, TypeRef.names])
  have attributeNames : ∀ attr ∈ parameter.attributes, ∀ name ∈ attr.names, Unbroken name := by
    intro attr inside name member
    refine names name ?_
    simp only [Parameter.names, List.mem_append, List.mem_flatMap]
    exact .inl (.inr ⟨attr, inside, member⟩)
  have modifier : Unbroken parameter.modifier := by
    unfold Parameter.modifier
    split
    · decide
    · cases parameter.passing <;> decide
  have typeText : Unbroken parameter.typeText := by
    unfold Parameter.typeText
    split
    · rw [String.push_eq_append]
      exact Text.unbroken_append.mpr ⟨typeName, by decide⟩
    · exact typeName
  obtain ⟨attributes, first, made⟩ := bind_eq_ok_iff.mp made
  obtain ⟨suffix, second, made⟩ := bind_eq_ok_iff.mp made
  cases made
  simp only [Text.unbroken_append]
  exact ⟨⟨⟨⟨⟨unbroken_attributes strict attributeNames first, modifier⟩, typeText⟩, by decide⟩,
    Declaration.unbroken_bindingName _ own⟩, unbroken_defaultSuffix strict names second⟩

theorem unbroken_argument (style : Style) {parameter : Parameter}
    (own : Unbroken parameter.name) : Unbroken (style.argument parameter) := by
  have modifier : Unbroken parameter.passing.modifier := by
    cases parameter.passing <;> decide
  exact Text.unbroken_append.mpr ⟨modifier, Declaration.unbroken_bindingName _ own⟩

end Style

/-! ### Signatures -/

namespace Generator

variable {generator : Generator}

/-- **All texts made of a list of parameters stay on their line**, whatever is left out. -/
theorem unbroken_parts (strict : generator.style.leniency = .strict) {parameters : List Parameter}
    {parts : Parts} (names : ∀ parameter ∈ parameters, ∀ name ∈ parameter.names, Unbroken name)
    (made : generator.parts parameters = .ok parts) :
    (∀ text ∈ parts.declarations, Unbroken text) ∧ ∀ text ∈ parts.arguments, Unbroken text := by
  induction parameters generalizing parts with
  | nil =>
      cases made
      simp
  | cons parameter rest ih =>
      rw [List.forall_mem_cons] at names
      rw [Generator.parts] at made
      split at made
      · rename_i declaration declared
        obtain ⟨others, tail, made⟩ := bind_eq_ok_iff.mp made
        cases made
        obtain ⟨declarations, arguments⟩ := ih names.2 tail
        have own : Unbroken parameter.name := names.1 _ (by simp [Parameter.names])
        exact ⟨List.forall_mem_cons.mpr
            ⟨Style.unbroken_parameter strict names.1 declared, declarations⟩,
          List.forall_mem_cons.mpr ⟨Style.unbroken_argument _ own, arguments⟩⟩
      · split at made
        · cases made
        · obtain ⟨others, tail, made⟩ := bind_eq_ok_iff.mp made
          cases made
          have kept := ih names.2 tail
          exact kept

/--
**No constant breaks a line of a signature.** With a strict style and all names on one line, the
parameters and the arguments of every signature that is made are on one line, whatever the policy.
-/
theorem signature_unbroken (generator : Generator) (strict : generator.style.leniency = .strict)
    (callable : Callable) (names : ∀ name ∈ callable.names, Unbroken name) (signature : Signature)
    (made : generator.signature callable = .ok signature) :
    Unbroken signature.parameters ∧ Unbroken signature.arguments := by
  unfold Generator.signature at made
  split at made
  · cases made
  · obtain ⟨parts, parted, made⟩ := bind_eq_ok_iff.mp made
    cases made
    rw [Callable.names, List.forall_mem_flatMap] at names
    obtain ⟨declarations, arguments⟩ := unbroken_parts strict names parted
    exact ⟨Text.unbroken_intercalate (by decide) declarations,
      Text.unbroken_intercalate (by decide) arguments⟩

/-- Line breaks in a string, in a nested array and in a character that is left out. -/
theorem signature_unbroken_breaks :
    let generator : Generator := { policy := .skip }
    let lines : Constant := .array (.reference "string[]")
      [.array (.reference "string") [.string "a\r\n\u0085", .char '\u2028']]
    let note : Attribute := ⟨some (.reference "Note"), [lines], [("End", .char '\x00')]⟩
    let callable : Callable := ⟨none,
      [(Parameter.ofType "Text" (.reference "string")).withAttribute note |>.withDefault
          (.string "\u2029"),
        (Parameter.ofType "Glyph" (.value "char")).withDefault (.char '😀')]⟩
    ∃ signature,
      (generator.style.leniency = .strict ∧ (∀ name ∈ callable.names, Unbroken name) ∧
        generator.signature callable = .ok signature ∧ signature.skipped = ["Glyph"]) ∧
      Unbroken signature.parameters ∧ Unbroken signature.arguments := by
  intro generator lines note callable
  have names : ∀ name ∈ callable.names, Unbroken name := by decide
  exact ⟨_, ⟨rfl, names, rfl, rfl⟩, signature_unbroken generator rfl callable names _ rfl⟩

end Generator

end SignatureText
